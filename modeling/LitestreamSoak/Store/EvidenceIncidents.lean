import LitestreamSoak.Lib.LeastIndex
import LitestreamSoak.Store.EvidenceJournal

/-!
# Store — an incident is owned by the first row that reported it

Many journal rows report the same incident; `evidence_profile_incidents` keeps it once, with the
id of one of them. `IncidentTable.owner` is that id, `reporters` the ids of all rows that carry
the key, and the table is in order when the first is the least of the second (`IndexesLeast`). A
recorded report and a compaction keep it so: an upsert moves an incident to an older row only, and
a compaction skips an incident only when an owner not after the row is known (`KnowsOwners`).

A prune deletes the incidents of the rows it deletes, and the table has no second candidate. A
batch takes the sixteen oldest rows, so it deletes incidents that rows of the next batch report as
well. When the deployment stops being eligible before that batch, these rows stay, without their
incidents.
-/

namespace LitestreamSoak.Store.Evidence

open Lib List Option

variable {Digest : Type} {c : Codec Digest}

/-! ## §1 — owners -/

namespace IncidentTable

variable [DecidableEq Digest] {t : IncidentTable Digest}

theorem owner_eq_some_iff {k : ProfileIncidentKey Digest} {n : Nat} :
    t.owner k = some n ↔ ∃ row ∈ t.rows, row.key = k ∧ row.runtimeID = n := by
  constructor
  · intro h
    obtain ⟨row, hfind, hn⟩ := map_eq_some_iff.mp h
    exact ⟨row, mem_of_find?_eq_some hfind, by simpa using find?_some hfind, hn⟩
  · intro ⟨row, hrow, hkey, hn⟩
    have hsome : (t.find? k).isSome = true := by
      rw [find?, find?_isSome]
      exact ⟨row, hrow, by simpa using hkey⟩
    obtain ⟨found, hfound⟩ := isSome_iff_exists.mp hsome
    have hkey' : found.key = k := by simpa using find?_some hfound
    have heq : found = row := inj_on_of_nodup_map t.keys_unique
      (mem_of_find?_eq_some hfound) hrow (hkey'.trans hkey.symm)
    rw [owner, hfound, heq, map_some, hn]

theorem owner_upsert_self (t : IncidentTable Digest) (new : IncidentRow Digest) :
    (t.upsert new).1.owner new.key = some (holder (t.owner new.key) new.runtimeID) := by
  rw [owner_eq_some_iff]
  unfold upsert owner
  split
  -- the row is new, or keeps the smaller of the two owners
  · grind [holder]
  · grind [holder, IncidentTable.find?]

theorem owner_upsert_of_ne (t : IncidentTable Digest) (new : IncidentRow Digest)
    {k : ProfileIncidentKey Digest} (hk : k ≠ new.key) :
    (t.upsert new).1.owner k = t.owner k := by
  ext n
  rw [owner_eq_some_iff, owner_eq_some_iff]
  unfold upsert
  split
  -- a new row and a changed row have the other key
  · grind
  · grind

theorem owner_deleteExcept (t : IncidentTable Digest) (keep : Nat → Bool)
    (k : ProfileIncidentKey Digest) :
    (t.deleteExcept keep).owner k = (t.owner k).filter keep := by
  ext n
  grind [filter_eq_some_iff, IncidentTable.owner_eq_some_iff, IncidentTable.deleteExcept]

end IncidentTable

/-! ## §2 — a report normalised -/

def RuntimeJSON.incidentKeys (c : Codec Digest) (identity : Identity) (attributed : Bool) :
    RuntimeJSON → List (ProfileIncidentKey Digest)
  | .object fields => ((incidentEntries c identity attributed fields).getD []).map Prod.fst
  | _ => []

/-- What is cached of an owner is not too low. -/
def KnowsOwners [DecidableEq Digest] (t : IncidentTable Digest)
    (known : ProfileIncidentKey Digest → Option Nat) : Prop :=
  ∀ k n, known k = some n → ∃ o, t.owner k = some o ∧ o ≤ n

/-- No owner is lost or raised. -/
def Lowers [DecidableEq Digest] (t t' : IncidentTable Digest) : Prop :=
  ∀ k o, t.owner k = some o → ∃ o', t'.owner k = some o' ∧ o' ≤ o

/-- The row now counts as a reporter of the keys. -/
structure Owned [DecidableEq Digest] (w w' : Work c) (id : Nat)
    (keys : List (ProfileIncidentKey Digest)) : Prop where
  index : ∀ S, IndexesLeast w.incidents.owner S →
    IndexesLeast w'.incidents.owner (withKeys S id keys)
  lowers : Lowers w.incidents w'.incidents
  caches : w'.caches.isSome = w.caches.isSome
  knows : ∀ known ∈ w'.caches.map Caches.known, KnowsOwners w'.incidents known

section Normalize

variable [DecidableEq Digest]
variable {w w₂ w₁ : Work c} {id : Nat}

theorem Lowers.refl (t : IncidentTable Digest) : Lowers t t := fun _ o h => ⟨o, h, le_refl o⟩

theorem Lowers.trans {t₁ t₂ t₃ : IncidentTable Digest} (h₁ : Lowers t₁ t₂) (h₂ : Lowers t₂ t₃) :
    Lowers t₁ t₃ := by
  grind [Lowers]

theorem KnowsOwners.lowers {t t' : IncidentTable Digest}
    {known : ProfileIncidentKey Digest → Option Nat} (h : KnowsOwners t known)
    (hlow : Lowers t t') : KnowsOwners t' known := by
  intro k n hk
  obtain ⟨o, ho, hle⟩ := h k n hk
  obtain ⟨o', ho', hle'⟩ := hlow k o ho
  exact ⟨o', ho', hle'.trans hle⟩

theorem Owned.refl (id : Nat)
    (hknows : ∀ known ∈ w.caches.map Caches.known, KnowsOwners w.incidents known) :
    Owned w w id [] :=
  ⟨fun S h => by rwa [withKeys_nil], .refl _, rfl, hknows⟩

theorem Owned.cons {w₃ : Work c} {k : ProfileIncidentKey Digest}
    {keys : List (ProfileIncidentKey Digest)} (h₁ : Owned w₁ w₂ id [k])
    (h₂ : Owned w₂ w₃ id keys) : Owned w₁ w₃ id (k :: keys) := by
  refine ⟨fun S h => ?_, h₁.lowers.trans h₂.lowers, h₂.caches.trans h₁.caches, h₂.knows⟩
  rw [← withKeys_withKeys]
  exact h₂.index _ (h₁.index S h)

theorem owned_skip {k : ProfileIncidentKey Digest}
    (hknows : ∀ known ∈ w.caches.map Caches.known, KnowsOwners w.incidents known)
    (hskip : (w.caches.bind (·.known k)).any (· ≤ id) = true) : Owned w w id [k] := by
  refine ⟨fun S h => h.insert ?_ fun _ _ => rfl, .refl _, rfl, hknows⟩
  cases hfirst : w.caches.bind (·.known k) with
  | none =>
    rw [hfirst] at hskip
    cases hskip
  | some first =>
    rw [hfirst] at hskip
    obtain ⟨m, hm, hknown⟩ := bind_eq_some_iff.mp hfirst
    obtain ⟨o, ho, hole⟩ := hknows m.known (Option.mem_map_of_mem _ hm) k first hknown
    have hid : o ≤ id := hole.trans (of_decide_eq_true hskip)
    rw [ho]
    exact congrArg some (min_eq_left hid).symm

theorem owned_upsert (id ordinal : Nat) (k : ProfileIncidentKey Digest) (item : Item)
    (hknows : ∀ known ∈ w.caches.map Caches.known, KnowsOwners w.incidents known) :
    Owned w ⟨(w.incidents.upsert ⟨k, id, ordinal, item⟩).1, w.records,
      w.caches.map (·.own k id)⟩ id [k] := by
  have hself := w.incidents.owner_upsert_self ⟨k, id, ordinal, item⟩
  have hother : ∀ k' ≠ k, (w.incidents.upsert ⟨k, id, ordinal, item⟩).1.owner k' =
      w.incidents.owner k' := fun k' hk' => w.incidents.owner_upsert_of_ne _ hk'
  have hlow : Lowers w.incidents (w.incidents.upsert ⟨k, id, ordinal, item⟩).1 := by
    intro k' o ho
    by_cases hk' : k' = k
    · rw [hk'] at ho ⊢
      exact ⟨_, hself, holder_le id ho⟩
    · exact ⟨o, (hother k' hk').trans ho, le_refl o⟩
  refine ⟨fun S h => h.insert hself hother, hlow, isSome_map, ?_⟩
  intro known hknown k' n hn
  rw [Option.map_map] at hknown
  obtain ⟨m, hm, rfl⟩ := Option.mem_map.mp hknown
  by_cases hk' : k' = k
  · rw [hk'] at hn ⊢
    have hid : some id = some n := by
      rw [← hn]
      exact (Function.update_self k (some id) m.known).symm
    cases hid
    exact ⟨_, hself, holder_le_new _ id⟩
  · have hold : m.known k' = some n := by
      rw [← hn]
      exact (Function.update_of_ne hk' (some id) m.known).symm
    exact ((hknows m.known (Option.mem_map_of_mem _ hm)).lowers hlow) k' n hold

/-- **The incidents of one report.** -/
theorem storeIncidents_owned (id ordinal : Nat)
    (entries : List (ProfileIncidentKey Digest × Item))
    (hknows : ∀ known ∈ w.caches.map Caches.known, KnowsOwners w.incidents known) :
    Owned w (storeIncidents id ordinal entries w).1 id (entries.map Prod.fst) := by
  induction entries generalizing ordinal w with
  | nil => exact .refl id hknows
  | cons entry entries ih =>
    rw [storeIncidents, map_cons]
    split
    · next hskip => exact (owned_skip hknows hskip).cons (ih _ hknows)
    · have hone := owned_upsert id ordinal entry.1 entry.2 hknows
      exact hone.cons (ih _ hone.knows)

structure SameIncidents (w w' : Work c) : Prop where
  incidents : w'.incidents = w.incidents
  known : w'.caches.map Caches.known = w.caches.map Caches.known

omit [DecidableEq Digest] in
theorem SameIncidents.trans {w₃ : Work c} (h₁ : SameIncidents w₁ w₂)
    (h₂ : SameIncidents w₂ w₃) : SameIncidents w₁ w₃ :=
  ⟨h₂.incidents.trans h₁.incidents, h₂.known.trans h₁.known⟩

theorem Owned.same {keys : List (ProfileIncidentKey Digest)}
    (h : Owned w w₁ id keys) (hsame : SameIncidents w₁ w₂) : Owned w w₂ id keys := by
  refine ⟨?_, ?_, ?_, ?_⟩
  · rw [hsame.incidents]
    exact h.index
  · rw [hsame.incidents]
    exact h.lowers
  · rw [← h.caches, ← isSome_map, hsame.known, isSome_map]
  · rw [hsame.known, hsame.incidents]
    exact h.knows

theorem storeRecord_sameIncidents (item : Item) (w : Work c) :
    SameIncidents w (storeRecord item w).1 := by
  obtain ⟨incidents, records, caches⟩ := w
  unfold storeRecord
  cases caches with
  | none => exact ⟨rfl, rfl⟩
  | some m =>
    dsimp only
    split
    · exact ⟨rfl, rfl⟩
    · exact ⟨rfl, rfl⟩

theorem storeRecords_sameIncidents (items : List Item) (w : Work c) :
    SameIncidents w (storeRecords items w).1 := by
  induction items generalizing w with
  | nil => exact ⟨rfl, rfl⟩
  | cons item items ih => exact (storeRecord_sameIncidents item w).trans (ih _)

theorem normalizeRecords_sameIncidents (fields : Fields) (w : Work c) :
    SameIncidents w (normalizeRecords fields w).1 ∧
    (normalizeRecords fields w).2.lookup .profileIncidents = fields.lookup .profileIncidents := by
  have hlookup : ∀ encoded, ((fields.erase .profileRecords).insert profileRecordRefsKey
      encoded).lookup .profileIncidents = fields.lookup .profileIncidents := by
    intro encoded
    have hrefs : Field.profileIncidents ≠ profileRecordRefsKey := by decide
    have hrecords : Field.profileIncidents ≠ .profileRecords := by decide
    rw [Finmap.lookup_insert_of_ne _ hrefs, Finmap.lookup_erase_ne hrecords]
  unfold normalizeRecords
  split
  · exact ⟨⟨rfl, rfl⟩, rfl⟩
  · exact ⟨⟨rfl, rfl⟩, hlookup _⟩
  · exact ⟨storeRecords_sameIncidents _ w, hlookup _⟩
  · exact ⟨⟨rfl, rfl⟩, rfl⟩

omit [DecidableEq Digest] in
theorem incidentKeys_eq_nil {fields : Fields} (identity : Identity) (attributed : Bool)
    (h : (fields.lookup .profileIncidents).bind (decodeIncidents c) = none) :
    (RuntimeJSON.object fields).incidentKeys c identity attributed = [] := by
  rw [RuntimeJSON.incidentKeys, incidentEntries, h]
  rfl

theorem normalizeIncidents_owned (id : Nat) (identity : Identity) (attributed : Bool)
    (fields : Fields)
    (hknows : ∀ known ∈ w.caches.map Caches.known, KnowsOwners w.incidents known) :
    Owned w (normalizeIncidents id identity attributed fields w).1 id
      ((RuntimeJSON.object fields).incidentKeys c identity attributed) ∧
    ((normalizeIncidents id identity attributed fields w).2.lookup .profileIncidents).bind
      (decodeIncidents c) = none := by
  unfold normalizeIncidents RuntimeJSON.incidentKeys
  dsimp only
  split
  · next hnone =>
    rw [hnone]
    exact ⟨.refl id hknows, map_eq_none_iff.mp hnone⟩
  -- the member is moved out, and its external mark is another field
  · grind [storeIncidents_owned, profileIncidentsExternalKey, Finmap.lookup_insert_of_ne,
      Finmap.lookup_erase]

/-- **A report normalised**: its row has reported its keys, and no incident is left in it. -/
theorem normalize_owned (id : Nat) (identity : Identity) (attributed : Bool)
    (raw : RuntimeJSON)
    (hknows : ∀ known ∈ w.caches.map Caches.known, KnowsOwners w.incidents known) :
    Owned w (normalizeRuntimeEvidence id identity attributed raw w).1 id
      (raw.incidentKeys c identity attributed) ∧
    (normalizeRuntimeEvidence id identity attributed raw w).2.incidentKeys c identity
      attributed = [] := by
  cases raw with
  | object fields =>
    obtain ⟨howned, hmoved⟩ := normalizeIncidents_owned id identity attributed fields hknows
    obtain ⟨hsame, hlookup⟩ := normalizeRecords_sameIncidents
      (normalizeIncidents id identity attributed fields w).2
      (normalizeIncidents id identity attributed fields w).1
    exact ⟨howned.same hsame, incidentKeys_eq_nil identity attributed (hlookup ▸ hmoved)⟩
  | _ => exact ⟨.refl id hknows, rfl⟩

end Normalize

/-! ## §3 — the invariant of the tables -/

def RuntimeRow.keys (c : Codec Digest) (row : RuntimeRow) : List (ProfileIncidentKey Digest) :=
  row.reported.incidentKeys c row.identity row.attributed

/-- The normalised rows whose reports carried the incident. -/
def reporters (c : Codec Digest) (t : Table RuntimeRow.id) (k : ProfileIncidentKey Digest) :
    Set Nat :=
  {id | ∃ row ∈ t, row.id = id ∧ row.normalized = true ∧ k ∈ row.keys c}

def KeysOK (c : Codec Digest) (row : RuntimeRow) : Prop :=
  if row.normalized then row.runtime.incidentKeys c row.identity row.attributed = []
  else row.runtime = row.reported

/-- Every incident is owned by the first of its reporters. -/
structure Indexed [DecidableEq Digest] (t : Table RuntimeRow.id) (w : Work c) : Prop where
  index : IndexesLeast w.incidents.owner (reporters c t)
  rows : ∀ row ∈ t, KeysOK c row
  knows : ∀ known ∈ w.caches.map Caches.known, KnowsOwners w.incidents known

def DB.Indexed [DecidableEq Digest] (db : DB c) : Prop :=
  Evidence.Indexed db.runtime ⟨db.incidents, db.records, none⟩

theorem reporters_append (t : Table RuntimeRow.id) (mk : Nat → RuntimeRow)
    (hmk : ∀ k, (mk k).id = k) (hnorm : (mk (t.maxKey + 1)).normalized = true) :
    reporters c (t.append mk hmk) =
      withKeys (reporters c t) (t.maxKey + 1) ((mk (t.maxKey + 1)).keys c) := by
  funext k
  ext id
  constructor
  · grind [Table.mem_append, reporters, withKeys]
  · intro h
    rcases h with ⟨row, hrow, hrest⟩ | ⟨rfl, hk⟩
    · exact ⟨row, (Table.mem_append t mk hmk).mpr (.inl hrow), hrest⟩
    · exact ⟨_, (Table.mem_append t mk hmk).mpr (.inr rfl), hmk _, hnorm, hk⟩

theorem reporters_updateRuntime {t : Table RuntimeRow.id} {item : RuntimeRow} (hitem : item ∈ t)
    (compact : RuntimeJSON) :
    reporters c (updateRuntime t item.id compact) =
      withKeys (reporters c t) item.id (item.keys c) := by
  funext k
  ext id
  constructor
  · intro ⟨row, hrow, hid, hnorm, hk⟩
    obtain ⟨old, hold, rfl⟩ := (Table.mem_update t _ _).mp hrow
    -- the updated row reports its own keys, every other what it did
    grind [Table.eq_of_key_eq, withKeys, reporters, RuntimeRow.keys]
  · intro h
    have hnew : ({ item with runtime := compact, normalized := true } : RuntimeRow) ∈
        updateRuntime t item.id compact := (Table.mem_update t _ _).mpr ⟨item, hitem, if_pos rfl⟩
    rcases h with ⟨row, hrow, rfl, hnorm, hk⟩ | ⟨rfl, hk⟩
    · by_cases hsame : row.id = item.id
      · rw [t.eq_of_key_eq hrow hitem hsame] at hk ⊢
        exact ⟨_, hnew, rfl, rfl, hk⟩
      · exact ⟨row, (Table.mem_update t _ _).mpr ⟨row, hrow, if_neg hsame⟩, rfl, hnorm, hk⟩
    · exact ⟨_, hnew, rfl, rfl, hk⟩

theorem withKeys_reporters {t : Table RuntimeRow.id} {item : RuntimeRow} (hitem : item ∈ t)
    (hnorm : item.normalized = true) :
    withKeys (reporters c t) item.id (item.keys c) = reporters c t := by
  funext k
  ext id
  constructor
  · grind [withKeys, reporters]
  · exact .inl

section Transactions

variable [DecidableEq Digest]

variable {t : Table RuntimeRow.id} {batch : List RuntimeRow} {db : DB c}

/-- **A row normalised by a compaction.** -/
theorem Indexed.normalizeRow {w : Work c} (h : Indexed t w)
    {item : RuntimeRow} (hitem : item ∈ t) :
    Indexed
      (updateRuntime t item.id
        (normalizeRuntimeEvidence item.id item.identity item.attributed item.runtime w).2)
      (normalizeRuntimeEvidence item.id item.identity item.attributed item.runtime w).1 ∧
    (normalizeRuntimeEvidence item.id item.identity item.attributed
      item.runtime w).1.caches.isSome = w.caches.isSome := by
  obtain ⟨howned, hmoved⟩ :=
    normalize_owned item.id item.identity item.attributed item.runtime h.knows
  refine ⟨⟨?_, fun row hrow => ?_, howned.knows⟩, howned.caches⟩
  · have hindex := howned.index _ h.index
    rw [reporters_updateRuntime hitem]
    have hkeys := h.rows item hitem
    grind [KeysOK, withKeys_nil, withKeys_reporters, RuntimeRow.keys]
  · obtain ⟨old, hold, rfl⟩ := (Table.mem_update t _ _).mp hrow
    grind [Table.eq_of_key_eq, Indexed.rows, KeysOK]

/-- **The loop over a batch.** -/
theorem Indexed.normalizeBatch {w : Work c}
    (h : Indexed t w) (hbatch : BatchOf t batch) :
    Indexed (Evidence.normalizeBatch batch t w).1 (Evidence.normalizeBatch batch t w).2 ∧
    (Evidence.normalizeBatch batch t w).2.caches.isSome = w.caches.isSome := by
  induction batch generalizing t w with
  | nil => exact ⟨h, rfl⟩
  | cons item batch ih =>
    obtain ⟨hone, hcaches⟩ := h.normalizeRow (hbatch.stored item mem_cons_self)
    obtain ⟨hrest, hcaches'⟩ := ih hone (hbatch.updateRuntime _)
    exact ⟨hrest, hcaches'.trans hcaches⟩

theorem indexed_compactBatch (h : db.Indexed) {caches : Caches Digest}
    (hknows : KnowsOwners db.incidents caches.known)
    (hbatch : BatchOf db.runtime batch) :
    (compactBatch db caches batch).1.Indexed ∧
    KnowsOwners (compactBatch db caches batch).1.incidents
      (compactBatch db caches batch).2.known := by
  have hbegin : Evidence.Indexed db.runtime (⟨db.incidents, db.records,
      some { caches with recordUses := fun _ => 0 }⟩ : Work c) := by
    refine ⟨h.index, h.rows, ?_⟩
    intro known hknown
    cases hknown
    exact hknows
  obtain ⟨hindexed, hcaches⟩ := hbegin.normalizeBatch hbatch
  unfold compactBatch DB.Indexed
  dsimp only
  generalize normalizeBatch batch db.runtime
    (⟨db.incidents, db.records, some { caches with recordUses := fun _ => 0 }⟩ : Work c) = out
    at hindexed hcaches ⊢
  obtain ⟨t, ⟨incidents, records, caches'⟩⟩ := out
  cases caches' with
  | none => cases hcaches
  | some m => exact ⟨⟨hindexed.index, hindexed.rows, nofun⟩, hindexed.knows m.known rfl⟩

omit [DecidableEq Digest] in
theorem incidentKeys_of_not_canNormalize {raw : RuntimeJSON} (identity : Identity)
    (attributed : Bool) (h : ¬ canNormalize raw = true) :
    raw.incidentKeys c identity attributed = [] := by
  cases raw with
  | object fields =>
    refine incidentKeys_eq_nil identity attributed ?_
    have hnone : fields.lookup .profileIncidents = none := by
      refine Finmap.lookup_eq_none.mpr fun hmem => h ?_
      exact decide_eq_true ⟨.profileIncidents, Finmap.mem_keys.mpr hmem, .inl (by decide)⟩
    rw [hnone]
    rfl
  | _ => rfl

theorem normalizeReported_owned (db : DB c) (id : Nat) (identity : Identity) (raw : RuntimeJSON)
    (attributed : Bool) :
    Owned ⟨db.incidents, db.records, none⟩ (normalizeReported db id identity raw attributed).1 id
      (raw.incidentKeys c identity attributed) ∧
    (normalizeReported db id identity raw attributed).2.incidentKeys c identity
      attributed = [] := by
  unfold normalizeReported
  dsimp only
  split
  · exact normalize_owned id identity attributed raw nofun
  · next hcan =>
    have hkeys := incidentKeys_of_not_canNormalize (c := c) identity attributed hcan
    rw [hkeys]
    exact ⟨.refl id nofun, rfl⟩

/-- **A report recorded.** -/
theorem indexed_record (h : db.Indexed) (identity : Identity) (raw : RuntimeJSON)
    (attributed : Bool) (receivedAt : Int) :
    (recordRuntimeEvidence db identity raw attributed receivedAt).Indexed ∧
    Lowers db.incidents
      (recordRuntimeEvidence db identity raw attributed receivedAt).incidents := by
  obtain ⟨howned, hmoved⟩ :=
    normalizeReported_owned db (db.runtime.maxKey + 1) identity raw attributed
  refine ⟨⟨?_, fun row hrow => ?_, nofun⟩, howned.lowers⟩
  · unfold recordRuntimeEvidence
    dsimp only
    rw [reporters_append _ _ _ rfl]
    exact howned.index _ h.index
  · rcases (Table.mem_append _ _ _).mp hrow with hrow | rfl
    · exact h.rows row hrow
    · exact hmoved

/-! ## §4 — pruning -/

variable {db' : DB c}

def takes (batch : List RuntimeRow) (id : Nat) : Bool := batch.any fun item => item.id = id

theorem takes_cons (item : RuntimeRow) (batch : List RuntimeRow) (id : Nat) :
    takes (item :: batch) id = (decide (id = item.id) || takes batch id) := by
  show (decide (item.id = id) || _) = _
  rw [decide_eq_decide.mpr eq_comm]
  rfl

omit [DecidableEq Digest] in
theorem mem_pruneRows
    (h : pruneRows batch db = some db') (row : RuntimeRow) :
    row ∈ db'.runtime ↔ row ∈ db.runtime ∧ takes batch row.id = false := by
  induction batch generalizing db with
  | nil =>
    cases h
    exact ⟨fun hrow => ⟨hrow, rfl⟩, And.left⟩
  | cons item batch ih =>
    obtain ⟨refs, hrefs, hrest⟩ := bind_eq_some_iff.mp h
    rw [ih hrest, Table.mem_filter, takes_cons, Bool.or_eq_false_iff, decide_eq_true_eq,
      decide_eq_false_iff_not, and_assoc]

theorem owner_pruneRows
    (h : pruneRows batch db = some db') (k : ProfileIncidentKey Digest) :
    db'.incidents.owner k = (db.incidents.owner k).filter fun id => !takes batch id := by
  induction batch generalizing db with
  | nil =>
    cases h
    cases db'.incidents.owner k <;> rfl
  | cons item batch ih =>
    obtain ⟨refs, hrefs, hrest⟩ := bind_eq_some_iff.mp h
    rw [ih hrest, IncidentTable.owner_deleteExcept, Option.filter_filter]
    congr 1
    funext id
    rw [takes_cons, Bool.not_or, ← decide_not]

omit [DecidableEq Digest] in
theorem mem_of_takes (hbatch : BatchOf t batch)
    {row : RuntimeRow} (hrow : row ∈ t) (h : takes batch row.id = true) : row ∈ batch := by
  obtain ⟨item, hitem, hid⟩ := List.any_eq_true.mp h
  rw [← t.eq_of_key_eq (hbatch.stored item hitem) hrow (of_decide_eq_true hid)]
  exact hitem

omit [DecidableEq Digest] in
theorem takes_of_mem {row : RuntimeRow} (h : row ∈ batch) :
    takes batch row.id = true :=
  List.any_eq_true.mpr ⟨row, h, decide_eq_true rfl⟩

/-- With a row the batch has every row that shares an incident with it. -/
def TakesWhole (c : Codec Digest) (t : Table RuntimeRow.id) (batch : List RuntimeRow) : Prop :=
  ∀ row ∈ batch, row.normalized = true → ∀ other ∈ t.rows, other.normalized = true →
    (∃ k ∈ row.keys c, k ∈ other.keys c) → other ∈ batch

instance (t : Table RuntimeRow.id) (batch : List RuntimeRow) : Decidable (TakesWhole c t batch) :=
  inferInstanceAs (Decidable (∀ row ∈ batch, _ → ∀ other ∈ t.rows, _ → _ → _))

/-- **A prune's transaction**, when the batch leaves no row that shares an incident with one it
takes. -/
theorem indexed_pruneBatchRows (h : db.Indexed)
    (hbatch : BatchOf db.runtime batch) (hwhole : TakesWhole c db.runtime batch)
    (hprune : pruneBatchRows db batch = some db') : db'.Indexed := by
  obtain ⟨mid, hmid, rfl⟩ := map_eq_some_iff.mp hprune
  refine ⟨?_, fun row hrow => h.rows row ((mem_pruneRows hmid row).mp hrow).1, nofun⟩
  have hreporters : reporters c mid.runtime = fun k =>
      {x | x ∈ reporters c db.runtime k ∧ takes batch x = false} := by
    funext k
    ext x
    constructor
    · grind [mem_pruneRows, reporters]
    · grind [mem_pruneRows, reporters]
  show IndexesLeast mid.incidents.owner (reporters c mid.runtime)
  rw [hreporters]
  refine h.index.delete (owner_pruneRows hmid) fun k n hn hgone x hx => ?_
  -- the owner is one of the rows that reported the key, so the batch takes the others with it
  obtain ⟨row, hrow, rfl, hnorm, hk⟩ := ((h.index k n).mp hn).1
  obtain ⟨other, hother, rfl, hnorm', hk'⟩ := hx
  have hin := mem_of_takes hbatch hrow hgone
  exact takes_of_mem (hwhole row hin hnorm other hother hnorm' ⟨k, hk, hk'⟩)

end Transactions

/-! ## §5 — every run -/

section Run

variable [DecidableEq Digest]
variable {s : State c}

def KnowsIncidents (db : DB c) : Maintenance Digest → Prop
  | .compacting _ _ caches => KnowsOwners db.incidents caches.known
  | .batchRead _ _ caches batch =>
    KnowsOwners db.incidents caches.known ∧ BatchOf db.runtime batch
  | _ => True

/-- The owners are right, and a maintenance knows them. -/
structure IncidentInv (s : State c) : Prop where
  indexed : s.db.Indexed
  held : KnowsIncidents s.db s.maintenance

theorem knowsIncidents_of_plain (db : DB c) {m : Maintenance Digest} (hm : m.Plain) :
    KnowsIncidents db m := by
  cases m with
  | compacting maxID batchSize caches => cases hm
  | batchRead maxID batchSize caches batch => cases hm
  | _ => trivial

def dueBatch (s : State c) : List RuntimeRow :=
  match s.maintenance with
  | .pruning cutoff (deployment :: _) => pruneBatch s.db cutoff deployment
  | _ => []

/-- Every pruned batch takes whole incidents. -/
def PrunesWhole (s : State c) : Action → Prop
  | .commitPrune => TakesWhole c s.db.runtime (dueBatch s)
  | _ => True

instance (s : State c) : (a : Action) → Decidable (PrunesWhole s a)
  | .commitPrune => inferInstanceAs (Decidable (TakesWhole c s.db.runtime (dueBatch s)))
  | .record _ _ _ _ | .beginCompact _ | .loadRecords | .loadIncidents | .readBatch
  | .commitBatch | .beginPrune _ | .stop | .setDeployments _ _ => .isTrue trivial

/-- **Incidents have owners.** An incident that the report of a stored, normalised row carried
is in the table, owned by the first of the rows whose reports carried it. -/
def IncidentsOwned (db : DB c) : Prop :=
  ∀ row ∈ db.runtime, row.normalized = true → ∀ k ∈ row.keys c,
    ∃ incident ∈ db.incidents.rows, incident.key = k ∧
      IsLeast (reporters c db.runtime k) incident.runtimeID

/-- A row the step deletes belongs to the deployment being pruned, is older than the cutoff, and
that deployment is archived, not one of its source's two newest and without evidence from the
cutoff on. -/
def DeletesEligible (s s' : State c) : Prop :=
  ∀ row ∈ s.db.runtime, (∀ kept ∈ s'.db.runtime, kept.id ≠ row.id) →
    ∃ cutoff deployment rest, s.maintenance = .pruning cutoff (deployment :: rest) ∧
      row.receivedAt < cutoff ∧
      ∃ d ∈ s.db.deployments, d.id = row.identity.deploymentID ∧
        archivedEvidenceDeployment s.db cutoff d

theorem DB.Indexed.incidentsOwned {db : DB c} (h : db.Indexed) : IncidentsOwned db := by
  intro row hrow hnorm k hk
  have hmem : row.id ∈ reporters c db.runtime k := ⟨row, hrow, rfl, hnorm, hk⟩
  cases howner : db.incidents.owner k with
  | none =>
    rw [h.index.eq_empty howner] at hmem
    cases hmem
  | some n =>
    obtain ⟨incident, hincident, hkey, rfl⟩ := IncidentTable.owner_eq_some_iff.mp howner
    exact ⟨incident, hincident, hkey, (h.index k _).mp howner⟩

theorem incidentInv_start (h : Start s) : IncidentInv s := by
  refine ⟨⟨?_, fun row hrow => ?_, nofun⟩, ?_⟩
  · have hreporters : reporters c s.db.runtime = fun _ => ∅ := by
      funext k
      refine Set.eq_empty_iff_forall_notMem.mpr fun id ⟨row, hrow, _, hnorm, _⟩ => ?_
      cases (h.raw row hrow).1.symm.trans hnorm
    show IndexesLeast s.db.incidents.owner _
    rw [hreporters, h.incidents]
    exact .empty
  · rw [KeysOK, (h.raw row hrow).1]
    exact (h.raw row hrow).2
  · rw [h.idle]
    trivial

theorem KnowsIncidents.record {db : DB c} (h : db.Indexed) {m : Maintenance Digest}
    (hm : KnowsIncidents db m) (identity : Identity) (raw : RuntimeJSON) (attributed : Bool)
    (receivedAt : Int) :
    KnowsIncidents (recordRuntimeEvidence db identity raw attributed receivedAt) m := by
  have hlow := (indexed_record h identity raw attributed receivedAt).2
  cases m with
  | compacting maxID batchSize caches => exact hm.lowers hlow
  | batchRead maxID batchSize caches batch => exact ⟨hm.1.lowers hlow, hm.2.record ..⟩
  | _ => trivial

/-- **One step** keeps the invariant. -/
theorem incidentInv_step {s' : State c} {a : Action} (h : IncidentInv s)
    (hok : PrunesWhole s a) (hstep : step s a = some s') : IncidentInv s' := by
  cases step_effect hstep with
  | record identity raw attributed receivedAt =>
    exact ⟨(indexed_record h.indexed identity raw attributed receivedAt).1,
      h.held.record h.indexed identity raw attributed receivedAt⟩
  | setDeployments deployments archives =>
    refine ⟨h.indexed, ?_⟩
    have hheld := h.held
    show KnowsIncidents _ s.maintenance
    cases hm : s.maintenance <;> rw [hm] at hheld <;> exact hheld
  | stay => exact h
  | goto _ hm => exact ⟨h.indexed, knowsIncidents_of_plain _ hm⟩
  | loadRecords maxID batchSize => exact ⟨h.indexed, trivial⟩
  | loadIncidents hm => exact ⟨h.indexed, fun k n hk => ⟨n, hk, le_refl n⟩⟩
  | readBatch hm =>
    have hheld := h.held
    rw [hm] at hheld
    exact ⟨h.indexed, hheld, batchOf_compactionBatch ..⟩
  | commitBatch hm hnext =>
    have hheld := h.held
    rw [hm] at hheld
    obtain ⟨hindexed, hknows⟩ := indexed_compactBatch h.indexed hheld.1 hheld.2
    refine ⟨hindexed, ?_⟩
    rcases hnext with rfl | rfl
    · trivial
    · exact hknows
  | @commitPrune cutoff deployment _ hm _ hprune =>
    have hwhole : TakesWhole c s.db.runtime (pruneBatch s.db cutoff deployment) := by
      rw [PrunesWhole, dueBatch, hm] at hok
      exact hok
    refine ⟨indexed_pruneBatchRows h.indexed (batchOf_pruneBatch s.db cutoff deployment) hwhole
      hprune, ?_⟩
    rw [hm]
    trivial

theorem exists_of_normalizeBatch (batch : List RuntimeRow) {t : Table RuntimeRow.id} (w : Work c)
    {row : RuntimeRow} (hrow : row ∈ t) : ∃ kept ∈ (normalizeBatch batch t w).1,
      kept.id = row.id := by
  induction batch generalizing t w row with
  | nil => exact ⟨row, hrow, rfl⟩
  | cons item batch ih =>
    have hmem : ∃ kept ∈ updateRuntime t item.id
        (normalizeRuntimeEvidence item.id item.identity item.attributed item.runtime w).2,
        kept.id = row.id := by
      refine ⟨_, (Table.mem_update t _ _).mpr ⟨row, hrow, rfl⟩, ?_⟩
      split <;> rfl
    obtain ⟨kept, hkept, hid⟩ := hmem
    obtain ⟨last, hlast, hid'⟩ := ih _ hkept
    exact ⟨last, hlast, hid'.trans hid⟩

/-- **Rows are deleted of eligible deployments only**, by any step from any state. -/
theorem deletesEligible_step {s' : State c} {a : Action} (hstep : step s a = some s') :
    DeletesEligible s s' := by
  intro row hrow hgone
  cases step_effect hstep with
  | record identity raw attributed receivedAt =>
    exact absurd rfl (hgone row ((Table.mem_append _ _ _).mpr (.inl hrow)))
  | @commitBatch maxID batchSize caches batch hm m hnext =>
    obtain ⟨kept, hkept, hid⟩ := exists_of_normalizeBatch batch (⟨s.db.incidents, s.db.records,
      some { caches with recordUses := fun _ => 0 }⟩ : Work c) hrow
    exact absurd hid (hgone kept hkept)
  | @commitPrune cutoff deployment rest hm db hprune =>
    obtain ⟨mid, hmid, rfl⟩ := map_eq_some_iff.mp hprune
    have htaken : takes (pruneBatch s.db cutoff deployment) row.id = true := by
      cases htakes : takes (pruneBatch s.db cutoff deployment) row.id with
      | true => rfl
      | false => exact absurd rfl (hgone row ((mem_pruneRows hmid row).mpr ⟨hrow, htakes⟩))
    have hin := mem_of_takes (batchOf_pruneBatch s.db cutoff deployment) hrow htaken
    have hselected := (mem_filter.mp (mem_of_mem_take hin)).2
    obtain ⟨_, hdeployment, hreceived, d, hd, hid, harchived⟩ := of_decide_eq_true hselected
    exact ⟨cutoff, deployment, rest, hm, hreceived, d, hd, hid.trans hdeployment.symm, harchived⟩
  | _ => exact absurd rfl (hgone row hrow)

/-- **Incidents survive with their reports** in every run whose prune batches never take a row and
leave one that shares an incident with it; and whatever a step deletes was eligible. -/
theorem incident_evidence_survives (c : Codec Digest) {s : State c}
    (h : (machine c).Reaches PrunesWhole s) :
    IncidentsOwned s.db ∧
    ∀ a s', (machine c).step s a = some s' → DeletesEligible s s' := by
  have hinv : IncidentInv s := by
    refine h.invariant ?_ ?_
    · intro s hs
      exact incidentInv_start hs
    · intro s a s' hs hok hstep
      exact incidentInv_step hs hok hstep
  exact ⟨hinv.indexed.incidentsOwned, fun a s' hstep => deletesEligible_step hstep⟩

end Run

/-! ## §6 — runs -/

def incidentCodec : Codec Item where
  sha256 := id
  identityDigest _ _ := .null
  decodeIncident
    | .text raw _ => some ⟨[], raw.toList⟩
    | _ => none
  decodeString _ := none

def incidentReport (raw : String) : RuntimeJSON :=
  .object (Finmap.singleton .profileIncidents (.array [.text raw ∅]))

def incidentReporter : Identity := ⟨text "main", 1, text "w1", []⟩

/-- A journal without rows, three deployments of one source, the first of them archived. -/
def archivedJournal : State incidentCodec :=
  ⟨⟨Table.empty _, RecordTable.empty _, .empty, 0,
    [⟨1, text "main", 1⟩, ⟨2, text "main", 2⟩, ⟨3, text "main", 3⟩], [⟨1, []⟩]⟩, .idle⟩

theorem start_archivedJournal : (machine incidentCodec).start archivedJournal :=
  ⟨rfl, rfl, rfl, fun _ hrow => absurd hrow (Table.not_mem_empty _),
    fun _ hrow => absurd hrow (Table.not_mem_empty _)⟩

/-- Two heartbeats of the archived deployment go in one batch, with their incident; the incident
of the newest deployment stays with the row that reported it. -/
theorem incident_evidence_survives_prune :
    ∃ s, (machine incidentCodec).Reaches PrunesWhole s ∧
      (s.db.runtime.rows.map RuntimeRow.id = [3] ∧
        s.db.incidents.rows.map IncidentRow.runtimeID = [3]) ∧
      IncidentsOwned s.db ∧
      ∀ a s', (machine incidentCodec).step s a = some s' → DeletesEligible s s' := by
  have hstart : (machine incidentCodec).Reaches PrunesWhole archivedJournal :=
    .start start_archivedJournal
  obtain ⟨s, hs, hrows⟩ := Machine.exists_reaches_of_run hstart
    [.record incidentReporter (incidentReport "oom") true 1,
      .record incidentReporter (incidentReport "oom") true 2,
      .record ⟨text "main", 3, text "w3", []⟩ (incidentReport "oom") true 3,
      .beginPrune 10, .commitPrune]
    (P := fun s => s.db.runtime.rows.map RuntimeRow.id = [3] ∧
      s.db.incidents.rows.map IncidentRow.runtimeID = [3]) (by decide +kernel)
  exact ⟨s, hs, hrows, incident_evidence_survives incidentCodec hs⟩

def lost (db : DB incidentCodec) : Bool :=
  db.runtime.rows.any fun row => row.normalized && (row.keys incidentCodec).any fun k =>
    (db.incidents.owner k).isNone

theorem not_incidentsOwned_of_lost {db : DB incidentCodec} (h : lost db = true) :
    ¬ IncidentsOwned db := by
  intro howned
  obtain ⟨row, hrow, hlost⟩ := List.any_eq_true.mp h
  obtain ⟨hnorm, hany⟩ := Bool.and_eq_true_iff.mp hlost
  obtain ⟨k, hk, hnone⟩ := List.any_eq_true.mp hany
  obtain ⟨incident, hincident, hkey, _⟩ := howned row hrow hnorm k hk
  have howner := IncidentTable.owner_eq_some_iff.mpr ⟨incident, hincident, hkey, rfl⟩
  rw [howner] at hnone
  cases hnone

/-- Seventeen heartbeats report one incident. The first prune batch deletes sixteen of them and
the incident; a heartbeat arrives, the deployment is no longer eligible, and the prune ends with
the seventeenth report still stored. -/
theorem incident_lost_between_batches :
    ∃ s, (machine incidentCodec).Reachable s ∧ ¬ IncidentsOwned s.db := by
  have hstart : (machine incidentCodec).Reachable archivedJournal := .start start_archivedJournal
  obtain ⟨s, hs, hlost⟩ := Machine.exists_reaches_of_run hstart
    (replicate 17 (.record incidentReporter (incidentReport "oom") true 1) ++
      [.beginPrune 10, .commitPrune, .record incidentReporter .null true 11, .commitPrune,
        .commitPrune])
    (P := fun s => lost s.db = true) (by decide +kernel)
  exact ⟨s, hs, not_incidentsOwned_of_lost hlost⟩

end LitestreamSoak.Store.Evidence
