import LitestreamSoak.Store.EvidenceJournal

/-!
# Store — the uses of a profile record count the references to it

The column `uses` decides when a record is deleted, so it has to be the number of references in
the journal. Three paths change it: a recorded report counts its records at once, a compaction
counts in a map and adds the map at the end of a batch, a prune takes the references of the rows
it deletes back. `Work.uses` is the column together with what the map still owes; one record
stored raises it by one under every path (`storeRecord_stored`), and the two journals agree at
the end of each transaction (`Counts`).

They agree only for reports that leave `_profile_record_refs` to the store.
`normalizeRuntimeEvidence` overwrites the member when it moves a `profile_records` array, and
keeps what the report put there when there is no such array: the ids are then references nobody
counted, and pruning another row can delete the record under them.
-/

namespace LitestreamSoak.Store.Evidence

open Lib List Function Option

variable {Digest : Type} {c : Codec Digest}

/-! ## §1 — storing records -/

variable {t' : RecordTable c.sha256} {w : Work c}

def Work.pending (w : Work c) : Nat → Nat := (w.caches.map Caches.recordUses).getD fun _ => 0

/-- The column together with the uses not yet added to it. -/
def Work.uses (w : Work c) (id : Nat) : Int := w.records.uses id + w.pending id

/-- The ids a compaction looked up are those of the records they were looked up for. -/
def Knows (t : RecordTable c.sha256) (recordIDs : Digest → Option Nat) : Prop :=
  ∀ item id, recordIDs (c.sha256 item) = some id → t.record id = some item

theorem Knows.extends {t : RecordTable c.sha256} {recordIDs : Digest → Option Nat}
    (h : Knows t recordIDs) (hext : t.Extends t') : Knows t' recordIDs :=
  fun item id hid => hext _ _ (h item id hid)

/-- What the maps of a transaction keep: known ids are right, and uses are owed to rows only. -/
structure Work.OK (w : Work c) : Prop where
  knows : ∀ recordIDs ∈ w.caches.map Caches.recordIDs, Knows w.records recordIDs
  pending : ∀ id : Nat, w.records.record id = none → w.pending id = 0

/-- The items are stored under the ids, and each use is counted. -/
structure Stored (w w' : Work c) (items : List Item) (ids : List Nat) : Prop where
  ok : w'.OK
  caches : w'.caches.isSome = w.caches.isSome
  keeps : w.records.Extends w'.records
  found : ids.map (fun id : Nat => w'.records.record id) = items.map some
  uses : ∀ id, w'.uses id = w.uses id + ids.count id

theorem Caches.recordUses_count (m : Caches Digest) (id x : Nat) :
    (m.count id).recordUses x = m.recordUses x + if x = id then 1 else 0 := by
  rw [count]
  split
  · next h => rw [h]; exact update_self _ _ _
  · next h => exact update_of_ne h _ _

theorem Stored.refl (hok : w.OK) : Stored w w [] [] :=
  ⟨hok, rfl, .refl _, rfl, fun _ => (Int.add_zero _).symm⟩

theorem Stored.append {w₁ w₂ w₃ : Work c} {items₁ items₂ : List Item} {ids₁ ids₂ : List Nat}
    (h₁ : Stored w₁ w₂ items₁ ids₁) (h₂ : Stored w₂ w₃ items₂ ids₂) :
    Stored w₁ w₃ (items₁ ++ items₂) (ids₁ ++ ids₂) := by
  refine ⟨h₂.ok, h₂.caches.trans h₁.caches, h₁.keeps.trans h₂.keeps, ?_, fun id => ?_⟩
  · rw [map_append, map_append, h₂.found, h₂.keeps.map_record h₁.found]
  · rw [h₂.uses, h₁.uses, count_append]
    push_cast
    omega

section Upsert

variable [DecidableEq Digest] (hsha : Function.Injective c.sha256)

include hsha

/-- **An upsert** finds or appends the record and adds to its uses only. -/
theorem upsert_spec (t : RecordTable c.sha256) (item : Item) (n : Int) :
    t.Extends (t.upsert item n).1 ∧ (t.upsert item n).1.record (t.upsert item n).2 = some item ∧
    ∀ id : Nat, (t.upsert item n).1.uses id =
      t.uses id + if id = (t.upsert item n).2 then n else 0 := by
  rcases t.upsert_cases item n with ⟨row, hrow, hdigest, heq⟩ | ⟨hid, hrows⟩
  · rw [heq]
    have hrecord : t.record row.id = some item := by
      rw [RecordTable.record, RecordTable.row_of_mem hrow]
      exact congrArg some (hsha ((t.digest_eq row hrow).symm.trans hdigest))
    refine ⟨fun id found h => ?_, ?_, fun id => ?_⟩
    · rw [RecordTable.record_addUses]; exact h
    · rw [RecordTable.record_addUses]; exact hrecord
    · refine RecordTable.uses_addUses t _ id fun hnone => if_neg fun hid => ?_
      rw [hid, hrecord] at hnone
      cases hnone
  · have hold : ∀ row ∈ t.rows, (t.upsert item n).1.row row.id = some row := fun row hrow =>
      RecordTable.row_of_mem (by rw [hrows]; exact mem_append_left _ hrow)
    have hnew : (t.upsert item n).1.row (t.upsert item n).2 =
        some ⟨t.maxKey + 1, c.sha256 item, item, n⟩ := by
      refine RecordTable.row_eq_some_iff.mpr ⟨?_, by rw [hid]⟩
      rw [hrows]
      exact mem_append_right _ (mem_singleton_self _)
    refine ⟨fun id found h => ?_, by rw [RecordTable.record, hnew]; rfl, fun id => ?_⟩
    · obtain ⟨row, hrow, hfound⟩ := map_eq_some_iff.mp h
      obtain ⟨hmem, rfl⟩ := RecordTable.row_eq_some_iff.mp hrow
      rw [RecordTable.record, hold row hmem, map_some, hfound]
    · cases hrow : t.row id with
      | some row =>
        -- a row that was there keeps its uses, and its id is not the new one
        obtain ⟨hmem, hkey⟩ := RecordTable.row_eq_some_iff.mp hrow
        have hle : row.id ≤ t.maxKey := t.key_le_maxKey hmem
        rw [RecordTable.uses, RecordTable.uses, hrow, ← hkey, hold row hmem, if_neg (by omega)]
        exact (Int.add_zero _).symm
      | none =>
        have hzero : t.uses id = 0 := by rw [RecordTable.uses, hrow]; rfl
        rw [hzero, Int.zero_add]
        split
        · next heq => rw [heq, RecordTable.uses, hnew]; rfl
        · next hne =>
          refine RecordTable.uses_eq_zero ?_
          rw [RecordTable.record, map_eq_none_iff, eq_none_iff_forall_not_mem]
          intro found hfound
          obtain ⟨hmem, hkey⟩ := RecordTable.row_eq_some_iff.mp hfound
          rw [hrows] at hmem
          rcases mem_append.mp hmem with hmem | hmem
          · rw [RecordTable.row_eq_some_iff.mpr ⟨hmem, hkey⟩] at hrow
            cases hrow
          · grind

/-- **One record.** Whether its id is cached, found or new, one use more is on record or owed. -/
theorem storeRecord_stored {w : Work c} (hok : w.OK) (item : Item) :
    Stored w (storeRecord item w).1 [item] [(storeRecord item w).2] := by
  have hcount : ∀ id new : Nat, (([new].count id : Nat) : Int) = if id = new then 1 else 0 := by
    intro id new
    rw [count_singleton]
    by_cases h : id = new
    · simp [h]
    · simp [h, Ne.symm h]
  obtain ⟨incidents, records, caches⟩ := w
  unfold storeRecord
  cases caches with
  | none =>
    obtain ⟨hext, hfound, huses⟩ := upsert_spec hsha records item 1
    refine ⟨⟨nofun, fun _ _ => rfl⟩, rfl, hext, congrArg (fun r => [r]) hfound, fun id => ?_⟩
    rw [hcount]
    show (records.upsert item 1).1.uses id + 0 = records.uses id + 0 + _
    rw [huses, Int.add_zero, Int.add_zero]
  | some m =>
    have hknows : Knows records m.recordIDs := hok.knows m.recordIDs rfl
    dsimp only
    split
    · next id hid =>
      have hfound := hknows item id hid
      refine ⟨⟨?_, fun x hx => ?_⟩, rfl, .refl _, congrArg (fun r => [r]) hfound, fun x => ?_⟩
      · intro m' hm'
        cases hm'
        exact hknows
      · have hne : x ≠ id := by rintro rfl; rw [hfound] at hx; cases hx
        show (m.count id).recordUses x = 0
        rw [Caches.recordUses_count, if_neg hne]
        exact hok.pending x hx
      · rw [hcount]
        show records.uses x + ((m.count id).recordUses x : Int) =
          records.uses x + (m.recordUses x : Int) + _
        rw [Caches.recordUses_count]
        split <;> push_cast <;> omega
    · next hid =>
      obtain ⟨hext, hfound, huses⟩ := upsert_spec hsha records item 0
      generalize records.upsert item 0 = stored at hext hfound huses ⊢
      refine ⟨⟨?_, fun x hx => ?_⟩, rfl, hext, congrArg (fun r => [r]) hfound, fun x => ?_⟩
      · intro m' hm'
        cases hm'
        intro item' id' hid'
        show stored.1.record id' = some item'
        by_cases heq : c.sha256 item' = c.sha256 item
        · have hid' : some stored.2 = some id' := by
            rw [← hid', heq]
            exact (update_self (c.sha256 item) (some stored.2) m.recordIDs).symm
          cases hid'
          rw [hsha heq]
          exact hfound
        · refine hext _ _ (hknows item' id' ?_)
          rw [← hid']
          exact (update_of_ne heq _ _).symm
      · have hx : stored.1.record x = none := hx
        have hne : x ≠ stored.2 := by rintro rfl; rw [hfound] at hx; cases hx
        show ((m.learn _ _).count stored.2).recordUses x = 0
        rw [Caches.recordUses_count, if_neg hne]
        exact hok.pending x (hext.none hx)
      · rw [hcount]
        show stored.1.uses x + (((m.learn _ _).count stored.2).recordUses x : Int) =
          records.uses x + (m.recordUses x : Int) + _
        grind [Caches.recordUses_count, Caches.learn]

/-- **The records of one report.** -/
theorem storeRecords_stored {w : Work c} (hok : w.OK) (items : List Item) :
    Stored w (storeRecords items w).1 items (storeRecords items w).2 := by
  induction items generalizing w with
  | nil => exact .refl hok
  | cons item items ih =>
    have hone := storeRecord_stored hsha hok item
    exact hone.append (ih hone.ok)

end Upsert

/-! ## §2 — what normalising does to the references -/

variable {w' : Work c}

def RuntimeJSON.refs (raw : RuntimeJSON) : List Int := raw.decodeRefs.getD []

def RuntimeJSON.records? : RuntimeJSON → Option (List Item)
  | .object fields => (fields.lookup .profileRecords).bind RawMessage.decodeItems
  | _ => none

theorem refs_object (fields : Fields) : (RuntimeJSON.object fields).refs =
    ((fields.lookup profileRecordRefsKey).bind RawMessage.decodeIDs).getD [] := by
  grind [RuntimeJSON.refs, RuntimeJSON.decodeRefs]

/-- Records and their caches are untouched. -/
structure SameRecords (w w' : Work c) : Prop where
  records : w'.records = w.records
  recordIDs : w'.caches.map Caches.recordIDs = w.caches.map Caches.recordIDs
  recordUses : w'.caches.map Caches.recordUses = w.caches.map Caches.recordUses

theorem SameRecords.ok (h : SameRecords w w') (hok : w.OK) : w'.OK := by
  refine ⟨?_, ?_⟩
  · rw [h.recordIDs, h.records]
    exact hok.knows
  · rw [Work.pending, h.recordUses, h.records]
    exact hok.pending

theorem SameRecords.uses (h : SameRecords w w') (id : Nat) : w'.uses id = w.uses id := by
  rw [Work.uses, Work.uses, Work.pending, Work.pending, h.recordUses, h.records]

theorem SameRecords.caches (h : SameRecords w w') : w'.caches.isSome = w.caches.isSome := by
  rw [← isSome_map, h.recordIDs, isSome_map]

theorem SameRecords.stored {w'' : Work c} {items : List Item} {ids : List Nat}
    (h : SameRecords w w') (hst : Stored w' w'' items ids) : Stored w w'' items ids := by
  refine ⟨hst.ok, hst.caches.trans h.caches, h.records ▸ hst.keeps, hst.found, fun id => ?_⟩
  rw [hst.uses, h.uses]

section Normalize

variable [DecidableEq Digest]

theorem storeIncidents_sameRecords (runtimeID ordinal : Nat)
    (entries : List (ProfileIncidentKey Digest × Item)) (w : Work c) :
    SameRecords w (storeIncidents runtimeID ordinal entries w).1 := by
  induction entries generalizing ordinal w with
  | nil => exact ⟨rfl, rfl, rfl⟩
  | cons entry entries ih =>
    rw [storeIncidents]
    split
    · exact ih _ _
    · have h := ih (ordinal + 1)
        ⟨(w.incidents.upsert ⟨entry.1, runtimeID, ordinal, entry.2⟩).1, w.records,
          w.caches.map (·.own entry.1 runtimeID)⟩
      refine ⟨h.records, h.recordIDs.trans ?_, h.recordUses.trans ?_⟩
      · exact Option.map_map _ _ _
      · exact Option.map_map _ _ _

theorem normalizeIncidents_sameRecords (runtimeID : Nat) (identity : Identity)
    (attributed : Bool) (fields : Fields) (w : Work c) :
    SameRecords w (normalizeIncidents runtimeID identity attributed fields w).1 := by
  unfold normalizeIncidents
  split
  · exact ⟨rfl, rfl, rfl⟩
  · exact storeIncidents_sameRecords _ _ _ _

theorem lookup_normalizeIncidents (runtimeID : Nat) (identity : Identity) (attributed : Bool)
    (fields : Fields) (w : Work c) {field : Field} (hne : field ≠ .profileIncidents)
    (hne' : field ≠ profileIncidentsExternalKey) :
    (normalizeIncidents runtimeID identity attributed fields w).2.lookup field =
      fields.lookup field := by
  unfold normalizeIncidents
  split
  · rfl
  · grind [Finmap.lookup_insert_of_ne, Finmap.lookup_erase_ne]

theorem normalizeRecords_none {fields : Fields} (w : Work c)
    (h : (RuntimeJSON.object fields).records? = none) :
    normalizeRecords fields w = (w, fields) := by
  change (fields.lookup .profileRecords).bind _ = none at h
  unfold normalizeRecords
  split
  · rfl
  · next heq => rw [heq] at h; cases h
  · next heq => rw [heq] at h; cases h
  · rfl

theorem normalizeRecords_some (hsha : Function.Injective c.sha256) {fields : Fields} {w : Work c}
    {items : List Item} (hok : w.OK)
    (h : (RuntimeJSON.object fields).records? = some items) :
    ∃ ids : List Nat, Stored w (normalizeRecords fields w).1 items ids ∧
      (RuntimeJSON.object (normalizeRecords fields w).2).refs = ids.map Nat.cast ∧
      (RuntimeJSON.object (normalizeRecords fields w).2).records? = none := by
  have hmoved : ∀ encoded, (RuntimeJSON.object
      ((fields.erase .profileRecords).insert profileRecordRefsKey encoded)).records? = none := by
    intro encoded
    have hne : Field.profileRecords ≠ profileRecordRefsKey := by decide
    rw [RuntimeJSON.records?, Finmap.lookup_insert_of_ne _ hne, Finmap.lookup_erase]
    rfl
  change (fields.lookup .profileRecords).bind _ = some items at h
  unfold normalizeRecords
  split
  · next heq => rw [heq] at h; cases h
  · next heq =>
    rw [heq] at h
    cases h
    refine ⟨[], .refl hok, ?_, hmoved _⟩
    rw [refs_object, Finmap.lookup_insert]
    rfl
  · next items' heq =>
    rw [heq] at h
    cases h
    grind [storeRecords_stored, refs_object, Finmap.lookup_insert, decodeIDs_marshalIDs]
  · next heq => rw [heq] at h; cases h

theorem records?_normalizeIncidents (runtimeID : Nat) (identity : Identity) (attributed : Bool)
    (fields : Fields) (w : Work c) :
    (RuntimeJSON.object (normalizeIncidents runtimeID identity attributed fields w).2).records? =
      (RuntimeJSON.object fields).records? := by
  rw [RuntimeJSON.records?, RuntimeJSON.records?,
    lookup_normalizeIncidents _ _ _ _ _ (by decide) (by decide)]

theorem refs_normalizeIncidents (runtimeID : Nat) (identity : Identity) (attributed : Bool)
    (fields : Fields) (w : Work c) :
    (RuntimeJSON.object (normalizeIncidents runtimeID identity attributed fields w).2).refs =
      (RuntimeJSON.object fields).refs := by
  rw [refs_object, refs_object, lookup_normalizeIncidents _ _ _ _ _ (by decide) (by decide)]

/-- **A report without records** keeps its references. -/
theorem normalize_none (runtimeID : Nat) (identity : Identity) (attributed : Bool)
    {raw : RuntimeJSON} (w : Work c) (h : raw.records? = none) :
    SameRecords w (normalizeRuntimeEvidence runtimeID identity attributed raw w).1 ∧
    (normalizeRuntimeEvidence runtimeID identity attributed raw w).2.refs = raw.refs ∧
    (normalizeRuntimeEvidence runtimeID identity attributed raw w).2.records? = none := by
  cases raw with
  | object fields =>
    unfold normalizeRuntimeEvidence
    dsimp only
    have hnone := (records?_normalizeIncidents runtimeID identity attributed fields w).trans h
    rw [normalizeRecords_none _ hnone]
    exact ⟨normalizeIncidents_sameRecords .., refs_normalizeIncidents .., hnone⟩
  | _ => exact ⟨⟨rfl, rfl, rfl⟩, rfl, rfl⟩

/-- **A report with records** has them stored, and gets references to them for its own. -/
theorem normalize_some (hsha : Function.Injective c.sha256) (runtimeID : Nat)
    (identity : Identity) (attributed : Bool) {raw : RuntimeJSON} {w : Work c}
    {items : List Item} (hok : w.OK) (h : raw.records? = some items) :
    ∃ ids : List Nat,
      Stored w (normalizeRuntimeEvidence runtimeID identity attributed raw w).1 items ids ∧
      (normalizeRuntimeEvidence runtimeID identity attributed raw w).2.refs = ids.map Nat.cast ∧
      (normalizeRuntimeEvidence runtimeID identity attributed raw w).2.records? = none := by
  cases raw with
  | object fields =>
    have hsame := normalizeIncidents_sameRecords runtimeID identity attributed fields w
    obtain ⟨ids, hstored, hrest⟩ := normalizeRecords_some hsha (hsame.ok hok)
      ((records?_normalizeIncidents runtimeID identity attributed fields w).trans h)
    exact ⟨ids, hsame.stored hstored, hrest⟩
  | _ => cases h

end Normalize

/-! ## §3 — the invariant of the tables -/

variable {row : RuntimeRow} {t : Table RuntimeRow.id} {item : RuntimeRow}

/-- How often the rows refer to the record. -/
def occurrences (t : Table RuntimeRow.id) (id : Int) : Nat :=
  (t.rows.map fun row => row.runtime.refs.count id).sum

/-- The references of one row. A normalised row has handed its records over and refers to
exactly those, in order; any other row still is its report and refers to nothing. -/
def RefsOK (t : RecordTable c.sha256) (row : RuntimeRow) : Prop :=
  if row.normalized then
    row.runtime.records? = none ∧
      row.runtime.refs.map t.record = (row.reported.records?.getD []).map some
  else row.runtime = row.reported ∧ row.runtime.refs = []

/-- The journal and the records agree, once the uses a transaction still owes are added. -/
structure Counts (t : Table RuntimeRow.id) (w : Work c) : Prop where
  ok : w.OK
  exact : ∀ id : Nat, w.uses id = occurrences t id
  rows : ∀ row ∈ t, RefsOK w.records row

theorem RefsOK.extends {t : RecordTable c.sha256} (h : RefsOK t row)
    (hext : t.Extends t') : RefsOK t' row := by
  unfold RefsOK at h ⊢
  split
  · next hnorm =>
    rw [if_pos hnorm] at h
    exact ⟨h.1, hext.map_record (f := id) h.2⟩
  · next hnorm => rwa [if_neg hnorm] at h

theorem RefsOK.congr {t : RecordTable c.sha256} (h : RefsOK t row)
    (heq : ∀ id ∈ row.runtime.refs, t'.record id = t.record id) : RefsOK t' row := by
  unfold RefsOK at h ⊢
  rwa [map_congr_left heq]

theorem RefsOK.found {t : RecordTable c.sha256} (h : RefsOK t row) {id : Int}
    (hid : id ∈ row.runtime.refs) : ∃ item, t.record id = some item := by
  unfold RefsOK at h
  split at h
  · have hmem : t.record id ∈ (row.reported.records?.getD []).map some :=
      h.2 ▸ List.mem_map_of_mem hid
    obtain ⟨item, _, hitem⟩ := List.mem_map.mp hmem
    exact ⟨item, hitem.symm⟩
  · rw [h.2] at hid
    exact absurd hid not_mem_nil

theorem occurrences_append (t : Table RuntimeRow.id) (mk : Nat → RuntimeRow)
    (hmk : ∀ k, (mk k).id = k) (id : Int) :
    occurrences (t.append mk hmk) id =
      occurrences t id + (mk (t.maxKey + 1)).runtime.refs.count id := by
  rw [occurrences, occurrences, Table.append, map_append, sum_append]
  simp

theorem nodup_ids (t : Table RuntimeRow.id) : (t.rows.map RuntimeRow.id).Nodup :=
  pairwise_map.mpr (t.ascending.imp fun h => Nat.ne_of_lt h)

theorem occurrences_updateRuntime (hitem : item ∈ t)
    (compact : RuntimeJSON) (id : Int) :
    occurrences (updateRuntime t item.id compact) id + item.runtime.refs.count id =
      occurrences t id + compact.refs.count id :=
  sum_replace (fun row => row.runtime.refs.count id)
    (fun row => { row with runtime := compact, normalized := true }) (nodup_ids t) hitem

theorem occurrences_delete (hitem : item ∈ t)
    (id : Int) :
    occurrences (t.filter fun row => row.id ≠ item.id) id + item.runtime.refs.count id =
      occurrences t id :=
  sum_delete (fun row => row.runtime.refs.count id) (nodup_ids t) hitem

theorem count_le_occurrences (hrow : row ∈ t)
    (id : Int) : row.runtime.refs.count id ≤ occurrences t id :=
  single_le_sum (fun _ _ => Nat.zero_le _) _ (List.mem_map_of_mem hrow)

/-! ## §4 — a report normalised -/

variable {reported compact : RuntimeJSON}

/-- A report that leaves `_profile_record_refs` to the store: it has none there, or a
`profile_records` member takes their place. -/
def OwnRefs (raw : RuntimeJSON) : Prop := raw.refs = [] ∨ raw.records?.isSome = true

instance (raw : RuntimeJSON) : Decidable (OwnRefs raw) := inferInstanceAs (Decidable (_ ∨ _))

/-- `compact` is the normalised form of `reported`, and its references are counted. -/
structure Settled (w w' : Work c) (reported compact : RuntimeJSON) : Prop where
  ok : w'.OK
  caches : w'.caches.isSome = w.caches.isSome
  keeps : w.records.Extends w'.records
  moved : compact.records? = none
  found : compact.refs.map w'.records.record = (reported.records?.getD []).map some
  uses : ∀ id : Nat, w'.uses id = w.uses id + compact.refs.count (id : Int)

theorem Settled.of_none (hok : w.OK)
    (hsame : SameRecords w w') (hnone : reported.records? = none)
    (hmoved : compact.records? = none) (hrefs : compact.refs = []) :
    Settled w w' reported compact := by
  refine ⟨hsame.ok hok, hsame.caches, ?_, hmoved, ?_, fun id => ?_⟩
  · rw [hsame.records]
    exact .refl _
  · rw [hrefs, hnone]
    rfl
  · rw [hrefs, hsame.uses, count_nil]
    exact (Int.add_zero _).symm

theorem Settled.of_stored {items : List Item}
    {ids : List Nat} (hstored : Stored w w' items ids) (hsome : reported.records? = some items)
    (hrefs : compact.refs = ids.map Nat.cast) (hmoved : compact.records? = none) :
    Settled w w' reported compact := by
  refine ⟨hstored.ok, hstored.caches, hstored.keeps, hmoved, ?_, fun id => ?_⟩
  · rw [hrefs, hsome, List.map_map]
    exact hstored.found
  · have hcount : (ids.map Nat.cast).count (id : Int) = ids.count id :=
      count_map_of_injective ids _ (fun _ _ h => Int.ofNat_inj.mp h) id
    rw [hrefs, hcount]
    exact hstored.uses id

/-- **A report normalised**: its references are to its records, and each is counted. -/
theorem normalize_settled [DecidableEq Digest] (hsha : Function.Injective c.sha256)
    (runtimeID : Nat) (identity : Identity) (attributed : Bool) {raw : RuntimeJSON}
    (hok : w.OK) (hown : OwnRefs raw) :
    Settled w (normalizeRuntimeEvidence runtimeID identity attributed raw w).1 raw
      (normalizeRuntimeEvidence runtimeID identity attributed raw w).2 := by
  cases hrecords : raw.records? with
  | some items =>
    obtain ⟨ids, hstored, hrefs, hmoved⟩ :=
      normalize_some hsha runtimeID identity attributed hok hrecords
    exact .of_stored hstored hrecords hrefs hmoved
  | none =>
    obtain ⟨hsame, hrefs, hmoved⟩ := normalize_none runtimeID identity attributed w hrecords
    have hempty : raw.refs = [] := hown.resolve_right (by rw [hrecords]; nofun)
    exact .of_none hok hsame hrecords hmoved (hrefs.trans hempty)

/-! ## §5 — the transactions -/

theorem Counts.append
    (h : Counts t w) (hset : Settled w w' reported compact) (mk : Nat → RuntimeRow)
    (hmk : ∀ k, (mk k).id = k) (hruntime : (mk (t.maxKey + 1)).runtime = compact)
    (hreported : (mk (t.maxKey + 1)).reported = reported)
    (hnorm : (mk (t.maxKey + 1)).normalized = true) : Counts (t.append mk hmk) w' := by
  refine ⟨hset.ok, fun id => ?_, fun row hrow => ?_⟩
  · rw [hset.uses, h.exact, occurrences_append, hruntime]
    push_cast
    rfl
  · rcases (Table.mem_append t mk hmk).mp hrow with hrow | rfl
    · exact (h.rows row hrow).extends hset.keeps
    · rw [RefsOK, if_pos hnorm, hruntime, hreported]
      exact ⟨hset.moved, hset.found⟩

theorem Counts.update (h : Counts t w) (hitem : item ∈ t) (hok : w'.OK)
    (hkeeps : w.records.Extends w'.records) (hmoved : compact.records? = none)
    (hfound : compact.refs.map w'.records.record = (item.reported.records?.getD []).map some)
    (huses : ∀ id : Nat, w'.uses id + item.runtime.refs.count (id : Int) =
      w.uses id + compact.refs.count (id : Int)) : Counts (updateRuntime t item.id compact) w' := by
  refine ⟨hok, fun id => ?_, fun row hrow => ?_⟩
  · grind [occurrences_updateRuntime, Counts.exact]
  · obtain ⟨old, hold, rfl⟩ := (Table.mem_update t _ _).mp hrow
    split
    · next hid =>
      rw [t.eq_of_key_eq hold hitem hid]
      exact ⟨hmoved, hfound⟩
    · exact (h.rows old hold).extends hkeeps

theorem Counts.flush (h : Counts t w)
    (incidents : IncidentTable Digest) :
    Counts t ⟨incidents, w.records.addUses fun id => w.pending id, none⟩ := by
  refine ⟨⟨nofun, fun _ _ => rfl⟩, fun id => ?_, fun row hrow => ?_⟩
  · rw [← h.exact id]
    show (w.records.addUses _).uses id + 0 = _
    rw [Int.add_zero, RecordTable.uses_addUses]
    · rfl
    · intro hnone
      rw [h.ok.pending id hnone]
      rfl
  · exact (h.rows row hrow).congr fun id _ => RecordTable.record_addUses ..

def DB.Counted (db : DB c) : Prop := Counts db.runtime ⟨db.incidents, db.records, none⟩

section Transactions

variable [DecidableEq Digest] (hsha : Function.Injective c.sha256)

variable {raw : RuntimeJSON}

theorem canNormalize_of_records? (h : raw.records?.isSome) : canNormalize raw = true := by
  cases raw with
  | object fields =>
    have hkey : (fields.lookup .profileRecords).isSome = true := by
      change ((fields.lookup .profileRecords).bind _).isSome = true at h
      cases hlookup : fields.lookup .profileRecords with
      | none => rw [hlookup] at h; cases h
      | some encoded => rfl
    refine decide_eq_true ⟨.profileRecords, ?_, .inr (by decide)⟩
    exact Finmap.mem_keys.mpr (Finmap.lookup_isSome.mp hkey)
  | _ => cases h

include hsha in
theorem normalizeReported_settled {db : DB c} (runtimeID : Nat) (identity : Identity)
    (attributed : Bool) (hok : Work.OK ⟨db.incidents, db.records, none⟩)
    (hown : OwnRefs raw) :
    Settled ⟨db.incidents, db.records, none⟩
      (normalizeReported db runtimeID identity raw attributed).1 raw
      (normalizeReported db runtimeID identity raw attributed).2 := by
  unfold normalizeReported
  dsimp only
  split
  · exact normalize_settled hsha runtimeID identity attributed hok hown
  · next hcan =>
    have hnone : raw.records? = none := by
      cases hrecords : raw.records? with
      | none => rfl
      | some items => exact absurd (canNormalize_of_records? (by rw [hrecords]; rfl)) hcan
    have hempty : raw.refs = [] := hown.resolve_right (by rw [hnone]; nofun)
    exact .of_none hok ⟨rfl, rfl, rfl⟩ hnone hnone hempty

include hsha in
/-- **A report recorded.** -/
theorem counted_record {db : DB c} (h : db.Counted) (identity : Identity)
    (attributed : Bool) (receivedAt : Int) (hown : OwnRefs raw) :
    (recordRuntimeEvidence db identity raw attributed receivedAt).Counted ∧
    db.records.Extends
      (recordRuntimeEvidence db identity raw attributed receivedAt).records := by
  have hset := normalizeReported_settled hsha (db.runtime.maxKey + 1) identity attributed
    h.ok hown
  have hcounts := h.append hset (fun id => ⟨id, identity,
    (normalizeReported db (db.runtime.maxKey + 1) identity raw attributed).2, attributed,
    receivedAt, raw, true⟩) (fun _ => rfl) rfl rfl rfl
  refine ⟨?_, hset.keeps⟩
  have hcaches := hset.caches
  unfold recordRuntimeEvidence DB.Counted
  dsimp only
  generalize normalizeReported db _ identity raw attributed = out at hcaches hcounts ⊢
  obtain ⟨⟨incidents, records, caches⟩, compact⟩ := out
  cases caches with
  | none => exact hcounts
  | some m => cases hcaches

include hsha in
/-- **A row normalised by a compaction.** A row that was normalised before has nothing left to
move; any other row refers to nothing yet. -/
theorem Counts.normalizeRow {t : Table RuntimeRow.id} {w : Work c} (h : Counts t w)
    {item : RuntimeRow} (hitem : item ∈ t) :
    Counts
      (updateRuntime t item.id
        (normalizeRuntimeEvidence item.id item.identity item.attributed item.runtime w).2)
      (normalizeRuntimeEvidence item.id item.identity item.attributed item.runtime w).1 ∧
    (normalizeRuntimeEvidence item.id item.identity item.attributed
      item.runtime w).1.caches.isSome = w.caches.isSome := by
  have hrow := h.rows item hitem
  unfold RefsOK at hrow
  split at hrow
  · obtain ⟨hnone, hfound⟩ := hrow
    obtain ⟨hsame, hrefs, hmoved⟩ :=
      normalize_none item.id item.identity item.attributed w hnone
    refine ⟨h.update hitem (hsame.ok h.ok) (hsame.records ▸ .refl _) hmoved ?_ fun id => ?_,
      hsame.caches⟩
    · rw [hrefs, hsame.records]
      exact hfound
    · rw [hrefs, hsame.uses]
  · obtain ⟨hreported, hempty⟩ := hrow
    have hset := normalize_settled hsha item.id item.identity item.attributed h.ok (.inl hempty)
    refine ⟨h.update hitem hset.ok hset.keeps hset.moved (hreported ▸ hset.found) fun id => ?_,
      hset.caches⟩
    rw [hset.uses, hempty, count_nil]
    exact Int.add_zero _

include hsha in
/-- **The loop over a batch.** The rows were read before the transaction began and are still as
they were: normalising one does not touch the others. -/
theorem Counts.normalizeBatch {batch : List RuntimeRow} {t : Table RuntimeRow.id} {w : Work c}
    (h : Counts t w) (hbatch : BatchOf t batch) :
    Counts (Evidence.normalizeBatch batch t w).1 (Evidence.normalizeBatch batch t w).2 ∧
    (Evidence.normalizeBatch batch t w).2.caches.isSome = w.caches.isSome := by
  induction batch generalizing t w with
  | nil => exact ⟨h, rfl⟩
  | cons item batch ih =>
    obtain ⟨hone, hcaches⟩ := h.normalizeRow hsha (hbatch.stored item mem_cons_self)
    obtain ⟨hrest, hcaches'⟩ := ih hone (hbatch.updateRuntime _)
    exact ⟨hrest, hcaches'.trans hcaches⟩

include hsha in
/-- **A compaction's transaction**: the journal agrees with the records, and the ids the
compaction knows are still right. -/
theorem counted_compactBatch {db : DB c} (h : db.Counted) {caches : Caches Digest}
    (hknows : Knows db.records caches.recordIDs) {batch : List RuntimeRow}
    (hbatch : BatchOf db.runtime batch) :
    (compactBatch db caches batch).1.Counted ∧
    Knows (compactBatch db caches batch).1.records (compactBatch db caches batch).2.recordIDs := by
  have hbegin : Counts db.runtime (⟨db.incidents, db.records,
      some { caches with recordUses := fun _ => 0 }⟩ : Work c) := by
    refine ⟨⟨?_, fun _ _ => rfl⟩, h.exact, h.rows⟩
    intro recordIDs hids
    cases hids
    exact hknows
  obtain ⟨hcounts, hcaches⟩ := hbegin.normalizeBatch hsha hbatch
  unfold compactBatch DB.Counted
  dsimp only
  generalize normalizeBatch batch db.runtime
    (⟨db.incidents, db.records, some { caches with recordUses := fun _ => 0 }⟩ : Work c) = out
    at hcounts hcaches ⊢
  obtain ⟨t, ⟨incidents, records, caches'⟩⟩ := out
  cases caches' with
  | none => cases hcaches
  | some m =>
    refine ⟨hcounts.flush incidents, fun item id hid => ?_⟩
    show (records.addUses _).record id = some item
    rw [RecordTable.record_addUses]
    exact hcounts.ok.knows m.recordIDs rfl item id hid

end Transactions

variable {db : DB c}

/-- **One row of a prune batch**: its references leave the journal and the column together. -/
theorem counted_pruneRow (h : db.Counted)
    (hitem : item ∈ db.runtime) {refs : List Int} (hrefs : item.runtime.decodeRefs = some refs)
    (incidents : IncidentTable Digest) :
    Counts (db.runtime.filter fun row => row.id ≠ item.id)
      (⟨incidents, db.records.addUses fun id => -(refs.count (id : Int) : Int), none⟩ :
        Work c) := by
  have hown : item.runtime.refs = refs := by rw [RuntimeJSON.refs, hrefs]; rfl
  refine ⟨⟨nofun, fun _ _ => rfl⟩, fun id => ?_, fun row hrow => ?_⟩
  · have hexact : db.records.uses id + 0 = occurrences db.runtime id := h.exact id
    have hgone := occurrences_delete hitem (id : Int)
    rw [hown] at hgone
    show (db.records.addUses _).uses id + 0 = _
    rw [RecordTable.uses_addUses]
    · omega
    · intro hnone
      -- a reference to no record would not be a reference of this row
      rw [count_eq_zero.mpr fun hmem => ?_]
      · rfl
      · obtain ⟨found, hfound⟩ := (h.rows item hitem).found (hown ▸ hmem)
        cases hnone.symm.trans hfound
  · exact (h.rows row ((Table.mem_filter _ _).mp hrow).1).congr fun id _ =>
      RecordTable.record_addUses ..

theorem counted_pruneRows {batch : List RuntimeRow} {db' : DB c} (h : db.Counted)
    (hbatch : BatchOf db.runtime batch) (hprune : pruneRows batch db = some db') :
    db'.Counted := by
  induction batch generalizing db with
  | nil =>
    cases hprune
    exact h
  | cons item batch ih =>
    obtain ⟨refs, hrefs, hrest⟩ := bind_eq_some_iff.mp hprune
    refine ih ?_ hbatch.delete hrest
    exact counted_pruneRow h (hbatch.stored item mem_cons_self) hrefs _

/-- **A prune's transaction.** A record with no uses left has no reference left, so the delete at
the end takes nothing away that a row refers to. -/
theorem counted_pruneBatchRows {batch : List RuntimeRow} {db' : DB c} (h : db.Counted)
    (hbatch : BatchOf db.runtime batch)
    (hprune : pruneBatchRows db batch = some db') : db'.Counted := by
  obtain ⟨mid, hmid, rfl⟩ := map_eq_some_iff.mp hprune
  have hcounted := counted_pruneRows h hbatch hmid
  have hexact : ∀ id : Nat, mid.records.uses id = occurrences mid.runtime id := fun id =>
    (Int.add_zero _).symm.trans (hcounted.exact id)
  refine ⟨⟨nofun, fun _ _ => rfl⟩, fun id => ?_, fun row hrow => ?_⟩
  · rw [← hcounted.exact id]
    show mid.records.deleteUnused.uses id + 0 = mid.records.uses id + 0
    rw [RecordTable.uses_deleteUnused (by rw [hexact]; omega)]
  · refine (hcounted.rows row hrow).congr fun id hid => RecordTable.record_deleteUnused ?_
    obtain ⟨item, hitem⟩ := (hcounted.rows row hrow).found hid
    have hnat : (id.toNat : Int) = id := by
      refine Int.toNat_of_nonneg (Int.not_lt.mp fun hneg => ?_)
      cases (RecordTable.record_of_neg _ hneg).symm.trans hitem
    have hpos : 0 < row.runtime.refs.count id := count_pos_iff.mpr hid
    have hle : _ ≤ occurrences mid.runtime id := count_le_occurrences hrow id
    rw [← hnat, hexact, hnat]
    omega

/-! ## §6 — every run -/

/-- The ids a maintenance has cached are those of the table. -/
def KnowsRecords (db : DB c) : Maintenance Digest → Prop
  | .recordsLoaded _ _ recordIDs => Knows db.records recordIDs
  | .compacting _ _ caches => Knows db.records caches.recordIDs
  | .batchRead _ _ caches batch =>
    Knows db.records caches.recordIDs ∧ BatchOf db.runtime batch
  | _ => True

/-- The counts are exact, and a maintenance knows the records. -/
structure CountInv (s : State c) : Prop where
  counted : s.db.Counted
  held : KnowsRecords s.db s.maintenance

theorem knowsRecords_of_plain (db : DB c) {m : Maintenance Digest} (hm : m.Plain) :
    KnowsRecords db m := by
  cases m with
  | idle => trivial
  | started maxID batchSize => trivial
  | pruning cutoff deployments => trivial
  | _ => cases hm

/-- No report brings references of its own. -/
def RefsLeftToStore (_ : State c) : Action → Prop
  | .record _ raw _ _ => OwnRefs raw
  | _ => True

instance (s : State c) : (a : Action) → Decidable (RefsLeftToStore s a)
  | .record _ raw _ _ => inferInstanceAs (Decidable (OwnRefs raw))
  | .beginCompact _ | .loadRecords | .loadIncidents | .readBatch | .commitBatch
  | .beginPrune _ | .commitPrune | .stop | .setDeployments _ _ => .isTrue trivial

/-- **Exact `uses`.** The column of every record is the number of references to it, and the
references of every row are to the records its report carried, in their order; a row that has
not been normalised refers to nothing. -/
structure ReferencesCounted (db : DB c) : Prop where
  uses_eq : ∀ row ∈ db.records.rows, row.uses = occurrences db.runtime row.id
  reported : ∀ row ∈ db.runtime, List.Forall₂
    (fun id item => ∃ found ∈ db.records.rows, (found.id : Int) = id ∧ found.record = item)
    row.runtime.refs (if row.normalized then row.reported.records?.getD [] else [])

theorem DB.Counted.referencesCounted (h : db.Counted) : ReferencesCounted db := by
  refine ⟨fun row hrow => ?_, fun row hrow => ?_⟩
  · have hexact : db.records.uses row.id + 0 = occurrences db.runtime row.id := h.exact row.id
    rw [← hexact, RecordTable.uses, RecordTable.row_of_mem hrow]
    exact (Int.add_zero _).symm
  · have hrefs := h.rows row hrow
    unfold RefsOK at hrefs
    split at hrefs
    · next hnorm =>
      rw [if_pos hnorm]
      have heq := hrefs.2
      rw [← List.forall₂_eq_eq_eq, List.forall₂_map_left_iff, List.forall₂_map_right_iff] at heq
      refine heq.imp fun id item hid => ?_
      obtain ⟨found, hfound, hitem⟩ := map_eq_some_iff.mp hid
      obtain ⟨hmem, hkey⟩ := RecordTable.row_eq_some_iff.mp hfound
      exact ⟨found, hmem, hkey, hitem⟩
    · next hnorm =>
      rw [if_neg hnorm, hrefs.2]
      exact .nil

section Run

variable [DecidableEq Digest] (hsha : Function.Injective c.sha256)

omit [DecidableEq Digest] in
theorem countInv_start {s : State c} (h : Start s) : CountInv s := by
  have hempty : ∀ row ∈ s.db.runtime, row.runtime.refs = [] := by
    intro row hrow
    cases hraw : row.runtime with
    | object fields => rw [refs_object, h.refs row hrow fields hraw]; rfl
    | _ => rfl
  refine ⟨⟨⟨nofun, fun _ _ => rfl⟩, fun id => ?_, fun row hrow => ?_⟩, ?_⟩
  · have hzero : occurrences s.db.runtime id = 0 := by
      refine sum_eq_zero fun n hn => ?_
      obtain ⟨row, hrow, rfl⟩ := List.mem_map.mp hn
      rw [hempty row hrow, count_nil]
    rw [hzero]
    show s.db.records.uses id + 0 = 0
    rw [h.records, RecordTable.uses_eq_zero (RecordTable.record_empty _)]
    rfl
  · grind [Start.raw, RefsOK]
  · rw [h.idle]
    trivial

theorem knows_loaded (t : RecordTable c.sha256) (hsha : Function.Injective c.sha256) :
    Knows t fun digest => (t.rows.find? fun row => row.digest = digest).map RecordRow.id := by
  intro item id hid
  obtain ⟨row, hfind, rfl⟩ := map_eq_some_iff.mp hid
  grind [RecordTable.record, RecordTable.row_of_mem, RecordTable.digest_eq]

include hsha in
theorem KnowsRecords.record {db : DB c} (h : db.Counted) {m : Maintenance Digest}
    (hm : KnowsRecords db m) (identity : Identity) {raw : RuntimeJSON} (attributed : Bool)
    (receivedAt : Int) (hown : OwnRefs raw) :
    KnowsRecords (recordRuntimeEvidence db identity raw attributed receivedAt) m := by
  have hext := (counted_record hsha h identity attributed receivedAt hown).2
  cases m with
  | recordsLoaded maxID batchSize recordIDs => exact hm.extends hext
  | compacting maxID batchSize caches => exact hm.extends hext
  | batchRead maxID batchSize caches batch => exact ⟨hm.1.extends hext, hm.2.record ..⟩
  | _ => trivial

include hsha in
/-- **One step** keeps the invariant. -/
theorem countInv_step {s s' : State c} {a : Action} (h : CountInv s)
    (hok : RefsLeftToStore s a) (hstep : step s a = some s') : CountInv s' := by
  cases step_effect hstep with
  | record identity raw attributed receivedAt =>
    exact ⟨(counted_record hsha h.counted identity attributed receivedAt hok).1,
      h.held.record hsha h.counted identity attributed receivedAt hok⟩
  | setDeployments deployments archives =>
    refine ⟨h.counted, ?_⟩
    have hheld := h.held
    show KnowsRecords _ s.maintenance
    cases hm : s.maintenance <;> rw [hm] at hheld <;> exact hheld
  | stay => exact h
  | goto _ hm => exact ⟨h.counted, knowsRecords_of_plain _ hm⟩
  | loadRecords maxID batchSize => exact ⟨h.counted, knows_loaded _ hsha⟩
  | loadIncidents hm =>
    have hheld := h.held
    rw [hm] at hheld
    exact ⟨h.counted, hheld⟩
  | readBatch hm =>
    have hheld := h.held
    rw [hm] at hheld
    exact ⟨h.counted, hheld, batchOf_compactionBatch ..⟩
  | commitBatch hm hnext =>
    have hheld := h.held
    rw [hm] at hheld
    obtain ⟨hcounted, hknows⟩ := counted_compactBatch hsha h.counted hheld.1 hheld.2
    refine ⟨hcounted, ?_⟩
    rcases hnext with rfl | rfl
    · trivial
    · exact hknows
  | @commitPrune cutoff deployment _ hm _ hprune =>
    have hbatch := batchOf_pruneBatch s.db cutoff deployment
    refine ⟨counted_pruneBatchRows h.counted hbatch hprune, ?_⟩
    rw [hm]
    trivial

/-- **Reference counts are exact** in every state of a run whose reports leave
`_profile_record_refs` to the store. -/
theorem record_uses_exact (c : Codec Digest) (hsha : Function.Injective c.sha256) {s : State c}
    (h : (machine c).Reaches RefsLeftToStore s) : ReferencesCounted s.db := by
  have hinv : CountInv s := by
    refine h.invariant ?_ ?_
    · intro s hs
      exact countInv_start hs
    · intro s a s' hs hok hstep
      exact countInv_step hsha hs hok hstep
  exact hinv.counted.referencesCounted

end Run

/-! ## §7 — runs -/

def plainCodec : Codec Item := ⟨id, fun _ _ => .null, fun _ => none, fun _ => none⟩

def reporter : Identity := ⟨text "main", 1, text "w1", []⟩

def recordsReport (items : List Item) : RuntimeJSON :=
  .object (Finmap.singleton .profileRecords (.array items))

def refsReport (ids : List Nat) : RuntimeJSON :=
  .object (Finmap.singleton profileRecordRefsKey (marshalIDs ids))

/-- A journal with one report of the time before reports were normalised. -/
def legacyJournal (raw : RuntimeJSON) : State plainCodec :=
  ⟨⟨⟨[⟨1, reporter, raw, true, 0, raw, false⟩], pairwise_singleton _ _⟩,
    RecordTable.empty _, .empty, 0, [], []⟩, .idle⟩

theorem start_legacyJournal (items : List Item) :
    (machine plainCodec).start (legacyJournal (recordsReport items)) := by
  refine ⟨rfl, rfl, rfl, fun row hrow => ?_, fun row hrow fields hfields => ?_⟩
  · rw [List.mem_singleton.mp hrow]
    exact ⟨rfl, rfl⟩
  · rw [List.mem_singleton.mp hrow] at hfields
    cases hfields
    refine Finmap.lookup_eq_none.mpr fun hmem => ?_
    cases (Finmap.mem_singleton _ _ _).mp hmem

/-- The legacy report is compacted after a second one named its record again: two uses, one
counted by each path. -/
theorem record_uses_exact_compacted :
    ∃ s, (machine plainCodec).Reaches RefsLeftToStore s ∧
      s.db.records.rows.map RecordRow.uses = [2, 1] ∧ ReferencesCounted s.db := by
  have hstart : (machine plainCodec).Reaches RefsLeftToStore
      (legacyJournal (recordsReport [.int 7])) := .start (start_legacyJournal _)
  obtain ⟨s, hs, huses⟩ := Machine.exists_reaches_of_run hstart
    [.record reporter (recordsReport [.int 7, .int 8]) true 1, .beginCompact 1, .loadRecords,
      .loadIncidents, .readBatch, .commitBatch]
    (P := fun s => s.db.records.rows.map RecordRow.uses = [2, 1]) (by decide +kernel)
  exact ⟨s, hs, huses, record_uses_exact plainCodec injective_id hs⟩

/-- A report that names record 1 in `_profile_record_refs` is stored as it came: the record is
referred to twice and used once. -/
theorem record_uses_short : ∃ s, (machine plainCodec).Reachable s ∧ ¬ ReferencesCounted s.db := by
  have hstart : (machine plainCodec).Reachable (legacyJournal (recordsReport [])) :=
    .start (start_legacyJournal _)
  obtain ⟨s, hs, row, hrow, hne⟩ := Machine.exists_reaches_of_run hstart
    [.record reporter (recordsReport [.int 7]) true 1, .record reporter (refsReport [1]) true 2]
    (P := fun s => ∃ row ∈ s.db.records.rows, row.uses ≠ occurrences s.db.runtime row.id)
    (by decide +kernel)
  exact ⟨s, hs, fun h => hne (h.uses_eq row hrow)⟩

end LitestreamSoak.Store.Evidence
