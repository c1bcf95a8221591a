import LitestreamSoak.Lib.Keyed
import LitestreamSoak.Lib.Text
import LitestreamSoak.Store.Blobs

/-!
# Store — the evidence journal's profile tables

`internal/model/evidence_compaction.go` moves two arrays of a posted runtime report out of the
journal row that stores it:

The constraints of the schema are fields of the two structures. `normalizeRuntimeEvidence` is the
one function that fills them, either at once (`Caches` absent, as `RecordRuntimeEvidence` calls
it) or with the ids looked up beforehand and the counts added later (`CompactRuntimeEvidence`).

Reports are kept as the values they decode into; JSON that the code hands to a decoder of another
package, and SHA-256, are the parameters of `Codec`.
-/

namespace LitestreamSoak.Store.Evidence

open Lib List

/-! ## §1 — reports -/

variable {Digest : Type}

/-- The member that replaces `profile_records`: `profileRecordRefsKey`. -/
def profileRecordRefsKey : Field := .other "_profile_record_refs"

/-- The member that says incidents were moved: `profileIncidentsExternalKey`. -/
def profileIncidentsExternalKey : Field := .other "_profile_incidents_external"

def profileCapability : Field := .other "profile_capability"

/-- A runtime report, or the `runtime_json` column. `null` decodes into a nil map without an
error, `text` is valid JSON that no map can hold. -/
inductive RuntimeJSON where
  | null
  | text (raw : String)
  | object (fields : Fields)
deriving DecidableEq

/-- `reporting.WorkerIdentity`; `rest` stands for the members no code here reads. -/
structure Identity where
  source : Text
  deploymentID : Int
  workerID : Text
  rest : Text
deriving DecidableEq

/-- The members of a `reporting.ProfileIncident` that identify it: `Run.RunID` and `ID`. -/
structure Incident where
  runID : Text
  id : Text
deriving DecidableEq

/-- What the model takes as given: SHA-256 of a record, SHA-256 of a marshalled identity with the
capability byte behind it, and the decoders of an incident and of a JSON string. -/
structure Codec (Digest : Type) where
  sha256 : Item → Digest
  identityDigest : Identity → Bool → Digest
  decodeIncident : Item → Option Incident
  decodeString : RawMessage → Option Text

/-- `profileIncidentKey`, the primary key of `evidence_profile_incidents`. -/
structure ProfileIncidentKey (Digest : Type) where
  source : Text
  deploymentID : Int
  workerID : Text
  runID : Text
  identityDigest : Digest
  attributed : Bool
  incidentID : Text
deriving DecidableEq

/-- `json.Unmarshal` of `profile_incidents`, once into incidents and once into raw messages. -/
def decodeIncidents (c : Codec Digest) (encoded : RawMessage) : Option (List (Incident × Item)) :=
  encoded.decodeItems.bind (·.mapM fun item => (c.decodeIncident item).map (·, item))

/-- The key an incident is stored under: the reporting identity, the run and the incident's id. -/
def incidentKey (c : Codec Digest) (identity : Identity) (attributed : Bool) (fields : Fields)
    (incident : Incident) : ProfileIncidentKey Digest :=
  let capability := ((fields.lookup profileCapability).bind c.decodeString).getD []
  { source := identity.source
    deploymentID := identity.deploymentID
    workerID := identity.workerID
    runID := incident.runID
    identityDigest := c.identityDigest identity (capability ≠ [])
    attributed := attributed
    incidentID := incident.id }

/-- The incidents of a report under their keys, when the member is there and decodes. -/
def incidentEntries (c : Codec Digest) (identity : Identity) (attributed : Bool)
    (fields : Fields) : Option (List (ProfileIncidentKey Digest × Item)) :=
  ((fields.lookup .profileIncidents).bind (decodeIncidents c)).map
    (·.map fun entry => (incidentKey c identity attributed fields entry.1, entry.2))

/-! ## §2 — `evidence_profile_records` -/

structure RecordRow (Digest : Type) where
  id : Nat
  digest : Digest
  record : Item
  uses : Int
deriving DecidableEq

/-- `evidence_profile_records` in row-id order, with the constraints of its schema. -/
structure RecordTable (sha256 : Item → Digest) extends Table (@RecordRow.id Digest) where
  digests_unique : rows.Pairwise fun a b => a.digest ≠ b.digest
  digest_eq : ∀ row ∈ rows, row.digest = sha256 row.record

namespace RecordTable

variable {sha256 : Item → Digest}

def empty (sha256 : Item → Digest) : RecordTable sha256 :=
  ⟨Table.empty _, .nil, by simp [Table.empty]⟩

/-- The row with this id. A reference array holds `int64`s; no row has a negative id. -/
def row (t : RecordTable sha256) (id : Int) : Option (RecordRow Digest) :=
  if 0 ≤ id then t.find? id.toNat else none

def record (t : RecordTable sha256) (id : Int) : Option Item := (t.row id).map RecordRow.record

def uses (t : RecordTable sha256) (id : Int) : Int := ((t.row id).map RecordRow.uses).getD 0

/-- `UPDATE evidence_profile_records SET uses=uses+? WHERE id=?`, for several ids at a time. -/
def addUses (t : RecordTable sha256) (n : Nat → Int) : RecordTable sha256 :=
  ⟨t.toTable.update (fun row => { row with uses := row.uses + n row.id }) fun _ => rfl,
   pairwise_map.mpr t.digests_unique,
   fun row hrow => by
     obtain ⟨old, hold, rfl⟩ := mem_map.mp hrow
     exact t.digest_eq old hold⟩

/-- `DELETE FROM evidence_profile_records WHERE uses <= 0`. -/
def deleteUnused (t : RecordTable sha256) : RecordTable sha256 :=
  ⟨t.toTable.filter fun row => 0 < row.uses, t.digests_unique.filter _,
   fun row hrow => t.digest_eq row (mem_of_mem_filter hrow)⟩

/-- `INSERT INTO evidence_profile_records ... ON CONFLICT(digest) DO UPDATE SET uses=uses+?
RETURNING id`: the row that already has the record's digest, or a new row after the last one. -/
def upsert [DecidableEq Digest] (t : RecordTable sha256) (item : Item) (uses : Int) :
    RecordTable sha256 × Nat :=
  match h : t.rows.find? fun row => row.digest = sha256 item with
  | some row => (t.addUses fun id => if id = row.id then uses else 0, row.id)
  | none =>
    (⟨t.toTable.append (fun id => ⟨id, sha256 item, item, uses⟩) fun _ => rfl,
      pairwise_append.mpr ⟨t.digests_unique, .cons (by simp) .nil, fun a ha b hb => by
        rw [mem_singleton.mp hb]; simpa using find?_eq_none.mp h a ha⟩,
      fun row hrow => by
        rcases mem_append.mp hrow with hold | hnew
        · exact t.digest_eq row hold
        · rw [mem_singleton.mp hnew]⟩,
     t.maxKey + 1)

/-! ### What the statements do to `record` and `uses` -/

variable {t : RecordTable sha256} {id : Int}

/-- A row is found under its id. -/
theorem row_eq_some_iff {found : RecordRow Digest} :
    t.row id = some found ↔ found ∈ t.rows ∧ (found.id : Int) = id := by
  unfold row
  split
  · next hid =>
    rw [t.find?_eq_some_iff, ← Table.mem_rows]
    grind
  · next hid =>
    constructor
    · intro h; cases h
    · intro ⟨_, hkey⟩; omega

theorem row_of_mem {found : RecordRow Digest} (h : found ∈ t.rows) :
    t.row found.id = some found :=
  row_eq_some_iff.mpr ⟨h, rfl⟩

/-- Every record of `t` is in `t'` under the same id. -/
def Extends (t t' : RecordTable sha256) : Prop :=
  ∀ id item, t.record id = some item → t'.record id = some item

theorem Extends.refl (t : RecordTable sha256) : t.Extends t := fun _ _ h => h

theorem Extends.trans {t₁ t₂ t₃ : RecordTable sha256} (h₁ : t₁.Extends t₂)
    (h₂ : t₂.Extends t₃) : t₁.Extends t₃ := fun id item h => h₂ id item (h₁ id item h)

theorem Extends.none {t' : RecordTable sha256} (h : t.Extends t')
    (hnone : t'.record id = none) : t.record id = none := by
  cases hid : t.record id with
  | none => rfl
  | some item => rw [h id item hid] at hnone; cases hnone

/-- Ids that were resolved stay resolved, to the same records. -/
theorem Extends.map_record {α : Type} {t' : RecordTable sha256} (h : t.Extends t')
    {ids : List α} {f : α → Int} {items : List Item}
    (hfound : ids.map (fun id => t.record (f id)) = items.map some) :
    ids.map (fun id => t'.record (f id)) = items.map some := by
  induction ids generalizing items with
  | nil => exact hfound
  | cons id ids ih =>
    cases items with
    | nil => cases hfound
    | cons item items =>
      obtain ⟨hhead, htail⟩ := cons.inj hfound
      rw [map_cons, map_cons, ih htail, h _ _ hhead]

/-- An update of `uses` keeps every row in its place. -/
theorem row_addUses (t : RecordTable sha256) (n : Nat → Int) (id : Int) :
    (t.addUses n).row id =
      (t.row id).map fun row => { row with uses := row.uses + n row.id } := by
  unfold row
  split
  · grind [Table.find?_update, RecordTable.addUses]
  · rfl

@[simp] theorem record_addUses (t : RecordTable sha256) (n : Nat → Int) (id : Int) :
    (t.addUses n).record id = t.record id := by
  rw [record, row_addUses, Option.map_map]
  rfl

@[simp] theorem record_empty (id : Int) : (empty sha256).record id = none := by
  rw [record, row]
  split <;> rfl

/-- An id without a row has no uses. -/
theorem uses_eq_zero (h : t.record id = none) : t.uses id = 0 := by
  rw [record, Option.map_eq_none_iff] at h
  rw [uses, h]
  rfl

/-- What is added to `uses`, if nothing is added to an id without a row. -/
theorem uses_addUses (t : RecordTable sha256) (n : Nat → Int) (id : Nat)
    (hn : t.record id = none → n id = 0) : (t.addUses n).uses id = t.uses id + n id := by
  rw [uses, uses, row_addUses]
  cases hrow : t.row id with
  | none =>
    rw [hn (by rw [record, hrow]; rfl)]
    rfl
  | some found =>
    have hid : found.id = id := by exact_mod_cast (row_eq_some_iff.mp hrow).2
    show found.uses + n found.id = found.uses + n id
    rw [hid]

theorem record_of_neg (t : RecordTable sha256) (h : id < 0) : t.record id = none := by
  rw [record, row, if_neg (by omega)]
  rfl

/-- A delete of unused records keeps the rows that have uses. -/
theorem row_deleteUnused (t : RecordTable sha256) (id : Int) :
    t.deleteUnused.row id = (t.row id).filter fun row => 0 < row.uses := by
  ext found
  rw [Option.filter_eq_some_iff, row_eq_some_iff, row_eq_some_iff]
  show found ∈ t.rows.filter _ ∧ _ ↔ _
  grind

/-- A record in use survives the delete. -/
theorem record_deleteUnused (h : 0 < t.uses id) : t.deleteUnused.record id = t.record id := by
  rw [record, record, row_deleteUnused]
  rw [uses] at h
  cases hrow : t.row id with
  | none => rfl
  | some found =>
    rw [hrow] at h
    rw [Option.filter_some, if_pos (by simpa using h)]

/-- The delete changes no count that is not negative. -/
theorem uses_deleteUnused (h : 0 ≤ t.uses id) : t.deleteUnused.uses id = t.uses id := by
  rw [uses, uses, row_deleteUnused]
  rw [uses] at h
  cases hrow : t.row id with
  | none => rfl
  -- a row that is deleted had no uses
  | some found => grind

variable [DecidableEq Digest]

/-- An upsert adds to the uses of the record with this digest, or inserts a row with the next id. -/
theorem upsert_cases (t : RecordTable sha256) (item : Item) (n : Int) :
    (∃ row ∈ t.rows, row.digest = sha256 item ∧
      t.upsert item n = (t.addUses fun id => if id = row.id then n else 0, row.id)) ∨
    ((t.upsert item n).2 = t.maxKey + 1 ∧
      (t.upsert item n).1.rows = t.rows ++ [⟨t.maxKey + 1, sha256 item, item, n⟩]) := by
  unfold upsert
  split
  · grind
  · exact .inr ⟨rfl, rfl⟩

end RecordTable

/-! ## §3 — `evidence_profile_incidents` -/

structure IncidentRow (Digest : Type) where
  key : ProfileIncidentKey Digest
  runtimeID : Nat
  ordinal : Nat
  incident : Item
deriving DecidableEq

/-- `evidence_profile_incidents`: each incident once, under the identity it was reported for, with
the id of the journal row that owns it. -/
structure IncidentTable (Digest : Type) where
  rows : List (IncidentRow Digest)
  keys_unique : (rows.map IncidentRow.key).Nodup

namespace IncidentTable

def empty : IncidentTable Digest := ⟨[], .nil⟩

/-- `DELETE FROM evidence_profile_incidents`, keeping the rows whose owner passes. -/
def deleteExcept (t : IncidentTable Digest) (keep : Nat → Bool) : IncidentTable Digest :=
  ⟨t.rows.filter fun row => keep row.runtimeID, t.keys_unique.sublist (filter_sublist.map _)⟩

variable [DecidableEq Digest]

def find? (t : IncidentTable Digest) (key : ProfileIncidentKey Digest) :
    Option (IncidentRow Digest) :=
  t.rows.find? fun row => row.key = key

def owner (t : IncidentTable Digest) (key : ProfileIncidentKey Digest) : Option Nat :=
  (t.find? key).map IncidentRow.runtimeID

/-- `INSERT INTO evidence_profile_incidents ... ON CONFLICT(...) DO UPDATE SET ... WHERE
excluded.runtime_id < evidence_profile_incidents.runtime_id`, with the rows affected: an incident
already stored changes hands only to an older journal row. -/
def upsert (t : IncidentTable Digest) (new : IncidentRow Digest) : IncidentTable Digest × Nat :=
  match h : t.find? new.key with
  | none =>
    (⟨t.rows ++ [new], nodup_map_concat t.keys_unique fun x hx => by
        simpa using find?_eq_none.mp h x hx⟩, 1)
  | some old =>
    if new.runtimeID < old.runtimeID then
      (⟨t.rows.map fun row => if row.key = new.key then new else row, by
          rw [map_replace (fun _ => new) (fun x hx => hx.symm)]; exact t.keys_unique⟩, 1)
    else (t, 0)

end IncidentTable

/-! ## §4 — `normalizeRuntimeEvidence` -/

/-- The three maps a compaction carries: the owner of every incident it knows, the id of every
record it knows, and the uses it has yet to add. -/
structure Caches (Digest : Type) where
  known : ProfileIncidentKey Digest → Option Nat
  recordIDs : Digest → Option Nat
  recordUses : Nat → Nat

/-- The tables `normalizeRuntimeEvidence` writes, and the maps when the caller passes them. -/
structure Work (c : Codec Digest) where
  incidents : IncidentTable Digest
  records : RecordTable c.sha256
  caches : Option (Caches Digest)

variable [DecidableEq Digest] {c : Codec Digest}

def Caches.own (m : Caches Digest) (key : ProfileIncidentKey Digest) (runtimeID : Nat) :
    Caches Digest :=
  { m with known := Function.update m.known key (some runtimeID) }

/-- The loop over the incidents of one report: the incident at `ordinal` is skipped when a
journal row not after this one is known to own it. The second value is `storedIncidents`. -/
def storeIncidents (runtimeID : Nat) :
    Nat → List (ProfileIncidentKey Digest × Item) → Work c → Work c × Nat
  | _, [], w => (w, 0)
  | ordinal, (key, item) :: entries, w =>
    if (w.caches.bind (·.known key)).any (· ≤ runtimeID) then
      storeIncidents runtimeID (ordinal + 1) entries w
    else
      let stored := w.incidents.upsert ⟨key, runtimeID, ordinal, item⟩
      let rest := storeIncidents runtimeID (ordinal + 1) entries
        ⟨stored.1, w.records, w.caches.map (·.own key runtimeID)⟩
      (rest.1, stored.2 + rest.2)

/-- The part of `normalizeRuntimeEvidence` about `profile_incidents`. -/
def normalizeIncidents (runtimeID : Nat) (identity : Identity) (attributed : Bool)
    (fields : Fields) (w : Work c) : Work c × Fields :=
  match incidentEntries c identity attributed fields with
  | none => (w, fields)
  | some entries =>
    let stored := storeIncidents runtimeID 0 entries w
    let rest := fields.erase .profileIncidents
    (stored.1,
      if 0 < stored.2 then rest.insert profileIncidentsExternalKey (.text "true" ∅) else rest)

def Caches.count (m : Caches Digest) (id : Nat) : Caches Digest :=
  { m with recordUses := Function.update m.recordUses id (m.recordUses id + 1) }

def Caches.learn (m : Caches Digest) (digest : Digest) (id : Nat) : Caches Digest :=
  { m with recordIDs := Function.update m.recordIDs digest (some id) }

/-- One record: the id from the cache, or that of the row with its digest, which a caller without
caches counts at once. -/
def storeRecord (item : Item) (w : Work c) : Work c × Nat :=
  match w.caches with
  | none =>
    let stored := w.records.upsert item 1
    ({ w with records := stored.1 }, stored.2)
  | some m =>
    match m.recordIDs (c.sha256 item) with
    | some id => ({ w with caches := some (m.count id) }, id)
    | none =>
      let stored := w.records.upsert item 0
      (⟨w.incidents, stored.1, some ((m.learn (c.sha256 item) stored.2).count stored.2)⟩, stored.2)

/-- The loop over the records of one report, with the references it collects. -/
def storeRecords : List Item → Work c → Work c × List Nat
  | [], w => (w, [])
  | item :: items, w =>
    let stored := storeRecord item w
    let rest := storeRecords items stored.1
    (rest.1, stored.2 :: rest.2)

/-- The part of `normalizeRuntimeEvidence` about `profile_records`. -/
def normalizeRecords (fields : Fields) (w : Work c) : Work c × Fields :=
  match fields.lookup .profileRecords with
  | none => (w, fields)
  | some .null =>
    (w, (fields.erase .profileRecords).insert profileRecordRefsKey .null)
  | some (.array items) =>
    let stored := storeRecords items w
    (stored.1, (fields.erase .profileRecords).insert profileRecordRefsKey (marshalIDs stored.2))
  -- no array: the member stays, and so does a `_profile_record_refs` of the report's own
  | some (.text _ _) => (w, fields)

def normalizeRuntimeEvidence (runtimeID : Nat) (identity : Identity) (attributed : Bool)
    (raw : RuntimeJSON) (w : Work c) : Work c × RuntimeJSON :=
  match raw with
  | .object fields =>
    let incidents := normalizeIncidents runtimeID identity attributed fields w
    let records := normalizeRecords incidents.2 incidents.1
    (records.1, .object records.2)
  | raw => (w, raw)

end LitestreamSoak.Store.Evidence
