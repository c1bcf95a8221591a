import LitestreamSoak.Lib.Table

/-!
# Store — snapshot texts and the profile blob table

`internal/model/profile_blobs.go` keeps the two profile arrays of a runtime snapshot out of the
row that stores it: the elements of `profile_incidents` and `profile_records` live in
`evidence_profile_blobs`, and the row holds their ids in `_profile_incident_blobs` and
`_profile_record_blobs`. This module has the data both forms are made of:

SHA-256 is the parameter `sha256`; that it does not collide is assumed where it is used.
-/

namespace LitestreamSoak.Store

open Lib List

/-! ## §1 — JSON texts as the store reads them -/

/-- The member names of a snapshot object that the code tells apart. -/
inductive Field where
  | profileIncidents
  | profileRecords
  | profileIncidentBlobs
  | profileRecordBlobs
  | other (name : String)
deriving DecidableEq, Repr

def Field.name : Field → String
  | .profileIncidents => "profile_incidents"
  | .profileRecords => "profile_records"
  | .profileIncidentBlobs => "_profile_incident_blobs"
  | .profileRecordBlobs => "_profile_record_blobs"
  | .other name => name

/-- What the code searches a text for: a member name between quotes, or `"_profile_` followed by
something that is none of the two reference names. -/
inductive Mark where
  | quoted (field : Field)
  | otherBlobs
deriving DecidableEq

/-- The profile fields, in the order of `profileSnapshotArrays`. -/
def profileFields : List Field :=
  [.profileIncidents, .profileRecords, .profileIncidentBlobs, .profileRecordBlobs]

/-- The literals that occur where a member name is written out. Inside a name a quote is escaped,
so in a longer name a profile field is found at the end, after a quote. -/
def Field.marks : Field → Finset Mark
  | .other name =>
    {.quoted (.other name)} ∪
      ((profileFields.filter fun f => ('"' :: f.name.toList) <:+ name.toList).map
        Mark.quoted).toFinset ∪
      (if "\"_profile_".toList <:+: ('"' :: name.toList) then {.otherBlobs} else ∅)
  | field => {.quoted field}

theorem Field.quoted_mem_marks (field : Field) : .quoted field ∈ field.marks := by
  cases field with
  | other name =>
    exact Finset.mem_union_left _ (Finset.mem_union_left _ (Finset.mem_singleton_self _))
  | _ => exact Finset.mem_singleton_self _

/-- One element of a JSON array, kept as a `json.RawMessage`. `int` is a number literal that
decodes as an `int64`; every other element is its text, with the literals that occur in it. -/
inductive Item where
  | int (n : Int)
  | null
  | text (raw : String) (marks : Finset Mark)
deriving DecidableEq

def Item.marks : Item → Finset Mark
  | .text _ marks => marks
  | _ => ∅

/-- A member value of a snapshot object, kept as a `json.RawMessage`. -/
inductive RawMessage where
  | null
  | array (items : List Item)
  | text (raw : String) (marks : Finset Mark)
deriving DecidableEq

def RawMessage.marks : RawMessage → Finset Mark
  | .null => ∅
  | .array items => items.foldr (fun item acc => item.marks ∪ acc) ∅
  | .text _ marks => marks

/-- `json.Unmarshal(encoded, &items)` for `items []json.RawMessage`; JSON `null` leaves the
slice nil. -/
def RawMessage.decodeItems : RawMessage → Option (List Item)
  | .null => some []
  | .array items => some items
  | .text _ _ => none

/-- An array element decoded into an `int64`; JSON `null` leaves the zero value. -/
def Item.decodeInt64 : Item → Option Int
  | .int n => some n
  | .null => some 0
  | .text _ _ => none

def RawMessage.decodeIDs (m : RawMessage) : Option (List Int) :=
  m.decodeItems.bind (·.mapM Item.decodeInt64)

def marshalIDs (ids : List Nat) : RawMessage := .array (ids.map fun id : Nat => .int id)

@[simp] theorem decodeIDs_marshalIDs (ids : List Nat) :
    (marshalIDs ids).decodeIDs = some (ids.map fun id : Nat => (id : Int)) := by
  simp only [RawMessage.decodeIDs, marshalIDs, RawMessage.decodeItems, Option.bind_some]
  induction ids with
  | nil => rfl
  | cons id ids ih => rw [map_cons, mapM_cons, ih]; rfl

abbrev Fields := Finmap (fun _ : Field => RawMessage)

/-- The text of a snapshot column, see the module header. -/
inductive Doc where
  | text (raw : String)
  | object (fields : Fields) (marks : Finset Mark)
deriving DecidableEq

/-- What a reader of the column gets to see once formatting is ignored: the text itself when it
is no object, its member map otherwise. -/
inductive JsonValue where
  | text (raw : String)
  | object (fields : Fields)
deriving DecidableEq

def Doc.value : Doc → JsonValue
  | .text raw => .text raw
  | .object fields _ => .object fields

/-- `json.Marshal(fields)`: the member names are written unescaped, next to whatever occurs
inside the values. -/
def marshalFields (fields : Fields) : Doc :=
  .object fields
    (fields.keys.biUnion Field.marks ∪
      fields.entries.toFinset.biUnion fun entry => entry.2.marks)

/-! ## §2 — the blob table -/

structure Blob (Digest : Type) where
  id : Nat
  digest : Digest
  body : Item
deriving DecidableEq

/-- `evidence_profile_blobs` in row-id order, with the constraints of its schema. -/
structure BlobTable {Digest : Type} (sha256 : Item → Digest) extends
    Table (@Blob.id Digest) where
  digests_unique : rows.Pairwise fun a b => a.digest ≠ b.digest
  digest_eq : ∀ row ∈ rows, row.digest = sha256 row.body

namespace BlobTable

variable {Digest : Type} {sha256 : Item → Digest}

def empty (sha256 : Item → Digest) : BlobTable sha256 :=
  ⟨Table.empty _, .nil, by simp [Table.empty]⟩

/-- The body of the row with this id. Ids read back from a reference array are `int64`s, so the
lookup takes an `Int`; no row has a negative id. -/
def body (t : BlobTable sha256) (id : Int) : Option Item :=
  if 0 ≤ id then (t.find? id.toNat).map Blob.body else none

theorem body_natCast (t : BlobTable sha256) (id : Nat) :
    t.body id = (t.find? id).map Blob.body := by
  simp [body]

/-- A body comes from a row with this id. -/
theorem exists_of_body {t : BlobTable sha256} {id : Int} {item : Item}
    (h : t.body id = some item) : ∃ row ∈ t.rows, (row.id : Int) = id ∧ row.body = item := by
  unfold body at h
  split at h
  · next hid =>
    obtain ⟨row, hfind, hbody⟩ := Option.map_eq_some_iff.mp h
    obtain ⟨hmem, hkey⟩ := t.find?_eq_some_iff.mp hfind
    exact ⟨row, hmem, by omega, hbody⟩
  · exact absurd h (by simp)

theorem body_of_mem (t : BlobTable sha256) {row : Blob Digest} (hrow : row ∈ t.rows) :
    t.body row.id = some row.body := by
  rw [body_natCast, t.find?_eq_some_iff.mpr ⟨hrow, rfl⟩, Option.map_some]

/-- `t.Extends t'`: every body `t` finds, `t'` finds under the same id. -/
def Extends (t t' : BlobTable sha256) : Prop :=
  ∀ id item, t.body id = some item → t'.body id = some item

theorem Extends.refl (t : BlobTable sha256) : t.Extends t := fun _ _ h => h

theorem Extends.trans {t₁ t₂ t₃ : BlobTable sha256} (h₁ : t₁.Extends t₂) (h₂ : t₂.Extends t₃) :
    t₁.Extends t₃ := fun id item h => h₂ id item (h₁ id item h)

/-- `DELETE FROM evidence_profile_blobs`, keeping the rows whose id passes. -/
def deleteExcept (t : BlobTable sha256) (keep : Nat → Bool) : BlobTable sha256 :=
  ⟨t.toTable.filter fun row => keep row.id, t.digests_unique.filter _,
   fun row hrow => t.digest_eq row (mem_of_mem_filter hrow)⟩

/-- A blob that is kept stays where it was. -/
theorem body_deleteExcept (t : BlobTable sha256) (keep : Nat → Bool) {id : Int} {item : Item}
    (h : t.body id = some item) (hkeep : keep id.toNat = true) :
    (t.deleteExcept keep).body id = some item := by
  obtain ⟨row, hrow, rfl, rfl⟩ := exists_of_body h
  refine body_of_mem _ (mem_filter.mpr ⟨hrow, ?_⟩)
  simpa using hkeep

variable [DecidableEq Digest]

/-- `INSERT INTO evidence_profile_blobs ... ON CONFLICT(digest) DO UPDATE ... RETURNING id`: the
row that already has the item's digest, or a new row after the last one. -/
def insert (t : BlobTable sha256) (item : Item) : BlobTable sha256 × Nat :=
  match h : t.rows.find? fun row => row.digest = sha256 item with
  | some row => (t, row.id)
  | none =>
    (⟨t.toTable.append (fun id => ⟨id, sha256 item, item⟩) fun _ => rfl,
      pairwise_append.mpr ⟨t.digests_unique, .cons (by simp) .nil, fun a ha b hb => by
        rw [mem_singleton.mp hb]; simpa using find?_eq_none.mp h a ha⟩,
      fun row hrow => by
        rcases mem_append.mp hrow with hold | hnew
        · exact t.digest_eq row hold
        · rw [mem_singleton.mp hnew]⟩,
     t.maxKey + 1)

/-- `INSERT ... ON CONFLICT(digest)`: the row with this digest, or a new one with the next id. -/
theorem insert_cases (t : BlobTable sha256) (item : Item) :
    (∃ row ∈ t.rows, row.digest = sha256 item ∧ t.insert item = (t, row.id)) ∨
    ((∀ row ∈ t.rows, row.digest ≠ sha256 item) ∧ (t.insert item).2 = t.maxKey + 1 ∧
      (t.insert item).1.rows = t.rows ++ [⟨t.maxKey + 1, sha256 item, item⟩]) := by
  unfold insert
  split
  · grind
  · next hnone => exact .inr ⟨by simpa using hnone, rfl, rfl⟩

/-- An insert changes no row. -/
theorem extends_insert (t : BlobTable sha256) (item : Item) : t.Extends (t.insert item).1 := by
  intro id body h
  rcases t.insert_cases item with ⟨row, _, _, heq⟩ | ⟨_, _, hrows⟩
  · rw [heq]; exact h
  · grind [BlobTable.exists_of_body, BlobTable.insert, BlobTable.body_of_mem]

/-- **What an insert is for.** Under the id it returns the table holds the item, as long as the
digest tells items apart. -/
theorem body_insert (hsha : Function.Injective sha256) (t : BlobTable sha256) (item : Item) :
    (t.insert item).1.body (t.insert item).2 = some item := by
  rcases t.insert_cases item with ⟨row, hrow, hdigest, heq⟩ | ⟨_, hid, hrows⟩
  · grind [BlobTable.digest_eq, BlobTable.body_of_mem]
  · have hmem : (⟨t.maxKey + 1, sha256 item, item⟩ : Blob Digest) ∈ (t.insert item).1.rows := by
      rw [hrows]; simp
    rw [hid]
    exact body_of_mem _ hmem

def storeAll (t : BlobTable sha256) : List Item → BlobTable sha256 × List Nat
  | [] => (t, [])
  | item :: items =>
    let stored := t.insert item
    let rest := stored.1.storeAll items
    (rest.1, stored.2 :: rest.2)

theorem extends_storeAll (t : BlobTable sha256) (items : List Item) :
    t.Extends (t.storeAll items).1 := by
  induction items generalizing t with
  | nil => exact .refl t
  | cons item items ih => exact (t.extends_insert item).trans (ih _)

/-- Stored items are found under the ids returned for them. -/
theorem body_storeAll (hsha : Function.Injective sha256) (t : BlobTable sha256)
    (items : List Item) :
    (t.storeAll items).2.mapM (fun id : Nat => (t.storeAll items).1.body id) = some items := by
  induction items generalizing t with
  | nil => rfl
  | cons item items ih =>
    simp only [storeAll, mapM_cons]
    rw [extends_storeAll _ _ _ _ (body_insert hsha t item), ih]
    rfl

theorem storeAll_length (t : BlobTable sha256) (items : List Item) :
    (t.storeAll items).2.length = items.length := by
  induction items generalizing t with
  | nil => rfl
  | cons item items ih => simp only [storeAll, length_cons, ih]

end BlobTable

end LitestreamSoak.Store
