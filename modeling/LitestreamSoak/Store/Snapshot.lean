import LitestreamSoak.Store.Blobs

/-!
# Store — compacting and expanding a profile snapshot

`compactProfileSnapshot` and `expandProfileSnapshot` of `internal/model/profile_blobs.go`, one
array at a time as the code's loops go over `profileSnapshotArrays`, and what they make of each
other:

A reader's `view` is the JSON value of the expanded text. The in-process blob cache does not
appear: as long as its entries agree with the table a hit returns what the `INSERT` would.
-/

namespace LitestreamSoak.Store

open Lib List

/-! ## §1 — the code -/

/-- A member that holds an array, and the member that holds its references. -/
structure ArraySpec where
  field : Field
  refs : Field
deriving DecidableEq, Repr

def incidentArrays : ArraySpec := ⟨.profileIncidents, .profileIncidentBlobs⟩

def recordArrays : ArraySpec := ⟨.profileRecords, .profileRecordBlobs⟩

def profileSnapshotArrays : List ArraySpec := [incidentArrays, recordArrays]

/-- `hasProfileSnapshotArrays`: the text mentions an array field, quoted, anywhere. -/
def hasProfileSnapshotArrays : Doc → Bool
  | .text _ => false
  | .object _ marks => profileSnapshotArrays.any fun spec => .quoted spec.field ∈ marks

/-- `hasProfileSnapshotRefs`: the text mentions a reference field, quoted, anywhere. -/
def hasProfileSnapshotRefs : Doc → Bool
  | .text _ => false
  | .object _ marks => profileSnapshotArrays.any fun spec => .quoted spec.refs ∈ marks

/-- The elements compaction moves out of one array field: none when the field is absent, is no
array, or is empty. -/
def arrayItems (fields : Fields) (spec : ArraySpec) : List Item :=
  ((fields.lookup spec.field).bind RawMessage.decodeItems).getD []

/-- Compaction's first loop: every reference member is deleted. -/
def stripRefs (fields : Fields) : Fields :=
  profileSnapshotArrays.foldl (fun fields spec => fields.erase spec.refs) fields

section

variable {Digest : Type} [DecidableEq Digest] {sha256 : Item → Digest}

/-- One round of the loop: the items go to the blob table, their ids into the text. -/
def compactArray (t : BlobTable sha256) (fields : Fields) (spec : ArraySpec) :
    BlobTable sha256 × Fields :=
  match arrayItems fields spec with
  | [] => (t, fields)
  | items =>
    let stored := t.storeAll items
    (stored.1, (fields.erase spec.field).insert spec.refs (marshalIDs stored.2))

def compactArrays (t : BlobTable sha256) (fields : Fields) : BlobTable sha256 × Fields :=
  profileSnapshotArrays.foldl (fun acc spec => compactArray acc.1 acc.2 spec) (t, fields)

def compactProfileSnapshot (t : BlobTable sha256) (raw : Doc) : BlobTable sha256 × Doc :=
  if !hasProfileSnapshotArrays raw && !hasProfileSnapshotRefs raw then (t, raw)
  else match raw with
    | .text _ => (t, raw)
    | .object fields _ =>
      -- `changed` of the source: a reference member is deleted or an array is moved
      if profileSnapshotArrays.any fun spec =>
          decide (spec.refs ∈ fields) || decide (arrayItems fields spec ≠ []) then
        let compact := compactArrays t (stripRefs fields)
        (compact.1, marshalFields compact.2)
      else (t, raw)

end

inductive ExpandError where
  | decode (refs : Field)
  | missing (id : Int)
deriving DecidableEq, Repr

def ExpandError.message : ExpandError → String
  | .decode refs => "decode " ++ refs.name ++ ": "
  | .missing id => "profile blob " ++ toString id ++ " is missing"

section

variable {Digest : Type} {sha256 : Item → Digest}

/-- `loadProfileBlobs`; the error names the first id without a row. -/
def loadProfileBlobs (t : BlobTable sha256) (ids : List Int) : Except ExpandError (List Item) :=
  ids.mapM fun id =>
    match t.body id with
    | some item => .ok item
    | none => .error (.missing id)

def expandArray (t : BlobTable sha256) (fields : Fields) (spec : ArraySpec) :
    Except ExpandError Fields :=
  match fields.lookup spec.refs with
  | none => .ok fields
  | some encoded =>
    match encoded.decodeIDs with
    | none => .error (.decode spec.refs)
    | some ids =>
      match loadProfileBlobs t ids with
      | .error e => .error e
      | .ok items => .ok ((fields.erase spec.refs).insert spec.field (.array items))

def expandArrays (t : BlobTable sha256) (fields : Fields) : Except ExpandError Fields :=
  profileSnapshotArrays.foldlM (expandArray t) fields

def expandProfileSnapshot (t : BlobTable sha256) (raw : Doc) : Except ExpandError Doc :=
  if !hasProfileSnapshotRefs raw then .ok raw
  else match raw with
    | .text _ => .ok raw
    | .object fields _ => (expandArrays t fields).map marshalFields

def view (t : BlobTable sha256) (raw : Doc) : Except ExpandError JsonValue :=
  (expandProfileSnapshot t raw).map Doc.value

/-- The ids the sweep finds in a text. -/
def referencedIDs : Doc → List Int
  | .text _ => []
  | .object fields marks =>
    if hasProfileSnapshotRefs (.object fields marks) || decide (Mark.otherBlobs ∈ marks) then
      profileSnapshotArrays.flatMap fun spec =>
        ((fields.lookup spec.refs).bind RawMessage.decodeIDs).getD []
    else []

end

/-! ## §2 — the two forms of a stored text -/

/-- A text in reference form, as compaction sees it: it passes the textual test and has a
reference member. -/
def carriesRefs : Doc → Bool
  | .text _ => false
  | .object fields marks =>
    (hasProfileSnapshotArrays (.object fields marks) ||
      hasProfileSnapshotRefs (.object fields marks)) &&
    profileSnapshotArrays.any fun spec => decide (spec.refs ∈ fields)

section

variable {Digest : Type} {sha256 : Item → Digest} {raw : Doc} {t t' : BlobTable sha256}

/-- The references of one member: a non-empty array of ids that all have a row, in place of the
array field. -/
structure MemberOK (t : BlobTable sha256) (fields : Fields) (spec : ArraySpec) : Prop where
  field_absent : spec.field ∉ fields
  ids : ∃ ids : List Nat, ids ≠ [] ∧ fields.lookup spec.refs = some (marshalIDs ids) ∧
    ∀ id ∈ ids, (t.body (id : Nat)).isSome

/-- **No dangling reference.** A stored text in reference form passes expansion's textual test,
and each of its reference members is in order. -/
def RefsOK (t : BlobTable sha256) : Doc → Prop
  | .text _ => True
  | .object fields marks =>
    carriesRefs (.object fields marks) = true →
      hasProfileSnapshotRefs (.object fields marks) = true ∧
      ∀ spec ∈ profileSnapshotArrays, spec.refs ∈ fields → MemberOK t fields spec

/-- A text in inline form has no reference to dangle. -/
theorem refsOK_of_not_carriesRefs (t : BlobTable sha256)
    (h : carriesRefs raw = false) : RefsOK t raw := by
  cases raw with
  | text raw => exact trivial
  | object fields marks => intro hcarries; rw [h] at hcarries; cases hcarries

/-- References stay intact while no blob they name is lost. -/
theorem RefsOK.mono (h : RefsOK t raw)
    (hkeep : ∀ id ∈ referencedIDs raw, (t.body id).isSome → (t'.body id).isSome) :
    RefsOK t' raw := by
  cases raw with
  | text raw => exact trivial
  | object fields marks =>
    intro hcarries
    obtain ⟨hrefs, hmembers⟩ := h hcarries
    refine ⟨hrefs, fun spec hspec hmem => ?_⟩
    obtain ⟨habsent, ids, hne, hlookup, hbodies⟩ := hmembers spec hspec hmem
    refine ⟨habsent, ids, hne, hlookup, fun id hid => hkeep id ?_ (hbodies id hid)⟩
    simp only [referencedIDs, hrefs, Bool.true_or, if_true]
    refine mem_flatMap.mpr ⟨spec, hspec, ?_⟩
    rw [hlookup, Option.bind_some, decodeIDs_marshalIDs, Option.getD_some]
    exact mem_map.mpr ⟨id, hid, rfl⟩

theorem RefsOK.extends (h : RefsOK t raw)
    (hext : t.Extends t') : RefsOK t' raw :=
  h.mono fun id _ hsome => by
    obtain ⟨item, hitem⟩ := Option.isSome_iff_exists.mp hsome
    rw [hext id item hitem]
    rfl

/-! ## §3 — one array -/

variable {ids : List Nat} {items : List Item} {spec : ArraySpec} {fields fields' : Fields}
  {k : Field}

theorem mapM_cons_eq_some {α β : Type} {f : α → Option β} {a : α} {as : List α} {bs : List β} :
    (a :: as).mapM f = some bs ↔
      ∃ b rest, f a = some b ∧ as.mapM f = some rest ∧ b :: rest = bs := by
  rw [mapM_cons]
  constructor
  · intro h
    obtain ⟨b, hb, h⟩ := Option.bind_eq_some_iff.mp h
    obtain ⟨rest, hrest, h⟩ := Option.bind_eq_some_iff.mp h
    exact ⟨b, rest, hb, hrest, Option.some.inj h⟩
  · rintro ⟨b, rest, hb, hrest, rfl⟩
    rw [hb, hrest]
    rfl

/-- Ids that have bodies are loaded in order. -/
theorem loadProfileBlobs_eq_ok
    (h : ids.mapM (fun id : Nat => t.body id) = some items) :
    loadProfileBlobs t (ids.map fun id : Nat => (id : Int)) = .ok items := by
  induction ids generalizing items with
  | nil =>
    obtain rfl : [] = items := by simpa using h
    rfl
  | cons id ids ih =>
    obtain ⟨item, rest, hitem, hloaded, rfl⟩ := mapM_cons_eq_some.mp h
    have htail := ih hloaded
    unfold loadProfileBlobs at htail ⊢
    rw [map_cons, mapM_cons, htail, hitem]
    rfl

theorem expandArray_of_not_mem (t : BlobTable sha256)
    (h : spec.refs ∉ fields) : expandArray t fields spec = .ok fields := by
  rw [expandArray, Finmap.lookup_eq_none.mpr h]

/-- A reference member is replaced by the array it stands for. -/
theorem expandArray_of_ids (hlookup : fields.lookup spec.refs = some (marshalIDs ids))
    (hbodies : ids.mapM (fun id : Nat => t.body id) = some items) :
    expandArray t fields spec = .ok ((fields.erase spec.refs).insert spec.field
      (.array items)) := by
  rw [expandArray, hlookup]
  simp only [decodeIDs_marshalIDs, loadProfileBlobs_eq_ok hbodies]

theorem lookup_of_arrayItems_ne_nil
    (h : arrayItems fields spec ≠ []) :
    fields.lookup spec.field = some (.array (arrayItems fields spec)) := by
  unfold arrayItems at h ⊢
  cases hlookup : fields.lookup spec.field with
  | none => rw [hlookup] at h; exact absurd rfl h
  | some m =>
    rw [hlookup] at h
    cases m with
    | null => exact absurd rfl h
    | array items => rfl
    | text raw marks => exact absurd rfl h

variable [DecidableEq Digest]

theorem compactArray_nil (t : BlobTable sha256)
    (h : arrayItems fields spec = []) : compactArray t fields spec = (t, fields) := by
  simp only [compactArray, h]

/-- A non-empty array is replaced by the ids of its items. -/
theorem compactArray_cons (hsha : Function.Injective sha256) (t : BlobTable sha256)
    (h : arrayItems fields spec ≠ []) :
    ∃ ids : List Nat, ids ≠ [] ∧
      (compactArray t fields spec).2 =
        (fields.erase spec.field).insert spec.refs (marshalIDs ids) ∧
      ids.mapM (fun id : Nat => (compactArray t fields spec).1.body id) =
        some (arrayItems fields spec) := by
  have hlength := t.storeAll_length (arrayItems fields spec)
  have hbodies := t.body_storeAll hsha (arrayItems fields spec)
  unfold compactArray
  split
  · next hnil => exact absurd hnil h
  · grind

/-- Compaction only adds blobs. -/
theorem extends_compactArray (t : BlobTable sha256) (fields : Fields) (spec : ArraySpec) :
    t.Extends (compactArray t fields spec).1 := by
  unfold compactArray
  split
  · exact .refl t
  · exact t.extends_storeAll _

/-- How an array field of `fields` stands in `fields'` after compaction: as it was when it had no
elements, and otherwise as ids that find its elements. -/
inductive Moved (t : BlobTable sha256) (fields fields' : Fields) (spec : ArraySpec) : Prop where
  | kept (hnil : arrayItems fields spec = [])
      (hfield : fields'.lookup spec.field = fields.lookup spec.field)
      (hrefs : fields'.lookup spec.refs = none)
  | moved (ids : List Nat) (hids : ids ≠ []) (hne : arrayItems fields spec ≠ [])
      (hfield : fields'.lookup spec.field = none)
      (hrefs : fields'.lookup spec.refs = some (marshalIDs ids))
      (hbodies : ids.mapM (fun id : Nat => t.body id) = some (arrayItems fields spec))

omit [DecidableEq Digest] in
theorem bodies_extends (hext : t.Extends t')
    (h : ids.mapM (fun id : Nat => t.body id) = some items) :
    ids.mapM (fun id : Nat => t'.body id) = some items := by
  induction ids generalizing items with
  | nil => exact h
  | cons id ids ih =>
    obtain ⟨item, rest, hitem, hloaded, hitems⟩ := mapM_cons_eq_some.mp h
    exact mapM_cons_eq_some.mpr ⟨item, rest, hext _ _ hitem, ih hloaded, hitems⟩

omit [DecidableEq Digest] in
theorem exists_bodies
    (h : ∀ id ∈ ids, (t.body (id : Nat)).isSome) :
    ∃ items, ids.mapM (fun id : Nat => t.body id) = some items := by
  induction ids with
  | nil => exact ⟨[], rfl⟩
  | cons id ids ih =>
    obtain ⟨item, hitem⟩ := Option.isSome_iff_exists.mp (h id (by simp))
    obtain ⟨items, hitems⟩ := ih fun id' hid' => h id' (by simp [hid'])
    exact ⟨item :: items, mapM_cons_eq_some.mpr ⟨item, items, hitem, hitems, rfl⟩⟩

omit [DecidableEq Digest] in
theorem bodies_isSome
    (h : ids.mapM (fun id : Nat => t.body id) = some items) :
    ∀ id ∈ ids, (t.body (id : Nat)).isSome := by
  induction ids generalizing items with
  | nil => simp
  | cons id ids ih =>
    obtain ⟨item, rest, hitem, hloaded, _⟩ := mapM_cons_eq_some.mp h
    intro id' hid'
    rcases mem_cons.mp hid' with rfl | htail
    · rw [hitem]; rfl
    · exact ih hloaded id' htail

omit [DecidableEq Digest] in
/-- What is said of one member does not depend on the others. -/
theorem Moved.frame {fields'' : Fields} (h : Moved t fields fields' spec) (hext : t.Extends t')
    (hfield : fields''.lookup spec.field = fields'.lookup spec.field)
    (hrefs : fields''.lookup spec.refs = fields'.lookup spec.refs) :
    Moved t' fields fields'' spec := by
  cases h with
  | kept hnil hf hr => exact .kept hnil (hfield.trans hf) (hrefs.trans hr)
  | moved ids hids hne hf hr hbodies =>
    exact .moved ids hids hne (hfield.trans hf) (hrefs.trans hr) (bodies_extends hext hbodies)

/-- Compaction moves its own array. -/
theorem moved_compactArray (hsha : Function.Injective sha256) (t : BlobTable sha256)
    (hkeys : spec.field ≠ spec.refs) (hrefs : fields.lookup spec.refs = none) :
    Moved (compactArray t fields spec).1 fields (compactArray t fields spec).2 spec := by
  by_cases hnil : arrayItems fields spec = []
  · rw [compactArray_nil t hnil]
    exact .kept hnil rfl hrefs
  · obtain ⟨ids, hids, hfields, hbodies⟩ := compactArray_cons hsha t hnil
    refine .moved ids hids hnil ?_ ?_ hbodies
    · rw [hfields, Finmap.lookup_insert_of_ne _ hkeys, Finmap.lookup_erase]
    · rw [hfields, Finmap.lookup_insert]

/-- Compaction of one array leaves the other members alone. -/
theorem lookup_compactArray_ne (t : BlobTable sha256) (fields : Fields) (hfield : k ≠ spec.field)
    (hrefs : k ≠ spec.refs) : (compactArray t fields spec).2.lookup k = fields.lookup k := by
  unfold compactArray
  split
  · rfl
  · rw [Finmap.lookup_insert_of_ne _ hrefs, Finmap.lookup_erase_ne hfield]

omit [DecidableEq Digest] in
/-- Expansion brings a moved array back. -/
theorem expandArray_moved
    (hkeys : spec.field ≠ spec.refs) (h : Moved t fields fields' spec) :
    ∃ fields'', expandArray t fields' spec = .ok fields'' ∧
      fields''.lookup spec.field = fields.lookup spec.field ∧
      fields''.lookup spec.refs = none ∧
      ∀ k, k ≠ spec.field → k ≠ spec.refs → fields''.lookup k = fields'.lookup k := by
  cases h with
  | kept hnil hfield hrefs => grind [expandArray]
  | moved ids hids hne hfield hrefs hbodies =>
    refine ⟨_, expandArray_of_ids hrefs hbodies, ?_, ?_, fun k hk hk' => ?_⟩
    · rw [Finmap.lookup_insert, lookup_of_arrayItems_ne_nil hne]
    · rw [Finmap.lookup_insert_of_ne _ hkeys.symm, Finmap.lookup_erase]
    · rw [Finmap.lookup_insert_of_ne _ hk, Finmap.lookup_erase_ne hk']

/-! ## §4 — both arrays -/

theorem mem_profileSnapshotArrays :
    spec ∈ profileSnapshotArrays ↔ spec = incidentArrays ∨ spec = recordArrays := by
  simp [profileSnapshotArrays]

theorem compactArrays_eq (t : BlobTable sha256) (fields : Fields) :
    compactArrays t fields =
      compactArray (compactArray t fields incidentArrays).1
        (compactArray t fields incidentArrays).2 recordArrays := rfl

omit [DecidableEq Digest] in
theorem expandArrays_eq (t : BlobTable sha256) (fields : Fields) :
    expandArrays t fields =
      (expandArray t fields incidentArrays).bind fun incidents =>
        (expandArray t incidents recordArrays).bind .ok := rfl

theorem extends_compactArrays (t : BlobTable sha256) (fields : Fields) :
    t.Extends (compactArrays t fields).1 := by
  rw [compactArrays_eq]
  exact (extends_compactArray t fields incidentArrays).trans (extends_compactArray _ _ _)

/-- No reference member is left. -/
theorem lookup_stripRefs_refs (fields : Fields)
    (hspec : spec ∈ profileSnapshotArrays) : (stripRefs fields).lookup spec.refs = none := by
  rcases mem_profileSnapshotArrays.mp hspec with rfl | rfl
  · show ((fields.erase incidentArrays.refs).erase recordArrays.refs).lookup _ = none
    rw [Finmap.lookup_erase_ne (by decide), Finmap.lookup_erase]
  · exact Finmap.lookup_erase _ _

theorem lookup_stripRefs_ne (fields : Fields)
    (h : ∀ spec ∈ profileSnapshotArrays, k ≠ spec.refs) :
    (stripRefs fields).lookup k = fields.lookup k := by
  show ((fields.erase incidentArrays.refs).erase recordArrays.refs).lookup k = _
  rw [Finmap.lookup_erase_ne (h recordArrays (by decide)),
    Finmap.lookup_erase_ne (h incidentArrays (by decide))]

/-- Without reference members nothing is stripped. -/
theorem stripRefs_eq_self
    (h : ∀ spec ∈ profileSnapshotArrays, spec.refs ∉ fields) : stripRefs fields = fields := by
  refine Finmap.ext_lookup fun k => ?_
  by_cases hk : ∃ spec ∈ profileSnapshotArrays, k = spec.refs
  · obtain ⟨spec, hspec, rfl⟩ := hk
    rw [lookup_stripRefs_refs fields hspec, Finmap.lookup_eq_none.mpr (h spec hspec)]
  · exact lookup_stripRefs_ne fields fun spec hspec hk' => hk ⟨spec, hspec, hk'⟩

/-- Both arrays are moved, since their members differ. -/
theorem moved_compactArrays (hsha : Function.Injective sha256) (t : BlobTable sha256)
    (hrefs : ∀ spec ∈ profileSnapshotArrays, fields.lookup spec.refs = none)
    (hspec : spec ∈ profileSnapshotArrays) :
    Moved (compactArrays t fields).1 fields (compactArrays t fields).2 spec := by
  rw [compactArrays_eq]
  rcases mem_profileSnapshotArrays.mp hspec with rfl | rfl
  · -- the incidents are moved first, and moving the records does not touch them
    exact (moved_compactArray hsha t (by decide) (hrefs _ hspec)).frame
      (extends_compactArray _ _ _) (lookup_compactArray_ne _ _ (by decide) (by decide))
      (lookup_compactArray_ne _ _ (by decide) (by decide))
  · -- the records are moved out of the map the incidents have left
    have hfield : (compactArray t fields incidentArrays).2.lookup recordArrays.field =
        fields.lookup recordArrays.field := lookup_compactArray_ne t fields (by decide) (by decide)
    have hlookup : (compactArray t fields incidentArrays).2.lookup recordArrays.refs =
        fields.lookup recordArrays.refs := lookup_compactArray_ne t fields (by decide) (by decide)
    have hitems : arrayItems (compactArray t fields incidentArrays).2 recordArrays =
        arrayItems fields recordArrays := by
      rw [arrayItems, hfield, arrayItems]
    cases moved_compactArray hsha (compactArray t fields incidentArrays).1 (by decide)
      (hlookup.trans (hrefs _ hspec)) with
    | kept hnil hf hr => exact .kept (hitems ▸ hnil) (hf.trans hfield) hr
    | moved ids hids hne hf hr hbodies =>
      exact .moved ids hids (hitems ▸ hne) hf hr (hitems ▸ hbodies)

theorem lookup_compactArrays_ne (t : BlobTable sha256) (fields : Fields)
    (hk : ∀ spec ∈ profileSnapshotArrays, k ≠ spec.field ∧ k ≠ spec.refs) :
    (compactArrays t fields).2.lookup k = fields.lookup k := by
  rw [compactArrays_eq, lookup_compactArray_ne _ _ (hk recordArrays (by decide)).1
    (hk recordArrays (by decide)).2, lookup_compactArray_ne _ _ (hk incidentArrays (by decide)).1
    (hk incidentArrays (by decide)).2]

/-- **The round trip.** Expanding what compaction made of a map without reference members gives
the map back, in any table that still has the rows. -/
theorem expandArrays_compactArrays (hsha : Function.Injective sha256)
    (hrefs : ∀ spec ∈ profileSnapshotArrays, fields.lookup spec.refs = none)
    (hext : (compactArrays t fields).1.Extends t') :
    expandArrays t' (compactArrays t fields).2 = .ok fields := by
  have hincidents : Moved t' fields (compactArrays t fields).2 incidentArrays :=
    (moved_compactArrays hsha t hrefs (by decide)).frame hext rfl rfl
  obtain ⟨first, hfirst, hfield₁, hrefs₁, hframe₁⟩ := expandArray_moved (by decide) hincidents
  have hrecords : Moved t' fields first recordArrays :=
    (moved_compactArrays hsha t hrefs (by decide)).frame hext
      (hframe₁ _ (by decide) (by decide)) (hframe₁ _ (by decide) (by decide))
  obtain ⟨second, hsecond, hfield₂, hrefs₂, hframe₂⟩ := expandArray_moved (by decide) hrecords
  rw [expandArrays_eq, hfirst]
  show (expandArray t' first recordArrays).bind .ok = .ok fields
  rw [hsecond]
  show Except.ok second = .ok fields
  congr 1
  refine Finmap.ext_lookup fun k => ?_
  by_cases h₂ : k = recordArrays.field
  · rw [h₂, hfield₂]
  by_cases h₂' : k = recordArrays.refs
  · rw [h₂', hrefs₂, hrefs recordArrays (by decide)]
  rw [hframe₂ k h₂ h₂']
  by_cases h₁ : k = incidentArrays.field
  · rw [h₁, hfield₁]
  by_cases h₁' : k = incidentArrays.refs
  · rw [h₁', hrefs₁, hrefs incidentArrays (by decide)]
  rw [hframe₁ k h₁ h₁']
  refine lookup_compactArrays_ne t fields fun spec hspec => ?_
  rcases mem_profileSnapshotArrays.mp hspec with rfl | rfl
  · exact ⟨h₁, h₁'⟩
  · exact ⟨h₂, h₂'⟩

/-! ## §5 — whole texts -/

omit [DecidableEq Digest] in
/-- A text without references is its own expansion. -/
theorem expandArrays_of_no_refs (t : BlobTable sha256)
    (h : ∀ spec ∈ profileSnapshotArrays, spec.refs ∉ fields) :
    expandArrays t fields = .ok fields := by
  rw [expandArrays_eq, expandArray_of_not_mem t (h incidentArrays (by decide))]
  show (expandArray t fields recordArrays).bind .ok = .ok fields
  rw [expandArray_of_not_mem t (h recordArrays (by decide))]
  rfl

/-- A marshalled map shows the name of each of its members. -/
theorem mem_marks_marshalFields (h : k ∈ fields) :
    ∃ marks, marshalFields fields = .object fields marks ∧ .quoted k ∈ marks := by
  refine ⟨_, rfl, Finset.mem_union_left _ (Finset.mem_biUnion.mpr ⟨k, Finmap.mem_keys.mpr h, ?_⟩)⟩
  exact k.quoted_mem_marks

theorem hasProfileSnapshotRefs_marshalFields
    (hspec : spec ∈ profileSnapshotArrays) (h : spec.refs ∈ fields) :
    hasProfileSnapshotRefs (marshalFields fields) = true := by
  grind [mem_marks_marshalFields, hasProfileSnapshotRefs]

omit [DecidableEq Digest] in
/-- What a reader sees of a text that compaction wrote. -/
theorem view_marshalFields (t : BlobTable sha256) (fields : Fields) :
    view t (marshalFields fields) = (expandArrays t fields).map .object := by
  by_cases h : ∃ spec ∈ profileSnapshotArrays, spec.refs ∈ fields
  · obtain ⟨spec, hspec, hmem⟩ := h
    have hrefs := hasProfileSnapshotRefs_marshalFields hspec hmem
    simp only [view, expandProfileSnapshot, hrefs, Bool.not_true, Bool.false_eq_true, if_false]
    simp only [marshalFields]
    cases expandArrays t fields <;> rfl
  · have hno : ∀ spec ∈ profileSnapshotArrays, spec.refs ∉ fields :=
      fun spec hspec hmem => h ⟨spec, hspec, hmem⟩
    rw [expandArrays_of_no_refs t hno]
    simp only [view, expandProfileSnapshot]
    split
    · rfl
    · simp only [marshalFields, expandArrays_of_no_refs t hno]
      rfl

omit [DecidableEq Digest] in
/-- A reader sees a text in inline form as it is. -/
theorem view_of_not_carriesRefs (t : BlobTable sha256) (h : carriesRefs raw = false) :
    view t raw = .ok raw.value := by
  cases raw with
  | text raw => rfl
  | object fields marks =>
    unfold view expandProfileSnapshot
    split
    · rfl
    · next hrefs =>
      -- the test for references passes, so no reference member is there
      have hrefs : hasProfileSnapshotRefs (.object fields marks) = true := by simpa using hrefs
      have hno : ∀ spec ∈ profileSnapshotArrays, spec.refs ∉ fields := by
        simpa [carriesRefs, hrefs] using h
      simp only [expandArrays_of_no_refs t hno]
      rfl

/-- A text is left alone, or its references are stripped and its arrays moved. -/
theorem compactProfileSnapshot_cases (t : BlobTable sha256) (raw : Doc) :
    (compactProfileSnapshot t raw = (t, raw) ∧ carriesRefs raw = false) ∨
    ∃ fields marks, raw = .object fields marks ∧
      (hasProfileSnapshotArrays raw || hasProfileSnapshotRefs raw) = true ∧
      compactProfileSnapshot t raw =
        ((compactArrays t (stripRefs fields)).1,
          marshalFields (compactArrays t (stripRefs fields)).2) := by
  cases raw with
  | text raw => exact .inl ⟨by simp [compactProfileSnapshot], rfl⟩
  | object fields marks =>
    unfold compactProfileSnapshot
    split
    -- where nothing is marked or nothing has changed the document stays as it is
    · grind [carriesRefs]
    · grind [carriesRefs]

theorem extends_compactProfileSnapshot (t : BlobTable sha256) (raw : Doc) :
    t.Extends (compactProfileSnapshot t raw).1 := by
  grind [compactProfileSnapshot_cases, extends_compactArrays, BlobTable.Extends]

/-- **What readers see of a compacted map**: the map without its reference members. -/
theorem view_compacted (hsha : Function.Injective sha256)
    (fields : Fields) (hext : (compactArrays t (stripRefs fields)).1.Extends t') :
    view t' (marshalFields (compactArrays t (stripRefs fields)).2) =
      .ok (.object (stripRefs fields)) := by
  rw [view_marshalFields, expandArrays_compactArrays hsha
    (fun spec hspec => lookup_stripRefs_refs fields hspec) hext]
  rfl

/-- **Inline form.** A text that is not in reference form reads the same after compaction, in any
table that has the rows compaction left. -/
theorem view_compactProfileSnapshot (hsha : Function.Injective sha256)
    (h : carriesRefs raw = false) (hext : (compactProfileSnapshot t raw).1.Extends t') :
    view t' (compactProfileSnapshot t raw).2 = view t raw := by
  rw [view_of_not_carriesRefs t h]
  rcases compactProfileSnapshot_cases t raw with ⟨heq, _⟩ | ⟨fields, marks, rfl, hmark, heq⟩
  · rw [heq]; exact view_of_not_carriesRefs t' h
  · grind [carriesRefs, view_compacted, stripRefs_eq_self, Doc.value]

/-- Whatever compaction returns refers to rows that exist. -/
theorem refsOK_compactProfileSnapshot (hsha : Function.Injective sha256) (t : BlobTable sha256)
    (raw : Doc) : RefsOK (compactProfileSnapshot t raw).1 (compactProfileSnapshot t raw).2 := by
  rcases compactProfileSnapshot_cases t raw with ⟨heq, hinline⟩ | ⟨fields, marks, _, _, heq⟩
  · rw [heq]; exact refsOK_of_not_carriesRefs t hinline
  · rw [heq]
    intro hcarries
    obtain ⟨spec, hspec, hmem⟩ := any_eq_true.mp (Bool.and_eq_true_iff.mp hcarries).2
    refine ⟨hasProfileSnapshotRefs_marshalFields hspec (of_decide_eq_true hmem), ?_⟩
    intro spec hspec hmem
    cases moved_compactArrays hsha t (fun spec hspec =>
      lookup_stripRefs_refs fields hspec) hspec with
    | kept hnil hfield hrefs => exact absurd hmem (Finmap.lookup_eq_none.mp hrefs)
    | moved ids hids hne hfield hrefs hbodies =>
      exact ⟨Finmap.lookup_eq_none.mp hfield, ids, hids, hrefs, bodies_isSome hbodies⟩

/-! ## §6 — reading a text in reference form -/

omit [DecidableEq Digest] in
/-- A member that can be expanded is, and alike in every larger blob table. -/
theorem expandArray_memberOK
    (h : spec.refs ∈ fields → MemberOK t fields spec) :
    ∃ fields', (∀ t', t.Extends t' → expandArray t' fields spec = .ok fields') ∧
      (spec.refs ∈ fields → spec.field ∈ fields') ∧
      ∀ k, k ≠ spec.field → k ≠ spec.refs → fields'.lookup k = fields.lookup k := by
  by_cases hmem : spec.refs ∈ fields
  · obtain ⟨_, ids, _, hlookup, hbodies⟩ := h hmem
    obtain ⟨items, hitems⟩ := exists_bodies hbodies
    refine ⟨(fields.erase spec.refs).insert spec.field (.array items), ?_, ?_, ?_⟩
    · intro t' hext
      exact expandArray_of_ids hlookup (bodies_extends hext hitems)
    · intro _
      exact Finmap.mem_insert.mpr (.inl rfl)
    · intro k hk hk'
      rw [Finmap.lookup_insert_of_ne _ hk, Finmap.lookup_erase_ne hk']
  · exact ⟨fields, fun t' _ => expandArray_of_not_mem t' hmem, fun h => absurd h hmem,
      fun _ _ _ => rfl⟩

omit [DecidableEq Digest] in
theorem MemberOK.frame
    (h : MemberOK t fields spec) (hfield : fields'.lookup spec.field = fields.lookup spec.field)
    (hrefs : fields'.lookup spec.refs = fields.lookup spec.refs) : MemberOK t fields' spec := by
  obtain ⟨habsent, ids, hids, hlookup, hbodies⟩ := h
  refine ⟨?_, ids, hids, hrefs.trans hlookup, hbodies⟩
  rw [← Finmap.lookup_eq_none, hfield]
  exact Finmap.lookup_eq_none.mpr habsent

omit [DecidableEq Digest] in
/-- The same for both members. -/
theorem expandArrays_memberOK
    (h : ∀ spec ∈ profileSnapshotArrays, spec.refs ∈ fields → MemberOK t fields spec) :
    ∃ fields', (∀ t', t.Extends t' → expandArrays t' fields = .ok fields') ∧
      ∀ spec ∈ profileSnapshotArrays, spec.refs ∈ fields → spec.field ∈ fields' := by
  obtain ⟨first, hfirst, hfield₁, hframe₁⟩ :=
    expandArray_memberOK (h incidentArrays (by decide))
  have hrefs₁ : first.lookup recordArrays.refs = fields.lookup recordArrays.refs :=
    hframe₁ _ (by decide) (by decide)
  have hrecords : recordArrays.refs ∈ first → MemberOK t first recordArrays := by
    intro hmem
    have hmem' : recordArrays.refs ∈ fields := by
      rw [← Finmap.lookup_isSome, ← hrefs₁, Finmap.lookup_isSome]; exact hmem
    exact (h recordArrays (by decide) hmem').frame (hframe₁ _ (by decide) (by decide)) hrefs₁
  obtain ⟨second, hsecond, hfield₂, hframe₂⟩ := expandArray_memberOK hrecords
  refine ⟨second, fun t' hext => ?_, fun spec hspec hmem => ?_⟩
  · rw [expandArrays_eq, hfirst t' hext]
    show (expandArray t' first recordArrays).bind .ok = .ok second
    rw [hsecond t' hext]
    rfl
  · rcases mem_profileSnapshotArrays.mp hspec with rfl | rfl
    · rw [← Finmap.lookup_isSome, hframe₂ _ (by decide) (by decide), Finmap.lookup_isSome]
      exact hfield₁ hmem
    · grind [Finmap.lookup_isSome]

omit [DecidableEq Digest] in
/-- A larger blob table changes no view of a text whose references exist. -/
theorem view_extends (hok : RefsOK t raw) (hext : t.Extends t') : view t' raw = view t raw := by
  cases hcarries : carriesRefs raw with
  | false => rw [view_of_not_carriesRefs t hcarries, view_of_not_carriesRefs t' hcarries]
  | true =>
    cases raw with
    | text raw => cases hcarries
    | object fields marks =>
      obtain ⟨hrefs, hmembers⟩ := hok hcarries
      obtain ⟨fields', hexpand, _⟩ := expandArrays_memberOK hmembers
      simp only [view, expandProfileSnapshot, hrefs, hexpand t' hext, hexpand t (.refl t)]

/-- **Reference form.** A well-formed text in reference form reads differently after compaction:
the arrays its references stood for are gone. -/
theorem view_compactProfileSnapshot_ne (hsha : Function.Injective sha256) (hok : RefsOK t raw)
    (hcarries : carriesRefs raw = true) (hext : (compactProfileSnapshot t raw).1.Extends t') :
    view t' (compactProfileSnapshot t raw).2 ≠ view t raw := by
  rcases compactProfileSnapshot_cases t raw with ⟨_, hinline⟩ | ⟨fields, marks, rfl, hmark, heq⟩
  · rw [hinline] at hcarries; cases hcarries
  obtain ⟨hrefs, hmembers⟩ := hok hcarries
  obtain ⟨spec, hspec, hmem⟩ := any_eq_true.mp (Bool.and_eq_true_iff.mp hcarries).2
  have hmem : spec.refs ∈ fields := of_decide_eq_true hmem
  obtain ⟨expanded, hexpand, hfields⟩ := expandArrays_memberOK hmembers
  have hbefore : view t (.object fields marks) = .ok (.object expanded) := by
    simp only [view, expandProfileSnapshot, hrefs, hexpand t (.refl t)]
    rfl
  rw [heq] at hext ⊢
  rw [view_compacted hsha fields hext, hbefore]
  intro hsame
  -- the expanded map has the array field, the map without references never had it
  have hmaps : stripRefs fields = expanded := by simpa using hsame
  have hin : spec.field ∈ stripRefs fields := hmaps ▸ hfields spec hspec hmem
  have hne : ∀ other ∈ profileSnapshotArrays, spec.field ≠ other.refs := by
    intro other hother
    rcases mem_profileSnapshotArrays.mp hspec with rfl | rfl <;>
      rcases mem_profileSnapshotArrays.mp hother with rfl | rfl <;> decide
  rw [← Finmap.lookup_isSome, lookup_stripRefs_ne fields hne, Finmap.lookup_isSome] at hin
  exact (hmembers spec hspec hmem).field_absent hin

/-! ## §7 — one stored text over a stretch of compaction -/

variable {raw' : Doc}

/-- `raw` was compacted to `raw'` while the blob table grew from `t` to `t'`. -/
def CompactedTo (t t' : BlobTable sha256) (raw raw' : Doc) : Prop :=
  ∃ mid, t.Extends mid ∧ (compactProfileSnapshot mid raw).1.Extends t' ∧
    raw' = (compactProfileSnapshot mid raw).2

/-- Blobs stored before or after make no difference. -/
theorem CompactedTo.mono {t₁ t₂ t₃ t₄ : BlobTable sha256}
    (h : CompactedTo t₂ t₃ raw raw') (hbefore : t₁.Extends t₂) (hafter : t₃.Extends t₄) :
    CompactedTo t₁ t₄ raw raw' := by
  obtain ⟨mid, hext, hgrown, heq⟩ := h
  exact ⟨mid, hbefore.trans hext, hgrown.trans hafter, heq⟩

/-- What compaction wrote has its references, whatever was stored since. -/
theorem CompactedTo.refsOK (hsha : Function.Injective sha256) (h : CompactedTo t t' raw raw') :
    RefsOK t' raw' := by
  obtain ⟨mid, _, hgrown, rfl⟩ := h
  exact (refsOK_compactProfileSnapshot hsha mid raw).extends hgrown

/-- **When compaction is an identity for readers**: exactly on texts in inline form. -/
theorem CompactedTo.view_eq_iff (hsha : Function.Injective sha256) (h : CompactedTo t t' raw raw')
    (hok : RefsOK t raw) : view t' raw' = view t raw ↔ carriesRefs raw = false := by
  obtain ⟨mid, hext, hgrown, rfl⟩ := h
  -- a compacted document reads as before unless it carried references
  grind [view_extends, view_compactProfileSnapshot_ne, RefsOK.extends, view_compactProfileSnapshot]

end

end LitestreamSoak.Store
