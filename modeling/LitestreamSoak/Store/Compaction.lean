import LitestreamSoak.Store.Snapshot

/-!
# Store — the background compaction of one journal table

`compactSnapshotTarget` of `internal/model/profile_blobs.go`: rows are read in batches in key
order from the stored cursor up to the largest key at the start, each batch is compacted and
written back in one transaction together with the new cursor, and the loop ends when the cursor
has reached that key, when the context is done, or with the first error. The loop is driven by a
script of outcomes, one for each batch, so that a stop or an error can happen at every point.
-/

namespace LitestreamSoak.Store

open Lib List Option

/-! ## §1 — the code -/

/-- `snapshotCompactionTarget`: the compacted column of a table, and when two of its rows violate
its uniqueness constraint. -/
structure SnapshotCompactionTarget {Row : Type} (key : Row → Nat) where
  column : Row → Doc
  setColumn : Row → Doc → Row
  conflicts : Row → Row → Bool
  key_setColumn : ∀ row d, key (setColumn row d) = key row
  setColumn_column : ∀ row, setColumn row (column row) = row
  column_setColumn : ∀ row d, column (setColumn row d) = d

/-- How one batch ends: its transaction commits (unless a row violates the table's uniqueness
constraint), storing a blob fails after some items have been stored, or the transaction fails. -/
inductive BatchOutcome where
  | commit
  | blobError (stored : List Item)
  | txError
deriving DecidableEq

section

variable {Digest : Type} [DecidableEq Digest] {sha256 : Item → Digest}
variable {Row : Type} {key : Row → Nat} (target : SnapshotCompactionTarget key)

/-- `UPDATE table SET column=? WHERE key=?`; `none` when the new row violates the uniqueness
constraint. -/
def updateColumn (table : Table key) (k : Nat) (d : Doc) : Option (Table key) :=
  match table.find? k with
  | none => some table
  | some row =>
    if table.rows.any fun other => key other ≠ k && target.conflicts other (target.setColumn row d)
    then none
    else some (table.update (fun row => if key row = k then target.setColumn row d else row)
      fun row => by split <;> simp [target.key_setColumn])

/-- The updates of `applySnapshotUpdates`; `none` rolls the transaction back. -/
def applySnapshotUpdates (table : Table key) (updates : List (Nat × Doc)) : Option (Table key) :=
  updates.foldlM (fun table update => updateColumn target table update.1 update.2) table

/-- The texts of a batch, compacted one after the other; unchanged ones need no update. -/
def compactBatch (blobs : BlobTable sha256) : List Row → BlobTable sha256 × List (Nat × Doc)
  | [] => (blobs, [])
  | row :: rows =>
    let compact := compactProfileSnapshot blobs (target.column row)
    let rest := compactBatch compact.1 rows
    (rest.1, if compact.2 ≠ target.column row then (key row, compact.2) :: rest.2 else rest.2)

end

/-- `SELECT ... WHERE key>? AND key<=? ORDER BY key LIMIT ?`. -/
def selectBatch {Row : Type} {key : Row → Nat} (table : Table key) (cursor maxID batchSize : Nat) :
    List Row :=
  (table.rows.filter fun row => cursor < key row && key row ≤ maxID).take batchSize

def nextCursor {Row : Type} (key : Row → Nat) (maxID : Nat) (batch : List Row) : Nat :=
  (batch.getLast?.map key).getD maxID

structure TargetState {Digest : Type} (sha256 : Item → Digest) {Row : Type} (key : Row → Nat) where
  table : Table key
  blobs : BlobTable sha256
  cursor : Nat

section

variable {Digest : Type} [DecidableEq Digest] {sha256 : Item → Digest}
variable {Row : Type} {key : Row → Nat} (target : SnapshotCompactionTarget key)

/-- One batch of `compactSnapshotTarget`; `false` when it returns an error. -/
def compactOneBatch (batchSize maxID : Nat) (s : TargetState sha256 key) :
    BatchOutcome → TargetState sha256 key × Bool
  | .commit =>
    let batch := selectBatch s.table s.cursor maxID batchSize
    let compact := compactBatch target s.blobs batch
    match applySnapshotUpdates target s.table compact.2 with
    | some table => (⟨table, compact.1, nextCursor key maxID batch⟩, true)
    | none => ({ s with blobs := compact.1 }, false)
  | .blobError stored => ({ s with blobs := (s.blobs.storeAll stored).1 }, false)
  | .txError =>
    ({ s with blobs := (compactBatch target s.blobs
        (selectBatch s.table s.cursor maxID batchSize)).1 }, false)

/-- The loop of `compactSnapshotTarget`. It returns the outcomes it has not used, or `none` when
it ended with an error or because the context was done (the script is exhausted). -/
def compactSnapshotTarget (batchSize maxID : Nat) :
    List BatchOutcome → TargetState sha256 key → TargetState sha256 key × Option (List BatchOutcome)
  | [], s => (s, if s.cursor < maxID then none else some [])
  | outcome :: outcomes, s =>
    if s.cursor < maxID then
      match compactOneBatch target batchSize maxID s outcome with
      | (s', true) => compactSnapshotTarget batchSize maxID outcomes s'
      | (s', false) => (s', none)
    else (s, some (outcome :: outcomes))

/-! ## §2 — the statements of one batch -/

variable {target}

variable {table : Table key} {row : Row}

omit [DecidableEq Digest] in
/-- An update changes the column of its row only. -/
theorem find?_updateColumn {table' : Table key} {k : Nat} {d : Doc}
    (h : updateColumn target table k d = some table') (k' : Nat) :
    table'.find? k' =
      (table.find? k').map fun row => if k' = k then target.setColumn row d else row := by
  unfold updateColumn at h
  split at h
  · next hnone =>
    obtain rfl := some.inj h
    by_cases hk : k' = k
    · rw [hk, hnone]; rfl
    · simp [hk]
  · split at h
    · cases h
    · obtain rfl := some.inj h
      rw [Table.find?_update]
      refine Option.map_congr fun row hrow => ?_
      rw [((table.find?_eq_some_iff).mp hrow).2]

/-- A row after the updates: its new text, if there is one for it. -/
theorem find?_applySnapshotUpdates {table' : Table key} {updates : List (Nat × Doc)}
    (h : applySnapshotUpdates target table updates = some table')
    (hnodup : (updates.map Prod.fst).Nodup) (k : Nat) :
    table'.find? k =
      (table.find? k).map fun row => ((updates.lookup k).map (target.setColumn row)).getD row := by
  induction updates generalizing table with
  | nil =>
    obtain rfl : table = table' := by simpa [applySnapshotUpdates] using h
    simp
  | cons update updates ih =>
    obtain ⟨k₀, d₀⟩ := update
    obtain ⟨mid, hmid, hrest⟩ := bind_eq_some_iff.mp h
    obtain ⟨hfresh, hnodup⟩ := nodup_cons.mp hnodup
    rw [ih hrest hnodup, find?_updateColumn hmid, Option.map_map]
    refine Option.map_congr fun row _ => ?_
    by_cases hk : k = k₀
    · -- no later update has this key
      have hnone : updates.lookup k = none := by
        rw [lookup_eq_none_iff]
        intro other hother
        have hne : k₀ ≠ other.1 := by
          intro heq
          exact hfresh (List.mem_map.mpr ⟨other, hother, heq.symm⟩)
        simpa [hk] using hne
      simp only [Function.comp_apply, hk, if_true, lookup_cons_self, map_some, getD_some]
      rw [← hk, hnone, map_none, getD_none]
    · have hbeq : (k == k₀) = false := by simpa using hk
      simp [hk, lookup_cons, hbeq]

theorem extends_compactBatch (blobs : BlobTable sha256) (batch : List Row) :
    blobs.Extends (compactBatch target blobs batch).1 := by
  induction batch generalizing blobs with
  | nil => exact .refl blobs
  | cons row rows ih => exact (extends_compactProfileSnapshot blobs _).trans (ih _)

/-- The updates are for rows of the batch. -/
theorem compactBatch_keys (blobs : BlobTable sha256) (batch : List Row) :
    (compactBatch target blobs batch).2.map Prod.fst |>.Sublist (batch.map key) := by
  induction batch generalizing blobs with
  | nil => exact .slnil
  | cons row rows ih => grind [compactBatch]

theorem lookup_compactBatch_none (blobs : BlobTable sha256) {batch : List Row} {k : Nat}
    (h : k ∉ batch.map key) : (compactBatch target blobs batch).2.lookup k = none := by
  grind [compactBatch_keys]

/-- Each row of the batch gets its compacted text. -/
theorem lookup_compactBatch (blobs : BlobTable sha256) {batch : List Row}
    (hnodup : (batch.map key).Nodup) (hrow : row ∈ batch) :
    ∃ compact,
      CompactedTo blobs (compactBatch target blobs batch).1 (target.column row) compact ∧
      (((compactBatch target blobs batch).2.lookup (key row)).map (target.setColumn row)).getD row =
        target.setColumn row compact := by
  induction batch generalizing blobs with
  | nil => cases hrow
  | cons head rows ih =>
    obtain ⟨hfresh, hnodup⟩ := nodup_cons.mp hnodup
    simp only [compactBatch]
    rcases mem_cons.mp hrow with rfl | htail
    · refine ⟨_, ⟨blobs, .refl blobs, extends_compactBatch _ rows, rfl⟩, ?_⟩
      grind [lookup_compactBatch_none, SnapshotCompactionTarget.setColumn_column]
    · obtain ⟨compact, hcompact, hlookup⟩ :=
        ih (compactProfileSnapshot blobs (target.column head)).1 hnodup htail
      refine ⟨compact, hcompact.mono (extends_compactProfileSnapshot blobs _) (.refl _), ?_⟩
      grind

/-! ## §3 — which rows a batch holds -/

variable {cursor batchSize maxID : Nat}

theorem selectBatch_ascending (table : Table key) (cursor maxID batchSize : Nat) :
    (selectBatch table cursor maxID batchSize).Pairwise fun a b => key a < key b :=
  (table.ascending.filter _).sublist (take_sublist _ _)

theorem selectBatch_nodup (table : Table key) (cursor maxID batchSize : Nat) :
    ((selectBatch table cursor maxID batchSize).map key).Nodup :=
  pairwise_map.mpr
    ((selectBatch_ascending table cursor maxID batchSize).imp fun h => Nat.ne_of_lt h)

/-- A batch is taken from between the cursor and the largest id. -/
theorem mem_of_mem_selectBatch
    (h : row ∈ selectBatch table cursor maxID batchSize) :
    row ∈ table ∧ cursor < key row ∧ key row ≤ maxID := by
  have hmem := mem_filter.mp (mem_of_mem_take h)
  exact ⟨hmem.1, by simpa using hmem.2⟩

theorem nextCursor_le (table : Table key) (cursor maxID batchSize : Nat) :
    nextCursor key maxID (selectBatch table cursor maxID batchSize) ≤ maxID := by
  grind [nextCursor, selectBatch]

/-- The cursor rises, so the loop ends. -/
theorem lt_nextCursor (table : Table key) (batchSize : Nat)
    (hlt : cursor < maxID) :
    cursor < nextCursor key maxID (selectBatch table cursor maxID batchSize) := by
  grind [nextCursor, selectBatch]

/-- The new cursor leaves no row behind. -/
theorem mem_selectBatch_iff
    (hsize : 1 ≤ batchSize) (hrow : row ∈ table) :
    row ∈ selectBatch table cursor maxID batchSize ↔
      cursor < key row ∧
        key row ≤ nextCursor key maxID (selectBatch table cursor maxID batchSize) := by
  constructor
  · grind [key_le_last, selectBatch_ascending, selectBatch, nextCursor]
  · rintro ⟨hlow, hhigh⟩
    have hmax := Nat.le_trans hhigh (nextCursor_le table cursor maxID batchSize)
    have hasc := table.ascending.filter fun row => cursor < key row && key row ≤ maxID
    have hpending : row ∈ table.rows.filter fun row => cursor < key row && key row ≤ maxID :=
      mem_filter.mpr ⟨hrow, by simp [hlow, hmax]⟩
    unfold nextCursor selectBatch at *
    generalize table.rows.filter (fun row => cursor < key row && key row ≤ maxID) = pending at *
    rw [← take_append_drop batchSize pending] at hpending hasc
    rcases mem_append.mp hpending with htake | hdrop
    · exact htake
    -- a row the limit cuts off has a key above the last one taken
    exfalso
    have hne : pending.take batchSize ≠ [] := by
      rw [Ne, take_eq_nil_iff]
      rintro (hzero | hnil)
      · omega
      · rw [hnil, drop_nil] at hdrop; cases hdrop
    rw [getLast?_eq_getLast_of_ne_nil hne, map_some, getD_some] at hhigh
    have hlt := (pairwise_append.mp hasc).2.2 _ (getLast_mem hne) row hdrop
    omega

/-! ## §4 — any stretch of the loop -/

variable {s s' : TargetState sha256 key}

variable (target) in
/-- What any stretch of the loop has done: the blob table has only grown, rows at or below the old
cursor and above the new one are as they were, and each row in between holds its compacted text. -/
structure Progress (s s' : TargetState sha256 key) : Prop where
  blobs : s.blobs.Extends s'.blobs
  cursor : s.cursor ≤ s'.cursor
  outside : ∀ k, k ≤ s.cursor ∨ s'.cursor < k → s'.table.find? k = s.table.find? k
  inside_none : ∀ k, s.table.find? k = none → s'.table.find? k = none
  inside : ∀ k row, s.cursor < k → k ≤ s'.cursor → s.table.find? k = some row →
    ∃ compact, CompactedTo s.blobs s'.blobs (target.column row) compact ∧
      s'.table.find? k = some (target.setColumn row compact)

/-- A batch that is rolled back, or has failed, may have stored blobs. -/
theorem Progress.of_blobs (s : TargetState sha256 key) {blobs : BlobTable sha256}
    (hext : s.blobs.Extends blobs) : Progress target s { s with blobs := blobs } where
  blobs := hext
  cursor := Nat.le_refl _
  outside := fun _ _ => rfl
  inside_none := fun _ h => h
  inside := fun k row hlow hhigh _ => by
    have hhigh : k ≤ s.cursor := hhigh
    omega

/-- Two stretches of the loop make one. -/
theorem Progress.trans {s₁ s₂ s₃ : TargetState sha256 key} (h₁ : Progress target s₁ s₂)
    (h₂ : Progress target s₂ s₃) : Progress target s₁ s₃ where
  blobs := h₁.blobs.trans h₂.blobs
  cursor := Nat.le_trans h₁.cursor h₂.cursor
  outside := fun k hk => by
    have hcursor := h₁.cursor
    have hcursor' := h₂.cursor
    rw [h₂.outside k (by omega), h₁.outside k (by omega)]
  inside_none := fun k hnone => h₂.inside_none k (h₁.inside_none k hnone)
  inside := fun k row hlow hhigh hrow => by
    by_cases hmid : k ≤ s₂.cursor
    · -- the row was compacted in the first stretch, and the second leaves it alone
      obtain ⟨compact, hcompact, hfind⟩ := h₁.inside k row hlow hmid hrow
      exact ⟨compact, hcompact.mono (.refl _) h₂.blobs, (h₂.outside k (.inl hmid)).trans hfind⟩
    · have hmid : s₂.cursor < k := Nat.lt_of_not_le hmid
      have hrow' : s₂.table.find? k = some row := (h₁.outside k (.inr hmid)).trans hrow
      obtain ⟨compact, hcompact, hfind⟩ := h₂.inside k row hmid hhigh hrow'
      exact ⟨compact, hcompact.mono h₁.blobs (.refl _), hfind⟩

/-- One batch, whatever becomes of it. -/
theorem progress_compactOneBatch (hsize : 1 ≤ batchSize) (hlt : s.cursor < maxID)
    (outcome : BatchOutcome) :
    Progress target s (compactOneBatch target batchSize maxID s outcome).1 := by
  cases outcome with
  | blobError stored => exact .of_blobs s (s.blobs.extends_storeAll stored)
  | txError => exact .of_blobs s (extends_compactBatch s.blobs _)
  | commit =>
    simp only [compactOneBatch]
    split
    · next table happly =>
      have hfind := find?_applySnapshotUpdates happly
        ((compactBatch_keys s.blobs _).nodup (selectBatch_nodup s.table s.cursor maxID batchSize))
      refine ⟨extends_compactBatch s.blobs _,
        Nat.le_of_lt (lt_nextCursor s.table batchSize hlt), fun k hk => ?_, fun k hnone => ?_,
        fun k row hlow hhigh hrow => ?_⟩
      · -- outside the batch no update has the row's key
        have hfresh : k ∉ (selectBatch s.table s.cursor maxID batchSize).map key := by
          intro hmem
          obtain ⟨row, hbatch, rfl⟩ := List.mem_map.mp hmem
          have hin := (mem_selectBatch_iff hsize (mem_of_mem_selectBatch hbatch).1).mp hbatch
          rcases hk with hk | hk
          · omega
          · exact absurd hin.2 (Nat.not_le_of_lt hk)
        rw [hfind, lookup_compactBatch_none _ hfresh]
        exact Option.map_id'
      · rw [hfind, hnone]; rfl
      · obtain ⟨hmem, hkey⟩ := s.table.find?_eq_some_iff.mp hrow
        have hbatch : row ∈ selectBatch s.table s.cursor maxID batchSize :=
          (mem_selectBatch_iff hsize hmem).mpr (by rw [hkey]; exact ⟨hlow, hhigh⟩)
        obtain ⟨compact, hcompact, hlookup⟩ := lookup_compactBatch s.blobs
          (selectBatch_nodup s.table s.cursor maxID batchSize) hbatch
        refine ⟨compact, hcompact, ?_⟩
        rw [hfind, hrow, map_some, ← hlookup, hkey]
    · exact .of_blobs s (extends_compactBatch s.blobs _)

/-- The loop, by induction on the outcomes; when it finishes the cursor is at the end. -/
theorem progress_compactSnapshotTarget (hsize : 1 ≤ batchSize)
    {outcomes : List BatchOutcome}
    {rest : Option (List BatchOutcome)}
    (h : compactSnapshotTarget target batchSize maxID outcomes s = (s', rest)) :
    Progress target s s' ∧ (rest.isSome = true → maxID ≤ s'.cursor) := by
  induction outcomes generalizing s with
  | nil =>
    obtain ⟨rfl, rfl⟩ := Prod.mk.inj h
    refine ⟨.of_blobs s (.refl _), fun hsome => ?_⟩
    split at hsome
    · cases hsome
    · next hge => exact Nat.le_of_not_lt hge
  | cons outcome outcomes ih =>
    unfold compactSnapshotTarget at h
    split at h
    · next hlt =>
      have hstep : Progress target s (compactOneBatch target batchSize maxID s outcome).1 :=
        progress_compactOneBatch hsize hlt outcome
      split at h
      · next mid heq =>
        rw [heq] at hstep
        exact ⟨hstep.trans (ih h).1, (ih h).2⟩
      · grind
    · next hge =>
      obtain ⟨rfl, rfl⟩ := Prod.mk.inj h
      exact ⟨.of_blobs s (.refl _), fun _ => Nat.le_of_not_lt hge⟩

/-! ## §5 — what readers see -/

omit [DecidableEq Digest] in
variable (target) in
def TargetState.viewAt (s : TargetState sha256 key) (k : Nat) :
    Option (Except ExpandError JsonValue) :=
  (s.table.find? k).map fun row => view s.blobs (target.column row)

omit [DecidableEq Digest] in
variable (target) in
def TargetState.RefsOK (s : TargetState sha256 key) : Prop :=
  ∀ row ∈ s.table, Store.RefsOK s.blobs (target.column row)

/-- The loop keeps every reference of the column intact. -/
theorem Progress.refsOK (hsha : Function.Injective sha256)
    (h : Progress target s s') (hok : s.RefsOK target) : s'.RefsOK target := by
  intro row hrow
  have hfind' : s'.table.find? (key row) = some row :=
    s'.table.find?_eq_some_iff.mpr ⟨hrow, rfl⟩
  cases hfind : s.table.find? (key row) with
  | none => rw [h.inside_none _ hfind] at hfind'; cases hfind'
  | some old =>
    obtain ⟨hold, hkey⟩ := s.table.find?_eq_some_iff.mp hfind
    by_cases hin : s.cursor < key row ∧ key row ≤ s'.cursor
    · obtain ⟨compact, hcompact, hnew⟩ := h.inside (key row) old hin.1 hin.2 hfind
      obtain rfl := some.inj (hnew.symm.trans hfind')
      rw [target.column_setColumn]
      exact hcompact.refsOK hsha
    · have hsame := h.outside (key row) (by omega)
      obtain rfl := some.inj ((hsame.trans hfind).symm.trans hfind')
      exact (hok old hold).extends h.blobs

/-- A row reads the same exactly if it was not visited or carried no references. -/
theorem Progress.viewAt_eq_iff (hsha : Function.Injective sha256)
    (h : Progress target s s') (hok : s.RefsOK target) (hrow : row ∈ s.table) :
    s'.viewAt target (key row) = s.viewAt target (key row) ↔
      (s.cursor < key row → key row ≤ s'.cursor → carriesRefs (target.column row) = false) := by
  have hfind : s.table.find? (key row) = some row := s.table.find?_eq_some_iff.mpr ⟨hrow, rfl⟩
  simp only [TargetState.viewAt, hfind, map_some]
  by_cases hin : s.cursor < key row ∧ key row ≤ s'.cursor
  · obtain ⟨compact, hcompact, hnew⟩ := h.inside (key row) row hin.1 hin.2 hfind
    rw [hnew, map_some, target.column_setColumn, some.injEq,
      hcompact.view_eq_iff hsha (hok row hrow)]
    exact ⟨fun hinline _ _ => hinline, fun hinline => hinline hin.1 hin.2⟩
  · rw [h.outside (key row) (by omega), hfind, map_some,
      view_extends (hok row hrow) h.blobs]
    exact ⟨fun _ hlow hhigh => absurd ⟨hlow, hhigh⟩ hin, fun _ => rfl⟩

/-- **One table.** The loop leaves every reader's view alone exactly when no row it visited was in
reference form. -/
theorem Progress.views_eq_iff (hsha : Function.Injective sha256)
    (h : Progress target s s') (hok : s.RefsOK target) :
    (∀ k, s'.viewAt target k = s.viewAt target k) ↔
      ∀ row ∈ s.table, s.cursor < key row → key row ≤ s'.cursor →
        carriesRefs (target.column row) = false := by
  constructor
  · intro hviews row hrow
    exact (h.viewAt_eq_iff hsha hok hrow).mp (hviews (key row))
  · intro hinline k
    cases hfind : s.table.find? k with
    | none => simp only [TargetState.viewAt, hfind, h.inside_none k hfind, map_none]
    | some row =>
      obtain ⟨hrow, rfl⟩ := s.table.find?_eq_some_iff.mp hfind
      exact (h.viewAt_eq_iff hsha hok hrow).mpr (hinline row hrow)

end

end LitestreamSoak.Store
