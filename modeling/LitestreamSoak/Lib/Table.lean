import Mathlib

/-!
# Lib — tables with an integer primary key

A `Table key` is the content of an SQL table whose primary key is the integer `key row`: its rows
in key order, with the order carried as a field, so a table with two rows of one key cannot be
built. The operations are the statements a store issues by key:

* **`Table.append`** — an insert that lets the table choose the key: one above the largest.
* **`Table.insert?`** — an insert with a given key, which fails when the key is taken.
* **`Table.filter`** — a delete of every row that does not pass.
* **`Table.update`**, **`Table.updateAt`** — an update of the other columns, of all rows or of one.

Each comes with what it does to `Table.find?`, so that proofs about lookups never see the list.
-/

namespace LitestreamSoak.Lib

variable {α : Type}

/-- The rows of a table in the order of their integer primary key. -/
structure Table (key : α → Nat) where
  rows : List α
  ascending : rows.Pairwise fun a b => key a < key b

theorem key_le_last {key : α → Nat} {l : List α} (hasc : l.Pairwise fun a b => key a < key b)
    {a : α} (ha : a ∈ l) (d : Nat) : key a ≤ (l.getLast?.map key).getD d := by
  have hne : l ≠ [] := List.ne_nil_of_mem ha
  have hsplit := List.dropLast_concat_getLast hne
  generalize l.dropLast = init, l.getLast hne = last at hsplit
  rw [← hsplit] at ha hasc ⊢
  rw [List.getLast?_concat, Option.map_some, Option.getD_some]
  rcases List.mem_append.mp ha with hinit | hlast
  · exact Nat.le_of_lt ((List.pairwise_append.mp hasc).2.2 a hinit last (by simp))
  · exact Nat.le_of_eq (congrArg key (List.mem_singleton.mp hlast))

namespace Table

variable {key : α → Nat} {t : Table key} {row : α}

instance : Membership α (Table key) := ⟨fun t row => row ∈ t.rows⟩

def empty (key : α → Nat) : Table key := ⟨[], .nil⟩

/-- The largest key, 0 for the empty table: `SELECT COALESCE(MAX(key), 0)`. -/
def maxKey (t : Table key) : Nat := (t.rows.getLast?.map key).getD 0

def find? (t : Table key) (k : Nat) : Option α := t.rows.find? fun row => key row = k

theorem mem_rows : row ∈ t.rows ↔ row ∈ t := Iff.rfl

@[simp] theorem not_mem_empty (row : α) : ¬ row ∈ empty key := List.not_mem_nil

theorem eq_of_key_eq (t : Table key) {a b : α} (ha : a ∈ t) (hb : b ∈ t) (hkey : key a = key b) :
    a = b := by
  have hnodup : (t.rows.map key).Nodup :=
    List.pairwise_map.mpr (t.ascending.imp fun h => Nat.ne_of_lt h)
  exact List.inj_on_of_nodup_map hnodup ha hb hkey

theorem find?_eq_some_iff (t : Table key) {k : Nat} :
    t.find? k = some row ↔ row ∈ t ∧ key row = k := by
  constructor
  · intro h
    exact ⟨List.mem_of_find?_eq_some h, by simpa using List.find?_some h⟩
  · rintro ⟨hmem, rfl⟩
    have hsome : (t.find? (key row)).isSome := by
      rw [find?, List.find?_isSome]; exact ⟨row, hmem, by simp⟩
    obtain ⟨found, hfound⟩ := Option.isSome_iff_exists.mp hsome
    have hkey : key found = key row := by simpa using List.find?_some hfound
    rw [hfound, t.eq_of_key_eq (List.mem_of_find?_eq_some hfound) hmem hkey]

theorem key_le_maxKey (t : Table key) (hrow : row ∈ t) : key row ≤ t.maxKey :=
  key_le_last t.ascending hrow 0

/-! ## Inserts -/

/-- `INSERT` without a key: the new row gets the key after the largest one. -/
def append (t : Table key) (mk : Nat → α) (hmk : ∀ k, key (mk k) = k) : Table key :=
  ⟨t.rows ++ [mk (t.maxKey + 1)],
   List.pairwise_append.mpr ⟨t.ascending, .cons (by simp) .nil, fun a ha b hb => by
     rw [List.mem_singleton.mp hb, hmk]; exact Nat.lt_succ_of_le (t.key_le_maxKey ha)⟩⟩

@[simp] theorem mem_append (t : Table key) (mk : Nat → α) (hmk : ∀ k, key (mk k) = k) :
    row ∈ t.append mk hmk ↔ row ∈ t ∨ row = mk (t.maxKey + 1) := by
  rw [← mem_rows, append, List.mem_append, List.mem_singleton, mem_rows]

def insert? (t : Table key) (row : α) : Option (Table key) :=
  if t.rows.any fun other => key other = key row then none
  else some
    ⟨t.rows.filter (key · < key row) ++ row :: t.rows.filter (key row < key ·), by
      refine List.pairwise_append.mpr ⟨t.ascending.filter _, List.pairwise_cons.mpr
        ⟨fun b hb => by simpa using (List.mem_filter.mp hb).2, t.ascending.filter _⟩, ?_⟩
      intro a ha b hb
      have hlow : key a < key row := by simpa using (List.mem_filter.mp ha).2
      rcases List.mem_cons.mp hb with rfl | hb
      · exact hlow
      · exact Nat.lt_trans hlow (by simpa using (List.mem_filter.mp hb).2)⟩

theorem mem_insert? {t' : Table key} (h : t.insert? row = some t') :
    (∀ other ∈ t, key other ≠ key row) ∧ ∀ other, other ∈ t' ↔ other ∈ t ∨ other = row := by
  unfold insert? at h
  split at h
  · exact absurd h (by simp)
  · next hfree =>
    have hfree : ∀ other ∈ t, key other ≠ key row := by simpa [mem_rows] using hfree
    refine ⟨hfree, fun other => ?_⟩
    obtain rfl := Option.some.inj h
    simp only [← mem_rows, List.mem_append, List.mem_cons, List.mem_filter, decide_eq_true_eq]
    constructor
    · grind
    · grind

/-! ## Deletes and updates -/

def filter (t : Table key) (p : α → Bool) : Table key := ⟨t.rows.filter p, t.ascending.filter _⟩

@[simp] theorem mem_filter (t : Table key) (p : α → Bool) :
    row ∈ t.filter p ↔ row ∈ t ∧ p row = true := by
  rw [← mem_rows, filter, List.mem_filter, mem_rows]

def update (t : Table key) (f : α → α) (hf : ∀ row, key (f row) = key row) : Table key :=
  ⟨t.rows.map f, List.pairwise_map.mpr (t.ascending.imp fun h => by rw [hf, hf]; exact h)⟩

@[simp] theorem mem_update (t : Table key) (f : α → α) (hf : ∀ row, key (f row) = key row) :
    row ∈ t.update f hf ↔ ∃ old ∈ t, f old = row := by
  rw [← mem_rows, update, List.mem_map]
  exact Iff.rfl

@[simp] theorem find?_update (t : Table key) (f : α → α) (hf : ∀ row, key (f row) = key row)
    (k : Nat) : (t.update f hf).find? k = (t.find? k).map f := by
  simp only [find?, update, List.find?_map, Function.comp_def, hf]

def updateAt (t : Table key) (k : Nat) (f : α → α) (hf : ∀ row, key (f row) = key row) :
    Table key :=
  t.update (fun row => if key row = k then f row else row) fun row => by
    split
    · exact hf row
    · rfl

theorem mem_updateAt (t : Table key) (k : Nat) (f : α → α) (hf : ∀ row, key (f row) = key row) :
    row ∈ t.updateAt k f hf ↔ (row ∈ t ∧ key row ≠ k) ∨ ∃ old ∈ t, key old = k ∧ f old = row := by
  rw [updateAt, mem_update]
  constructor
  · grind
  · grind

theorem exists_mem_updateAt (t : Table key) (k : Nat) (f : α → α)
    (hf : ∀ row, key (f row) = key row) (hrow : row ∈ t) :
    ∃ row' ∈ t.updateAt k f hf, key row ≠ k ∧ row' = row ∨ key row = k ∧ row' = f row := by
  by_cases hk : key row = k
  · grind [Table.mem_updateAt]
  · exact ⟨row, (t.mem_updateAt k f hf).mpr (.inl ⟨hrow, hk⟩), .inl ⟨hk, rfl⟩⟩

end Table

end LitestreamSoak.Lib
