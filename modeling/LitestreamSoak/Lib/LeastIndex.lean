import Mathlib

/-!
# Lib — an index of least elements

A table that keeps, for every key, the first of the entries that carry it is an index
`m : κ → Option ν` of the least elements of the sets `S k`. Two operations keep it one:

* **`IndexesLeast.insert`** — an entry with a key, which takes the key over when it is smaller.
* **`IndexesLeast.delete`** — entries removed together with the keys they hold. The index keeps
  no second candidate, so what stays must not share a key with a holder that goes.
-/

namespace LitestreamSoak.Lib

variable {κ ν : Type}

def withKeys (S : κ → Set ν) (n : ν) (keys : List κ) : κ → Set ν :=
  fun k => {x | x ∈ S k ∨ x = n ∧ k ∈ keys}

theorem withKeys_nil (S : κ → Set ν) (n : ν) : withKeys S n [] = S := by
  funext k
  simp [withKeys]

theorem withKeys_withKeys (S : κ → Set ν) (n : ν) (k : κ) (keys : List κ) :
    withKeys (withKeys S n [k]) n keys = withKeys S n (k :: keys) := by
  funext k'
  ext x
  simp only [withKeys, Set.mem_ofPred_eq, List.mem_cons, List.not_mem_nil, or_false]
  tauto

variable [LinearOrder ν]

/-- `m` finds the least element of every set, and nothing where the set is empty. -/
def IndexesLeast (m : κ → Option ν) (S : κ → Set ν) : Prop :=
  ∀ k n, m k = some n ↔ IsLeast (S k) n

def holder (old : Option ν) (n : ν) : ν := old.elim n (min · n)

theorem holder_le {old : Option ν} (n : ν) {o : ν} (h : old = some o) : holder old n ≤ o := by
  rw [h]
  exact min_le_left _ _

theorem holder_le_new (old : Option ν) (n : ν) : holder old n ≤ n := by
  cases old with
  | none => exact le_refl n
  | some o => exact min_le_right _ _

namespace IndexesLeast

variable {m m' : κ → Option ν} {S : κ → Set ν}

theorem empty : IndexesLeast (fun _ : κ => (none : Option ν)) fun _ => ∅ := by
  intro k n
  constructor
  · intro h; cases h
  · intro h; cases h.1

variable [WellFoundedLT ν]

theorem eq_empty (h : IndexesLeast m S) {k : κ} (hnone : m k = none) : S k = ∅ := by
  rw [Set.eq_empty_iff_forall_notMem]
  intro x hx
  have hleast : IsLeast (S k) (WellFounded.min wellFounded_lt (S k) ⟨x, hx⟩) :=
    ⟨WellFounded.min_mem _ _ _, fun y hy => not_lt.mp (WellFounded.not_lt_min _ _ hy)⟩
  cases hnone.symm.trans ((h k _).mpr hleast)

theorem isLeast_holder (h : IndexesLeast m S) (k : κ) (n : ν) :
    IsLeast (insert n (S k)) (holder (m k) n) := by
  cases hk : m k with
  | none =>
    rw [h.eq_empty hk, LawfulSingleton.insert_empty_eq]
    exact isLeast_singleton
  | some o =>
    show IsLeast _ (min o n)
    rw [min_comm]
    exact ((h k o).mp hk).insert n

/-- **An entry with one key.** -/
theorem insert (h : IndexesLeast m S) {k : κ} {n : ν} (hk : m' k = some (holder (m k) n))
    (hother : ∀ k' ≠ k, m' k' = m k') : IndexesLeast m' (withKeys S n [k]) := by
  intro k' x
  by_cases hkk : k' = k
  · have hset : withKeys S n [k] k' = Insert.insert n (S k') := by
      ext y
      simp only [withKeys, Set.mem_ofPred_eq, List.mem_singleton, hkk, and_true, Set.mem_insert_iff]
      exact or_comm
    rw [hset, hkk, hk]
    constructor
    · intro hx
      cases hx
      exact h.isLeast_holder k n
    · intro hx
      rw [(h.isLeast_holder k n).unique hx]
  · have hset : withKeys S n [k] k' = S k' := by simp [withKeys, hkk]
    rw [hset, hother k' hkk]
    exact h k' x

/-- **Entries deleted with the keys they hold.** -/
theorem delete (h : IndexesLeast m S) {gone : ν → Bool}
    (hm : ∀ k, m' k = (m k).filter fun n => !gone n)
    (hwhole : ∀ k n, m k = some n → gone n = true → ∀ x ∈ S k, gone x = true) :
    IndexesLeast m' fun k => {x | x ∈ S k ∧ gone x = false} := by
  intro k n
  rw [hm, Option.filter_eq_some_iff]
  constructor
  · intro ⟨hk, hkeep⟩
    have hleast := (h k n).mp hk
    exact ⟨⟨hleast.1, by simpa using hkeep⟩, fun x hx => hleast.2 hx.1⟩
  · intro hn
    cases hk : m k with
    | none =>
      have hmem := hn.1.1
      rw [h.eq_empty hk] at hmem
      cases hmem
    | some o =>
      have hleast := (h k o).mp hk
      -- the holder of the key goes only together with everything that carries it
      have hkeep : gone o = false := by
        refine Bool.eq_false_iff.mpr fun hgone => ?_
        cases (hwhole k o hk hgone n hn.1.1).symm.trans hn.1.2
      have heq : o = n := le_antisymm (hleast.2 hn.1.1) (hn.2 ⟨hleast.1, hkeep⟩)
      rw [heq] at hkeep ⊢
      exact ⟨rfl, by rw [hkeep]; rfl⟩

end IndexesLeast

end LitestreamSoak.Lib
