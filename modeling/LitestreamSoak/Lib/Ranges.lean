import Mathlib

/-!
# Lib — lists of closed ranges

A list of ranges stands for the values that some range of it contains (`Covered`). A list in
ascending order, without overlaps and without empty ranges (`Ascending`) can be intersected with
another one by walking both lists once (`inter`): the range that ends first is done with.

The order is any linear order. `UInt64` is one, so that the ranges of a program over machine
integers are ranges in this sense.
-/

namespace LitestreamSoak.Lib

open List

instance uint64Order : LinearOrder UInt64 where
  le_refl a := by rw [UInt64.le_iff_toNat_le]
  le_trans a b c hab hbc := by
    rw [UInt64.le_iff_toNat_le] at hab hbc ⊢
    omega
  lt_iff_le_not_ge a b := by
    rw [UInt64.lt_iff_toNat_lt, UInt64.le_iff_toNat_le, UInt64.le_iff_toNat_le]
    omega
  le_antisymm a b hab hba := by
    rw [UInt64.le_iff_toNat_le] at hab hba
    exact UInt64.toNat_inj.mp (by omega)
  le_total a b := by
    rw [UInt64.le_iff_toNat_le, UInt64.le_iff_toNat_le]
    omega
  toDecidableLE := inferInstance
  toDecidableEq := inferInstance
  toDecidableLT := inferInstance
  min_def _ _ := rfl
  max_def _ _ := rfl

/-- The values from `min` to `max`, none if `max` is below `min`. -/
structure Range (α : Type) where
  min : α
  max : α
deriving DecidableEq

variable {α : Type} [LinearOrder α]

def Range.Contains (r : Range α) (x : α) : Prop := r.min ≤ x ∧ x ≤ r.max

def Covered (l : List (Range α)) (x : α) : Prop := ∃ r ∈ l, r.Contains x

/-- Ranges in order, with room between each and the next or none. -/
structure Ascending (l : List (Range α)) : Prop where
  ordered : l.Pairwise fun a b => a.max < b.min
  nonempty : ∀ r ∈ l, r.min ≤ r.max

/-! ## §1 — lists of ranges -/

variable {r : Range α} {l : List (Range α)} {x : α}

theorem not_covered_nil (x : α) : ¬ Covered [] x := by
  rintro ⟨r, hr, -⟩
  exact nomatch hr

theorem covered_cons : Covered (r :: l) x ↔ r.Contains x ∨ Covered l x := by
  simp only [Covered, mem_cons, or_and_right, exists_or, exists_eq_left]

theorem covered_append {m : List (Range α)} : Covered (l ++ m) x ↔ Covered l x ∨ Covered m x := by
  simp only [Covered, mem_append, or_and_right, exists_or]

theorem ascending_nil : Ascending ([] : List (Range α)) := ⟨.nil, nofun⟩

theorem ascending_cons :
    Ascending (r :: l) ↔ r.min ≤ r.max ∧ (∀ s ∈ l, r.max < s.min) ∧ Ascending l := by
  constructor
  · intro h
    obtain ⟨hlt, hrest⟩ := pairwise_cons.mp h.ordered
    exact ⟨h.nonempty r (by simp), hlt, hrest, fun s hs => h.nonempty s (by simp [hs])⟩
  · rintro ⟨hr, hlt, h⟩
    refine ⟨pairwise_cons.mpr ⟨hlt, h.ordered⟩, fun s hs => ?_⟩
    rcases mem_cons.mp hs with rfl | hs
    · exact hr
    · exact h.nonempty s hs

theorem Ascending.append {m : List (Range α)} (hl : Ascending l) (hm : Ascending m)
    (hlm : ∀ r ∈ l, ∀ s ∈ m, r.max < s.min) : Ascending (l ++ m) := by
  refine ⟨pairwise_append.mpr ⟨hl.ordered, hm.ordered, hlm⟩, fun r hr => ?_⟩
  rcases mem_append.mp hr with hr | hr
  · exact hl.nonempty r hr
  · exact hm.nonempty r hr

theorem Ascending.lt_of_covered (h : Ascending (r :: l)) (hx : Covered l x) : r.max < x := by
  obtain ⟨s, hs, hsx⟩ := hx
  exact lt_of_lt_of_le ((ascending_cons.mp h).2.1 s hs) hsx.1

theorem covered_flatMap {f : Range α → List (Range α)} :
    Covered (l.flatMap f) x ↔ ∃ r ∈ l, Covered (f r) x := by
  grind [Covered]

theorem Ascending.flatMap {f : Range α → List (Range α)} (h : Ascending l)
    (hf : ∀ r ∈ l, Ascending (f r))
    (hin : ∀ r ∈ l, ∀ o ∈ f r, r.min ≤ o.min ∧ o.max ≤ r.max) : Ascending (l.flatMap f) := by
  induction l with
  | nil => exact ascending_nil
  | cons r l ih =>
    obtain ⟨-, hlt, hl⟩ := ascending_cons.mp h
    rw [flatMap_cons]
    refine (hf r (by simp)).append (ih hl (fun s hs => hf s (by simp [hs]))
      fun s hs => hin s (by simp [hs])) fun o ho o' ho' => ?_
    obtain ⟨s, hs, ho'⟩ := mem_flatMap.mp ho'
    calc o.max ≤ r.max := (hin r (by simp) o ho).2
      _ < s.min := hlt s hs
      _ ≤ o'.min := (hin s (by simp [hs]) o' ho').1

/-! ## §2 — the intersection -/

variable {a b : List (Range α)}

def overlap (r s : Range α) : List (Range α) :=
  if max r.min s.min ≤ min r.max s.max then [⟨max r.min s.min, min r.max s.max⟩] else []

def inter : List (Range α) → List (Range α) → List (Range α)
  | [], _ => []
  | _ :: _, [] => []
  | r :: a, s :: b =>
    if r.max < s.max then overlap r s ++ inter a (s :: b) else overlap r s ++ inter (r :: a) b
termination_by a b => a.length + b.length

theorem covered_overlap {s : Range α} : Covered (overlap r s) x ↔ r.Contains x ∧ s.Contains x := by
  grind [Range.Contains, overlap, covered_cons, not_covered_nil]

/-- **The intersection contains what both lists contain.** Induction on the walk: the range that
ends first meets nothing further on in the other list. -/
theorem covered_inter (ha : Ascending a) (hb : Ascending b) (x : α) :
    Covered (inter a b) x ↔ Covered a x ∧ Covered b x := by
  induction a, b using inter.induct with
  | case1 b =>
    rw [inter]
    exact ⟨fun h => absurd h (not_covered_nil x), fun h => h.1⟩
  | case2 r a =>
    rw [inter]
    exact ⟨fun h => absurd h (not_covered_nil x), fun h => h.2⟩
  | case3 r a s b hlt ih =>
    rw [inter, if_pos hlt, covered_append, covered_overlap,
      ih (ascending_cons.mp ha).2.2 hb, covered_cons (r := r) (l := a)]
    constructor
    · grind [Covered]
    · rintro ⟨hr | hx, hy⟩
      · rcases covered_cons.mp hy with hs | hy'
        · exact .inl ⟨hr, hs⟩
        · have := hb.lt_of_covered hy'
          exact absurd (lt_trans hlt this) (not_lt_of_ge hr.2)
      · exact .inr ⟨hx, hy⟩
  | case4 r a s b hle ih =>
    rw [inter, if_neg hle, covered_append, covered_overlap,
      ih ha (ascending_cons.mp hb).2.2, covered_cons (r := s) (l := b)]
    constructor
    · grind [Covered]
    · rintro ⟨hx, hs | hy⟩
      · rcases covered_cons.mp hx with hr | hx'
        · exact .inl ⟨hr, hs⟩
        · have := ha.lt_of_covered hx'
          exact absurd (lt_of_le_of_lt (not_lt.mp hle) this) (not_lt_of_ge hs.2)
      · exact .inr ⟨hx, hy⟩

theorem min_le_of_mem_inter {o : Range α} (ho : o ∈ inter a b) :
    (∃ r ∈ a, r.min ≤ o.min) ∧ ∃ s ∈ b, s.min ≤ o.min := by
  have hoverlap : ∀ {r s : Range α}, o ∈ overlap r s → r.min ≤ o.min ∧ s.min ≤ o.min := by
    intro r s ho
    unfold overlap at ho
    split at ho
    · rw [mem_singleton.mp ho]
      exact ⟨le_max_left _ _, le_max_right _ _⟩
    · exact nomatch ho
  induction a, b using inter.induct with
  | case1 b | case2 r a =>
    rw [inter] at ho
    exact nomatch ho
  -- the list whose head ends first is advanced
  | case3 r a s b hlt ih => grind [inter]
  | case4 r a s b hle ih => grind [inter]

theorem ascending_overlap (r s : Range α) : Ascending (overlap r s) := by
  unfold overlap
  split
  · next h => exact ascending_cons.mpr ⟨h, nofun, ascending_nil⟩
  · exact ascending_nil

theorem max_le_of_mem_overlap {s o : Range α} (ho : o ∈ overlap r s) :
    o.max ≤ r.max ∧ o.max ≤ s.max := by
  grind [overlap]

/-- **The intersection is in ascending order.** -/
theorem ascending_inter (ha : Ascending a) (hb : Ascending b) : Ascending (inter a b) := by
  induction a, b using inter.induct with
  | case1 b | case2 r a =>
    rw [inter]
    exact ascending_nil
  | case3 r a s b hlt ih =>
    rw [inter, if_pos hlt]
    refine (ascending_overlap r s).append (ih (ascending_cons.mp ha).2.2 hb) fun o ho o' ho' => ?_
    obtain ⟨⟨r', hr', hle⟩, -⟩ := min_le_of_mem_inter ho'
    calc o.max ≤ r.max := (max_le_of_mem_overlap ho).1
      _ < r'.min := (ascending_cons.mp ha).2.1 r' hr'
      _ ≤ o'.min := hle
  | case4 r a s b hle ih =>
    rw [inter, if_neg hle]
    refine (ascending_overlap r s).append (ih ha (ascending_cons.mp hb).2.2) fun o ho o' ho' => ?_
    obtain ⟨-, s', hs', hle'⟩ := min_le_of_mem_inter ho'
    calc o.max ≤ s.max := (max_le_of_mem_overlap ho).2
      _ < s'.min := (ascending_cons.mp hb).2.1 s' hs'
      _ ≤ o'.min := hle'

end LitestreamSoak.Lib
