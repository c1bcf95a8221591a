import Mathlib

/-!
# Lib — meters over the lifetimes of a counter

A counter that only lives as long as a process is read now and then. A reading is the lifetime it
was taken in and the value it gave; what a counter counted over all of its lifetimes is the sum of
the highest reading of each.
-/

namespace LitestreamSoak.Lib

open List

variable {ε : Type}

/-! ## §1 — readings -/

section Readings

variable [DecidableEq ε]

def highest (readings : List (ε × Nat)) (e : ε) : Nat :=
  readings.foldl (fun top r => if r.1 = e then max top r.2 else top) 0

def usage (readings : List (ε × Nat)) : Nat :=
  ∑ e ∈ (readings.map Prod.fst).toFinset, highest readings e

theorem highest_concat (readings : List (ε × Nat)) (r : ε × Nat) (e : ε) :
    highest (readings ++ [r]) e =
      if r.1 = e then max (highest readings e) r.2 else highest readings e := by
  rw [highest, foldl_append]
  rfl

theorem highest_of_notMem {readings : List (ε × Nat)} {e : ε}
    (h : e ∉ readings.map Prod.fst) : highest readings e = 0 := by
  induction readings using reverseRecOn with
  | nil => rfl
  | append_singleton readings r ih =>
    rw [map_append, mem_append, not_or] at h
    rw [highest_concat, if_neg, ih h.1]
    rintro rfl
    exact h.2 mem_cons_self

/-- **One more reading.** -/
theorem usage_concat (readings : List (ε × Nat)) (r : ε × Nat) :
    usage (readings ++ [r]) + highest readings r.1 =
      usage readings + max (highest readings r.1) r.2 := by
  have hlifetimes : ((readings ++ [r]).map Prod.fst).toFinset =
      insert r.1 (readings.map Prod.fst).toFinset := by
    ext e
    simp
  have hother : ∀ s : Finset ε, r.1 ∉ s →
      ∑ e ∈ s, highest (readings ++ [r]) e = ∑ e ∈ s, highest readings e := by
    intro s hs
    refine Finset.sum_congr rfl fun e he => ?_
    rw [highest_concat, if_neg]
    rintro rfl
    exact hs he
  have htop : highest (readings ++ [r]) r.1 = max (highest readings r.1) r.2 := by
    rw [highest_concat, if_pos rfl]
  unfold usage
  rw [hlifetimes]
  by_cases hmem : r.1 ∈ (readings.map Prod.fst).toFinset
  · -- a lifetime that was read before trades its highest reading
    rw [Finset.insert_eq_of_mem hmem, ← Finset.add_sum_erase _ _ hmem,
      ← Finset.add_sum_erase _ _ hmem, hother _ (Finset.notMem_erase _ _), htop]
    omega
  · -- a new one has no reading to trade
    rw [Finset.sum_insert hmem, hother _ hmem, htop,
      highest_of_notMem (by simpa using hmem)]
    omega

end Readings

/-! ## §2 — lifetimes that do not recur -/

variable {l : List ε}

/-- An entry that comes again comes again at once. -/
def Contiguous : List ε → Prop
  | [] => True
  | e :: rest => (e ∈ rest → rest.head? = some e) ∧ Contiguous rest

instance Contiguous.decidable [DecidableEq ε] : (l : List ε) → Decidable (Contiguous l)
  | [] => .isTrue trivial
  | _ :: rest => @instDecidableAnd _ _ _ (decidable rest)

theorem Contiguous.of_concat {e : ε} (h : Contiguous (l ++ [e])) : Contiguous l := by
  induction l with
  | nil => trivial
  | cons a l ih =>
    obtain ⟨hhead, hrest⟩ := h
    refine ⟨fun hmem => ?_, ih hrest⟩
    have hnext : (l ++ [e]).head? = some a := hhead (mem_append_left _ hmem)
    rwa [head?_append_of_ne_nil _ (ne_nil_of_mem hmem)] at hnext

/-- **The last entry is the only one that can come again.** -/
theorem Contiguous.getLast_of_mem {e : ε} (h : Contiguous (l ++ [e])) (he : e ∈ l) :
    l.getLast? = some e := by
  induction l with
  | nil => cases he
  | cons a l ih =>
    obtain ⟨hhead, hrest⟩ := h
    cases l with
    | nil => rw [mem_singleton.mp he]; rfl
    | cons b l =>
      rw [getLast?_cons_cons]
      refine ih hrest ?_
      rcases mem_cons.mp he with rfl | he
      · -- the entry is followed by itself
        have hnext : some b = some e := hhead (mem_append_right _ mem_cons_self)
        rw [Option.some.inj hnext]
        exact mem_cons_self
      · exact he

theorem Contiguous.repeat_last {e : ε} (h : Contiguous (l ++ [e])) :
    Contiguous (l ++ [e] ++ [e]) := by
  induction l with
  | nil => exact ⟨fun _ => rfl, fun h => absurd h not_mem_nil, trivial⟩
  | cons a l ih =>
    obtain ⟨hhead, hrest⟩ := h
    refine ⟨fun hmem => ?_, ih hrest⟩
    have hmem : a ∈ l ++ [e] := by
      rcases mem_append.mp hmem with hmem | hmem
      · exact hmem
      · exact mem_append_right _ hmem
    have hnext : (l ++ [e]).head? = some a := hhead hmem
    show (l ++ [e] ++ [e]).head? = some a
    rw [head?_append_of_ne_nil _ (ne_nil_of_mem hmem), hnext]

end LitestreamSoak.Lib
