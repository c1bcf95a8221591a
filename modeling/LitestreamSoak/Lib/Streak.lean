import Mathlib

/-!
# Lib — streaks

The streak at the head of a list: how many elements of one kind come first, elements of a neutral
kind left out. A counter that is raised by the one kind, kept by the neutral kind and set back by
any other is the streak of what it has seen, the last element first.
-/

namespace LitestreamSoak.Lib

open List

variable {α : Type*} {neutral hit : α → Bool} {a : α} {l : List α} {n : Nat}

abbrev counted (neutral : α → Bool) (l : List α) : List α := l.filter fun a => !neutral a

def streak (neutral hit : α → Bool) (l : List α) : Nat := ((counted neutral l).takeWhile hit).length

/-! ## §1 — one element more -/

@[simp] theorem streak_nil : streak neutral hit [] = 0 := rfl

theorem streak_cons_neutral (h : neutral a = true) :
    streak neutral hit (a :: l) = streak neutral hit l := by
  rw [streak, counted, filter_cons_of_neg (by simp [h])]
  rfl

theorem streak_cons_hit (hn : neutral a = false) (h : hit a = true) :
    streak neutral hit (a :: l) = streak neutral hit l + 1 := by
  rw [streak, counted, filter_cons_of_pos (by simp [hn]), takeWhile_cons_of_pos h]
  rfl

theorem streak_cons_miss (hn : neutral a = false) (h : hit a = false) :
    streak neutral hit (a :: l) = 0 := by
  rw [streak, counted, filter_cons_of_pos (by simp [hn]),
    takeWhile_cons_of_neg (by simp [h])]
  rfl

/-! ## §2 — long streaks -/

/-- **A streak is longer than `n`** when the first `n + 1` elements are hits. -/
theorem lt_streak_iff :
    n < streak neutral hit l ↔
      n < (counted neutral l).length ∧ ∀ a ∈ (counted neutral l).take (n + 1), hit a = true := by
  rw [streak]
  generalize counted neutral l = checks
  induction checks generalizing n with
  | nil => simp
  | cons a checks ih =>
    cases ha : hit a with
    | false => simp [ha]
    | true =>
      rw [takeWhile_cons_of_pos ha, length_cons, length_cons, take_succ_cons,
        forall_mem_cons]
      cases n with
      | zero => simp [ha]
      | succ n =>
        rw [Nat.add_lt_add_iff_right, ih, Nat.add_lt_add_iff_right]
        simp [ha]

/-- **The streak at the end of a list** is longer than `n` when `n + 1` hits end it. -/
theorem lt_streak_reverse_iff :
    n < streak neutral hit l.reverse ↔
      ∃ recent, recent <:+ counted neutral l ∧ recent.length = n + 1 ∧
        ∀ a ∈ recent, hit a = true := by
  have hreverse : counted neutral l.reverse = (counted neutral l).reverse := filter_reverse
  rw [lt_streak_iff, hreverse, length_reverse, take_reverse]
  constructor
  · intro h
    refine ⟨(counted neutral l).drop ((counted neutral l).length - (n + 1)),
      drop_suffix _ _, ?_, ?_⟩
    · rw [length_drop]
      omega
    · intro a ha
      exact h.2 a (mem_reverse.mpr ha)
  · intro h
    obtain ⟨recent, ⟨earlier, hsplit⟩, hlength, hhits⟩ := h
    have htotal := congrArg length hsplit
    rw [length_append] at htotal
    refine ⟨by omega, ?_⟩
    intro a ha
    rw [mem_reverse, ← hsplit, length_append, hlength, Nat.add_sub_cancel,
      drop_left] at ha
    exact hhits a ha

end LitestreamSoak.Lib
