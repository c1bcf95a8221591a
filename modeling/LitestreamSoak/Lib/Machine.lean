import Mathlib

/-!
# Lib — guarded transition machines

A machine is a start predicate and a partial step function: `step s a = none` means that
action `a` is not enabled in `s`. Everything the development says about "every interleaving"
is said about `Machine.Reaches`, the states a machine reaches when each step it takes also
meets a side condition `ok`, and is proved by `Machine.Reaches.invariant`: one step lemma
carries the whole run.

* **`Machine.Reaches`** — reachability under a side condition on the steps taken; the
  unrestricted notion is `ok := fun _ _ => True`.
* **`Machine.run`** — the executable counterpart, a list of actions folded over a state, from
  which a concrete run is turned into a reachability fact (`Machine.exists_reaches_of_run`).
-/

namespace LitestreamSoak.Lib

universe u v

/-- A transition machine over states `σ` and actions `α`. The step function is partial so that
the guard of an action is part of the machine and every run can be evaluated. -/
structure Machine (σ : Type u) (α : Type v) where
  start : σ → Prop
  step : σ → α → Option σ

namespace Machine

variable {σ : Type u} {α : Type v} (M : Machine σ α)
variable {ok : σ → α → Prop}

/-- The states reached from a start state by steps that all meet `ok` in the state they are
taken from. -/
inductive Reaches (ok : σ → α → Prop) : σ → Prop where
  | start {s : σ} (hs : M.start s) : Reaches ok s
  | step {s s' : σ} {a : α} (hreach : Reaches ok s) (hok : ok s a)
      (hstep : M.step s a = some s') : Reaches ok s'

def Reachable (s : σ) : Prop := M.Reaches (fun _ _ => True) s

variable {M}

/-- **The invariant rule.** What holds in every start state and is preserved by every step that
meets the side condition holds in every state reached. -/
theorem Reaches.invariant {Inv : σ → Prop}
    (hstart : ∀ s, M.start s → Inv s)
    (hstep : ∀ s a s', Inv s → ok s a → M.step s a = some s' → Inv s')
    {s : σ} (hreach : M.Reaches ok s) : Inv s := by
  induction hreach with
  | start hs => exact hstart _ hs
  | step _ hok hs ih => exact hstep _ _ _ ih hok hs

theorem Reaches.reachable {s : σ} (hreach : M.Reaches ok s) : M.Reachable s := by
  induction hreach with
  | start hs => exact .start hs
  | step _ _ hs ih => exact .step ih trivial hs

variable (M) in
/-- Run a list of actions; `none` as soon as one of them is not enabled or does not meet `ok`. -/
def run (ok : σ → α → Prop) [∀ s a, Decidable (ok s a)] (s : σ) : List α → Option σ
  | [] => some s
  | a :: as => if ok s a then (M.step s a).bind fun s' => run ok s' as else none

theorem exists_reaches_of_run [∀ s a, Decidable (ok s a)] {s : σ}
    (hs : M.Reaches ok s) (as : List α) {P : σ → Prop} (h : ∃ s' ∈ M.run ok s as, P s') :
    ∃ s', M.Reaches ok s' ∧ P s' := by
  induction as generalizing s with
  | nil =>
    obtain ⟨s', hs', hP⟩ := h
    obtain rfl : s = s' := Option.some.inj hs'
    exact ⟨s, hs, hP⟩
  | cons a as ih =>
    obtain ⟨s', hs', hP⟩ := h
    simp only [run] at hs'
    split at hs'
    · next hok =>
      obtain ⟨mid, hmid, hrest⟩ := Option.bind_eq_some_iff.mp hs'
      exact ih (.step hs hok hmid) ⟨s', hrest, hP⟩
    · cases hs'

end Machine

end LitestreamSoak.Lib
