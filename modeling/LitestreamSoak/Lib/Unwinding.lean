import Mathlib

/-!
# Lib — histories that differ by hidden inputs

A two-run property says that some inputs of a system have no influence on what is observed of it:
two histories that differ only by such inputs lead to states that look alike. It is proved from
facts about one input at a time, the conditions of an `Unwinding`.
-/

namespace LitestreamSoak.Lib

universe u v

variable {σ : Type u} {α : Type v}

/-- The histories agree up to inputs in `hidden`, which either may have anywhere. -/
inductive DiffersBy (hidden : α → Prop) : List α → List α → Prop where
  | nil : DiffersBy hidden [] []
  | both (a : α) {h₁ h₂ : List α} (rest : DiffersBy hidden h₁ h₂) :
      DiffersBy hidden (a :: h₁) (a :: h₂)
  | left {a : α} (ha : hidden a) {h₁ h₂ : List α} (rest : DiffersBy hidden h₁ h₂) :
      DiffersBy hidden (a :: h₁) h₂
  | right {a : α} (ha : hidden a) {h₁ h₂ : List α} (rest : DiffersBy hidden h₁ h₂) :
      DiffersBy hidden h₁ (a :: h₂)

/-- A relation on states that hidden inputs do not leave, on either side, and that an input taken
on both sides keeps. -/
structure Unwinding (step : σ → α → σ) (hidden : α → Prop) (Sim : σ → σ → Prop) : Prop where
  symm : ∀ {s t}, Sim s t → Sim t s
  hide : ∀ {s t a}, hidden a → Sim s t → Sim (step s a) t
  keep : ∀ {s t} (a : α), Sim s t → Sim (step s a) (step t a)

/-- **The unwinding rule.** Related states stay related along histories that differ by hidden
inputs. -/
theorem Unwinding.run {step : σ → α → σ} {hidden : α → Prop} {Sim : σ → σ → Prop}
    (unwinding : Unwinding step hidden Sim) {h₁ h₂ : List α} (h : DiffersBy hidden h₁ h₂)
    {s t : σ} (hsim : Sim s t) : Sim (h₁.foldl step s) (h₂.foldl step t) := by
  induction h generalizing s t with
  | nil => exact hsim
  | both a _ ih => exact ih (unwinding.keep a hsim)
  | left ha _ ih => exact ih (unwinding.hide ha hsim)
  | right ha _ ih => exact ih (unwinding.symm (unwinding.hide ha (unwinding.symm hsim)))

end LitestreamSoak.Lib
