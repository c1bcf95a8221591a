import Mathlib

/-!
# Lib — procedures with early exits and deferred cleanups

A procedure runs on a state and returns or fails; either way it leaves a state, so what it did
before it failed is not lost. A deferred cleanup sees the outcome and the state of the body it is
deferred in, whichever way the body ended.

* **`Ensures P x Q E`** — from a state with `P`, procedure `x` returns with `Q` or fails with `E`.
  One rule per way of building a procedure; the rule for a deferred cleanup takes what the body
  ensures on both exits.
* **`Preserves I x`** — the special case in which one property of the state holds before and after,
  closed under everything a procedure is built from.
-/

namespace LitestreamSoak.Lib

theorem exists_of_bind_eq_ok {ε α β : Type} {x : Except ε α} {f : α → Except ε β} {b : β}
    (h : x >>= f = .ok b) : ∃ a, x = .ok a ∧ f a = .ok b := by
  cases x with
  | error e => cases h
  | ok a => exact ⟨a, rfl, h⟩

/-- A procedure over states `σ` that returns an `α` or fails with an `ε`. -/
def Proc (σ ε α : Type) : Type := σ → Except ε α × σ

namespace Proc

variable {σ ε α β : Type}

instance : Monad (Proc σ ε) where
  pure a := fun s => (.ok a, s)
  bind x f := fun s =>
    match x s with
    | (.ok a, s') => f a s'
    | (.error e, s') => (.error e, s')

def fail (e : ε) : Proc σ ε α := fun s => (.error e, s)

def get : Proc σ ε σ := fun s => (.ok s, s)

def update (f : σ → σ) : Proc σ ε Unit := fun s => (.ok (), f s)

def require (b : Bool) (e : ε) : Proc σ ε Unit := if b then pure () else fail e

def expect (o : Option α) (e : ε) : Proc σ ε α :=
  match o with
  | some a => pure a
  | none => fail e

/-- Run the body, then the cleanup on its outcome; the cleanup has the last word. -/
def deferring (cleanup : Except ε α → σ → Except ε α × σ) (body : Proc σ ε α) : Proc σ ε α :=
  fun s =>
    match body s with
    | (r, s') => cleanup r s'

def catching (body : Proc σ ε α) (handler : ε → Proc σ ε α) : Proc σ ε α :=
  fun s =>
    match body s with
    | (.ok a, s') => (.ok a, s')
    | (.error e, s') => handler e s'

/-- Run the step on each element until it says that the loop is over; `late` if it never does. -/
def loopUntil (step : β → Proc σ ε Bool) (late : Proc σ ε Unit) : List β → Proc σ ε Unit
  | [] => late
  | b :: bs => do
    let ended ← step b
    if ended then pure () else loopUntil step late bs

/-! ## §1 — pre- and postconditions -/

/-- From `P` the procedure returns with `Q` or fails with `E`. -/
def Ensures (P : σ → Prop) (x : Proc σ ε α) (Q : α → σ → Prop) (E : ε → σ → Prop) : Prop :=
  ∀ s, P s → match x s with
    | (.ok a, s') => Q a s'
    | (.error e, s') => E e s'

namespace Ensures

variable {P P' : σ → Prop} {Q Q' : α → σ → Prop} {E E' : ε → σ → Prop} {x : Proc σ ε α}

theorem imp (h : Ensures P x Q E) (hP : ∀ s, P' s → P s) (hQ : ∀ a s, Q a s → Q' a s)
    (hE : ∀ e s, E e s → E' e s) : Ensures P' x Q' E' := by
  grind [Proc.Ensures]

theorem imp_error (h : Ensures P x Q E) (hE : ∀ e s, E e s → E' e s) : Ensures P x Q E' :=
  h.imp (fun _ h => h) (fun _ _ h => h) hE

theorem pure {a : α} (h : ∀ s, P s → Q a s) : Ensures P (pure a : Proc σ ε α) Q E := h

theorem fail {e : ε} (h : ∀ s, P s → E e s) : Ensures P (fail e : Proc σ ε α) Q E := h

theorem update {f : σ → σ} {Q : Unit → σ → Prop} (h : ∀ s, P s → Q () (f s)) :
    Ensures P (update f : Proc σ ε Unit) Q E := h

theorem bind {f : α → Proc σ ε β} {R : β → σ → Prop} (hx : Ensures P x Q E)
    (hf : ∀ a, Ensures (Q a) (f a) R E) : Ensures P (x >>= f) R E := by
  intro s hs
  have hx := hx s hs
  show match (match x s with
      | (.ok a, s') => f a s'
      | (.error e, s') => (.error e, s')) with
    | (.ok a, s') => R a s'
    | (.error e, s') => E e s'
  match x s, hx with
  | (.ok a, s'), hx => exact hf a s' hx
  | (.error e, s'), hx => exact hx

theorem get_bind {f : σ → Proc σ ε β} {R : β → σ → Prop}
    (hf : ∀ w, Ensures (fun s => P s ∧ s = w) (f w) R E) : Ensures P (get >>= f) R E :=
  fun s hs => hf s s ⟨hs, rfl⟩

theorem bind_keep {f : α → Proc σ ε β} {R : β → σ → Prop} (hx : Ensures P x (fun _ => P) E)
    (hf : ∀ a, Ensures P (f a) R E) : Ensures P (x >>= f) R E := hx.bind hf

theorem update_bind (M : σ → Prop) {f : σ → σ} {k : Unit → Proc σ ε β} {R : β → σ → Prop}
    (hf : ∀ s, P s → M (f s)) (hk : Ensures M (k ()) R E) :
    Ensures P (Proc.update f >>= k) R E :=
  bind (Q := fun _ => M) hf fun _ => hk

theorem require_bind {b : Bool} {e : ε} {k : Unit → Proc σ ε β} {R : β → σ → Prop}
    (herr : ∀ s, P s → E e s) (hk : b = true → Ensures P (k ()) R E) :
    Ensures P (Proc.require b e >>= k) R E := by
  cases b with
  | true => exact hk rfl
  | false => exact herr

theorem expect_bind {o : Option α} {e : ε} {k : α → Proc σ ε β} {R : β → σ → Prop}
    (herr : ∀ s, P s → E e s) (hk : ∀ a, o = some a → Ensures P (k a) R E) :
    Ensures P (Proc.expect o e >>= k) R E := by
  cases o with
  | some a => exact hk a rfl
  | none => exact herr

theorem ite {c : Prop} [Decidable c] {y : Proc σ ε α}
    (hx : c → Ensures P x Q E) (hy : ¬ c → Ensures P y Q E) :
    Ensures P (if c then x else y) Q E := by
  by_cases hc : c
  · simpa [hc] using hx hc
  · simpa [hc] using hy hc

/-- **The rule for a deferred cleanup.** -/
theorem deferring {cleanup : Except ε α → σ → Except ε α × σ} (hx : Ensures P x Q E)
    (hok : ∀ a s, Q a s → match cleanup (.ok a) s with
      | (.ok a', s') => Q' a' s'
      | (.error e, s') => E' e s')
    (herr : ∀ e s, E e s → match cleanup (.error e) s with
      | (.ok a, s') => Q' a s'
      | (.error e', s') => E' e' s') : Ensures P (deferring cleanup x) Q' E' := by
  grind [Proc.deferring, Proc.Ensures]

theorem deferring_always {J K : σ → Prop} {cleanup : Except ε α → σ → Except ε α × σ}
    (hx : Ensures P x (fun _ => J) fun _ => J) (hcleanup : ∀ r s, J s → K (cleanup r s).2) :
    Ensures P (Proc.deferring cleanup x) (fun _ => K) fun _ => K := by
  have hany : ∀ r s, J s → match cleanup r s with
      | (.ok _, s') => K s'
      | (.error _, s') => K s' := by
    intro r s hs
    have hK := hcleanup r s hs
    match cleanup r s, hK with
    | (.ok _, s'), hK => exact hK
    | (.error _, s'), hK => exact hK
  exact hx.deferring (fun a s hs => hany (.ok a) s hs) fun e s hs => hany (.error e) s hs

theorem catching {handler : ε → Proc σ ε α} (hx : Ensures P x Q E)
    (hhandler : ∀ e, Ensures (E e) (handler e) Q E') : Ensures P (catching x handler) Q E' := by
  grind [Proc.catching, Proc.Ensures]

/-- **The rule for loops**: an invariant that each round keeps as long as the loop is not over. -/
theorem loopUntil {step : β → Proc σ ε Bool} {late : Proc σ ε Unit} {Q : Unit → σ → Prop}
    (bs : List β)
    (hstep : ∀ b ∈ bs, Ensures P (step b) (fun ended s => if ended then Q () s else P s) E)
    (hlate : Ensures P late Q E) : Ensures P (loopUntil step late bs) Q E := by
  induction bs with
  | nil => exact hlate
  | cons b bs ih => grind [Proc.Ensures.bind, Proc.Ensures.pure, Proc.Ensures, Proc.loopUntil]

theorem loopUntil_keep {step : β → Proc σ ε Bool} {late : Proc σ ε Unit} (bs : List β)
    (hstep : ∀ b, Ensures P (step b) (fun _ => P) E) (hlate : Ensures P late (fun _ => P) E) :
    Ensures P (Proc.loopUntil step late bs) (fun _ => P) E :=
  loopUntil bs (fun b _ => (hstep b).imp (fun _ h => h)
    (fun ended _ h => by cases ended <;> exact h)
    fun _ _ h => h) hlate

end Ensures

/-! ## §2 — what every exit keeps -/

/-- `I` holds after the procedure, however it ended, if it held before. -/
def Preserves (I : σ → Prop) (x : Proc σ ε α) : Prop := Ensures I x (fun _ => I) (fun _ => I)

namespace Preserves

variable {I : σ → Prop} {x : Proc σ ε α}

theorem pure (a : α) : Preserves I (pure a : Proc σ ε α) := Ensures.pure fun _ h => h

theorem fail (e : ε) : Preserves I (fail e : Proc σ ε α) := Ensures.fail fun _ h => h

theorem update {f : σ → σ} (h : ∀ s, I s → I (f s)) : Preserves I (update f : Proc σ ε Unit) := h

theorem bind {f : α → Proc σ ε β} (hx : Preserves I x) (hf : ∀ a, Preserves I (f a)) :
    Preserves I (x >>= f) := Ensures.bind hx hf

theorem get : Preserves I (get : Proc σ ε σ) := fun _ h => h

theorem require (b : Bool) (e : ε) : Preserves I (require b e) := by
  cases b <;> exact fun _ h => h

theorem expect (o : Option α) (e : ε) : Preserves I (expect o e) := by
  cases o <;> exact fun _ h => h

theorem ite {c : Prop} [Decidable c] {y : Proc σ ε α} (hx : Preserves I x) (hy : Preserves I y) :
    Preserves I (if c then x else y) := Ensures.ite (fun _ => hx) fun _ => hy

theorem catching {handler : ε → Proc σ ε α} (hx : Preserves I x)
    (hhandler : ∀ e, Preserves I (handler e)) : Preserves I (catching x handler) :=
  Ensures.catching hx hhandler

theorem loopUntil {step : β → Proc σ ε Bool} {late : Proc σ ε Unit} (bs : List β)
    (hstep : ∀ b, Preserves I (step b)) (hlate : Preserves I late) :
    Preserves I (loopUntil step late bs) := Ensures.loopUntil_keep bs hstep hlate

end Preserves

end Proc

end LitestreamSoak.Lib
