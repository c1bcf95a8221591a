import Mathlib

/-!
# Lib — loops that stop at the first bad element

A loop goes through a list with a state that every element updates, and stops at the first element
that does not pass a test against the state. `passed` counts the elements before that one.
-/

namespace LitestreamSoak.Lib

variable {σ α : Type} {next : σ → α → σ} {ok : σ → α → Bool}

def passed (next : σ → α → σ) (ok : σ → α → Bool) : σ → List α → Nat
  | _, [] => 0
  | s, a :: l => if ok s a then passed next ok (next s a) l + 1 else 0

end LitestreamSoak.Lib
