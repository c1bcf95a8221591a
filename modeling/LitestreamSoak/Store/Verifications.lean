import LitestreamSoak.Store.FailureClassifications
import LitestreamSoak.Store.Workers

/-!
# Store — the verifications of a worker

The rows of `verifications` that `internal/model/verifications.go` writes and lists, for one worker.
The rows stand in the order they were recorded in; a listing is newest first by the start of the
verification, and of two that started at one time the one recorded first comes first, as the index
on the worker and the start gives them.

Times are in nanoseconds since the zero time.
-/

namespace LitestreamSoak.Store.Verifications

open Lib Reporting List
open Store.Workers (WorkerIdentity)

/-! ## §1 — rows -/

structure Verification where
  run : WorkerIdentity := {}
  attributed : Bool := false
  startedAt : Int := 0
  /-- Neither NULL nor the zero time. -/
  completedAt : Option Int := none
  status : Text := []
  checkType : Text := []
  passed : Bool := false
  errorMessage : Text := []
  classification : Option FailureClassification := none
  restoreMode : Text := []
deriving DecidableEq

def Verification.aborted (v : Verification) : Bool :=
  equalFold (trimSpace v.status) (text "aborted")

def Verification.pending (v : Verification) : Bool :=
  equalFold (trimSpace v.status) (text "pending")

def Verification.inconclusive (v : Verification) : Bool := v.aborted || v.pending

def Verification.failed (v : Verification) : Bool :=
  !v.inconclusive && (!v.passed || equalFold (trimSpace v.status) (text "failed"))

/-- `FailureClassification` as a listing has it. -/
def Verification.failureClassification (v : Verification) : Option FailureClassification :=
  v.classification.bind FailureClassifications.readBack

/-- The time `verificationsSince` and `detectDormancyCandidate` go by. -/
def Verification.observedAt (v : Verification) : Int := v.completedAt.getD v.startedAt

/-! ## §2 — listings -/

variable {rows : List Verification}

def newer (a b : Verification) : Prop := b.startedAt < a.startedAt

instance : DecidableRel newer := fun a b => inferInstanceAs (Decidable (b.startedAt < a.startedAt))

def newestFirst (rows : List Verification) : List Verification :=
  rows.foldl (fun listed v => listed.orderedInsert newer v) []

def listVerifications (rows : List Verification) (limit : Nat) : List Verification :=
  (newestFirst rows).take limit

theorem newestFirst_append (rows : List Verification) (v : Verification) :
    newestFirst (rows ++ [v]) = (newestFirst rows).orderedInsert newer v := by
  rw [newestFirst, foldl_append]
  rfl

theorem orderedInsert_eq_append {v : Verification}
    (h : ∀ row ∈ rows, v.startedAt ≤ row.startedAt) :
    rows.orderedInsert newer v = rows ++ [v] := by
  induction rows with
  | nil => rfl
  | cons row rows ih =>
    have hrow : ¬ newer v row := not_lt.mpr (h row mem_cons_self)
    rw [orderedInsert, if_neg hrow, ih fun row hmem => h row (mem_cons_of_mem _ hmem)]
    rfl

/-- **Rows recorded newest first** are listed as they stand. -/
theorem newestFirst_of_pairwise
    (h : rows.Pairwise fun a b => b.startedAt ≤ a.startedAt) : newestFirst rows = rows := by
  induction rows using reverseRecOn with
  | nil => rfl
  | append_singleton rows v ih =>
    obtain ⟨hrows, -, hlast⟩ := pairwise_append.mp h
    rw [newestFirst_append, ih hrows]
    exact orderedInsert_eq_append fun row hrow => hlast row hrow v (mem_singleton_self v)

/-- **A verification newer than all others** is listed first. -/
theorem newestFirst_append_newest {v : Verification}
    (h : rows.Pairwise fun a b => b.startedAt ≤ a.startedAt) (hnew : ∀ row ∈ rows, newer v row) :
    newestFirst (rows ++ [v]) = v :: rows := by
  rw [newestFirst_append, newestFirst_of_pairwise h]
  cases rows with
  | nil => rfl
  | cons row rows => exact if_pos (hnew row mem_cons_self)

/-- **Verifications recorded in the order they started in** are listed the other way round. -/
theorem newestFirst_of_increasing
    (h : rows.Pairwise fun a b => a.startedAt < b.startedAt) : newestFirst rows = rows.reverse := by
  induction rows using reverseRecOn with
  | nil => rfl
  | append_singleton rows v ih =>
    obtain ⟨hrows, -, hlast⟩ := pairwise_append.mp h
    rw [newestFirst_append, ih hrows, reverse_append, reverse_singleton,
      singleton_append]
    cases hlisted : rows.reverse with
    | nil => rfl
    | cons row listed =>
      have hmem : row ∈ rows := by
        rw [← mem_reverse, hlisted]
        exact mem_cons_self
      exact if_pos (hlast row hmem v (mem_singleton_self v))

end LitestreamSoak.Store.Verifications
