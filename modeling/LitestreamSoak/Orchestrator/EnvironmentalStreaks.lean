import LitestreamSoak.Lib.Streak
import LitestreamSoak.Orchestrator.Reports

/-!
# Orchestrator — the walkers of environmental streaks

`internal/orchestrator/envfailure.go` goes through a worker's verifications in three places to see
whether failures of the object store have piled up: at ingest, newest first
(`environmentalStreak` of `Reports`), and twice later, oldest first, for the lifecycle checks and
for the dashboard. The two later walkers are one loop here, `streakIDs`; they differ in how a row is
classified and in which failures they list.

Rows carry the id the store gave them. `sort.Slice` fixes no order of rows with one start time;
where all differ, there is only one order.

A classifier that panics takes the walker down: `none`.
-/

namespace LitestreamSoak.Orchestrator.EnvironmentalStreaks

open Lib Reporting List
open Store.Verifications
open Orchestrator.Reports

/-! ## §1 — rows in order -/

structure Row extends Verification where
  id : Nat
deriving DecidableEq

def oldestFirst (rows : List Row) : List Row :=
  rows.insertionSort fun a b => a.startedAt ≤ b.startedAt

abbrev Increasing (rows : List Row) : Prop := rows.Pairwise fun a b => a.startedAt < b.startedAt

theorem pairwise_oldestFirst (rows : List Row) :
    (oldestFirst rows).Pairwise fun a b => a.startedAt ≤ b.startedAt := by
  have htotal : Std.Total fun a b : Row => a.startedAt ≤ b.startedAt :=
    ⟨fun a b => le_total a.startedAt b.startedAt⟩
  have htrans : IsTrans Row fun a b => a.startedAt ≤ b.startedAt :=
    ⟨fun _ _ _ hab hbc => le_trans hab hbc⟩
  exact pairwise_insertionSort _ rows

/-- **However rows were listed**, they are gone through in the order they started in. -/
theorem oldestFirst_eq {listed rows : List Row} (hlisted : listed.Perm rows)
    (h : Increasing rows) : oldestFirst listed = rows := by
  have hperm : (oldestFirst listed).Perm rows := (perm_insertionSort _ listed).trans hlisted
  have hinj := inj_on_of_nodup_map
    (pairwise_map.mpr (h.imp fun hlt => ne_of_lt hlt) : (rows.map (·.startedAt)).Nodup)
  refine List.Perm.eq_of_pairwise (fun a b ha hb hab hba => ?_)
    (pairwise_oldestFirst listed) (h.imp le_of_lt) hperm
  exact hinj (hperm.subset ha) hb (le_antisymm hab hba)

/-! ## §2 — the two walkers that go oldest first -/

def classifyFailureMessage (v : Verification) : Option FailureClassification :=
  classifyVerificationFailure v.checkType v.errorMessage

section Walk

variable (policy : EnvironmentalFailurePolicy)
  (classify : Verification → Option FailureClassification) (lists : Nat → Bool)

/-- The loop of both walkers, from a streak of `count` on; `lists` tells which lengths of a streak
put a failure on the list. -/
def streakIDs : Nat → List Row → Option (List Nat)
  | _, [] => some []
  | count, v :: rest =>
    if v.inconclusive then streakIDs count rest
    else if !v.failed then streakIDs 0 rest
    else (classify v.toVerification).bind fun c =>
      if !isTransientObjectStoreFailure policy c then streakIDs 0 rest
      else (streakIDs (count + 1) rest).map fun ids =>
        if lists (count + 1) then v.id :: ids else ids

def transientFailure (v : Verification) : Bool :=
  v.failed && (classify v).any (isTransientObjectStoreFailure policy)

end Walk

def environmentalVerificationIDs (policy : EnvironmentalFailurePolicy) (rows : List Row) :
    Option (List Nat) :=
  streakIDs policy classifyVerification (· ≤ policy.consecutive) 0 (oldestFirst rows)

/-- The outer loop of `escalatedEnvironmentalStatIDs`, over the workers. -/
def workerIDs (walk : Text → Option (List Nat)) : List Text → Option (List Nat)
  | [] => some []
  | worker :: workers => (walk worker).bind fun ids => (workerIDs walk workers).map (ids ++ ·)

def escalatedEnvironmentalStatIDs (policy : EnvironmentalFailurePolicy) (stats : List Row) :
    Option (List Nat) :=
  workerIDs (fun worker => streakIDs policy classifyFailureMessage (policy.consecutive < ·) 0
    (oldestFirst (stats.filter (·.run.workerID = worker)))) (stats.map (·.run.workerID)).dedup

/-! ## §3 — what the loop lists -/

section Spec

variable {policy : EnvironmentalFailurePolicy}
  {classify : Verification → Option FailureClassification} {lists : Nat → Bool} {v : Row}
  {rows : List Row}

abbrev rowStreak (policy : EnvironmentalFailurePolicy)
    (classify : Verification → Option FailureClassification) (rows : List Row) : Nat :=
  streak (fun v => v.inconclusive) (fun v => transientFailure policy classify v.toVerification) rows

theorem inconclusive_of_failed {v : Verification} (h : v.failed = true) :
    v.inconclusive = false := by
  rw [Verification.failed, Bool.and_eq_true, Bool.not_eq_true'] at h
  exact h.1

theorem failed_of_transient {v : Verification} (h : transientFailure policy classify v = true) :
    v.failed = true := by
  rw [transientFailure, Bool.and_eq_true] at h
  exact h.1

theorem rowStreak_cons_inconclusive (rows : List Row) (h : v.inconclusive = true) :
    rowStreak policy classify (v :: rows) = rowStreak policy classify rows :=
  streak_cons_neutral h

theorem rowStreak_cons_transient (rows : List Row)
    (h : transientFailure policy classify v.toVerification = true) :
    rowStreak policy classify (v :: rows) = rowStreak policy classify rows + 1 :=
  streak_cons_hit (inconclusive_of_failed (failed_of_transient h)) h

theorem rowStreak_cons_other (rows : List Row) (hinc : v.inconclusive = false)
    (h : transientFailure policy classify v.toVerification = false) :
    rowStreak policy classify (v :: rows) = 0 :=
  streak_cons_miss hinc h

/-- **The loop ends** when every failure it meets can be classified. -/
theorem streakIDs_isSome_iff {count : Nat} :
    (streakIDs policy classify lists count rows).isSome = true ↔
      ∀ v ∈ rows, v.failed = true → (classify v.toVerification).isSome = true := by
  induction rows generalizing count with
  | nil => simp [streakIDs]
  | cons v rows ih =>
    rw [streakIDs, forall_mem_cons]
    cases hinc : v.inconclusive with
    | true => grind [inconclusive_of_failed]
    | false =>
      rw [if_neg Bool.false_ne_true]
      cases hfailed : v.failed with
      | false =>
        rw [Bool.not_false, if_pos rfl, ih]
        simp
      | true =>
        rw [Bool.not_true, if_neg Bool.false_ne_true]
        cases hc : classify v.toVerification with
        | none => simp
        | some c =>
          rw [Option.bind_some]
          grind

theorem exists_place_cons {P : Row → List Row → Prop} {before : List Row} :
    (∃ i w, (v :: rows)[i]? = some w ∧ P w (((v :: rows).take (i + 1)).reverse ++ before)) ↔
      P v (v :: before) ∨
        ∃ i w, rows[i]? = some w ∧ P w ((rows.take (i + 1)).reverse ++ v :: before) := by
  constructor
  · grind
  · rintro (hP | ⟨i, w, hw, hP⟩)
    · exact ⟨0, v, rfl, hP⟩
    · refine ⟨i + 1, w, hw, ?_⟩
      rw [take_succ_cons, reverse_cons, append_assoc]
      exact hP

/-- **What the loop lists**: the transient failures at which the streak has a length to list. -/
theorem mem_streakIDs (before : List Row) {ids : List Nat} {id : Nat}
    (h : streakIDs policy classify lists (rowStreak policy classify before) rows = some ids) :
    id ∈ ids ↔ ∃ i w, rows[i]? = some w ∧
      (w.id = id ∧ transientFailure policy classify w.toVerification = true ∧
        lists (rowStreak policy classify ((rows.take (i + 1)).reverse ++ before)) = true) := by
  induction rows generalizing before ids with
  | nil =>
    obtain rfl := Option.some.inj h
    simp
  | cons v rows ih =>
    rw [exists_place_cons (P := fun w seen => w.id = id ∧
      transientFailure policy classify w.toVerification = true ∧
        lists (rowStreak policy classify seen) = true)]
    rw [streakIDs] at h
    -- the counter behind the row is the streak with the row in front
    cases hinc : v.inconclusive with
    | true =>
      have hmiss : transientFailure policy classify v.toVerification ≠ true := by
        intro hhit
        rw [inconclusive_of_failed (failed_of_transient hhit)] at hinc
        cases hinc
      rw [hinc, if_pos rfl, ← rowStreak_cons_inconclusive before hinc] at h
      rw [ih _ h]
      simp [hmiss]
    | false =>
      rw [hinc, if_neg Bool.false_ne_true] at h
      cases hfailed : v.failed with
      | false =>
        have hmiss : transientFailure policy classify v.toVerification = false := by
          simp [transientFailure, hfailed]
        rw [hfailed, Bool.not_false, if_pos rfl, ← rowStreak_cons_other before hinc hmiss] at h
        rw [ih _ h]
        simp [hmiss]
      | true =>
        rw [hfailed, Bool.not_true, if_neg Bool.false_ne_true] at h
        obtain ⟨c, hc, h⟩ := Option.bind_eq_some_iff.mp h
        cases hweather : isTransientObjectStoreFailure policy c with
        | false => grind [transientFailure, rowStreak_cons_other]
        | true =>
          have hhit : transientFailure policy classify v.toVerification = true := by
            simp [transientFailure, hfailed, hc, hweather]
          rw [hweather, Bool.not_true, if_neg Bool.false_ne_true,
            ← rowStreak_cons_transient before hhit] at h
          obtain ⟨rest, hrest, rfl⟩ := Option.map_eq_some_iff.mp h
          grind

end Spec

end LitestreamSoak.Orchestrator.EnvironmentalStreaks
