import LitestreamSoak.Orchestrator.WorkerStates

/-!
# Orchestrator — inactive statuses are sticky

Two writes use a status that was read earlier, and each needs a fact about the time since:

* the failed cleanup of a destroy writes the status `destroyWorker` read under the worker's lock.
  Everybody who makes a worker inactive holds that lock, so the row is inactive exactly if the copy
  is (`Inv.destroying`);
* the monitor writes `degraded` to the workers it listed. It holds no lock, so the rows it listed
  stay active only as long as nobody makes one of them inactive (`Inv.listed`, `undisturbed`).

Every other statement tests the stored status or makes the row inactive itself.
-/

namespace LitestreamSoak.Orchestrator.WorkerStates

open Lib Store.Workers Function
open Gate (WorkerStatus)

/-! ## §1 — rows -/

variable {id other : Text} {s : State}

/-- The worker is stopped, failed or dormant. -/
def State.inactiveRow (s : State) (id : Text) : Bool :=
  (s.workers id).any fun w => inactive w.status

@[simp] theorem inactiveRow_goto (s : State) (id other : Text) (pc : LockedPC) :
    (s.goto id pc).inactiveRow other = s.inactiveRow other := rfl

theorem workers_write_self (s : State) (id : Text)
    (f : Store.Workers.Worker → Store.Workers.Worker) :
    (s.write id f).workers id = (s.workers id).map f := update_self ..

theorem workers_write_of_ne (hne : other ≠ id)
    (f : Store.Workers.Worker → Store.Workers.Worker) :
    (s.write id f).workers other = s.workers other :=
  update_of_ne hne ..

theorem workers_upsert_self (s : State) (id : Text)
    (f : Option Store.Workers.Worker → Store.Workers.Worker) :
    (s.upsert id f).workers id = some (f (s.workers id)) := update_self ..

theorem workers_upsert_of_ne (hne : other ≠ id)
    (f : Option Store.Workers.Worker → Store.Workers.Worker) :
    (s.upsert id f).workers other = s.workers other :=
  update_of_ne hne ..

theorem inactiveRow_write {f : Store.Workers.Worker → Store.Workers.Worker}
    (hf : ∀ w, s.workers id = some w → inactive (f w).status = inactive w.status) (other : Text) :
    (s.write id f).inactiveRow other = s.inactiveRow other := by
  by_cases hother : other = id
  · rw [hother]
    unfold State.inactiveRow
    rw [workers_write_self]
    cases hw : s.workers id with
    | none => rfl
    | some w => exact hf w hw
  · unfold State.inactiveRow
    rw [workers_write_of_ne hother]

theorem inactiveRow_write_active {f : Store.Workers.Worker → Store.Workers.Worker}
    (hf : ∀ w, inactive (f w).status = false) : (s.write id f).inactiveRow id = false := by
  unfold State.inactiveRow
  rw [workers_write_self]
  cases s.workers id with
  | none => rfl
  | some w => exact hf w

theorem inactiveRow_upsert_self {f : Option Store.Workers.Worker → Store.Workers.Worker} :
    (s.upsert id f).inactiveRow id = inactive (f (s.workers id)).status := by
  unfold State.inactiveRow
  rw [workers_upsert_self]
  rfl

/-! ## §2 — statements that look -/

theorem inactiveRow_report (s : State) (now : Int) (id : Text)
    (identity : Store.Workers.WorkerIdentity)
    (kind : ReportKind) (other : Text) :
    (s.upsert id (upsertReport now identity kind)).inactiveRow other = s.inactiveRow other := by
  by_cases hother : other = id
  · rw [hother, inactiveRow_upsert_self]
    unfold State.inactiveRow
    cases s.workers id with
    | none => cases kind <;> rfl
    | some w =>
      show _ = inactive w.status
      have hstatus : ∀ reported failed, inactive reported = false →
          inactive (reportedStatus reported failed w) = inactive w.status := by
        intro reported failed hreported
        cases hin : inactive w.status with
        | true => rw [reportedStatus_of_inactive hin, hin]
        | false => grind [reportedStatus, inactive]
      cases kind with
      | running => exact hstatus .running false rfl
      | starting => exact hstatus .starting false rfl
      | failed => exact hstatus .starting true rfl
  · unfold State.inactiveRow
    rw [workers_upsert_of_ne hother]

theorem inactiveRow_verification (s : State) (now : Int) (id : Text) (passed : Bool)
    (summary : Text) (other : Text) :
    (s.write id (updateWorkerVerificationState now passed summary)).inactiveRow other =
      s.inactiveRow other := by
  refine inactiveRow_write (fun w _ => ?_) other
  grind [updateWorkerVerificationState, inactive]

theorem inactiveRow_complete (s : State) (now : Int) (id m v g l other : Text) :
    (s.write id (Store.Workers.completeProvisioning now m v g l)).inactiveRow other =
      s.inactiveRow other := by
  refine inactiveRow_write (fun w _ => ?_) other
  cases hin : inactive w.status with
  | true => rw [completeProvisioning_of_inactive hin, hin]
  | false =>
    unfold Store.Workers.completeProvisioning
    split
    · rfl
    · exact hin

/-! ## §3 — the invariant -/

variable {s' : State}

/-- The step makes the worker inactive. -/
def settles : LockedPC → Outcome → Bool
  | .destroying _, .ok | .retaining _, .ok | .stopping, .ok | .dormant, .mark .. => true
  | _, _ => false

/-- The step may make it active again. -/
def revives : LockedPC → Outcome → Bool
  | .resuming, .mark .. | .resuming, .create _ | .creating, .create _
  | .provisioning true, .mark .. => true
  | _, _ => false

/-- A listed worker is active, and a destroy knows the status it has read. -/
structure Inv (s : State) : Prop where
  listed : ∀ id ∈ s.todo, s.inactiveRow id = false
  destroying : ∀ id read, s.locked id = .destroying read →
    s.inactiveRow id = inactive read.status

theorem Inv.of_same (h : Inv s) (htodo : ∀ id ∈ s'.todo, id ∈ s.todo)
    (hlocked : s'.locked = s.locked) (hrows : ∀ id, s'.inactiveRow id = s.inactiveRow id) :
    Inv s' where
  listed id hid := (hrows id).trans (h.listed id (htodo id hid))
  destroying id read hpc := by
    rw [hrows id]
    exact h.destroying id read (by rw [← hlocked, hpc])

theorem locked_goto_self (s : State) (id : Text) (pc : LockedPC) :
    (s.goto id pc).locked id = pc := update_self ..

theorem locked_goto_of_ne (hne : other ≠ id) (pc : LockedPC) :
    (s.goto id pc).locked other = s.locked other := update_of_ne hne ..

theorem Inv.goto (h : Inv s) {pc : LockedPC}
    (htodo : s'.todo = s.todo) (hlocked : s'.locked = s.locked)
    (hother : ∀ other, other ≠ id → s'.inactiveRow other = s.inactiveRow other)
    (hrow : id ∈ s.todo → s'.inactiveRow id = false)
    (hpc : ∀ read, pc = .destroying read → s'.inactiveRow id = inactive read.status) :
    Inv (s'.goto id pc) where
  listed other hmem := by
    have hmem' : other ∈ s.todo := htodo ▸ hmem
    rw [inactiveRow_goto]
    by_cases hne : other = id
    · rw [hne]
      exact hrow (hne ▸ hmem')
    · rw [hother other hne]
      exact h.listed other hmem'
  destroying other read hread := by
    rw [inactiveRow_goto]
    by_cases hne : other = id
    · rw [hne, locked_goto_self] at hread
      rw [hne]
      exact hpc read hread
    · grind [locked_goto_of_ne, Inv.destroying]

theorem Inv.goto_same (h : Inv s) {pc : LockedPC}
    (hpc : ∀ read, pc = .destroying read → s.inactiveRow id = inactive read.status) :
    Inv (s.goto id pc) :=
  h.goto rfl rfl (fun _ _ => rfl) (h.listed id) hpc

theorem lockStep_cases {call : Call}
    (hstep : lockStep s id call = some s') : s' = s ∨ ∃ pc, s' = s.goto id pc ∧
      ∀ read, pc = .destroying read → s.workers id = some read := by
  unfold lockStep at hstep
  split at hstep
  · cases hw : s.workers id with
    | none => grind
    | some w =>
      cases call <;> simp only [hw] at hstep
      case destroy =>
        cases hstep
        refine .inr ⟨_, rfl, fun read hread => ?_⟩
        split at hread
        · exact nomatch hread
        · injection hread with hread
          rw [hread]
      case stop =>
        cases hstep
        exact .inr ⟨_, rfl, fun read hread => nomatch hread⟩
      case hold =>
        cases hstep
        exact .inr ⟨_, rfl, fun read hread => nomatch hread⟩
      all_goals
        split at hstep
        · cases hstep
          exact .inl rfl
        · cases hstep
          exact .inr ⟨_, rfl, fun read hread => nomatch hread⟩
  · exact nomatch hstep

theorem inv_lockStep {call : Call} (h : Inv s) (hstep : lockStep s id call = some s') : Inv s' := by
  grind [lockStep_cases, Inv.goto_same, State.inactiveRow]

theorem inactiveRow_write_other (hne : other ≠ id)
    (f : Store.Workers.Worker → Store.Workers.Worker) :
    (s.write id f).inactiveRow other = s.inactiveRow other := by
  unfold State.inactiveRow
  rw [workers_write_of_ne hne]

theorem inactiveRow_upsert_other (hne : other ≠ id)
    (f : Option Store.Workers.Worker → Store.Workers.Worker) :
    (s.upsert id f).inactiveRow other = s.inactiveRow other := by
  unfold State.inactiveRow
  rw [workers_upsert_of_ne hne]

/-! ## §4 — the statements of a lock holder -/

variable {out : Outcome} {now : Int}

inductive LockedEffect (s : State) (id : Text) (out : Outcome) : State → Prop where
  | none (pc : LockedPC) (hpc : ∀ read, pc ≠ .destroying read) :
      LockedEffect s id out (s.goto id pc)
  | settle (f : Store.Workers.Worker → Store.Workers.Worker)
      (hf : ∀ w, inactive (f w).status = true)
      (hsettles : settles (s.locked id) out = true) :
      LockedEffect s id out ((s.write id f).goto id .free)
  | restore (read : Store.Workers.Worker) (f : Store.Workers.Worker → Store.Workers.Worker)
      (hpc : s.locked id = .destroying read)
      (hf : ∀ w, (f w).status = read.status) : LockedEffect s id out ((s.write id f).goto id .free)
  | revive (f : Store.Workers.Worker → Store.Workers.Worker)
      (hf : ∀ w, inactive (f w).status = false)
      (hrevives : revives (s.locked id) out = true) :
      LockedEffect s id out ((s.write id f).goto id .free)
  | create (f : Option Store.Workers.Worker → Store.Workers.Worker)
      (hf : ∀ w, inactive (f w).status = false) (resume : Bool)
      (hrevives : revives (s.locked id) out = true) :
      LockedEffect s id out ((s.upsert id f).goto id (.provisioning resume))
  | keep (f : Store.Workers.Worker → Store.Workers.Worker) (hf : ∀ w, (f w).status = w.status) :
      LockedEffect s id out ((s.write id f).goto id .free)

theorem createWorker_status (now : Int) (record : Store.Workers.Worker)
    (row : Option Store.Workers.Worker) :
    (createWorker now (newWorkerRecord record) row).status = .pending := by
  cases row <;> rfl

theorem lockedStep_effect
    (hstep : lockedStep s now id out = some s') : LockedEffect s id out s' := by
  have hfree : LockedEffect s id out (s.goto id .free) :=
    .none .free fun read hread => nomatch hread
  unfold lockedStep at hstep
  cases hpc : s.locked id with
  | free => simp only [hpc, reduceCtorEq] at hstep
  | destroying read =>
    cases out <;> simp only [hpc, reduceCtorEq] at hstep <;> cases hstep
    · exact .settle _ (fun _ => rfl) (by rw [hpc]; rfl)
    · exact .restore read _ hpc fun _ => rfl
    · exact hfree
  | retaining read =>
    cases out <;> simp only [hpc, reduceCtorEq] at hstep
    · split at hstep <;> cases hstep
      · exact hfree
      · exact .settle _ (fun _ => rfl) (by rw [hpc]; rfl)
    · cases hstep
      exact hfree
  | stopping =>
    cases out <;> simp only [hpc, reduceCtorEq] at hstep <;> cases hstep
    · exact .settle _ (fun _ => rfl) (by rw [hpc]; rfl)
    · exact hfree
  | dormant =>
    cases out <;> simp only [hpc, reduceCtorEq] at hstep <;> cases hstep
    · exact hfree
    · exact .settle _ (fun _ => rfl) (by rw [hpc]; rfl)
  | resuming =>
    cases out <;> simp only [hpc, reduceCtorEq] at hstep <;> cases hstep
    · exact hfree
    · exact .create _ (fun w => by rw [createWorker_status]; rfl) true (by rw [hpc]; rfl)
    · exact .revive _ (fun _ => rfl) (by rw [hpc]; rfl)
  | creating =>
    cases out <;> simp only [hpc, reduceCtorEq] at hstep <;> cases hstep
    · exact hfree
    · exact .create _ (fun w => by rw [createWorker_status]; rfl) false (by rw [hpc]; rfl)
  | provisioning resume =>
    cases resume <;> cases out <;> simp only [hpc, reduceCtorEq] at hstep <;> cases hstep
    · exact hfree
    · exact hfree
    · exact hfree
    · exact .revive _ (fun _ => rfl) (by rw [hpc]; rfl)
  | holding reason =>
    cases out <;> simp only [hpc, reduceCtorEq] at hstep <;> cases hstep
    · exact .keep _ fun _ => rfl
    · exact hfree

theorem inv_lockedStep (h : Inv s)
    (hok : settles (s.locked id) out = true → id ∉ s.todo)
    (hstep : lockedStep s now id out = some s') : Inv s' := by
  have hfree : ∀ {t : State} (read : Store.Workers.Worker), LockedPC.free = .destroying read →
      t.inactiveRow id = inactive read.status := fun _ hread => nomatch hread
  cases lockedStep_effect hstep with
  | none pc hpc => exact h.goto_same fun read hread => absurd hread (hpc read)
  | settle f hf hsettles =>
    exact h.goto rfl rfl (fun _ hne => inactiveRow_write_other hne f)
      (fun hmem => absurd hmem (hok hsettles)) hfree
  | restore read f hpc hf =>
    refine h.goto rfl rfl (fun _ hne => inactiveRow_write_other hne f) (fun hmem => ?_) hfree
    refine inactiveRow_write_active fun w => ?_
    rw [hf, ← h.destroying id read hpc]
    exact h.listed id hmem
  | revive f hf _ =>
    exact h.goto rfl rfl (fun _ hne => inactiveRow_write_other hne f)
      (fun _ => inactiveRow_write_active hf) hfree
  | create f hf resume _ =>
    refine h.goto rfl rfl (fun _ hne => inactiveRow_upsert_other hne f) (fun _ => ?_)
      fun read hread => nomatch hread
    rw [inactiveRow_upsert_self]
    exact hf _
  | keep f hf =>
    refine h.goto rfl rfl (fun _ hne => inactiveRow_write_other hne f) (fun hmem => ?_) hfree
    rw [inactiveRow_write fun w _ => by rw [hf]]
    exact h.listed id hmem

/-! ## §5 — runs -/

variable {ids : List Text}

/-- Nobody stops a worker, or marks it dormant, while the monitor has it on its list. -/
def undisturbed (s : State) : Int × Action → Prop
  | (_, .locked id out) => settles (s.locked id) out = true → id ∉ s.todo
  | _ => True

instance : ∀ s a, Decidable (undisturbed s a)
  | s, (_, .locked id out) =>
    inferInstanceAs (Decidable (settles (s.locked id) out = true → id ∉ s.todo))
  | _, (_, .report ..) | _, (_, .verification ..) | _, (_, .snapshot ..) | _, (_, .complete ..)
  | _, (_, .listStale _) | _, (_, .degradeNext _) | _, (_, .lock ..) =>
    inferInstanceAs (Decidable True)

/-- The step is a `CreateWorker` or a `MarkWorkerProbing` of this worker. -/
def Revives (s : State) (id : Text) : Int × Action → Prop
  | (_, .locked other out) => other = id ∧ revives (s.locked other) out = true
  | _ => False

theorem inactiveRow_degradeNext {ok : Bool} (h : Inv s)
    (hstep : degradeNext s now ok = some s') :
    (∀ id ∈ s'.todo, id ∈ s.todo) ∧ s'.locked = s.locked ∧
      ∀ id, s'.inactiveRow id = s.inactiveRow id := by
  unfold degradeNext at hstep
  split at hstep
  · exact nomatch hstep
  · next first rest htodo =>
    have hfirst : s.inactiveRow first = false := h.listed first (by simp [htodo])
    have hrest : ∀ id ∈ rest, id ∈ s.todo := fun id hid => by simp [htodo, hid]
    cases hstep
    split
    · refine ⟨hrest, rfl, fun id => ?_⟩
      grind [inactiveRow_write, State.inactiveRow, inactive, updateWorkerStatus]
    · exact ⟨hrest, rfl, fun _ => rfl⟩

theorem inactiveRow_snapshot (s : State) (now : Int) (id body : Text) (reportedAt : Option Int)
    (other : Text) :
    (s.write id (updateWorkerRuntimeSnapshot now body reportedAt)).inactiveRow other =
      s.inactiveRow other := by
  refine inactiveRow_write (fun w _ => ?_) other
  rfl

theorem inv_listStale {cutoff : Int} (h : Inv s)
    (hstep : listStale ids s cutoff = some s') : Inv s' := by
  unfold listStale at hstep
  split at hstep
  · cases hstep
    refine ⟨fun id hid => ?_, h.destroying⟩
    show s.inactiveRow id = false
    unfold State.inactiveRow
    cases hw : s.workers id with
    | none => rfl
    | some w => grind [inactive_of_stale]
  · exact nomatch hstep

/-- Every step keeps the invariant under the condition on the monitor. -/
theorem inv_step {a : Int × Action} (h : Inv s)
    (hok : undisturbed s a) (hstep : step ids s a = some s') : Inv s' := by
  obtain ⟨now, a⟩ := a
  cases a with
  | report id identity kind =>
    cases hstep
    exact h.of_same (fun _ hid => hid) rfl (inactiveRow_report s now id identity kind)
  | verification id passed summary =>
    cases hstep
    exact h.of_same (fun _ hid => hid) rfl (inactiveRow_verification s now id passed summary)
  | snapshot id body reportedAt =>
    cases hstep
    exact h.of_same (fun _ hid => hid) rfl (inactiveRow_snapshot s now id body reportedAt)
  | complete id m v g l =>
    cases hstep
    exact h.of_same (fun _ hid => hid) rfl (inactiveRow_complete s now id m v g l)
  | listStale cutoff => exact inv_listStale h hstep
  | degradeNext ok =>
    obtain ⟨htodo, hlocked, hrows⟩ := inactiveRow_degradeNext h hstep
    exact h.of_same htodo hlocked hrows
  | lock id call => exact inv_lockStep h hstep
  | locked id out => exact inv_lockedStep h hok hstep

/-- The invariant holds along every such run. -/
theorem inv_reaches (hs : (machine ids).Reaches undisturbed s) : Inv s := by
  refine hs.invariant ?_ ?_
  · rintro s ⟨htodo, hfree⟩
    refine ⟨fun id hid => ?_, fun id read hpc => ?_⟩
    · rw [htodo] at hid
      exact nomatch hid
    · rw [hfree id] at hpc
      exact nomatch hpc
  · intro s a s' h hok hstep
    exact inv_step h hok hstep

theorem inactiveRow_lockedStep (h : Inv s)
    (hstep : lockedStep s now id out = some s')
    (hin : s.inactiveRow other = true) (hno : ¬ (id = other ∧ revives (s.locked id) out = true)) :
    s'.inactiveRow other = true := by
  by_cases hne : other = id
  · subst hne
    -- a write of an existing row
    have hwrite : ∀ f : Store.Workers.Worker → Store.Workers.Worker,
        (∀ w, inactive w.status = true → inactive (f w).status = true) →
        (s.write other f).inactiveRow other = true := by
      intro f hf
      unfold State.inactiveRow at hin ⊢
      rw [workers_write_self]
      cases hw : s.workers other with
      | none => simp [hw] at hin
      | some w =>
        rw [hw] at hin
        exact hf w hin
    cases lockedStep_effect hstep with
    | none pc hpc => exact hin
    | settle f hf _ => exact hwrite f fun w _ => hf w
    | restore read f hpc hf =>
      refine hwrite f fun w _ => ?_
      rw [hf, ← h.destroying other read hpc]
      exact hin
    | revive f hf hrevives => exact absurd ⟨rfl, hrevives⟩ hno
    | create f hf resume hrevives => exact absurd ⟨rfl, hrevives⟩ hno
    | keep f hf => exact hwrite f fun w hw => by rw [hf, hw]
  · cases lockedStep_effect hstep with
    | none pc hpc => exact hin
    | settle f _ _ | restore _ f _ _ | revive f _ _ | keep f _ =>
      rw [inactiveRow_goto, inactiveRow_write_other hne]
      exact hin
    | create f _ _ _ =>
      rw [inactiveRow_goto, inactiveRow_upsert_other hne]
      exact hin

/-- **Inactive statuses are sticky.** In every run in which nobody stops a worker, or marks it
dormant, between the monitor's list of stale workers and its write, a worker that is stopped,
failed or dormant stays so under every step that is not its `CreateWorker` or
`MarkWorkerProbing`. -/
theorem inactive_sticky {ids : List Text} {s s' : State} {a : Int × Action}
    (hs : (machine ids).Reaches undisturbed s) (hok : undisturbed s a)
    (hstep : step ids s a = some s') {id : Text} (hin : s.inactiveRow id = true)
    (hno : ¬ Revives s id a) : s'.inactiveRow id = true := by
  have h := inv_reaches hs
  obtain ⟨now, a⟩ := a
  cases a with
  | report other identity kind =>
    cases hstep
    rw [inactiveRow_report]
    exact hin
  | verification other passed summary =>
    cases hstep
    rw [inactiveRow_verification]
    exact hin
  | snapshot other body reportedAt =>
    cases hstep
    rw [inactiveRow_snapshot]
    exact hin
  | complete other m v g l =>
    cases hstep
    rw [inactiveRow_complete]
    exact hin
  | listStale cutoff =>
    simp only [step, listStale] at hstep
    split at hstep
    · cases hstep
      exact hin
    · exact nomatch hstep
  | degradeNext ok =>
    rw [(inactiveRow_degradeNext h hstep).2.2]
    exact hin
  | lock other call =>
    rcases lockStep_cases hstep with rfl | ⟨pc, rfl, -⟩ <;> exact hin
  | locked other out => exact inactiveRow_lockedStep h hstep hin hno

/-- A worker stale since long is stopped before the monitor lists it, and a late heartbeat arrives:
it stays stopped. -/
theorem inactive_sticky_late_report :
    ∃ s s' : State, (machine [text "w"]).Reaches undisturbed s ∧
      step [text "w"] s (10, .report (text "w") {} .running) = some s' ∧
      s.inactiveRow (text "w") = true ∧ s'.inactiveRow (text "w") = true := by
  let start : State :=
    { workers := fun _ => some { status := .running, lastHeartbeatAt := some 0 } }
  have hstart : (machine [text "w"]).Reaches undisturbed start := .start ⟨rfl, fun _ => rfl⟩
  obtain ⟨s, hs, hin⟩ := Lib.Machine.exists_reaches_of_run hstart
    [(1, .lock (text "w") .stop), (2, .locked (text "w") .ok), (3, .listStale 5)]
    (P := fun s => s.inactiveRow (text "w") = true) (by decide +kernel)
  refine ⟨s, _, hs, rfl, hin, ?_⟩
  exact inactive_sticky hs (a := (10, .report (text "w") {} .running)) trivial rfl hin id

/-- The monitor lists a stale worker, the worker is destroyed, and the monitor writes: the stopped
worker is degraded. -/
theorem stopped_worker_degraded :
    ∃ s s' : State, (machine [text "w"]).Reachable s ∧
      step [text "w"] s (4, .degradeNext true) = some s' ∧ s.inactiveRow (text "w") = true ∧
      (s'.workers (text "w")).map (·.status) = some .degraded := by
  let start : State :=
    { workers := fun _ => some { status := .running, lastHeartbeatAt := some 0 } }
  have hstart : (machine [text "w"]).Reachable start := .start ⟨rfl, fun _ => rfl⟩
  obtain ⟨s, hs, hin, s', hstep, hstatus⟩ := Lib.Machine.exists_reaches_of_run hstart
    [(1, .listStale 5), (2, .lock (text "w") .destroy), (3, .locked (text "w") .ok)]
    (P := fun s => s.inactiveRow (text "w") = true ∧
      ∃ s' ∈ step [text "w"] s (4, .degradeNext true),
        (s'.workers (text "w")).map (·.status) = some .degraded) (by decide +kernel)
  exact ⟨s, s', hs, hstep, hin, hstatus⟩

end LitestreamSoak.Orchestrator.WorkerStates
