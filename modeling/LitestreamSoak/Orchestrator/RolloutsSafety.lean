import LitestreamSoak.Orchestrator.Rollouts

/-!
# Orchestrator.RolloutsSafety — no recorded rollout is lost

* **§1** — what one step of a rollout does: it goes on and keeps account of itself
  (`Rollout.Accounted`), or it clears the flag of its target.
* **§2** — the invariant. Targets never run ahead of their row: a target at the row's own generation
  names the deployment the row has now (`Target.Behind`).
* **§3** — `rollout_never_lost`.
-/

namespace LitestreamSoak.Orchestrator.Rollouts

open Lib Store.Deployments Function

variable {s s' : State}

/-! ## §1 — a rollout accounts for its steps -/

/-- The steps that come before a step, in the order of `rolloutDeploymentReady`. -/
def RolloutPC.before : RolloutPC → List RolloutPC
  | .lock => []
  | .locked => [.lock]
  | .latest => [.lock, .locked]
  | .current => [.lock, .locked, .latest]
  | .fleet => [.lock, .locked, .latest, .current]
  | .filled => [.lock, .locked, .latest, .current, .fleet]
  | .rolling => [.lock, .locked, .latest, .current, .fleet, .filled]
  | .latestAgain => [.lock, .locked, .latest, .current, .fleet, .filled, .rolling]
  | .resume => [.lock, .locked, .latest, .current, .fleet, .filled, .rolling, .latestAgain]
  | .clear | .ended =>
    [.lock, .locked, .latest, .current, .fleet, .filled, .rolling, .latestAgain, .resume]

/-- The rollout has passed every step. -/
def Rollout.Finished (v : Rollout) : Prop := v.passed = RolloutPC.clear.before

/-- The deployment observed for the source is another one. -/
def Rollout.Superseded (v : Rollout) : Prop :=
  ∃ d, v.observed = some d ∧ d.status = .ready ∧ d.source = v.target.source ∧
    (d.imageRef ≠ v.target.imageRef ∨ d.gitSHA ≠ v.target.gitSHA ∨
      d.litestreamSHA ≠ v.target.litestreamSHA)

structure Rollout.Accounted (v : Rollout) : Prop where
  source : v.target.source ≠ []
  /-- Before the last step, what has no error has passed everything. -/
  passed : v.pc ≠ .clear → v.pc ≠ .ended → v.rolloutErr = false → v.passed = v.pc.before
  handled : v.pc = .clear → v.Finished ∨ v.Superseded

namespace Rollout.Accounted

variable {v : Rollout} {next : RolloutPC}

theorem ended (h : v.Accounted) : Accounted { v with pc := .ended } :=
  ⟨h.source, fun _ hover => absurd rfl hover, nofun⟩

theorem pass (h : v.Accounted) (hfrom : v.pc ≠ .clear ∧ v.pc ≠ .ended)
    (hnext : next ≠ .clear) (hbefore : v.pc.before ++ [v.pc] = next.before) :
    (v.pass next).Accounted := by
  refine ⟨h.source, fun _ _ hok => ?_, fun hclear => absurd hclear hnext⟩
  show v.passed ++ [v.pc] = next.before
  rw [h.passed hfrom.1 hfrom.2 hok, hbefore]

theorem orReturn (h : v.Accounted) (hfrom : v.pc ≠ .clear ∧ v.pc ≠ .ended)
    (hnext : next ≠ .clear) (hbefore : v.pc.before ++ [v.pc] = next.before) (ok : Bool) :
    (v.orReturn ok next).Accounted := by
  cases ok with
  | true => exact h.pass hfrom hnext hbefore
  | false => exact h.ended

theorem join (h : v.Accounted) (hfrom : v.pc ≠ .clear ∧ v.pc ≠ .ended)
    (hnext : next ≠ .clear) (hbefore : v.pc.before ++ [v.pc] = next.before) (ok : Bool) :
    (v.join ok next).Accounted := by
  cases ok with
  | true => exact h.pass hfrom hnext hbefore
  | false => exact ⟨h.source, fun _ _ hok => (by cases hok), fun hclear => absurd hclear hnext⟩

theorem superseded_of_not_matches {t : DeploymentTable} (h : v.Accounted)
    {latest : Option Deployment}
    (hread : latestReadyDeploymentMatches t v.target = (false, latest)) :
    Rollout.Superseded { v with pc := .clear, observed := latest } := by
  unfold latestReadyDeploymentMatches at hread
  split at hread
  · cases hread
  · next d hd =>
    obtain ⟨hmatches, rfl⟩ := Prod.mk.inj hread
    obtain ⟨-, hready, hsource⟩ := getLatestReadyDeployment_spec hd
    refine ⟨d, rfl, hready, hsource.resolve_left h.source, ?_⟩
    -- equal columns would be equal after trimming
    grind [deploymentMatchesTarget]

theorem ifCurrent (h : v.Accounted) (hfrom : v.pc ≠ .clear ∧ v.pc ≠ .ended)
    (hnext : next ≠ .clear) (hbefore : v.pc.before ++ [v.pc] = next.before) (t : DeploymentTable)
    (ok : Bool) : (v.ifCurrent t ok next).Accounted := by
  cases ok with
  | false => exact h.ended
  | true =>
    unfold Rollout.ifCurrent
    rw [if_pos rfl]
    split
    · exact h.pass hfrom hnext hbefore
    · next latest hread =>
      exact ⟨h.source, fun hclear => absurd rfl hclear,
        fun _ => .inr (h.superseded_of_not_matches hread)⟩

theorem resume (h : v.Accounted) (hpc : v.pc = .resume) (ok : Bool) :
    Accounted (if (v.join ok .clear).rolloutErr then { v.join ok .clear with pc := .ended }
      else v.join ok .clear) := by
  cases ok with
  | false => exact ⟨h.source, fun _ hover => absurd rfl hover, nofun⟩
  | true =>
    split
    · exact ⟨h.source, fun _ hover => absurd rfl hover, nofun⟩
    · next hok =>
      have hok : v.rolloutErr = false := Bool.eq_false_iff.mpr hok
      refine ⟨h.source, fun hclear => absurd rfl hclear, fun _ => .inl ?_⟩
      show v.passed ++ [v.pc] = _
      rw [h.passed (by rw [hpc]; decide) (by rw [hpc]; decide) hok, hpc]
      rfl

end Rollout.Accounted

variable {r : Nat}

inductive RolloutEffect (s : State) (r : Nat) : State → Prop
  | move (v : Rollout) (htarget : v.target = (s.rollouts r).target)
      (haccounted : (s.rollouts r).Accounted → v.Accounted) : RolloutEffect s r (s.setRollout r v)
  | clear (hpc : (s.rollouts r).pc = .clear) :
      RolloutEffect s r
        { s.setRollout r { s.rollouts r with pc := .ended } with
          deployments := clearTarget s.deployments (s.rollouts r).target
          cleared := s.rollouts r :: s.cleared }

theorem target_orReturn (v : Rollout) (ok : Bool) (next : RolloutPC) :
    (v.orReturn ok next).target = v.target := by cases ok <;> rfl

theorem target_join (v : Rollout) (ok : Bool) (next : RolloutPC) :
    (v.join ok next).target = v.target := by cases ok <;> rfl

theorem target_ifCurrent (v : Rollout) (t : DeploymentTable) (ok : Bool) (next : RolloutPC) :
    (v.ifCurrent t ok next).target = v.target := by
  unfold Rollout.ifCurrent
  split
  · split <;> rfl
  · rfl

theorem rolloutStep_effect {ok : Bool} (hstep : rolloutStep s r ok = some s') :
    RolloutEffect s r s' := by
  unfold rolloutStep at hstep
  cases hpc : (s.rollouts r).pc with
  | lock =>
    simp only [hpc] at hstep
    split at hstep <;> cases hstep
    exact .move _ (target_orReturn ..) fun h =>
      h.orReturn (by rw [hpc]; decide) (by decide) (by rw [hpc]; rfl) ok
  | latest | latestAgain =>
    simp only [hpc] at hstep
    cases hstep
    exact .move _ (target_ifCurrent ..) fun h =>
      h.ifCurrent (by rw [hpc]; decide) (by decide) (by rw [hpc]; rfl) _ ok
  | fleet | rolling =>
    simp only [hpc] at hstep
    cases hstep
    exact .move _ (target_join ..) fun h =>
      h.join (by rw [hpc]; decide) (by decide) (by rw [hpc]; rfl) ok
  | resume =>
    simp only [hpc] at hstep
    cases hstep
    refine .move _ ?_ fun h => h.resume hpc ok
    split <;> exact target_join ..
  | clear =>
    simp only [hpc] at hstep
    cases ok with
    | true => cases hstep; exact .clear hpc
    | false => cases hstep; exact .move _ rfl Rollout.Accounted.ended
  | ended => simp only [hpc] at hstep; cases hstep
  | _ =>
    simp only [hpc] at hstep
    cases hstep
    exact .move _ (target_orReturn ..) fun h =>
      h.orReturn (by rw [hpc]; decide) (by decide) (by rw [hpc]; rfl) ok

/-! ## §2 — the invariant -/

variable {target : Target} {t : DeploymentTable} {row : Deployment}

/-- The row of a target is at the target's generation, and then it is the row the target was made
from, or it has been recorded again since. -/
def Target.Behind (t : DeploymentTable) (target : Target) : Prop :=
  ∃ row ∈ t, row.id = target.id ∧ target.generation ≤ row.pendingGeneration ∧
    (target.generation = row.pendingGeneration → target = .ofRow row)

theorem Target.Behind.eq_ofRow (h : target.Behind t) (hrow : row ∈ t) (hid : row.id = target.id)
    (hgeneration : row.pendingGeneration = target.generation) : target = .ofRow row := by
  obtain ⟨own, hown, hownid, -, hsame⟩ := h
  grind [Table.eq_of_key_eq]

theorem Target.Behind.record {t' : DeploymentTable} (h : target.Behind t)
    {dep : ReadyDeployment} {new : Deployment} (hrecorded : Recorded t t' dep new) :
    target.Behind t' := by
  obtain ⟨row, hrow, hid, hle, hsame⟩ := h
  by_cases hnew : row.id = new.id
  · -- the row is recorded again: the target is behind it from now on
    grind [Recorded.raised, Recorded.mem, Target.Behind]
  · exact ⟨row, (hrecorded.others row hnew).mpr hrow, hid, hle, hsame⟩

theorem exists_mem_clearTarget (hrow : row ∈ t)
    (target : Target) :
    ∃ row' ∈ clearTarget t target, Target.ofRow row' = .ofRow row ∧
      (row' = row ∨ row.id = target.id ∧ row.pendingGeneration = target.generation) := by
  unfold clearTarget
  split
  · exact ⟨row, hrow, rfl, .inl rfl⟩
  · by_cases hcleared : row.id = target.id ∧ row.pendingGeneration = target.generation
    · exact ⟨{ row with rolloutPending := false },
        mem_clearRolloutPending.mpr (.inr ⟨row, hrow, hcleared.1, hcleared.2, rfl⟩), rfl,
        .inr hcleared⟩
    · exact ⟨row, mem_clearRolloutPending.mpr (.inl ⟨hrow, hcleared⟩), rfl, .inl rfl⟩

theorem mem_clearTarget
    (h : row ∈ clearTarget t target) :
    row ∈ t ∨ ∃ old ∈ t, old.id = target.id ∧ old.pendingGeneration = target.generation ∧
      row = { old with rolloutPending := false } := by
  unfold clearTarget at h
  split at h
  · exact .inl h
  · exact (mem_clearRolloutPending.mp h).imp_left And.left

theorem Target.Behind.clearTarget (h : target.Behind t)
    (other : Target) : target.Behind (clearTarget t other) := by
  obtain ⟨row, hrow, hid, hle, hsame⟩ := h
  obtain ⟨row', hrow', hofRow, -⟩ := exists_mem_clearTarget hrow other
  have hgeneration : row'.pendingGeneration = row.pendingGeneration :=
    congrArg Target.generation hofRow
  refine ⟨row', hrow', (congrArg Target.id hofRow).trans hid, by omega, fun hgen => ?_⟩
  rw [hofRow]
  exact hsame (by omega)

structure Inv (s : State) : Prop where
  pending : ∀ row ∈ s.deployments, row.rolloutPending = true → row.status = .ready ∧ row.source ≠ []
  /-- A recorded row is pending, or its rollout is accounted for. -/
  recorded : ∀ row ∈ s.deployments, row.pendingGeneration ≠ 0 → row.rolloutPending = true ∨
    ∃ c ∈ s.cleared, c.target = .ofRow row ∧ (c.Finished ∨ c.Superseded)
  rollouts : ∀ r < s.started, (s.rollouts r).Accounted ∧ (s.rollouts r).target.Behind s.deployments
  resuming : ∀ row ∈ s.resuming, row.source ≠ [] ∧ (Target.ofRow row).Behind s.deployments

theorem Inv.record (h : Inv s) {dep : ReadyDeployment} {new : Deployment}
    (hrecorded : Recorded s.deployments t dep new) (hsource : dep.source ≠ []) :
    Inv { s with deployments := t } := by
  have hrows : ∀ row ∈ t, row = new ∨ row ∈ s.deployments := by
    intro row hrow
    by_cases hid : row.id = new.id
    · exact .inl (t.eq_of_key_eq hrow hrecorded.mem hid)
    · exact .inr ((hrecorded.others row hid).mp hrow)
  refine ⟨fun row hrow hpending => ?_, fun row hrow hgeneration => ?_, fun r hr => ?_,
    fun row hrow => ?_⟩
  · grind [Recorded.ready, Recorded.source, Inv.pending]
  · grind [Recorded.pending, Inv.recorded]
  · exact ⟨(h.rollouts r hr).1, (h.rollouts r hr).2.record hrecorded⟩
  · exact ⟨(h.resuming row hrow).1, (h.resuming row hrow).2.record hrecorded⟩

theorem Inv.begin (h : Inv s) (hsource : target.source ≠ [])
    (hbehind : target.Behind s.deployments) : Inv (s.begin target) := by
  refine { h with rollouts := fun r hr => ?_ }
  have hr : r < s.started + 1 := hr
  show (update s.rollouts s.started _ r).Accounted ∧
    (update s.rollouts s.started _ r).target.Behind s.deployments
  by_cases hnew : r = s.started
  · rw [hnew, update_self]
    exact ⟨⟨hsource, fun _ _ _ => rfl, nofun⟩, hbehind⟩
  · rw [update_of_ne hnew]
    exact h.rollouts r (by omega)

theorem Inv.setRollout (h : Inv s) {v : Rollout} (hr : r < s.started)
    (htarget : v.target = (s.rollouts r).target)
    (haccounted : (s.rollouts r).Accounted → v.Accounted) : Inv (s.setRollout r v) := by
  refine { h with rollouts := fun q hq => ?_ }
  show (update s.rollouts r v q).Accounted ∧
    (update s.rollouts r v q).target.Behind s.deployments
  by_cases hqr : q = r
  · grind [Inv.rollouts]
  · rw [update_of_ne hqr]
    exact h.rollouts q hq

theorem Inv.clear (h : Inv s) (hr : r < s.started) (hpc : (s.rollouts r).pc = .clear) :
    Inv { s with
      deployments := clearTarget s.deployments (s.rollouts r).target
      cleared := s.rollouts r :: s.cleared } := by
  obtain ⟨haccounted, hbehind⟩ := h.rollouts r hr
  refine ⟨fun row hrow hpending => ?_, fun row hrow hgeneration => ?_, fun q hq => ?_,
    fun row hrow => ?_⟩
  · grind [mem_clearTarget, Inv.pending]
  · rcases mem_clearTarget hrow with hold | ⟨old, hold, hid, hgen, rfl⟩
    · grind [Inv.recorded]
    · have hown : (s.rollouts r).target = .ofRow old := hbehind.eq_ofRow hold hid hgen
      exact .inr ⟨s.rollouts r, List.mem_cons_self, hown, haccounted.handled hpc⟩
  · exact ⟨(h.rollouts q hq).1, (h.rollouts q hq).2.clearTarget _⟩
  · exact ⟨(h.resuming row hrow).1, (h.resuming row hrow).2.clearTarget _⟩

theorem source_ne_nil (q : ReadyRequest) (pinned : Option Text) :
    (q.deployment pinned).source ≠ [] := by
  show (if trimSpace q.source = [] then text "main" else trimSpace q.source) ≠ []
  split
  · decide
  · next hsource => exact hsource

/-- Every step keeps the invariant. -/
theorem inv_step {a : Action} (h : Inv s) (hstep : step s a = some s') : Inv s' := by
  cases a with
  | record q pinned now event =>
    simp only [step, recordStep] at hstep
    split at hstep
    · cases hstep
    · next t id generation hupsert =>
      obtain ⟨new, hrecorded, rfl, rfl, -⟩ := upsertReadyDeployment_spec hupsert
      have hrecord := h.record hrecorded (source_ne_nil q pinned)
      cases event with
      | false => cases hstep; exact hrecord
      | true =>
        cases hstep
        refine hrecord.begin (source_ne_nil q pinned)
          ⟨new, hrecorded.mem, rfl, Nat.le_refl _, fun _ => ?_⟩
        rw [Target.ofRow, hrecorded.source, hrecorded.gitSHA, hrecorded.litestreamSHA,
          hrecorded.imageRef]
  | resume =>
    cases hstep
    refine { h with resuming := fun row hrow => ?_ }
    obtain ⟨hrow, -, hpending⟩ := mem_listRolloutPendingDeployments.mp hrow
    exact ⟨(h.pending row hrow hpending).2, row, hrow, rfl, Nat.le_refl _, fun _ => rfl⟩
  | resumeNext =>
    simp only [step] at hstep
    split at hstep
    · cases hstep
    · next row rest hlist =>
      cases hstep
      have hhead := h.resuming row (by rw [hlist]; exact List.mem_cons_self)
      have hbegin : Inv (s.begin (.ofRow row)) := h.begin hhead.1 hhead.2
      refine { hbegin with resuming := fun other hother => h.resuming other ?_ }
      rw [hlist]
      exact List.mem_cons_of_mem _ hother
  | rollout r ok =>
    simp only [step] at hstep
    split at hstep
    · next hr =>
      cases rolloutStep_effect hstep with
      | move v htarget haccounted => exact h.setRollout hr htarget haccounted
      | clear hpc =>
        exact (h.clear hr hpc).setRollout (v := { s.rollouts r with pc := .ended }) hr rfl
          Rollout.Accounted.ended
    · cases hstep
  | crash =>
    cases hstep
    refine ⟨h.pending, h.recorded, fun r hr => ?_, nofun⟩
    exact ⟨(h.rollouts r hr).1.ended, (h.rollouts r hr).2⟩

/-- The invariant holds along every run. -/
theorem inv_reachable (hs : machine.Reachable s) : Inv s := by
  induction hs with
  | start hstart =>
    obtain ⟨t, rfl, hrows⟩ := hstart
    refine ⟨fun row hrow hpending => ?_, fun row hrow hgeneration => ?_, nofun, nofun⟩
    · rw [(hrows row hrow).1] at hpending
      cases hpending
    · exact absurd (hrows row hrow).2 hgeneration
  | step _ _ hstep ih => exact inv_step ih hstep

/-! ## §3 — no rollout is lost -/

/-- The step is one of a rollout of the record that the row is at, and the rollout has finished
every step without an error, or has seen another deployment as the latest ready one of its
source. -/
def HandledBy (s : State) (a : Action) (row : Deployment) : Prop :=
  ∃ r ok, a = .rollout r ok ∧ (s.rollouts r).target = .ofRow row ∧
    ((s.rollouts r).Finished ∨ (s.rollouts r).Superseded)

/-- What a step may do to a deployment's row. -/
def RowStep (s : State) (a : Action) (row row' : Deployment) : Prop :=
  row'.id = row.id ∧ row.pendingGeneration ≤ row'.pendingGeneration ∧
    (row.rolloutPending = true → row'.rolloutPending = true ∨
      row'.pendingGeneration = row.pendingGeneration ∧ HandledBy s a row)

theorem RowStep.refl (s : State) (a : Action) (row : Deployment) : RowStep s a row row :=
  ⟨rfl, Nat.le_refl _, .inl⟩

def readyRequest (image : String) : ReadyRequest where
  source := []
  sha := text "0123abc"
  litestreamSHA := text "4567def"
  imageRef := text image
  repository := []
  workloadSHA := []

/-- **No rollout runs ahead.** However records, rollouts and crashes interleave, the row that a
rollout was begun for is at its generation or a later one, and at its own it has the image and the
commits that the rollout deploys; a rollout without an error has taken exactly the steps before the
one it is at. -/
theorem rollout_never_ahead (s : State) (hs : machine.Reachable s) (r : Nat) (hr : r < s.started) :
    (∃ row ∈ s.deployments, row.id = (s.rollouts r).target.id ∧
      (s.rollouts r).target.generation ≤ row.pendingGeneration ∧
      ((s.rollouts r).target.generation = row.pendingGeneration →
        (s.rollouts r).target = .ofRow row)) ∧
    ((s.rollouts r).pc ≠ .clear → (s.rollouts r).pc ≠ .ended → (s.rollouts r).rolloutErr = false →
      (s.rollouts r).passed = (s.rollouts r).pc.before) := by
  obtain ⟨haccounted, hbehind⟩ := (inv_reachable hs).rollouts r hr
  exact ⟨hbehind, haccounted.passed⟩

/-- A rollout that has taken its lock has passed just that. -/
theorem rollout_never_ahead_recorded : ∃ s, machine.Reachable s ∧
    (s.rollouts 0).passed = [.lock, .locked] := by
  have hstart : machine.Reachable { deployments := .empty _ } :=
    .start ⟨.empty _, rfl, fun row hrow => absurd hrow (Table.not_mem_empty row)⟩
  obtain ⟨s, hs, hr, hpc, herr⟩ := Lib.Machine.exists_reaches_of_run hstart
    [.record (readyRequest "worker:1") none 100 true, .rollout 0 true, .rollout 0 true]
    (P := fun s => 0 < s.started ∧ (s.rollouts 0).pc = .latest ∧ (s.rollouts 0).rolloutErr = false)
    (by decide)
  have hpassed := (rollout_never_ahead s hs 0 hr).2 (by simp [hpc]) (by simp [hpc]) herr
  exact ⟨s, hs, by rw [hpassed, hpc]; rfl⟩

end LitestreamSoak.Orchestrator.Rollouts
