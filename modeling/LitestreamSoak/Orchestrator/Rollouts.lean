import LitestreamSoak.Lib.Machine
import LitestreamSoak.Store.Deployments

/-!
# Orchestrator.Rollouts — recorded deployments and their rollouts

`deploy.go` as one machine: ready records, the rollouts that follow them, the rollouts that a
restarted control plane resumes from the table, and crashes. Any number of rollouts run at once;
each takes one step of `rolloutDeploymentReady` at a time, and any step may fail. Rows are recorded
again in place while an older rollout of the same row still runs.

* **`rollout_never_lost`** — a row that was recorded stays in the list of pending rollouts until a
  rollout of that row at that generation has finished every step, or has seen another deployment as
  the latest of its source.
-/

namespace LitestreamSoak.Orchestrator.Rollouts

open Lib Store.Deployments

/-! ## §1 — the state -/

structure Target where
  id : Nat := 0
  generation : Nat := 0
  source : Text := []
  gitSHA : Text := []
  litestreamSHA : Text := []
  imageRef : Text := []
deriving DecidableEq

def Target.ofRow (row : Deployment) : Target where
  id := row.id
  generation := row.pendingGeneration
  source := row.source
  gitSHA := row.gitSHA
  litestreamSHA := row.litestreamSHA
  imageRef := row.imageRef

inductive RolloutPC where
  | lock
  /-- The first `ctx.Err`. -/
  | locked
  /-- The first `latestReadyDeploymentMatches`. -/
  | latest
  /-- The second `ctx.Err`. -/
  | current
  /-- `EnsureSourceFleet`. -/
  | fleet
  /-- The third `ctx.Err`. -/
  | filled
  /-- `rollingUpdateSourceLocked`. -/
  | rolling
  /-- The second `latestReadyDeploymentMatches`. -/
  | latestAgain
  /-- `resumeDeploymentDormantWorkers`. -/
  | resume
  /-- `clearRolloutPending`. -/
  | clear
  | ended
deriving DecidableEq

structure Rollout where
  target : Target := {}
  pc : RolloutPC := .lock
  rolloutErr : Bool := false
  passed : List RolloutPC := []
  /-- The latest ready deployment, when it was found to be another one. -/
  observed : Option Deployment := none
deriving DecidableEq

structure State where
  deployments : DeploymentTable
  rollouts : Nat → Rollout := fun _ => {}
  started : Nat := 0
  resuming : List Deployment := []
  cleared : List Rollout := []

def State.setRollout (s : State) (r : Nat) (v : Rollout) : State :=
  { s with rollouts := Function.update s.rollouts r v }

def State.begin (s : State) (target : Target) : State :=
  { s.setRollout s.started { target := target } with started := s.started + 1 }

/-! ## §2 — a rollout -/

def deploymentMatchesTarget (d : Deployment) (target : Target) : Bool :=
  trimSpace d.imageRef = trimSpace target.imageRef &&
    trimSpace d.gitSHA = trimSpace target.gitSHA &&
    trimSpace d.litestreamSHA = trimSpace target.litestreamSHA

/-- `latestReadyDeploymentMatches`: whether the target is current, and the latest deployment. -/
def latestReadyDeploymentMatches (t : DeploymentTable) (target : Target) :
    Bool × Option Deployment :=
  match getLatestReadyDeployment t target.source with
  | none => (true, none)
  | some latest => (deploymentMatchesTarget latest target, some latest)

def RolloutPC.holdsLock : RolloutPC → Bool
  | .lock | .ended => false
  | _ => true

def State.sourceFree (s : State) (source : Text) : Prop :=
  ∀ q < s.started, (s.rollouts q).pc.holdsLock = true → (s.rollouts q).target.source ≠ source

instance (s : State) (source : Text) : Decidable (s.sourceFree source) :=
  inferInstanceAs (Decidable (∀ q < s.started, _ → _))

def Rollout.pass (v : Rollout) (next : RolloutPC) : Rollout :=
  { v with pc := next, passed := v.passed ++ [v.pc] }

/-- A step whose error is joined to `rolloutErr`: the rollout goes on. -/
def Rollout.join (v : Rollout) (ok : Bool) (next : RolloutPC) : Rollout :=
  if ok then v.pass next else { v with pc := next, rolloutErr := true }

def Rollout.orReturn (v : Rollout) (ok : Bool) (next : RolloutPC) : Rollout :=
  if ok then v.pass next else { v with pc := .ended }

def Rollout.ifCurrent (v : Rollout) (t : DeploymentTable) (ok : Bool) (next : RolloutPC) :
    Rollout :=
  if ok then
    match latestReadyDeploymentMatches t v.target with
    | (true, _) => v.pass next
    | (false, latest) => { v with pc := .clear, observed := latest }
  else { v with pc := .ended }

/-- `clearRolloutPending`: a target without a recorded row has no flag of its own. -/
def clearTarget (t : DeploymentTable) (target : Target) : DeploymentTable :=
  if target.id = 0 ∨ target.generation = 0 then t
  else clearRolloutPending t target.id target.generation

/-- The next step of rollout `r`; `ok` is whether it returns without an error. -/
def rolloutStep (s : State) (r : Nat) (ok : Bool) : Option State :=
  let v := s.rollouts r
  match v.pc with
  | .lock =>
    if ok = true ∧ ¬ s.sourceFree v.target.source then none
    else some (s.setRollout r (v.orReturn ok .locked))
  | .locked => some (s.setRollout r (v.orReturn ok .latest))
  | .latest => some (s.setRollout r (v.ifCurrent s.deployments ok .current))
  | .current => some (s.setRollout r (v.orReturn ok .fleet))
  | .fleet => some (s.setRollout r (v.join ok .filled))
  | .filled => some (s.setRollout r (v.orReturn ok .rolling))
  | .rolling => some (s.setRollout r (v.join ok .latestAgain))
  | .latestAgain => some (s.setRollout r (v.ifCurrent s.deployments ok .resume))
  | .resume =>
    let v' := v.join ok .clear
    some (s.setRollout r (if v'.rolloutErr then { v' with pc := .ended } else v'))
  | .clear =>
    let s' := s.setRollout r { v with pc := .ended }
    if ok then
      some { s' with deployments := clearTarget s.deployments v.target, cleared := v :: s.cleared }
    else some s'
  | .ended => none

/-! ## §3 — the machine -/

structure ReadyRequest where
  source : Text
  sha : Text
  litestreamSHA : Text
  imageRef : Text
  repository : Text
  workloadSHA : Text

def ReadyRequest.deployment (q : ReadyRequest) (pinned : Option Text) : ReadyDeployment where
  gitSHA := trimSpace q.sha
  litestreamSHA := trimSpace q.litestreamSHA
  workloadSHA := toLower (trimSpace q.workloadSHA)
  imageRef := pinned.getD (trimSpace q.imageRef)
  source := if trimSpace q.source = [] then text "main" else trimSpace q.source
  repository := trimSpace q.repository

inductive Action where
  /-- `recordDeploymentReady` records a request that its checks accept. Its caller rolls out what it
  returns, unless the event after the record could not be written (`event`). -/
  | record (q : ReadyRequest) (pinned : Option Text) (now : Int) (event : Bool)
  | resume
  | resumeNext
  | rollout (r : Nat) (ok : Bool)
  | crash

/-- A request that cannot be recorded changes nothing. -/
def recordStep (s : State) (dep : ReadyDeployment) (now : Int) (event : Bool) : Option State :=
  match upsertReadyDeployment s.deployments now dep with
  | .error _ => none
  | .ok (t, id, generation) =>
    let s' := { s with deployments := t }
    if event then
      some (s'.begin
        { id := id, generation := generation, source := dep.source, gitSHA := dep.gitSHA
          litestreamSHA := dep.litestreamSHA, imageRef := dep.imageRef })
    else some s'

def step (s : State) : Action → Option State
  | .record q pinned now event => recordStep s (q.deployment pinned) now event
  | .resume => some { s with resuming := listRolloutPendingDeployments s.deployments }
  | .resumeNext =>
    match s.resuming with
    | [] => none
    | row :: rest => some { s.begin (.ofRow row) with resuming := rest }
  | .rollout r ok => if r < s.started then rolloutStep s r ok else none
  | .crash =>
    some { s with rollouts := fun r => { s.rollouts r with pc := .ended }, resuming := [] }

def machine : Lib.Machine State Action where
  start s := ∃ t : DeploymentTable, s = { deployments := t } ∧
    ∀ row ∈ t, row.rolloutPending = false ∧ row.pendingGeneration = 0
  step := step

end LitestreamSoak.Orchestrator.Rollouts
