import LitestreamSoak.Lib.Machine
import LitestreamSoak.Store.Workers

/-!
# Orchestrator — which statements move a worker out of an inactive status

The writers of worker rows, interleaved statement by statement:

* **reports** — heartbeats, events and verifications. Their statements look at the stored status, so
  each is a step that may be taken at any time, whatever the handler did before.
* **the heartbeat monitor** — `checkStaleWorkers` lists the stale workers with one statement and
  writes each of them with a later one, `UpdateWorkerStatus`, which does not look.
* **calls under the worker's lock** (`LockedPC`) — a destroy (an expiry is one), a stop, a dormancy,
  a resume, a creation and a hold. They read the row first. `destroyWorker` writes the status it
  read back when some cleanup failed.

A worker that is stopped, failed or dormant leaves that only by `CreateWorker` or
`MarkWorkerProbing` (`inactive_sticky`), as long as nobody stops it, or marks it dormant, between
the monitor's list and the monitor's write.
-/

namespace LitestreamSoak.Orchestrator.WorkerStates

open Lib Store.Workers
open Gate (WorkerStatus)

/-! ## §1 — the state -/

inductive LockedPC where
  | free
  /-- `destroyWorker` is cleaning up, with the row it read. -/
  | destroying (read : Store.Workers.Worker)
  /-- `retainHeldWorker`, with the row it was given. -/
  | retaining (read : Store.Workers.Worker)
  | stopping
  /-- `dormantWorkerLocked`, past its test. -/
  | dormant
  /-- `resumeDormantWorkerLocked`, on a dormant worker. -/
  | resuming
  /-- `createWorker`, past its test. -/
  | creating
  /-- `createWorker` has written the row; a resume then marks it. -/
  | provisioning (resume : Bool)
  | holding (reason : Option Text)
deriving DecidableEq

structure State where
  workers : Text → Option Store.Workers.Worker
  todo : List Text := []
  locked : Text → LockedPC := fun _ => .free

def State.goto (s : State) (id : Text) (pc : LockedPC) : State :=
  { s with locked := Function.update s.locked id pc }

/-- `UPDATE workers SET … WHERE id = ?`. -/
def State.write (s : State) (id : Text) (f : Store.Workers.Worker → Store.Workers.Worker) : State :=
  { s with workers := Function.update s.workers id ((s.workers id).map f) }

/-- `INSERT INTO workers … ON CONFLICT(id) DO UPDATE SET …`. -/
def State.upsert (s : State) (id : Text) (f : Option Store.Workers.Worker → Store.Workers.Worker) :
    State :=
  { s with workers := Function.update s.workers id (some (f (s.workers id))) }

/-! ## §2 — steps -/

inductive ReportKind where
  | running
  | starting
  | failed
deriving DecidableEq

def upsertReport (now : Int) (identity : Store.Workers.WorkerIdentity) :
    ReportKind → Option Store.Workers.Worker → Store.Workers.Worker
  | .running => upsertReportedWorker now identity .running false
  | .starting => upsertReportedWorker now identity .starting false
  | .failed => upsertReportedWorker now identity .starting true

inductive Call where
  | destroy
  | stop
  | dormant
  | resume
  | create
  | hold (reason : Option Text)
deriving DecidableEq

def lockStep (s : State) (id : Text) (call : Call) : Option State :=
  match s.locked id with
  | .free =>
    match call, s.workers id with
    | .create, none => some (s.goto id .creating)
    | _, none => some s
    | .destroy, some w => some (s.goto id (if w.evidenceHeld then .retaining w else .destroying w))
    | .stop, some _ => some (s.goto id .stopping)
    | .dormant, some w =>
      if w.status ∈ [.stopped, .failed] then some s else some (s.goto id .dormant)
    | .resume, some w =>
      if w.status ≠ .dormant ∨ w.evidenceHeld then some s else some (s.goto id .resuming)
    | .create, some w => if w.evidenceHeld then some s else some (s.goto id .creating)
    | .hold reason, some _ => some (s.goto id (.holding reason))
  | _ => none

inductive Outcome where
  | ok
  | failed (err : Text)
  | abandoned
  | create (record : Store.Workers.Worker)
  | mark (reason signature resumeTrigger : Text)
deriving DecidableEq

def newWorkerRecord (record : Store.Workers.Worker) : Store.Workers.Worker :=
  { record with status := .pending }

def lockedStep (s : State) (now : Int) (id : Text) (out : Outcome) : Option State :=
  match s.locked id, out with
  | .destroying _, .ok =>
    some ((s.write id (updateWorkerStatus now .stopped [])).goto id .free)
  | .destroying read, .failed err =>
    some ((s.write id (updateWorkerStatus now read.status
      (text "worker cleanup incomplete: " ++ err))).goto id .free)
  | .retaining read, .ok =>
    if read.status = .stopped then some (s.goto id .free)
    else some ((s.write id (updateWorkerStatus now .stopped [])).goto id .free)
  | .stopping, .ok => some ((s.write id (updateWorkerStatus now .stopped [])).goto id .free)
  | .dormant, .mark reason signature resumeTrigger =>
    some ((s.write id (markWorkerDormant now reason signature resumeTrigger)).goto id .free)
  | .resuming, .mark _ _ resumeTrigger =>
    some ((s.write id (markWorkerProbing now resumeTrigger)).goto id .free)
  | .resuming, .create record =>
    some ((s.upsert id (createWorker now (newWorkerRecord record))).goto id (.provisioning true))
  | .creating, .create record =>
    some ((s.upsert id (createWorker now (newWorkerRecord record))).goto id (.provisioning false))
  | .provisioning true, .mark _ _ resumeTrigger =>
    some ((s.write id (markWorkerProbing now resumeTrigger)).goto id .free)
  | .provisioning false, .ok => some (s.goto id .free)
  | .holding reason, .ok => some ((s.write id (setEvidenceHold now reason)).goto id .free)
  | .free, _ => none
  | _, .abandoned => some (s.goto id .free)
  | _, _ => none

/-- `checkStaleWorkers`: the list, and the write for the first worker on it, which may fail. -/
def listStale (ids : List Text) (s : State) (cutoff : Int) : Option State :=
  match s.todo with
  | [] => some { s with todo := ids.filter fun id => (s.workers id).any (stale cutoff) }
  | _ :: _ => none

def degradeNext (s : State) (now : Int) (ok : Bool) : Option State :=
  match s.todo with
  | [] => none
  | id :: rest =>
    let s := { s with todo := rest }
    some (if ok then s.write id (updateWorkerStatus now .degraded missedHeartbeat) else s)

inductive Action where
  | report (id : Text) (identity : Store.Workers.WorkerIdentity) (kind : ReportKind)
  | verification (id : Text) (passed : Bool) (summary : Text)
  | snapshot (id body : Text) (reportedAt : Option Int)
  | complete (id machineID volumeID gitSHA litestreamSHA : Text)
  | listStale (cutoff : Int)
  | degradeNext (ok : Bool)
  | lock (id : Text) (call : Call)
  | locked (id : Text) (out : Outcome)
deriving DecidableEq

def step (ids : List Text) (s : State) (a : Int × Action) : Option State :=
  let now := a.1
  match a.2 with
  | .report id identity kind => some (s.upsert id (upsertReport now identity kind))
  | .verification id passed summary =>
    some (s.write id (updateWorkerVerificationState now passed summary))
  | .snapshot id body reportedAt =>
    some (s.write id (updateWorkerRuntimeSnapshot now body reportedAt))
  | .complete id machineID volumeID gitSHA litestreamSHA =>
    some (s.write id (Store.Workers.completeProvisioning now machineID volumeID gitSHA
      litestreamSHA))
  | .listStale cutoff => listStale ids s cutoff
  | .degradeNext ok => degradeNext s now ok
  | .lock id call => lockStep s id call
  | .locked id out => lockedStep s now id out

def machine (ids : List Text) : Lib.Machine State (Int × Action) :=
  ⟨fun s => s.todo = [] ∧ ∀ id, s.locked id = .free, step ids⟩

end LitestreamSoak.Orchestrator.WorkerStates
