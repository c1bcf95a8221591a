import LitestreamSoak.Gate.Ledger

/-!
# Store — the rows of the workers table

The statements of `internal/model/workers.go` that write a worker's row, each as a function of the
row. A row that does not exist is `none`: an `UPDATE … WHERE id = ?` leaves it so, an
`INSERT … ON CONFLICT(id) DO UPDATE` makes it.

Some statements look at the stored status and some do not. `WorkerStatus.inactive` are the statuses
a worker is left in when it is stopped, has failed or is dormant; what each statement does to a row
in one of them is said beside it.
-/

namespace LitestreamSoak.Store.Workers

open Lib
open Gate (WorkerStatus)

/-! ## §1 — rows -/

/-- A row of `workers`. NULL and empty ids are not told apart, as in `model.Worker`; times are in
seconds. -/
structure Worker where
  appName : Text := []
  region : Text := []
  flyMachineID : Text := []
  flyVolumeID : Text := []
  name : Text := []
  status : WorkerStatus
  source : Text := []
  gitSHA : Text := []
  litestreamSHA : Text := []
  prNumber : Nat := 0
  profileName : Text := []
  profileConfig : Text := []
  expiresAt : Option Int := none
  createdAt : Int := 0
  updatedAt : Int := 0
  lastHeartbeatAt : Option Int := none
  errorMessage : Text := []
  lastRuntimeJSON : Text := []
  lastRuntimeAt : Option Int := none
  dormantAt : Option Int := none
  dormantReason : Text := []
  dormantSignature : Text := []
  resumeTrigger : Text := []
  lastProbeAt : Option Int := none
  evidenceHoldAt : Option Int := none
  evidenceHoldReason : Text := []
deriving DecidableEq

def Worker.evidenceHeld (w : Worker) : Bool := w.evidenceHoldAt.isSome

/-- `reporting.WorkerIdentity`, what a report says about its sender. -/
structure WorkerIdentity where
  workloadSHA : Text := []
  workloadID : Text := []
  deploymentID : Int := 0
  validatorID : Text := []
  workerID : Text := []
  name : Text := []
  source : Text := []
  gitSHA : Text := []
  litestreamSHA : Text := []
  runID : Text := []
  imageRef : Text := []
  volumeID : Text := []
  volumeSizeGB : Text := []
  profileName : Text := []
  profileConfig : Text := []
  profileHash : Text := []
  appName : Text := []
  machineID : Text := []
  region : Text := []
  scenario : Text := []
  upgradePhase : Text := []
  activeLitestreamSHA : Text := []
deriving DecidableEq

def inactive : WorkerStatus → Bool
  | .stopped | .failed | .dormant => true
  | _ => false

/-- `CASE WHEN a <> '' THEN a ELSE b END`, and `COALESCE` of a NULL for the empty text. -/
def orElse (a b : Text) : Text := if a = [] then b else a

def missedHeartbeat : Text := text "worker missed heartbeat deadline"

/-! ## §2 — creating and changing a row -/

/-- `CreateWorker`: a reused id starts afresh, but keeps its hold and what it does not name. -/
def createWorker (now : Int) (w : Worker) : Option Worker → Worker
  | none => { w with
      createdAt := now, updatedAt := now, lastHeartbeatAt := none, errorMessage := []
      lastRuntimeJSON := [], lastRuntimeAt := none, dormantAt := none, dormantReason := []
      dormantSignature := [], resumeTrigger := [], lastProbeAt := none, evidenceHoldAt := none
      evidenceHoldReason := [] }
  | some old => { w with
      flyMachineID := orElse w.flyMachineID old.flyMachineID
      flyVolumeID := orElse w.flyVolumeID old.flyVolumeID
      createdAt := now, updatedAt := now, lastHeartbeatAt := none, errorMessage := []
      lastRuntimeJSON := [], lastRuntimeAt := none, dormantAt := none, dormantReason := []
      dormantSignature := [], resumeTrigger := [], lastProbeAt := none
      evidenceHoldAt := old.evidenceHoldAt, evidenceHoldReason := old.evidenceHoldReason }

def updateWorkerStatus (now : Int) (status : WorkerStatus) (errMsg : Text) (w : Worker) : Worker :=
  { w with status := status, errorMessage := errMsg, updatedAt := now }

/-- `UpdateWorkerRuntimeSnapshot`; the time only with a healthy snapshot. -/
def updateWorkerRuntimeSnapshot (now : Int) (body : Text) (reportedAt : Option Int) (w : Worker) :
    Worker :=
  { w with
    lastRuntimeJSON := body, lastRuntimeAt := reportedAt.or w.lastRuntimeAt, updatedAt := now }

def markWorkerDormant (now : Int) (reason signature resumeTrigger : Text) (w : Worker) : Worker :=
  { w with
    status := .dormant, errorMessage := reason, dormantAt := some now, dormantReason := reason
    dormantSignature := signature, resumeTrigger := resumeTrigger, updatedAt := now }

def markWorkerProbing (now : Int) (resumeTrigger : Text) (w : Worker) : Worker :=
  { w with
    status := .probing, errorMessage := [], dormantAt := none, dormantReason := []
    dormantSignature := [], resumeTrigger := resumeTrigger, lastProbeAt := some now
    updatedAt := now }

/-- `SetWorkerEvidenceHold` and `ClearWorkerEvidenceHold`. -/
def setEvidenceHold (now : Int) (reason : Option Text) (w : Worker) : Worker :=
  { w with
    evidenceHoldAt := reason.map fun _ => now, evidenceHoldReason := reason.getD []
    updatedAt := now }

/-- The statement of `CompleteProvisioning` on the row: a worker that was stopped, has failed, is
dormant or degraded is left alone. -/
def completeProvisioning (now : Int) (machineID volumeID gitSHA litestreamSHA : Text)
    (w : Worker) : Worker :=
  if w.gitSHA = gitSHA ∧ w.litestreamSHA = litestreamSHA ∧
      w.status ∈ [.pending, .running, .starting, .probing] then
    { w with
      flyMachineID := machineID, flyVolumeID := volumeID, status := .starting, errorMessage := []
      updatedAt := now }
  else w

/-! ## §3 — reports -/

variable {w : Worker}

def reportedStatus (reported : WorkerStatus) (failed : Bool) (w : Worker) : WorkerStatus :=
  if failed then if w.status ∈ [.pending, .building] then .starting else w.status
  else if w.status ∈ [.pending, .building, .starting] then reported
  else if w.status = .degraded ∧ w.errorMessage = missedHeartbeat then reported
  else w.status

def reportedMessage (failed : Bool) (w : Worker) : Text :=
  if failed then w.errorMessage
  else if w.status ∈ [.pending, .building, .starting] then []
  else if w.status = .degraded ∧ w.errorMessage = missedHeartbeat then []
  else w.errorMessage

def braces : Text := text "\x7b\x7d"

def reportedConfig (identity : WorkerIdentity) : Text :=
  if trimSpace identity.profileConfig = [] then braces else identity.profileConfig

def upsertReportedWorker (now : Int) (identity : WorkerIdentity) (reported : WorkerStatus)
    (failed : Bool) : Option Worker → Worker
  | none =>
    { appName := identity.appName, region := identity.region, flyMachineID := identity.machineID
      name := orElse identity.name identity.workerID, status := reported
      source := identity.source, gitSHA := identity.gitSHA
      litestreamSHA := identity.litestreamSHA, profileName := identity.profileName
      profileConfig := reportedConfig identity, createdAt := now, updatedAt := now
      lastHeartbeatAt := some now }
  | some w => { w with
      appName := orElse identity.appName w.appName
      region := orElse identity.region w.region
      flyMachineID := orElse identity.machineID w.flyMachineID
      name := orElse identity.name identity.workerID
      status := reportedStatus reported failed w
      errorMessage := reportedMessage failed w
      source := identity.source
      gitSHA := identity.gitSHA
      litestreamSHA := orElse identity.litestreamSHA w.litestreamSHA
      profileName := identity.profileName
      profileConfig :=
        if w.profileConfig ≠ braces then w.profileConfig else reportedConfig identity
      lastHeartbeatAt := if failed then w.lastHeartbeatAt.or (some now) else some now
      updatedAt := now }

def updateWorkerVerificationState (now : Int) (passed : Bool) (summary : Text) (w : Worker) :
    Worker :=
  if inactive w.status then w
  else if passed then { w with
    status := .running, errorMessage := [], dormantAt := none, dormantReason := []
    dormantSignature := [], resumeTrigger := [], lastProbeAt := none, updatedAt := now }
  else { w with status := .degraded, errorMessage := summary, updatedAt := now }

theorem reportedStatus_of_inactive (h : inactive w.status = true)
    (reported : WorkerStatus) (failed : Bool) : reportedStatus reported failed w = w.status := by
  unfold reportedStatus
  cases hstatus : w.status <;> simp [hstatus, inactive] at h ⊢

theorem completeProvisioning_of_inactive (h : inactive w.status = true) (now : Int)
    (machineID volumeID gitSHA litestreamSHA : Text) :
    completeProvisioning now machineID volumeID gitSHA litestreamSHA w = w := by
  refine if_neg fun hguard => ?_
  cases hstatus : w.status <;> simp [hstatus, inactive] at h hguard

/-! ## §4 — what the monitor lists -/

def stale (cutoff : Int) (w : Worker) : Bool :=
  w.status ∈ [.running, .probing, .starting] && w.lastHeartbeatAt.any (· < cutoff)

theorem inactive_of_stale {cutoff : Int} (h : stale cutoff w = true) :
    inactive w.status = false := by
  unfold stale at h
  cases hstatus : w.status <;> simp [hstatus, inactive] at h ⊢

end LitestreamSoak.Store.Workers
