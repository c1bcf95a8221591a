import LitestreamSoak.Lib.Text

/-!
# Gate — the records a release gate is scored from

A release gate compares a candidate build with a baseline build. This module has the gate record,
the rows the scoring reads (`Worker`, `Deployment`, `Verification`, `Event`, the heartbeats of the
evidence journal) and the queries it reads them with.

* **Times** are nanoseconds since the zero `time.Time`, so `IsZero` is `= 0` and `Truncate d` is
  `t - t % d`.
* **JSON columns** are the values the scoring decodes from them: `none` where decoding fails.
* **Reads may fail.** `DB.fails` says which; a theorem about every `DB` is about every content of
  the tables and every pattern of failing reads.
-/

namespace LitestreamSoak.Gate

open Lib

abbrev Time := Int
abbrev Duration := Int

def second : Duration := 1000000000
def minute : Duration := 60 * second
def hour : Duration := 60 * minute

def truncate (t : Time) (d : Duration) : Time := t - t % d

/-! ## §1 — the gate -/

inductive RCGateKind where
  | rc
  | upgrade
deriving DecidableEq

inductive RCGateStatus where
  | running
  | tail
  | completed
  | aborted
deriving DecidableEq

structure RCGateResource where
  source : Text
  workerName : Text
  profile : Text
  region : Text
  cpus : Nat
  memoryMB : Nat
  volumeGB : Nat
  tail : Bool
  startedAt : Time
  expiresAt : Time
deriving DecidableEq

structure RCGate where
  id : Nat := 0
  kind : RCGateKind
  laneVariant : Text := []
  repository : Text
  candidateRef : Text := []
  candidateSource : Text
  candidateSHA : Text
  candidateImageRef : Text := []
  candidateGitSHA : Text := []
  baselineSource : Text
  baselineSHA : Text
  baselineImageRef : Text := []
  baselineGitSHA : Text := []
  duration : Duration
  upgradeWarmup : Duration := 0
  tail : Bool := false
  status : RCGateStatus := .running
  startedAt : Time
  expiresAt : Time
  tailExpiresAt : Option Time := none
  provisionDeadline : Time
  candidateReadyAt : Option Time := none
  baselineReadyAt : Option Time := none
  pairedReadyAt : Option Time := none
  completedAt : Option Time := none
  profiles : List Text := []
  observeProxy : Bool := false
  resources : List RCGateResource := []
deriving DecidableEq

namespace RCGate

def sources (g : RCGate) : List Text := [g.candidateSource, g.baselineSource]

def selectsProfile (g : RCGate) (profile : Text) : Bool :=
  if g.profiles = [] then true else g.profiles.contains profile

def litestreamSHAFor (g : RCGate) (source : Text) : Text :=
  if source = g.candidateSource then g.candidateSHA
  else if source = g.baselineSource then g.baselineSHA
  else []

def pinnedBuildFor (g : RCGate) (source : Text) : Text × Text :=
  if source = g.candidateSource then (g.candidateImageRef, g.candidateGitSHA)
  else if source = g.baselineSource then (g.baselineImageRef, g.baselineGitSHA)
  else ([], [])

end RCGate

/-! ## §2 — workers and deployments -/

inductive WorkerStatus where
  | pending
  | building
  | starting
  | running
  | degraded
  | dormant
  | probing
  | stopped
  | failed
deriving DecidableEq

def WorkerStatus.text : WorkerStatus → Text
  | .pending => Lib.text "pending"
  | .building => Lib.text "building"
  | .starting => Lib.text "starting"
  | .running => Lib.text "running"
  | .degraded => Lib.text "degraded"
  | .dormant => Lib.text "dormant"
  | .probing => Lib.text "probing"
  | .stopped => Lib.text "stopped"
  | .failed => Lib.text "failed"

/-- The switches of a worker's profile configuration that the scoring reads. -/
structure ProfileChecks where
  ltxCoverageCheck : Bool := false
  vfsReaderCheck : Bool := false
  walResetCheck : Bool := false
deriving DecidableEq

/-- What the scoring reads of the last runtime sample of a worker, after `Normalize`. -/
structure RuntimePayload where
  litestreamSnapshotHealthy : Bool
  litestreamSnapshotError : Text
  litestreamPID : Int
  litestreamUptimeSeconds : ℚ
  dbTXID : Nat
  replicatedTXID : Nat
  workerPID : Int
  uptimeSeconds : ℚ
  snapshotCollectedAt : Time
  dataDiskUsedPercent : ℚ

structure Worker where
  id : Text
  status : WorkerStatus
  source : Text
  profileName : Text
  profileConfig : Option ProfileChecks := none
  createdAt : Time
  lastHeartbeatAt : Option Time := none
  errorMessage : Text := []
  lastRuntime : Option RuntimePayload := none
  lastRuntimeAt : Option Time := none
  evidenceHoldAt : Option Time := none

def Worker.evidenceHeld (w : Worker) : Bool := w.evidenceHoldAt.isSome

structure Deployment where
  id : Nat
  source : Text
  gitSHA : Text
  litestreamSHA : Text
  workloadSHA : Text
  imageRef : Text
  startedAt : Time

/-! ## §3 — verifications and events -/

structure WorkerIdentity where
  workloadSHA : Text
  deploymentID : Nat
  validatorID : Text
  workerID : Text
  source : Text
  gitSHA : Text
  litestreamSHA : Text
  runID : Text
  profileHash : Text
  machineID : Text
  scenario : Text := []
  upgradePhase : Text := []
  activeLitestreamSHA : Text := []
  /-- the profile configuration carries `metering_window: true` -/
  meteringWindow : Bool := false

structure Verification where
  run : WorkerIdentity
  attributed : Bool
  workerID : Text
  startedAt : Time
  status : Text
  checkType : Text
  passed : Bool
  errorMessage : Text := []
  restoreMode : Text := []
  restoreModeFallback : Text := []

namespace Verification

def aborted (v : Verification) : Bool := equalFold (trimSpace v.status) (text "aborted")

def pending (v : Verification) : Bool := equalFold (trimSpace v.status) (text "pending")

def inconclusive (v : Verification) : Bool := v.aborted || v.pending

def failed (v : Verification) : Bool :=
  !v.inconclusive && (!v.passed || equalFold (trimSpace v.status) (text "failed"))

def succeeded (v : Verification) : Bool :=
  !v.inconclusive && v.passed && !equalFold (trimSpace v.status) (text "failed")

def matchesDeployment (v : Verification) (worker : Worker) (deployment : Deployment) : Bool :=
  v.attributed && 0 < v.run.deploymentID && v.run.deploymentID = deployment.id &&
    v.run.gitSHA = deployment.gitSHA && v.run.litestreamSHA = deployment.litestreamSHA &&
    v.run.workloadSHA = deployment.workloadSHA &&
    v.run.source = deployment.source && v.run.workerID = worker.id &&
    v.run.machineID ≠ [] &&
    v.run.runID ≠ [] && v.run.profileHash ≠ [] && v.run.validatorID ≠ []

theorem not_failed_of_succeeded {v : Verification} (h : v.succeeded = true) : v.failed = false := by
  simp only [succeeded, failed] at *
  grind

end Verification

inductive EventType where
  | platformDiskFull
  | platformDiskFullNoProgress
  | platformDiskFullRecoveryFailed
  | platformRestart
  | platformOOM
  | platformKilled
  | workerFailed
  | workerStale
  | other (name : Text)
deriving DecidableEq

def EventType.text : EventType → Text
  | .platformDiskFull => Lib.text "platform_disk_full"
  | .platformDiskFullNoProgress => Lib.text "platform_disk_full_no_progress"
  | .platformDiskFullRecoveryFailed => Lib.text "platform_disk_full_recovery_failed"
  | .platformRestart => Lib.text "platform_restart"
  | .platformOOM => Lib.text "platform_oom"
  | .platformKilled => Lib.text "platform_killed"
  | .workerFailed => Lib.text "worker_failed"
  | .workerStale => Lib.text "worker_stale"
  | .other name => name

structure Event where
  workerID : Option Text
  eventType : EventType
  message : Text
  createdAt : Time
  occurrences : Int := 1
  restoreOutputOccurrences : Int := 0
  /-- the log line in the details names a full restore output path -/
  restoreOutputPath : Bool := false

structure Heartbeat where
  source : Text
  workerID : Text
  receivedAt : Time

/-! ## §4 — the queries -/

inductive Query where
  | deploymentByVersion (source gitSHA litestreamSHA : Text)
  | workers (source : Text)
  | verifications (workerID : Text)
  | workerEvents (workerID : Text)
  | firstHeartbeatAfter (source workerID : Text) (after : Time)
  | countWorkersWithEvent (eventType : EventType) (start stop : Time)
deriving DecidableEq

inductive ReadError where
  | plain (q : Query)
  | listEvents (workerID : Text) (q : Query)
  | findHeartbeatAfterStale (q : Query)
  | countStaleWorkers (q : Query)
  | listWorkers (source : Text) (q : Query)
deriving DecidableEq

structure DB where
  deployments : List Deployment
  workers : List Worker
  verifications : List Verification
  events : List Event
  heartbeats : List Heartbeat
  fails : Query → Bool := fun _ => false

namespace DB

def read {α : Type} (db : DB) (wrap : Query → ReadError) (q : Query) (value : α) :
    Except ReadError α :=
  if db.fails q then .error (wrap q) else .ok value

def newestFirst {α : Type} (key : α → Time) (rows : List α) : List α :=
  rows.insertionSort fun a b => key b ≤ key a

/-- A missing row is an error of this query, as `sql.ErrNoRows` is. -/
def getDeploymentByVersion (db : DB) (source gitSHA litestreamSHA : Text) : Option Deployment :=
  if db.fails (.deploymentByVersion source gitSHA litestreamSHA) then none
  else
    let rows := db.deployments.filter fun d =>
      d.source = source && d.gitSHA = gitSHA && d.litestreamSHA = litestreamSHA
    (rows.insertionSort fun a b =>
      b.startedAt < a.startedAt ∨ (b.startedAt = a.startedAt ∧ b.id ≤ a.id)).head?

/-- Every status; a source of `""` lists the workers of all sources. -/
def listWorkersFiltered (db : DB) (wrap : Query → ReadError) (source : Text) :
    Except ReadError (List Worker) :=
  db.read wrap (.workers source) <|
    newestFirst Worker.createdAt <|
      db.workers.filter fun w => source = [] || w.source = source

def listVerificationsExcludingMeteringRuns (db : DB) (workerID : Text) (limit : Nat) :
    Except ReadError (List Verification) :=
  db.read .plain (.verifications workerID) <|
    (newestFirst Verification.startedAt <|
      db.verifications.filter fun v => v.workerID = workerID && !v.run.meteringWindow).take limit

def listWorkerEvents (db : DB) (workerID : Text) (limit : Nat) :
    Except ReadError (List Event) :=
  db.read (.listEvents workerID) (.workerEvents workerID) <|
    (newestFirst Event.createdAt <|
      db.events.filter fun e => e.workerID = some workerID).take limit

def firstHeartbeatAfter (db : DB) (source workerID : Text) (after : Time) :
    Except ReadError (Option Time) :=
  db.read .findHeartbeatAfterStale (.firstHeartbeatAfter source workerID after) <|
    ((db.heartbeats.filter fun h =>
      h.source = source && h.workerID = workerID && after < h.receivedAt).map
        Heartbeat.receivedAt).min?

def countWorkersWithEventBetween (db : DB) (eventType : EventType) (start stop : Time) :
    Except ReadError Nat :=
  db.read .countStaleWorkers (.countWorkersWithEvent eventType start stop) <|
    ((db.events.filter fun e =>
      e.eventType = eventType && start ≤ e.createdAt && e.createdAt ≤ stop).filterMap
        Event.workerID).dedup.length

end DB

end LitestreamSoak.Gate
