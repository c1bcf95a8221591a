import LitestreamSoak.Orchestrator.VerificationReport
import LitestreamSoak.Store.Verifications

/-!
# Orchestrator — what the reports of a worker do

The handlers of `internal/orchestrator/handlers_worker.go` for one worker that is registered with
an expected run, and the two decisions that are made from the worker's verifications: whether a
failure is weather of the object store (`envfailure.go`), and whether the worker is to be paused
(`dormancy.go`).

A report that does not match the expected run is quarantined: its handler keeps the evidence but
does not touch the worker's row. A verification is recorded in either case, and both decisions
read the recorded verifications.

A classifier that panics takes the request, or the evaluation, down: `none`.
-/

namespace LitestreamSoak.Orchestrator.Reports

open Lib Lib.Utf8 Reporting
open Store.Workers Store.Verifications
open Orchestrator.VerificationReport
open Gate (WorkerStatus)

/-! ## §1 — settings and state -/

structure Codec where
  /-- The profile hash, from the first bytes of a SHA-256 digest in hex. -/
  profileHash : Text → Text
  /-- Whether a profile has `"metering_window": true`, for SQLite. -/
  storedInWindow : Text → Bool
  windowMarker : Text → Bool
  storedInWindow_nil : storedInWindow [] = false

structure EnvironmentalFailurePolicy where
  bucket : Text := []
  escalateAfterConsecutive : Int := 0
deriving DecidableEq

def EnvironmentalFailurePolicy.consecutive (p : EnvironmentalFailurePolicy) : Nat :=
  if p.escalateAfterConsecutive ≤ 0 then 2 else p.escalateAfterConsecutive.toNat

structure DormancyPolicy where
  threshold : Int := 0
  minFailures : Int := 0
deriving DecidableEq

/-- The values `RunDormancyLoop` replaces by its defaults, a day and three failures. -/
def DormancyPolicy.normalizedThreshold (p : DormancyPolicy) : Int :=
  if p.threshold ≤ 0 then 86400000000000 else p.threshold

def DormancyPolicy.normalizedMinFailures (p : DormancyPolicy) : Nat :=
  if p.minFailures ≤ 0 then 3 else p.minFailures.toNat

structure Settings extends Codec where
  workerID : Text
  environmental : EnvironmentalFailurePolicy := {}
  dormancy : DormancyPolicy := {}
  /-- The API has a manager, which can pause a worker. -/
  hasManager : Bool := true

structure State where
  worker : Option Store.Workers.Worker := none
  verifications : List Verification := []
deriving DecidableEq

/-! ## §2 — attribution -/

section Attribution

variable (codec : Codec) (expected identity : Store.Workers.WorkerIdentity)

/-- `matches` of `ReportAttribution`, for a worker with an expected run. -/
def matchesRun : Bool :=
  identity.runID ≠ [] && identity.runID = expected.runID &&
    identity.deploymentID = expected.deploymentID &&
    identity.gitSHA = expected.gitSHA &&
    identity.litestreamSHA = expected.litestreamSHA &&
    identity.imageRef = expected.imageRef &&
    identity.source = expected.source && identity.profileName = expected.profileName &&
    identity.workloadID ≠ [] && identity.workloadID = expected.workloadID &&
    identity.profileConfig ≠ [] && identity.profileConfig = expected.profileConfig &&
    identity.profileHash = codec.profileHash identity.profileConfig &&
    identity.validatorID = text "soak-verifier:" ++ expected.gitSHA &&
    identity.machineID ≠ [] && identity.machineID = expected.machineID &&
    (expected.workloadSHA = [] || identity.workloadSHA = expected.workloadSHA)

def attributed : Bool :=
  matchesRun codec expected identity && identity.workloadSHA ≠ [] &&
    identity.workloadSHA = expected.workloadSHA && identity.deploymentID > 0 &&
    identity.gitSHA ≠ [] && identity.litestreamSHA ≠ []

def quarantined : Bool := !matchesRun codec expected identity

end Attribution

/-! ## §3 — environmental failures -/

/-- `isTransientObjectStoreFailure`, of a classification that is there. -/
def isTransientObjectStoreFailure (policy : EnvironmentalFailurePolicy)
    (c : FailureClassification) : Bool :=
  c.objectStore.any fun failure =>
    let configured := trimSpace policy.bucket
    let bucket := trimSpace failure.bucket
    let operation := toLower failure.operation
    let apiCode := toLower failure.apiCode
    configured ≠ [] && (bucket = [] || bucket = configured) &&
      ((apiCode = text "nosuchbucket" ||
          (operation = text "listobjectsv2" && failure.httpStatus = 404)) ||
        (apiCode = text "slowdown" || failure.httpStatus = 503) ||
        (apiCode = text "requestcanceled" || failure.httpStatus = 408))

def classifyVerification (v : Verification) : Option FailureClassification :=
  match v.failureClassification with
  | some c => if c.valid then some c else classifyVerificationFailure v.checkType v.errorMessage
  | none => classifyVerificationFailure v.checkType v.errorMessage

/-- The loop of `environmentalStreakEscalated`: the streak that a listing continues. -/
def environmentalStreak (policy : EnvironmentalFailurePolicy) :
    Nat → List Verification → Option Nat
  | count, [] => some count
  | count, v :: previous =>
    if v.inconclusive then environmentalStreak policy count previous
    else if !v.failed then some count
    else (classifyVerification v).bind fun c =>
      if !isTransientObjectStoreFailure policy c then some count
      else environmentalStreak policy (count + 1) previous

def historyLimit (policy : EnvironmentalFailurePolicy) : Nat :=
  max 50 ((policy.consecutive + 1) * 5)

def environmentalWithoutEscalation (policy : EnvironmentalFailurePolicy)
    (verifications : List Verification) (c : FailureClassification) : Option Bool :=
  if !isTransientObjectStoreFailure policy c then some false
  else (environmentalStreak policy 1
    (listVerifications verifications (historyLimit policy))).map fun count =>
      !decide (policy.consecutive < count)

/-- `environmental` of `handleVerification`; a payload that is ingested as failed has a
classification. -/
def environmental (policy : EnvironmentalFailurePolicy) (verifications : List Verification)
    (p : VerificationPayload) : Option Bool :=
  match p.failed, p.failureClassification with
  | true, some c => environmentalWithoutEscalation policy verifications c
  | _, _ => some false

/-! ## §4 — dormancy -/

structure DormancyCandidate where
  signature : Bytes
  since : Int
  count : Nat
deriving DecidableEq

/-- The loop of `detectDormancyCandidate`: how many of the first rows fail with the signature, and
when the last of these was. -/
def sameFailures (signature : Bytes) : Nat → Int → List Verification → Option (Nat × Int)
  | count, oldest, [] => some (count, oldest)
  | count, oldest, v :: rest =>
    if !v.failed then some (count, oldest)
    else (classifyVerification v).bind fun c =>
      if c.signature ≠ signature then some (count, oldest)
      else sameFailures signature (count + 1) v.observedAt rest

def detectDormancyCandidate (policy : DormancyPolicy) (now : Int) :
    List Verification → Option (Option DormancyCandidate)
  | [] => some none
  | latest :: rest =>
    if !latest.failed then some none
    else (classifyVerification latest).bind fun c =>
      let signature := if c.signature = [] then encode (text "unknown_failure") else c.signature
      (sameFailures signature 0 0 (latest :: rest)).map fun (count, oldest) =>
        if count < policy.normalizedMinFailures || oldest = 0 then none
        else if now - oldest < policy.normalizedThreshold then none
        else some { signature := signature, since := oldest, count := count }

/-- `dormancyEvaluationStart`; the times of a worker's row are in seconds. -/
def dormancyEvaluationStart (w : Store.Workers.Worker) : Int :=
  1000000000 * (w.lastProbeAt.elim w.createdAt (max w.createdAt))

def verificationsSince (verifications : List Verification) (cutoff : Int) : List Verification :=
  if cutoff = 0 then verifications else verifications.filter (cutoff ≤ ·.observedAt)

def runInMeteringWindow (codec : Codec) (run : Store.Workers.WorkerIdentity) : Bool :=
  containsText run.profileConfig (text "\"metering_window\"") &&
    codec.windowMarker run.profileConfig

def dormancyHistory (codec : Codec) (w : Store.Workers.Worker) (verifications : List Verification) :
    List Verification :=
  let listed := listVerifications
    (verifications.filter fun v => !codec.storedInWindow v.run.profileConfig) 256
  (verificationsSince listed (dormancyEvaluationStart w)).filter fun v =>
    !runInMeteringWindow codec v.run

/-- What `evaluateDormancy` finds at a time: a reason to pause the worker, or none. An evaluation
that panics finds none. -/
def dormancyDecision (settings : Settings) (now : Int) (s : State) : Option DormancyCandidate :=
  s.worker.bind fun w =>
    if w.status ∈ [.running, .degraded] then
      (detectDormancyCandidate settings.dormancy now
        (dormancyHistory settings.toCodec w s.verifications)).join
    else none

/-! ## §5 — the handlers -/

/-- `HeartbeatPayload`; of the runtime, whether it was captured before the start, and what is
written to the worker's row. -/
structure HeartbeatPayload where
  identity : Store.Workers.WorkerIdentity := {}
  preStart : Bool := false
  snapshot : Text := []
  snapshotAt : Option Int := none
deriving DecidableEq

/-- `WorkerEventPayload`; `replay` if it carries the id of an event that is sent again. -/
structure WorkerEventPayload extends HeartbeatPayload where
  eventType : Text := []
  message : Text := []
  replay : Bool := false
deriving DecidableEq

inductive Report where
  | heartbeat (p : HeartbeatPayload)
  | verification (p : VerificationPayload)
  | event (p : WorkerEventPayload)
deriving DecidableEq

def Report.identity : Report → Store.Workers.WorkerIdentity
  | .heartbeat p => p.identity
  | .verification p => p.identity
  | .event p => p.identity

structure Received where
  now : Int
  report : Report
deriving DecidableEq

def Received.seconds (r : Received) : Int := r.now / 1000000000

section Handlers

variable (settings : Settings) (expected : Store.Workers.WorkerIdentity)

def named (identity : Store.Workers.WorkerIdentity) : Store.Workers.WorkerIdentity :=
  { identity with
    workerID := settings.workerID, name := orElse identity.name settings.workerID }

/-- `upsertReportedWorker` of the model and `UpdateWorkerRuntimeSnapshot`. -/
def reportRow (seconds : Int) (identity : Store.Workers.WorkerIdentity) (reported : WorkerStatus)
    (failed : Bool) (snapshot : Text) (snapshotAt : Option Int) (w : Option Store.Workers.Worker) :
    Store.Workers.Worker :=
  updateWorkerRuntimeSnapshot seconds snapshot snapshotAt
    (upsertReportedWorker seconds (named settings identity) reported failed w)

def handleHeartbeat (seconds : Int) (p : HeartbeatPayload) (s : State) : State :=
  if quarantined settings.toCodec expected p.identity then s
  else { s with
    worker := some (reportRow settings seconds p.identity
      (if p.preStart then .starting else .running) false p.snapshot p.snapshotAt s.worker) }

def eventRow (seconds : Int) (p : WorkerEventPayload) (w : Option Store.Workers.Worker) :
    Store.Workers.Worker :=
  if trimSpace p.eventType = text "worker_failed" then
    reportRow settings seconds p.identity .starting true p.snapshot p.snapshotAt w
  else
    reportRow settings seconds p.identity (if p.preStart then .starting else .running) false
      p.snapshot p.snapshotAt w

def handleWorkerEvent (seconds : Int) (p : WorkerEventPayload) (s : State) : State :=
  if trimSpace p.eventType = [] then s
  else if quarantined settings.toCodec expected p.identity then s
  else
    let worker := if p.replay then s.worker else some (eventRow settings seconds p s.worker)
    let message := if trimSpace p.message = [] then p.eventType else p.message
    if trimSpace p.eventType ∈ [text "platform_disk_full_no_progress",
        text "platform_disk_full_recovery_failed"] then
      { s with worker := worker.map (updateWorkerVerificationState seconds false message) }
    else { s with worker := worker }

def verificationRow (p : VerificationPayload) : Verification :=
  { run := named settings p.identity
    attributed := attributed settings.toCodec expected p.identity
    startedAt := p.startedAt, completedAt := p.completedAt, status := p.status
    checkType := p.checkType, passed := p.passed, errorMessage := p.errorMessage
    classification := p.failureClassification, restoreMode := p.restoreMode }

/-- `dormantWorkerLocked` for a probe that failed. -/
def dormantProbe (seconds : Int) (signature : Text) (w : Store.Workers.Worker) :
    Store.Workers.Worker :=
  if w.status ∈ [.stopped, .failed] then w
  else markWorkerDormant seconds
    (text "worker probe failed with " ++ signature ++ text "; returning to dormant state")
    signature (text "probe_failed") w

def verifiedRow (seconds : Int) (p : VerificationPayload) (env : Bool)
    (w : Option Store.Workers.Worker) :
    Store.Workers.Worker :=
  let before := reportRow settings seconds p.identity .running false p.snapshot p.snapshotAt w
  let after :=
    if !verificationStatusAborted p.status && !verificationStatusPending p.status && !env then
      updateWorkerVerificationState seconds p.passed p.summary before
    else before
  if before.status = .probing && p.failed && !env && settings.hasManager then
    dormantProbe seconds (p.failureClassification.elim [] fun c => toValid c.signature) after
  else after

def received (now : Int) (p : VerificationPayload) : Option VerificationPayload :=
  (ingest (some (p.completedAt.getD now)) p).map Ingested.payload

def environmentalDecision (now : Int) (p : VerificationPayload) (s : State) : Option Bool :=
  (received now p).bind (environmental settings.environmental s.verifications)

/-- The part of `handleVerification` that writes, of a classified payload. -/
def recordVerification (seconds : Int) (p : VerificationPayload) (env : Bool) (s : State) :
    State :=
  { worker :=
      if quarantined settings.toCodec expected p.identity then s.worker
      else some (verifiedRow settings seconds p env s.worker)
    verifications := s.verifications ++ [verificationRow settings expected p] }

/-- `handleVerification`; the environmental decision is made before the report's identity is
looked at. -/
def handleVerification (r : Received) (p : VerificationPayload) (s : State) : State :=
  match received r.now p with
  | none => s
  | some p =>
    match environmental settings.environmental s.verifications p with
    | none => s
    | some env => recordVerification settings expected r.seconds p env s

def handle (s : State) (r : Received) : State :=
  match r.report with
  | .heartbeat p => handleHeartbeat settings expected r.seconds p s
  | .verification p => handleVerification settings expected r p s
  | .event p => handleWorkerEvent settings expected r.seconds p s

end Handlers

end LitestreamSoak.Orchestrator.Reports
