import LitestreamSoak.Reporting.Classification
import LitestreamSoak.Store.Workers

/-!
# Orchestrator — the classification of a verification report

The part of `handleVerification` that decides what a reported verification is: whether a failure
says anything about the build (`normalizeInconclusiveRestoreFailure`), and which classification is
stored with it. A worker sends its own classification; the control plane computes one as well and
prefers it for a full disk.

A classification test can panic (`none`): the request is then lost.
-/

namespace LitestreamSoak.Orchestrator.VerificationReport

open Lib Lib.Utf8 Reporting

/-! ## §1 — reports -/

/-- `VerificationPayload`, as decoded from JSON; times in nanoseconds. `snapshot` is the runtime
snapshot as it is written to the worker's row and `snapshotAt` its time if it is a healthy one. -/
structure VerificationPayload where
  identity : Store.Workers.WorkerIdentity := {}
  startedAt : Int := 0
  completedAt : Option Int := none
  checkType : Text := []
  status : Text := []
  passed : Bool := false
  summary : Text := []
  errorMessage : Text := []
  failureClassification : Option FailureClassification := none
  restoreMode : Text := []
  runtime : DiskTelemetry := {}
  snapshot : Text := []
  snapshotAt : Option Int := none
deriving DecidableEq

/-- The check types of the worker: the verification's (`VERIFY_TYPE`), and those of the checks next
to it. -/
def workerCheckTypes : List Text :=
  ["quick", "integrity", "checksum", "full", "pre-upgrade-restore", "coverage", "vfs", "follow",
    "walreset"].map text

/-- The payload `decodeEvidenceReport` makes of a report whose error message has these bytes: a
JSON string carries their text. -/
def VerificationPayload.receive (p : VerificationPayload) (message : Bytes) : VerificationPayload :=
  { p with errorMessage := toValid message }

/-- `verificationStatusAborted`, and `Verification.Aborted`. -/
def verificationStatusAborted (status : Text) : Bool :=
  equalFold (trimSpace status) (text "aborted")

def verificationStatusPending (status : Text) : Bool :=
  equalFold (trimSpace status) (text "pending")

def VerificationPayload.failed (p : VerificationPayload) : Bool :=
  !p.passed && !verificationStatusAborted p.status && !verificationStatusPending p.status

/-! ## §2 — inconclusive failures -/

def VerificationPayload.inconclusive (p : VerificationPayload)
    (classification : Option FailureClassification) : VerificationPayload :=
  { p with
    status := text "aborted"
    failureClassification := classification
    summary :=
      if hasPrefix p.summary (text "verification inconclusive:") then p.summary
      else text "verification inconclusive: " ++ Lib.firstNonEmpty [p.summary, p.errorMessage] }

def normalizeInconclusiveRestoreFailure (p : VerificationPayload) : Option VerificationPayload :=
  if !p.failed then some p
  else if restoreOutputDiskFull p.errorMessage then
    some (p.inconclusive (some (harnessCapacityClassification p.restoreMode)))
  else (restoredComparisonLocked p.errorMessage).bind fun locked =>
    if locked then
      some (p.inconclusive (some (restoredComparisonLockedClassification p.restoreMode)))
    else (pinnedRestoreTargetUnavailable p.restoreMode p.errorMessage).bind fun unavailable =>
      if unavailable then some (p.inconclusive none)
      else (restoreRequestCanceled p.errorMessage).map fun canceled =>
        if canceled then p.inconclusive none else p

/-! ## §3 — the stored classification -/

def reportedDiskClassification (p : VerificationPayload) : Bool :=
  p.failureClassification.any fun c =>
    c.stage = stageDiskCapacity || c.signature = encode diskCapacityFull ||
      c.signature = encode soakFixtureDiskExhausted

/-- The payload's own classification is kept: it is there, and neither it nor the computed one is
of a full disk. -/
def keepsReported (p : VerificationPayload) (computed : FailureClassification) : Bool :=
  computed.stage ≠ stageDiskCapacity && !reportedDiskClassification p &&
    p.failureClassification.isSome

def chooseClassification (p : VerificationPayload) (computed : FailureClassification) :
    FailureClassification :=
  if computed.stage = stageDiskCapacity then computed
  else if reportedDiskClassification p then
    { stage := stageDiskCapacity, signature := encode diskCapacityFull }
  else p.failureClassification.getD computed

def fillRestoreMode (restoreMode : Text) (c : FailureClassification) : FailureClassification :=
  if c.restoreMode = [] then { c with restoreMode := restoreMode } else c

/-- A payload after the classification. `computed` tells whether its classification is the control
plane's own. -/
structure Ingested where
  payload : VerificationPayload
  computed : Bool
deriving DecidableEq

/-- `handleVerification` up to the classification, of a failure. -/
def classifyFailed (observedAt : Option Int) (p : VerificationPayload) : Option Ingested :=
  (classifyVerificationFailureWithRuntime p.checkType p.errorMessage p.identity.profileName
    p.runtime observedAt).map fun computed =>
      { payload := { p with
          failureClassification :=
            some (fillRestoreMode p.restoreMode (chooseClassification p computed)) }
        computed := !keepsReported p computed }

def ingest (observedAt : Option Int) (p : VerificationPayload) : Option Ingested :=
  (normalizeInconclusiveRestoreFailure p).bind fun normalized =>
    if normalized.failed then classifyFailed observedAt normalized
    else some { payload := normalized, computed := p.failed }

end LitestreamSoak.Orchestrator.VerificationReport
