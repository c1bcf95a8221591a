import LitestreamSoak.Gate.Ledger

/-!
# Gate — worker faults

A side of a gate scenario is scored by its verifications and by whether its worker is at fault.
`rcGateSideFault` decides the latter from the worker row and the events of the gate window:

* **disk** — a full disk, unless every occurrence was the verifier's own restore output;
* **crash loop** — two crashes, or one after which the platform gave up, where a planned restart
  (`PlannedRestarts`) takes one platform restart off the count;
* **degraded** — the worker row says so, or it went silent past the grace period.

A fault before Litestream ever ran is `harnessInconclusive`; every other reason is a hard fault.
The texts of a reason are kept as the data they are rendered from (`Detail`).
-/

namespace LitestreamSoak.Gate

open Lib

def rcGateWorkerEventHistory : Nat := 2000
def rcGateCrashLoopEvents : Int := 2
def rcGateDiskExhaustedUsedPct : ℚ := 98
def rcGateFlyNotRestartingMarker : Text := text "not restarting"
def rcGateStaleWorkerMessage : Text := text "worker missed heartbeat deadline"
def rcGateStaleGrace : Duration := 30 * minute
def rcGateStaleBurstWorkers : Nat := 3
def rcGateStaleBurstWindow : Duration := 90 * second
def rcGatePlannedRestartWindow : Duration := 10 * minute
def rcGateStressPhase : Duration := 6 * hour

def gateStressProfile : Text := text "gate-stress"

def rcGateDiskFullEventTypes : List EventType :=
  [.platformDiskFull, .platformDiskFullNoProgress, .platformDiskFullRecoveryFailed]

def rcGateCrashEventTypes : List EventType :=
  [.platformRestart, .platformOOM, .platformKilled, .workerFailed]

def rcGatePlannedLifecycleMarkers : List Text :=
  [text "stress scenario phase ended", text "upgrade warm-up ended"]

def rcGatePreStartFailurePrefixes : List Text :=
  [text "populate:", text "prepare disk-full recovery reserve:", text "write litestream config:",
    text "start litestream:"]

/-! ## §1 — reasons -/

inductive Reason where
  | diskExhausted
  | workerCrashLoop
  | workerDegraded
  | harnessInconclusive
deriving DecidableEq

def rcGateHardFault (reason : Option Reason) : Bool :=
  reason ≠ none && reason ≠ some .harnessInconclusive

inductive Silence where
  | noHeartbeatSince (t : Time)
  | resumedAfter (d : Duration)

/-- The affirmative evidence that Litestream never ran. -/
inductive PreStartEvidence where
  | workerFailed (step : Text)
  | idleHeartbeat (collectedAt : Option Time)

inductive Detail where
  | message (m : Text)
  | dataDiskUsed (percent : ℚ)
  | crashes (count : Int) (last : Text)
  | stale (message : Text) (burst : Option Nat) (silence : Silence)
  | beforeLitestreamStarted (reason : Reason) (evidence : PreStartEvidence) (detail : Detail)

/-! ## §2 — planned restarts -/

def rcGatePlannedLifecycleEvent (event : Event) : Bool :=
  event.eventType = .workerFailed &&
    rcGatePlannedLifecycleMarkers.any fun marker => containsText (toLower event.message) marker

def rcGateWithinPlannedWindow (t moment : Time) : Bool :=
  -rcGatePlannedRestartWindow ≤ t - moment && t - moment ≤ rcGatePlannedRestartWindow

/-- The characters `\b` counts as part of a word. -/
def isWordChar (c : Char) : Bool := c.isAlphanum || c = '_'

/-- `exit code:?\s*(0|143)\b` at the head of a text. -/
def cleanExitHere (s : Text) : Bool :=
  let word := text "exit code"
  let colon := s.drop word.length
  let blanks := if colon.head? = some ':' then colon.tail else colon
  let code := blanks.dropWhile (· ∈ ['\t', '\n', '\x0c', '\r', ' '])
  word.isPrefixOf s && [text "0", text "143"].any fun n =>
    n.isPrefixOf code && !(code.drop n.length).head?.any isWordChar

def rcGateCleanExitMessage (message : Text) : Bool := (toLower message).tails.any cleanExitHere

structure PlannedRestarts where
  phase : Duration
  moments : List Time
  forgiven : List Time

namespace PlannedRestarts

/-- The planned moment a time belongs to: the nearest phase boundary where the worker has phases,
otherwise a known moment within the window, otherwise the time itself. -/
def normalize (p : PlannedRestarts) (t : Time) : Time :=
  if 0 < p.phase then
    let boundary := truncate t p.phase
    if p.phase / 2 < t - boundary then boundary + p.phase else boundary
  else (p.moments.find? fun moment => rcGateWithinPlannedWindow t moment).getD t

def observe (p : PlannedRestarts) (event : Event) : PlannedRestarts :=
  if !rcGatePlannedLifecycleEvent event then p
  else
    let moment := p.normalize event.createdAt
    if p.moments.contains moment then p else { p with moments := p.moments ++ [moment] }

def forgive (p : PlannedRestarts) (event : Event) : Bool × PlannedRestarts :=
  let moment := p.normalize event.createdAt
  if !rcGateWithinPlannedWindow event.createdAt moment then (false, p)
  else
    let planned := p.moments.contains moment ||
      (0 < p.phase && rcGateCleanExitMessage event.message)
    if !planned || p.forgiven.contains moment then (false, p)
    else (true, { p with forgiven := moment :: p.forgiven })

end PlannedRestarts

def rcGatePlannedRestartsFor (worker : Worker) (events : List Event) : PlannedRestarts :=
  let phase := if worker.profileName = gateStressProfile then rcGateStressPhase else 0
  events.foldl PlannedRestarts.observe { phase, moments := [], forgiven := [] }

/-! ## §3 — silence -/

/-- The first sign of life after a stale event: a heartbeat in the journal, a verification, or,
failing both, the heartbeat on the worker row. -/
def resumedAfterStale (worker : Worker) (event : Event) (heartbeat : Option Time)
    (verificationTimes : List Time) : Option Time :=
  let resumed := verificationTimes.foldl (fun resumed t =>
    if event.createdAt < t && resumed.all (t < ·) then some t else resumed) heartbeat
  resumed.or (worker.lastHeartbeatAt.filter (event.createdAt < ·))

def rcGateStaleFault (db : DB) (worker : Worker) (event : Event) (verificationTimes : List Time)
    (stop : Time) : Except ReadError (Option Detail) := do
  let heartbeat ← db.firstHeartbeatAfter worker.source worker.id event.createdAt
  let resumed := resumedAfterStale worker event heartbeat verificationTimes
  if resumed.any fun t => t - event.createdAt ≤ rcGateStaleGrace then return none
  if resumed = none && stop - event.createdAt < rcGateStaleGrace then return none
  let burst ← db.countWorkersWithEventBetween .workerStale
    (event.createdAt - rcGateStaleBurstWindow) (event.createdAt + rcGateStaleBurstWindow)
  let message := firstNonEmpty [event.message, event.eventType.text]
  let burst := if rcGateStaleBurstWorkers ≤ burst then some burst else none
  match resumed with
  | none => return some (.stale message burst (.noHeartbeatSince event.createdAt))
  | some t => return some (.stale message burst (.resumedAfter (t - event.createdAt)))

def rcGateCurrentlySilent (worker : Worker) (lastStale stop : Time) : Bool :=
  match worker.lastHeartbeatAt.filter (lastStale < ·) with
  | some t => rcGateStaleGrace ≤ stop - t
  | none => if lastStale ≠ 0 then rcGateStaleGrace ≤ stop - lastStale else true

/-! ## §4 — the fault of a worker -/

def rcGateRestoreCapacityPressure (event : Event) : Bool :=
  event.eventType = .platformDiskFull && event.restoreOutputPath &&
    (event.occurrences ≤ 1 || event.occurrences ≤ event.restoreOutputOccurrences)

structure FaultScan where
  planned : PlannedRestarts
  disk : Option Detail := none
  crashes : Int := 0
  lastCrash : Text := []
  terminalCrash : Bool := false
  lastStale : Time := 0
  stale : Option Detail := none

def FaultScan.crash (scan : FaultScan) (event : Event) : FaultScan :=
  let terminal := containsText (toLower event.message) rcGateFlyNotRestartingMarker
  let (forgiven, planned) :=
    if event.eventType = .platformRestart && !terminal then scan.planned.forgive event
    else (false, scan.planned)
  let count := max 1 event.occurrences - if forgiven then 1 else 0
  if count = 0 then { scan with planned }
  else
    { scan with
      planned
      crashes := scan.crashes + count
      lastCrash := firstNonEmpty [event.message, event.eventType.text]
      terminalCrash := scan.terminalCrash || terminal }

def FaultScan.step (db : DB) (worker : Worker) (verificationTimes : List Time) (stop : Time)
    (scan : FaultScan) (event : Event) : Except ReadError FaultScan :=
  if event.eventType ∈ rcGateDiskFullEventTypes then
    if rcGateRestoreCapacityPressure event then .ok scan
    else
      .ok { scan with disk := some (.message
        (firstNonEmpty [event.message, event.eventType.text])) }
  else if event.eventType ∈ rcGateCrashEventTypes then
    if rcGatePlannedLifecycleEvent event then .ok scan else .ok (scan.crash event)
  else if event.eventType = .workerStale then do
    let fault ← rcGateStaleFault db worker event verificationTimes stop
    .ok { scan with lastStale := max scan.lastStale event.createdAt, stale := fault.or scan.stale }
  else .ok scan

def isDiskCapacityMessage (message : Text) : Bool :=
  [text "no space left on device", text "database or disk is full", text "disk is full",
    text "enospc", text "sqlite_full"].any fun part => containsText (toLower message) part

def FaultScan.fault (scan : FaultScan) (worker : Worker) (stop : Time) : Option (Reason × Detail) :=
  let reported := worker.status = .degraded || worker.status = .failed
  let staleOnly := worker.errorMessage = rcGateStaleWorkerMessage
  -- a stale-only degradation stands while the worker is still silent
  let degraded :=
    if reported && staleOnly then rcGateCurrentlySilent worker scan.lastStale stop else reported
  let disk := scan.disk.or <|
    if degraded && isDiskCapacityMessage worker.errorMessage then
      some (.message worker.errorMessage)
    else (worker.lastRuntime.filter fun r => rcGateDiskExhaustedUsedPct ≤ r.dataDiskUsedPercent).map
      fun r => .dataDiskUsed r.dataDiskUsedPercent
  match disk with
  | some detail => some (.diskExhausted, detail)
  | none =>
    if rcGateCrashLoopEvents ≤ scan.crashes || scan.terminalCrash then
      some (.workerCrashLoop, .crashes scan.crashes scan.lastCrash)
    else if degraded then
      let reported := Detail.message (firstNonEmpty [worker.errorMessage, worker.status.text])
      some (.workerDegraded, if staleOnly then scan.stale.getD reported else reported)
    else scan.stale.map fun detail => (.workerDegraded, detail)

def rcGateWorkerFault (db : DB) (worker : Worker) (events : List Event)
    (verificationTimes : List Time) (stop : Time) :
      Except ReadError (Option (Reason × Detail)) := do
  let scan ← events.foldlM (FaultScan.step db worker verificationTimes stop)
    { planned := rcGatePlannedRestartsFor worker events }
  return scan.fault worker stop

/-! ## §5 — the fault of a side -/

def rcGatePreStartEvidence (worker : Worker) (events : List Event) : Option PreStartEvidence :=
  if worker.lastRuntimeAt.isSome then none
  else
    let failure := events.findSome? fun event =>
      if event.eventType ≠ .workerFailed then none
      else rcGatePreStartFailurePrefixes.find? fun start => hasPrefix
        (trimSpace event.message) start
    match failure with
    | some step => some (.workerFailed step.dropLast)
    | none =>
      (worker.lastRuntime.filter fun r =>
        !r.litestreamSnapshotHealthy && r.litestreamPID = 0 && !(0 < r.litestreamUptimeSeconds) &&
          r.dbTXID = 0 && r.replicatedTXID = 0 &&
          (0 < r.workerPID || 0 < r.uptimeSeconds || trimSpace r.litestreamSnapshotError ≠ [])).map
        fun r => .idleHeartbeat
          (if r.snapshotCollectedAt = 0 then none else some r.snapshotCollectedAt)

def rcGateSideFault (db : DB) (gate : RCGate) (worker : Worker) (verificationTimes : List Time)
    (stop : Time) : Except ReadError (Option (Reason × Detail)) := do
  let events ← db.listWorkerEvents worker.id rcGateWorkerEventHistory
  let windowStart := truncate gate.startedAt second
  let inWindow := events.filter fun event =>
    !(event.createdAt < windowStart) && !(stop < event.createdAt)
  let fault ← rcGateWorkerFault db worker inWindow verificationTimes stop
  match fault with
  | none => return none
  | some (reason, detail) =>
    if verificationTimes = [] then
      match rcGatePreStartEvidence worker inWindow with
      | some evidence =>
        return some (.harnessInconclusive, .beforeLitestreamStarted reason evidence detail)
      | none => return some (reason, detail)
    else return some (reason, detail)

end LitestreamSoak.Gate
