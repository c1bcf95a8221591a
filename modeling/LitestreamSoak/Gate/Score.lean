import LitestreamSoak.Gate.Scenarios

/-!
# Gate — scoring

`buildRCGateResults` scores every scenario of a gate. A side is first read (`readSide`: the worker,
the verifications that count, the fault), then counted in one pass over those verifications, once
for the side as a whole and once per restore mode. The verdict of a scenario is folded from the
verdicts of its modes, with two overrides: a failed standalone check is a regression on its own,
and a WAL-reset scenario passes only where the baseline reproduced the bug.

`signature` is the signature the failure classifier gives to a check type and an error message;
nothing here depends on how it is computed.
-/

namespace LitestreamSoak.Gate

open Lib

def rcGateVerificationHistory : Nat := 2000

inductive SideStatus where
  | missing
  | noCoverage
  | passing
  | failing
deriving DecidableEq

inductive ScenarioVerdict where
  | pass
  | incomplete
  | regression
  | bothFailing
  | noReproduction
deriving DecidableEq

inductive GateVerdict where
  | pass
  | fail
  | incomplete
deriving DecidableEq

structure RCGateSideResult where
  source : Text
  workerID : Text := []
  status : SideStatus
  passed : Nat := 0
  failed : Nat := 0
  reproduced : Nat := 0
  rotationEnabled : Bool := false
  fault : Option (Reason × Detail) := none
  checks : ProfileChecks := {}

structure RCGateModeResult where
  mode : Text
  candidate : RCGateSideResult
  baseline : RCGateSideResult
  verdict : ScenarioVerdict

structure RCGateScenarioResult where
  scenario : Text
  profile : Text
  candidate : RCGateSideResult
  baseline : RCGateSideResult
  modes : List RCGateModeResult
  verdict : ScenarioVerdict

/-! ## §1 — reading a side -/

def rcGateOwnsWorker (gate : RCGate) (worker : Worker) : Bool :=
  !(worker.createdAt < truncate gate.startedAt second)

structure SideReads where
  worker : Worker
  accepted : List Verification
  fault : Option (Reason × Detail)

/-- The worker and the deployment a side is scored on; `none` is a missing side. -/
def sideTarget (db : DB) (gate : RCGate) (scenario : GateScenario) (filter : GateSideFilter) :
    Except ReadError (Option (Worker × Deployment)) := do
  let source := filter.sourceFor gate
  let profile := scenario.sideProfile filter
  let (pinnedImage, pinnedGit) := gate.pinnedBuildFor source
  let pinnedLitestream := gate.litestreamSHAFor source
  if pinnedImage = [] then return none
  -- a failed read of the deployment is a missing side too
  match db.getDeploymentByVersion source pinnedGit pinnedLitestream with
  | none => return none
  | some deployment =>
    if deployment.imageRef ≠ pinnedImage then return none
    let workers ← db.listWorkersFiltered .plain source
    return (workers.find? fun worker =>
      worker.profileName = profile && rcGateOwnsWorker gate worker).map (·, deployment)

/-- The reads of `rcGateSide`. Every verification of the deployment in the gate window is a sign of
life for the fault; only those the filter accepts are counted. -/
def readSide (db : DB) (gate : RCGate) (scenario : GateScenario) (filter : GateSideFilter)
    (stop : Time) : Except ReadError (Option SideReads) := do
  match ← sideTarget db gate scenario filter with
  | none => return none
  | some (worker, deployment) =>
    let verifications ←
      db.listVerificationsExcludingMeteringRuns worker.id rcGateVerificationHistory
    let observed := verifications.filter fun v =>
      !(v.startedAt < gate.startedAt) && !(stop < v.startedAt) &&
        v.matchesDeployment worker deployment
    let accepted := observed.filter fun v =>
      v.run.scenario = scenario.identity && filter.accepts gate v
    let fault ← rcGateSideFault db gate worker (observed.map (·.startedAt)) stop
    return some { worker, accepted, fault }

/-! ## §2 — counting a side -/

def rcGateSideStatus (side : RCGateSideResult) : SideStatus :=
  if 0 < side.failed || rcGateHardFault (side.fault.map Prod.fst) then .failing
  else if 0 < side.passed then .passing
  else .noCoverage

section Counting

variable (signature : Text → Text → Text)

def walResetReproduction (v : Verification) : Bool :=
  trimSpace v.checkType = gateCheckWALReset &&
    [text "walreset_restore_failed", text "walreset_integrity_failed",
      text "walreset_logical_mismatch"].contains (signature v.checkType v.errorMessage)

def RCGateSideResult.count (r : RCGateSideResult) (v : Verification) : RCGateSideResult :=
  if v.succeeded then { r with passed := r.passed + 1 }
  else if v.failed then
    { r with
      failed := r.failed + 1
      reproduced := r.reproduced + if walResetReproduction signature v then 1 else 0 }
  else r

abbrev ModeResults := List (Text × RCGateSideResult)

def ModeResults.count (fresh : RCGateSideResult) (v : Verification) : ModeResults → ModeResults
  | [] => [(v.mode, fresh.count signature v)]
  | (mode, r) :: rest =>
    if mode = v.mode then (mode, r.count signature v) :: rest
    else (mode, r) :: ModeResults.count fresh v rest

def rotates (v : Verification) : Bool :=
  trimSpace v.restoreMode ≠ [] && !gateStandaloneModes.contains v.mode &&
    v.restoreModeFallback ≠ text "rotation_disabled"

def countAccepted (fresh : RCGateSideResult) (acc : RCGateSideResult × ModeResults)
    (v : Verification) : RCGateSideResult × ModeResults :=
  ({ acc.1.count signature v with rotationEnabled := acc.1.rotationEnabled || rotates v },
    acc.2.count signature fresh v)

def RCGateSideResult.close (fault : Option (Reason × Detail)) (r : RCGateSideResult) :
    RCGateSideResult :=
  { r with fault, status := rcGateSideStatus { r with fault } }

def rcGateSide (db : DB) (gate : RCGate) (scenario : GateScenario) (filter : GateSideFilter)
    (stop : Time) : Except ReadError (RCGateSideResult × ModeResults) := do
  let source := filter.sourceFor gate
  match ← readSide db gate scenario filter stop with
  | none => return ({ source, status := .missing }, [])
  | some reads =>
    let workerID := reads.worker.id
    let start : RCGateSideResult :=
      { source, workerID, status := .missing, checks := reads.worker.profileConfig.getD {} }
    let fresh : RCGateSideResult := { source, workerID, status := .missing }
    let (side, modes) := reads.accepted.foldl (countAccepted signature fresh) (start, [])
    return (side.close reads.fault, modes.map fun (mode, r) => (mode, r.close reads.fault))

end Counting

/-! ## §3 — verdicts -/

def SideStatus.covered (s : SideStatus) : Bool := s = .passing || s = .failing

def rcGateScenarioVerdict (candidate baseline : SideStatus) : ScenarioVerdict :=
  if !candidate.covered || !baseline.covered then .incomplete
  else if candidate = .failing && baseline = .failing then .bothFailing
  else if candidate = .failing then .regression
  else .pass

def rcGateRequiredModes (scenario : GateScenario) (candidate baseline : RCGateSideResult) :
    List Text :=
  if scenario.requiredModes ≠ [] then scenario.requiredModes
  else if scenario.txidOnly || (!candidate.rotationEnabled && !baseline.rotationEnabled) then
    [gateModeTXID]
  else gateRotatingRestoreModes

def modeSide (base : RCGateSideResult) (modes : ModeResults) (name : Text) : RCGateSideResult :=
  match modes.lookup name with
  | some r => r
  | none =>
    let result : RCGateSideResult :=
      { source := base.source, workerID := base.workerID, status := .missing, fault := base.fault }
    if base.status = .missing then result
    else { result with status := rcGateSideStatus result }

def addName (names : List Text) (name : Text) : List Text :=
  if names.contains name then names else names ++ [name]

def rcGateModeResults (required : List Text) (candidate baseline : RCGateSideResult)
    (candidateModes baselineModes : ModeResults) : List RCGateModeResult :=
  let seen := candidateModes.map Prod.fst ++ baselineModes.map Prod.fst
  let names := (seen.foldl addName required).insertionSort (· ≤ ·)
  names.map fun name =>
    let c := modeSide candidate candidateModes name
    let b := modeSide baseline baselineModes name
    { mode := name, candidate := c, baseline := b,
      verdict := rcGateScenarioVerdict c.status b.status }

def rcGateModesVerdict (modes : List RCGateModeResult) : ScenarioVerdict :=
  ([.regression, .bothFailing, .incomplete].find? fun verdict =>
    modes.any fun mode => mode.verdict = verdict).getD .pass

def rcGateCoverageVerdict (verdict : ScenarioVerdict) (candidate baseline : RCGateSideResult) :
    ScenarioVerdict :=
  if 0 < candidate.failed && baseline.failed = 0 && baseline.status ≠ .failing then .regression
  else verdict

def rcGateWALResetVerdict (verdict : ScenarioVerdict) (baseline : RCGateSideResult) :
    ScenarioVerdict :=
  if verdict = .pass && baseline.reproduced = 0 then .noReproduction else verdict

/-! ## §4 — scenarios and the gate -/

/-- A standalone scenario is left out where neither side runs its check. -/
def GateScenario.skipped (s : GateScenario) (candidate baseline : ProfileChecks) : Bool :=
  (s.coverage && !candidate.ltxCoverageCheck && !baseline.ltxCoverageCheck) ||
    (s.vfs && !candidate.vfsReaderCheck && !baseline.vfsReaderCheck) ||
    (s.walReset && !candidate.walResetCheck && !baseline.walResetCheck)

/-- The result of a scenario from its two scored sides; `none` where it is left out. -/
def scenarioResult (s : GateScenario) (candidate baseline : RCGateSideResult × ModeResults) :
    Option RCGateScenarioResult :=
  if s.skipped candidate.1.checks baseline.1.checks then none
  else
    let required := rcGateRequiredModes s candidate.1 baseline.1
    let modes := rcGateModeResults required candidate.1 baseline.1 candidate.2 baseline.2
    let sides := rcGateScenarioVerdict candidate.1.status baseline.1.status
    let folded :=
      if sides ≠ .incomplete && modes ≠ [] then rcGateModesVerdict modes else sides
    let standalone := s.coverage || s.vfs || s.walReset
    let override (verdict : ScenarioVerdict) (c b : RCGateSideResult) : ScenarioVerdict :=
      let verdict := if standalone then rcGateCoverageVerdict verdict c b else verdict
      if s.walReset then rcGateWALResetVerdict verdict b else verdict
    some
      { scenario := s.name
        profile := s.profile
        candidate := candidate.1
        baseline := baseline.1
        modes := modes.map fun m => { m with verdict := override m.verdict m.candidate m.baseline }
        verdict := override folded candidate.1 baseline.1 }

structure RCGateHeldWorker where
  source : Text
  workerID : Text
  profile : Text

def rcGateHeldWorkers (db : DB) (gate : RCGate) : Except ReadError (List RCGateHeldWorker) := do
  let held ← gate.sources.mapM fun source => do
    let workers ← db.listWorkersFiltered (.listWorkers source) source
    return (workers.filter fun w => w.evidenceHeld && rcGateOwnsWorker gate w).map fun w =>
      ({ source, workerID := w.id, profile := w.profileName } : RCGateHeldWorker)
  return held.flatten

structure RCGateResults where
  verdict : GateVerdict
  scenarios : List RCGateScenarioResult
  heldWorkers : List RCGateHeldWorker

structure Scoring where
  failing : Bool := false
  incomplete : Bool := false
  scenarios : List RCGateScenarioResult := []

def Scoring.add (acc : Scoring) (result : RCGateScenarioResult) : Scoring :=
  { failing := acc.failing || result.verdict = .regression || result.verdict = .bothFailing
    incomplete :=
      acc.incomplete || result.verdict = .incomplete || result.verdict = .noReproduction
    scenarios := acc.scenarios ++ [result] }

def Scoring.verdict (acc : Scoring) : GateVerdict :=
  if acc.failing then .fail else if acc.incomplete then .incomplete else .pass

section Results

variable (signature : Text → Text → Text)

def Scoring.step (db : DB) (gate : RCGate) (stop : Time) (acc : Scoring) (s : GateScenario) :
    Except ReadError Scoring := do
  let candidate ← rcGateSide signature db gate s s.candidateFilter stop
  let baseline ← rcGateSide signature db gate s s.baselineFilter stop
  match scenarioResult s candidate baseline with
  | none => return acc
  | some result => return acc.add result

def buildRCGateResults (db : DB) (gate : RCGate) (stop : Time) :
    Except ReadError RCGateResults := do
  let acc ← (scoredScenarios gate).foldlM (Scoring.step signature db gate stop) {}
  let heldWorkers ← rcGateHeldWorkers db gate
  return { verdict := acc.verdict, scenarios := acc.scenarios, heldWorkers }

end Results

end LitestreamSoak.Gate
