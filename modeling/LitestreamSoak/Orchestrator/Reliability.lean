import LitestreamSoak.Lib.Text

/-!
# Orchestrator — the reliability of a run

`buildRunReliability` reads the journal of a deployment into one row of evidence per worker, profile
and region, in three passes (verifications, runtime observations, events), and then decides for each
row whether it is eligible as a clean soak.

Times and durations are integers of nanoseconds; a zero time of the source is `none`. The list
`verifications` of a row holds the verifications read into it; no step reads it.
-/

namespace LitestreamSoak.Orchestrator.Reliability

open Lib Function

def minute : Int := 60 * 1000000000
def hour : Int := 60 * minute

def maxInt : Nat := 2 ^ 63 - 1

/-! ## §1 — the journal -/

/-- `reporting.WorkerIdentity`; the last two fields are read off the profile config. -/
structure RunIdentity where
  deploymentID : Int := 0
  workerID : Text := []
  machineID : Text := []
  runID : Text := []
  gitSHA : Text := []
  litestreamSHA : Text := []
  workloadSHA : Text := []
  source : Text := []
  profileName : Text := []
  profileHash : Text := []
  validatorID : Text := []
  region : Text := []
  inMeteringWindow : Bool := false
  churnEvidenceRequired : Bool := false

structure Deployment where
  id : Int
  source : Text
  gitSHA : Text
  litestreamSHA : Text
  workloadSHA : Text
  startedAt : Int

structure ProfileIncident where
  id : Text
  kind : Text
  time : Int
  run : RunIdentity := {}

/-- `reporting.ProfileRecordEvidence`; of an upload failure its attempt and its time. -/
structure ProfileRecord where
  runID : Text
  workerID : Text
  machineID : Text
  deploymentID : Int
  artifact : Text
  capturedAt : Int
  error : Text
  uploadFailures : List (Nat × Int)
  uploadFailureCount : Nat
  uploadFailuresDropped : Nat
  uploadHistoryIncomplete : Bool

structure ProfilingEvidence where
  capability : Text := []
  historyComplete : Bool := false
  readError : Text := []
  statusCounts : List (Text × Nat) := []
  records : List ProfileRecord := []
  incidents : List ProfileIncident := []

structure MaintenanceEvidence where
  epoch : Text := []
  startedAt : Option Int := none
  complete : Bool := false
  snapshots : Nat := 0
  compactions : Nat := 0
  retentions : Nat := 0
  errors : Nat := 0

structure WorkloadCounters where
  epoch : Text := []
  present : Bool := false
  attempts : Nat := 0
  mutations : Nat := 0
  busy : Nat := 0
  errors : Nat := 0

structure RuntimePayload where
  profiling : ProfilingEvidence := {}
  snapshotHealthy : Bool := false
  snapshotCollectedAt : Option Int := none
  dbTXID : Nat := 0
  maintenance : MaintenanceEvidence := {}

structure Verification where
  id : Nat
  evidenceSource : Text
  workerID : Text
  startedAt : Int
  completedAt : Option Int
  status : Text
  passed : Bool
  run : RunIdentity
  attributed : Bool
  historyComplete : Bool
  runtime : RuntimePayload

/-- A row of `evidence_runtime`. Its report is decoded three times, as its event identity, as a
payload and as counters; `none` is a decode that fails. -/
structure RuntimeEvidence where
  id : Nat
  source : Text
  kind : Text
  run : RunIdentity
  attributed : Bool
  receivedAt : Int
  identity : Option (Text × Text)
  payload : Option RuntimePayload
  counters : Option WorkloadCounters

/-- A row of `evidence_events` with what its details decode to; a failed decode leaves defaults. -/
structure Event where
  id : Nat
  evidenceSource : Text
  workerID : Text
  eventType : Text
  createdAt : Int
  run : RunIdentity
  attributed : Bool
  workloadEventID : Text
  incidentEventID : Text
  maintenance : MaintenanceEvidence
  counters : WorkloadCounters

structure Worker where
  id : Text
  source : Text
  listed : Bool
  profileName : Text
  region : Text

structure Journal where
  workers : List Worker
  verifications : List Verification
  runtime : List RuntimeEvidence
  events : List Event

namespace Verification

def time (v : Verification) : Int := v.completedAt.getD v.startedAt

def aborted (v : Verification) : Bool := equalFold (trimSpace v.status) (text "aborted")

def pending (v : Verification) : Bool := equalFold (trimSpace v.status) (text "pending")

def inconclusive (v : Verification) : Bool := v.aborted || v.pending

def succeeded (v : Verification) : Bool :=
  !v.inconclusive && v.passed && !equalFold (trimSpace v.status) (text "failed")

def reportedPending (v : Verification) : Bool := equalFold v.status (text "pending")

def unfinished (v : Verification) : Bool :=
  equalFold v.status (text "running") || v.aborted || v.completedAt.isNone

end Verification

def matchesDeployment (attributed : Bool) (run : RunIdentity) (workerID : Text) (d : Deployment) :
    Bool :=
  attributed && 0 < run.deploymentID && run.deploymentID = d.id && run.gitSHA = d.gitSHA &&
    run.litestreamSHA = d.litestreamSHA && run.workloadSHA = d.workloadSHA &&
    run.source = d.source && run.workerID = workerID && run.machineID != [] && run.runID != [] &&
    run.profileHash != [] && run.validatorID != []

def Verification.matchesDeployment (v : Verification) (d : Deployment) : Bool :=
  Reliability.matchesDeployment v.attributed v.run v.workerID d

def deploymentScorecardSource (d : Deployment) : Text :=
  let source := trimSpace d.source
  if source = [] then text "main" else source

/-- The window of `evidenceWindowQuery`: rows of the deployment at any time, rows of no deployment
between its start and the end. -/
def inWindow (d : Deployment) (stop : Option Int) (source : Text) (deploymentID time : Int) :
    Bool :=
  (source = deploymentScorecardSource d || source = []) &&
    (deploymentID = d.id ||
      (deploymentID = 0 && d.startedAt ≤ time && stop.all fun stop => time ≤ stop))

def before (a b : Int × Nat) : Prop := a.1 < b.1 ∨ a.1 = b.1 ∧ a.2 ≤ b.2

instance : DecidableRel before := fun _ _ => inferInstanceAs (Decidable (_ ∨ _))

def listEvidenceVerifications (j : Journal) (d : Deployment) (stop : Option Int) :
    List Verification :=
  (j.verifications.filter fun v =>
    inWindow d stop v.evidenceSource v.run.deploymentID v.time).insertionSort
      fun a b => before (a.time, a.id) (b.time, b.id)

def eachRuntimeEvidence (j : Journal) (d : Deployment) (stop : Option Int) : List RuntimeEvidence :=
  (j.runtime.filter fun r =>
    inWindow d stop r.source r.run.deploymentID r.receivedAt).insertionSort fun a b => a.id ≤ b.id

def listEvidenceEvents (j : Journal) (d : Deployment) (stop : Option Int) : List Event :=
  (j.events.filter fun e =>
    inWindow d stop e.evidenceSource e.run.deploymentID e.createdAt).insertionSort
      fun a b => before (a.createdAt, a.id) (b.createdAt, b.id)

def outsideRun (d : Deployment) (stop : Option Int) (deploymentID time : Int) : Bool :=
  deploymentID = 0 && (time < d.startedAt || stop.any fun stop => stop < time)

/-! ## §2 — rows of evidence -/

inductive Classification where
  | unexpected
  | expectedInjection
  | maintenance
  | unavailable
deriving DecidableEq

inductive Origin where
  | verification (id : Nat)
  | runtime (id : Nat)
  | event (id : Nat)
deriving DecidableEq

structure RunIncident where
  origin : Origin
  time : Int
  kind : Text
  classification : Classification
  attributed : Bool

inductive Health where
  | unknown
  | pending
  | failed
  | passed
deriving DecidableEq

structure Coverage where
  verifications : List Verification := []
  verificationCount : Nat := 0
  firstVerification : Option Int := none
  lastVerification : Option Int := none
  maxVerificationGap : Int := 0

structure WorkerRunEvidence where
  workerID : Text
  profile : Text
  region : Text
  profileCapability : Text := []
  profileIncidentIDs : List Text := []
  currentHealth : Health := .unknown
  coverage : Coverage := {}
  unexpectedFailures : Nat := 0
  expectedInjections : Nat := 0
  unattributedObservations : Nat := 0
  pendingObservations : Nat := 0
  incompleteObservations : Nat := 0
  workloadAttempts : Nat := 0
  workloadMutations : Nat := 0
  workloadBusy : Nat := 0
  workloadErrors : Nat := 0
  workloadProgress : Nat := 0
  maintenanceSnapshots : Nat := 0
  maintenanceCompactions : Nat := 0
  maintenanceRetentions : Nat := 0
  historyComplete : Bool := true
  incidents : List RunIncident := []
  lastRun : Text := []
  lastTXID : Nat := 0
  lastRuntimeAt : Option Int := none

abbrev Rows := List WorkerRunEvidence

def WorkerRunEvidence.key (e : WorkerRunEvidence) : Text × Text × Text :=
  (e.workerID, e.profile, e.region)

def ensureKey (rows : Rows) (id profile region : Text) : Rows × WorkerRunEvidence :=
  match rows.find? fun e => e.key = (id, profile, region) with
  | some e => (rows, e)
  | none =>
    let e : WorkerRunEvidence := { workerID := id, profile, region }
    (rows ++ [e], e)

/-- The row an observation belongs to. -/
def ensure (rows : Rows) (id profile region : Text) : Rows × WorkerRunEvidence :=
  if profile = [] ∧ region = [] then
    match rows.filter fun e => e.workerID = id with
    | [e] => (rows, e)
    | _ => ensureKey rows id profile region
  else ensureKey rows id profile region

def put (rows : Rows) (e : WorkerRunEvidence) : Rows :=
  rows.map fun old => if old.key = e.key then e else old

def WorkerRunEvidence.addIncident (e : WorkerRunEvidence) (i : RunIncident) : WorkerRunEvidence :=
  { e with incidents := e.incidents ++ [i] }

def WorkerRunEvidence.addUnavailable (e : WorkerRunEvidence) (origin : Origin) (time : Int)
    (kind : Text) (attributed : Bool) : WorkerRunEvidence :=
  { e with incompleteObservations := e.incompleteObservations + 1 }.addIncident
    ⟨origin, time, kind, .unavailable, attributed⟩

def WorkerRunEvidence.addFailures (e : WorkerRunEvidence) (count : Nat) : WorkerRunEvidence :=
  { e with unexpectedFailures := e.unexpectedFailures + min count (maxInt - e.unexpectedFailures) }

/-! ## §3 — profiling -/

def ProfileRecord.incidents (r : ProfileRecord) : List ProfileIncident :=
  let key := text "profile:" ++ r.runID ++ text ":" ++ r.artifact
  let capture : List ProfileIncident :=
    if r.error = [] then []
    else [⟨key ++ text ":capture", text "profile_capture_error", r.capturedAt, {}⟩]
  let uploads : List ProfileIncident := r.uploadFailures.map fun failure =>
    ⟨key ++ text ":upload:" ++ text (toString failure.1), text "profile_upload_error",
      failure.2, {}⟩
  let history : List ProfileIncident :=
    if r.uploadHistoryIncomplete || 0 < r.uploadFailuresDropped ||
        r.uploadFailures.length < r.uploadFailureCount then
      [⟨key ++ text ":history", text "profile_history_unavailable", r.capturedAt, {}⟩]
    else []
  capture ++ uploads ++ history

def addProfileIncident (origin : Origin) (attributed : Bool) (e : WorkerRunEvidence)
    (i : ProfileIncident) : WorkerRunEvidence :=
  if e.profileIncidentIDs.contains i.id then e
  else
    let unavailable := containsText i.kind (text "unavailable")
    let e := { e with profileIncidentIDs := i.id :: e.profileIncidentIDs }.addIncident
      ⟨origin, i.time, i.kind, if unavailable then .unavailable else .unexpected, attributed⟩
    if !attributed then { e with unattributedObservations := e.unattributedObservations + 1 }
    else if unavailable then { e with incompleteObservations := e.incompleteObservations + 1 }
    else { e with unexpectedFailures := e.unexpectedFailures + 1 }

def neutralStatus (reason : Text) : Bool :=
  (text "-disabled").isSuffixOf reason || reason = text "cpu-rate-limited" ||
    reason = text "cpu-skipped-shutdown" || reason = text "cancelled"

def unexplainedStatus (recordedUploadFailures : Nat) (status : Text × Nat) : Bool :=
  !(status.2 = 0 || neutralStatus status.1) &&
    !(status.1 = text "upload-failed" && status.2 ≤ recordedUploadFailures)

structure Observation where
  kind : Text
  origin : Origin
  run : RunIdentity
  attributed : Bool
  receivedAt : Int

def Observation.sameRun (o : Observation) (runID workerID machineID : Text) (deploymentID : Int) :
    Bool :=
  o.attributed && runID = o.run.runID && workerID = o.run.workerID &&
    machineID = o.run.machineID && deploymentID = o.run.deploymentID

def profilingUnavailable (o : Observation) (e : WorkerRunEvidence) : WorkerRunEvidence :=
  e.addUnavailable o.origin o.receivedAt (text "profiling_evidence_unavailable") o.attributed

def profilingIncomplete (current : ProfilingEvidence) : Bool :=
  current.capability = text "snapshot-only" ||
    (current.capability != text "pending" && current.capability != text "disabled" &&
      !current.historyComplete) ||
    current.readError != []

def observeProfilingEvidence (e : WorkerRunEvidence) (o : Observation)
    (current : ProfilingEvidence) : WorkerRunEvidence :=
  if o.kind = text "event" ∧ current.capability = [] then e
  else
    let e := { e with profileCapability := current.capability }
    if current.capability = [] then profilingUnavailable o e
    else
      let e := if profilingIncomplete current then profilingUnavailable o e else e
      let recorded := (current.records.map (·.uploadFailureCount)).sum
      let e := (current.statusCounts.filter (unexplainedStatus recorded)).foldl
        (fun e _ => profilingUnavailable o e) e
      let e := current.incidents.foldl (fun e i =>
        addProfileIncident o.origin
          (o.sameRun i.run.runID i.run.workerID i.run.machineID i.run.deploymentID) e i) e
      current.records.foldl (fun e r =>
        r.incidents.foldl (addProfileIncident o.origin
          (o.sameRun r.runID r.workerID r.machineID r.deploymentID)) e) e

/-! ## §4 — the first pass: verifications -/

def Coverage.read (c : Coverage) (v : Verification) : Coverage :=
  { c with verifications := c.verifications ++ [v] }

def Coverage.measure (c : Coverage) (v : Verification) : Coverage :=
  { c with
    verificationCount := c.verificationCount + 1
    firstVerification := some (c.firstVerification.getD v.time)
    lastVerification := some v.time
    maxVerificationGap :=
      match c.lastVerification with
      | none => c.maxVerificationGap
      | some last => max c.maxVerificationGap (v.time - last) }

def measure (e : WorkerRunEvidence) (v : Verification) : WorkerRunEvidence :=
  { e with
    currentHealth := if v.succeeded then .passed else .failed
    coverage := e.coverage.measure v }

def observeProgress (e : WorkerRunEvidence) (v : Verification) : WorkerRunEvidence :=
  match v.runtime.snapshotCollectedAt with
  | none => e
  | some collectedAt =>
    if v.runtime.snapshotHealthy && (e.lastRuntimeAt.all fun last => last < collectedAt) &&
        (collectedAt - v.time).natAbs ≤ minute then
      { e with
        workloadProgress :=
          if e.lastRun = v.run.runID then e.workloadProgress + (v.runtime.dbTXID - e.lastTXID)
          else e.workloadProgress
        lastRun := v.run.runID
        lastTXID := v.runtime.dbTXID
        lastRuntimeAt := some collectedAt }
    else e

def observePending (e : WorkerRunEvidence) (v : Verification) (attributed : Bool) :
    WorkerRunEvidence :=
  let e := { e with pendingObservations := e.pendingObservations + 1 }
  if attributed then
    { e with
      currentHealth := .pending
      lastRun := if e.lastRun = v.run.runID then e.lastRun else []
      lastTXID := if e.lastRun = v.run.runID then e.lastTXID else 0 }
  else e

/-- Whether a verification can be attributed, before its outcome is read. -/
def observeAttribution (e : WorkerRunEvidence) (v : Verification) (attributed : Bool) :
    WorkerRunEvidence :=
  if attributed then { e with historyComplete := e.historyComplete && v.historyComplete }
  else
    { e with
      unattributedObservations := e.unattributedObservations + 1
      historyComplete := false }

def observeFailure (signature : Verification → Text) (e : WorkerRunEvidence) (v : Verification)
    (attributed : Bool) : WorkerRunEvidence :=
  let e := e.addIncident ⟨.verification v.id, v.time, signature v, .unexpected, attributed⟩
  if attributed then { e with unexpectedFailures := e.unexpectedFailures + 1 } else e

def observeOutcome (signature : Verification → Text) (e : WorkerRunEvidence) (v : Verification)
    (attributed : Bool) : WorkerRunEvidence :=
  if v.reportedPending then observePending e v attributed
  else if v.unfinished then e.addUnavailable (.verification v.id) v.time v.status attributed
  else
    let e := if v.succeeded then e else observeFailure signature e v attributed
    if attributed then observeProgress (measure e v) v else e

/-- What one observation adds to its row. -/
def readVerification (signature : Verification → Text) (d : Deployment) (e : WorkerRunEvidence)
    (v : Verification) : WorkerRunEvidence :=
  let attributed := v.matchesDeployment d
  let e := observeAttribution { e with coverage := e.coverage.read v } v attributed
  let e :=
    if attributed && v.runtime.profiling.capability != [] then
      observeProfilingEvidence e ⟨[], .verification v.id, v.run, true, v.time⟩ v.runtime.profiling
    else e
  observeOutcome signature e v attributed

def verificationPass (signature : Verification → Text) (d : Deployment) (stop : Option Int)
    (rows : Rows) (v : Verification) : Rows :=
  if v.run.deploymentID ≠ 0 ∧ v.run.deploymentID ≠ d.id then rows
  else if outsideRun d stop v.run.deploymentID v.time then rows
  else if v.run.inMeteringWindow then rows
  else
    let (rows, e) := ensure rows v.workerID v.run.profileName v.run.region
    put rows (readVerification signature d e v)

/-! ## §5 — the second pass: runtime observations -/

structure RuntimeMaps where
  previous : Text × Text × Text × Text → WorkloadCounters := fun _ => {}
  heartbeatCounters : Text × Text × Text × Text → WorkloadCounters := fun _ => {}
  lastRun : Text → Option (Text × Text × Text × Text) := fun _ => none
  lastHeartbeatAt : Text → Option Int := fun _ => none
  maintenance : Text × Text × Text → MaintenanceEvidence := fun _ => {}
  heartbeatMaintenance : Text × Text × Text → MaintenanceEvidence := fun _ => {}
  seenEvents : List (Text × Text × Text) := []

def RuntimeEvidence.unavailable (r : RuntimeEvidence) (e : WorkerRunEvidence) (kind : Text) :
    WorkerRunEvidence :=
  e.addUnavailable (.runtime r.id) r.receivedAt kind true

def RuntimeEvidence.countErrors (r : RuntimeEvidence) (e : WorkerRunEvidence) (kind : Text)
    (count : Nat) : WorkerRunEvidence :=
  if count = 0 then e
  else (e.addFailures count).addIncident ⟨.runtime r.id, r.receivedAt, kind, .unexpected, true⟩

def MaintenanceEvidence.decreased (current prior : MaintenanceEvidence) : Bool :=
  current.snapshots < prior.snapshots || current.compactions < prior.compactions ||
    current.retentions < prior.retentions || current.errors < prior.errors

def MaintenanceEvidence.highWater (current prior : MaintenanceEvidence) : MaintenanceEvidence where
  snapshots := max current.snapshots prior.snapshots
  compactions := max current.compactions prior.compactions
  retentions := max current.retentions prior.retentions
  errors := max current.errors prior.errors

def observeMaintenanceEvidence (e : WorkerRunEvidence) (r : RuntimeEvidence)
    (current : MaintenanceEvidence) (m : RuntimeMaps) (forwardHeartbeat : Bool) :
    WorkerRunEvidence × RuntimeMaps :=
  if current.epoch = [] then (e, m)
  else
    let key := (r.run.workerID, r.run.runID, current.epoch)
    let prior := m.maintenance key
    let e :=
      if !current.complete || current.startedAt.isNone then
        r.unavailable e (text "maintenance_observer_incomplete")
      else e
    let e :=
      if forwardHeartbeat && current.decreased (m.heartbeatMaintenance key) then
        r.unavailable e (text "maintenance_counters_reset")
      else e
    let e :=
      { e with
        maintenanceSnapshots := e.maintenanceSnapshots + (current.snapshots - prior.snapshots)
        maintenanceCompactions := e.maintenanceCompactions +
          (current.compactions - prior.compactions)
        maintenanceRetentions := e.maintenanceRetentions + (current.retentions - prior.retentions) }
    let e := r.countErrors e (text "litestream_log_error") (current.errors - prior.errors)
    (e,
      { m with
        heartbeatMaintenance :=
          if forwardHeartbeat then update m.heartbeatMaintenance key current
          else m.heartbeatMaintenance
        maintenance := update m.maintenance key (current.highWater prior) })

def WorkloadCounters.decreased (current prior : WorkloadCounters) : Bool :=
  current.attempts < prior.attempts || current.mutations < prior.mutations ||
    current.errors < prior.errors || current.busy < prior.busy

def WorkloadCounters.invalid (current : WorkloadCounters) : Bool :=
  current.errors < current.busy || current.attempts < current.errors

def WorkloadCounters.highWater (current prior : WorkloadCounters) : WorkloadCounters where
  present := true
  attempts := max current.attempts prior.attempts
  mutations := max current.mutations prior.mutations
  busy := max current.busy prior.busy
  errors := max current.errors prior.errors

def observeCounters (e : WorkerRunEvidence) (r : RuntimeEvidence) (current : WorkloadCounters)
    (m : RuntimeMaps) (forwardHeartbeat : Bool) : WorkerRunEvidence × RuntimeMaps :=
  if !current.present then
    if r.kind != text "event" && r.run.churnEvidenceRequired then
      (r.unavailable e (text "workload_counters_missing"), m)
    else (e, m)
  else
    let e :=
      if current.epoch = [] then r.unavailable e (text "workload_epoch_missing") else e
    let runKey := (r.run.workerID, r.run.runID, r.run.machineID, current.epoch)
    let prior := m.previous runKey
    let e :=
      if forwardHeartbeat && (m.lastRun r.run.workerID).any (· ≠ runKey) then
        r.unavailable e (text "workload_run_replaced")
      else e
    let e :=
      if forwardHeartbeat && current.decreased (m.heartbeatCounters runKey) then
        r.unavailable e (text "workload_counters_reset")
      else e
    let e := if current.invalid then r.unavailable e (text "workload_counters_invalid") else e
    let e := r.countErrors e (text "workload_errors") (current.errors - prior.errors)
    ({ e with
        workloadAttempts := e.workloadAttempts + (current.attempts - prior.attempts)
        workloadMutations := e.workloadMutations + (current.mutations - prior.mutations)
        workloadBusy := e.workloadBusy + (current.busy - prior.busy)
        workloadErrors := e.workloadErrors + (current.errors - prior.errors) },
      { m with
        lastRun :=
          if forwardHeartbeat then update m.lastRun r.run.workerID (some runKey)
          else m.lastRun
        heartbeatCounters :=
          if forwardHeartbeat then update m.heartbeatCounters runKey current
          else m.heartbeatCounters
        previous := update m.previous runKey (current.highWater prior) })

def readRuntime (e : WorkerRunEvidence) (r : RuntimeEvidence) (payload : RuntimePayload)
    (counters : WorkloadCounters) (m : RuntimeMaps) : WorkerRunEvidence × RuntimeMaps :=
  let e := observeProfilingEvidence e ⟨r.kind, .runtime r.id, r.run, r.attributed, r.receivedAt⟩
    payload.profiling
  let e :=
    if r.kind != text "event" && !payload.snapshotHealthy then
      r.unavailable e (text "runtime_unavailable")
    else e
  let observedAt := payload.snapshotCollectedAt.getD r.receivedAt
  let forwardHeartbeat := r.kind = text "heartbeat" &&
    (m.lastHeartbeatAt r.run.workerID).all fun last => last < observedAt
  let m :=
    if forwardHeartbeat then
      { m with lastHeartbeatAt := update m.lastHeartbeatAt r.run.workerID (some observedAt) }
    else m
  let (e, m) := observeMaintenanceEvidence e r payload.maintenance m forwardHeartbeat
  observeCounters e r counters m forwardHeartbeat

def readUnattributed (e : WorkerRunEvidence) (r : RuntimeEvidence) : WorkerRunEvidence :=
  { e with unattributedObservations := e.unattributedObservations + 1 }.addIncident
    ⟨.runtime r.id, r.receivedAt, text "runtime_attribution_unproven", .unavailable, false⟩

def RuntimeEvidence.eventKey (r : RuntimeEvidence) (ids : Text × Text) : Text × Text × Text :=
  (r.run.workerID, r.run.runID, if ids.1 = [] then ids.2 else ids.1)

def observeRuntime (d : Deployment) (rows : Rows) (m : RuntimeMaps) (r : RuntimeEvidence) :
    Option (Rows × RuntimeMaps) :=
  let (rows, e) := ensure rows r.run.workerID r.run.profileName r.run.region
  if matchesDeployment r.attributed r.run r.run.workerID d then do
    let payload ← r.payload
    let counters ← r.counters
    let (e, m) := readRuntime e r payload counters m
    return (put rows e, m)
  else some (put rows (readUnattributed e r), m)

/-- One row of `applyRuntimeEvidence`; `none` is a decode that fails. -/
def runtimePass (d : Deployment) (stop : Option Int) (s : Rows × RuntimeMaps)
    (r : RuntimeEvidence) : Option (Rows × RuntimeMaps) :=
  if outsideRun d stop r.run.deploymentID r.receivedAt then some s
  else if r.run.inMeteringWindow then some s
  else
    match r.identity with
    | none => none
    | some ids =>
      let key := r.eventKey ids
      if r.kind = text "event" && key.2.2 != [] then
        if s.2.seenEvents.contains key then some s
        else observeRuntime d s.1 { s.2 with seenEvents := key :: s.2.seenEvents } r
      else observeRuntime d s.1 s.2 r

/-! ## §6 — the third pass: events -/

def incidentEventClass (kind : Text) : Option Classification :=
  if kind = text "fault_injection_engaged" then some .expectedInjection
  else if kind = text "maintenance_snapshot_completed" ||
      kind = text "maintenance_compaction_completed" ||
      kind = text "maintenance_retention_completed" then some .maintenance
  else if [text "missing", text "unavailable", text "quarantined", text "aborted", text "pending",
      text "provisioning_interrupted"].any (containsText kind) then some .unavailable
  else if [text "fail", text "error", text "retry", text "restart", text "oom", text "disk_full",
      text "recovered", text "crash", text "killed", text "timeout"].any (containsText kind) then
    some .unexpected
  else none

def Event.countedElsewhere (event : Event) : Bool :=
  (event.eventType = text "workload_error" && event.counters.present) ||
    (event.eventType = text "litestream_log_error" && event.maintenance.epoch != [] &&
      0 < event.maintenance.errors)

def countEvent (e : WorkerRunEvidence) (event : Event) : Classification → WorkerRunEvidence
  | .expectedInjection => { e with expectedInjections := e.expectedInjections + 1 }
  | .maintenance =>
    if event.eventType = text "maintenance_snapshot_completed" then
      { e with maintenanceSnapshots := e.maintenanceSnapshots + 1 }
    else if event.eventType = text "maintenance_compaction_completed" then
      { e with maintenanceCompactions := e.maintenanceCompactions + 1 }
    else { e with maintenanceRetentions := e.maintenanceRetentions + 1 }
  | .unavailable => { e with incompleteObservations := e.incompleteObservations + 1 }
  | .unexpected =>
    if event.countedElsewhere then e
    else { e with unexpectedFailures := e.unexpectedFailures + 1 }

def readEvent (d : Deployment) (e : WorkerRunEvidence) (event : Event) (class_ : Classification) :
    WorkerRunEvidence :=
  let attributed := event.attributed && matchesDeployment true event.run event.workerID d
  if hasPrefix event.workloadEventID (text "profile:") &&
      e.profileIncidentIDs.contains event.workloadEventID then e
  else
    let e := e.addIncident ⟨.event event.id, event.createdAt, event.eventType, class_, attributed⟩
    if attributed then countEvent e event class_
    else { e with unattributedObservations := e.unattributedObservations + 1 }

def eventPass (d : Deployment) (stop : Option Int) (s : Rows × List (Text × Text × Text))
    (event : Event) : Rows × List (Text × Text × Text) :=
  let (rows, seenEvents) := s
  if hasPrefix event.eventType (text "verification_") then s
  else
    match incidentEventClass event.eventType with
    | none => s
    | some class_ =>
      if outsideRun d stop event.run.deploymentID event.createdAt then s
      else if event.run.inMeteringWindow then s
      else
        let eventID := firstNonEmpty [event.workloadEventID, event.incidentEventID]
        let key := (event.workerID, event.run.runID, eventID)
        if eventID != [] && seenEvents.contains key then s
        else
          let seenEvents := if eventID = [] then seenEvents else key :: seenEvents
          if event.run.deploymentID ≠ 0 ∧ event.run.deploymentID ≠ d.id then (rows, seenEvents)
          else
            let (rows, e) := ensure rows event.workerID event.run.profileName event.run.region
            (put rows (readEvent d e event class_), seenEvents)

/-! ## §7 — eligibility -/

inductive Reason where
  | capabilityUnknown
  | historyIncomplete
  | incompleteObservations
  | insufficientSpan
  | coverageGap
  | progressUnproven
  | maintenanceUnobserved
  | latestPending
  | unexpectedIncidents
  | faultInjection
  | healthNotPassed
deriving DecidableEq

def Reason.text : Reason → Text
  | capabilityUnknown => Lib.text "profiling observation capability is pending or unknown"
  | historyIncomplete => Lib.text "history incomplete or attribution unproven"
  | incompleteObservations => Lib.text "pending, aborted, or unavailable observations"
  | insufficientSpan => Lib.text "insufficient measured verification span or count"
  | coverageGap => Lib.text "verification coverage gap"
  | progressUnproven => Lib.text "workload progress unproven"
  | maintenanceUnobserved =>
    Lib.text "snapshot, compaction, or positive retention exposure unobserved"
  | latestPending => Lib.text "latest verification is pending"
  | unexpectedIncidents => Lib.text "unexpected incidents remain in complete-run history"
  | faultInjection => Lib.text "fault injection exposure is not a clean soak"
  | healthNotPassed => Lib.text "current verification health is not passed"

def Coverage.verifiedSpan (c : Coverage) : Int :=
  match c.firstVerification, c.lastVerification with
  | some first, some last => last - first
  | _, _ => 0

/-- The verifications leave a time of more than `maxGap` uncovered. -/
def Coverage.gap (c : Coverage) (start stop maxGap : Int) : Bool :=
  (match c.firstVerification with
    | none => true
    | some first => maxGap < first - start) ||
  maxGap < c.maxVerificationGap ||
  (match c.lastVerification with
    | none => true
    | some last => maxGap < stop - last)

def reasonIf (failed : Bool) (reason : Reason) : List Reason := if failed then [reason] else []

def coverageReasons (e : WorkerRunEvidence) (start stop maxGap minimumSpan : Int) : List Reason :=
  reasonIf (e.profileCapability != text "disabled" && e.profileCapability != text "observed")
    .capabilityUnknown ++
  reasonIf (!(e.historyComplete && e.coverage.firstVerification.isSome) ||
    0 < e.unattributedObservations) .historyIncomplete ++
  reasonIf (0 < e.incompleteObservations) .incompleteObservations ++
  reasonIf (e.coverage.verificationCount < 2 || e.coverage.verifiedSpan < minimumSpan)
    .insufficientSpan ++
  reasonIf (e.coverage.gap start stop maxGap) .coverageGap ++
  reasonIf (e.workloadProgress = 0 && e.workloadMutations = 0) .progressUnproven ++
  reasonIf (e.maintenanceSnapshots = 0 || e.maintenanceCompactions = 0 ||
    e.maintenanceRetentions = 0) .maintenanceUnobserved ++
  reasonIf (e.currentHealth = .pending) .latestPending

/-- The verdict, with its reasons. -/
def evaluateRunEligibility (e : WorkerRunEvidence) (start stop maxGap minimumSpan : Int) :
    List Reason :=
  coverageReasons e start stop maxGap minimumSpan ++
  reasonIf (0 < e.unexpectedFailures) .unexpectedIncidents ++
  reasonIf (0 < e.expectedInjections) .faultInjection ++
  reasonIf (e.currentHealth ≠ .passed) .healthNotPassed

structure Verdict where
  evidence : WorkerRunEvidence
  coverageComplete : Bool
  eligible : Bool
  reasons : List Reason

/-- The verdict on a row; a run without an end is measured up to `now`. -/
def verdict (d : Deployment) (stop : Option Int) (now : Int) (e : WorkerRunEvidence) : Verdict where
  evidence := e
  coverageComplete := (coverageReasons e d.startedAt (stop.getD now) hour (24 * hour)).isEmpty
  eligible := (evaluateRunEligibility e d.startedAt (stop.getD now) hour (24 * hour)).isEmpty
  reasons := evaluateRunEligibility e d.startedAt (stop.getD now) hour (24 * hour)

def workerRows (j : Journal) (d : Deployment) : Rows :=
  (j.workers.filter fun w => w.listed && w.source = deploymentScorecardSource d).foldl
    (fun rows w => (ensure rows w.id w.profileName w.region).1) []

def collectEvidence (signature : Verification → Text) (j : Journal) (d : Deployment)
    (stop : Option Int) : Option Rows := do
  let rows := (listEvidenceVerifications j d stop).foldl (verificationPass signature d stop)
    (workerRows j d)
  let (rows, _) ← (eachRuntimeEvidence j d stop).foldlM (runtimePass d stop) (rows, {})
  return ((listEvidenceEvents j d stop).foldl (eventPass d stop) (rows, [])).1

/-- `none` is a journal with a runtime row that does not decode. -/
def buildRunReliability (signature : Verification → Text) (j : Journal) (d : Deployment)
    (stop : Option Int) (now : Int) : Option (List Verdict) :=
  (collectEvidence signature j d stop).map fun rows =>
    (rows.map (verdict d stop now)).insertionSort fun a b =>
      a.evidence.workerID ≤ b.evidence.workerID

end LitestreamSoak.Orchestrator.Reliability
