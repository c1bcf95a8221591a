import LitestreamSoak.Lib.Machine
import LitestreamSoak.Orchestrator.Provisioning

/-!
# Orchestrator — replacing and resuming a worker

The paths that destroy the machine of a worker and create another: a replacement (`RollWorker`, and
a rolling update with its own guards), the resume of a dormant worker and the recreation it falls
back to. Each call runs under the worker's lock, so one is going on at a time; between calls the
status and the hold of the worker may change.

* **`gone`** — the machines confirmed gone: a destroy that succeeded or found nothing, a stop that
  found nothing.
* **`recorded`** — every machine id the worker's row has held.

No step reads `gone`, `recorded` or the log of requests. The provider gives a new machine an id that
is not empty and was not used before.
-/

namespace LitestreamSoak.Orchestrator.Replacement

open Lib Orchestrator
open Gate (WorkerStatus)

/-! ## §1 — the state -/

inductive Call where
  /-- `rolling` adds the guards of a rolling update -/
  | replace (req : WorkerRequest) (rolling : Bool)
  /-- the flag says that region and volume size are as desired -/
  | resume (req : WorkerRequest) (physicalSpecMatches : Bool)

inductive PC where
  | idle
  | readWorker (call : Call)
  | readAttempt (w : Worker) (req : WorkerRequest)
  | supersede (w : Worker) (req : WorkerRequest) (a : ProvisioningAttempt)
  | stop (w : Worker) (req : WorkerRequest)
  | destroy (w : Worker) (req : WorkerRequest)
  | destroyVolume (w : Worker) (req : WorkerRequest)
  /-- `createWorker`; a recreation marks the worker probing after it -/
  | create (probing : Bool) (pc : CreatePC)
  | probing
  | mounts (w : Worker) (req : WorkerRequest)
  | backfill (w : Worker) (req : WorkerRequest) (volumeID : Text)
  | destroyDormant (w : Worker) (req : WorkerRequest) (volumeID : Text)
  | machine (w : Worker) (req : WorkerRequest) (volumeID : Text) (pc : MachinePC)
  | record (req : WorkerRequest) (volumeID : Text) (machine : NewMachine)
  | recordVersion (req : WorkerRequest) (machine : NewMachine)
  | recreate (w : Worker) (req : WorkerRequest)
  | recreateVolume (w : Worker) (req : WorkerRequest)

structure State where
  world : World
  pc : PC
  gone : List Text := []
  recorded : List Text := []

inductive Outcome where
  | run (outcome : Orchestrator.Outcome)
  | provider (error : Option ProviderError)
  | mounts (result : Except ProviderError (List Text))

inductive Action where
  | call (call : Call)
  | step (outcome : Outcome)
  | settle (status : WorkerStatus) (evidenceHeld : Bool)

def machineIDs (t : Tables) : List Text :=
  (t.worker.map (·.flyMachineID)).toList.filter (· != [])

def State.next (s : State) (world : World) (pc : PC) : State :=
  { s with world, pc, recorded := machineIDs world.tables ++ s.recorded }

def State.goto (s : State) (pc : PC) : State := { s with pc }

def State.confirm (s : State) (id : Text) : State := { s with gone := id :: s.gone }

def destroyed : Option ProviderError → Bool
  | none => true
  | some e => isNotFound e

/-! ## §2 — the calls -/

def supersededProvisioning (w : Worker) (a : ProvisioningAttempt) (req : WorkerRequest) : Bool :=
  w.status != .pending && a.phase = .machineReady && a.machineID != [] &&
    a.machineID = w.flyMachineID && a.volumeID != [] && a.volumeID = w.flyVolumeID &&
    a.gitSHA = w.gitSHA && a.litestreamSHA = w.litestreamSHA &&
    (a.imageRef != req.imageRef || a.gitSHA != req.gitSHA || a.litestreamSHA != req.litestreamSHA)

def volumeEntry (w : Worker) (req : WorkerRequest) : PC :=
  if w.flyVolumeID = [] then .create false (.check req) else .destroyVolume w req

def machineEntry (w : Worker) (req : WorkerRequest) : PC :=
  if w.flyMachineID = [] then volumeEntry w req else .stop w req

def recreateVolumeEntry (w : Worker) (req : WorkerRequest) : PC :=
  if w.flyVolumeID = [] then .create true (.check req) else .recreateVolume w req

def recreateEntry (w : Worker) (req : WorkerRequest) : PC :=
  if w.flyMachineID = [] then recreateVolumeEntry w req else .recreate w req

def destroyDormantEntry (w : Worker) (req : WorkerRequest) (volumeID : Text) : PC :=
  if w.flyMachineID = [] then .machine w req volumeID .lookup else .destroyDormant w req volumeID

def callEntry (w : Worker) : Call → PC
  | .replace req rolling =>
    if rolling && (w.status = .stopped || w.status = .failed || w.status = .dormant) then .idle
    else if w.evidenceHeld then .idle
    else .readAttempt w req
  | .resume req physicalSpecMatches =>
    if w.status != .dormant then .idle
    else if w.evidenceHeld || req.imageRef = [] || req.gitSHA = [] || req.litestreamSHA = [] then
      .idle
    else if !physicalSpecMatches then recreateEntry w req
    else if w.flyVolumeID != [] then destroyDormantEntry w req w.flyVolumeID
    else if w.flyMachineID = [] then .idle
    else .mounts w req

def resumeArgs (w : Worker) (req : WorkerRequest) (volumeID : Text) : MachineArgs where
  worker :=
    { w with
      gitSHA := req.gitSHA
      litestreamSHA := req.litestreamSHA
      profileName := req.profileName
      region := req.region
      profile := req.profile }
  imageRef := req.imageRef
  volumeID := volumeID
  attempt := none

def setMachine (t : Tables) (machineID volumeID : Text) : Tables :=
  { t with worker := t.worker.map fun w =>
      { w with flyMachineID := machineID, flyVolumeID := volumeID } }

def setMachineVersion (t : Tables) (machineID : Text) (req : WorkerRequest) : Tables :=
  { t with worker := t.worker.map fun w =>
      { w with
        flyMachineID := machineID
        gitSHA := req.gitSHA
        litestreamSHA := req.litestreamSHA
        profileName := req.profileName
        profile := req.profile } }

def markProbing (t : Tables) : Tables :=
  { t with worker := t.worker.map fun w => { w with status := .probing } }

def setStatus (t : Tables) (status : WorkerStatus) (evidenceHeld : Bool) : Tables :=
  { t with worker := t.worker.map fun w => { w with status, evidenceHeld } }

def State.exec (s : State) (t : Option Tables) (result : Sql) (yes : PC) : State :=
  match t, result with
  | some t, .ok => s.next (s.world.setTables t) yes
  | some t, .failed true => s.next (s.world.setTables t) .idle
  | _, _ => s.goto .idle

/-! ## §3 — the machine -/

def freshMachine (s : State) : Orchestrator.Outcome → Bool
  | .machine (.ok machine) => machine.id != [] && !(s.recorded.contains machine.id) &&
      !(s.gone.contains machine.id) && s.world.machineRequests.all fun r =>
        match r.result with
        | .ok id => id != machine.id
        | .error _ => true
  | _ => true

def callStep (cfg : Config) (s : State) : PC → Outcome → Option State
  | .readWorker call, .run (.sql .ok) =>
    match s.world.tables.worker with
    | none => some (s.goto .idle)
    | some w => some (s.goto (callEntry w call))
  | .readAttempt w req, .run (.sql .ok) =>
    match activeProvisioning s.world.tables.attempts with
    | none => some (s.goto (if w.status = .pending then .idle else machineEntry w req))
    | some a =>
      some (s.goto (if supersededProvisioning w a req then .supersede w req a else .idle))
  | .supersede w req a, .run (.sql result) =>
    some (s.exec (abandonProvisioning s.world.tables a) result
      (if w.status = .pending then .idle else machineEntry w req))
  | .stop w req, .provider none => some (s.goto (.destroy w req))
  | .stop w req, .provider (some e) =>
    if isNotFound e then some ((s.confirm w.flyMachineID).goto (volumeEntry w req))
    else some (s.goto .idle)
  | .destroy w req, .provider error =>
    if destroyed error then some ((s.confirm w.flyMachineID).goto (volumeEntry w req))
    else some (s.goto .idle)
  | .destroyVolume _ req, .provider error =>
    some (s.goto (if destroyed error then .create false (.check req) else .idle))
  | .create probing pc, .run outcome =>
    match createStep cfg s.world pc outcome with
    | none => none
    | some (world, .goto pc) => some (s.next world (.create probing pc))
    | some (world, .done ok) => some (s.next world (if ok && probing then .probing else .idle))
  | .probing, .run (.sql result) => some (s.exec (some (markProbing s.world.tables)) result .idle)
  | .mounts w req, .mounts (.ok volumes) =>
    match volumes.find? (· != []) with
    | none => some (s.goto .idle)
    | some volumeID => some (s.goto (.backfill w req volumeID))
  | .mounts _ _, .mounts (.error _) => some (s.goto .idle)
  | .backfill w req volumeID, .run (.sql result) =>
    some (s.exec (some (setMachine s.world.tables w.flyMachineID volumeID)) result
      (destroyDormantEntry w req volumeID))
  | .destroyDormant w req volumeID, .provider error =>
    -- a destroy that fails is only logged
    let s := if destroyed error then s.confirm w.flyMachineID else s
    some (s.goto (.machine w req volumeID .lookup))
  | .machine w req volumeID pc, .run outcome =>
    match machineStep cfg (resumeArgs w req volumeID) s.world pc outcome with
    | none => none
    | some (world, .goto pc) => some (s.next world (.machine w req volumeID pc))
    | some (world, .done none) => some (s.next world (recreateEntry w req))
    | some (world, .done (some machine)) => some (s.next world (.record req volumeID machine))
  | .record req volumeID machine, .run (.sql result) =>
    some (s.exec (some (setMachine s.world.tables machine.id volumeID)) result
      (.recordVersion req machine))
  | .recordVersion req machine, .run (.sql result) =>
    some (s.exec (some (setMachineVersion s.world.tables machine.id req)) result .probing)
  | .recreate w req, .provider error =>
    if destroyed error then some ((s.confirm w.flyMachineID).goto (recreateVolumeEntry w req))
    else some (s.goto .idle)
  | .recreateVolume _ req, .provider error =>
    some (s.goto (if destroyed error then .create true (.check req) else .idle))
  -- a gate that refuses, an event or a read that fails
  | .readWorker _, .run .refuse => some (s.goto .idle)
  | .readAttempt _ _, .run .refuse => some (s.goto .idle)
  | .supersede _ _ _, .run .refuse => some (s.goto .idle)
  | _, _ => none

def step (cfg : Config) (s : State) : Action → Option State
  | .call call =>
    match s.pc with
    | .idle => some (s.goto (.readWorker call))
    | _ => none
  | .step outcome =>
    match outcome with
    | .run o => if freshMachine s o then callStep cfg s s.pc outcome else none
    | _ => callStep cfg s s.pc outcome
  | .settle status evidenceHeld =>
    match s.pc with
    | .idle =>
      some (s.next (s.world.setTables (setStatus s.world.tables status evidenceHeld)) .idle)
    | _ => none

def machine (cfg : Config) (worker : Worker) : Lib.Machine State Action where
  start s := s = State.next ⟨⟨⟨none, [], none⟩, [], []⟩, .idle, [], []⟩
    { tables := ⟨some worker, [], none⟩ } .idle
  step := step cfg

end LitestreamSoak.Orchestrator.Replacement
