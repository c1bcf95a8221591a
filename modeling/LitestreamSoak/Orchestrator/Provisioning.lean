import LitestreamSoak.Orchestrator.Provider

/-!
# Orchestrator — provisioning a worker

`createWorker` and what it calls, one statement or provider request a step. Each part is a step
function on its own program counter that says where the part goes on or how it returns, so that a
caller can run it inside a counter of its own.

`World` also keeps every request made to the provider; no step reads that log.
-/

namespace LitestreamSoak.Orchestrator

open Lib

/-! ## §1 — the world -/

structure MachineRequest where
  attempt : Option Text
  runID : Text
  volumeID : Text
  result : Except ProviderError Text

structure VolumeRequest where
  attempt : Text
  rejected : Bool

structure World where
  tables : Tables
  machineRequests : List MachineRequest := []
  volumeRequests : List VolumeRequest := []

/-- How a statement ends; one that fails may have been applied. -/
inductive Sql where
  | ok
  | failed (applied : Bool)
deriving DecidableEq

structure NewMachine where
  id : Text
  started : Bool
deriving DecidableEq

inductive Outcome where
  | sql (result : Sql)
  | stamp (now : Int) (result : Sql)
  /-- an error, a refused check or a cancelled context, before anything is done -/
  | refuse
  | plan (id : Text) (deploymentID : Nat) (workloadSHA : Text)
  /-- the run and the deployment registered where no attempt is open -/
  | register (runID : Text) (deploymentID : Nat) (workloadSHA : Text) (result : Sql)
  | source (found : Bool)
  | volume (result : Except ProviderError Text)
  | machine (result : Except ProviderError NewMachine)

inductive Next (PC α : Type) where
  | goto (pc : PC)
  | done (result : α)

def World.setTables (w : World) (t : Tables) : World := { w with tables := t }

def World.setAttempts (w : World) (attempts : List ProvisioningAttempt) : World :=
  { w with tables := { w.tables with attempts } }

/-! ## §2 — `BeginProvisioning` -/

inductive BeginPC where
  | insert (new : ProvisioningAttempt)
  | read (new : ProvisioningAttempt)

/-- `BeginProvisioning`: the insert, then the read of the open attempt. -/
def beginStep (w : World) :
    BeginPC → Outcome → Option (World × Next BeginPC (Option ProvisioningAttempt))
  | .insert new, .sql .ok => some (w.setTables (insertAttempt w.tables new), .goto (.read new))
  | .insert new, .sql (.failed applied) =>
    some (if applied then w.setTables (insertAttempt w.tables new) else w, .done none)
  | .read new, .sql .ok => some (w, .done (currentAttempt w.tables new))
  | .read _, .sql (.failed _) => some (w, .done none)
  | _, _ => none

/-! ## §3 — `createWorkerMachine` -/

structure MachineArgs where
  worker : Worker
  imageRef : Text
  volumeID : Text
  /-- the attempt the caller provisions, for the log of requests -/
  attempt : Option Text

inductive MachinePC where
  | lookup
  | register (provisioning : Option ProvisioningAttempt)
  | request (provisioning : Option ProvisioningAttempt) (identity : WorkerIdentity) (n : Nat)
  | bind (provisioning : Option ProvisioningAttempt) (identity : WorkerIdentity)
      (machine : NewMachine)

def runIdentity (cfg : Config) (args : MachineArgs) (provisioning : Option ProvisioningAttempt)
    (profile runID : Text) (deploymentID : Nat) (workloadSHA : Text) : WorkerIdentity where
  workerID := cfg.workerID
  runID := (provisioning.map (·.id)).getD runID
  imageRef := args.imageRef
  volumeID := args.volumeID
  profileConfig := profile
  workloadID := cfg.digest profile
  gitSHA := args.worker.gitSHA
  litestreamSHA := args.worker.litestreamSHA
  deploymentID := (provisioning.map (·.deploymentID)).getD deploymentID
  workloadSHA := (provisioning.map (·.workloadSHA)).getD workloadSHA

def saveIdentity (cfg : Config) (t : Tables) (provisioning : Option ProvisioningAttempt)
    (identity : WorkerIdentity) : Option Tables :=
  match provisioning with
  | some a => expectProvisioningRun cfg t a identity
  | none => some (expectWorkerRun t identity)

/-- A statement that is refused changes nothing; only one that succeeds goes on to `yes`. -/
def World.exec {PC α : Type} (w : World) (t : Option Tables) (result : Sql) (yes no : Next PC α) :
    World × Next PC α :=
  match t, result with
  | some t, .ok => (w.setTables t, yes)
  | some t, .failed true => (w.setTables t, no)
  | _, _ => (w, no)

def requestMachine (w : World) (args : MachineArgs) (identity : WorkerIdentity)
    (result : Except ProviderError NewMachine) : World :=
  { w with machineRequests :=
      ⟨args.attempt, identity.runID, args.volumeID, result.map (·.id)⟩ :: w.machineRequests }

def machineCreateAttempts : Nat := 5

/-- `createWorkerMachine`, with its retries where no attempt is open. -/
def machineStep (cfg : Config) (args : MachineArgs) (w : World) :
    MachinePC → Outcome → Option (World × Next MachinePC (Option NewMachine))
  | .lookup, .sql .ok => some (w, .goto (.register (activeProvisioning w.tables.attempts)))
  | .lookup, .sql (.failed _) => some (w, .done none)
  | .register _, .refuse => some (w, .done none)
  | .register provisioning, .register runID deploymentID workloadSHA result =>
    match args.worker.profile with
    | none => some (w, .done none)
    | some profile =>
      let identity :=
        runIdentity cfg args provisioning profile runID deploymentID workloadSHA
      some (w.exec (saveIdentity cfg w.tables provisioning identity) result
        (.goto (.request provisioning identity 1)) (.done none))
  | .request provisioning identity n, .machine result =>
    let w := requestMachine w args identity result
    match result with
    | .ok machine => some (w, .goto (.bind provisioning identity machine))
    | .error e =>
      if provisioning.isSome || !retriableMachineCreateError e || n = machineCreateAttempts then
        some (w, .done none)
      else some (w, .goto (.request provisioning identity (n + 1)))
  -- the context is done while a retry waits
  | .request _ _ (_ + 2), .refuse => some (w, .done none)
  | .bind provisioning identity machine, .sql result =>
    let identity := { identity with machineID := machine.id }
    some (w.exec (saveIdentity cfg w.tables provisioning identity) result
      (.done (some machine)) (.done none))
  | _, _ => none

/-! ## §4 — `resumeWorkerProvisioning` -/

/-- Where the provisioning of attempt `a` is; `a` is the caller's copy of the row, `attempt` the one
that `createWorkerVolume` reads again. -/
inductive ProvisionPC where
  | resume (a : ProvisioningAttempt)
  | lookup (a : ProvisioningAttempt)
  | source (a : ProvisioningAttempt) (attempt : Option ProvisioningAttempt)
  | fork (a : ProvisioningAttempt) (attempt : Option ProvisioningAttempt)
  | volume (a : ProvisioningAttempt)
  | saveVolume (a : ProvisioningAttempt) (volumeID : Text)
  | machine (a : ProvisioningAttempt) (pc : MachinePC)
  | saveMachine (a : ProvisioningAttempt) (machine : NewMachine)
  | finish (a : ProvisioningAttempt) (machine : NewMachine)

def advanceStep {PC : Type} (w : World) (a : ProvisioningAttempt) (phase : Phase)
    (volumeID machineID : Text) (result : Sql) (goto : PC) : World × Next PC Bool :=
  let advanced := w.setAttempts
    (advanceProvisioning w.tables.attempts a phase volumeID machineID)
  match result with
  | .ok => (advanced, if claimed w.tables.attempts a then .goto goto else .done false)
  | .failed true => (advanced, .done false)
  | .failed false => (w, .done false)

def volumeRejected : Except ProviderError Text → Bool
  | .ok _ => false
  | .error e => providerRejectedRequest e

def requestVolume (w : World) (a : ProvisioningAttempt) (result : Except ProviderError Text) :
    World :=
  { w with volumeRequests := ⟨a.id, volumeRejected result⟩ :: w.volumeRequests }

def finishStep {PC : Type} (w : World) (a : ProvisioningAttempt) (machine : NewMachine)
    (result : Sql) : World × Next PC Bool :=
  w.exec
    (if machine.started then completeProvisioning w.tables a
      else bindProvisioningMachine w.tables a)
    result (.done true) (.done false)

def machineArgs (worker : Worker) (a : ProvisioningAttempt) : MachineArgs where
  worker := { worker with flyVolumeID := a.volumeID }
  imageRef := a.imageRef
  volumeID := a.volumeID
  attempt := some a.id

/-- `resumeWorkerProvisioning`: each phase is claimed before its request is made. -/
def provisionStep (cfg : Config) (worker : Worker) (w : World) :
    ProvisionPC → Outcome → Option (World × Next ProvisionPC Bool)
  | .resume _, .refuse => some (w, .done false)
  | .resume a, .sql result =>
    match a.phase with
    | .planned =>
      let next := { a with phase := .volumeRequested }
      some (advanceStep w a .volumeRequested [] [] result (.lookup next))
    | .volumeReady =>
      let next := { a with phase := .machineRequested }
      some (advanceStep w a .machineRequested [] [] result (.machine next .lookup))
    -- a creation intent without a confirmed resource
    | _ => some (w, .done false)
  | .lookup a, .sql .ok => some (w, .goto (.source a (activeProvisioning w.tables.attempts)))
  | .lookup _, .sql (.failed _) => some (w, .done false)
  | .source _ _, .refuse => some (w, .done false)
  | .source a attempt, .source found =>
    some (w, .goto (if found then .fork a attempt else .volume a))
  | .fork a attempt, .volume result =>
    let w := requestVolume w a result
    match result with
    | .ok volumeID => some (w, .goto (.saveVolume a volumeID))
    | .error e =>
      if attempt.isSome && !providerRejectedRequest e then some (w, .done false)
      else some (w, .goto (.volume a))
  | .volume a, .volume result =>
    let w := requestVolume w a result
    match result with
    | .ok volumeID => some (w, .goto (.saveVolume a volumeID))
    | .error _ => some (w, .done false)
  | .saveVolume a volumeID, .sql result =>
    let next := { a with phase := .volumeReady, volumeID }
    some (advanceStep w a .volumeReady volumeID [] result (.resume next))
  | .machine a pc, outcome =>
    match machineStep cfg (machineArgs worker a) w pc outcome with
    | none => none
    | some (w, .goto pc) => some (w, .goto (.machine a pc))
    | some (w, .done none) => some (w, .done false)
    | some (w, .done (some machine)) => some (w, .goto (.saveMachine a machine))
  | .saveMachine a machine, .sql result =>
    let next := { a with phase := .machineReady, machineID := machine.id }
    some (advanceStep w a .machineReady [] machine.id result (.finish next machine))
  | .finish a machine, .sql result => some (finishStep w a machine result)
  | _, _ => none

/-! ## §5 — `createWorker` -/

structure WorkerRequest where
  name : Text
  source : Text
  gitSHA : Text
  litestreamSHA : Text
  profileName : Text
  imageRef : Text
  region : Text
  volumeSizeGB : Int
  profile : Option Text
deriving DecidableEq

def newWorkerRecord (req : WorkerRequest) : Worker where
  name := req.name
  status := .pending
  source := req.source
  gitSHA := req.gitSHA
  litestreamSHA := req.litestreamSHA
  profileName := req.profileName
  region := if req.region = [] then text "ord" else req.region
  profile := req.profile
  volumeSizeGB := req.volumeSizeGB

/-- The upsert of `CreateWorker`: the ids and the hold of a row that exists stay. -/
def upsertWorker (old : Option Worker) (new : Worker) : Worker :=
  match old with
  | none => new
  | some old =>
    { new with
      flyMachineID := orKeep new.flyMachineID old.flyMachineID
      flyVolumeID := orKeep new.flyVolumeID old.flyVolumeID
      evidenceHeld := old.evidenceHeld }

def plannedAttempt (worker : Worker) (imageRef : Text) (size : Int) (id : Text)
    (deploymentID : Nat) (workloadSHA : Text) : ProvisioningAttempt where
  id := id
  imageRef := imageRef
  gitSHA := worker.gitSHA
  litestreamSHA := worker.litestreamSHA
  volumeName := text "soak_" ++ (id.filter (· != '-')).take 24
  volumeSizeGB := if size ≤ 0 then 10 else size
  deploymentID := deploymentID
  workloadSHA := workloadSHA

inductive CreatePC where
  | check (req : WorkerRequest)
  | upsert (req : WorkerRequest)
  | plan (worker : Worker) (imageRef : Text) (size : Int)
  | begin (worker : Worker) (pc : BeginPC)
  | provision (worker : Worker) (pc : ProvisionPC)

/-- `createWorker`: the worker's row, the attempt, the provisioning. -/
def createStep (cfg : Config) (w : World) :
    CreatePC → Outcome → Option (World × Next CreatePC Bool)
  -- the gate, or a configuration that does not encode
  | .check _, .refuse => some (w, .done false)
  | .check req, .sql .ok =>
    if w.tables.worker.any (·.evidenceHeld) then some (w, .done false)
    else some (w, .goto (.upsert req))
  -- a read that fails does not find a hold
  | .check req, .sql (.failed _) => some (w, .goto (.upsert req))
  | .upsert req, .stamp now result =>
    let worker := newWorkerRecord req
    let row := upsertWorker w.tables.worker { worker with createdAt := now }
    let tables := { w.tables with worker := some row }
    some (w.exec (some tables) result (.goto (.plan worker req.imageRef req.volumeSizeGB))
      (.done false))
  | .plan _ _ _, .refuse => some (w, .done false)
  | .plan worker imageRef size, .plan id deploymentID workloadSHA =>
    let new := plannedAttempt worker imageRef size id deploymentID workloadSHA
    some (w, .goto (.begin worker (.insert new)))
  | .begin worker pc, outcome =>
    match beginStep w pc outcome with
    | none => none
    | some (w, .goto pc) => some (w, .goto (.begin worker pc))
    | some (w, .done none) => some (w, .done false)
    | some (w, .done (some a)) => some (w, .goto (.provision worker (.resume a)))
  | .provision worker pc, outcome =>
    match provisionStep cfg worker w pc outcome with
    | none => none
    | some (w, .goto pc) => some (w, .goto (.provision worker pc))
    | some (w, .done ok) => some (w, .done ok)
  | _, _ => none

end LitestreamSoak.Orchestrator
