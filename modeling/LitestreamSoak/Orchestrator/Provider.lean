import LitestreamSoak.Gate.Ledger

/-!
# Orchestrator — workers, attempts and what the provider shows

The rows of `workers`, `worker_provisioning` and `expected_worker_runs` for one worker, the
statements that write them, and the machines and volumes of a provider inventory with the checks a
recovery makes on them.

* **Statements** are functions from rows to rows: `advanceProvisioning`, `completeProvisioning` and
  the others say with a flag whether they affected the row they wanted.
* **An empty text** is a missing id, as in the source; `COALESCE(NULLIF(?,''),column)` is `orKeep`.

The profile a worker's environment resolves to is a column here (`none` where it does not parse),
and so is the volume size of its workload.
-/

namespace LitestreamSoak.Orchestrator

open Lib
open Gate (WorkerStatus)

/-! ## §1 — rows -/

inductive Phase where
  | planned
  | volumeRequested
  | volumeReady
  | machineRequested
  | machineReady
  | complete
  | abandoned
deriving DecidableEq

/-- `phase NOT IN ('complete','abandoned')`. -/
def Phase.isOpen : Phase → Bool
  | .complete | .abandoned => false
  | _ => true

structure ProvisioningAttempt where
  id : Text
  imageRef : Text
  gitSHA : Text
  litestreamSHA : Text
  phase : Phase := .planned
  volumeName : Text
  volumeSizeGB : Int
  deploymentID : Nat := 0
  workloadSHA : Text := []
  volumeID : Text := []
  machineID : Text := []
deriving DecidableEq

structure Worker where
  name : Text
  status : WorkerStatus
  source : Text
  gitSHA : Text
  litestreamSHA : Text
  profileName : Text
  region : Text
  flyMachineID : Text := []
  flyVolumeID : Text := []
  createdAt : Int := 0
  evidenceHeld : Bool := false
  profile : Option Text := none
  volumeSizeGB : Int := 0
deriving DecidableEq

structure WorkerIdentity where
  workerID : Text
  runID : Text
  imageRef : Text
  volumeID : Text
  profileConfig : Text
  workloadID : Text
  gitSHA : Text
  litestreamSHA : Text
  deploymentID : Nat := 0
  workloadSHA : Text := []
  machineID : Text := []
deriving DecidableEq

structure Tables where
  worker : Option Worker
  attempts : List ProvisioningAttempt
  expected : Option WorkerIdentity
deriving DecidableEq

structure Config where
  workerID : Text
  digest : Text → Text
  /-- the name an older control plane gave the volume of a worker -/
  flyVolumeName : Text → Text

/-! ## §2 — statements -/

def orKeep (new old : Text) : Text := if new = [] then old else new

def activeProvisioning (attempts : List ProvisioningAttempt) : Option ProvisioningAttempt :=
  attempts.find? (·.phase.isOpen)

/-- The insert of `BeginProvisioning`: ignored where the id is taken or another attempt is open. -/
def insertAttempt (t : Tables) (a : ProvisioningAttempt) : Tables :=
  let pending := t.worker.any fun w =>
    w.status = .pending && w.gitSHA = a.gitSHA && w.litestreamSHA = a.litestreamSHA
  let taken := t.attempts.any fun row => row.id = a.id || row.phase.isOpen
  if pending && !taken then
    { t with attempts := t.attempts ++
      [{ a with phase := .planned, volumeID := [], machineID := [] }] }
  else t

def currentAttempt (t : Tables) (a : ProvisioningAttempt) : Option ProvisioningAttempt :=
  (activeProvisioning t.attempts).filter fun current =>
    current.imageRef = a.imageRef && current.gitSHA = a.gitSHA &&
      current.litestreamSHA = a.litestreamSHA

def updateClaimed (attempts : List ProvisioningAttempt) (a : ProvisioningAttempt)
    (f : ProvisioningAttempt → ProvisioningAttempt) : List ProvisioningAttempt :=
  attempts.map fun row => if row.id = a.id && row.phase = a.phase then f row else row

def claimed (attempts : List ProvisioningAttempt) (a : ProvisioningAttempt) : Bool :=
  attempts.any fun row => row.id = a.id && row.phase = a.phase

def advanceProvisioning (attempts : List ProvisioningAttempt) (a : ProvisioningAttempt)
    (phase : Phase) (volumeID machineID : Text) : List ProvisioningAttempt :=
  updateClaimed attempts a fun row =>
    { row with
      phase
      volumeID := orKeep volumeID row.volumeID
      machineID := orKeep machineID row.machineID }

/-- `status IN ('pending','running','starting','probing')` for the worker an attempt is for. -/
def provisionable (t : Tables) (a : ProvisioningAttempt) : Bool :=
  t.worker.any fun w =>
    w.gitSHA = a.gitSHA && w.litestreamSHA = a.litestreamSHA &&
      (w.status = .pending || w.status = .running || w.status = .starting || w.status = .probing)

def readyAs (t : Tables) (a : ProvisioningAttempt) : Bool :=
  t.attempts.any fun row => row.id = a.id && row.phase = .machineReady &&
    row.volumeID = a.volumeID && row.machineID = a.machineID

def completeProvisioning (t : Tables) (a : ProvisioningAttempt) : Option Tables :=
  if a.phase = .machineReady ∧ a.machineID ≠ [] ∧ a.volumeID ≠ [] ∧
      readyAs t a = true ∧ provisionable t a = true then
    some { t with
      attempts := updateClaimed t.attempts a fun row => { row with phase := .complete }
      worker := t.worker.map fun w =>
        { w with flyMachineID := a.machineID, flyVolumeID := a.volumeID, status := .starting } }
  else none

def bindProvisioningMachine (t : Tables) (a : ProvisioningAttempt) : Option Tables :=
  if provisionable t a && readyAs t a then
    some { t with
      worker := t.worker.map fun w =>
        { w with flyMachineID := a.machineID, flyVolumeID := a.volumeID } }
  else none

def abandonProvisioning (t : Tables) (a : ProvisioningAttempt) : Option Tables :=
  if claimed t.attempts a then
    some { t with
      attempts := updateClaimed t.attempts a fun row => { row with phase := .abandoned } }
  else none

def expectProvisioningRun (cfg : Config) (t : Tables) (a : ProvisioningAttempt)
    (identity : WorkerIdentity) : Option Tables :=
  if identity.workerID = cfg.workerID ∧ identity.runID = a.id ∧
      identity.deploymentID = a.deploymentID ∧ identity.workloadSHA = a.workloadSHA ∧
      identity.gitSHA = a.gitSHA ∧ identity.litestreamSHA = a.litestreamSHA ∧
      identity.imageRef = a.imageRef ∧ claimed t.attempts a = true ∧ a.phase ≠ .complete ∧
      provisionable t a = true then
    some { t with expected := some identity }
  else none

def expectWorkerRun (t : Tables) (identity : WorkerIdentity) : Tables :=
  { t with expected := some identity }

/-! ## §3 — inventories -/

inductive VolumeState where
  | created
  | hydrating
  | pendingDestroy
  | schedulingDestroy
  | destroyed
  | other
deriving DecidableEq

structure Volume where
  id : Text
  name : Text
  state : VolumeState
  sizeGB : Int
  region : Text
  attachedMachineID : Text := []
  attachedAllocID : Text := []
deriving DecidableEq

inductive MachineState where
  | started
  | destroyed
  | other
deriving DecidableEq

structure Env where
  workerID : Text
  gitSHA : Text
  litestreamSHA : Text
  source : Text
  runID : Text
  workloadID : Text
  volumeID : Text
  workloadSHA : Text := []
  /-- the number that `SOAK_DEPLOYMENT_ID` prints, if it prints one -/
  deploymentID : Option Nat := none
  profile : Option Text := none
deriving DecidableEq

structure Mount where
  volume : Text
  path : Text
deriving DecidableEq

structure Machine where
  id : Text
  name : Text
  state : MachineState
  region : Text
  image : Text
  env : Env
  mounts : List Mount
  createdAt : Int := 0
deriving DecidableEq

def provisioningMachineMatches (cfg : Config) (machine : Machine) (worker : Worker)
    (image run : Text) : Bool :=
  machine.name = worker.name && machine.region = worker.region && machine.image = image &&
    machine.env.workerID = cfg.workerID && machine.env.gitSHA = worker.gitSHA &&
    machine.env.litestreamSHA = worker.litestreamSHA && machine.env.source = worker.source &&
    machine.env.runID = run

def retiringProvisioningVolume (volume : Volume) : Bool :=
  volume.state = .pendingDestroy || volume.state = .schedulingDestroy

def adoptableProvisioningVolume (volume : Volume) : Bool :=
  volume.attachedAllocID = [] && (volume.state = .created || volume.state = .hydrating)

def mountedProvisioningVolume (machine : Machine) (volumes : List Volume) : Option Volume :=
  match machine.mounts with
  | [mount] =>
    if mount.path = text "/data" then
      volumes.find? fun volume => volume.id = mount.volume && adoptableProvisioningVolume volume &&
        (volume.attachedMachineID = [] || volume.attachedMachineID = machine.id)
    else none
  | _ => none

def provisioningExpectedMachineMatches (cfg : Config) (machine : Machine)
    (expected : WorkerIdentity) : Bool :=
  expected.workloadID != [] && machine.env.workloadID = expected.workloadID &&
    (expected.deploymentID = 0 || machine.env.deploymentID = some expected.deploymentID) &&
    (expected.workloadSHA = [] || machine.env.workloadSHA = expected.workloadSHA) &&
    machine.env.profile.any (fun profile =>
      profile = expected.profileConfig && cfg.digest profile = expected.workloadID) &&
    match machine.mounts with
    | [mount] => machine.env.volumeID = mount.volume &&
        (expected.volumeID = [] || expected.volumeID = mount.volume)
    | _ => false

def unreferencedProvisioningVolume (volume : Volume) (machines : List Machine) : Bool :=
  volume.attachedMachineID = [] && volume.attachedAllocID = [] &&
    machines.all fun machine => machine.state = .destroyed ||
      machine.mounts.all fun mount => mount.volume != volume.id

/-- Why the provider did not answer with a resource; `manifest` says that the text names a missing
image manifest. -/
inductive ProviderError where
  | api (status : Nat) (manifest : Bool)
  | other (manifest : Bool)
deriving DecidableEq

def isNotFound : ProviderError → Bool
  | .api status _ => status = 404
  | .other _ => false

/-- `providerRejectedRequest`: the provider answered that it did nothing. -/
def providerRejectedRequest : ProviderError → Bool
  | .api status _ => 400 ≤ status && status < 500 && status != 408 && status != 429
  | .other _ => false

def retriableMachineCreateError : ProviderError → Bool
  | .api _ manifest => manifest
  | .other manifest => manifest

end LitestreamSoak.Orchestrator
