import LitestreamSoak.Lib.Machine
import LitestreamSoak.Orchestrator.Provisioning

/-!
# Orchestrator — creating and recovering a worker at once

Callers of `createWorker` and `recoverPendingWorker` for one worker, each behind the worker's lock,
in one control plane that may die at any step. A recovery reads the worker, the open attempt and the
provider's inventories, adopts what it finds and otherwise resumes the provisioning.

* **Inventories** are arbitrary, and so is what a worker's reports make of its row (`report`).
* **A death** forgets every caller and frees the lock; the tables and the requests stay.
* **`abandon`** is a teardown that closes the open attempt, which other callers do under the lock.
-/

namespace LitestreamSoak.Orchestrator

open Lib

/-! ## §1 — what a recovery decides -/

structure Observed where
  worker : Worker
  image : Text
  machines : List Machine
  volumes : List Volume

def recoverable (worker : Worker) (a : Option ProvisioningAttempt) : Bool :=
  !(worker.status = .stopped || worker.status = .dormant || worker.status = .failed ||
      worker.evidenceHeld) &&
    (worker.status = .pending || a.isSome)

/-- The machines that may be the worker's, without an attempt; `none` where one is ambiguous. -/
def legacyMachines (cfg : Config) (o : Observed) (expected : Option WorkerIdentity) :
    Option (List Machine) :=
  let named := o.machines.filter fun machine => machine.state != .destroyed &&
    (machine.name = o.worker.name || machine.env.workerID = cfg.workerID)
  let owned := fun machine : Machine => expected.any fun e =>
    e.runID != [] && machine.env.runID = e.runID && o.worker.createdAt ≤ machine.createdAt &&
      provisioningMachineMatches cfg machine o.worker o.image e.runID &&
      provisioningExpectedMachineMatches cfg machine e
  if named.all owned then some named else none

def legacyVolume (o : Observed) (machine : Machine) : Option Volume :=
  (mountedProvisioningVolume machine o.volumes).filter fun volume =>
    volume.region = o.worker.region && max 10 o.worker.volumeSizeGB ≤ volume.sizeGB

def legacyVolumeBlocks (cfg : Config) (o : Observed) : Bool :=
  o.volumes.any fun volume =>
    (volume.id = o.worker.flyVolumeID || volume.name = cfg.flyVolumeName o.worker.name) &&
      !(retiringProvisioningVolume volume && unreferencedProvisioningVolume volume o.machines)

def adoptedAttempt (o : Observed) (expected : WorkerIdentity) (volume : Volume) :
    ProvisioningAttempt where
  id := expected.runID
  imageRef := o.image
  gitSHA := o.worker.gitSHA
  litestreamSHA := o.worker.litestreamSHA
  volumeName := volume.name
  volumeSizeGB := volume.sizeGB
  deploymentID := expected.deploymentID
  workloadSHA := expected.workloadSHA

def attemptTargets (o : Observed) (a : ProvisioningAttempt) : Bool :=
  a.gitSHA = o.worker.gitSHA && a.litestreamSHA = o.worker.litestreamSHA && a.imageRef = o.image

def ownedVolumes (o : Observed) (a : ProvisioningAttempt) : List Volume :=
  o.volumes.filter (·.name = a.volumeName)

def attemptVolumeConsistent (o : Observed) (a : ProvisioningAttempt) (volume : Volume) : Bool :=
  a.volumeSizeGB ≤ volume.sizeGB && volume.region = o.worker.region &&
    adoptableProvisioningVolume volume && (a.volumeID = [] || a.volumeID = volume.id)

/-- The machines that carry the attempt's run; `none` where one is not as intended. -/
def ownedMachines (cfg : Config) (o : Observed) (a : ProvisioningAttempt) : Option (List Machine) :=
  let running := o.machines.filter fun machine =>
    machine.state != .destroyed && machine.env.runID = a.id
  if running.all (provisioningMachineMatches cfg · o.worker a.imageRef a.id) then some running
  else none

def attemptMount (o : Observed) (a : ProvisioningAttempt) (machine : Machine) : Option Volume :=
  (mountedProvisioningVolume machine o.volumes).filter fun volume =>
    volume.name = a.volumeName && (a.volumeID = [] || a.volumeID = volume.id)

def resumable (o : Observed) (a : ProvisioningAttempt) : Bool :=
  !(a.volumeID != [] && (ownedVolumes o a).isEmpty) &&
    match ownedVolumes o a with
    | [volume] => volume.attachedMachineID = []
    | _ => true

/-! ## §2 — the counter of a recovery -/

inductive RecoverPC where
  | readWorker (image : Text)
  | readAttempt (worker : Worker) (image : Text)
  | observe (worker : Worker) (image : Text) (a : Option ProvisioningAttempt)
  | legacy (o : Observed)
  | adoptBegin (o : Observed) (expected : WorkerIdentity) (machine : Machine) (volume : Volume)
      (pc : BeginPC)
  | adoptAdvance (o : Observed) (expected : WorkerIdentity) (machine : Machine) (volume : Volume)
      (a : ProvisioningAttempt)
  | adoptExpect (o : Observed) (expected : WorkerIdentity) (machine : Machine)
      (a : ProvisioningAttempt)
  | previous (o : Observed)
  | plan (o : Observed)
  | begin (o : Observed) (pc : BeginPC)
  | reconcile (o : Observed) (a : ProvisioningAttempt)
  | saveVolume (o : Observed) (a : ProvisioningAttempt) (volume : Volume)
  | machines (o : Observed) (a : ProvisioningAttempt)
  | readExpected (o : Observed) (a : ProvisioningAttempt) (machine : Machine) (volume : Volume)
  | expectMachine (o : Observed) (a : ProvisioningAttempt) (machine : Machine) (volume : Volume)
      (expected : WorkerIdentity)
  | saveMachine (o : Observed) (a : ProvisioningAttempt) (machine : Machine) (volume : Volume)
  | finish (a : ProvisioningAttempt) (machine : NewMachine)
  | provision (worker : Worker) (pc : ProvisionPC)

def Machine.asNew (machine : Machine) : NewMachine := ⟨machine.id, machine.state = .started⟩

inductive RecoverOutcome where
  | run (outcome : Outcome)
  | inventory (machines : List Machine) (volumes : List Volume)
  | machine (result : Except ProviderError MachineState)

def legacyNext (cfg : Config) (o : Observed) (expected : Option WorkerIdentity) :
    Next RecoverPC Bool :=
  match legacyMachines cfg o expected, expected with
  | some [machine], some expected =>
    match legacyVolume o machine with
    | none => .done false
    | some volume =>
      .goto (.adoptBegin o expected machine volume (.insert (adoptedAttempt o expected volume)))
  | some [], _ =>
    if legacyVolumeBlocks cfg o then .done false
    else if o.worker.flyMachineID != [] then .goto (.previous o)
    else .goto (.plan o)
  | _, _ => .done false

def reconcileNext (o : Observed) (a : ProvisioningAttempt) : Next RecoverPC Bool :=
  if !attemptTargets o a then .done false
  else
    match ownedVolumes o a with
    | [] => .goto (.machines o a)
    | [volume] =>
      if !attemptVolumeConsistent o a volume then .done false
      else if a.phase = .volumeRequested then .goto (.saveVolume o a volume)
      else .goto (.machines o a)
    | _ => .done false

def machinesNext (cfg : Config) (o : Observed) (a : ProvisioningAttempt) : Next RecoverPC Bool :=
  match ownedMachines cfg o a with
  | some [] => if resumable o a then .goto (.provision o.worker (.resume a)) else .done false
  | some [machine] =>
    match attemptMount o a machine with
    | none => .done false
    | some volume => .goto (.readExpected o a machine volume)
  | _ => .done false

def recoverStep (cfg : Config) (w : World) :
    RecoverPC → RecoverOutcome → Option (World × Next RecoverPC Bool)
  | .readWorker image, .run (.sql .ok) =>
    match w.tables.worker with
    | none => some (w, .done false)
    | some worker => some (w, .goto (.readAttempt worker image))
  | .readAttempt worker image, .run (.sql .ok) =>
    let a := activeProvisioning w.tables.attempts
    if recoverable worker a then some (w, .goto (.observe worker image a)) else some (w, .done true)
  | .observe worker image a, .inventory machines volumes =>
    let o : Observed := ⟨worker, image, machines, volumes⟩
    match a with
    | none => some (w, .goto (.legacy o))
    | some a => some (w, .goto (.reconcile o a))
  | .legacy o, .run (.sql .ok) => some (w, legacyNext cfg o w.tables.expected)
  | .adoptBegin o expected machine volume pc, .run outcome =>
    match beginStep w pc outcome with
    | none => none
    | some (w, .goto pc) => some (w, .goto (.adoptBegin o expected machine volume pc))
    | some (w, .done none) => some (w, .done false)
    | some (w, .done (some a)) => some (w, .goto (.adoptAdvance o expected machine volume a))
  | .adoptAdvance o expected machine volume a, .run (.sql result) =>
    let next := { a with phase := .machineReady, volumeID := volume.id, machineID := machine.id }
    let expected := { expected with machineID := machine.id, volumeID := volume.id }
    some (advanceStep w a .machineReady volume.id machine.id result
      (.adoptExpect o expected machine next))
  | .adoptExpect _ expected machine a, .run (.sql result) =>
    some (w.exec (expectProvisioningRun cfg w.tables a expected) result
      (.goto (.finish a machine.asNew)) (.done false))
  | .previous o, .machine (.ok state) =>
    some (w, if state = .destroyed then .goto (.plan o) else .done false)
  | .previous o, .machine (.error e) =>
    some (w, if isNotFound e then .goto (.plan o) else .done false)
  | .plan o, .run (.plan id deploymentID workloadSHA) =>
    let new := plannedAttempt o.worker o.image o.worker.volumeSizeGB id deploymentID workloadSHA
    some (w, .goto (.begin o (.insert new)))
  | .begin o pc, .run outcome =>
    match beginStep w pc outcome with
    | none => none
    | some (w, .goto pc) => some (w, .goto (.begin o pc))
    | some (w, .done none) => some (w, .done false)
    | some (w, .done (some a)) => some (w, .goto (.reconcile o a))
  | .reconcile o a, .run (.sql .ok) => some (w, reconcileNext o a)
  | .saveVolume o a volume, .run (.sql result) =>
    let next := { a with phase := .volumeReady, volumeID := volume.id }
    some (advanceStep w a .volumeReady volume.id [] result (.machines o next))
  | .machines o a, .run (.sql .ok) => some (w, machinesNext cfg o a)
  | .readExpected o a machine volume, .run (.sql .ok) =>
    match w.tables.expected with
    | none => some (w, .done false)
    | some expected =>
      if expected.runID = a.id && provisioningExpectedMachineMatches cfg machine expected then
        let expected := { expected with machineID := machine.id, volumeID := volume.id }
        some (w, .goto (.expectMachine o a machine volume expected))
      else some (w, .done false)
  | .expectMachine o a machine volume expected, .run (.sql result) =>
    some (w.exec (expectProvisioningRun cfg w.tables a expected) result
      (.goto (.saveMachine o a machine volume)) (.done false))
  | .saveMachine _ a machine volume, .run (.sql result) =>
    let next := { a with phase := .machineReady, volumeID := volume.id, machineID := machine.id }
    some (advanceStep w a .machineReady volume.id machine.id result (.finish next machine.asNew))
  | .finish a machine, .run (.sql result) =>
    some (finishStep w a machine result)
  | .provision worker pc, .run outcome =>
    match provisionStep cfg worker w pc outcome with
    | none => none
    | some (w, .goto pc) => some (w, .goto (.provision worker pc))
    | some (w, .done ok) => some (w, .done ok)
  -- a read, an event or an inventory that fails, a gate that refuses, a context that is done
  | _, .run .refuse => some (w, .done false)
  | _, _ => none

/-! ## §3 — callers -/

inductive Call where
  | create (req : WorkerRequest)
  | recover (image : Text)

inductive CallerPC where
  | idle
  | waiting (call : Call)
  | creating (pc : CreatePC)
  | recovering (pc : RecoverPC)

structure State where
  world : World
  lock : Option Nat
  callers : Nat → CallerPC

inductive Action where
  | call (c : Nat) (call : Call)
  | lock (c : Nat)
  | cancel (c : Nat)
  | create (c : Nat) (outcome : Outcome)
  | recover (c : Nat) (outcome : RecoverOutcome)
  | die
  | report (worker : Option Worker) (expected : Option WorkerIdentity)
  | abandon

def State.setCaller (s : State) (c : Nat) (pc : CallerPC) : State :=
  { s with callers := Function.update s.callers c pc }

def State.return (s : State) (c : Nat) : State := { s.setCaller c .idle with lock := none }

def Call.entry : Call → CallerPC
  | .create req => .creating (.check req)
  | .recover image => .recovering (.readWorker image)

def step (cfg : Config) (s : State) : Action → Option State
  | .call c call =>
    match s.callers c with
    | .idle => some (s.setCaller c (.waiting call))
    | _ => none
  | .lock c =>
    match s.callers c, s.lock with
    | .waiting call, none => some { s.setCaller c call.entry with lock := some c }
    | _, _ => none
  | .cancel c =>
    match s.callers c with
    | .waiting _ => some (s.setCaller c .idle)
    | _ => none
  | .create c outcome =>
    match s.callers c with
    | .creating pc =>
      match createStep cfg s.world pc outcome with
      | none => none
      | some (world, .goto pc) => some { s.setCaller c (.creating pc) with world }
      | some (world, .done _) => some { s.return c with world }
    | _ => none
  | .recover c outcome =>
    match s.callers c with
    | .recovering pc =>
      match recoverStep cfg s.world pc outcome with
      | none => none
      | some (world, .goto pc) => some { s.setCaller c (.recovering pc) with world }
      | some (world, .done _) => some { s.return c with world }
    | _ => none
  | .die => some { s with lock := none, callers := fun _ => .idle }
  | .report worker expected =>
    some { s with world := s.world.setTables { s.world.tables with worker, expected } }
  | .abandon =>
    match s.lock, activeProvisioning s.world.tables.attempts with
    | none, some a =>
      (abandonProvisioning s.world.tables a).map fun t => { s with world := s.world.setTables t }
    | _, _ => none

def machine (cfg : Config) : Lib.Machine State Action where
  start s := s = ⟨{ tables := ⟨none, [], none⟩ }, none, fun _ => .idle⟩
  step := step cfg

end LitestreamSoak.Orchestrator
