import LitestreamSoak.Orchestrator.Replacement

/-!
# Orchestrator — evidence holds and what is destroyed

A fleet of workers, each with rows of its own, and the calls that run under the workers' locks: a
hold, a release, a destroy (an expiry is one), a replacement or a resume, and the collection of
stale volumes, which locks every worker that references the volume. Reports write a worker's row
under no lock. What the workers share is the constraint that no two have the same machine.
-/

namespace LitestreamSoak.Orchestrator.EvidenceHold

open Lib Orchestrator Function
open Gate (WorkerStatus)

/-! ## §1 — replica prefixes -/

/-- What does not change: the workers there are, whether a bucket is configured, and which profiles
replicate elsewhere. -/
structure Site where
  cfg : Config
  ids : List Text
  bucket : Bool
  otherBackend : Worker → Bool

def trimSlash (s : Text) : Text := (s.dropWhile (· = '/')).rdropWhile (· = '/')

def workerReplicaPath (w : Worker) : Text :=
  let base := text "soak/" ++ w.name
  let volumeID := trimSlash (trimSpace w.flyVolumeID)
  if volumeID = [] then base else base ++ text "/" ++ volumeID

def replicaPrefix (w : Worker) : Text := trimSlash (workerReplicaPath w) ++ text "/"

def clears (site : Site) (w : Worker) : Bool :=
  site.bucket && !site.otherBackend w && trimSpace w.name != []

def clearsOld (site : Site) (w : Worker) : Bool := trimSpace w.flyVolumeID != [] && clears site w

inductive Target where
  | machine (id : Text)
  | volume (id : Text)
  | object (key : Text)
deriving DecidableEq

/-- The resource is one that a hold on the worker names. -/
def Hits (w : Worker) : Target → Prop
  | .machine id => id ≠ [] ∧ w.flyMachineID = id
  | .volume id => id ≠ [] ∧ w.flyVolumeID = id
  | .object key => hasPrefix key (replicaPrefix w) = true

instance (w : Worker) : (t : Target) → Decidable (Hits w t)
  | .machine _ => inferInstanceAs (Decidable (_ ∧ _))
  | .volume _ => inferInstanceAs (Decidable (_ ∧ _))
  | .object _ => inferInstanceAs (Decidable (_ = _))

/-! ## §2 — the state -/

inductive Page where
  | more
  | last
  | failed
deriving DecidableEq

inductive Outcome where
  | call (outcome : Replacement.Outcome)
  | inventory (machines : List Machine) (volumes : List Volume)
  | page (keys : List Text) (page : Page)

/-- `destroyWorker` with its copy of the row; `failed` says that some cleanup did. -/
inductive DestroyPC where
  | read
  | retain (w : Worker)
  | machine (w : Worker)
  | volume (w : Worker) (failed : Bool)
  | attempt (w : Worker) (failed : Bool)
  | inventory (w : Worker) (a : ProvisioningAttempt) (failed : Bool)
  | machines (w : Worker) (a : ProvisioningAttempt) (machines volumes : List Text)
      (attemptFailed failed : Bool)
  | volumes (w : Worker) (a : ProvisioningAttempt) (volumes : List Text)
      (attemptFailed failed : Bool)
  | clear (w : Worker) (a : Option ProvisioningAttempt) (failed : Bool)
  | abandon (w : Worker) (a : ProvisioningAttempt)
  | status (w : Worker) (failed : Bool)

inductive Call where
  | hold
  | release (destroy : Bool)
  | destroy
  | change (call : Replacement.Call)

inductive PC where
  | idle
  | waiting (id : Text) (call : Call)
  | holdRead (id : Text)
  | holdSet (id : Text)
  | holdReload (id : Text)
  | releaseRead (id : Text) (destroy : Bool)
  | releaseClear (id : Text) (destroy : Bool)
  | destroy (id : Text) (pc : DestroyPC)
  | change (id : Text) (pc : Replacement.PC)
  | clearOld (id : Text) (w : Worker) (pc : Replacement.PC)
  /-- the collection of a volume; without `request` it only looks for a hold -/
  | owners (volumeID : Text) (request : Bool)
  | lockOwner (volumeID : Text) (request : Bool) (todo locked : List Text) (held : Bool)
  | reload (volumeID : Text) (request : Bool) (id : Text) (todo locked : List Text) (held : Bool)
  | persist (volumeID : Text) (locked : List Text)
  | collect (volumeID : Text) (locked : List Text)

structure State where
  worlds : Text → World
  locks : Text → Option Nat
  callers : Nat → PC

inductive Action where
  | call (c : Nat) (id : Text) (call : Call)
  | volume (c : Nat) (volumeID : Text) (request : Bool)
  | lock (c : Nat)
  | cancel (c : Nat)
  | step (c : Nat) (outcome : Outcome)
  /-- a report of a worker; its row keeps its volume and its hold -/
  | report (id : Text) (row : Worker)

def State.row (s : State) (id : Text) : Option Worker := (s.worlds id).tables.worker

/-- `fly_machine_id TEXT UNIQUE`; an empty id is NULL. -/
def UniqueMachines (site : Site) (s : State) : Prop :=
  ∀ i ∈ site.ids, ∀ x ∈ s.row i, ∀ j ∈ site.ids, ∀ y ∈ s.row j,
    x.flyMachineID = y.flyMachineID → x.flyMachineID = [] ∨ i = j

instance (site : Site) (s : State) : Decidable (UniqueMachines site s) :=
  inferInstanceAs (Decidable (∀ i ∈ site.ids, _))

def State.setCaller (s : State) (c : Nat) (pc : PC) : State :=
  { s with callers := update s.callers c pc }

def State.setWorld (s : State) (id : Text) (w : World) : State :=
  { s with worlds := update s.worlds id w }

def PC.locked : PC → List Text
  | .idle | .waiting _ _ | .owners _ _ => []
  | .holdRead id | .holdSet id | .holdReload id | .releaseRead id _ | .releaseClear id _
  | .destroy id _ | .change id _ | .clearOld id _ _ => [id]
  | .lockOwner _ _ _ locked _ | .persist _ locked | .collect _ locked => locked
  | .reload _ _ id _ locked _ => id :: locked

def State.return (s : State) (c : Nat) : State :=
  { s.setCaller c .idle with
    locks := fun id => if id ∈ (s.callers c).locked then none else s.locks id }

/-! ## §3 — the row of a worker -/

def setRow (t : Tables) (f : Worker → Worker) : Tables := { t with worker := t.worker.map f }

def setEvidenceHold (held : Bool) (t : Tables) : Tables :=
  setRow t fun w => { w with evidenceHeld := held }

def updateWorkerStatus (status : WorkerStatus) (t : Tables) : Tables :=
  setRow t fun w => { w with status }

/-- A statement that succeeds, one that fails and was applied, or one that did nothing. -/
def applied (w : World) (f : Tables → Tables) : Sql → World
  | .ok | .failed true => w.setTables (f w.tables)
  | .failed false => w

def reportRow (t : Tables) (row : Worker) : Tables :=
  { t with
    worker := some { row with
      flyVolumeID := (t.worker.map (·.flyVolumeID)).getD []
      evidenceHeld := (t.worker.map (·.evidenceHeld)).getD false } }

/-! ## §4 — `destroyWorker` -/

def attemptMachines (a : ProvisioningAttempt) (machines : List Machine) : List Text :=
  (machines.filter fun machine => machine.state != .destroyed &&
    (machine.env.runID = a.id || (a.machineID != [] && machine.id = a.machineID))).map (·.id)

def attemptVolumes (a : ProvisioningAttempt) (volumes : List Volume) : List Text :=
  (volumes.filter fun volume => !retiringProvisioningVolume volume && volume.state != .destroyed &&
    (volume.name = a.volumeName || (a.volumeID != [] && volume.id = a.volumeID))).map (·.id)

def volumeEntry (w : Worker) (failed : Bool) : DestroyPC :=
  if w.flyVolumeID = [] then .attempt w failed else .volume w failed

def cleared (w : Worker) (a : Option ProvisioningAttempt) (failed : Bool) : DestroyPC :=
  match a, failed with
  | some a, false => .abandon w a
  | _, failed => .status w failed

/-- `clearWorkerReplicaPrefix` returns at once where there is nothing to list; a name of spaces is
an error. -/
def clearEntry (site : Site) (w : Worker) (a : Option ProvisioningAttempt) (failed : Bool) :
    DestroyPC :=
  if clears site w then .clear w a failed
  else cleared w a (failed || (site.bucket && !site.otherBackend w))

/-- `destroyWorker` with the resources of its open attempt. -/
def destroyStep (site : Site) (world : World) :
    DestroyPC → Outcome → Option (World × Next DestroyPC Unit)
  | .read, .call (.run (.sql .ok)) =>
    match world.tables.worker with
    | none => some (world, .done ())
    | some w =>
      if w.evidenceHeld then some (world, .goto (.retain w))
      else if w.flyMachineID = [] then some (world, .goto (volumeEntry w false))
      else some (world, .goto (.machine w))
  | .read, .call (.run (.sql (.failed _))) => some (world, .done ())
  -- `retainHeldWorker` stops the machine and marks the worker
  | .retain _, .call (.run (.sql result)) =>
    some (applied world (updateWorkerStatus .stopped) result, .done ())
  | .machine w, .call (.provider error) =>
    some (world, .goto (volumeEntry w !(Replacement.destroyed error)))
  | .volume w failed, .call (.provider error) =>
    some (world, .goto (.attempt w (failed || !(Replacement.destroyed error))))
  | .attempt w failed, .call (.run (.sql .ok)) =>
    match activeProvisioning world.tables.attempts with
    | none => some (world, .goto (clearEntry site w none failed))
    | some a => some (world, .goto (.inventory w a failed))
  | .attempt w _, .call (.run (.sql (.failed _))) =>
    some (world, .goto (clearEntry site w none true))
  | .inventory w a failed, .inventory machines volumes =>
    some (world, .goto (.machines w a (attemptMachines a machines) (attemptVolumes a volumes) false
      failed))
  | .inventory w _ _, .call (.run .refuse) => some (world, .goto (clearEntry site w none true))
  | .machines w a (_ :: machines) volumes attemptFailed failed, .call (.provider error) =>
    some (world, .goto (.machines w a machines volumes
      (attemptFailed || !(Replacement.destroyed error)) failed))
  | .machines w a [] volumes attemptFailed failed, .call (.run (.sql .ok)) =>
    some (world, .goto (.volumes w a volumes attemptFailed failed))
  | .volumes w a (_ :: volumes) attemptFailed failed, .call (.provider error) =>
    some (world, .goto (.volumes w a volumes (attemptFailed || !(Replacement.destroyed error))
      failed))
  | .volumes w a [] attemptFailed failed, .call (.run (.sql .ok)) =>
    some (world, .goto (clearEntry site w (if attemptFailed then none else some a)
      (failed || attemptFailed)))
  | .clear w a failed, .page keys page =>
    if keys.all fun key => hasPrefix key (replicaPrefix w) then
      match page with
      | .more => some (world, .goto (.clear w a failed))
      | .last => some (world, .goto (cleared w a failed))
      | .failed => some (world, .goto (cleared w a true))
    else none
  | .abandon w a, .call (.run (.sql result)) =>
    match abandonProvisioning world.tables a, result with
    | some t, .ok => some (world.setTables t, .goto (.status w false))
    | some t, .failed true => some (world.setTables t, .goto (.status w true))
    | _, _ => some (world, .goto (.status w true))
  | .status w failed, .call (.run (.sql result)) =>
    let status := if failed then w.status else .stopped
    some (applied world (updateWorkerStatus status) result, .done ())
  | _, _ => none

/-! ## §5 — a replacement or a resume -/

def changeNext (site : Site) (id : Text) (before after : Replacement.PC) : PC :=
  match before, after with
  | .destroyVolume w _, .create probing pc =>
    if clearsOld site w then .clearOld id w (.create probing pc)
    else .change id (.create probing pc)
  | _, .idle => .idle
  | _, after => .change id after

/-- A replacement or a resume, and the clearing of the old replica prefix. -/
def changeStep (site : Site) (id : Text) (world : World) (pc : Replacement.PC)
    (o : Replacement.Outcome) : Option (World × PC) :=
  (Replacement.callStep { site.cfg with workerID := id } ⟨world, pc, [], []⟩ pc o).map fun s =>
    (s.world, changeNext site id pc s.pc)

/-! ## §6 — stale volumes -/

/-- `ListWorkersReferencingVolume`, for one worker. -/
def references (world : World) (volumeID : Text) : Bool :=
  world.tables.worker.any fun w =>
    w.flyVolumeID = volumeID || world.tables.attempts.any fun a => a.volumeID = volumeID

def ownersOf (site : Site) (s : State) (volumeID : Text) : List Text :=
  if trimSpace volumeID = [] then []
  else site.ids.filter fun id => references (s.worlds id) volumeID

def collectEntry (volumeID : Text) (request : Bool) (locked : List Text) (held : Bool) : PC :=
  if request && !held then .persist volumeID locked else .idle

def ownerEntry (volumeID : Text) (request : Bool) (todo locked : List Text) (held : Bool) : PC :=
  match todo with
  | [] => collectEntry volumeID request locked held
  | _ => .lockOwner volumeID request todo locked held

/-! ## §7 — the machine -/

def Call.entry (id : Text) : Call → PC
  | .hold => .holdRead id
  | .release andDestroy => .releaseRead id andDestroy
  | .destroy => .destroy id .read
  | .change call => .change id (.readWorker call)

def State.goto (s : State) (c : Nat) : PC → State
  | .idle => s.return c
  | pc => s.setCaller c pc

def callStep (site : Site) (s : State) (c : Nat) : PC → Outcome → Option State
  | .holdRead id, .call (.run (.sql .ok)) =>
    match s.row id with
    | none => some (s.return c)
    | some w => some (s.goto c (if w.evidenceHeld then .idle else .holdSet id))
  | .holdRead _, .call (.run (.sql (.failed _))) => some (s.return c)
  | .holdSet id, .call (.run (.sql result)) =>
    let s := s.setWorld id (applied (s.worlds id) (setEvidenceHold true) result)
    some (s.goto c (if result = .ok then .holdReload id else .idle))
  | .holdReload _, .call (.run (.sql _)) => some (s.return c)
  | .releaseRead id destroy, .call (.run (.sql .ok)) =>
    match s.row id with
    | none => some (s.return c)
    | some w =>
      some (s.goto c (if w.evidenceHeld then .releaseClear id destroy
        else if destroy then .destroy id .read else .idle))
  | .releaseRead _ _, .call (.run (.sql (.failed _))) => some (s.return c)
  | .releaseClear id destroy, .call (.run (.sql result)) =>
    let s := s.setWorld id (applied (s.worlds id) (setEvidenceHold false) result)
    some (s.goto c (if result = .ok && destroy then .destroy id .read else .idle))
  | .destroy id pc, o =>
    match destroyStep site (s.worlds id) pc o with
    | none => none
    | some (world, .goto pc) => some ((s.setWorld id world).goto c (.destroy id pc))
    | some (world, .done _) => some ((s.setWorld id world).return c)
  | .change id pc, .call o =>
    match changeStep site id (s.worlds id) pc o with
    | none => none
    | some (world, pc) => some ((s.setWorld id world).goto c pc)
  | .clearOld id w pc, .page keys page =>
    if keys.all fun key => hasPrefix key (replicaPrefix w) then
      some (s.goto c (if page = .more then .clearOld id w pc else .change id pc))
    else none
  | .owners volumeID request, .call (.run (.sql .ok)) =>
    some (s.goto c (ownerEntry volumeID request (ownersOf site s volumeID) [] false))
  | .owners _ _, .call (.run (.sql (.failed _))) => some (s.return c)
  | .reload volumeID request id todo locked held, .call (.run (.sql .ok)) =>
    match s.row id with
    | none => some (s.return c)
    | some w =>
      some (s.goto c (ownerEntry volumeID request todo (id :: locked) (held || w.evidenceHeld)))
  | .reload _ _ _ _ _ _, .call (.run (.sql (.failed _))) => some (s.return c)
  | .persist volumeID locked, .call (.run (.sql .ok)) => some (s.goto c (.collect volumeID locked))
  | .persist _ _, .call (.run (.sql (.failed _))) => some (s.return c)
  | .collect _ _, .call (.provider _) => some (s.return c)
  | _, _ => none

def act (site : Site) (s : State) : Action → Option State
  | .call c id call =>
    match s.callers c with
    | .idle => if id ∈ site.ids then some (s.setCaller c (.waiting id call)) else none
    | _ => none
  | .volume c volumeID request =>
    match s.callers c with
    | .idle => some (s.setCaller c (.owners volumeID request))
    | _ => none
  | .lock c =>
    match s.callers c with
    | .waiting id call =>
      if s.locks id = none then
        some { s.setCaller c (call.entry id) with locks := update s.locks id (some c) }
      else none
    | .lockOwner volumeID request (id :: todo) locked held =>
      if s.locks id = none then
        some { s.setCaller c (.reload volumeID request id todo locked held) with
          locks := update s.locks id (some c) }
      else none
    | _ => none
  | .cancel c =>
    match s.callers c with
    | .waiting _ _ => some (s.return c)
    | .lockOwner _ _ _ _ _ => some (s.return c)
    | _ => none
  | .step c outcome => callStep site s c (s.callers c) outcome
  | .report id row =>
    if id ∈ site.ids then
      some (s.setWorld id ((s.worlds id).setTables (reportRow (s.worlds id).tables row)))
    else none

/-- A statement that would give two workers one machine does not succeed. -/
def step (site : Site) (s : State) (a : Action) : Option State :=
  (act site s a).filter fun s' => UniqueMachines site s'

def PC.destroys : PC → Outcome → List Target
  | .destroy _ (.machine w), .call (.provider _) => [.machine w.flyMachineID]
  | .destroy _ (.volume w _), .call (.provider _) => [.volume w.flyVolumeID]
  | .destroy _ (.machines _ _ (id :: _) _ _ _), .call (.provider _) => [.machine id]
  | .destroy _ (.volumes _ _ (id :: _) _ _), .call (.provider _) => [.volume id]
  | .destroy _ (.clear _ _ _), .page keys _ => keys.map .object
  | .change _ (.destroy w _), .call (.provider _) => [.machine w.flyMachineID]
  | .change _ (.destroyVolume w _), .call (.provider _) => [.volume w.flyVolumeID]
  | .change _ (.destroyDormant w _ _), .call (.provider _) => [.machine w.flyMachineID]
  | .change _ (.recreate w _), .call (.provider _) => [.machine w.flyMachineID]
  | .change _ (.recreateVolume w _), .call (.provider _) => [.volume w.flyVolumeID]
  | .clearOld _ _ _, .page keys _ => keys.map .object
  | .collect volumeID _, .call (.provider _) => [.volume volumeID]
  | _, _ => []

/-- The machine, the volume or the objects that a step asks the providers to destroy. -/
def destroys (s : State) : Action → List Target
  | .step c outcome => (s.callers c).destroys outcome
  | _ => []

def machine (site : Site) : Lib.Machine State Action where
  start s := (∀ id, s.locks id = none) ∧ (∀ c, s.callers c = .idle) ∧ UniqueMachines site s
  step := step site

end LitestreamSoak.Orchestrator.EvidenceHold
