import LitestreamSoak.Gate.Ownership

/-!
# Gate.LifeCycle — evaluating, pinning and provisioning gates

The life of a gate in `rc_gate.go`, as one machine over the table of gates:

* **the evaluation loop** — `evaluateRCGates` lists the open gates and goes through them one by one.
  Each gate is evaluated as it was listed: its readiness and its status come from that snapshot, and
  so do the decisions, while every mark and the new status are statements on the table, after checks
  and teardowns that may fail.
* **pins** — `pinRCGateDeployment` reads the open gate of a source, writes the build where none is
  pinned, and reads what is pinned back. Any number of calls run at once.
* **registrations** add gates, and a **crash** ends the loop's round and every call.

`checkRCGateProvisioning` only reads; it may be called in any state.
-/

namespace LitestreamSoak.Gate.LifeCycle

open Lib Gate.Ownership

/-! ## §1 — provisioning -/

inductive ProvisionError where
  | noOpenGate (source : Text)
  | outsideWindow (source profile : Text) (status : RCGateStatus)
  | pinned (source image litestreamSHA : Text)
deriving DecidableEq

def rcGateProfilePermitted (metered : List Text) (gate : RCGate) (profile : Text) (now : Time) :
    Bool :=
  match rcGateProfileWindow metered gate profile with
  | none => false
  | some deadline =>
    decide (now < deadline) && (gate.pairedReadyAt.isSome || decide (now < gate.provisionDeadline))

def checkRCGateProvisioning (metered : List Text) (gates : GateTable)
    (source profile imageRef litestreamSHA : Text) (now : Time) : Except ProvisionError Unit :=
  if isGateSource source = false then .ok ()
  else
    match activeRCGateForSource gates source with
    | none => .error (.noOpenGate source)
    | some gate =>
      if rcGateProfilePermitted metered gate profile now = false then
        .error (.outsideWindow source profile gate.status)
      else
        let image := (gate.pinnedBuildFor source).1
        let litestream := gate.litestreamSHAFor source
        if image = [] ∨ trimSpace imageRef ≠ image ∨
            equalFold (trimSpace litestreamSHA) litestream = false then
          .error (.pinned source image litestream)
        else .ok ()

/-! ## §2 — statements on a gate -/

def readyAtFor (gate : RCGate) (source : Text) : Option Time :=
  if source = gate.candidateSource then gate.candidateReadyAt
  else if source = gate.baselineSource then gate.baselineReadyAt
  else none

def setReady (g : RCGate) (source : Text) (time : Time) : RCGate :=
  if source = g.candidateSource then
    { g with candidateReadyAt := some (g.candidateReadyAt.getD time) }
  else if source = g.baselineSource then
    { g with baselineReadyAt := some (g.baselineReadyAt.getD time) }
  else g

def markRCGateSideReady (gates : GateTable) (id : Nat) (source : Text) (time : Time) : GateTable :=
  gates.updateAt id (setReady · source time) fun g => by
    show (setReady g source time).id = g.id
    unfold setReady
    split
    · rfl
    · split <;> rfl

/-- The time at which both sides were ready, where there is none. -/
def setPaired (g : RCGate) (time : Time) : RCGate :=
  { g with pairedReadyAt := some (g.pairedReadyAt.getD time) }

def markRCGatePairedReady (gates : GateTable) (id : Nat) (time : Time) : GateTable :=
  gates.updateAt id (setPaired · time) fun _ => rfl

def setStatusAt (g : RCGate) (status : RCGateStatus) (completedAt : Option Time) : RCGate :=
  { g with status, completedAt }

def updateRCGateStatus (gates : GateTable) (id : Nat) (status : RCGateStatus)
    (completedAt : Option Time) : GateTable :=
  gates.updateAt id (setStatusAt · status completedAt) fun _ => rfl

def setBuild (g : RCGate) (source imageRef gitSHA : Text) : RCGate :=
  if g.closed then g
  else if source = g.candidateSource then
    if g.candidateImageRef = [] then
      { g with candidateImageRef := imageRef, candidateGitSHA := gitSHA }
    else g
  else if source = g.baselineSource then
    if g.baselineImageRef = [] then
      { g with baselineImageRef := imageRef, baselineGitSHA := gitSHA }
    else g
  else g

def pinRCGateBuild (gates : GateTable) (id : Nat) (source imageRef gitSHA : Text) : GateTable :=
  gates.updateAt id (setBuild · source imageRef gitSHA) fun g => by
    show (setBuild g source imageRef gitSHA).id = g.id
    unfold setBuild
    grind

/-! ## §3 — the evaluation of a gate -/

structure Round where
  now : Time
  gate : RCGate
  rest : List RCGate

inductive EvalPC where
  | idle
  | next (now : Time) (rest : List RCGate)
  /-- The sides that are still to be looked at, with the latest ready time so far and whether all
  sides so far are ready. -/
  | sides (r : Round) (todo : List Text) (latest : Option Time) (paired : Bool)
  | markSide (r : Round) (source : Text) (todo : List Text) (latest : Option Time) (paired : Bool)
  | markPaired (r : Round) (latest : Time)
  /-- The second `switch`. -/
  | expire (r : Round)
  | teardown (r : Round) (status : RCGateStatus)

/-- What a call or a statement of the loop answers; `no` is a side that is not ready. -/
inductive Answer where
  | failed
  | no
  | yes
deriving DecidableEq

def activeRCGates (gates : GateTable) : List RCGate :=
  (gates.rows.filter fun g => !g.closed).insertionSort fun a b => a.startedAt ≤ b.startedAt

def later (latest : Option Time) (t : Time) : Option Time :=
  match latest with
  | none => some t
  | some l => if l < t then some t else some l

def EvalPC.afterSides (r : Round) (latest : Option Time) (paired : Bool) : EvalPC :=
  let due := r.gate.provisionDeadline ≤ r.now ∨ r.gate.expiresAt ≤ r.now
  match paired, latest with
  | true, some l =>
    if l < r.gate.provisionDeadline ∧ l < r.gate.expiresAt then .markPaired r l
    else if due then .teardown r .aborted
    else .next r.now r.rest
  | _, _ => if due then .teardown r .aborted else .next r.now r.rest

def EvalPC.afterPairing (r : Round) : EvalPC :=
  match r.gate.status, r.gate.tailExpiresAt with
  | .running, _ =>
    if r.gate.expiresAt ≤ r.now then .teardown r (if r.gate.tail then .tail else .completed)
    else .next r.now r.rest
  | .tail, some tailExpiry =>
    if tailExpiry ≤ r.now then .teardown r .completed else .next r.now r.rest
  | _, _ => .next r.now r.rest

/-- `rcGateSideReady`: a side without a build is not ready, whatever its workers are. -/
def sideAnswer (gate : RCGate) (source : Text) (answer : Answer) : Answer :=
  if (gate.pinnedBuildFor source).1 = [] then .no else answer

/-! ## §4 — the machine -/

inductive PinPC where
  | idle
  /-- The gate of the source has been read, and a pin is in order. -/
  | write (id : Nat) (source imageRef gitSHA : Text)
  | read (id : Nat) (source gitSHA : Text)
  | returned (pinned : Option Text)

structure State where
  gates : GateTable := .empty _
  eval : EvalPC := .idle
  pins : Nat → PinPC := fun _ => .idle

def State.setPin (s : State) (c : Nat) (pc : PinPC) : State :=
  { s with pins := Function.update s.pins c pc }

def evalStep (s : State) (answer : Answer) : Option State :=
  match s.eval with
  | .idle => none
  | .next _ [] => some { s with eval := .idle }
  | .next now (gate :: rest) =>
    -- `ctx.Err` ends the round
    if answer = .failed then some { s with eval := .idle }
    else
      let r : Round := { now, gate, rest }
      if gate.status = .running ∧ gate.pairedReadyAt = none then
        some { s with eval := .sides r gate.sources none true }
      else some { s with eval := .expire r }
  | .sides r [] latest paired => some { s with eval := .afterSides r latest paired }
  | .sides r (source :: todo) latest paired =>
    match readyAtFor r.gate source with
    | some t => some { s with eval := .sides r todo (later latest t) paired }
    | none =>
      match sideAnswer r.gate source answer with
      | .failed => some { s with eval := .next r.now r.rest }
      | .no => some { s with eval := .sides r todo latest false }
      | .yes => some { s with eval := .markSide r source todo latest paired }
  | .markSide r source todo latest paired =>
    if answer = .yes then
      some { s with
        gates := markRCGateSideReady s.gates r.gate.id source r.now
        eval := .sides r todo (later latest r.now) paired }
    else some { s with eval := .next r.now r.rest }
  | .markPaired r latest =>
    if answer = .yes then
      some { s with
        gates := markRCGatePairedReady s.gates r.gate.id latest
        eval := .expire { r with gate := { r.gate with pairedReadyAt := some latest } } }
    else some { s with eval := .next r.now r.rest }
  | .expire r => some { s with eval := .afterPairing r }
  | .teardown r status =>
    if answer = .yes then
      some { s with
        gates := updateRCGateStatus s.gates r.gate.id status
          (if status = .completed ∨ status = .aborted then some r.now else none)
        eval := .next r.now r.rest }
    else some { s with eval := .next r.now r.rest }

def pinBegin (s : State) (source gitSHA litestreamSHA imageRef : Text) (now : Time) : PinPC :=
  match activeRCGateForSource s.gates source with
  | none => .returned none
  | some gate =>
    if equalFold (gate.litestreamSHAFor source) (trimSpace litestreamSHA) = false then
      .returned none
    else if (gate.pinnedBuildFor source).1 = [] ∧
        (gate.status ≠ .running ∨ gate.provisionDeadline ≤ now) then .returned none
    else if gate.sources.contains source then .write gate.id source imageRef gitSHA
    else .returned none

/-- The last read of `pinRCGateDeployment`: the pinned image, if it is of the same build. -/
def pinRead (gates : GateTable) (id : Nat) (source gitSHA : Text) : Option Text :=
  match gates.find? id with
  | none => none
  | some gate =>
    let (image, git) := gate.pinnedBuildFor source
    if image = [] ∨ git ≠ gitSHA then none else some image

def pinStep (s : State) (c : Nat) (ok : Bool) : Option State :=
  match s.pins c with
  | .write id source imageRef gitSHA =>
    if ok then
      some { s.setPin c (.read id source gitSHA) with
        gates := pinRCGateBuild s.gates id source imageRef gitSHA }
    else some (s.setPin c (.returned none))
  | .read id source gitSHA =>
    some (s.setPin c (.returned (if ok then pinRead s.gates id source gitSHA else none)))
  | _ => none

inductive Action where
  | register (request : RCGateRequest) (now : Time)
  | evaluate (now : Time)
  | eval (answer : Answer)
  | pin (c : Nat) (source gitSHA litestreamSHA imageRef : Text) (now : Time)
  | pinNext (c : Nat) (ok : Bool)
  | crash

def step (metered : List Text) (s : State) : Action → Option State
  | .register request now =>
    match newRCGate metered request now with
    | .error _ => none
    | .ok gate => (createRCGate s.gates gate).map fun gates => { s with gates }
  | .evaluate now =>
    match s.eval with
    | .idle => some { s with eval := .next now (activeRCGates s.gates) }
    | _ => none
  | .eval answer => evalStep s answer
  | .pin c source gitSHA litestreamSHA imageRef now =>
    match s.pins c with
    | .idle | .returned _ =>
      some (s.setPin c (pinBegin s source gitSHA litestreamSHA imageRef now))
    | _ => none
  | .pinNext c ok => pinStep s c ok
  | .crash => some { s with eval := .idle, pins := fun _ => .idle }

def machine (metered : List Text) : Machine State Action where
  start s := s = {}
  step := step metered

end LitestreamSoak.Gate.LifeCycle
