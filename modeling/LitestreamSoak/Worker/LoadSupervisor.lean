import LitestreamSoak.Lib.Machine

/-!
# Worker — the load supervisor

`internal/worker/load_supervisor.go` runs a load generator as a child process and starts it again
when it exits. The verifier pauses the child with SIGSTOP while it compares, and the runner stops
it at the end. Everything shared is under one mutex, but a child is created by `startCmd` outside
it and published in a later critical section.

A critical section is one step here, and so is each thing done outside: `startCmd`, `cmd.Wait`,
closing `done`, a signal, a select. The threads are

* **`start`** (`StartPC`), which creates and publishes the first child and spawns the supervisor;
* **`supervise`** (`SupervisePC`) with the loop of `waitWhilePaused`;
* **`Pause`** and **`Resume`**, a critical section each;
* any number of **`Stop`** calls (`StopCall`), which signal and wait after theirs.

A signal acts at the step that sends it, and has no effect on a child that is gone. Children exit
at any time. Metrics, logging and the harness's list of writers are left out, and so are the
lengths of the backoffs.
-/

namespace LitestreamSoak.Worker.LoadSupervisor

open Lib Function

/-! ## §1 — the state -/

/-- A child process. `sentStop` and `interrupted` say which signals it was sent while it lived,
`suspended` whether the last of SIGSTOP and SIGCONT was a SIGSTOP; `done` is its channel. -/
structure Child where
  live : Bool := false
  sentStop : Bool := false
  suspended : Bool := false
  interrupted : Bool := false
  done : Bool := false
deriving DecidableEq

inductive StartPC where
  | begin
  | created (child : Nat)
  | returned
deriving DecidableEq

inductive SupervisePC where
  | absent
  | waiting (child : Nat)
  /-- `Wait` has returned. -/
  | reaped (child : Nat)
  /-- Before `close(done)`. -/
  | closing (child : Nat)
  /-- Before the test of the context and of `isStopped`. -/
  | check
  | backoff
  /-- At the head of the loop of `waitWhilePaused`. -/
  | pauseCheck
  | awaitResume (resume : Nat)
  /-- `waitWhilePaused` has returned true; before `startCmd`. -/
  | restarting
  /-- `startCmd` has returned a child that is not published. -/
  | created (child : Nat)
  /-- Published; `stopped` as it was read. -/
  | committed (child : Nat) (stopped : Bool)
  | returned
deriving DecidableEq

/-- A call of `Stop`, with what it read under the lock. -/
inductive StopCall where
  | absent
  | locked (cmd : Option Nat) (exited : Bool) (procDone : Option Nat)
  | continued (child : Nat) (procDone : Option Nat)
  /-- Before the receive from `done`. -/
  | waiting (procDone : Option Nat)
  | returned (procDone : Option Nat)
deriving DecidableEq

structure State where
  cmd : Option Nat := none
  exited : Bool := false
  paused : Bool := false
  stopped : Bool := false
  resumeCh : Option Nat := none
  procDone : Option Nat := none
  /-- Channels made so far, and those of them that are closed. -/
  channels : Nat := 0
  closed : List Nat := []
  cancelled : Bool := false
  started : Nat := 0
  child : Nat → Child := fun _ => {}
  start : StartPC := .begin
  supervise : SupervisePC := .absent
  stops : Nat → StopCall := fun _ => .absent
  /-- `Pause` has returned nil, and neither `Resume` nor `Stop` was called since. -/
  quiet : Bool := false

/-! ## §2 — children -/

def State.setChild (s : State) (i : Nat) (f : Child → Child) : State :=
  { s with child := update s.child i (f (s.child i)) }

def State.signal (s : State) (i : Nat) (f : Child → Child) : State :=
  s.setChild i fun c => if c.live then f c else c

def sigstop (c : Child) : Child := { c with sentStop := true, suspended := true }

def sigcont (c : Child) : Child := { c with suspended := false }

def interrupt (c : Child) : Child := { c with interrupted := true }

def State.spawn (s : State) : State :=
  { s.setChild s.started fun _ => { live := true } with started := s.started + 1 }

def State.publish (s : State) (i : Nat) : State :=
  { s with cmd := some i, exited := false, procDone := some i }

/-- `if s.resumeCh == nil { s.resumeCh = make(chan struct{}) }`. -/
def State.ensureResumeCh (s : State) : State :=
  match s.resumeCh with
  | some _ => s
  | none => { s with resumeCh := some s.channels, channels := s.channels + 1 }

/-- `if s.resumeCh != nil { close(s.resumeCh); s.resumeCh = nil }`. -/
def State.closeResumeCh (s : State) : State :=
  match s.resumeCh with
  | some ch => { s with resumeCh := none, closed := ch :: s.closed }
  | none => s

/-! ## §3 — the threads -/

/-- `start`: `startCmd` fails or returns a child, which is published as it is. -/
def startStep (s : State) (ok : Bool) : Option State :=
  match s.start with
  | .begin =>
    if ok then some { s.spawn with start := .created s.started }
    else some { s with start := .returned }
  | .created i => some { s.publish i with start := .returned, supervise := .waiting i }
  | .returned => none

/-- The critical section that publishes a restarted child and stops it when the load is paused. -/
def commit (s : State) (i : Nat) : State :=
  let s' := { s.publish i with supervise := .committed i s.stopped }
  if s.paused then s'.signal i sigstop else s'

/-- `supervise`. The flag is the branch a select takes, or the result of `startCmd`. -/
def superviseStep (s : State) (ok : Bool) : Option State :=
  match s.supervise with
  | .absent => none
  | .waiting i => if (s.child i).live then none else some { s with supervise := .reaped i }
  | .reaped i => some { s with exited := true, supervise := .closing i }
  | .closing i =>
    some { s.setChild i fun c => { c with done := true } with supervise := .check }
  | .check =>
    if s.cancelled || s.stopped then some { s with supervise := .returned }
    else some { s with supervise := .backoff }
  | .backoff =>
    if ok then some { s with supervise := .pauseCheck }
    else if s.cancelled then some { s with supervise := .returned }
    else none
  | .pauseCheck =>
    if s.stopped then some { s with supervise := .returned }
    else if !s.paused then some { s with supervise := .restarting }
    else
      let s' := s.ensureResumeCh
      some { s' with supervise := .awaitResume (s'.resumeCh.getD 0) }
  | .awaitResume ch =>
    if ok then
      if ch ∈ s.closed then some { s with supervise := .pauseCheck } else none
    else if s.cancelled then some { s with supervise := .returned }
    else none
  | .restarting =>
    if ok then some { s.spawn with supervise := .created s.started }
    else some { s with supervise := .backoff }
  | .created i => some (commit s i)
  | .committed i stopped =>
    let s' := { s with supervise := .waiting i }
    some (if stopped then s'.signal i interrupt else s')
  | .returned => none

/-- `Pause`. A signal may fail for another reason than a child that is gone; `Pause` then returns
the error. -/
def pause (s : State) (ok : Bool) : State :=
  let s := { s.ensureResumeCh with paused := true }
  match s.cmd with
  | none => { s with quiet := true }
  | some i =>
    if s.exited then { s with quiet := true }
    else if ok then { s.signal i sigstop with quiet := true }
    else s

def resume (s : State) : State :=
  let s := { s.closeResumeCh with paused := false, quiet := false }
  match s.cmd with
  | none => s
  | some i => if s.exited then s else s.signal i sigcont

def stopStep (s : State) (k : Nat) : Option State :=
  match s.stops k with
  | .absent =>
    let s' := { s.closeResumeCh with stopped := true, quiet := false }
    some { s' with stops := update s.stops k (.locked s.cmd s.exited s.procDone) }
  | .locked cmd exited procDone =>
    match cmd with
    | some i =>
      if exited then some { s with stops := update s.stops k (.waiting procDone) }
      else some { s.signal i sigcont with
        stops := update s.stops k (.continued i procDone) }
    | none => some { s with stops := update s.stops k (.waiting procDone) }
  | .continued i procDone =>
    some { s.signal i interrupt with stops := update s.stops k (.waiting procDone) }
  | .waiting procDone =>
    match procDone with
    | some i =>
      if (s.child i).done then
        some { s with stops := update s.stops k (.returned procDone) }
      else none
    | none => some { s with stops := update s.stops k (.returned procDone) }
  | .returned _ => none

/-! ## §4 — the machine -/

inductive Action where
  | start (ok : Bool)
  | supervise (ok : Bool)
  | pause (ok : Bool)
  | resume
  | stop (call : Nat)
  | exit (child : Nat)
  | cancel
deriving DecidableEq

def step (s : State) : Action → Option State
  | .start ok => startStep s ok
  | .supervise ok => superviseStep s ok
  | .pause ok => some (pause s ok)
  | .resume => some (resume s)
  | .stop k => stopStep s k
  | .exit i => if (s.child i).live then some (s.setChild i fun c => { c with live := false })
      else none
  | .cancel => some { s with cancelled := true }

def machine : Machine State Action := ⟨fun s => s = {}, step⟩

end LitestreamSoak.Worker.LoadSupervisor
