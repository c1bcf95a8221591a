import LitestreamSoak.Lib.Machine

/-!
# Worker.LitestreamProcess — stopping, replacing and watching Litestream

The process part of `litestream_manager.go` and of `walreset_check.go`: `startLitestream`,
`beginStop`/`finishStop`, the monitor, and `ensureLitestreamForCheck`, as one machine with a step
for every access to what the threads share.

* A **process** is what `litestreamProcess` keeps about it (`done`, `expectedExit`, `stop`) and
  whether it has ended. It may end at any moment, on its own, on a signal, or because its context
  was cancelled; `cmd.Wait` sees the end later.
* A **request** is one stop: the process captured for it, its signal, and where it is in `beginStop`
  and `finishStop`. A request outlives the call that made it: a check's stop that timed out goes on.
  Any number of shutdown requests may be made at any time.
* The **check** is the one thread that starts processes. It begins with the start that `Run` makes.
-/

namespace LitestreamSoak.Worker.LitestreamProcess

open Lib

/-! ## §1 — the state -/

inductive Signal where
  | interrupt
  | terminate
  | kill
deriving DecidableEq

inductive Monitor where
  | none
  | waiting
  | quiet
  | cancelled
deriving DecidableEq

structure Process where
  /-- The process has ended, with the signal its exit snapshot will name, if any. -/
  exited : Bool := false
  exitSignal : Option Signal := none
  waited : Bool := false
  done : Bool := false
  expectedExit : Bool := false
  /-- The request currently responsible for the exit. -/
  stop : Option Nat := none
  monitor : Monitor := .none
  /-- A stop was requested before the process ended. -/
  stopRequested : Bool := false

inductive StopResult where
  | ok
  | notRunning
  | exitedBeforeStop
  | exitNotAttributed
  | superseded
  | signalFailed
deriving DecidableEq

inductive RequestPC where
  /-- `beginStop`: the `select` on `done`. -/
  | check
  /-- `beginStop`: `expectedExit` and `stop` are set under the process lock. -/
  | mark
  /-- `finishStop`: the signal, under the process lock. -/
  | signal
  | wait
  /-- The signal found the process gone. -/
  | waitGone
  | ended (result : StopResult)
deriving DecidableEq

structure Request where
  process : Option Nat := none
  sig : Signal := .interrupt
  pc : RequestPC := .check
  signalled : Option Nat := none
  /-- Another request took the stop over before this one had signalled. -/
  superseded : Bool := false

inductive CheckPC where
  | idle
  /-- `stopLitestreamForCheck` with its request. -/
  | stopping (r : Nat)
  /-- `ensureLitestreamForCheck`: `litestreamRunning`. -/
  | running
  | expected
  | firstSync
  | kill
  | killing (r : Nat)
  /-- `startLitestream`: `cmd.Start`. -/
  | start
  /-- The new process becomes `litestreamProc`. -/
  | publish (p : Nat)
  | monitor
  | lastSync
deriving DecidableEq

structure State where
  processes : Nat → Process := fun _ => {}
  started : Nat := 0
  current : Option Nat := none
  requests : Nat → Request := fun _ => {}
  made : Nat := 0
  check : CheckPC := .start

def State.setProcess (s : State) (p : Nat) (v : Process) : State :=
  { s with processes := Function.update s.processes p v }

def State.setRequest (s : State) (r : Nat) (v : Request) : State :=
  { s with requests := Function.update s.requests r v }

def State.capture (s : State) (sig : Signal) : State :=
  { s.setRequest s.made { process := s.current, sig := sig } with made := s.made + 1 }

/-! ## §2 — stop requests -/

inductive SignalAnswer where
  | sent
  /-- `os.ErrProcessDone`: `cmd.Wait` has taken the process away. -/
  | processDone
  | failed
deriving DecidableEq

/-- The request that a new owner of the stop takes over, if it has not signalled yet. -/
def State.supersede (s : State) (old : Option Nat) : State :=
  match old with
  | none => s
  | some q =>
    if (s.requests q).signalled = none then
      s.setRequest q { s.requests q with superseded := true }
    else s

/-- `beginStop` marks the process `p` as stopping on behalf of request `r`. -/
def State.takeOver (s : State) (r p : Nat) : State :=
  ((s.supersede (s.processes p).stop).setRequest r { s.requests r with pc := .signal }).setProcess p
    { s.processes p with
      expectedExit := true
      stop := some r
      stopRequested := (s.processes p).stopRequested || !(s.processes p).exited }

/-- The next operation of request `r` on the process `p` it has captured. -/
def requestStepOn (s : State) (r p : Nat) (answer : SignalAnswer) : Option State :=
  match (s.requests r).pc with
  | .check =>
    if (s.processes p).done then
      some (s.setRequest r { s.requests r with pc := .ended .exitedBeforeStop })
    else some (s.setRequest r { s.requests r with pc := .mark })
  | .mark => some (s.takeOver r p)
  | .signal =>
    if (s.processes p).stop ≠ some r then
      some (s.setRequest r { s.requests r with pc := .ended .superseded })
    else
      match answer with
      | .sent => some (s.setRequest r { s.requests r with pc := .wait, signalled := some p })
      | .processDone =>
        if (s.processes p).exited then
          some (s.setRequest r { s.requests r with pc := .waitGone })
        else none
      | .failed => some (s.setRequest r { s.requests r with pc := .ended .signalFailed })
  | .wait =>
    if (s.processes p).done then
      let exit := (s.processes p).exitSignal
      let result : StopResult :=
        if exit ≠ none ∧ exit ≠ some (s.requests r).sig then .exitNotAttributed else .ok
      some (s.setRequest r { s.requests r with pc := .ended result })
    else none
  | .waitGone =>
    if (s.processes p).done then
      some (s.setRequest r { s.requests r with pc := .ended .exitedBeforeStop })
    else none
  | .ended _ => none

def requestStep (s : State) (r : Nat) (answer : SignalAnswer) : Option State :=
  if r < s.made then
    match (s.requests r).process with
    | none =>
      if (s.requests r).pc = .check then
        some (s.setRequest r { s.requests r with pc := .ended .notRunning })
      else none
    | some p => requestStepOn s r p answer
  else none

/-! ## §3 — the check -/

/-- The process is running: it is there and `done` is open. -/
def State.litestreamRunning (s : State) : Bool :=
  match s.current with
  | none => false
  | some p => !(s.processes p).done

def State.litestreamExitExpected (s : State) : Bool :=
  match s.current with
  | none => false
  | some p => (s.processes p).expectedExit

/-- The results after which `ensureLitestreamForCheck` goes on to start a process. -/
def StopResult.replaceable : StopResult → Bool
  | .ok | .exitedBeforeStop | .notRunning | .exitNotAttributed => true
  | .superseded | .signalFailed => false

/-- The next operation of the check; `ok` is the answer of a wait for the socket or of `cmd.Start`,
or whether the context of a stop has expired. -/
def checkStep (s : State) (ok : Bool) : Option State :=
  match s.check with
  | .idle => none
  | .stopping r =>
    match (s.requests r).pc with
    | .ended _ => some { s with check := .idle }
    -- the request is marked before the context is looked at, and goes on without the check
    | .signal | .wait | .waitGone => if ok then none else some { s with check := .idle }
    | .check | .mark => none
  | .running => some { s with check := if s.litestreamRunning then .expected else .start }
  | .expected =>
    some { s with check := if s.litestreamExitExpected then .kill else .firstSync }
  | .firstSync => some { s with check := if ok then .idle else .kill }
  | .kill => some { s.capture .kill with check := .killing s.made }
  | .killing r =>
    match (s.requests r).pc with
    | .ended result => some { s with check := if result.replaceable then .start else .idle }
    | _ => none
  | .start =>
    if ok then
      some { s.setProcess s.started {} with started := s.started + 1, check := .publish s.started }
    else some { s with check := .idle }
  | .publish p =>
    some { s.setProcess p { s.processes p with waited := true } with
      current := some p, check := .monitor }
  | .monitor =>
    match s.current with
    | none => some { s with check := .lastSync }
    | some p =>
      some { s.setProcess p { s.processes p with monitor := .waiting } with check := .lastSync }
  | .lastSync => some { s with check := .idle }

/-! ## §4 — the machine -/

inductive Action where
  | shutdown
  | request (r : Nat) (answer : SignalAnswer)
  | stopForCheck
  | ensure
  | check (ok : Bool)
  | exit (p : Nat) (signal : Option Signal)
  | finish (p : Nat)
  /-- The monitor of a process finds `done` closed; `ctxErr` is whether the run is over already. -/
  | monitor (p : Nat) (ctxErr : Bool)

def step (s : State) : Action → Option State
  | .shutdown => some (s.capture .interrupt)
  | .request r answer => requestStep s r answer
  | .stopForCheck =>
    if s.check = .idle then some { s.capture .terminate with check := .stopping s.made } else none
  | .ensure => if s.check = .idle then some { s with check := .running } else none
  | .check ok => checkStep s ok
  | .exit p signal =>
    if p < s.started ∧ (s.processes p).exited = false then
      some (s.setProcess p { s.processes p with exited := true, exitSignal := signal })
    else none
  | .finish p =>
    if (s.processes p).exited ∧ (s.processes p).waited ∧ (s.processes p).done = false then
      some (s.setProcess p { s.processes p with done := true })
    else none
  | .monitor p ctxErr =>
    if (s.processes p).monitor = .waiting ∧ (s.processes p).done then
      some (s.setProcess p { s.processes p with
        monitor := if ctxErr || (s.processes p).expectedExit then .quiet else .cancelled })
    else none

def machine : Machine State Action where
  start s := s = {}
  step := step

end LitestreamSoak.Worker.LitestreamProcess
