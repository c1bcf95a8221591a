import LitestreamSoak.Lib.Machine

/-!
# Worker — the replay engine

`internal/replay/engine.go` inserts the rows of a data set into the database on a schedule, and
`superviseReplay` calls `Run` again when it ends. The verifier calls `Pause`, compares, and calls
`Resume`. Flags and channels are under one mutex: `Pause` makes a channel `ackCh` and waits for it,
and the engine closes it when it parks in `waitIfPaused`, or when `Run` ends.

A critical section is one step here, and so is each thing done outside: opening the database,
`CreateTables`, an insert attempt, a select, a read of `ctx.Err()`. `Engine.waitIfPaused` is called
at three places (`Gate`) and `EnginePC.gate`, `parked` and `checked` are its program points.

The schedule is not modelled: whether a row is due is an answer from outside (`Answer`), and so are
the results of the adapter and of the database. Metrics and logging are left out.
-/

namespace LitestreamSoak.Worker.ReplayEngine

open Lib

/-! ## §1 — the state -/

/-- A channel that is only ever closed, with the number it was made under. -/
inductive Chan where
  | resume (n : Nat)
  | ack (n : Nat)
  | pause (n : Nat)
deriving DecidableEq

inductive Gate where
  /-- At the head of `replayOnce`. -/
  | pass
  /-- After `iter.Next`. -/
  | row
  /-- In the loop of `waitUntil`. -/
  | schedule
deriving DecidableEq

inductive EnginePC where
  | idle
  /-- Before `sql.Open`. -/
  | opening
  /-- In `CreateTables`. -/
  | createTables
  /-- Before the critical section of `waitIfPaused`. -/
  | gate (g : Gate)
  /-- In the select of `waitIfPaused`. -/
  | parked (g : Gate) (resume : Chan)
  /-- Before `return ctx.Err()` of `waitIfPaused`. -/
  | checked (g : Gate)
  /-- Before `adapter.Rows`. -/
  | rows
  /-- Before `iter.Next`. -/
  | next
  /-- Before the critical section of `waitUntil`. -/
  | decide
  /-- In the select of `waitUntil`. -/
  | sleeping (pause : Chan)
  /-- Before `return ctx.Err()` of `waitUntil`. -/
  | due
  /-- In `iter.Insert`. -/
  | inserting
  /-- In the select of `insertWithRetry`. -/
  | retrying
  /-- The row could not be inserted; before the test of `ctx.Err()`. -/
  | failing
  /-- `replayOnce` has returned nil. -/
  | passEnd
  /-- Before the deferred critical section of `Run`. -/
  | finishing
deriving DecidableEq

def EnginePC.writing : EnginePC → Bool
  | .createTables | .inserting => true
  | _ => false

inductive PauseCall where
  | waiting (ack : Option Chan)
  | returned
  | failed
deriving DecidableEq

def PauseCall.isWaiting : PauseCall → Bool
  | .waiting _ => true
  | _ => false

structure State where
  running : Bool := false
  paused : Bool := false
  resumeCh : Option Chan := none
  ackCh : Option Chan := none
  ackClosed : Bool := false
  pauseCh : Chan := .pause 0
  channels : Nat := 1
  closed : List Chan := []
  /-- The context of the `Run` in progress is done. -/
  cancelled : Bool := false
  engine : EnginePC := .idle
  calls : List PauseCall := []
  /-- A `Pause` has returned nil, and `Resume` was not called since. -/
  quiet : Bool := false
deriving DecidableEq

/-! ## §2 — Pause and Resume -/

def closeAckLocked (s : State) : State :=
  if s.ackClosed then s else { s with closed := s.ackCh.toList ++ s.closed, ackClosed := true }

def beginPause (s : State) : State :=
  if s.paused then s
  else { s with
    paused := true
    closed := s.pauseCh :: s.closed
    resumeCh := some (.resume s.channels)
    ackCh := some (.ack s.channels)
    ackClosed := false
    channels := s.channels + 1 }

def pause (s : State) : State :=
  let s := beginPause s
  let s := if s.running then s else closeAckLocked s
  { s with calls := s.calls ++ [.waiting s.ackCh] }

def pauseReturn (s : State) (k : Nat) : Option State :=
  match s.calls[k]? with
  | some (.waiting (some ack)) =>
    if ack ∈ s.closed then some { s with calls := s.calls.set k .returned, quiet := true }
    else none
  | _ => none

def pauseCancel (s : State) (k : Nat) : Option State :=
  match s.calls[k]? with
  | some (.waiting _) => some { s with calls := s.calls.set k .failed }
  | _ => none

def resume (s : State) : State :=
  if s.paused then { s with
    paused := false
    pauseCh := .pause s.channels
    channels := s.channels + 1
    closed := s.resumeCh.toList ++ s.closed
    resumeCh := none
    ackCh := none
    ackClosed := false
    quiet := false }
  else { s with quiet := false }

/-! ## §3 — Run -/

inductive Answer where
  /-- A call succeeds, `iter.Next` is true, the row is due, or a timer fires. -/
  | ok
  | failed
  /-- The insert found the database locked and may be tried again. -/
  | busy
  /-- The insert returned `ErrRowSkipped`. -/
  | skipped
  /-- `iter.Next` is false without an error, or the row is not due. -/
  | none
  | ctxDone
  | chan
deriving DecidableEq

def State.goto (s : State) (pc : EnginePC) : State := { s with engine := pc }

def Gate.after : Gate → EnginePC
  | .pass => .rows
  | .row => .gate .schedule
  | .schedule => .decide

def begin (s : State) (cancelled : Bool) : Option State :=
  match s.engine with
  | .idle => some { s with running := true, cancelled := cancelled, engine := .opening }
  | _ => none

def finish (s : State) : State :=
  let s := { s with running := false, engine := .idle }
  if s.paused then closeAckLocked s else s

def engineStep (loop : Bool) (s : State) (a : Answer) : Option State :=
  match s.engine with
  | .idle => none
  | .opening => some (s.goto (if a = .ok then .createTables else .finishing))
  | .createTables => some (s.goto (if a = .ok then .gate .pass else .finishing))
  | .gate g =>
    if s.paused then
      let s := closeAckLocked s
      some (s.goto (.parked g (s.resumeCh.getD (.resume 0))))
    else some (s.goto (.checked g))
  | .parked g ch =>
    if a = .ctxDone then if s.cancelled then some (s.goto (.checked g)) else none
    else if ch ∈ s.closed then some (s.goto (.checked g)) else none
  | .checked g => some (s.goto (if s.cancelled then .finishing else g.after))
  | .rows => some (s.goto (if a = .ok then .next else .finishing))
  | .next =>
    match a with
    | .ok => some (s.goto (.gate .row))
    | .none => some (s.goto .passEnd)
    | _ => some (s.goto .finishing)
  | .decide =>
    if s.paused then some (s.goto (.gate .schedule))
    else some (s.goto (if a = .ok then .due else .sleeping s.pauseCh))
  | .sleeping ch =>
    match a with
    | .ctxDone => if s.cancelled then some (s.goto .finishing) else none
    | .chan => if ch ∈ s.closed then some (s.goto (.gate .schedule)) else none
    | _ => some (s.goto (.gate .schedule))
  | .due => some (s.goto (if s.cancelled then .finishing else .inserting))
  | .inserting =>
    match a with
    | .ok | .skipped => some (s.goto .next)
    | .busy => some (s.goto .retrying)
    | _ => some (s.goto .failing)
  | .retrying =>
    if a = .ctxDone then if s.cancelled then some (s.goto .failing) else none
    else some (s.goto .inserting)
  | .failing => some (s.goto (if s.cancelled then .finishing else .next))
  | .passEnd => some (s.goto (if loop then .gate .pass else .finishing))
  | .finishing => some (finish s)

/-! ## §4 — the machine -/

inductive Action where
  | begin (cancelled : Bool)
  | engine (answer : Answer)
  | cancel
  | pause
  | pauseReturn (call : Nat)
  | pauseCancel (call : Nat)
  | resume
deriving DecidableEq

def step (loop : Bool) (s : State) : Action → Option State
  | .begin cancelled => begin s cancelled
  | .engine a => engineStep loop s a
  | .cancel => some { s with cancelled := true }
  | .pause => some (pause s)
  | .pauseReturn k => pauseReturn s k
  | .pauseCancel k => pauseCancel s k
  | .resume => some (resume s)

/-- A new engine, its supervisor and the callers of `Pause` and `Resume`. -/
def machine (loop : Bool) : Machine State Action := ⟨fun s => s = {}, step loop⟩

end LitestreamSoak.Worker.ReplayEngine
