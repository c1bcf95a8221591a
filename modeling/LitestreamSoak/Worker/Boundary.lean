import LitestreamSoak.Lib.Machine

/-!
# Worker — the verification boundary

A cycle pauses the load, captures a boundary (a txid and the logical content of the database at that
txid) and resumes the load. This module is the capture as a machine that runs beside the load's
writers and Litestream.

* **The load** has one writer for each pauser; a paused writer takes no step, so one paused inside a
  transaction keeps the write lock.
* **Litestream** writes bookkeeping of its own under the same lock, which the logical content does
  not show, and records positions: a txid with the content committed so far.
* **The verifier** is the caller's `pauseLoad` and `resumeLoad` around
  `captureVerificationBoundary`, one `Pause`, `Resume`, statement or request a step; each may fail,
  and a caller whose capture failed goes on to resume the load.

`loads` counts the load's commits and `Position.loads` those that a position covers; no step of the
verifier reads either.
-/

namespace LitestreamSoak.Worker.Boundary

open Lib

/-! ## §1 — the state -/

structure Position (Db : Type) where
  txid : Nat
  loads : Nat
  content : Db

def stateAt {Db : Type} (positions : List (Position Db)) (txid : Nat) : Option Db :=
  (positions.find? (·.txid == txid)).map Position.content

structure SyncResponse where
  txid : Nat
  replicatedTXID : Nat
deriving DecidableEq

structure VerificationBoundary (Db : Type) where
  logicalSnapshot : Db
  txid : Nat
deriving DecidableEq

inductive Holder where
  | load (i : Nat)
  | litestream
  | verifier
deriving DecidableEq

inductive Caller where
  | cycle
  | reservation (txid attempt : Nat)
deriving DecidableEq

/-- Where the verifier is; `txid` is the one requested, `i` the pauser whose turn it is. -/
inductive PC (Db : Type) where
  | idle
  | pausing (caller : Caller) (i : Nat)
  /-- `pauseLoad` failed at a pauser and resumes it and those before it -/
  | unwinding (caller : Caller) (i : Nat)
  | held
  | opening (txid : Nat)
  | acquiring (txid attempt : Nat)
  | resuming (txid attempt i : Nat)
  | waiting (txid attempt : Nat)
  | releasing (txid : Nat)
  | requesting (txid : Nat)
  | syncing (txid since : Nat)
  | reacquiring (txid : Nat) (synced : SyncResponse)
  | comparing (txid : Nat) (synced : SyncResponse)
  | reading (txid : Nat) (synced : SyncResponse)
  | returning (txid : Nat) (synced : SyncResponse) (boundary : VerificationBoundary Db)
  | failing
  | failed
  | leaving (i : Nat)
deriving DecidableEq

structure State (Db : Type) where
  db : Db
  loads : Nat
  positions : List (Position Db)
  lock : Option Holder
  paused : Nat → Bool
  pc : PC Db

structure Config where
  pausers : Nat
  reservationAttempts : Nat

/-! ## §2 — the load and Litestream -/

inductive LoadAction (Db : Type) where
  | begin
  | commit (db : Db)
  | rollback

def loadStep {Db : Type} (s : State Db) (i : Nat) : LoadAction Db → Option (State Db)
  | .begin => if s.lock = none then some { s with lock := some (.load i) } else none
  | .commit db =>
    if s.lock = some (.load i) then some { s with db, loads := s.loads + 1, lock := none } else none
  | .rollback => if s.lock = some (.load i) then some { s with lock := none } else none

inductive LitestreamAction where
  | begin
  | commit
  | record (txid : Nat)

def litestreamStep {Db : Type} (s : State Db) : LitestreamAction → Option (State Db)
  | .begin => if s.lock = none then some { s with lock := some .litestream } else none
  | .commit => if s.lock = some .litestream then some { s with lock := none } else none
  | .record txid =>
    if ∀ p ∈ s.positions, p.txid < txid then
      some { s with positions := ⟨txid, s.loads, s.db⟩ :: s.positions }
    else none

/-! ## §3 — the verifier -/

/-- How an attempt at the writer reservation ends. -/
inductive Acquire where
  | begun
  /-- `BEGIN IMMEDIATE` found the lock taken and is tried again -/
  | busy
  | deadline
  | canceled
  /-- another error, which may come after the statement took effect -/
  | other (locked took : Bool)

def reservationBlocked : Acquire → Bool
  | .deadline => true
  | .other locked _ => locked
  | _ => false

def Acquire.took : Acquire → Bool
  | .other _ took => took
  | _ => false

inductive VerifierAction where
  | pauseLoad
  | pause (ok : Bool)
  | resume
  | capture (txid : Nat)
  | open (ok : Bool)
  | acquire (result : Acquire) (ctxDone : Bool)
  | wait (ctxDone : Bool)
  | release (ok : Bool)
  | request
  | reply (synced : Option SyncResponse)
  | compare
  | read (ok : Bool)
  | finish
  | resumeLoad

def Caller.paused {Db : Type} : Caller → PC Db
  | .cycle => .held
  | .reservation txid attempt => .acquiring txid (attempt + 1)

def Caller.notPaused {Db : Type} : Caller → PC Db
  | .cycle => .idle
  | .reservation _ _ => .failing

def pausingFrom {Db : Type} (cfg : Config) (caller : Caller) (i : Nat) : PC Db :=
  if i < cfg.pausers then .pausing caller i else caller.paused

def setPaused {Db : Type} (s : State Db) (i : Nat) (paused : Bool) : State Db :=
  { s with paused := Function.update s.paused i paused }

def takeLock {Db : Type} (s : State Db) : State Db :=
  if s.lock = none then { s with lock := some .verifier } else s

def dropLock {Db : Type} (s : State Db) : State Db :=
  if s.lock = some .verifier then { s with lock := none } else s

def missed {Db : Type} (s : State Db) (result : Acquire) (next : PC Db) : State Db :=
  { (if result.took then takeLock s else s) with pc := next }

/-- One attempt of `acquireBoundaryReservation`: `again` is what follows a blocked attempt, if
anything does. -/
def acquireStep {Db : Type} (s : State Db) (result : Acquire) (next : PC Db)
    (again : Option (PC Db)) : Option (State Db) :=
  match result with
  | .begun => if s.lock = none then some { s with lock := some .verifier, pc := next } else none
  | .busy => some s
  | _ => some (missed s result (again.getD .failing))

/-- Whether `acquireBoundaryReservation` with `cyclePausers` goes on after a failed attempt. -/
def cycles (cfg : Config) (attempt : Nat) (result : Acquire) (ctxDone : Bool) : Bool :=
  cfg.pausers != 0 && attempt < cfg.reservationAttempts && !ctxDone && reservationBlocked result

def verifierStep {Db : Type} (cfg : Config) (s : State Db) :
    PC Db → VerifierAction → Option (State Db)
  | .idle, .pauseLoad => some { s with pc := pausingFrom cfg .cycle 0 }
  | .pausing caller i, .pause true =>
    some { setPaused s i true with pc := pausingFrom cfg caller (i + 1) }
  | .pausing caller i, .pause false => some { s with pc := .unwinding caller i }
  | .unwinding caller i, .resume =>
    some { setPaused s i false with
      pc := if i = 0 then caller.notPaused else .unwinding caller (i - 1) }
  | .held, .capture txid => some { s with pc := if txid = 0 then .failed else .opening txid }
  | .opening txid, .open ok => some { s with pc := if ok then .acquiring txid 1 else .failed }
  | .acquiring txid attempt, .acquire result ctxDone =>
    acquireStep s result (.releasing txid)
      (if cycles cfg attempt result ctxDone then some (.resuming txid attempt 0) else none)
  | .resuming txid attempt i, .resume =>
    some { setPaused s i false with
      pc := if i + 1 < cfg.pausers then .resuming txid attempt (i + 1) else .waiting txid attempt }
  | .waiting txid attempt, .wait ctxDone =>
    some { s with
      pc := if ctxDone then .failing else pausingFrom cfg (.reservation txid attempt) 0 }
  | .releasing txid, .release true => some { dropLock s with pc := .requesting txid }
  | .releasing _, .release false => some { s with pc := .failing }
  | .requesting txid, .request => some { s with pc := .syncing txid s.loads }
  | .syncing txid since, .reply (some synced) =>
    -- the answer names a position of all commits before the request
    if s.positions.any fun p => p.txid == synced.txid && decide (since ≤ p.loads) then
      some { s with pc := .reacquiring txid synced }
    else none
  | .syncing _ _, .reply none => some { s with pc := .failing }
  | .reacquiring txid synced, .acquire result _ => acquireStep s result
      (.comparing txid synced) none
  | .comparing txid synced, .compare =>
    some { s with
      pc :=
        if synced.txid < txid then .failing
        else if synced.replicatedTXID < synced.txid then .failing
        else .reading txid synced }
  | .reading txid synced, .read true =>
    some { s with pc := .returning txid synced ⟨s.db, synced.txid⟩ }
  | .reading _ _, .read false => some { s with pc := .failing }
  | .returning _ _ _, .finish => some { dropLock s with pc := .held }
  | .failing, .finish => some { dropLock s with pc := .failed }
  | .held, .resumeLoad => some { s with pc := if cfg.pausers = 0 then .idle else .leaving 0 }
  | .failed, .resumeLoad => some { s with pc := if cfg.pausers = 0 then .idle else .leaving 0 }
  | .leaving i, .resume =>
    some { setPaused s i false with pc := if i + 1 < cfg.pausers then .leaving (i + 1) else .idle }
  | _, _ => none

/-! ## §4 — the machine -/

inductive Action (Db : Type) where
  | load (i : Nat) (a : LoadAction Db)
  | litestream (a : LitestreamAction)
  | verifier (a : VerifierAction)

def step {Db : Type} (cfg : Config) (s : State Db) : Action Db → Option (State Db)
  | .load i a => if i < cfg.pausers ∧ s.paused i = false then loadStep s i a else none
  | .litestream a => litestreamStep s a
  | .verifier a => verifierStep cfg s s.pc a

def machine {Db : Type} (cfg : Config) (db : Db) : Machine (State Db) (Action Db) where
  start s := s = ⟨db, 0, [], none, fun _ => false, .idle⟩
  step := step cfg

end LitestreamSoak.Worker.Boundary
