import LitestreamSoak.Lib.Machine
import LitestreamSoak.Lib.Text

/-!
# Worker — the upgrade lane

A lane runs the base build for a warm-up, switches, and runs the candidate on what the base wrote.
Phase, purge record and the newest verified txid of the base share one file on the volume, which the
lane and its runs read, change and write back. This module is the lane as a machine: each read of
the file, each write, each purge and each run of a build is a step, and the process may die before
any.

* **The file.** A write that fails leaves the old or the new content (`Write`).
* **A run** may record a txid or a first snapshot any number of times before it returns, each a read
  followed by a write.
* **`candidateRan`** records history; no step reads it.

Times other than the first start are left out, and so are the texts of errors.
-/

namespace LitestreamSoak.Worker.UpgradeLane

open Lib

/-! ## §1 — the purge -/

inductive PurgeError where
  | outside
  | list
  | delete
  | relist
  | incomplete
deriving DecidableEq

structure L9Purge (Key : Type) where
  listed : Nat := 0
  deleted : List Key := []
  remainingL9 : Nat := 0
  error : Option PurgeError := none
  attempt : Nat := 0
  succeeded : Bool := false
deriving DecidableEq

def purgeSucceeded {Key : Type} : Option (L9Purge Key) → Bool
  | none => false
  | some p => p.succeeded && p.error.isNone && p.remainingL9 == 0

/-- What the replica says during a purge. `within` and `isL9` are `replicaKeyWithinPrefix` and the
level of a key. -/
structure Replica (Key : Type) where
  prefixEmpty : Bool
  within : Key → Bool
  isL9 : Key → Bool
  listing : Option (List Key)
  removes : Key → Bool
  relisting : Option (List Key)

section Purge

variable {Key : Type} [LinearOrder Key]

def deleteTargets (removes : Key → Bool) (record : L9Purge Key) : List Key → L9Purge Key
  | [] => record
  | key :: keys =>
    if removes key then deleteTargets removes
      { record with deleted := record.deleted ++ [key] } keys
    else { record with error := some .delete }

/-- `purgeReplicaL9`: the record, whose `error` is what the function returns. -/
def purgeReplicaL9 (replica : Replica Key) : L9Purge Key :=
  if replica.prefixEmpty then { error := some .outside }
  else
    match replica.listing with
    | none => { error := some .list }
    | some keys =>
      let record : L9Purge Key := { listed := keys.length }
      if keys.any fun key => !replica.within key then { record with error := some .outside }
      else
        let record := deleteTargets replica.removes record
          ((keys.filter replica.isL9).insertionSort (· ≤ ·))
        if record.error.isSome then record
        else
          match replica.relisting with
          | none => { record with error := some .relist }
          | some remaining =>
            let remainingL9 := remaining.countP replica.isL9
            { record with
              remainingL9
              error := if remainingL9 > 0 then some .incomplete else none }

def attemptRecord (replica : Replica Key) (before : Option (L9Purge Key)) (attempt : Nat) :
    L9Purge Key :=
  let purge := purgeReplicaL9 replica
  { purge with
    attempt := before.elim attempt fun p => p.attempt + 1
    succeeded := purge.error.isNone }

end Purge

/-! ## §2 — the file and the configuration -/

inductive Phase where
  | pre
  | post
deriving DecidableEq

/-- `upgradeLaneState` with a phase; a file that is missing has none. -/
structure LaneState (Key : Type) where
  phase : Phase
  startedAt : Nat
  baseSHA : Text
  candidateSHA : Text
  preUpgradeTXID : Nat := 0
  l9Purge : Option (L9Purge Key) := none
  firstCandidateL9 : Bool := false
deriving DecidableEq

structure Config where
  baseSHA : Text
  candidateSHA : Text
  deleteL9AtSwitch : Bool

inductive Write where
  | ok
  | failedOld
  | failedNew
deriving DecidableEq

def Write.file {α : Type} (w : Write) (old : Option α) (new : α) : Option α :=
  match w with
  | .failedOld => old
  | _ => some new

/-! ## §3 — the lane -/

/-- A run of a build, and the file as it read it where it is about to write it back. -/
inductive Run (Key : Type) where
  | between
  | recordTXID (read : LaneState Key) (txid : Nat)
  | recordFirstL9 (read : LaneState Key)
deriving DecidableEq

/-- Where `runUpgradeLane` is; `state` is its copy of the file. -/
inductive Lane (Key : Type) where
  | idle
  | initializing (state : LaneState Key)
  | loaded (state : LaneState Key)
  | base (run : Run Key)
  | warmupEnded
  | switching (state : LaneState Key)
  | switched (state : LaneState Key)
  | purging (state : LaneState Key) (attempt : Nat)
  | recordingPurge (state : LaneState Key) (attempt : Nat)
  | starting (state : LaneState Key)
  | candidate (run : Run Key)
deriving DecidableEq

structure State (Key : Type) where
  file : Option (LaneState Key)
  lane : Lane Key
  candidateRan : Bool
deriving DecidableEq

def replicaL9PurgeAttempts : Nat := 3

inductive Action (Key : Type) where
  | start (now : Nat)
  | write (result : Write)
  | check
  /-- a run reads the file to record a txid, or a first snapshot -/
  | readTXID (txid : Nat)
  | readFirstL9 (objects : Nat)
  | endWarmup
  | reread
  | purge (replica : Replica Key)
  | run
  /-- the process dies, the context is done, or the run or a read of the file fails -/
  | crash

/-- `recordUpgradePreTXID` after its read: whether it writes. -/
def recordsTXID {Key : Type} (read : LaneState Key) (txid : Nat) : Bool :=
  read.phase == .pre && read.preUpgradeTXID < txid

/-- `recordFirstCandidateL9` after its read: whether it writes. -/
def recordsFirstL9 {Key : Type} (read : LaneState Key) (objects : Nat) : Bool :=
  !read.firstCandidateL9 && read.l9Purge.isSome && objects != 0

def Run.content {Key : Type} : Run Key → Option (LaneState Key)
  | .between => none
  | .recordTXID read txid => some { read with preUpgradeTXID := txid }
  | .recordFirstL9 read => some { read with firstCandidateL9 := true }

/-- A run reads the file; the base's reports a txid only while it verifies as the base. -/
def Run.read {Key : Type} (file : Option (LaneState Key)) (records : LaneState Key → Bool)
    (next : LaneState Key → Run Key) : Run Key → Option (Run Key)
  | .between => file.map fun read => if records read then next read else .between
  | _ => none

def firstState {Key : Type} (cfg : Config) (now : Nat) : LaneState Key :=
  { phase := .pre, startedAt := now, baseSHA := cfg.baseSHA, candidateSHA := cfg.candidateSHA }

section Step

variable {Key : Type} [LinearOrder Key]

def writeStep (s : State Key) (w : Write) : Option (State Key) :=
  match s.lane with
  | .initializing state =>
    some { s with
      file := w.file s.file state
      lane := if w = .ok then .loaded state else .idle }
  | .base run =>
    -- a failed record is only logged
    run.content.map fun new => { s with file := w.file s.file new, lane := .base .between }
  | .candidate run =>
    run.content.map fun new => { s with file := w.file s.file new, lane := .candidate .between }
  | .switching state =>
    some { s with
      file := w.file s.file state
      lane := if w = .ok then .switched state else .idle }
  | .recordingPurge state attempt =>
    some { s with
      file := w.file s.file state
      lane :=
        if w ≠ .ok then .idle
        else if (state.l9Purge.elim false L9Purge.succeeded) then .starting state
        else if attempt < replicaL9PurgeAttempts then .purging state (attempt + 1)
        else .idle }
  | _ => none

def checkStep (cfg : Config) (s : State Key) : Option (State Key) :=
  match s.lane with
  | .loaded state =>
    some { s with
      lane :=
        if state.baseSHA ≠ cfg.baseSHA ∨ state.candidateSHA ≠ cfg.candidateSHA then .idle
        else if state.phase = .pre then .base .between
        else .switched state }
  | .switched state =>
    some { s with
      lane :=
        if cfg.deleteL9AtSwitch && !purgeSucceeded state.l9Purge then .purging state 1
        else .starting state }
  | _ => none

def step (cfg : Config) (s : State Key) : Action Key → Option (State Key)
  | .start now =>
    match s.lane, s.file with
    | .idle, none => some { s with lane := .initializing (firstState cfg now) }
    | .idle, some state => some { s with lane := .loaded state }
    | _, _ => none
  | .write w => writeStep s w
  | .check => checkStep cfg s
  | .readTXID txid =>
    match s.lane with
    | .base run =>
      (run.read s.file (recordsTXID · txid) (.recordTXID · txid)).map fun r =>
        { s with lane := .base r }
    | _ => none
  | .readFirstL9 objects =>
    match s.lane with
    | .base run =>
      (run.read s.file (recordsFirstL9 · objects) .recordFirstL9).map fun r =>
        { s with lane := .base r }
    | .candidate run =>
      (run.read s.file (recordsFirstL9 · objects) .recordFirstL9).map fun r =>
        { s with lane := .candidate r }
    | _ => none
  | .endWarmup =>
    match s.lane with
    | .base .between => some { s with lane := .warmupEnded }
    | _ => none
  | .reread =>
    match s.lane, s.file with
    | .warmupEnded, some state => some { s with lane := .switching { state with phase := .post } }
    -- a missing file reads as the zero state
    | .warmupEnded, none => some { s with lane := .switching ⟨.post, 0, [], [], 0, none, false⟩ }
    | _, _ => none
  | .purge replica =>
    match s.lane with
    | .purging state attempt =>
      let record := attemptRecord replica state.l9Purge attempt
      some { s with lane := .recordingPurge { state with l9Purge := some record } attempt }
    | _ => none
  | .run =>
    match s.lane with
    | .starting _ => some { s with lane := .candidate .between, candidateRan := true }
    | _ => none
  | .crash => some { s with lane := .idle }

def machine (cfg : Config) : Machine (State Key) (Action Key) where
  start s := s = ⟨none, .idle, false⟩
  step := step cfg

end Step

end LitestreamSoak.Worker.UpgradeLane
