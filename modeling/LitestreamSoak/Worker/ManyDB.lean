import LitestreamSoak.Lib.Machine

/-!
# Worker — the many-database load and its verifier

The load writes rows to many databases; the verifier restores a batch of them per cycle and takes
what it verified off the pending set. The databases that were written and not verified since are
saved on the data volume, so that a restart does not lose them. This module is the protocol at the
granularity of its atomic steps: each section under `changedMu`, each atomic access to `stateDirty`,
each file operation, each hold of `stateMu`, each change of `paused` and `active`.

* **The volume** survives a crash. `possible` is the list of contents of the state file that a
  crash may leave now: a save that fails adds its content, a removal adds the missing file, and only
  a save that succeeds or a directory sync settles it.
* **Writers** mark a database written and have that saved before they write the row.
* **The verifier** pauses the load, takes the pending set, and for each target validates and
  acknowledges; a validation may resume the load for a moment and pause it again.
* **Starting** seeds the databases and rebuilds the pending set from the state file.

`commits` and `covered` count, per database, the row writes committed and those that an acknowledged
verification covers. They, `Cycle.inFlight`, `Cycle.begunSince`, `Cycle.passed` and `unvalidated`
record history; no step reads them.
-/

namespace LitestreamSoak.Worker.ManyDB

open Lib Function

variable {Path : Type} [DecidableEq Path]

/-! ## §1 — the pending set -/

structure Change where
  generation : Nat
  written : Bool
  durable : Bool
deriving DecidableEq

structure Tracker (Path : Type) where
  changed : Path → Option Change
  changeGeneration : Nat
  stateDirty : Bool

namespace Tracker

def set (t : Tracker Path) (p : Path) (c : Option Change) : Tracker Path :=
  { t with changed := update t.changed p c }

def isWritten (t : Tracker Path) (p : Path) : Bool := (t.changed p).any Change.written

def isDurable (t : Tracker Path) (p : Path) : Bool :=
  (t.changed p).any fun c => c.written && c.durable

/-- `mark`: a new generation; entering the written set is not durable yet. -/
def mark (t : Tracker Path) (p : Path) (written : Bool) : Tracker Path :=
  let generation := t.changeGeneration + 1
  let change := (t.changed p).getD { generation := 0, written := false, durable := false }
  let entered := written && !change.written
  { t.set p (some
      { generation
        written := change.written || written
        durable := change.durable && !entered }) with changeGeneration := generation }

/-- The section of `markDurableWrite` under `changedMu`: `none` where the entry is not durable. -/
def bumpDurable (t : Tracker Path) (p : Path) : Option (Tracker Path) :=
  match t.changed p with
  | none => none
  | some c =>
    if c.written && c.durable then
      let generation := t.changeGeneration + 1
      some { t.set p (some { c with generation }) with changeGeneration := generation }
    else none

def setWritten (t : Tracker Path) (p : Path) : Tracker Path :=
  t.set p ((t.changed p).map fun c => { c with written := true })

def markSaved (t : Tracker Path) (saved : List Path) : Tracker Path :=
  { t with
    changed := fun p => (t.changed p).map fun c =>
      if p ∈ saved ∧ c.written = true then { c with durable := true } else c }

end Tracker

/-! ## §2 — saving the written set -/

/-- The content of the state file; `none` is a missing or unreadable file. -/
abbrev Content (Path : Type) := Option (List Path)

inductive SaveStage (Path : Type) where
  | stat
  | snapshot
  | write (written : List Path)
  | markDurable (written : List Path)
  | clearDirty
  | remove
  | sync
  | setDirty (removalFailed : Bool)
deriving DecidableEq

/-- How a save ends: without an error, without one because the directory is missing, or with one,
when the save and the removal of the stale file both failed. -/
inductive Saved where
  | done
  | noDir
  | refused
deriving DecidableEq

/-- One step of a save; `ok` says whether a file operation succeeded. -/
def saveStep (paths : List Path) (t : Tracker Path) (possible : List (Content Path)) (ok : Bool) :
    SaveStage Path → Tracker Path × List (Content Path) × (SaveStage Path ⊕ Saved)
  | .stat => (t, possible, if ok then .inl .snapshot else .inr .noDir)
  | .snapshot => (t, possible, .inl (.write (paths.filter t.isWritten)))
  | .write written =>
    if ok then (t, [some written], .inl (.markDurable written))
    else (t, some written :: possible, .inl .remove)
  | .markDurable written => (t.markSaved written, possible, .inl .clearDirty)
  | .clearDirty => ({ t with stateDirty := false }, possible, .inr .done)
  | .remove =>
    -- a removal that reports an error may still have taken effect
    (t, none :: possible, .inl (if ok then .sync else .setDirty true))
  | .sync =>
    if ok then (t, [none], .inl (.setDirty false)) else (t, possible, .inl (.setDirty true))
  | .setDirty removalFailed =>
    ({ t with stateDirty := true }, possible, .inr (if removalFailed then .refused else .done))

/-! ## §3 — writers and the verifier -/

/-- A writer between `beginWrite` and `endWrite`; `locked` is the second look under `stateMu`. -/
inductive Writer (Path : Type) where
  | idle
  | ready (p : Path) (locked : Bool)
  | sawClean (p : Path) (locked : Bool)
  | waiting (p : Path)
  | marking (p : Path)
  | saving (p : Path) (stage : SaveStage Path)
  | unlocking (p : Path) (saved : Saved)
  | writing (p : Path) (dir : Bool)
  | finished (p : Path)

namespace Writer

def busy : Writer Path → Bool
  | .idle => false
  | _ => true

def locked : Writer Path → Bool
  | .ready _ l => l
  | .sawClean _ l => l
  | .marking _ => true
  | .saving _ _ => true
  | .unlocking _ _ => true
  | _ => false

/-- The database of a write that has begun and not yet taken its generation. -/
def before : Writer Path → Option Path
  | .ready p _ => some p
  | .sawClean p _ => some p
  | .waiting p => some p
  | .marking p => some p
  | _ => none

/-- The database of a write that has taken its generation and not yet ended. -/
def after : Writer Path → Option Path
  | .saving p _ => some p
  | .unlocking p _ => some p
  | .writing p _ => some p
  | .finished p => some p
  | _ => none

/-- The database of a write that may go on to commit without another look. -/
def committing : Writer Path → Option Path
  | .unlocking p .done => some p
  | .writing p true => some p
  | _ => none

def inFlight (w : Writer Path) : Option Path := w.before.or w.after

end Writer

structure Cycle (Path : Type) where
  generations : Path → Option Nat
  targets : List Path
  /-- row writes committed when the snapshot was taken -/
  commitsAt : Path → Nat
  /-- databases with a write in flight when the snapshot was taken -/
  inFlight : List Path
  begunSince : List Path
  passed : List Path

inductive Verifier (Path : Type) where
  | idle
  | pausing
  | paused
  | failing
  | loop
  | attempting (p : Path)
  | cycling (p : Path)
  | repausing (p : Path)
  | validated (p : Path)
  | acknowledged (persist : Bool)
  | locking
  | saving (stage : SaveStage Path)
  | unlocking
  | returning (passed : Bool)
deriving DecidableEq

namespace Verifier

def locked : Verifier Path → Bool
  | .saving _ => true
  | .unlocking => true
  | _ => false

def quiet : Verifier Path → Bool
  | .paused | .loop | .attempting _ | .validated _ | .acknowledged _ | .locking | .saving _
  | .unlocking | .returning _ => true
  | _ => false

def inCycle : Verifier Path → Bool
  | .loop | .attempting _ | .cycling _ | .repausing _ | .validated _ | .acknowledged _ | .locking
  | .saving _ | .unlocking => true
  | _ => false

end Verifier

inductive Holder where
  | writer (i : Nat)
  | verifier
deriving DecidableEq

structure Memory (Path : Type) where
  tracker : Tracker Path
  stateMu : Option Holder
  paused : Bool
  active : Nat
  stopped : Bool
  writers : List (Writer Path)
  verifier : Verifier Path
  cycle : Cycle Path
  /-- databases with a write begun and no validation passed that covers it -/
  unvalidated : List Path

/-! ## §4 — the volume and the process -/

structure Volume (Path : Type) where
  onVolume : Path → Bool
  possible : List (Content Path)
  commits : Path → Nat
  covered : Path → Nat

/-- A committed row write that no acknowledged verification covers. -/
def Volume.Uncovered (v : Volume Path) (p : Path) : Prop := v.covered p < v.commits p

instance (v : Volume Path) (p : Path) : Decidable (v.Uncovered p) :=
  inferInstanceAs (Decidable (v.covered p < v.commits p))

inductive Process (Path : Type) where
  | down
  | populating (todo : List Path) (fresh : Bool)
  | populated
  | up (m : Memory Path)

structure State (Path : Type) where
  volume : Volume Path
  process : Process Path

/-- `newManyDBLoad` before the written set is restored: every database, in order, as backlog. -/
def seeded (paths : List Path) : Tracker Path :=
  paths.foldl (fun t p => t.mark p false)
    { changed := fun _ => none, changeGeneration := 0, stateDirty := false }

def restoreWrittenState (paths : List Path) (onVolume : Path → Bool) (content : Content Path) :
    Tracker Path :=
  match content with
  | some written => (written.filter (· ∈ paths)).foldl Tracker.setWritten (seeded paths)
  | none =>
    if paths.any onVolume then paths.foldl Tracker.setWritten (seeded paths) else seeded paths

def emptyCycle : Cycle Path :=
  { generations := fun _ => none, targets := [], commitsAt := fun _ => 0, inFlight := []
    begunSince := [], passed := [] }

def newMemory (writers : Nat) (t : Tracker Path) : Memory Path :=
  { tracker := t, stateMu := none, paused := false, active := 0, stopped := false
    writers := List.replicate writers .idle, verifier := .idle, cycle := emptyCycle
    unvalidated := [] }

/-! ## §5 — the steps of a writer -/

namespace Memory

def withWriter (m : Memory Path) (i : Nat) (w : Writer Path) : Memory Path :=
  { m with writers := m.writers.set i w }

/-- `beginWrite` returned true for a write to `p`. -/
def begin (m : Memory Path) (i : Nat) (p : Path) : Memory Path :=
  { m with
    active := m.active + 1
    writers := m.writers.set i (.ready p false)
    cycle := { m.cycle with begunSince := p :: m.cycle.begunSince }
    unvalidated := p :: m.unvalidated }

end Memory

/-- Where a writer goes that may not take the fast path: to `stateMu`, or, if it holds it, to mark
and save. -/
def slowPath (p : Path) (locked : Bool) : Writer Path := if locked then .marking p else .waiting p

/-- One step of writer `i`; `ok` answers a file operation or says that the row write commits. -/
def writerStep (paths : List Path) (v : Volume Path) (m : Memory Path) (i : Nat) (ok : Bool) :
    Writer Path → Option (Volume Path × Memory Path)
  | .idle => none
  | .ready p locked =>
    some (v, m.withWriter i (if m.tracker.stateDirty then slowPath p locked
      else .sawClean p locked))
  | .sawClean p locked =>
    match m.tracker.bumpDurable p with
    | some t =>
      some (v, { m with tracker := t }.withWriter i
        (if locked then .unlocking p .done else .writing p true))
    | none => some (v, m.withWriter i (slowPath p locked))
  | .waiting p =>
    if m.stateMu = none then
      some (v, { m with stateMu := some (.writer i) }.withWriter i (.ready p true))
    else none
  | .marking p => some (v, { m with tracker := m.tracker.mark p true }.withWriter i
      (.saving p .stat))
  | .saving p stage =>
    match saveStep paths m.tracker v.possible ok stage with
    | (t, possible, next) =>
      some ({ v with possible }, { m with tracker := t }.withWriter i
        (match next with
        | .inl stage => .saving p stage
        | .inr saved => .unlocking p saved))
  | .unlocking p saved =>
    some (v, { m with stateMu := none }.withWriter i
      (match saved with
      | .done => .writing p true
      | .noDir => .writing p false
      | .refused => .finished p))
  | .writing p dir =>
    -- without the directory the row write fails
    some (if ok && dir then { v with commits := update v.commits p (v.commits p + 1) } else v,
      m.withWriter i (.finished p))
  | .finished _ => some (v, { m with active := m.active - 1 }.withWriter i .idle)

/-! ## §6 — the steps of the verifier -/

/-- What the verifier does next where the source has a choice or waits for an answer. -/
inductive VerifierMove (Path : Type) where
  | proceed (ok : Bool)
  | snapshot (targets : List Path)
  | cycle
  | fail

/-- The section of `acknowledgeManyDBChange` under `changedMu`, and whether a written entry left. -/
def acknowledge (t : Tracker Path) (p : Path) (generation : Nat) : Tracker Path × Bool :=
  match t.changed p with
  | some c => if c.generation = generation then (t.set p none, c.written) else (t, false)
  | none => (t, false)

/-- The acknowledged entry left the pending set: its row writes up to the snapshot are covered. -/
def cover (v : Volume Path) (m : Memory Path) (t : Tracker Path) (p : Path) : Volume Path :=
  if (m.tracker.changed p).isSome && (t.changed p).isNone then
    { v with covered := update v.covered p (m.cycle.commitsAt p) }
  else v

namespace Memory

def withVerifier (m : Memory Path) (pc : Verifier Path) : Memory Path := { m with verifier := pc }

/-- `pendingManyDBChanges` and the choice of targets. -/
def takeSnapshot (m : Memory Path) (v : Volume Path) (targets : List Path) : Memory Path :=
  { m with
    verifier := if targets = [] then .failing else .loop
    cycle :=
      { generations := fun p => (m.tracker.changed p).map Change.generation
        targets
        commitsAt := v.commits
        inFlight := m.writers.filterMap Writer.inFlight
        begunSince := []
        passed := [] } }

/-- The validation of `p` passed. It covers `p` if no write to `p` was in flight at the snapshot and
none has begun since. -/
def validate (m : Memory Path) (p : Path) : Memory Path :=
  { m with
    verifier := .validated p
    cycle := { m.cycle with passed := p :: m.cycle.passed }
    unvalidated :=
      if p ∈ m.cycle.inFlight ∨ p ∈ m.cycle.begunSince then m.unvalidated
      else m.unvalidated.filter (· ≠ p) }

end Memory

/-- One step of the verifier. Any list of targets may be taken at the snapshot, so what is proved
holds for every order and limit. -/
def verifierStep (paths : List Path) (v : Volume Path) (m : Memory Path)
    (move : VerifierMove Path) :
    Option (Volume Path × Memory Path) :=
  match m.verifier, move with
  | .idle, .proceed _ => some (v, { m with paused := true, verifier := .pausing })
  | .pausing, .proceed _ => if m.active = 0 then some (v, m.withVerifier .paused) else none
  | .pausing, .fail => some (v, { m with paused := false, verifier := .idle })
  | .paused, .snapshot targets => some (v, m.takeSnapshot v targets)
  | .loop, .proceed _ =>
    match m.cycle.targets with
    | [] => some (v, m.withVerifier (.returning (paths.countP m.tracker.isWritten == 0)))
    | p :: rest =>
      some (v, { m with verifier := .attempting p, cycle := { m.cycle with targets := rest } })
  | .attempting p, .proceed _ => some (v, m.validate p)
  | .attempting p, .cycle => some (v, { m with paused := false, verifier := .cycling p })
  | .cycling p, .proceed _ => some (v, { m with paused := true, verifier := .repausing p })
  | .repausing p, .proceed _ =>
    if m.active = 0 then some (v, m.withVerifier (.attempting p)) else none
  | .repausing _, .fail => some (v, { m with paused := false, verifier := .failing })
  | .validated p, .proceed _ =>
    match m.cycle.generations p with
    | none => some (v, m.withVerifier .loop)
    | some generation =>
      match acknowledge m.tracker p generation with
      | (t, persist) =>
        some (cover v m t p, { m with tracker := t, verifier := .acknowledged persist })
  | .acknowledged persist, .proceed _ =>
    some (v, m.withVerifier (if persist || m.tracker.stateDirty then .locking else .loop))
  | .locking, .proceed _ =>
    if m.stateMu = none then
      some (v, { m with stateMu := some .verifier, verifier := .saving .stat })
    else none
  | .saving stage, .proceed ok =>
    match saveStep paths m.tracker v.possible ok stage with
    | (t, possible, next) =>
      some ({ v with possible }, { m with
        tracker := t
        verifier := (match next with
          | .inl stage => .saving stage
          | .inr _ => .unlocking) })
  | .unlocking, .proceed _ => some (v, { m with stateMu := none, verifier := .loop })
  | .returning _, .proceed _ => some (v, { m with paused := false, verifier := .idle })
  | .failing, .proceed _ => some (v, { m with paused := false, verifier := .idle })
  -- cancelled waits, failed cleanups, checkpoints, syncs and validations
  | .paused, .fail | .attempting _, .fail | .cycling _, .fail | .validated _, .fail =>
    some (v, m.withVerifier .failing)
  | _, _ => none

/-! ## §7 — the machine -/

inductive Action (Path : Type) where
  | start
  /-- `populateManyDBs` at the next database; a failed seed may leave the file behind -/
  | populate (ok created : Bool)
  | recordEmpty (ok : Bool)
  | build (content : Content Path)
  | begin (i : Nat) (p : Path)
  | writer (i : Nat) (ok : Bool)
  | verifier (move : VerifierMove Path)
  | stop
  /-- the process dies; with a content, the machine too, and the state file is settled to it -/
  | crash (settled : Option (Content Path))

def populateStep (v : Volume Path) (ok created : Bool) (p : Path) (todo : List Path)
    (fresh : Bool) :
    State Path :=
  if v.onVolume p then ⟨v, if ok then .populating todo false else .down⟩
  else
    ⟨{ v with onVolume := update v.onVolume p (ok || created) },
      if ok then .populating todo fresh else .down⟩

def recordEmptyStep (v : Volume Path) (ok fresh : Bool) : State Path :=
  if !fresh then ⟨v, .populated⟩
  else if ok then ⟨{ v with possible := [some []] }, .populated⟩
  else ⟨{ v with possible := some [] :: v.possible }, .down⟩

def crashStep (v : Volume Path) : Option (Content Path) → Option (State Path)
  | none => some ⟨v, .down⟩
  | some c => if c ∈ v.possible then some ⟨{ v with possible := [c] }, .down⟩ else none

def beginStep (paths : List Path) (m : Memory Path) (i : Nat) (p : Path) : Option (Memory Path) :=
  match m.writers[i]? with
  | some .idle =>
    if m.paused = false ∧ m.stopped = false ∧ p ∈ paths then some (m.begin i p) else none
  | _ => none

def step (paths : List Path) (writers : Nat) (s : State Path) (a : Action Path) :
    Option (State Path) :=
  match a, s.process with
  | .start, .down => some ⟨s.volume, .populating paths true⟩
  | .populate ok created, .populating (p :: todo) fresh =>
    some (populateStep s.volume ok created p todo fresh)
  | .recordEmpty ok, .populating [] fresh => some (recordEmptyStep s.volume ok fresh)
  | .build content, .populated =>
    -- a state file that is there may still fail to be read
    if content = none ∨ content ∈ s.volume.possible then
      some ⟨s.volume,
        .up (newMemory writers (restoreWrittenState paths s.volume.onVolume content))⟩
    else none
  | .begin i p, .up m => (beginStep paths m i p).map fun m' => ⟨s.volume, .up m'⟩
  | .writer i ok, .up m =>
    (m.writers[i]?.bind (writerStep paths s.volume m i ok)).map fun r => ⟨r.1, .up r.2⟩
  | .verifier move, .up m =>
    (verifierStep paths s.volume m move).map fun r => ⟨r.1, .up r.2⟩
  | .stop, .up m => some ⟨s.volume, .up { m with stopped := true }⟩
  | .crash settled, _ => crashStep s.volume settled
  | _, _ => none

def freshVolume : Volume Path :=
  { onVolume := fun _ => false, possible := [none], commits := fun _ => 0, covered := fun _ => 0 }

/-- The load over `paths` with a number of writers, started on a fresh volume. -/
def machine (paths : List Path) (writers : Nat) : Machine (State Path) (Action Path) where
  start s := s = ⟨freshVolume, .down⟩
  step := step paths writers

end LitestreamSoak.Worker.ManyDB
