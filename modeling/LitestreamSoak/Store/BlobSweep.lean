import LitestreamSoak.Lib.Machine
import LitestreamSoak.Store.Blobs

/-!
# Store — the profile blob sweep and its concurrent writers

`PruneProfileBlobs` deletes the blobs no stored text refers to while writers and readers go on.
This module is that protocol at the granularity of its atomic steps: each SQL statement, each
critical section of the cache's `mu`, each hold of the `sweep` lock.

* **Writers** compact the items of a text one by one: look the digest up in the cache, on a miss
  `INSERT ... RETURNING id` and store the answer in the cache, then pin the id. All of it happens
  under a shared hold of the sweep lock, up to and including the transaction that writes the
  text; only the first compaction of `RecordUniqueEventAt` takes no hold (and its text is only
  compared, never written).
* **Readers** hold the lock shared, load bodies and put them in the cache.
* **The sweep** starts pinning under the exclusive lock, reads the largest id, scans the four
  reference columns one statement at a time, lists the candidates, and deletes them in batches
  under the exclusive lock, skipping pinned ids and clearing the cache once, before the first.
* **Statements without a hold** copy references between tables (the journal triggers) or remove
  rows.

A stored text is its reference arrays (`Snapshot`). Each reference carries the item that was
compacted, which is what the text stands for and not part of it.
-/

namespace LitestreamSoak.Store.BlobSweep

open Lib

/-! ## §1 — stored texts -/

/-- One entry of a reference array: the id in the text, and the item that was compacted. -/
structure Ref where
  id : Nat
  item : Item
deriving DecidableEq

/-- A stored text: its references, and the rest of it. -/
structure Snapshot where
  rest : Nat
  refs : List Ref
deriving DecidableEq

/-- Equality of texts; the compacted items are not part of a text. -/
def Snapshot.sameText (a b : Snapshot) : Bool :=
  a.rest = b.rest && a.refs.map Ref.id = b.refs.map Ref.id

structure Worker where
  id : String
  runtime : Snapshot

structure Verification where
  id : Nat
  runtime : Snapshot

structure Event where
  id : Nat
  workerID : String
  createdAt : Int
  details : Snapshot

structure JournalRow where
  journalID : Nat
  id : Nat
  createdAt : Int
  details : Snapshot

structure Tables where
  workers : List Worker
  evidenceVerifications : List Verification
  evidenceEvents : List JournalRow
  events : List Event

/-- `profileBlobReferenceColumns`, in scan order. -/
inductive Column where
  | workers
  | evidenceVerifications
  | evidenceEvents
  | events
deriving DecidableEq

def profileBlobReferenceColumns : List Column :=
  [.workers, .evidenceVerifications, .evidenceEvents, .events]

namespace Tables

def snapshots (t : Tables) : Column → List Snapshot
  | .workers => t.workers.map Worker.runtime
  | .evidenceVerifications => t.evidenceVerifications.map Verification.runtime
  | .evidenceEvents => t.evidenceEvents.map JournalRow.details
  | .events => t.events.map Event.details

def refs (t : Tables) (c : Column) : List Ref := (t.snapshots c).flatMap Snapshot.refs

/-- The triggers on `events`: `INSERT OR IGNORE` under `UNIQUE(id,created_at,details)`. -/
def journalEvent (t : Tables) (event : Event) : Tables :=
  if t.evidenceEvents.any fun row => row.id = event.id && row.createdAt = event.createdAt &&
      row.details.sameText event.details then t
  else
    let journalID := (t.evidenceEvents.map JournalRow.journalID).foldr max 0 + 1
    { t with evidenceEvents := t.evidenceEvents ++
        [⟨journalID, event.id, event.createdAt, event.details⟩] }

end Tables

/-- What a transaction under a shared hold writes: a worker's runtime, a new event, an event's new
details, or the compacted text of a journal row. -/
inductive Write where
  | worker (id : String) (runtime : Snapshot)
  | newEvent (id : Nat) (workerID : String) (createdAt : Int) (details : Snapshot)
  | eventDetails (id : Nat) (createdAt : Int) (details : Snapshot)
  | verification (id : Nat) (runtime : Snapshot)
  | journal (journalID : Nat) (details : Snapshot)

def Write.snapshot : Write → Snapshot
  | .worker _ s | .newEvent _ _ _ s | .eventDetails _ _ s | .verification _ s | .journal _ s => s

def Tables.write (t : Tables) : Write → Tables
  | .worker id s =>
    { t with workers := t.workers.map fun w => if w.id = id then { w with runtime := s } else w }
  | .newEvent id workerID createdAt s =>
    let event : Event := ⟨id, workerID, createdAt, s⟩
    Tables.journalEvent { t with events := t.events ++ [event] } event
  | .eventDetails id createdAt s =>
    match t.events.find? fun e => e.id = id with
    | none => t
    | some e =>
      let event : Event := { e with createdAt := createdAt, details := s }
      Tables.journalEvent
        { t with events := t.events.map fun e => if e.id = id then event else e } event
  | .verification id s =>
    { t with evidenceVerifications := t.evidenceVerifications.map fun v =>
        if v.id = id then { v with runtime := s } else v }
  | .journal journalID s =>
    { t with evidenceEvents := t.evidenceEvents.map fun row =>
        if row.journalID = journalID then { row with details := s } else row }

/-- A statement that needs no hold: `RecordVerification` with its trigger; an update of an event
that leaves its details, with its trigger; `CreateWorker`; and the deletes. -/
inductive Statement where
  | recordVerification (id : Nat) (workerID : String)
  | touchEvent (id : Nat)
  | createWorker (id : String)
  | deleteWorker (id : String)
  | pruneEvents (ids : List Nat)
  | pruneEvidence (verifications events : List Nat)

def Tables.execute (t : Tables) : Statement → Tables
  | .recordVerification id workerID =>
    let runtime := ((t.workers.find? fun w => w.id = workerID).map Worker.runtime).getD ⟨0, []⟩
    { t with evidenceVerifications := t.evidenceVerifications ++ [⟨id, runtime⟩] }
  | .touchEvent id =>
    match t.events.find? fun e => e.id = id with
    | some event => t.journalEvent event
    | none => t
  | .createWorker id =>
    { t with workers := t.workers.filter (fun w => w.id ≠ id) ++ [⟨id, ⟨0, []⟩⟩] }
  | .deleteWorker id =>
    { t with workers := t.workers.filter (fun w => w.id ≠ id),
             events := t.events.filter fun e => e.workerID ≠ id }
  | .pruneEvents ids => { t with events := t.events.filter fun e => e.id ∉ ids }
  | .pruneEvidence verifications events =>
    { t with
      evidenceVerifications := t.evidenceVerifications.filter fun v => v.id ∉ verifications
      evidenceEvents := t.evidenceEvents.filter fun row => row.journalID ∉ events }

/-! ## §2 — processes -/

inductive Stage where
  | next
  | hit (id : Nat)
  | miss
  | inserted (id : Nat)
  | cached (id : Nat)
deriving DecidableEq

/-- A goroutine that uses the blob cache. A writer has the items still to store, the references it
has collected, and its place in the current item; a reader has the references still to load, and
a body it has read and not yet cached. -/
inductive Proc where
  | idle
  | writer (locked : Bool) (todo : List Item) (done : List Ref) (stage : Stage)
  | reader (todo : List Ref) (loaded : Option Ref)
deriving DecidableEq

def Proc.holds : Proc → Bool
  | .idle => false
  | .writer locked _ _ _ => locked
  | .reader _ _ => true

/-- Where a process can end, with or without an error: not between an `INSERT` and the pin of the id
it returned, nor between a hit and its pin. -/
def Proc.canLeave : Proc → Bool
  | .writer _ _ _ .next | .writer _ _ _ .miss | .reader _ _ => true
  | _ => false

inductive Sweeper where
  | idle
  | started
  | scanning (maxID : Nat) (todo : List Column) (marked : List Nat)
  | deleting (candidates : List Nat) (cleared : Bool)
deriving DecidableEq

def profileBlobDeleteBatch : Nat := 500

structure State {Digest : Type} (sha256 : Item → Digest) where
  tables : Tables
  blobs : BlobTable sha256
  ids : Digest → Option Nat
  bodies : Nat → Option Item
  pinning : Bool
  pinned : List Nat
  procs : List Proc
  sweeper : Sweeper

/-- The atomic steps. `evict` says whether the cache was full. -/
inductive Action where
  | beginWriter (p : Nat) (locked : Bool) (items : List Item)
  | lookup (p : Nat)
  | insert (p : Nat)
  | cache (p : Nat) (evict : Bool)
  | pin (p : Nat)
  | commit (p : Nat) (writes : List Write)
  | beginReader (p : Nat) (c : Column) (row : Nat)
  | load (p : Nat)
  | cacheBody (p : Nat) (evict : Bool)
  | leave (p : Nat)
  | execute (statement : Statement)
  | startPinning
  | readMaxID
  | scan
  | listCandidates
  | deleteBatch (committed : Bool)
  | finishSweep

namespace State

variable {Digest : Type} {sha256 : Item → Digest}

/-- No goroutine holds the lock, so the sweep can take it exclusively. -/
def unlocked (s : State sha256) : Bool := s.procs.all fun proc => !proc.holds

def setProc (s : State sha256) (p : Nat) (proc : Proc) : State sha256 :=
  { s with procs := s.procs.set p proc }

def clearCache (s : State sha256) : State sha256 :=
  { s with ids := fun _ => none, bodies := fun _ => none }

def pinID (s : State sha256) (id : Nat) : State sha256 :=
  if s.pinning then { s with pinned := id :: s.pinned } else s

/-- The body entry of `profileBlobCache.store`: an id that has one keeps it. -/
def addBody (bodies : Nat → Option Item) (id : Nat) (body : Item) : Nat → Option Item :=
  if bodies id = none then Function.update bodies id (some body) else bodies

variable [DecidableEq Digest]

/-- The digest entry of `profileBlobCache.store`; readers have no digest. -/
def addID (ids : Digest → Option Nat) (digest : Option Digest) (id : Nat) : Digest → Option Nat :=
  match digest with
  | some digest => Function.update ids digest (some id)
  | none => ids

/-- `profileBlobCache.store`. A cache that is full is emptied first. -/
def cacheStore (s : State sha256) (digest : Option Digest) (id : Nat) (body : Item)
    (evict : Bool) : State sha256 :=
  let s := if evict then s.clearCache else s
  { s with ids := addID s.ids digest id, bodies := addBody s.bodies id body }

end State

section

variable {Digest : Type} [DecidableEq Digest] (sha256 : Item → Digest)

def step (s : State sha256) : Action → Option (State sha256)
  | .beginWriter p locked items =>
    match s.procs[p]? with
    | some .idle => some (s.setProc p (.writer locked items [] .next))
    | _ => none
  | .lookup p =>
    match s.procs[p]? with
    | some (.writer locked (item :: todo) done .next) =>
      match s.ids (sha256 item) with
      | some id => some (s.setProc p (.writer locked (item :: todo) done (.hit id)))
      | none => some (s.setProc p (.writer locked (item :: todo) done .miss))
    | _ => none
  | .insert p =>
    match s.procs[p]? with
    | some (.writer locked (item :: todo) done .miss) =>
      let inserted := s.blobs.insert item
      some (State.setProc { s with blobs := inserted.1 } p
        (.writer locked (item :: todo) done (.inserted inserted.2)))
    | _ => none
  | .cache p evict =>
    match s.procs[p]? with
    | some (.writer locked (item :: todo) done (.inserted id)) =>
      some ((s.cacheStore (some (sha256 item)) id item evict).setProc p
        (.writer locked (item :: todo) done (.cached id)))
    | _ => none
  | .pin p =>
    match s.procs[p]? with
    | some (.writer locked (item :: todo) done (.hit id)) =>
      some ((s.pinID id).setProc p (.writer locked todo (done ++ [⟨id, item⟩]) .next))
    | some (.writer locked (item :: todo) done (.cached id)) =>
      some ((s.pinID id).setProc p (.writer locked todo (done ++ [⟨id, item⟩]) .next))
    | _ => none
  | .commit p writes =>
    match s.procs[p]? with
    | some (.writer true [] done .next) =>
      -- the texts of the transaction refer to what was stored under the hold
      if writes.all fun w => w.snapshot.refs.all fun ref => ref ∈ done then
        some (State.setProc { s with tables := writes.foldl Tables.write s.tables } p .idle)
      else none
    | _ => none
  | .beginReader p c row =>
    match s.procs[p]?, (s.tables.snapshots c)[row]? with
    | some .idle, some snapshot => some (s.setProc p (.reader snapshot.refs none))
    | _, _ => none
  | .load p =>
    match s.procs[p]? with
    | some (.reader (ref :: todo) none) =>
      match s.bodies ref.id with
      | some _ => some (s.setProc p (.reader todo none))
      | none =>
        match s.blobs.body ref.id with
        | some body => some (s.setProc p (.reader todo (some ⟨ref.id, body⟩)))
        | none => some (s.setProc p .idle)
    | _ => none
  | .cacheBody p evict =>
    match s.procs[p]? with
    | some (.reader todo (some ref)) =>
      some ((s.cacheStore none ref.id ref.item evict).setProc p (.reader todo none))
    | _ => none
  | .leave p =>
    match s.procs[p]? with
    | some proc => if proc.canLeave then some (s.setProc p .idle) else none
    | none => none
  | .execute statement => some { s with tables := s.tables.execute statement }
  | .startPinning =>
    match s.sweeper with
    | .idle =>
      if s.unlocked then some { s with pinning := true, pinned := [], sweeper := .started }
        else none
    | _ => none
  | .readMaxID =>
    match s.sweeper with
    | .started =>
      some { s with sweeper := .scanning s.blobs.maxKey profileBlobReferenceColumns [] }
    | _ => none
  | .scan =>
    match s.sweeper with
    | .scanning maxID (c :: todo) marked =>
      some { s with
        sweeper := .scanning maxID todo (marked ++ (s.tables.refs c).map Ref.id) }
    | _ => none
  | .listCandidates =>
    match s.sweeper with
    | .scanning maxID [] marked =>
      let candidates := (s.blobs.rows.map Blob.id).filter fun id => id ≤ maxID && id ∉ marked
      some { s with sweeper := .deleting candidates false }
    | _ => none
  | .deleteBatch committed =>
    match s.sweeper with
    | .deleting candidates cleared =>
      if s.unlocked && !candidates.isEmpty then
        let s := if cleared then s else s.clearCache
        let batch := candidates.take profileBlobDeleteBatch
        if committed then
          some { s with
            blobs := s.blobs.deleteExcept fun id => id ∉ batch || id ∈ s.pinned
            sweeper := .deleting (candidates.drop profileBlobDeleteBatch) true }
        else some { s with sweeper := .deleting [] true }
      else none
    | _ => none
  | .finishSweep =>
    match s.sweeper with
    | .idle => none
    | _ =>
      if s.unlocked then some { s with pinning := false, pinned := [], sweeper := .idle } else none

end

/-! ## §3 — what is promised, and when -/

namespace State

variable {Digest : Type} {sha256 : Item → Digest}

/-- The blob the reference names exists and is the item that was compacted. -/
def Valid (s : State sha256) (ref : Ref) : Prop := s.blobs.body ref.id = some ref.item

instance (s : State sha256) (ref : Ref) : Decidable (s.Valid ref) :=
  inferInstanceAs (Decidable (s.blobs.body ref.id = some ref.item))

/-- **Safety of the sweep.** No dangling reference in any of the four columns, and a cache that
agrees with the table. -/
structure Sound (s : State sha256) : Prop where
  refs : ∀ c, ∀ ref ∈ s.tables.refs c, s.Valid ref
  ids : ∀ digest id, s.ids digest = some id → ∃ row ∈ s.blobs.rows, row.id = id ∧
    row.digest = digest
  bodies : ∀ id item, s.bodies id = some item → s.blobs.body id = some item

/-- A process has started: nothing is cached, nothing runs, and the database is in order. -/
structure Started (s : State sha256) : Prop where
  refs : ∀ c, ∀ ref ∈ s.tables.refs c, s.Valid ref
  ids : ∀ digest, s.ids digest = none
  bodies : ∀ id, s.bodies id = none
  pinning : s.pinning = false
  procs : ∀ proc ∈ s.procs, proc = .idle
  sweeper : s.sweeper = .idle

end State

/-- A writer without a hold has an id from an `INSERT` that it has not pinned yet. -/
def Proc.exposed : Proc → Bool
  | .writer false _ _ (.inserted _) => true
  | .writer false _ _ (.cached _) => true
  | _ => false

/-- The ids marked so far when the sweep is between its scan of `evidence_events` and its scan of
`events`. -/
def Sweeper.betweenScans : Sweeper → Option (List Nat)
  | .scanning _ [.events] marked => some marked
  | _ => none

/-- **The condition on steps.** No batch is deleted while a writer without a hold has an id it has
not pinned; and between the scans of `evidence_events` and `events` no update of an event copies
a reference into the journal that is neither marked nor pinned. -/
def Careful {Digest : Type} {sha256 : Item → Digest} (s : State sha256) : Action → Prop
  | .deleteBatch _ => ∀ proc ∈ s.procs, proc.exposed = false
  | .execute (.touchEvent id) =>
    ∀ marked ∈ s.sweeper.betweenScans,
      ∀ ref ∈ (s.tables.execute (.touchEvent id)).refs .evidenceEvents,
        ref ∈ s.tables.refs .evidenceEvents ∨ ref.id ∈ marked ∨ ref.id ∈ s.pinned
  | _ => True

instance {Digest : Type} {sha256 : Item → Digest} (s : State sha256) (a : Action) :
    Decidable (Careful s a) :=
  match a with
  | .deleteBatch _ => inferInstanceAs (Decidable (∀ proc ∈ s.procs, proc.exposed = false))
  | .execute (.touchEvent id) =>
    inferInstanceAs (Decidable (∀ marked ∈ s.sweeper.betweenScans,
      ∀ ref ∈ (s.tables.execute (.touchEvent id)).refs .evidenceEvents,
        ref ∈ s.tables.refs .evidenceEvents ∨ ref.id ∈ marked ∨ ref.id ∈ s.pinned))
  | .execute (.recordVerification _ _) | .execute (.createWorker _) | .execute (.deleteWorker _)
  | .execute (.pruneEvents _) | .execute (.pruneEvidence _ _) | .beginWriter _ _ _ | .lookup _
  | .insert _ | .cache _ _ | .pin _ | .commit _ _ | .beginReader _ _ _ | .load _
  | .cacheBody _ _ | .leave _ | .startPinning | .readMaxID | .scan | .listCandidates
  | .finishSweep => inferInstanceAs (Decidable True)

def sweep {Digest : Type} [DecidableEq Digest] (sha256 : Item → Digest) :
    Machine (State sha256) Action where
  start := State.Started
  step := step sha256

end LitestreamSoak.Store.BlobSweep
