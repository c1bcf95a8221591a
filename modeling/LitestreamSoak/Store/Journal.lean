import LitestreamSoak.Lib.Machine
import LitestreamSoak.Store.Compaction

/-!
# Store — the evidence journal and its background compaction

The tables of `internal/model` that hold profile snapshots, the store's operations on them, and
the journal triggers of `ensureEvidenceJournal`: an insert into `verifications` copies the
worker's `last_runtime_json` as it stands into `evidence_verifications`, and an insert into or an
update of `events` copies the event's `details` into `evidence_events`. Every writer compacts
what it writes, so what the triggers copy is in reference form.

Columns no modelled function reads are left out, and so are the `verifications` rows themselves:
only the id they give the journal row matters.
-/

namespace LitestreamSoak.Store

open Lib List

/-! ## §1 — the tables -/

/-- `eventOccurrenceKey`: a timestamp, the first eight bytes of the payload's SHA-256, and the
restore-output tag. -/
structure OccurrenceKey where
  createdAt : Int
  digest : Nat
  restoreOutput : Bool
deriving DecidableEq, Repr

/-- `sameEventOccurrence`: the tag does not count. -/
def sameEventOccurrence (a b : OccurrenceKey) : Bool :=
  a.createdAt = b.createdAt && a.digest = b.digest

structure EventRow where
  id : Nat
  workerID : String
  eventType : String
  message : String
  details : Doc
  createdAt : Int
  occurrences : Nat
  occurrenceKeys : List OccurrenceKey

structure EvidenceVerification where
  id : Nat
  workerID : String
  runtime : Doc

structure EvidenceEvent where
  journalID : Nat
  id : Nat
  workerID : String
  eventType : String
  message : String
  details : Doc
  createdAt : Int

/-- The part of the database the snapshot code works on. `workers` maps a worker id to its
`last_runtime_json`; the two sequences are those of the AUTOINCREMENT keys of `verifications`
and `events`. -/
structure DB {Digest : Type} (sha256 : Item → Digest) where
  workers : Finmap (fun _ : String => Doc)
  verificationSeq : Nat
  evidenceVerifications : Table EvidenceVerification.id
  eventSeq : Nat
  events : Table EventRow.id
  evidenceEvents : Table EvidenceEvent.journalID
  blobs : BlobTable sha256
  verificationsCursor : Nat
  eventsCursor : Nat

/-- `evidence_verifications` has no constraint besides its key. -/
def evidenceVerificationsTarget : SnapshotCompactionTarget EvidenceVerification.id where
  column := EvidenceVerification.runtime
  setColumn row d := { row with runtime := d }
  conflicts _ _ := false
  key_setColumn _ _ := rfl
  setColumn_column _ := rfl
  column_setColumn _ _ := rfl

def sameJournalEntry (a b : EvidenceEvent) : Bool :=
  a.id = b.id && a.createdAt = b.createdAt && a.details = b.details

def evidenceEventsTarget : SnapshotCompactionTarget EvidenceEvent.journalID where
  column := EvidenceEvent.details
  setColumn row d := { row with details := d }
  conflicts := sameJournalEntry
  key_setColumn _ _ := rfl
  setColumn_column _ := rfl
  column_setColumn _ _ := rfl

/-! ## §2 — the triggers and the writers -/

def EventRow.journalEntry (event : EventRow) (journalID : Nat) : EvidenceEvent :=
  ⟨journalID, event.id, event.workerID, event.eventType, event.message, event.details,
    event.createdAt⟩

/-- The triggers `journal_event` and `journal_event_update`: `INSERT OR IGNORE` of the copy. -/
def journalEvent (event : EventRow) (journal : Table EvidenceEvent.journalID) :
    Table EvidenceEvent.journalID :=
  if journal.rows.any fun row => sameJournalEntry row (event.journalEntry 0) then journal
  else journal.append event.journalEntry fun _ => rfl

namespace DB

variable {Digest : Type} {sha256 : Item → Digest}

/-- `CreateWorker`: a new row, or the reset of an existing one, has no runtime. -/
def createWorker (db : DB sha256) (id : String) : DB sha256 :=
  { db with workers := db.workers.insert id (.text "") }

/-- `upsertReportedWorker`: a new row has no runtime, an existing one keeps its own. -/
def upsertReportedWorker (db : DB sha256) (id : String) : DB sha256 :=
  if id ∈ db.workers then db else db.createWorker id

/-- An insert into `verifications`, as far as its trigger goes: the journal row with the runtime. -/
def recordVerification (db : DB sha256) (workerID : String) : Option (DB sha256) :=
  let id := db.verificationSeq + 1
  let runtime := (db.workers.lookup workerID).getD (.text "")
  (db.evidenceVerifications.insert? ⟨id, workerID, runtime⟩).map fun journal =>
    { db with verificationSeq := id, evidenceVerifications := journal }

def insertEvent (db : DB sha256) (workerID eventType message : String) (details : Doc)
    (createdAt : Int) (keys : List OccurrenceKey) : Option (DB sha256) :=
  let row : EventRow :=
    ⟨db.eventSeq + 1, workerID, eventType, message, details, createdAt, 1, keys⟩
  (db.events.insert? row).map fun events =>
    { db with
      eventSeq := row.id, events := events, evidenceEvents := journalEvent row db.evidenceEvents }

def updateEvent (db : DB sha256) (row : EventRow) : DB sha256 :=
  { db with
    events := db.events.update (fun old => if old.id = row.id then row else old) fun old => by
      split
      · next h => exact h.symm
      · rfl
    evidenceEvents := journalEvent row db.evidenceEvents }

def deleteWorker (db : DB sha256) (id : String) : DB sha256 :=
  { db with
    workers := db.workers.erase id
    events := db.events.filter fun row => row.workerID ≠ id }

def pruneEvents (db : DB sha256) (ids : List Nat) : DB sha256 :=
  { db with events := db.events.filter fun row => row.id ∉ ids }

def pruneEvidence (db : DB sha256) (verifications events : List Nat) : DB sha256 :=
  { db with
    evidenceVerifications := db.evidenceVerifications.filter fun row => row.id ∉ verifications
    evidenceEvents := db.evidenceEvents.filter fun row => row.journalID ∉ events }

/-- The texts in the four columns of `profileBlobReferenceColumns`. -/
def docs (db : DB sha256) : Multiset Doc :=
  db.workers.entries.map (fun entry => entry.2) +
    ((db.evidenceVerifications.rows.map EvidenceVerification.runtime ++
      db.evidenceEvents.rows.map EvidenceEvent.details ++
      db.events.rows.map EventRow.details : List Doc) : Multiset Doc)

/-- `PruneProfileBlobs` run on its own, as the maintenance loop does, stopped after it has
deleted `n` of the unreferenced rows. -/
def pruneProfileBlobs (db : DB sha256) (n : Nat) : DB sha256 :=
  let candidates := db.blobs.rows.filter fun row =>
    ∀ d ∈ db.docs, (row.id : Int) ∉ referencedIDs d
  let deleted := (candidates.take n).map Blob.id
  { db with blobs := db.blobs.deleteExcept fun id => id ∉ deleted }

variable [DecidableEq Digest]

/-- Store the blobs of a text. The text to write is `(compactProfileSnapshot db.blobs raw).2`. -/
def compacting (db : DB sha256) (raw : Doc) : DB sha256 :=
  { db with blobs := (compactProfileSnapshot db.blobs raw).1 }

def updateWorkerRuntimeSnapshot (db : DB sha256) (id : String) (payload : Doc) : DB sha256 :=
  let compact := compactProfileSnapshot db.blobs payload
  if id ∈ db.workers then
    { db.compacting payload with workers := db.workers.insert id compact.2 }
  else db.compacting payload

/-- `RecordEvent`, `RecordEventContext` and `RecordEventAt`. -/
def recordEventAt (db : DB sha256) (workerID eventType message : String) (details : Doc)
    (createdAt : Int) : Option (DB sha256) :=
  (db.compacting details).insertEvent workerID eventType message
    (compactProfileSnapshot db.blobs details).2 createdAt []

/-- `RecordUniqueEventAt`: nothing is recorded when the event is there, in either form. -/
def recordUniqueEventAt (db : DB sha256) (workerID eventType message : String) (details : Doc)
    (createdAt : Int) : Option (DB sha256) :=
  let compact := (compactProfileSnapshot db.blobs details).2
  if db.events.rows.any fun row =>
      row.workerID = workerID && row.eventType = eventType && row.message = message &&
      (row.details = details || row.details = compact) && row.createdAt = createdAt then
    some (db.compacting details)
  else (db.compacting details).recordEventAt workerID eventType message details createdAt

section

variable (sum8 : Doc → Nat) (restoreOutputDiskFullPath : Doc → Bool)

def eventOccurrenceKey (createdAt : Int) (details : Doc) : OccurrenceKey :=
  ⟨createdAt, sum8 details, restoreOutputDiskFullPath details⟩

/-- The occurrences a row already counts. A row from before occurrence tracking counts as its own
latest occurrence. -/
def seenOccurrences (row : EventRow) : List OccurrenceKey :=
  if row.occurrenceKeys = [] then
    [eventOccurrenceKey sum8 restoreOutputDiskFullPath row.createdAt row.details]
  else row.occurrenceKeys

/-- The row `RecordWindowedEventAt` merges into: `ORDER BY created_at DESC LIMIT 1` within the
window. SQL leaves the choice between equal timestamps open, so this says whether `existing` is
a possible answer. -/
def isWindowMatch (db : DB sha256) (workerID eventType message : String) (createdAt window : Int)
    (existing : Option Nat) : Bool :=
  let inWindow := db.events.rows.filter fun row =>
    row.workerID = workerID && row.eventType = eventType && row.message = message &&
    createdAt - window ≤ row.createdAt && row.createdAt ≤ createdAt + window
  match existing with
  | none => inWindow.isEmpty
  | some id => inWindow.any fun row => row.id = id &&
      inWindow.all fun other => other.createdAt ≤ row.createdAt

/-- `RecordWindowedEventAt`, given which row its query found. -/
def recordWindowedEventAt (db : DB sha256) (workerID eventType message : String) (details : Doc)
    (createdAt window : Int) (existing : Option Nat) : Option (DB sha256) :=
  if window ≤ 0 then db.recordEventAt workerID eventType message details createdAt
  else if !db.isWindowMatch workerID eventType message createdAt window existing then none
  else
    let key := eventOccurrenceKey sum8 restoreOutputDiskFullPath createdAt details
    let compact := (compactProfileSnapshot db.blobs details).2
    let db' := db.compacting details
    match existing.bind db.events.find? with
    | none => db'.insertEvent workerID eventType message compact createdAt [key]
    | some row =>
      let seen := seenOccurrences sum8 restoreOutputDiskFullPath row
      let compactKey := eventOccurrenceKey sum8 restoreOutputDiskFullPath createdAt compact
      if seen.any (sameEventOccurrence · key) || seen.any (sameEventOccurrence · compactKey) then
        some db'
      else if createdAt < row.createdAt then
        some (db'.updateEvent
          { row with occurrences := row.occurrences + 1, occurrenceKeys := seen ++ [key] })
      else
        some (db'.updateEvent
          { row with
            details := compact, createdAt := createdAt, occurrences := row.occurrences + 1,
            occurrenceKeys := seen ++ [key] })

end

/-! ## §3 — the maintenance pass -/

/-- The workers whose runtime the pass rewrites, as its query selects them. -/
def workersWithArrays (db : DB sha256) : Finset String :=
  db.workers.keys.filter fun id =>
    ((db.workers.lookup id).map hasProfileSnapshotArrays).getD false

end DB

section

variable {Digest : Type} [DecidableEq Digest] {sha256 : Item → Digest}

/-- The loop of `compactWorkerRuntimeSnapshots` over the rows its query read. The update is
guarded by the text that was read. -/
def compactWorkerRuntimeSnapshots :
    List (String × Doc) → List BatchOutcome → Finmap (fun _ : String => Doc) × BlobTable sha256 →
      (Finmap (fun _ : String => Doc) × BlobTable sha256) × Option (List BatchOutcome)
  | [], outcomes, s => (s, some outcomes)
  | _ :: _, [], s => (s, none)
  | (id, raw) :: rows, outcome :: outcomes, (workers, blobs) =>
    let compact := compactProfileSnapshot blobs raw
    match outcome with
    | .blobError stored => ((workers, (blobs.storeAll stored).1), none)
    | .commit =>
      if compact.2 ≠ raw ∧ workers.lookup id = some raw then
        compactWorkerRuntimeSnapshots rows outcomes (workers.insert id compact.2, compact.1)
      else compactWorkerRuntimeSnapshots rows outcomes (workers, compact.1)
    | .txError =>
      -- without a changed text there is no statement that could fail
      if compact.2 ≠ raw then ((workers, compact.1), none)
      else compactWorkerRuntimeSnapshots rows outcomes (workers, compact.1)

namespace DB

def verificationsState (db : DB sha256) : TargetState sha256 EvidenceVerification.id :=
  ⟨db.evidenceVerifications, db.blobs, db.verificationsCursor⟩

def eventsState (db : DB sha256) : TargetState sha256 EvidenceEvent.journalID :=
  ⟨db.evidenceEvents, db.blobs, db.eventsCursor⟩

def withWorkersState (db : DB sha256)
    (s : Finmap (fun _ : String => Doc) × BlobTable sha256) : DB sha256 :=
  { db with workers := s.1, blobs := s.2 }

def withVerificationsState (db : DB sha256) (s : TargetState sha256 EvidenceVerification.id) :
    DB sha256 :=
  { db with evidenceVerifications := s.table, blobs := s.blobs, verificationsCursor := s.cursor }

def withEventsState (db : DB sha256) (s : TargetState sha256 EvidenceEvent.journalID) :
    DB sha256 :=
  { db with evidenceEvents := s.table, blobs := s.blobs, eventsCursor := s.cursor }

def readWorkers (db : DB sha256) (scan : List String) : List (String × Doc) :=
  scan.filterMap fun id => (db.workers.lookup id).map fun raw => (id, raw)

/-- `CompactProfileSnapshots`, for a script of outcomes; `scan` is the order in which its query
returns the workers. The flag says whether it returned without an error. -/
def compactProfileSnapshots (db : DB sha256) (batchSize : Int) (scan : List String)
    (script : List BatchOutcome) : DB sha256 × Bool :=
  if batchSize < 1 then (db, false)
  else
    match compactWorkerRuntimeSnapshots (db.readWorkers scan) script (db.workers, db.blobs) with
    | (s, none) => (db.withWorkersState s, false)
    | (s, some script) =>
      let db := db.withWorkersState s
      match compactSnapshotTarget evidenceVerificationsTarget batchSize.toNat
          db.evidenceVerifications.maxKey script db.verificationsState with
      | (s, none) => (db.withVerificationsState s, false)
      | (s, some script) =>
        let db := db.withVerificationsState s
        match compactSnapshotTarget evidenceEventsTarget batchSize.toNat
            db.evidenceEvents.maxKey script db.eventsState with
        | (s, none) => (db.withEventsState s, false)
        | (s, some _) => (db.withEventsState s, true)

end DB

/-! ## §4 — the store as a machine -/

/-- The operations of the store, with the choices its environment makes. -/
inductive Op where
  | createWorker (id : String)
  | upsertReportedWorker (id : String)
  | updateWorkerRuntimeSnapshot (id : String) (payload : Doc)
  | recordVerification (workerID : String)
  | recordEventAt (workerID eventType message : String) (details : Doc) (createdAt : Int)
  | recordUniqueEventAt (workerID eventType message : String) (details : Doc) (createdAt : Int)
  | recordWindowedEventAt (workerID eventType message : String) (details : Doc)
      (createdAt window : Int) (existing : Option Nat)
  /-- The events of `CompleteProvisioning` and `AbandonProvisioning`, which are inserted as they
  are; their details are marshalled from a struct that has no reference member. -/
  | provisioningEvent (workerID eventType message : String)
      (details : { d : Doc // carriesRefs d = false }) (createdAt : Int)
  | deleteWorker (id : String)
  | pruneEvents (ids : List Nat)
  | pruneEvidence (verifications events : List Nat)
  | pruneProfileBlobs (n : Nat)
  | abortedWrite (stored : List Item)
  | compactProfileSnapshots (batchSize : Int) (scan : List String) (script : List BatchOutcome)

/-- A database before its first blob: whatever snapshots it holds are in inline form. -/
structure DB.Fresh (db : DB sha256) : Prop where
  blobs : db.blobs = BlobTable.empty sha256
  verificationsCursor : db.verificationsCursor = 0
  eventsCursor : db.eventsCursor = 0
  inline : ∀ d ∈ db.docs, carriesRefs d = false

variable (sha256) (sum8 : Doc → Nat) (restoreOutputDiskFullPath : Doc → Bool)

def store : Machine (DB sha256) Op where
  start := DB.Fresh
  step db
    | .createWorker id => some (db.createWorker id)
    | .upsertReportedWorker id => some (db.upsertReportedWorker id)
    | .updateWorkerRuntimeSnapshot id payload => some (db.updateWorkerRuntimeSnapshot id payload)
    | .recordVerification workerID => db.recordVerification workerID
    | .recordEventAt workerID eventType message details createdAt =>
      db.recordEventAt workerID eventType message details createdAt
    | .recordUniqueEventAt workerID eventType message details createdAt =>
      db.recordUniqueEventAt workerID eventType message details createdAt
    | .recordWindowedEventAt workerID eventType message details createdAt window existing =>
      db.recordWindowedEventAt sum8 restoreOutputDiskFullPath workerID eventType message details
        createdAt window existing
    | .provisioningEvent workerID eventType message details createdAt =>
      db.insertEvent workerID eventType message details createdAt []
    | .deleteWorker id => some (db.deleteWorker id)
    | .pruneEvents ids => some (db.pruneEvents ids)
    | .pruneEvidence verifications events => some (db.pruneEvidence verifications events)
    | .pruneProfileBlobs n => some (db.pruneProfileBlobs n)
    | .abortedWrite stored => some { db with blobs := (db.blobs.storeAll stored).1 }
    | .compactProfileSnapshots batchSize scan script =>
      if scan.Nodup ∧ scan.toFinset = db.workersWithArrays then
        some (db.compactProfileSnapshots batchSize scan script).1
      else none

end

/-! ## §5 — no stored text has a dangling reference -/

section

variable {Digest : Type} {sha256 : Item → Digest}

/-- The stored texts, column by column. -/
theorem DB.mem_docs {db : DB sha256} {d : Doc} :
    d ∈ db.docs ↔ (∃ id, db.workers.lookup id = some d) ∨
      (∃ row ∈ db.evidenceVerifications, row.runtime = d) ∨
      (∃ row ∈ db.evidenceEvents, row.details = d) ∨ ∃ row ∈ db.events, row.details = d := by
  have hworkers : d ∈ db.workers.entries.map (fun entry => entry.2) ↔
      ∃ id, db.workers.lookup id = some d := by
    rw [Multiset.mem_map]
    constructor
    · rintro ⟨⟨id, raw⟩, hmem, rfl⟩
      exact ⟨id, Finmap.mem_lookup_iff.mpr hmem⟩
    · rintro ⟨id, hlookup⟩
      exact ⟨⟨id, d⟩, Finmap.mem_lookup_iff.mp hlookup, rfl⟩
  grind [DB.docs, Multiset.mem_coe, Table.mem_rows]

/-- No stored text has a dangling reference. -/
def DB.WellFormed (db : DB sha256) : Prop := ∀ d ∈ db.docs, RefsOK db.blobs d

section

variable {db db' : DB sha256}

theorem DB.WellFormed.worker (hwf : db.WellFormed) {id : String} {raw : Doc}
    (h : db.workers.lookup id = some raw) : RefsOK db.blobs raw :=
  hwf raw (mem_docs.mpr (.inl ⟨id, h⟩))

theorem DB.WellFormed.verifications (hwf : db.WellFormed) :
    db.verificationsState.RefsOK evidenceVerificationsTarget := fun row hrow =>
  hwf _ (mem_docs.mpr (.inr (.inl ⟨row, hrow, rfl⟩)))

theorem DB.WellFormed.journal (hwf : db.WellFormed) :
    db.eventsState.RefsOK evidenceEventsTarget := fun row hrow =>
  hwf _ (mem_docs.mpr (.inr (.inr (.inl ⟨row, hrow, rfl⟩))))

theorem DB.WellFormed.event (hwf : db.WellFormed) {row : EventRow} (h : row ∈ db.events) :
    RefsOK db.blobs row.details :=
  hwf _ (mem_docs.mpr (.inr (.inr (.inr ⟨row, h, rfl⟩))))

/-- A step that only adds blobs, and writes only texts whose references exist, keeps this. -/
theorem DB.WellFormed.of_grow (hwf : db.WellFormed) (hext : db.blobs.Extends db'.blobs)
    (hworkers : ∀ id d, db'.workers.lookup id = some d →
      db.workers.lookup id = some d ∨ RefsOK db'.blobs d)
    (hverifications : ∀ row ∈ db'.evidenceVerifications,
      row ∈ db.evidenceVerifications ∨ RefsOK db'.blobs row.runtime)
    (hjournal : ∀ row ∈ db'.evidenceEvents,
      row ∈ db.evidenceEvents ∨ RefsOK db'.blobs row.details)
    (hevents : ∀ row ∈ db'.events, row ∈ db.events ∨ RefsOK db'.blobs row.details) :
    db'.WellFormed := by
  intro d hd
  rcases mem_docs.mp hd with ⟨id, hlookup⟩ | ⟨row, hrow, rfl⟩ | ⟨row, hrow, rfl⟩ | ⟨row, hrow, rfl⟩
  · exact (hworkers id d hlookup).elim (fun h => (hwf.worker h).extends hext) (·)
  · exact (hverifications row hrow).elim (fun h => (hwf.verifications row h).extends hext) (·)
  · exact (hjournal row hrow).elim (fun h => (hwf.journal row h).extends hext) (·)
  · exact (hevents row hrow).elim (fun h => (hwf.event h).extends hext) (·)

end

/-- The trigger writes the event's details, and nothing else. -/
theorem mem_journalEvent {event : EventRow} {journal : Table EvidenceEvent.journalID}
    {row : EvidenceEvent} (h : row ∈ journalEvent event journal) :
    row ∈ journal ∨ row.details = event.details := by
  unfold journalEvent at h
  split at h
  · exact .inl h
  · rcases (journal.mem_append _ _).mp h with hold | rfl
    · exact .inl hold
    · exact .inr rfl

namespace DB

variable {db : DB sha256} {workerID : String} {db' : DB sha256} {createdAt : Int}
  {eventType message : String} {details : Doc}

theorem WellFormed.insertWorker (hwf : db.WellFormed) (id : String) {raw : Doc}
    (hraw : RefsOK db.blobs raw) :
    ({ db with workers := db.workers.insert id raw } : DB sha256).WellFormed := by
  refine hwf.of_grow (.refl _) (fun id' d hlookup => ?_) (fun _ h => .inl h) (fun _ h => .inl h)
    fun _ h => .inl h
  grind [Finmap.lookup_insert, Finmap.lookup_insert_of_ne]

/-- The journal row gets a text that is stored already. -/
theorem wellFormed_recordVerification (hwf : db.WellFormed)
    (h : db.recordVerification workerID = some db') : db'.WellFormed := by
  obtain ⟨journal, hinsert, rfl⟩ := Option.map_eq_some_iff.mp h
  refine hwf.of_grow (.refl _) (fun _ _ h => .inl h) (fun row hrow => ?_) (fun _ h => .inl h)
    fun _ h => .inl h
  rcases ((Table.mem_insert? hinsert).2 row).mp hrow with hold | rfl
  · exact .inl hold
  · -- the copy is the worker's runtime, or empty
    right
    cases hlookup : db.workers.lookup workerID with
    | none => trivial
    | some raw => exact hwf.worker hlookup

/-- An insert or update of an event, with what its trigger copies. -/
theorem WellFormed.writeEvent (hwf : db.WellFormed) {event : EventRow}
    (hdetails : RefsOK db.blobs event.details) {events : Table EventRow.id} (seq : Nat)
    (hevents : ∀ row ∈ events, row ∈ db.events ∨ row = event) :
    ({ db with
      eventSeq := seq, events := events,
      evidenceEvents := journalEvent event db.evidenceEvents } : DB sha256).WellFormed := by
  refine hwf.of_grow (.refl _) (fun _ _ h => .inl h) (fun _ h => .inl h) (fun row hrow => ?_)
    fun row hrow => ?_
  · grind [mem_journalEvent]
  · rcases hevents row hrow with hold | rfl
    · exact .inl hold
    · exact .inr hdetails

theorem wellFormed_insertEvent (hwf : db.WellFormed)
    {keys : List OccurrenceKey} (hdetails : RefsOK db.blobs details)
    (h : db.insertEvent workerID eventType message details createdAt keys = some db') :
    db'.WellFormed := by
  obtain ⟨events, hinsert, rfl⟩ := Option.map_eq_some_iff.mp h
  exact hwf.writeEvent hdetails _ fun row hrow => ((Table.mem_insert? hinsert).2 row).mp hrow

theorem wellFormed_updateEvent (hwf : db.WellFormed) {event : EventRow}
    (hdetails : RefsOK db.blobs event.details) : (db.updateEvent event).WellFormed := by
  refine hwf.writeEvent hdetails db.eventSeq fun row hrow => ?_
  obtain ⟨old, hold, rfl⟩ := mem_map.mp hrow
  split
  · exact .inr rfl
  · exact .inl hold

theorem wellFormed_deleteWorker (hwf : db.WellFormed) (id : String) :
    (db.deleteWorker id).WellFormed := by
  refine hwf.of_grow (.refl _) (fun id' d hlookup => .inl ?_) (fun _ h => .inl h)
    (fun _ h => .inl h) fun row hrow => .inl ((db.events.mem_filter _).mp hrow).1
  grind [DB.deleteWorker, Finmap.lookup_erase, Finmap.lookup_erase_ne]

theorem wellFormed_pruneEvents (hwf : db.WellFormed) (ids : List Nat) :
    (db.pruneEvents ids).WellFormed :=
  hwf.of_grow (.refl _) (fun _ _ h => .inl h) (fun _ h => .inl h) (fun _ h => .inl h)
    fun _ hrow => .inl ((db.events.mem_filter _).mp hrow).1

theorem wellFormed_pruneEvidence (hwf : db.WellFormed)
    (verifications events : List Nat) : (db.pruneEvidence verifications events).WellFormed :=
  hwf.of_grow (.refl _) (fun _ _ h => .inl h)
    (fun _ hrow => .inl ((db.evidenceVerifications.mem_filter _).mp hrow).1)
    (fun _ hrow => .inl ((db.evidenceEvents.mem_filter _).mp hrow).1) fun _ h => .inl h

/-- The sweep deletes blobs that no stored text refers to. -/
theorem wellFormed_pruneProfileBlobs (hwf : db.WellFormed) (n : Nat) :
    (db.pruneProfileBlobs n).WellFormed := by
  intro d hd
  refine (hwf d hd).mono fun id hid hsome => ?_
  obtain ⟨item, hitem⟩ := Option.isSome_iff_exists.mp hsome
  have hkeep : (id.toNat ∉ ((db.blobs.rows.filter fun row =>
      ∀ d ∈ db.docs, (row.id : Int) ∉ referencedIDs d).take n).map Blob.id) := by
    intro hdeleted
    obtain ⟨row, hrow, hrowid⟩ := mem_map.mp hdeleted
    have hfree := of_decide_eq_true (mem_filter.mp (mem_of_mem_take hrow)).2 d hd
    obtain ⟨found, _, hfound, _⟩ := BlobTable.exists_of_body hitem
    exact hfree (by rw [hrowid]; rwa [show (id.toNat : Int) = id by omega])
  rw [show (db.pruneProfileBlobs n).blobs.body id = some item from
    BlobTable.body_deleteExcept _ _ hitem (decide_eq_true hkeep)]
  rfl

variable [DecidableEq Digest]

theorem wellFormed_compacting (hwf : db.WellFormed) (raw : Doc) :
    (db.compacting raw).WellFormed :=
  hwf.of_grow (extends_compactProfileSnapshot db.blobs raw) (fun _ _ h => .inl h)
    (fun _ h => .inl h) (fun _ h => .inl h) fun _ h => .inl h

/-- A heartbeat stores what compaction returned. -/
theorem wellFormed_updateWorkerRuntimeSnapshot (hsha : Function.Injective sha256)
    (hwf : db.WellFormed) (id : String) (payload : Doc) :
    (db.updateWorkerRuntimeSnapshot id payload).WellFormed := by
  unfold updateWorkerRuntimeSnapshot
  split
  · exact (wellFormed_compacting hwf payload).insertWorker id
      (refsOK_compactProfileSnapshot hsha db.blobs payload)
  · exact wellFormed_compacting hwf payload

theorem wellFormed_recordEventAt (hsha : Function.Injective sha256)
    (hwf : db.WellFormed)
    (h : db.recordEventAt workerID eventType message details createdAt = some db') :
    db'.WellFormed :=
  wellFormed_insertEvent (wellFormed_compacting hwf details)
    (refsOK_compactProfileSnapshot hsha db.blobs details) h

/-- A repeated event keeps the stored row, and a new one is compacted first. -/
theorem wellFormed_recordUniqueEventAt (hsha : Function.Injective sha256)
    (hwf : db.WellFormed)
    (h : db.recordUniqueEventAt workerID eventType message details createdAt = some db') :
    db'.WellFormed := by
  grind [DB.recordUniqueEventAt, DB.wellFormed_compacting, DB.wellFormed_recordEventAt]

theorem wellFormed_recordWindowedEventAt (hsha : Function.Injective sha256)
    {sum8 : Doc → Nat} {restoreOutputDiskFullPath : Doc → Bool}
    (hwf : db.WellFormed)
    {window : Int} {existing : Option Nat}
    (h : db.recordWindowedEventAt sum8 restoreOutputDiskFullPath workerID eventType message
      details createdAt window existing = some db') : db'.WellFormed := by
  have hcompact := refsOK_compactProfileSnapshot hsha db.blobs details
  have hdb := wellFormed_compacting hwf details
  simp only [recordWindowedEventAt] at h
  split at h
  · exact wellFormed_recordEventAt hsha hwf h
  split at h
  · cases h
  split at h
  · exact wellFormed_insertEvent hdb hcompact h
  · next row hrow =>
    obtain ⟨id, _, hfind⟩ := Option.bind_eq_some_iff.mp hrow
    have hmem := (db.events.find?_eq_some_iff.mp hfind).1
    split at h
    · cases h
      exact hdb
    split at h
    · -- an older occurrence keeps the row's details, and the trigger copies them again
      cases h
      have hdetails : RefsOK _ row.details := hdb.event hmem
      exact wellFormed_updateEvent hdb hdetails
    · cases h
      exact wellFormed_updateEvent hdb hcompact

end DB

/-! ## §6 — the pass over the workers -/

section

variable [DecidableEq Digest]

/-- What the loop over the worker rows has done, for every script: workers it did not read are as
they were, and each of the others holds its compacted text, or is unchanged because the loop
ended early. -/
structure WorkersProgress (rows : List (String × Doc))
    (s s' : Finmap (fun _ : String => Doc) × BlobTable sha256) (finished : Prop) : Prop where
  blobs : s.2.Extends s'.2
  outside : ∀ id, id ∉ rows.map Prod.fst → s'.1.lookup id = s.1.lookup id
  inside : ∀ entry ∈ rows, (s'.1.lookup entry.1 = some entry.2 ∧ ¬ finished) ∨
    ∃ compact, CompactedTo s.2 s'.2 entry.2 compact ∧ s'.1.lookup entry.1 = some compact

theorem WorkersProgress.imp {rows : List (String × Doc)}
    {s s' : Finmap (fun _ : String => Doc) × BlobTable sha256} {finished finished' : Prop}
    (h : WorkersProgress rows s s' finished) (himp : finished' → finished) :
    WorkersProgress rows s s' finished' :=
  ⟨h.blobs, h.outside, fun entry hentry => (h.inside entry hentry).imp_left fun hsame =>
    ⟨hsame.1, fun hfinished => hsame.2 (himp hfinished)⟩⟩

/-- One more row compacted in front of the others. -/
theorem WorkersProgress.cons {id : String} {raw : Doc} {rows : List (String × Doc)}
    {s s₁ s₂ : Finmap (fun _ : String => Doc) × BlobTable sha256} {finished : Prop}
    (h : WorkersProgress rows s₁ s₂ finished) (hfresh : id ∉ rows.map Prod.fst)
    (hblobs : s₁.2 = (compactProfileSnapshot s.2 raw).1)
    (hlookup : s₁.1.lookup id = some (compactProfileSnapshot s.2 raw).2)
    (hframe : ∀ id', id' ≠ id → s₁.1.lookup id' = s.1.lookup id') :
    WorkersProgress ((id, raw) :: rows) s s₂ finished := by
  have hext : s.2.Extends s₁.2 := hblobs ▸ extends_compactProfileSnapshot s.2 raw
  refine ⟨hext.trans h.blobs, fun id' hid' => ?_, fun entry hentry => ?_⟩
  · grind [WorkersProgress.outside]
  · rcases mem_cons.mp hentry with rfl | htail
    · refine .inr ⟨_, ⟨s.2, .refl _, hblobs ▸ h.blobs, rfl⟩, ?_⟩
      rw [h.outside id hfresh, hlookup]
    · rcases h.inside entry htail with hsame | ⟨compact, hcompact, hfind⟩
      · exact .inl hsame
      · exact .inr ⟨compact, hcompact.mono hext (.refl _), hfind⟩

/-- The loop over the workers, by induction on the rows it has read. -/
theorem workersProgress (rows : List (String × Doc)) (outcomes : List BatchOutcome)
    (s : Finmap (fun _ : String => Doc) × BlobTable sha256)
    (hnodup : (rows.map Prod.fst).Nodup)
    (hread : ∀ entry ∈ rows, s.1.lookup entry.1 = some entry.2) :
    WorkersProgress rows s (compactWorkerRuntimeSnapshots rows outcomes s).1
      ((compactWorkerRuntimeSnapshots rows outcomes s).2.isSome = true) := by
  induction rows generalizing outcomes s with
  | nil => exact ⟨.refl _, fun _ _ => rfl, fun _ h => by cases h⟩
  | cons entry rows ih =>
    obtain ⟨id, raw⟩ := entry
    obtain ⟨workers, blobs⟩ := s
    obtain ⟨hfresh, hnodup⟩ := nodup_cons.mp hnodup
    have hhead : workers.lookup id = some raw := hread (id, raw) (by simp)
    have htail : ∀ entry ∈ rows, workers.lookup entry.1 = some entry.2 :=
      fun entry hentry => hread entry (by simp [hentry])
    have hstop : ∀ blobs', blobs.Extends blobs' →
        WorkersProgress ((id, raw) :: rows) (workers, blobs) (workers, blobs') (false = true) :=
      fun blobs' hext => ⟨hext, fun _ _ => rfl, fun entry hentry =>
        .inl ⟨hread entry hentry, by simp⟩⟩
    have hext := extends_compactProfileSnapshot blobs raw
    -- a text that compaction leaves as it is counts as compacted
    have hkeep : (compactProfileSnapshot blobs raw).2 = raw → ∀ {s' finished},
        WorkersProgress rows (workers, (compactProfileSnapshot blobs raw).1) s' finished →
          WorkersProgress ((id, raw) :: rows) (workers, blobs) s' finished :=
      fun hsame _ _ h => h.cons hfresh rfl (by rw [hsame]; exact hhead) fun _ _ => rfl
    cases outcomes with
    | nil => exact hstop blobs (.refl _)
    | cons outcome outcomes =>
      cases outcome with
      | blobError stored => exact hstop _ (blobs.extends_storeAll stored)
      | commit =>
        simp only [compactWorkerRuntimeSnapshots, hhead, and_true]
        split
        · have hread' : ∀ entry ∈ rows,
              (workers.insert id (compactProfileSnapshot blobs raw).2).lookup entry.1 =
                some entry.2 := by
            intro entry hentry
            have hne : entry.1 ≠ id := fun heq =>
              hfresh (mem_map.mpr ⟨entry, hentry, heq⟩)
            rw [Finmap.lookup_insert_of_ne _ hne]
            exact htail entry hentry
          exact (ih outcomes _ hnodup hread').cons hfresh rfl (Finmap.lookup_insert _)
            fun id' hne => Finmap.lookup_insert_of_ne _ hne
        · next hsame => exact hkeep (not_not.mp hsame) (ih outcomes _ hnodup htail)
      | txError => grind [compactWorkerRuntimeSnapshots]

/-! ## §7 — the whole pass -/

namespace DB

variable {db : DB sha256} {scan : List String}

def viewWorker (db : DB sha256) (id : String) : Option (Except ExpandError JsonValue) :=
  (db.workers.lookup id).map (view db.blobs)

def viewVerification (db : DB sha256) (id : Nat) : Option (Except ExpandError JsonValue) :=
  db.verificationsState.viewAt evidenceVerificationsTarget id

def viewEvent (db : DB sha256) (journalID : Nat) : Option (Except ExpandError JsonValue) :=
  db.eventsState.viewAt evidenceEventsTarget journalID

/-- Every reader of a snapshot column sees what it saw before. -/
structure SameViews (db db' : DB sha256) : Prop where
  workers : ∀ id, db'.viewWorker id = db.viewWorker id
  verifications : ∀ id, db'.viewVerification id = db.viewVerification id
  events : ∀ journalID, db'.viewEvent journalID = db.viewEvent journalID

/-- **The condition.** No row the pass is going to visit is in reference form: no journal row above
its table's cursor, and no worker whose text mentions an array field. -/
structure NoPendingRefs (db : DB sha256) : Prop where
  workers : ∀ id ∈ db.workersWithArrays, ∀ raw, db.workers.lookup id = some raw →
    carriesRefs raw = false
  verifications : ∀ row ∈ db.evidenceVerifications, db.verificationsCursor < row.id →
    carriesRefs row.runtime = false
  events : ∀ row ∈ db.evidenceEvents, db.eventsCursor < row.journalID →
    carriesRefs row.details = false

omit [DecidableEq Digest] in
/-- A text that is not rewritten reads the same while the blob table only grows. -/
theorem viewWorker_eq {db' : DB sha256} (hwf : db.WellFormed)
    (hext : db.blobs.Extends db'.blobs) {id : String}
    (hsame : db'.workers.lookup id = db.workers.lookup id) :
    db'.viewWorker id = db.viewWorker id := by
  rw [viewWorker, hsame, viewWorker]
  exact Option.map_congr fun raw hraw => view_extends (hwf.worker hraw) hext

omit [DecidableEq Digest] in
/-- The same for a table of the journal. -/
theorem viewAt_eq {Row : Type} {key : Row → Nat} {target : SnapshotCompactionTarget key}
    {s s' : TargetState sha256 key} (hok : s.RefsOK target) (hext : s.blobs.Extends s'.blobs)
    (htable : s'.table = s.table) (k : Nat) : s'.viewAt target k = s.viewAt target k := by
  rw [TargetState.viewAt, htable, TargetState.viewAt]
  refine Option.map_congr fun row hrow => view_extends (hok row ?_) hext
  exact (s.table.find?_eq_some_iff.mp hrow).1

omit [DecidableEq Digest] in
/-- What the scan of the workers returns. -/
theorem mem_readWorkers {entry : String × Doc} :
    entry ∈ db.readWorkers scan ↔ entry.1 ∈ scan ∧ db.workers.lookup entry.1 = some entry.2 := by
  grind [DB.readWorkers, Option.map_eq_some_iff]

omit [DecidableEq Digest] in
theorem readWorkers_nodup (db : DB sha256) (hscan : scan.Nodup) :
    ((db.readWorkers scan).map Prod.fst).Nodup := by
  have hsublist : ((db.readWorkers scan).map Prod.fst).Sublist scan := by
    unfold readWorkers
    induction scan with
    | nil => exact .slnil
    | cons id scan ih =>
      rw [filterMap_cons]
      cases db.workers.lookup id with
      | none => exact (ih (nodup_cons.mp hscan).2).cons id
      | some raw => exact (ih (nodup_cons.mp hscan).2).cons_cons id
  exact hscan.sublist hsublist

/-- The three stages of the pass, one for each column it works on. A stage the pass did not get to
has changed nothing. -/
structure Stages (scan : List String) (db : DB sha256)
    (s₁ : Finmap (fun _ : String => Doc) × BlobTable sha256)
    (s₂ : TargetState sha256 EvidenceVerification.id)
    (s₃ : TargetState sha256 EvidenceEvent.journalID) (finished : Prop) : Prop where
  workers : WorkersProgress (db.readWorkers scan) (db.workers, db.blobs) s₁ finished
  verifications : Progress evidenceVerificationsTarget
    (db.withWorkersState s₁).verificationsState s₂
  events : Progress evidenceEventsTarget
    ((db.withWorkersState s₁).withVerificationsState s₂).eventsState s₃
  verifications_end : finished → db.evidenceVerifications.maxKey ≤ s₂.cursor
  events_end : finished → db.evidenceEvents.maxKey ≤ s₃.cursor

/-- A run of the compaction is its three loops, one after the other, each on what the last one
left. -/
theorem stages_compactProfileSnapshots (db : DB sha256) {batchSize : Int} (hsize : 1 ≤ batchSize)
    (hscan : scan.Nodup) (script : List BatchOutcome) :
    ∃ s₁ s₂ s₃, (db.compactProfileSnapshots batchSize scan script).1 =
        ((db.withWorkersState s₁).withVerificationsState s₂).withEventsState s₃ ∧
      Stages scan db s₁ s₂ s₃ ((db.compactProfileSnapshots batchSize scan script).2 = true) := by
  have hworkers := workersProgress (db.readWorkers scan) script (db.workers, db.blobs)
    (db.readWorkers_nodup hscan) fun entry hentry => (mem_readWorkers.mp hentry).2
  unfold compactProfileSnapshots
  rw [if_neg (by omega)]
  split
  · next s₁ heq =>
    rw [heq] at hworkers
    exact ⟨s₁, _, _, rfl, hworkers.imp (by simp), .of_blobs _ (.refl _), .of_blobs _ (.refl _),
      by simp, by simp⟩
  · next s₁ script₁ heq =>
    rw [heq] at hworkers
    have hworkers : WorkersProgress (db.readWorkers scan) (db.workers, db.blobs) s₁ True :=
      hworkers.imp fun _ => rfl
    have hsize' : 1 ≤ batchSize.toNat := by omega
    simp only
    split
    · next s₂ heq₂ =>
      obtain ⟨hprogress₂, _⟩ := progress_compactSnapshotTarget hsize' heq₂
      exact ⟨s₁, s₂, _, rfl, hworkers.imp (by simp), hprogress₂, .of_blobs _ (.refl _),
        by simp, by simp⟩
    · next s₂ script₂ heq₂ =>
      obtain ⟨hprogress₂, hend₂⟩ := progress_compactSnapshotTarget hsize' heq₂
      split
      · next s₃ heq₃ =>
        obtain ⟨hprogress₃, _⟩ := progress_compactSnapshotTarget hsize' heq₃
        exact ⟨s₁, s₂, s₃, rfl, hworkers.imp (by simp), hprogress₂, hprogress₃, by simp, by simp⟩
      · next s₃ script₃ heq₃ =>
        obtain ⟨hprogress₃, hend₃⟩ := progress_compactSnapshotTarget hsize' heq₃
        exact ⟨s₁, s₂, s₃, rfl, hworkers.imp (by simp), hprogress₂, hprogress₃,
          fun _ => hend₂ rfl, fun _ => hend₃ rfl⟩

section

variable {scan : List String} {db : DB sha256}
  {s₁ : Finmap (fun _ : String => Doc) × BlobTable sha256}
  {s₂ : TargetState sha256 EvidenceVerification.id}
  {s₃ : TargetState sha256 EvidenceEvent.journalID} {finished : Prop}

/-- A worker's text is as it was, or compacted. -/
theorem Stages.worker_cases (h : Stages scan db s₁ s₂ s₃ finished) {id : String} {raw' : Doc}
    (hlookup : s₁.1.lookup id = some raw') :
    db.workers.lookup id = some raw' ∨
      ∃ raw, db.workers.lookup id = some raw ∧ CompactedTo db.blobs s₁.2 raw raw' := by
  by_cases hid : id ∈ (db.readWorkers scan).map Prod.fst
  · obtain ⟨entry, hentry, rfl⟩ := mem_map.mp hid
    have hold := (mem_readWorkers.mp hentry).2
    rcases h.workers.inside entry hentry with hsame | ⟨compact, hcompact, hnew⟩
    · rw [hsame.1] at hlookup
      exact .inl (hold.trans hlookup)
    · grind
  · exact .inl ((h.workers.outside id hid).symm.trans hlookup)

variable (hsha : Function.Injective sha256) (h : Stages scan db s₁ s₂ s₃ finished)
  (hwf : db.WellFormed)

include hsha h hwf

theorem Stages.wellFormed_first : (db.withWorkersState s₁).WellFormed := by
  refine hwf.of_grow h.workers.blobs (fun id d hlookup => ?_) (fun _ h => .inl h)
    (fun _ h => .inl h) fun _ h => .inl h
  exact (h.worker_cases hlookup).imp_right fun ⟨_, _, hcompact⟩ => hcompact.refsOK hsha

theorem Stages.wellFormed_second :
    ((db.withWorkersState s₁).withVerificationsState s₂).WellFormed := by
  have hfirst := h.wellFormed_first hsha hwf
  exact hfirst.of_grow h.verifications.blobs (fun _ _ h => .inl h)
    (fun row hrow => .inr (h.verifications.refsOK hsha hfirst.verifications row hrow))
    (fun _ h => .inl h) fun _ h => .inl h

theorem Stages.wellFormed_third :
    (((db.withWorkersState s₁).withVerificationsState s₂).withEventsState s₃).WellFormed := by
  have hsecond := h.wellFormed_second hsha hwf
  exact hsecond.of_grow h.events.blobs (fun _ _ h => .inl h) (fun _ h => .inl h)
    (fun row hrow => .inr (h.events.refsOK hsha hsecond.journal row hrow)) fun _ h => .inl h

theorem Stages.viewWorker_eq_first (id : String) :
    (((db.withWorkersState s₁).withVerificationsState s₂).withEventsState s₃).viewWorker id =
      (db.withWorkersState s₁).viewWorker id := by
  have hext : (db.withWorkersState s₁).blobs.Extends s₃.blobs :=
    fun id item hitem => h.events.blobs id item (h.verifications.blobs id item hitem)
  exact viewWorker_eq (h.wellFormed_first hsha hwf) hext rfl

/-- The journal of verifications reads the same exactly where no row that was compacted carried
references. -/
theorem Stages.viewVerification_iff :
    (∀ id, (((db.withWorkersState s₁).withVerificationsState s₂).withEventsState
        s₃).viewVerification id = db.viewVerification id) ↔
      ∀ row ∈ db.evidenceVerifications, db.verificationsCursor < row.id → row.id ≤ s₂.cursor →
        carriesRefs row.runtime = false := by
  have hfirst := h.wellFormed_first hsha hwf
  have hsecond := h.wellFormed_second hsha hwf
  have hbefore : ∀ id, (db.withWorkersState s₁).viewVerification id = db.viewVerification id :=
    viewAt_eq hwf.verifications h.workers.blobs rfl
  have hafter : ∀ id, (((db.withWorkersState s₁).withVerificationsState s₂).withEventsState
      s₃).viewVerification id = s₂.viewAt evidenceVerificationsTarget id :=
    viewAt_eq hsecond.verifications h.events.blobs rfl
  simp only [hafter, ← hbefore]
  exact h.verifications.views_eq_iff hsha hfirst.verifications

/-- The same for the journal of events. -/
theorem Stages.viewEvent_iff :
    (∀ journalID, (((db.withWorkersState s₁).withVerificationsState s₂).withEventsState
        s₃).viewEvent journalID = db.viewEvent journalID) ↔
      ∀ row ∈ db.evidenceEvents, db.eventsCursor < row.journalID → row.journalID ≤ s₃.cursor →
        carriesRefs row.details = false := by
  have hbefore : ∀ journalID,
      ((db.withWorkersState s₁).withVerificationsState s₂).viewEvent journalID =
        db.viewEvent journalID :=
    viewAt_eq hwf.journal (h.workers.blobs.trans h.verifications.blobs) rfl
  simp only [← hbefore]
  exact h.events.views_eq_iff hsha (h.wellFormed_second hsha hwf).journal

/-- Without references in front of the cursors every view stays. -/
theorem Stages.sameViews
    (hscan : scan.toFinset = db.workersWithArrays) (hno : db.NoPendingRefs) :
    SameViews db (((db.withWorkersState s₁).withVerificationsState s₂).withEventsState s₃) where
  workers := fun id => by
    rw [h.viewWorker_eq_first hsha hwf]
    by_cases hid : id ∈ (db.readWorkers scan).map Prod.fst
    · obtain ⟨entry, hentry, rfl⟩ := mem_map.mp hid
      obtain ⟨hmem, hold⟩ := mem_readWorkers.mp hentry
      rcases h.workers.inside entry hentry with hsame | ⟨compact, hcompact, hnew⟩
      · exact viewWorker_eq hwf h.workers.blobs (hsame.1.trans hold.symm)
      · have hinline : carriesRefs entry.2 = false :=
          hno.workers entry.1 (hscan ▸ mem_toFinset.mpr hmem) entry.2 hold
        show (s₁.1.lookup entry.1).map (view s₁.2) = (db.workers.lookup entry.1).map (view db.blobs)
        rw [hnew, hold, Option.map_some, Option.map_some,
          (hcompact.view_eq_iff hsha (hwf.worker hold)).mpr hinline]
    · exact viewWorker_eq hwf h.workers.blobs (h.workers.outside id hid)
  verifications := (h.viewVerification_iff hsha hwf).mpr fun row hrow hlow _ =>
    hno.verifications row hrow hlow
  events := (h.viewEvent_iff hsha hwf).mpr fun row hrow hlow _ => hno.events row hrow hlow

/-- Conversely, a finished compaction that keeps every view met no references. -/
theorem Stages.noPendingRefs
    (hscan : scan.toFinset = db.workersWithArrays) (hfinished : finished)
    (hsame : SameViews db
      (((db.withWorkersState s₁).withVerificationsState s₂).withEventsState s₃)) :
    db.NoPendingRefs where
  workers := fun id hid raw hlookup => by
    have hmem : id ∈ scan := mem_toFinset.mp (hscan ▸ hid)
    have hview := hsame.workers id
    rw [h.viewWorker_eq_first hsha hwf] at hview
    rcases h.workers.inside (id, raw) (mem_readWorkers.mpr ⟨hmem, hlookup⟩) with
      hstopped | ⟨compact, hcompact, hnew⟩
    · exact absurd hfinished hstopped.2
    · have hview : (s₁.1.lookup id).map (view s₁.2) =
          (db.workers.lookup id).map (view db.blobs) := hview
      rw [hnew, hlookup, Option.map_some, Option.map_some, Option.some.injEq] at hview
      exact (hcompact.view_eq_iff hsha (hwf.worker hlookup)).mp hview
  verifications := fun row hrow hlow =>
    (h.viewVerification_iff hsha hwf).mp hsame.verifications row hrow hlow
      ((db.evidenceVerifications.key_le_maxKey hrow).trans (h.verifications_end hfinished))
  events := fun row hrow hlow =>
    (h.viewEvent_iff hsha hwf).mp hsame.events row hrow hlow
      ((db.evidenceEvents.key_le_maxKey hrow).trans (h.events_end hfinished))

end

/-- The compaction keeps the references intact, finished or not. -/
theorem wellFormed_compactProfileSnapshots (hsha : Function.Injective sha256)
    (hwf : db.WellFormed) (batchSize : Int) (hscan : scan.Nodup)
    (script : List BatchOutcome) :
    (db.compactProfileSnapshots batchSize scan script).1.WellFormed := by
  by_cases hsize : 1 ≤ batchSize
  · obtain ⟨s₁, s₂, s₃, hresult, hstages⟩ := stages_compactProfileSnapshots db hsize hscan script
    rw [hresult]
    exact hstages.wellFormed_third hsha hwf
  · rw [compactProfileSnapshots, if_pos (by omega)]
    exact hwf

end DB

/-! ## §8 — the store's runs -/

variable {sum8 : Doc → Nat} {restoreOutputDiskFullPath : Doc → Bool}

variable {db : DB sha256}

omit [DecidableEq Digest] in
theorem DB.Fresh.wellFormed (h : db.Fresh) : db.WellFormed :=
  fun d hd => refsOK_of_not_carriesRefs db.blobs (h.inline d hd)

/-- One operation of the store. -/
theorem wellFormed_step (hsha : Function.Injective sha256) {db' : DB sha256} {op : Op}
    (hwf : db.WellFormed)
    (h : (store sha256 sum8 restoreOutputDiskFullPath).step db op = some db') :
    db'.WellFormed := by
  cases op with
  | createWorker id =>
    cases h
    exact hwf.insertWorker id trivial
  | upsertReportedWorker id =>
    cases h
    unfold DB.upsertReportedWorker
    split
    · exact hwf
    · exact hwf.insertWorker id trivial
  | updateWorkerRuntimeSnapshot id payload =>
    cases h
    exact DB.wellFormed_updateWorkerRuntimeSnapshot hsha hwf id payload
  | recordVerification workerID => exact DB.wellFormed_recordVerification hwf h
  | recordEventAt workerID eventType message details createdAt =>
    exact DB.wellFormed_recordEventAt hsha hwf h
  | recordUniqueEventAt workerID eventType message details createdAt =>
    exact DB.wellFormed_recordUniqueEventAt hsha hwf h
  | recordWindowedEventAt workerID eventType message details createdAt window existing =>
    exact DB.wellFormed_recordWindowedEventAt hsha hwf h
  | provisioningEvent workerID eventType message details createdAt =>
    exact DB.wellFormed_insertEvent hwf (refsOK_of_not_carriesRefs db.blobs details.2) h
  | deleteWorker id =>
    cases h
    exact DB.wellFormed_deleteWorker hwf id
  | pruneEvents ids =>
    cases h
    exact DB.wellFormed_pruneEvents hwf ids
  | pruneEvidence verifications events =>
    cases h
    exact DB.wellFormed_pruneEvidence hwf verifications events
  | pruneProfileBlobs n =>
    cases h
    exact DB.wellFormed_pruneProfileBlobs hwf n
  | abortedWrite stored =>
    cases h
    exact hwf.of_grow (db.blobs.extends_storeAll stored) (fun _ _ h => .inl h) (fun _ h => .inl h)
      (fun _ h => .inl h) fun _ h => .inl h
  | compactProfileSnapshots batchSize scan script => grind [store,
      DB.wellFormed_compactProfileSnapshots]

/-- Every reachable database is well formed. -/
theorem wellFormed_of_reachable (hsha : Function.Injective sha256)
    (h : (store sha256 sum8 restoreOutputDiskFullPath).Reachable db) : db.WellFormed :=
  Machine.Reaches.invariant (fun _ hs => DB.Fresh.wellFormed hs)
    (fun _ _ _ hwf _ hstep => wellFormed_step hsha hwf hstep) h

variable (sum8 restoreOutputDiskFullPath) in
/-- **What the maintenance pass does to readers.** In every database the store can reach, for every
batch size and every way the pass can be stopped or fail: while no row it is going to visit is in
reference form, `ListEvidenceVerifications`, `ListEvidenceEvents` and `GetWorker` return the same
before and after. A pass that runs to its end changes what they return in every other case. -/
theorem compactProfileSnapshots_views (hsha : Function.Injective sha256) {db : DB sha256}
    (hreach : (store sha256 sum8 restoreOutputDiskFullPath).Reachable db) (batchSize : Int)
    {scan : List String} (hnodup : scan.Nodup) (hscan : scan.toFinset = db.workersWithArrays)
    (script : List BatchOutcome) :
    (db.NoPendingRefs → db.SameViews (db.compactProfileSnapshots batchSize scan script).1) ∧
    ((db.compactProfileSnapshots batchSize scan script).2 = true →
      (db.SameViews (db.compactProfileSnapshots batchSize scan script).1 ↔ db.NoPendingRefs)) := by
  have hwf := wellFormed_of_reachable hsha hreach
  by_cases hsize : 1 ≤ batchSize
  · obtain ⟨s₁, s₂, s₃, hresult, hstages⟩ :=
      db.stages_compactProfileSnapshots hsize hnodup script
    have hsame := hstages.sameViews hsha hwf hscan
    rw [hresult]
    exact ⟨hsame, fun hfinished =>
      ⟨hstages.noPendingRefs hsha hwf hscan hfinished, hsame⟩⟩
  · rw [DB.compactProfileSnapshots, if_pos (by omega)]
    exact ⟨fun _ => ⟨fun _ => rfl, fun _ => rfl, fun _ => rfl⟩, by simp⟩

end

end

/-! The same worker report before and after the reference form existed: a legacy row keeps its
incident, a row journaled by the trigger loses it. Items are their own digests here. -/

def reportedFields : Fields := Finmap.singleton .profileIncidents (.array [.text "incident" ∅])

/-- A database from before the blob table, with one journal row in inline form. -/
def legacyDB : DB (id : Item → Item) where
  workers := ∅
  verificationSeq := 1
  evidenceVerifications := ⟨[⟨1, "w", marshalFields reportedFields⟩], by simp⟩
  eventSeq := 0
  events := .empty _
  evidenceEvents := .empty _
  blobs := .empty _
  verificationsCursor := 0
  eventsCursor := 0

theorem legacyDB_fresh : legacyDB.Fresh := ⟨rfl, rfl, rfl, by decide⟩

/-- The inline row is compacted, and reads the same. -/
theorem compactProfileSnapshots_views_legacy :
    legacyDB.NoPendingRefs ∧
      legacyDB.SameViews (legacyDB.compactProfileSnapshots 16 [] [.commit]).1 := by
  have hno : legacyDB.NoPendingRefs :=
    ⟨by decide, by intro row hrow _; rw [mem_singleton.mp hrow]; decide,
      fun row hrow => absurd hrow (Table.not_mem_empty row)⟩
  exact ⟨hno, (compactProfileSnapshots_views (fun _ => 0) (fun _ => false)
    Function.injective_id (.start legacyDB_fresh) 16 nodup_nil rfl [.commit]).1 hno⟩

def emptyDB : DB (id : Item → Item) where
  workers := ∅
  verificationSeq := 0
  evidenceVerifications := .empty _
  eventSeq := 0
  events := .empty _
  evidenceEvents := .empty _
  blobs := .empty _
  verificationsCursor := 0
  eventsCursor := 0

def journaledDB : DB (id : Item → Item) :=
  (((emptyDB.createWorker "w").updateWorkerRuntimeSnapshot "w"
    (marshalFields reportedFields)).recordVerification "w").getD emptyDB

/-- **The trigger's copy loses its arrays.** The verification's journal row reads back the incident
before the pass, and nothing after it. -/
theorem compactProfileSnapshots_drops_journaled_incident :
    (store id (fun _ => 0) (fun _ => false)).Reachable journaledDB ∧
    ([] : List String).toFinset = journaledDB.workersWithArrays ∧
    (journaledDB.compactProfileSnapshots 16 [] [.commit]).2 = true ∧
    journaledDB.viewVerification 1 = some (.ok (.object reportedFields)) ∧
    (journaledDB.compactProfileSnapshots 16 [] [.commit]).1.viewVerification 1 =
      some (.ok (.object ∅)) := by
  refine ⟨?_, by decide, by decide, by decide, by decide⟩
  have hstart : (store id (fun _ => 0) (fun _ => false)).Reachable emptyDB :=
    .start ⟨rfl, rfl, rfl, by decide⟩
  obtain ⟨db, hreach, rfl⟩ := Machine.exists_reaches_of_run hstart [.createWorker "w",
    .updateWorkerRuntimeSnapshot "w" (marshalFields reportedFields), .recordVerification "w"]
    ⟨journaledDB, rfl, (rfl : journaledDB = journaledDB)⟩
  exact hreach

end LitestreamSoak.Store
