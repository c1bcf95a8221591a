import LitestreamSoak.Lib.Table
import LitestreamSoak.Lib.Text

/-!
# Store — events coalesced in a time window

`internal/model/events.go` records an event of a log that is read again and again.
`RecordWindowedEventAt` looks for the newest row of the same worker, type and message within a
window around the line's own time. A row found there remembers the occurrences it stands for, by
time and digest of the payload; a line it remembers changes nothing, another one is counted into
it and, when it is not older, becomes the row's time and payload. Where no row is in the window
the line gets one of its own.

`syncAppPlatformLogs` (`internal/orchestrator/platform.go`) is the caller: it sorts the lines the
log endpoint returned by time and records those of known machines that classify as an event.

The texts are kept as the values they are built from: an occurrence key as its time, digest and
provenance, the column `occurrence_keys` as the list of them. Payload type, digest, the test for a
restore output and the compaction of a profile snapshot are the parameters of `EventCodec`.
-/

namespace LitestreamSoak.Store.WindowedEvents

open Lib

/-! ## §1 — events -/

variable {Details Digest : Type}

/-- What the model takes as given: the first eight bytes of the payload's SHA-256,
`RestoreOutputDiskFullPath`, and `compactProfileSnapshot` for a payload it accepts. -/
structure EventCodec (Details Digest : Type) where
  digest : Details → Digest
  restoreOutput : Details → Bool
  compact : Details → Details

structure EventKind where
  workerID : Text
  eventType : Text
  message : Text
deriving DecidableEq

/-- One entry of `occurrence_keys`; `restoreOutput` is the suffix of the provenance. -/
structure OccurrenceKey (Digest : Type) where
  time : Int
  digest : Digest
  restoreOutput : Bool
deriving DecidableEq

/-- A row of `events`. A row recorded before occurrences were tracked has no keys. -/
structure Event (Details Digest : Type) where
  id : Nat
  kind : EventKind
  details : Details
  createdAt : Int
  occurrences : Nat
  keys : List (OccurrenceKey Digest)

def eventOccurrenceKey (c : EventCodec Details Digest) (createdAt : Int) (details : Details) :
    OccurrenceKey Digest :=
  ⟨createdAt, c.digest details, c.restoreOutput details⟩

/-- `occurrenceIdentity`: the key without its provenance. -/
def occurrenceIdentity (key : OccurrenceKey Digest) : Int × Digest := (key.time, key.digest)

def sameEventOccurrence [DecidableEq Digest] (a b : OccurrenceKey Digest) : Bool :=
  occurrenceIdentity a = occurrenceIdentity b

def seenEventOccurrence [DecidableEq Digest] (seen : List (OccurrenceKey Digest))
    (key : OccurrenceKey Digest) : Bool :=
  seen.any fun existing => sameEventOccurrence existing key

def restoreOutputOccurrences (keys : List (OccurrenceKey Digest)) : Nat :=
  keys.countP OccurrenceKey.restoreOutput

/-! ## §2 — `RecordWindowedEventAt` -/

abbrev EventTable (Details Digest : Type) := Table (@Event.id Details Digest)

def windowRows (t : EventTable Details Digest) (kind : EventKind) (createdAt window : Int) :
    List (Event Details Digest) :=
  t.rows.filter fun row => row.kind = kind ∧ createdAt - window ≤ row.createdAt ∧
    row.createdAt ≤ createdAt + window

-- the order of the times that computes, whatever other one is in scope
local instance (priority := 2000) timeOrder : Preorder Int := Int.instLinearOrder.toPreorder

/-- `ORDER BY created_at DESC LIMIT 1` among them. -/
def newestInWindow (t : EventTable Details Digest) (kind : EventKind) (createdAt window : Int) :
    Option (Event Details Digest) :=
  (windowRows t kind createdAt window).argmax Event.createdAt

def insertEvent (t : EventTable Details Digest) (kind : EventKind) (details : Details)
    (createdAt : Int) (keys : List (OccurrenceKey Digest)) : EventTable Details Digest :=
  t.append (fun id => ⟨id, kind, details, createdAt, 1, keys⟩) fun _ => rfl

def seededKeys (c : EventCodec Details Digest) (row : Event Details Digest) :
    List (OccurrenceKey Digest) :=
  if row.keys.isEmpty then [eventOccurrenceKey c row.createdAt row.details] else row.keys

/-- One more occurrence for a row. A line older than the row leaves its time and payload. -/
def countInto (row : Event Details Digest) (details : Details) (createdAt : Int)
    (keys : List (OccurrenceKey Digest)) : Event Details Digest :=
  if createdAt < row.createdAt then
    { row with occurrences := row.occurrences + 1, keys := keys }
  else
    { row with
      details := details, createdAt := createdAt, occurrences := row.occurrences + 1, keys := keys }

def mergeEvent (t : EventTable Details Digest) (id : Nat) (details : Details) (createdAt : Int)
    (keys : List (OccurrenceKey Digest)) : EventTable Details Digest :=
  t.update (fun row => if row.id = id then countInto row details createdAt keys else row)
    fun row => by
      split
      · unfold countInto
        split <;> rfl
      · rfl

/-- `RecordWindowedEventAt`, with whether it created a row. -/
def recordWindowedEventAt [DecidableEq Digest] (c : EventCodec Details Digest)
    (t : EventTable Details Digest) (kind : EventKind) (details : Details)
    (createdAt window : Int) : EventTable Details Digest × Bool :=
  if window ≤ 0 then
    (insertEvent t kind (c.compact details) createdAt [], true)
  else
    let key := eventOccurrenceKey c createdAt details
    match newestInWindow t kind createdAt window with
    | some existing =>
      let seen := seededKeys c existing
      if seenEventOccurrence seen key ||
          seenEventOccurrence seen (eventOccurrenceKey c createdAt (c.compact details)) then
        (t, false)
      else
        (mergeEvent t existing.id (c.compact details) createdAt (seen ++ [key]), false)
    | none => (insertEvent t kind (c.compact details) createdAt [key], true)

/-! ## §3 — `syncAppPlatformLogs` -/

variable {c : EventCodec Details Digest}

/-- A log line. Its payload is the marshalled line, an object without the members a profile
snapshot has, which `compactProfileSnapshot` leaves as it is. -/
structure LogLine (c : EventCodec Details Digest) where
  timestamp : Int
  machine : Text
  details : Details
  plain : c.compact details = details

/-- What one call of `syncAppPlatformLogs` works on: the lines of the endpoint, and the workers by
machine when it was called. -/
structure LogBatch (c : EventCodec Details Digest) where
  lines : List (LogLine c)
  workersByMachine : Text → Option Text

structure Delivery (c : EventCodec Details Digest) where
  kind : EventKind
  line : LogLine c

def delivery (classify : LogLine c → Option (Text × Text)) (workersByMachine : Text → Option Text)
    (line : LogLine c) : Option (Delivery c) :=
  (workersByMachine line.machine).bind fun workerID =>
    (classify line).map fun event => ⟨⟨workerID, event.1, event.2⟩, line⟩

def sortedLines (lines : List (LogLine c)) : List (LogLine c) :=
  lines.insertionSort fun a b => a.timestamp ≤ b.timestamp

def LogBatch.deliveries (classify : LogLine c → Option (Text × Text)) (batch : LogBatch c) :
    List (Delivery c) :=
  (sortedLines batch.lines).filterMap (delivery classify batch.workersByMachine)

variable [DecidableEq Digest]

def record (window : Int) (t : EventTable Details Digest) (d : Delivery c) :
    EventTable Details Digest :=
  (recordWindowedEventAt c t d.kind d.line.details d.line.timestamp window).1

def syncAppPlatformLogs (classify : LogLine c → Option (Text × Text)) (window : Int)
    (t : EventTable Details Digest) (batch : LogBatch c) : EventTable Details Digest :=
  (sortedLines batch.lines).foldl
    (fun t line =>
      match delivery classify batch.workersByMachine line with
      | none => t
      | some d => record window t d) t

theorem syncAppPlatformLogs_eq (classify : LogLine c → Option (Text × Text)) (window : Int)
    (t : EventTable Details Digest) (batch : LogBatch c) :
    syncAppPlatformLogs classify window t batch =
      (batch.deliveries classify).foldl (record window) t := by
  grind [syncAppPlatformLogs, LogBatch.deliveries, List.foldl_filterMap]

def deliveries (classify : LogLine c → Option (Text × Text)) (batches : List (LogBatch c)) :
    List (Delivery c) :=
  batches.flatMap (LogBatch.deliveries classify)

theorem foldl_syncAppPlatformLogs (classify : LogLine c → Option (Text × Text)) (window : Int)
    (t : EventTable Details Digest) (batches : List (LogBatch c)) :
    batches.foldl (syncAppPlatformLogs classify window) t =
      (deliveries classify batches).foldl (record window) t := by
  induction batches generalizing t with
  | nil => rfl
  | cons batch batches ih => grind [deliveries, syncAppPlatformLogs_eq]

end LitestreamSoak.Store.WindowedEvents
