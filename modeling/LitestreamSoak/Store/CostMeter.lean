import LitestreamSoak.Lib.Text

/-!
# Store — the cost meter of a worker

A worker reports cumulative counters: of its own process, and of the Litestream process it runs.
Both start again at zero with their process, which an epoch in the report tells. `RecordCostMeter`
keeps the last counters of the worker, takes what a report adds to them and files it under the hour.

A map of the source is `none` where it is nil. Counters are 64-bit numbers.
-/

namespace LitestreamSoak.Store.CostMeter

open Lib

/-! ## §1 — counters -/

inductive Field where
  | litestreamObjectOperations
  | litestreamObjectBytes
  | replicaRequests
  | replicaRequestBytesSent
  | replicaResponseBytesReceived
  | replicaLevelPuts
  | replicaLevelPutBytes
  | restoreRequests
deriving DecidableEq

def Field.all : List Field :=
  [litestreamObjectOperations, litestreamObjectBytes, replicaRequests, replicaRequestBytesSent,
    replicaResponseBytesReceived, replicaLevelPuts, replicaLevelPutBytes, restoreRequests]

def Field.ofLitestream : Field → Bool
  | litestreamObjectOperations | litestreamObjectBytes => true
  | _ => false

abbrev CounterMap := AList fun _ : Text => UInt64

def lookupCounter (m : Option CounterMap) (key : Text) : UInt64 :=
  (m.bind fun m => m.lookup key).getD 0

def insertCounter (m : Option CounterMap) (key : Text) (value : UInt64) : Option CounterMap :=
  some ((m.getD ∅).insert key value)

structure ObjectStoreCounters where
  objectStoreCounterEpoch : Text := []
  litestreamCounterEpoch : Text := []
  maps : Field → Option CounterMap := fun _ => none
  evidenceObjectUploads : UInt64 := 0
  evidenceUploadPayloadBytes : UInt64 := 0

structure CostMeterTotals where
  maps : Field → Option CounterMap := fun _ => none
  evidenceObjectUploads : UInt64 := 0
  evidenceUploadPayloadBytes : UInt64 := 0
  peakDiskUsedBytes : UInt64 := 0

def CostMeterTotals.isZero (t : CostMeterTotals) : Bool :=
  (Field.all.all fun f => ((t.maps f).getD ∅).keys.isEmpty) &&
    t.evidenceObjectUploads = 0 && t.evidenceUploadPayloadBytes = 0 && t.peakDiskUsedBytes = 0

def addCounterMap (dst src : Option CounterMap) : Option CounterMap :=
  (src.getD ∅).entries.foldl (fun dst entry =>
    if entry.2 = 0 then dst
    else insertCounter dst entry.1 (lookupCounter dst entry.1 + entry.2)) dst

def CostMeterTotals.add (t other : CostMeterTotals) : CostMeterTotals where
  maps f := addCounterMap (t.maps f) (other.maps f)
  evidenceObjectUploads := t.evidenceObjectUploads + other.evidenceObjectUploads
  evidenceUploadPayloadBytes := t.evidenceUploadPayloadBytes + other.evidenceUploadPayloadBytes
  peakDiskUsedBytes := max t.peakDiskUsedBytes other.peakDiskUsedBytes

/-! ## §2 — lifetimes -/

inductive CounterLifetime where
  | unknown
  | continued
  | restarted
deriving DecidableEq

def classifyCounterLifetime (previousEpoch currentEpoch : Text) : CounterLifetime :=
  if previousEpoch = [] ∨ currentEpoch = [] then .unknown
  else if previousEpoch = currentEpoch then .continued
  else .restarted

/-- What one value adds to the one on record. -/
def advanceCounter (previous current : UInt64) (lifetime : CounterLifetime) : UInt64 × UInt64 :=
  if lifetime = .restarted then (current, current)
  else if previous ≤ current then (current - previous, current)
  else if lifetime = .unknown then (current, current)
  else (0, previous)

def advanceEntry (previous : Option CounterMap) (lifetime : CounterLifetime)
    (s : Option CounterMap × Option CounterMap) (entry : Sigma fun _ : Text => UInt64) :
    Option CounterMap × Option CounterMap :=
  let base := if lifetime = .restarted then 0 else lookupCounter previous entry.1
  let (delta, advanced) := advanceCounter base entry.2 lifetime
  (if delta = 0 then s.1 else insertCounter s.1 entry.1 delta, insertCounter s.2 entry.1 advanced)

def advanceCounterMap (previous current : Option CounterMap) (lifetime : CounterLifetime) :
    Option CounterMap × Option CounterMap :=
  let next := if lifetime = .restarted then none else previous
  (current.getD ∅).entries.foldl (advanceEntry previous lifetime) (none, next)

/-! ## §3 — a report against the counters on record -/

/-- With a worker its Litestream process is gone too. -/
def ObjectStoreCounters.clearLitestream (c : ObjectStoreCounters) : ObjectStoreCounters :=
  { c with
    litestreamCounterEpoch := []
    maps := fun f => if f.ofLitestream then none else c.maps f }

def ObjectStoreCounters.hasLitestream (c : ObjectStoreCounters) : Bool :=
  (c.maps .litestreamObjectOperations).isSome || (c.maps .litestreamObjectBytes).isSome

def litestreamDelta (next current : ObjectStoreCounters) :
    CostMeterTotals × ObjectStoreCounters :=
  if current.hasLitestream then
    let lifetime := classifyCounterLifetime next.litestreamCounterEpoch
      current.litestreamCounterEpoch
    let advanced f := advanceCounterMap (next.maps f) (current.maps f) lifetime
    ({ maps := fun f => if f.ofLitestream then (advanced f).1 else none },
      { next with
        litestreamCounterEpoch :=
          if current.litestreamCounterEpoch = [] then next.litestreamCounterEpoch
          else current.litestreamCounterEpoch
        maps := fun f => if f.ofLitestream then (advanced f).2 else next.maps f })
  else ({}, next)

def workerDelta (previous current : ObjectStoreCounters) (lifetime : CounterLifetime)
    (s : CostMeterTotals × ObjectStoreCounters) : CostMeterTotals × ObjectStoreCounters :=
  let advanced f := advanceCounterMap (previous.maps f) (current.maps f) lifetime
  let uploads := advanceCounter previous.evidenceObjectUploads current.evidenceObjectUploads
    lifetime
  let payload :=
    advanceCounter previous.evidenceUploadPayloadBytes current.evidenceUploadPayloadBytes lifetime
  ({ s.1 with
      maps := fun f => if f.ofLitestream then s.1.maps f else (advanced f).1
      evidenceObjectUploads := uploads.1
      evidenceUploadPayloadBytes := payload.1 },
    { s.2 with
      objectStoreCounterEpoch := current.objectStoreCounterEpoch
      maps := fun f => if f.ofLitestream then s.2.maps f else (advanced f).2
      evidenceObjectUploads := uploads.2
      evidenceUploadPayloadBytes := payload.2 })

/-- A whole report against the counters on record. -/
def costMeterDelta (previous : Option ObjectStoreCounters) (current : ObjectStoreCounters) :
    CostMeterTotals × ObjectStoreCounters :=
  let previous := previous.getD {}
  let lifetime :=
    classifyCounterLifetime previous.objectStoreCounterEpoch current.objectStoreCounterEpoch
  let next := if lifetime = .restarted then previous.clearLitestream else previous
  let s := litestreamDelta next current
  if current.objectStoreCounterEpoch = [] then s else workerDelta previous current lifetime s

/-! ## §4 — the tables of a worker -/

def hour : Int := 3600 * 1000000000

def truncateHour (t : Int) : Int := t - t % hour

structure MeterState where
  source : Text
  observedAt : Int
  counters : ObjectStoreCounters

structure Bucket where
  bucketStart : Int
  source : Text
  totals : CostMeterTotals := {}
  dbSizeBytes : Int := 0
  dbSizeMaxBytes : Int := 0

structure Tables where
  state : Option MeterState := none
  hourly : List Bucket := []

/-- A call of `RecordCostMeter`: the time and the source it is called with and what it reads of the
runtime. -/
structure Report where
  observedAt : Int
  source : Text
  counters : ObjectStoreCounters
  dataDiskUsedBytes : UInt64 := 0
  dbSizeBytes : Int := 0
  dbTotalSizeBytes : Int := 0

def costMeterDBSize (r : Report) : Int :=
  if 0 < r.dbSizeBytes then r.dbSizeBytes else max r.dbTotalSizeBytes 0

def upsertBucket (hourly : List Bucket) (b : Bucket) : List Bucket :=
  if hourly.any fun old => old.bucketStart = b.bucketStart then
    hourly.map fun old => if old.bucketStart = b.bucketStart then b else old
  else hourly ++ [b]

def Bucket.addReport (b : Bucket) (r : Report) (bucketDelta : CostMeterTotals) : Bucket :=
  let dbSize := costMeterDBSize r
  { b with
    source := r.source
    totals := b.totals.add bucketDelta
    dbSizeBytes := if 0 < dbSize then dbSize else b.dbSizeBytes
    dbSizeMaxBytes := if 0 < dbSize then max b.dbSizeMaxBytes dbSize else b.dbSizeMaxBytes }

def storedBucket (hourly : List Bucket) (start : Int) (source : Text) : Bucket :=
  (hourly.find? fun b => b.bucketStart = start).getD { bucketStart := start, source }

def recordBucket (hourly : List Bucket) (r : Report) (delta : CostMeterTotals) : List Bucket :=
  let bucketDelta := { delta with peakDiskUsedBytes := r.dataDiskUsedBytes }
  if !bucketDelta.isZero || 0 < costMeterDBSize r then
    let start := truncateHour r.observedAt
    let old := storedBucket hourly start r.source
    let new := old.addReport r bucketDelta
    if !delta.isZero || new.totals.peakDiskUsedBytes != old.totals.peakDiskUsedBytes ||
        new.dbSizeBytes != old.dbSizeBytes ||
        (hourly.all fun b => b.bucketStart ≠ start) then
      upsertBucket hourly new
    else hourly
  else hourly

def Tables.stale (t : Tables) (r : Report) : Bool :=
  t.state.any fun state => r.observedAt < state.observedAt

/-- One report, with the state and the hourly totals of its worker. -/
def recordCostMeter (t : Tables) (r : Report) : Tables × CostMeterTotals :=
  if t.stale r then (t, {})
  else
    let (delta, next) := costMeterDelta (t.state.map (·.counters)) r.counters
    ({ state := some ⟨r.source, r.observedAt, next⟩, hourly := recordBucket t.hourly r delta },
      delta)

/-! ## §5 — the report by source -/

def addToSource (report : List (Text × CostMeterTotals)) (b : Bucket) :
    List (Text × CostMeterTotals) :=
  if report.any fun entry => entry.1 = b.source then
    report.map fun entry => if entry.1 = b.source then (entry.1, entry.2.add b.totals) else entry
  else report ++ [(b.source, CostMeterTotals.add {} b.totals)]

def costMeterWindowEnd (stop : Int) : Int :=
  if truncateHour stop = stop then stop else truncateHour stop + hour

/-- `CostMeter` on the rows of one worker; without a source all sources, without an end all later
hours. -/
def costMeter (t : Tables) (source : Text) (since : Int) (stop : Option Int) :
    List (Text × CostMeterTotals) :=
  let rows := t.hourly.filter fun b =>
    truncateHour since ≤ b.bucketStart &&
      (stop.all fun stop => b.bucketStart < costMeterWindowEnd stop) &&
      (source = [] || b.source = source)
  ((rows.insertionSort fun a b => a.bucketStart ≤ b.bucketStart).foldl addToSource []).insertionSort
    fun a b => a.1 ≤ b.1

/-! ## §6 — a sequence of calls -/

structure Run where
  tables : Tables := {}
  deltas : List CostMeterTotals := []
  accepted : List Report := []

def Run.record (s : Run) (r : Report) : Run where
  tables := (recordCostMeter s.tables r).1
  deltas := s.deltas ++ [(recordCostMeter s.tables r).2]
  accepted := if s.tables.stale r then s.accepted else s.accepted ++ [r]

def run (reports : List Report) : Run := reports.foldl Run.record {}

end LitestreamSoak.Store.CostMeter
