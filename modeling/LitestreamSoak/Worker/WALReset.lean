import LitestreamSoak.Lib.Procedure
import LitestreamSoak.Lib.Text

/-!
# Worker — the WAL-reset cycle

The cycle holds a reader, stops Litestream, restarts the WAL several times, starts Litestream again
and validates a restore. It has some twenty exits and four deferred recoveries; this module is the
procedure as it is written, over the answers of everything outside it.

Texts of errors, and what only the summary text reads (durations, the exit text, the file of the
saved position), are left out: an error is the list of sentinel errors it wraps.
-/

namespace LitestreamSoak.Worker.WALReset

open Lib

/-! ## §1 — readings -/

def walHeaderSize : Int := 32

structure Header where
  salt1 : UInt32 := 0
  salt2 : UInt32 := 0
  valid : Bool := false
deriving DecidableEq

structure Generation where
  header : Header := {}
  fileBytes : Int := 0
  frameSize : Int := 0
  committedFrames : Int := 0
  writtenFrames : Int := 0
deriving DecidableEq

def Generation.generationEnd (g : Generation) : Int :=
  walHeaderSize + g.committedFrames * g.frameSize

def Generation.writtenEnd (g : Generation) : Int := walHeaderSize + g.writtenFrames * g.frameSize

def walResetCount (before after : Header) : UInt32 :=
  if !before.valid || !after.valid then 0 else after.salt1 - before.salt1

structure L9 where
  objects : List Text := []
  known : Bool := false
deriving DecidableEq

def L9.changed (l other : L9) : Bool := l.objects != other.objects

structure SaltScan where
  checked : Bool := false
  foreignFrames : Int := 0
  failed : Bool := false
deriving DecidableEq

structure SavedPosition where
  walOffsetEnd : Int
  salt1 : UInt32
  salt2 : UInt32
  found : Bool
deriving DecidableEq

/-! ## §2 — the observation -/

structure Observation where
  signalHeader : Header := {}
  savedHeader : Header := {}
  savedPosition : Int := 0
  savedAtSignal : Int := 0
  savedAtExit : Int := 0
  finalWAL : Generation := {}
  maxGenerationEnd : Int := 0
  maxGenerationWritten : Int := 0
  maxEarlierGenerationWritten : Int := 0
  readerHeldAt : Int := 0
  tail : SaltScan := {}
  resets : UInt32 := 0
  checkpoints : UInt32 := 0
  generations : Int := 0
  burstRows : Int := 0
  downRows : Int := 0
  l9Before : L9 := {}
  l9After : L9 := {}
  syncTXID : UInt64 := 0
  replicatedTXID : UInt64 := 0
  restarted : Bool := false
deriving DecidableEq

inductive Shape where
  | confirmed
  | unverified
  | contradicted
deriving DecidableEq

def Observation.shapeEvidence (o : Observation) : Shape :=
  if o.savedPosition ≤ walHeaderSize then .unverified
  else if !o.finalWAL.header.valid then .unverified
  else if o.savedPosition > o.finalWAL.fileBytes then .contradicted
  else if o.maxGenerationWritten ≥ o.savedPosition then .contradicted
  else if o.maxEarlierGenerationWritten > o.finalWAL.writtenEnd then .contradicted
  else if o.tail.failed then .unverified
  else if !o.tail.checked then .unverified
  else if o.tail.foreignFrames > 0 then .contradicted
  else .confirmed

/-- `snapshotInterference`: the cycle proves nothing unless both listings are known and equal. -/
def Observation.snapshotInterference (o : Observation) : Bool :=
  !o.l9Before.known || !o.l9After.known || o.l9Before.changed o.l9After

/-- A reading of another generation than the last: the one before is an earlier one, if it was
started after the stop. -/
def Observation.enterGeneration (o : Observation) : Observation :=
  { o with
    maxEarlierGenerationWritten :=
      if o.finalWAL.header.valid && walResetCount o.savedHeader o.finalWAL.header > 0 then
        max o.maxEarlierGenerationWritten o.finalWAL.writtenEnd
      else o.maxEarlierGenerationWritten
    generations := o.generations + 1 }

/-- How far the generation of a reading got, if it was started after the stop. -/
def Observation.reach (o : Observation) (wal : Generation) : Observation :=
  if walResetCount o.savedHeader wal.header > 0 then
    { o with
      maxGenerationEnd := max o.maxGenerationEnd wal.generationEnd
      maxGenerationWritten := max o.maxGenerationWritten wal.writtenEnd }
  else o

def Observation.recordGeneration (o : Observation) (lastSalt2 : UInt32) (wal : Generation) :
    Observation :=
  let o := if wal.header.salt2 ≠ lastSalt2 then o.enterGeneration else o
  Observation.reach { o with finalWAL := wal } wal

/-- `recordSavedPosition`: only a position in the generation that was current at the exit. -/
def Observation.recordSavedPosition (o : Observation) (exitWAL : Generation) :
    Option SavedPosition → Observation
  | none => o
  | some p =>
    if p.found && p.salt1 == exitWAL.header.salt1 && p.salt2 == exitWAL.header.salt2 &&
        p.walOffsetEnd > walHeaderSize then
      { o with savedPosition := p.walOffsetEnd }
    else o

/-! ## §3 — errors and answers -/

inductive Sentinel where
  | shapeNotReached
  | litestreamRestart
  | catchUpTimeout
  | unavailable
  | snapshotInterference
  | gateBusy
  | missingPlan
  | latestAdvanced
deriving DecidableEq

/-- An error: the sentinel errors that `errors.Is` finds in it. -/
structure Err where
  wraps : List Sentinel
deriving DecidableEq

def Err.of (sentinel : Sentinel) : Err := ⟨[sentinel]⟩

def Err.inconclusive (e : Err) : Bool :=
  e.wraps.any (· ∈ [.shapeNotReached, .litestreamRestart, .catchUpTimeout, .unavailable,
    .snapshotInterference, .gateBusy])

structure Validation where
  phase : Text := []
  boundary : UInt64 := 0
  pinnedPassed : Bool := false
  latestPassed : Bool := false
deriving DecidableEq

/-- One round of the burst; `wal` is `none` where the WAL could not be read. -/
structure BurstAnswer where
  wal : Option Generation
  held : Bool
  cancelled : Bool
  expired : Bool
  rows : Int
  written : Bool

structure AttemptAnswer where
  rows : Int
  written : Bool
  wal : Option Generation
  slept : Bool

/-- One generation while Litestream is down; the two `cancelled` and `expired` pairs answer for the
checks after a failed restart of the WAL and after a failed burst. -/
structure DownAnswer where
  attempts : Nat → AttemptAnswer
  cancelled : Bool
  expired : Bool
  rows : Int
  written : Bool
  burstCancelled : Bool
  burstExpired : Bool
  wal : Option Generation

structure DrainAnswer where
  paused : Bool
  drained : Bool
  slept : Bool

structure SyncAnswer where
  response : Option (UInt64 × UInt64)
  slept : Bool
  cancelled : Bool

/-- What the outside says at each point it is asked: WAL readings, results, errors, whether a
context is done. Nothing relates one answer to another, so every behaviour is covered. A loop that
only a deadline bounds takes a list of answers, and the deadline is over when the list is; a loop
with a fixed number of rounds takes an answer per round. -/
structure Answers where
  bursts : List BurstAnswer
  l9Before : L9
  signalWAL : Option Generation
  stopped : Bool
  exitWAL : Option Generation
  savedPosition : Option SavedPosition
  released : Bool
  downs : Nat → DownAnswer
  drains : Nat → DrainAnswer
  drainedWAL : Option Generation
  frameSalts : Int → Int → Int → List (UInt32 × UInt32) → Option SaltScan
  started : Bool
  recovered : Bool
  catchUps : List SyncAnswer
  validation : Validation × Option Err
  l9After : L9

/-- The settings of the check. The reader is opened at a positive depth, which is how the cycle
knows that it has one. -/
structure Check where
  readerHoldBytes : Int
  burstBytes : Int
  minResets : UInt32
  targetResets : Nat
  readerHoldBytes_pos : 0 < readerHoldBytes

def walResetRestartAttempts : Nat := 40

def walResetDrainAttempts : Nat := 8

def newWALResetCheck : Check :=
  { readerHoldBytes := 6291456, burstBytes := 12582912, minResets := 3, targetResets := 5
    readerHoldBytes_pos := by decide }

/-! ## §4 — the world -/

inductive Effect where
  | holdReader
  | releaseReader
  | pauseLoad
  | resumeLoad
  | downtime (on : Bool)
  | stop
  | start
deriving DecidableEq

/-- The variable `releaseReader`: it does nothing, or releases once. -/
inductive Reader where
  | none
  | held
  | released
deriving DecidableEq

/-- The observation, the closures the source keeps (the reader's release, the load's resume), and
the list of effects on the outside, newest first. -/
structure World where
  observation : Observation := {}
  lastSalt2 : UInt32 := 0
  validation : Validation := {}
  reader : Reader := .none
  /-- the load is paused and the once-only resume has not been called -/
  paused : Bool := false
  effects : List Effect := []

abbrev Step := Proc World Err

namespace World

def observe (w : World) (f : Observation → Observation) : World :=
  { w with observation := f w.observation }

def record (w : World) (wal : Generation) : World :=
  { w with
    observation := w.observation.recordGeneration w.lastSalt2 wal
    lastSalt2 := wal.header.salt2 }

def effect (w : World) (e : Effect) : World := { w with effects := e :: w.effects }

def release (w : World) : World :=
  match w.reader with
  | .held => { w with reader := .released, effects := .releaseReader :: w.effects }
  | _ => w

def resume (w : World) : World :=
  if w.paused then { w with paused := false, effects := .resumeLoad :: w.effects } else w

end World

/-! ## §5 — the phases -/

def holdReader (c : Check) (wal : Generation) (held : Bool) : Step Unit := do
  let w ← Proc.get
  if wal.header.valid && w.observation.readerHeldAt == 0 &&
    wal.generationEnd ≥ c.readerHoldBytes then
    Proc.require held (Err.of .unavailable)
    Proc.update fun w => { w.effect .holdReader with
      reader := .held
      observation := { w.observation with readerHeldAt := wal.generationEnd } }
  else pure ()

/-- One round of the burst: read the WAL, hold the reader halfway, go on writing until it is
deep. -/
def burstStep (c : Check) (a : BurstAnswer) : Step Bool := do
  let wal ← Proc.expect a.wal (Err.of .unavailable)
  holdReader c wal a.held
  let w ← Proc.get
  if wal.header.valid && w.observation.readerHeldAt != 0 && wal.generationEnd ≥ c.burstBytes then
    pure true
  else
    Proc.require (!a.cancelled) (Err.of .unavailable)
    Proc.require (!a.expired) (Err.of .shapeNotReached)
    Proc.update fun w => w.observe fun o => { o with burstRows := o.burstRows + a.rows }
    Proc.require a.written (Err.of .unavailable)
    pure false

/-- A reading while Litestream is down; an unreadable header says nothing. -/
def recordValid (wal : Generation) : Step Unit :=
  if wal.header.valid then Proc.update fun w => w.record wal else pure ()

/-- One attempt of `restartWAL`: it is over once the WAL has been reset since `before`. -/
def attemptStep (before : Header) (a : AttemptAnswer) : Step Bool := do
  Proc.update fun w => w.observe fun o => { o with downRows := o.downRows + a.rows }
  Proc.require a.written (Err.of .unavailable)
  let wal ← Proc.expect a.wal (Err.of .unavailable)
  recordValid wal
  if wal.header.valid && walResetCount before wal.header > 0 then pure true
  else
    Proc.require a.slept (Err.of .unavailable)
    pure false

def restartWAL (attempts : Nat → AttemptAnswer) : Step Unit := do
  let w ← Proc.get
  let before :=
    if w.observation.finalWAL.header.valid then w.observation.finalWAL.header
    else w.observation.savedHeader
  Proc.loopUntil (attemptStep before) (Proc.fail (Err.of .shapeNotReached))
    ((List.range walResetRestartAttempts).map attempts)

/-- One generation while Litestream is down; true where the loop breaks. -/
def downStep (a : DownAnswer) : Step Bool := do
  let broke ← Proc.catching (do restartWAL a.attempts; pure false) fun e =>
    if a.cancelled then Proc.fail (Err.of .unavailable)
    else if a.expired || e.wraps.contains .shapeNotReached then pure true
    else Proc.fail e
  if broke then pure true
  else
    Proc.update fun w => w.observe fun o => { o with downRows := o.downRows + a.rows }
    if !a.written then
      if a.burstCancelled then Proc.fail (Err.of .unavailable)
      else if a.burstExpired then pure true
      else Proc.fail (Err.of .unavailable)
    else
      let wal ← Proc.expect a.wal (Err.of .unavailable)
      recordValid wal
      pure false

def drainStep (a : DrainAnswer) : Step Bool := do
  Proc.require a.paused (Err.of .unavailable)
  Proc.update fun w => w.effect .pauseLoad
  if a.drained then
    Proc.update fun w => { w with paused := true }
    pure true
  else
    Proc.update fun w => w.effect .resumeLoad
    Proc.require a.slept (Err.of .unavailable)
    pure false

def pauseAndDrain (drains : Nat → DrainAnswer) : Step Unit :=
  Proc.loopUntil drainStep (Proc.fail (Err.of .unavailable))
    ((List.range walResetDrainAttempts).map drains)

def restart (started : Bool) : Step Unit := do
  Proc.update fun w => w.effect .start
  Proc.require started (Err.of .litestreamRestart)
  Proc.update fun w => (w.observe fun o => { o with restarted := true }).effect (.downtime false)

def catchUpStep (a : SyncAnswer) : Step Bool := do
  let caughtUp ← (match a.response with
    | some (txid, replicated) => do
      Proc.update fun w => w.observe fun o =>
        { o with syncTXID := txid, replicatedTXID := replicated }
      pure (txid != 0 && replicated ≥ txid)
    | none => pure false : Step Bool)
  if caughtUp then pure true
  else if a.slept then pure false
  else if a.cancelled then Proc.fail (Err.of .unavailable)
  else Proc.fail (Err.of .catchUpTimeout)

/-! ## §6 — the cycle -/

def scanTail (o : Observation)
    (frameSalts : Int → Int → Int → List (UInt32 × UInt32) → Option SaltScan) : SaltScan :=
  if o.savedPosition ≤ walHeaderSize || !o.finalWAL.header.valid || o.finalWAL.frameSize ≤ 0 then {}
  else
    match frameSalts o.finalWAL.writtenEnd o.savedPosition o.finalWAL.frameSize
      [(o.savedHeader.salt1, o.savedHeader.salt2)] with
    | some scan => scan
    | none => { failed := true }

/-- From the reading just before SIGTERM to the end of the down window. -/
def stopAndReset (c : Check) (env : Answers) : Step Unit := do
  let signalWAL ← Proc.expect env.signalWAL (Err.of .unavailable)
  Proc.update fun w => w.observe fun o =>
    { o with signalHeader := signalWAL.header, savedAtSignal := signalWAL.generationEnd }
  Proc.update fun w => w.effect .stop
  Proc.require env.stopped (Err.of .litestreamRestart)
  let exitWAL ← Proc.expect env.exitWAL (Err.of .unavailable)
  Proc.require exitWAL.header.valid (Err.of .unavailable)
  Proc.update fun w => w.observe fun o =>
    { o with savedHeader := exitWAL.header, savedAtExit := exitWAL.generationEnd }
  Proc.update fun w => w.observe fun o => o.recordSavedPosition exitWAL env.savedPosition
  let w ← Proc.get
  Proc.update World.release
  Proc.require (w.reader == .none || env.released) (Err.of .unavailable)
  Proc.update fun w => { w.observe fun o => { o with generations := 1 } with
    lastSalt2 := exitWAL.header.salt2 }
  Proc.loopUntil downStep (pure ()) ((List.range c.targetResets).map env.downs)

def measure (env : Answers) : Step Unit := do
  let drainedWAL ← Proc.expect env.drainedWAL (Err.of .shapeNotReached)
  Proc.require drainedWAL.header.valid (Err.of .shapeNotReached)
  Proc.update fun w => w.record drainedWAL
  Proc.update fun w => w.observe fun o =>
    let resets := walResetCount o.savedHeader o.finalWAL.header
    { o with resets, checkpoints := resets }
  Proc.update fun w => w.observe fun o => { o with tail := scanTail o env.frameSalts }

def restartAndCatchUp (c : Check) (env : Answers) : Step Unit := do
  restart env.started
  let w ← Proc.get
  Proc.require (c.minResets ≤ w.observation.resets) (Err.of .shapeNotReached)
  Proc.require (w.observation.shapeEvidence == .confirmed) (Err.of .shapeNotReached)
  Proc.loopUntil catchUpStep (Proc.fail (Err.of .catchUpTimeout)) env.catchUps

/-- Validate, list the snapshots again, and judge the listings before the validation. -/
def validate (env : Answers) : Step Unit := do
  Proc.update fun w => { w with validation := env.validation.1 }
  Proc.update fun w => w.observe fun o => { o with l9After := env.l9After }
  let w ← Proc.get
  Proc.require (!w.observation.snapshotInterference) (Err.of .snapshotInterference)
  match env.validation.2 with
  | none => pure ()
  | some e => Proc.fail e

def deferResume (r : Except Err Unit) (w : World) : Except Err Unit × World := (r, w.resume)

/-- The deferred recovery: a start, unless Litestream was restarted. Its error counts only where
there is no other. -/
def deferRestart (recovered : Bool) (r : Except Err Unit) (w : World) : Except Err Unit × World :=
  if w.observation.restarted then (r, w)
  else
    match restart recovered w with
    | (.ok _, w') => (r, w')
    | (.error e, w') => (match r with
        | .ok _ => .error e
        | .error first => .error first, w')

def deferDowntime (r : Except Err Unit) (w : World) : Except Err Unit × World :=
  (r, w.effect (.downtime false))

/-- The deferred release of the reader; its error is only logged. -/
def deferRelease (r : Except Err Unit) (w : World) : Except Err Unit × World := (r, w.release)

def conclude (c : Check) (env : Answers) : Step Unit := do
  pauseAndDrain env.drains
  Proc.deferring deferResume do
    measure env
    restartAndCatchUp c env
    Proc.update World.resume
    validate env

def run (c : Check) (env : Answers) : Step Unit :=
  Proc.deferring deferRelease do
    Proc.loopUntil (burstStep c) (Proc.fail (Err.of .shapeNotReached)) env.bursts
    Proc.update fun w => w.observe fun o => { o with l9Before := env.l9Before }
    Proc.update fun w => w.effect (.downtime true)
    Proc.deferring deferDowntime <| Proc.deferring (deferRestart env.recovered) do
      stopAndReset c env
      conclude c env

inductive Status where
  | passed
  | aborted
  | failed
deriving DecidableEq

structure Result where
  status : Status
  passed : Bool
  syncTXID : UInt64
  boundaryTXID : UInt64
deriving DecidableEq

def walResetResult (w : World) (r : Except Err Unit) : Result :=
  let status :=
    match r with
    | .ok _ => .passed
    | .error e => if e.inconclusive then .aborted else .failed
  { status
    passed := status == .passed
    syncTXID := w.observation.syncTXID
    boundaryTXID := w.validation.boundary }

/-- `cycle`: nothing is reported where the verifier held the gate. The world is what the cycle left
behind. -/
def cycle (c : Check) (gate : Bool) (env : Answers) : Option (Result × World) :=
  if gate then
    match run c env {} with
    | (r, w) => some (walResetResult w r, w)
  else none

end LitestreamSoak.Worker.WALReset
