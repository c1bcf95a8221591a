import Mathlib

/-!
# Worker — no progress under disk pressure

A monitor looks at every snapshot of the runtime. It reports a stretch of snapshots under disk
pressure without replication progress, unless Litestream has signalled the full disk itself; after
such a signal it frees a reserve of disk space and reports whether Litestream recovered.
-/

namespace LitestreamSoak.Worker.NoProgress

open List

/-! ## §1 — one snapshot -/

structure Config where
  window : Int
  recoveryReserve : Int
  recoveryTimeout : Int

def defaultMinutes : Int := 10 * 60 * 1000000000

def Config.diskFullNoProgressWindow (c : Config) : Int :=
  if 0 < c.window then c.window else defaultMinutes

def Config.diskFullRecoveryTimeout (c : Config) : Int :=
  if 0 < c.recoveryTimeout then c.recoveryTimeout else defaultMinutes

/-- A snapshot of the runtime, with the answers the monitor gets while it looks at it. -/
structure Observation where
  now : Int
  diskTotalBytes : Nat := 1
  diskUsedPercent : Rat := 100
  diskAvailableBytes : Nat := 0
  dbTotalSizeBytes : Int := 0
  dbSizeBytes : Int := 0
  lagMax : Nat := 1
  dbTXID : Nat
  replicatedTXID : Nat
  metricPresent : Bool := false
  diskFull : Bool := false
  logSignal : Bool := false
  /-- `freeDiskFullRecoveryReserve` returns no error -/
  freed : Bool := false
  /-- the process when the reserve is freed, and when it is compared; 0 for none -/
  startPID : Nat := 0
  pid : Nat := 0

def snapshotUnderDiskPressure (o : Observation) : Bool :=
  if o.diskTotalBytes = 0 then false
  else if 95 ≤ o.diskUsedPercent then true
  else
    let estimated := if o.dbTotalSizeBytes ≤ 0 then o.dbSizeBytes else o.dbTotalSizeBytes
    if estimated ≤ 0 then false else (o.diskAvailableBytes : Int) < estimated

/-- Disk pressure, and the replica is behind. -/
def Observation.stalled (o : Observation) : Bool :=
  snapshotUnderDiskPressure o && o.lagMax != 0 && o.replicatedTXID < o.dbTXID

/-- Litestream reports the full disk in its metric and its log. -/
def Observation.signal (o : Observation) : Bool := o.metricPresent && o.diskFull && o.logSignal

inductive Event where
  | noProgress
  | recovered
  | recoveryFailed
deriving DecidableEq

structure State where
  activeSince : Option Int := none
  lastDBTXID : Nat := 0
  lastReplicaTXID : Nat := 0
  reported : Bool := false
  signalObserved : Bool := false
  recoveryStartedAt : Option Int := none
  recoveryStartTXID : Nat := 0
  recoveryStartPID : Nat := 0
  recovered : Bool := false
  recoveryFailed : Bool := false

/-- `markDiskFullSignal`, where the snapshot has the signal. -/
def State.note (s : State) (o : Observation) : State :=
  { s with signalObserved := s.signalObserved || o.signal }

def State.free (s : State) (o : Observation) : State :=
  { s with recoveryStartedAt := some o.now, recoveryStartTXID := o.replicatedTXID,
           recoveryStartPID := o.startPID }

def observeDiskFullRecovery (cfg : Config) (s : State) (o : Observation) : State × Option Event :=
  if !s.signalObserved then (s, none)
  else
    let s := if s.recoveryStartedAt = none && 0 < cfg.recoveryReserve && o.freed then s.free o
      else s
    match s.recoveryStartedAt with
    | none => (s, none)
    | some startedAt =>
      if s.recovered || s.recoveryFailed then (s, none)
      else
        let sameProcess := s.recoveryStartPID = 0 || o.pid = 0 || o.pid = s.recoveryStartPID
        let metricCleared := o.metricPresent && !o.diskFull
        let timeout := cfg.diskFullRecoveryTimeout
        if metricCleared && s.recoveryStartTXID < o.replicatedTXID && sameProcess then
          ({ s with recovered := true }, some .recovered)
        else if !sameProcess || (0 < timeout && timeout ≤ o.now - startedAt) then
          ({ s with recoveryFailed := true }, some .recoveryFailed)
        else (s, none)

def State.seen (s : State) (o : Observation) : State :=
  { s with lastDBTXID := o.dbTXID, lastReplicaTXID := o.replicatedTXID }

/-- `observeDiskPressureNoProgress` after the recovery; the event is the one it reports. -/
def observeStretch (window : Int) (s : State) (o : Observation) : State × Option Event :=
  if !o.stalled then
    -- `resetDiskPressureNoProgressWindow`
    ({ s with activeSince := none, lastDBTXID := 0, lastReplicaTXID := 0, reported := false }, none)
  else
    match s.activeSince with
    | none => ({ s.seen o with activeSince := some o.now }, none)
    | some since =>
      if s.lastReplicaTXID < o.replicatedTXID || o.dbTXID < s.lastDBTXID then
        ({ s.seen o with activeSince := some o.now, reported := false }, none)
      else if o.now - since < window then (s.seen o, none)
      else if s.signalObserved then (s.seen o, none)
      else ({ s.seen o with reported := true }, if s.reported then none else some .noProgress)

/-- One snapshot: the recovery first, then the stretch. -/
def observe (cfg : Config) (s : State) (o : Observation) : State × Option Event :=
  let window := cfg.diskFullNoProgressWindow
  if window ≤ 0 then ({}, none)
  else
    match observeDiskFullRecovery cfg (s.note o) o with
    | (s, some event) => (s, some event)
    | (s, none) => observeStretch window s o

/-- The state after the snapshots, newest first. -/
def run (cfg : Config) : List Observation → State
  | [] => {}
  | o :: os => (observe cfg (run cfg os) o).1

/-- What the monitor reports of a snapshot. -/
def event (cfg : Config) (os : List Observation) (o : Observation) : Option Event :=
  (observe cfg (run cfg os) o).2

/-! ## §2 — what a snapshot changes -/

variable {cfg : Config} {s : State} {o : Observation}

def State.sameProcess (s : State) (o : Observation) : Bool :=
  s.recoveryStartPID = 0 || o.pid = 0 || o.pid = s.recoveryStartPID

def State.decided (s : State) : Bool := s.recovered || s.recoveryFailed

/-- How the recovery answers: with nothing, or with its one report. -/
inductive Decides (s : State) (o : Observation) : State × Option Event → Prop where
  | open : Decides s o (s, none)
  | recovered (hsignal : s.signalObserved = true) (hfree : s.decided = false)
      (hstarted : s.recoveryStartedAt.isSome = true)
      (hcleared : o.metricPresent = true ∧ o.diskFull = false)
      (htxid : s.recoveryStartTXID < o.replicatedTXID) (hsame : s.sameProcess o = true) :
      Decides s o ({ s with recovered := true }, some .recovered)
  | failed (hsignal : s.signalObserved = true) (hfree : s.decided = false) :
      Decides s o ({ s with recoveryFailed := true }, some .recoveryFailed)

inductive Frees (s : State) (o : Observation) : State → Prop where
  | kept : Frees s o s
  | freed (hsignal : s.signalObserved = true) (hnone : s.recoveryStartedAt = none)
      (hfreed : o.freed = true) : Frees s o (s.free o)

theorem recovery_cases (cfg : Config) (s : State) (o : Observation) :
    ∃ s', Frees s o s' ∧ Decides s' o (observeDiskFullRecovery cfg s o) := by
  unfold observeDiskFullRecovery
  by_cases hsignal : s.signalObserved = true
  · rw [if_neg (by simp [hsignal])]
    have hfrees : Frees s o (if s.recoveryStartedAt = none && 0 < cfg.recoveryReserve && o.freed
        then s.free o else s) := by
      split_ifs with hfree
      · simp only [Bool.and_eq_true, decide_eq_true_eq] at hfree
        exact .freed hsignal hfree.1.1 hfree.2
      · exact .kept
    refine ⟨_, hfrees, ?_⟩
    dsimp only
    generalize (if s.recoveryStartedAt = none && 0 < cfg.recoveryReserve && o.freed then s.free o
      else s) = s' at hfrees ⊢
    have hsignal : s'.signalObserved = true := by cases hfrees <;> exact hsignal
    split
    · exact .open
    · next startedAt hstarted =>
      split_ifs with hdecided hrecovered hfailed
      · exact .open
      · simp only [Bool.and_eq_true, Bool.not_eq_true', decide_eq_true_eq] at hrecovered
        exact .recovered hsignal (Bool.eq_false_iff.mpr hdecided)
          (by rw [hstarted]; rfl) hrecovered.1.1
          hrecovered.1.2 hrecovered.2
      · exact .failed hsignal (Bool.eq_false_iff.mpr hdecided)
      · exact .open
  · rw [if_pos (by simpa using hsignal)]
    exact ⟨s, .kept, .open⟩

inductive Stretches (window : Int) (s : State) (o : Observation) : State × Option Event → Prop where
  | ends (h : o.stalled = false) : Stretches window s o
      ({ s with activeSince := none, lastDBTXID := 0, lastReplicaTXID := 0, reported := false },
        none)
  | begins (h : o.stalled = true) (reported : Bool)
      (hs : s.activeSince = none ∨ s.lastReplicaTXID < o.replicatedTXID ∨ o.dbTXID < s.lastDBTXID) :
      Stretches window s o ({ s.seen o with activeSince := some o.now, reported }, none)
  | goesOn (h : o.stalled = true) {since : Int} (hsince : s.activeSince = some since)
      (hs : ¬ s.lastReplicaTXID < o.replicatedTXID ∧ ¬ o.dbTXID < s.lastDBTXID) :
      Stretches window s o (s.seen o, none)
  | lasts (h : o.stalled = true) {since : Int} (hsince : s.activeSince = some since)
      (hs : ¬ s.lastReplicaTXID < o.replicatedTXID ∧ ¬ o.dbTXID < s.lastDBTXID)
      (hlong : window ≤ o.now - since) (hsignal : s.signalObserved = false) :
      Stretches window s o ({ s.seen o with reported := true },
        if s.reported then none else some .noProgress)

theorem observeStretch_cases (window : Int) (s : State) (o : Observation) :
    Stretches window s o (observeStretch window s o) := by
  unfold observeStretch
  cases hstalled : o.stalled with
  | false => exact .ends hstalled
  | true =>
    rw [if_neg (by simp)]
    split
    · next hnone => exact .begins hstalled s.reported (.inl hnone)
    · next since hsince =>
      by_cases hmoved : s.lastReplicaTXID < o.replicatedTXID ∨ o.dbTXID < s.lastDBTXID
      · rw [if_pos (by simpa using hmoved)]
        exact .begins hstalled false (.inr hmoved)
      · rw [if_neg (by simpa using hmoved)]
        have hs := not_or.mp hmoved
        split
        · exact .goesOn hstalled hsince hs
        · next hlong =>
          split
          · exact .goesOn hstalled hsince hs
          · next hsignal =>
            exact .lasts hstalled hsince hs (not_lt.mp hlong) (Bool.eq_false_iff.mpr hsignal)

/-- **One snapshot.** The signal is noted, the reserve may be freed, and then either the recovery
reports or the stretch is watched. -/
theorem observe_cases {r : State} {e : Option Event} (h : observe cfg s o = (r, e)) :
    ∃ s', Frees (s.note o) o s' ∧ ((∃ e', Decides s' o (r, some e') ∧ e = some e') ∨
      Stretches cfg.diskFullNoProgressWindow s' o (r, e)) := by
  have hwindow : ¬ cfg.diskFullNoProgressWindow ≤ 0 := by
    unfold Config.diskFullNoProgressWindow defaultMinutes
    split_ifs <;> omega
  obtain ⟨s', hfrees, hdecides⟩ := recovery_cases cfg (s.note o) o
  refine ⟨s', hfrees, ?_⟩
  unfold observe at h
  rw [if_neg hwindow] at h
  cases hresult : observeDiskFullRecovery cfg (s.note o) o with
  | mk r' e' =>
    rw [hresult] at hdecides h
    cases e' with
    | none =>
      cases hdecides
      exact .inr (h ▸ observeStretch_cases _ _ _)
    | some e' =>
      cases h
      exact .inl ⟨e', hdecides, rfl⟩

/-! ## §3 — the recovery -/

/-- The snapshot at which the reserve is freed. -/
def FreesReserve (cfg : Config) (before : List Observation) (x : Observation) : Prop :=
  (run cfg before).recoveryStartedAt = none ∧ x.freed = true ∧
    (run cfg (x :: before)).recoveryStartedAt = some x.now

theorem exists_freesReserve (os : List Observation)
    (h : (run cfg os).recoveryStartedAt.isSome = true) :
    ∃ later x before, os = later ++ x :: before ∧ FreesReserve cfg before x ∧
      (run cfg os).recoveryStartTXID = x.replicatedTXID ∧
      (run cfg os).recoveryStartPID = x.startPID := by
  induction os with
  | nil => exact absurd h Bool.false_ne_true
  | cons o os ih =>
    cases hobserve : observe cfg (run cfg os) o with
    | mk r e =>
      have hrun : run cfg (o :: os) = r := congrArg Prod.fst hobserve
      obtain ⟨s', hfrees, hresult⟩ := observe_cases hobserve
      have hsame : r.recoveryStartedAt = s'.recoveryStartedAt ∧
          r.recoveryStartTXID = s'.recoveryStartTXID ∧
            r.recoveryStartPID = s'.recoveryStartPID := by
        rcases hresult with ⟨e', hdecides, -⟩ | hstretch
        · cases hdecides <;> exact ⟨rfl, rfl, rfl⟩
        · cases hstretch <;> exact ⟨rfl, rfl, rfl⟩
      rw [hrun, hsame.1] at h
      rw [hrun, hsame.2.1, hsame.2.2]
      cases hfrees with
      | kept => grind [State.note]
      | freed _ hnone hfreed =>
        exact ⟨[], o, os, rfl, ⟨hnone, hfreed, hrun ▸ hsame.1⟩, rfl, rfl⟩

theorem Frees.decided {s' : State} (h : Frees (s.note o) o s') : s'.decided = s.decided := by
  cases h <;> rfl

/-- The one report about the recovery. -/
def Verdict (e : Option Event) : Prop := e = some .recovered ∨ e = some .recoveryFailed

theorem observe_decided (cfg : Config) (s : State) (o : Observation) :
    (Verdict (observe cfg s o).2 → s.decided = false) ∧
    (Verdict (observe cfg s o).2 ∨ s.decided = true → (observe cfg s o).1.decided = true) := by
  cases hobserve : observe cfg s o with
  | mk r e =>
    obtain ⟨s', hfrees, ⟨e', hdecides, -⟩ | hstretch⟩ := observe_cases hobserve
    · rw [← hfrees.decided]
      cases hdecides with
      | recovered _ hfree => exact ⟨fun _ => hfree, fun _ => rfl⟩
      | failed _ hfree => exact ⟨fun _ => hfree, fun _ => Bool.or_true _⟩
    · rw [← hfrees.decided]
      cases hstretch with
      | lasts =>
        cases hreported : s'.reported <;> simp [Verdict, hreported, State.seen, State.decided]
      | _ => simp [Verdict, State.seen, State.decided]

theorem decided_run {os : List Observation} (cfg : Config) (later : List Observation)
    (h : Verdict (event cfg os o)) : (run cfg (later ++ o :: os)).decided = true := by
  induction later with
  | nil => exact (observe_decided cfg _ o).2 (.inl h)
  | cons x later ih => exact (observe_decided cfg _ x).2 (.inr ih)

/-! ## §4 — the stretch -/

/-- No transaction was replicated from the first snapshot to the second, and the database went
on. -/
def Continues (a b : Observation) : Prop :=
  ¬ a.replicatedTXID < b.replicatedTXID ∧ ¬ b.dbTXID < a.dbTXID

/-- **An unbroken stretch**, newest first: every snapshot is stalled and continues the one
before. -/
def Unbroken : List Observation → Prop
  | [] => True
  | [o] => o.stalled = true
  | o :: o' :: os => o.stalled = true ∧ Continues o' o ∧ Unbroken (o' :: os)

/-- The history ends with a stretch that began at `since` and is now at these txids. -/
def EndsWith (os : List Observation) (since : Int) (dbTXID replicaTXID : Nat) : Prop :=
  ∃ newest stretch, newest :: stretch <+: os ∧ Unbroken (newest :: stretch) ∧
    (∃ first ∈ (newest :: stretch).getLast?, first.now = since) ∧
    dbTXID = newest.dbTXID ∧ replicaTXID = newest.replicatedTXID

theorem EndsWith.goesOn {os : List Observation} {since : Int}
    (h : EndsWith os since s.lastDBTXID s.lastReplicaTXID) (ho : o.stalled = true)
    (hs : ¬ s.lastReplicaTXID < o.replicatedTXID ∧ ¬ o.dbTXID < s.lastDBTXID) :
    EndsWith (o :: os) since o.dbTXID o.replicatedTXID := by
  obtain ⟨newest, stretch, hsub, hunbroken, hfirst, hdb, hreplica⟩ := h
  rw [hdb, hreplica] at hs
  exact ⟨o, newest :: stretch, cons_prefix_cons.mpr ⟨rfl, hsub⟩, ⟨ho, hs, hunbroken⟩, hfirst,
    rfl, rfl⟩

theorem Frees.eq_note {s' : State} (h : Frees (s.note o) o s')
    (hsignal : s'.signalObserved = false) :
    s' = s.note o ∧ s.signalObserved = false ∧ o.signal = false := by
  cases h with
  | kept => exact ⟨rfl, Bool.or_eq_false_iff.mp hsignal⟩
  | freed htrue => exact absurd (htrue.symm.trans hsignal) (by simp)

theorem watched_run {os : List Observation} (h : (run cfg os).signalObserved = false) :
    (∀ x ∈ os, x.signal = false) ∧ ∀ since ∈ (run cfg os).activeSince,
      EndsWith os since (run cfg os).lastDBTXID (run cfg os).lastReplicaTXID := by
  induction os with
  | nil => exact ⟨fun _ hx => absurd hx not_mem_nil, fun _ hsince => absurd hsince (by simp [run])⟩
  | cons o os ih =>
    cases hobserve : observe cfg (run cfg os) o with
    | mk r e =>
      have hrun : run cfg (o :: os) = r := congrArg Prod.fst hobserve
      rw [hrun] at h ⊢
      obtain ⟨s', hfrees, ⟨e', hdecides, -⟩ | hstretch⟩ := observe_cases hobserve
      · cases hdecides with
        | recovered hsignal => exact absurd (hsignal.symm.trans h) (by simp)
        | failed hsignal => exact absurd (hsignal.symm.trans h) (by simp)
      · have hquiet : s'.signalObserved = false := by cases hstretch <;> exact h
        obtain ⟨rfl, hbefore, ho⟩ := hfrees.eq_note hquiet
        obtain ⟨hsignals, hends⟩ := ih hbefore
        refine ⟨forall_mem_cons.mpr ⟨ho, hsignals⟩, ?_⟩
        cases hstretch with
        | ends => exact fun _ hsince => absurd hsince (by simp)
        | begins hstalled =>
          intro since hsince
          cases hsince
          exact ⟨o, [], cons_prefix_cons.mpr ⟨rfl, nil_prefix⟩, hstalled, ⟨o, rfl, rfl⟩, rfl, rfl⟩
        | goesOn hstalled _ hs => exact fun since hsince => (hends since hsince).goesOn hstalled hs
        | lasts hstalled _ hs => exact fun since hsince => (hends since hsince).goesOn hstalled hs

/-- The stretch is not reported again. -/
def Held (s : State) (a : Observation) : Prop :=
  s.signalObserved = true ∨ (s.reported = true ∧ s.activeSince.isSome = true ∧
    s.lastDBTXID = a.dbTXID ∧ s.lastReplicaTXID = a.replicatedTXID)

theorem Held.step {a : Observation} (h : Held s a) (ho : o.stalled = true) (hcont : Continues a o) :
    Held (observe cfg s o).1 o ∧ (observe cfg s o).2 ≠ some .noProgress := by
  cases hobserve : observe cfg s o with
  | mk r e =>
    obtain ⟨s', hfrees, ⟨e', hdecides, rfl⟩ | hstretch⟩ := observe_cases hobserve
    · cases hdecides with
      | recovered hsignal => exact ⟨.inl hsignal, by simp⟩
      | failed hsignal => exact ⟨.inl hsignal, by simp⟩
    · have h' : Held s' a := by
        cases hfrees with
        | kept => exact h.imp_left fun hsignal => by simp [State.note, hsignal]
        | freed hsignal => exact .inl hsignal
      cases hstretch with
      | ends hstalled => exact absurd (hstalled.symm.trans ho) (by simp)
      | begins _ _ hs =>
        refine ⟨.inl (h'.resolve_right ?_), by simp⟩
        rintro ⟨-, hsome, hdb, hreplica⟩
        rw [hdb, hreplica] at hs
        rcases hs with hnone | hmoved | hmoved
        · simp [hnone] at hsome
        · exact hcont.1 hmoved
        · exact hcont.2 hmoved
      | goesOn => exact ⟨h'.imp_right fun ⟨hreported, hsome, _⟩ => ⟨hreported, hsome, rfl, rfl⟩,
          by simp⟩
      | lasts _ _ _ _ hsignal => grind [Held, State.seen]

theorem held_run {os later : List Observation} (h : Held (run cfg (o :: os)) o)
    {x : Observation} (hunbroken : Unbroken (x :: later ++ [o])) :
    event cfg (later ++ o :: os) x ≠ some .noProgress ∧
      Held (run cfg (x :: later ++ o :: os)) x := by
  induction later generalizing x with
  | nil => exact (h.step hunbroken.1 hunbroken.2.1).symm
  | cons y later ih => exact ((ih hunbroken.2.2).2.step hunbroken.1 hunbroken.2.1).symm

/-! ## §5 — the result -/

/-- **The monitor.** A stretch is reported only if it is unbroken and has lasted for the window, and
no signal was ever seen; it is not reported again while it is unbroken. The recovery reports once in
a run; a recovery is reported only after the reserve was freed, with the metric there and cleared,
more replicated than when the reserve was freed, and by the same process as far as is known. -/
theorem disk_full_monitor (cfg : Config) (os : List Observation) (o : Observation) :
    (event cfg os o = some .noProgress →
      (∃ stretch, stretch <+: o :: os ∧ Unbroken stretch ∧
        ∃ first ∈ stretch.getLast?, cfg.diskFullNoProgressWindow ≤ o.now - first.now) ∧
      (∀ x ∈ o :: os, x.signal = false) ∧
      ∀ later x, Unbroken (x :: later ++ [o]) → event cfg (later ++ o :: os) x ≠ some .noProgress) ∧
    (Verdict (event cfg os o) → ∀ later x, ¬ Verdict (event cfg (later ++ o :: os) x)) ∧
    (event cfg os o = some .recovered → o.metricPresent = true ∧ o.diskFull = false ∧
      ∃ later x before, os = later ++ x :: before ∧ FreesReserve cfg before x ∧
        x.replicatedTXID < o.replicatedTXID ∧
        (x.startPID = 0 ∨ o.pid = 0 ∨ o.pid = x.startPID)) := by
  cases hobserve : observe cfg (run cfg os) o with
  | mk r e =>
    have hevent : event cfg os o = e := congrArg Prod.snd hobserve
    have hrun : run cfg (o :: os) = r := congrArg Prod.fst hobserve
    refine ⟨fun hreport => ?_, fun hverdict later x hagain => ?_, fun hreport => ?_⟩
    · rw [hevent] at hreport
      obtain ⟨s', hfrees, ⟨e', hdecides, hsome⟩ | hstretch⟩ := observe_cases hobserve
      · cases hsome.symm.trans hreport
        cases hdecides
      · cases hstretch with
        | lasts hstalled hsince hs hlong hsignal =>
          obtain ⟨rfl, hbefore, ho⟩ := hfrees.eq_note hsignal
          obtain ⟨hsignals, hends⟩ := watched_run hbefore
          obtain ⟨newest, stretch, hsub, hunbroken, ⟨first, hfirst, rfl⟩, -⟩ :=
            (hends _ hsince).goesOn hstalled hs
          refine ⟨⟨_, hsub, hunbroken, first, hfirst, hlong⟩, forall_mem_cons.mpr ⟨ho, hsignals⟩,
            fun later x hx => ?_⟩
          have hheld : Held (run cfg (o :: os)) o := by
            rw [hrun]
            exact .inr ⟨rfl, by simp [State.seen, hsince], rfl, rfl⟩
          exact (held_run hheld hx).1
        | _ => cases hreport
    · have hfree := (observe_decided cfg _ x).1 hagain
      rw [decided_run cfg later hverdict] at hfree
      cases hfree
    · rw [hevent] at hreport
      obtain ⟨s', hfrees, ⟨e', hdecides, hsome⟩ | hstretch⟩ := observe_cases hobserve
      · cases hsome.symm.trans hreport
        cases hdecides with
        | recovered _ _ hstarted hcleared htxid hsame =>
          refine ⟨hcleared.1, hcleared.2, ?_⟩
          cases hfrees with
          | kept =>
            obtain ⟨later, x, before, hos, hx, htx, hpid⟩ := exists_freesReserve os hstarted
            refine ⟨later, x, before, hos, hx, ?_, ?_⟩
            · rw [← htx]
              exact htxid
            · simp only [State.sameProcess, Bool.or_eq_true, decide_eq_true_eq, or_assoc] at hsame
              rw [← hpid]
              exact hsame
          | freed => exact absurd htxid (lt_irrefl _)
      · cases hstretch with
        | lasts => split at hreport <;> cases hreport
        | _ => cases hreport

/-- A snapshot under disk pressure at which the replica is five transactions behind. -/
def stalledAt (minute : Int) : Observation :=
  { now := 60000000000 * minute, dbTXID := 9, replicatedTXID := 4 }

/-- Litestream signals the full disk, and the reserve is freed. -/
def signalledAt (minute : Int) : Observation :=
  { stalledAt minute with
    metricPresent := true, diskFull := true, logSignal := true, freed := true, startPID := 7 }

/-- The same process has cleared its metric and caught up. -/
def caughtUpAt (minute : Int) : Observation :=
  { stalledAt minute with replicatedTXID := 9, metricPresent := true, pid := 7 }

/-- Ten minutes without progress are reported, once; a recovery is reported, and nothing about it
after that. -/
theorem disk_full_monitor_reports :
    event ⟨0, 1, 0⟩ [stalledAt 5, stalledAt 0] (stalledAt 10) = some .noProgress ∧
    event ⟨0, 1, 0⟩ [stalledAt 10, stalledAt 5, stalledAt 0] (stalledAt 15) = none ∧
    event ⟨0, 1, 0⟩ [signalledAt 5, stalledAt 0] (caughtUpAt 10) = some .recovered ∧
    ∀ later x, ¬ Verdict
      (event ⟨0, 1, 0⟩ (later ++ caughtUpAt 10 :: [signalledAt 5, stalledAt 0]) x) := by
  have hrecovered : event ⟨0, 1, 0⟩ [signalledAt 5, stalledAt 0] (caughtUpAt 10) =
      some .recovered := by decide +kernel
  refine ⟨by decide +kernel, by decide +kernel, hrecovered, ?_⟩
  exact (disk_full_monitor _ _ _).2.1 (.inl hrecovered)

end LitestreamSoak.Worker.NoProgress
