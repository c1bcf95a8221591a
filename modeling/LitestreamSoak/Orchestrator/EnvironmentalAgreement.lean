import LitestreamSoak.Orchestrator.EnvironmentalStreaks

/-!
# Orchestrator — do the three environmental walkers agree?

A worker's verifications arrive one by one. For each failure the ingest guard decides whether it is
weather of the object store; later `environmentalVerificationIDs` and
`escalatedEnvironmentalStatIDs` decide the same from the stored rows.

All three count the same streaks, but they classify a row in different ways: the guard goes by the
classification the report was stored with, the first walker by what a reader gets of it, the second
by the error message alone. The main theorem, `walkers_agree_iff`, says how far the three
classifications may differ.
-/

namespace LitestreamSoak.Orchestrator.EnvironmentalAgreement

open Lib Reporting List Option
open Store.Verifications
open Orchestrator.VerificationReport
open Orchestrator.Reports
open Orchestrator.EnvironmentalStreaks

/-! ## §1 — a history as ingest stores it -/

/-- A report, the run that was expected when it arrived, and the id its row gets if it is a
verification. -/
structure Arrival where
  id : Nat
  expected : Store.Workers.WorkerIdentity := {}
  received : Received

structure Stored where
  row : Row
  environmental : Bool
deriving DecidableEq

def verificationsOf (stored : List Stored) : List Verification :=
  stored.map fun s => s.row.toVerification

def arrive (settings : Settings) (stored : List Stored) (a : Arrival) : List Stored :=
  match a.received.report with
  | .verification p =>
    match received a.received.now p with
    | none => stored
    | some p =>
      match environmental settings.environmental (verificationsOf stored) p with
      | none => stored
      | some env =>
        stored ++ [{
          row := { toVerification := verificationRow settings a.expected p, id := a.id }
          environmental := env }]
  | _ => stored

def arriveAll (settings : Settings) (arrivals : List Arrival) : List Stored :=
  arrivals.foldl (arrive settings) []

section Handlers

variable {settings : Settings}

/-- **One arrival** stores what the handler stores. -/
theorem verificationsOf_arrive {stored : List Stored} {s : Reports.State} (a : Arrival)
    (h : s.verifications = verificationsOf stored) :
    (handle settings a.expected s a.received).verifications =
      verificationsOf (arrive settings stored a) := by
  obtain ⟨id, expected, now, report⟩ := a
  cases report with
  | heartbeat p => grind [handleHeartbeat, handle, arrive]
  | event p =>
    show (handleWorkerEvent settings expected _ p s).verifications = verificationsOf stored
    rw [handleWorkerEvent, ← h]
    dsimp only
    split_ifs <;> rfl
  | verification p =>
    show (handleVerification settings expected ⟨now, .verification p⟩ p s).verifications = _
    rw [handleVerification, arrive]
    dsimp only
    cases received now p with
    | none => exact h
    -- a report that is recorded adds its row to both
    | some q => grind [verificationsOf, recordVerification]

/-- **A run of the handlers** from an empty table stores the rows of `arriveAll`. -/
theorem verifications_foldl_handle (arrivals : List Arrival) (w : Option Store.Workers.Worker) :
    (arrivals.foldl (fun s a => handle settings a.expected s a.received)
      { worker := w }).verifications = verificationsOf (arriveAll settings arrivals) := by
  induction arrivals using reverseRecOn with
  | nil => rfl
  | append_singleton arrivals a ih =>
    rw [foldl_append, arriveAll, foldl_append]
    exact verificationsOf_arrive a ih

end Handlers

/-! ## §2 — what the guard decided -/

section Guard

variable {policy : EnvironmentalFailurePolicy}

def ingestedTransient (policy : EnvironmentalFailurePolicy) (v : Verification) : Bool :=
  !v.passed && !v.inconclusive &&
    v.classification.any (isTransientObjectStoreFailure policy)

theorem ingestedTransient_verificationRow (settings : Settings)
    (expected : Store.Workers.WorkerIdentity) (p : VerificationPayload) :
    ingestedTransient policy (verificationRow settings expected p) =
      (p.failed && p.failureClassification.any (isTransientObjectStoreFailure policy)) := by
  show (!p.passed && !(verificationStatusAborted p.status || verificationStatusPending p.status) &&
    _) = _
  rw [VerificationPayload.failed, Bool.not_or, ← Bool.and_assoc]
  rfl

theorem environmentalStreak_eq {count total : Nat} {rows : List Row}
    (h : environmentalStreak policy count (rows.map Row.toVerification) = some total) :
    total = count + rowStreak policy classifyVerification rows := by
  induction rows generalizing count with
  | nil => exact (some.inj h).symm
  | cons v rows ih =>
    rw [map_cons, environmentalStreak] at h
    cases hinc : v.inconclusive with
    | true =>
      rw [hinc, if_pos rfl] at h
      rw [rowStreak_cons_inconclusive rows hinc]
      exact ih h
    | false =>
      rw [hinc, if_neg Bool.false_ne_true] at h
      cases hfailed : v.failed with
      | false =>
        rw [hfailed, Bool.not_false, if_pos rfl] at h
        rw [rowStreak_cons_other rows hinc (by simp [transientFailure, hfailed])]
        exact (some.inj h).symm
      | true =>
        rw [hfailed, Bool.not_true, if_neg Bool.false_ne_true] at h
        obtain ⟨c, hc, h⟩ := bind_eq_some_iff.mp h
        cases hweather : isTransientObjectStoreFailure policy c with
        | false =>
          rw [hweather, Bool.not_false, if_pos rfl] at h
          rw [rowStreak_cons_other rows hinc (by simp [transientFailure, hc, hweather])]
          exact (some.inj h).symm
        | true =>
          rw [hweather, Bool.not_true, if_neg Bool.false_ne_true] at h
          rw [rowStreak_cons_transient rows (by simp [transientFailure, hfailed, hc, hweather]),
            ih h]
          omega

/-- **The guard** finds a failure environmental when it is transient and does not take the streak
over the threshold. -/
theorem environmental_eq {rows : List Row} {p : VerificationPayload} {env : Bool}
    (hrows : Increasing rows) (hfits : rows.length ≤ historyLimit policy)
    (h : environmental policy (rows.map Row.toVerification) p = some env) :
    env = true ↔ p.failed = true ∧
      p.failureClassification.any (isTransientObjectStoreFailure policy) = true ∧
      rowStreak policy classifyVerification rows.reverse + 1 ≤ policy.consecutive := by
  have hlisted : listVerifications (rows.map Row.toVerification) (historyLimit policy) =
      rows.reverse.map Row.toVerification := by
    rw [listVerifications, newestFirst_of_increasing (pairwise_map.mpr hrows),
      ← map_reverse, take_of_length_le (by simpa using hfits)]
  rw [environmental] at h
  split at h
  · next c hfailed hc =>
    rw [environmentalWithoutEscalation, hlisted] at h
    rw [hfailed, hc]
    cases hweather : isTransientObjectStoreFailure policy c with
    | false => grind
    | true =>
      rw [hweather, Bool.not_true, if_neg Bool.false_ne_true] at h
      obtain ⟨total, htotal, rfl⟩ := map_eq_some_iff.mp h
      rw [environmentalStreak_eq htotal]
      simp [hweather, Nat.add_comm]
  · next hother =>
    obtain rfl := some.inj h
    constructor
    · nofun
    · rintro ⟨hfailed, hany, -⟩
      obtain ⟨c, hc, -⟩ := (Option.any_eq_true _ _).mp hany
      exact absurd hc (hother c hfailed)

end Guard

def rowsOf (stored : List Stored) : List Row := stored.map Stored.row

def Judged (policy : EnvironmentalFailurePolicy) (stored : List Stored) : Prop :=
  ∀ i s, stored[i]? = some s → (s.environmental = true ↔
    ingestedTransient policy s.row.toVerification = true ∧
      rowStreak policy classifyVerification ((rowsOf stored).take i).reverse + 1 ≤
        policy.consecutive)

section Run

variable {settings : Settings}

theorem verificationsOf_eq (stored : List Stored) :
    verificationsOf stored = (rowsOf stored).map Row.toVerification := by
  rw [verificationsOf, rowsOf, List.map_map]
  rfl

theorem arrive_cases (settings : Settings) (stored : List Stored) (a : Arrival) :
    arrive settings stored a = stored ∨
      ∃ p env, environmental settings.environmental (verificationsOf stored) p = some env ∧
        arrive settings stored a = stored ++ [{
          row := { toVerification := verificationRow settings a.expected p, id := a.id }
          environmental := env }] := by
  rw [arrive]
  split
  · grind
  · exact Or.inl rfl

/-- **In every history** that fits its listing, the guard judged each row as `Judged` says. -/
theorem judged_arriveAll (arrivals : List Arrival)
    (hrows : Increasing (rowsOf (arriveAll settings arrivals)))
    (hfits : (arriveAll settings arrivals).length ≤ historyLimit settings.environmental + 1) :
    Judged settings.environmental (arriveAll settings arrivals) := by
  induction arrivals using reverseRecOn with
  | nil => nofun
  | append_singleton arrivals a ih =>
    have hstep : arriveAll settings (arrivals ++ [a]) =
        arrive settings (arriveAll settings arrivals) a := by
      rw [arriveAll, foldl_append]
      rfl
    rw [hstep] at hrows hfits ⊢
    rcases arrive_cases settings (arriveAll settings arrivals) a with hsame |
      ⟨p, env, henv, hmore⟩
    · rw [hsame] at hrows hfits ⊢
      exact ih hrows hfits
    · rw [hmore] at hrows hfits ⊢
      rw [length_append, length_singleton] at hfits
      have hprev : Increasing (rowsOf (arriveAll settings arrivals)) := by
        rw [rowsOf, map_append] at hrows
        exact (pairwise_append.mp hrows).1
      have hlength : (rowsOf (arriveAll settings arrivals)).length ≤
          historyLimit settings.environmental := by
        rw [rowsOf, length_map]
        omega
      intro i s hs
      rw [rowsOf, map_append]
      by_cases hi : i < (arriveAll settings arrivals).length
      · -- an earlier row: its own past is what it was
        rw [getElem?_append_left hi] at hs
        rw [take_append_of_le_length (by rw [length_map]; omega)]
        exact ih hprev (by omega) i s hs
      · -- the row that has just arrived: its past is the whole history
        rw [getElem?_append_right (by omega)] at hs
        have hlast : i = ((arriveAll settings arrivals).map Stored.row).length := by
          have hshort := (List.getElem?_eq_some_iff.mp hs).1
          rw [length_singleton] at hshort
          rw [length_map]
          omega
        rw [show i - (arriveAll settings arrivals).length = 0 by
          rw [hlast, length_map, Nat.sub_self]] at hs
        cases hs
        rw [verificationsOf_eq] at henv
        rw [hlast, take_left]
        show env = true ↔ _
        rw [environmental_eq hprev hlength henv, ← and_assoc, ← Bool.and_eq_true,
          ← ingestedTransient_verificationRow settings a.expected p]
        rfl

end Run

/-! ## §3 — agreement -/

/-- The last checks up to a row are transient failures, one more of them than may be forgiven. -/
def Escalates (policy : EnvironmentalFailurePolicy)
    (classify : Verification → Option FailureClassification) (rows : List Row) : Prop :=
  ∃ recent, recent <:+ counted (fun v : Row => v.inconclusive) rows ∧
    recent.length = policy.consecutive + 1 ∧
    ∀ v ∈ recent, transientFailure policy classify v.toVerification = true

/-- **The walkers agree**: both later ones return, and each transient failure is unescalated for the
one exactly when the guard let it pass, and exactly when the other does not list it. -/
def WalkersAgree (policy : EnvironmentalFailurePolicy) (stored : List Stored)
    (verifications stats : List Row) : Prop :=
  ∃ environmental escalated,
    environmentalVerificationIDs policy verifications = some environmental ∧
    escalatedEnvironmentalStatIDs policy stats = some escalated ∧
    ∀ s ∈ stored, transientFailure policy classifyVerification s.row.toVerification = true →
      (s.row.id ∈ environmental ↔ s.environmental = true) ∧
      (s.row.id ∈ environmental ↔ s.row.id ∉ escalated)

/-- How far the three classifications of a row may differ. -/
structure Consistent (policy : EnvironmentalFailurePolicy) (rows stats : List Row) : Prop where
  /-- No message makes the classifier panic. -/
  classified : ∀ stat ∈ stats, stat.failed = true →
    (classifyFailureMessage stat.toVerification).isSome = true
  /-- A failure that is transient for a reader was so for the guard, where it is not escalated. -/
  ingested : ∀ i v, rows[i]? = some v →
    transientFailure policy classifyVerification v.toVerification = true →
      ingestedTransient policy v.toVerification = true ∨
        Escalates policy classifyVerification (rows.take (i + 1))
  /-- What is escalated by the stored classifications is so by the messages, and the reverse. -/
  counted : ∀ i v, rows[i]? = some v →
    transientFailure policy classifyVerification v.toVerification = true →
      (Escalates policy classifyVerification (rows.take (i + 1)) ↔
        Escalates policy classifyFailureMessage (rows.take (i + 1)))

section Agreement

variable {policy : EnvironmentalFailurePolicy} {rows : List Row}
  {classify : Verification → Option FailureClassification}

theorem lt_rowStreak_iff (i : Nat) :
    policy.consecutive < rowStreak policy classify (rows.take (i + 1)).reverse ↔
      Escalates policy classify (rows.take (i + 1)) :=
  lt_streak_reverse_iff

theorem mem_streakIDs_iff {lists : Nat → Bool} {ids : List Nat} {i : Nat} {v : Row}
    (hids : (rows.map Row.id).Nodup) (h : streakIDs policy classify lists 0 rows = some ids)
    (hv : rows[i]? = some v) :
    v.id ∈ ids ↔ transientFailure policy classify v.toVerification = true ∧
      lists (rowStreak policy classify (rows.take (i + 1)).reverse) = true := by
  have hplace : ∀ {j w}, rows[j]? = some w → w.id = v.id → j = i := by
    intro j w hw hid
    have hj := (List.getElem?_eq_some_iff.mp hw).1
    apply (getElem?_inj (by rwa [length_map]) hids).mp
    rw [getElem?_map, getElem?_map, hw, hv]
    exact congrArg some hid
  rw [mem_streakIDs [] h]
  constructor
  · grind
  · grind

theorem rowStreak_take_succ {i : Nat} {v : Row} (hv : rows[i]? = some v)
    (h : transientFailure policy classify v.toVerification = true) :
    rowStreak policy classify (rows.take (i + 1)).reverse =
      rowStreak policy classify (rows.take i).reverse + 1 := by
  rw [take_add_one, hv, toList_some, reverse_append, reverse_singleton,
    singleton_append, rowStreak_cons_transient _ h]

theorem Escalates.transient {i : Nat} {v : Row} (hv : rows[i]? = some v)
    (hfailed : v.failed = true) (h : Escalates policy classify (rows.take (i + 1))) :
    transientFailure policy classify v.toVerification = true := by
  by_contra hother
  rw [← lt_rowStreak_iff, take_add_one, hv, toList_some, reverse_append,
    reverse_singleton, singleton_append,
    rowStreak_cons_other _ (inconclusive_of_failed hfailed) (by simpa using hother)] at h
  exact Nat.not_lt_zero _ h

theorem classifyVerification_isSome {v : Verification}
    (h : (classifyFailureMessage v).isSome = true) : (classifyVerification v).isSome = true := by
  rw [classifyVerification]
  split
  · split
    · rfl
    · exact h
  · exact h

theorem workerIDs_isSome_iff {walk : Text → Option (List Nat)} {workers : List Text} :
    (workerIDs walk workers).isSome = true ↔ ∀ w ∈ workers, (walk w).isSome = true := by
  induction workers with
  | nil => simp [workerIDs]
  | cons w workers ih =>
    rw [workerIDs, forall_mem_cons, ← ih]
    cases walk w <;> simp

theorem mem_workerIDs {walk : Text → Option (List Nat)} {workers : List Text} {ids : List Nat}
    {id : Nat} (h : workerIDs walk workers = some ids) :
    id ∈ ids ↔ ∃ w ∈ workers, ∃ l, walk w = some l ∧ id ∈ l := by
  induction workers generalizing ids with
  | nil =>
    cases h
    simp
  | cons w workers ih =>
    obtain ⟨l, hl, h⟩ := bind_eq_some_iff.mp h
    obtain ⟨rest, hrest, rfl⟩ := map_eq_some_iff.mp h
    rw [mem_append, ih hrest]
    simp [hl]

theorem escalatedEnvironmentalStatIDs_isSome_iff {stats : List Row} :
    (escalatedEnvironmentalStatIDs policy stats).isSome = true ↔
      ∀ stat ∈ stats, stat.failed = true →
        (classifyFailureMessage stat.toVerification).isSome = true := by
  rw [escalatedEnvironmentalStatIDs, workerIDs_isSome_iff]
  simp only [streakIDs_isSome_iff, oldestFirst, mem_insertionSort, mem_filter,
    mem_dedup, List.mem_map, decide_eq_true_eq]
  constructor
  · intro h stat hstat
    exact h _ ⟨stat, hstat, rfl⟩ stat ⟨hstat, rfl⟩
  · intro h worker _ stat hstat
    exact h stat hstat.1

theorem mem_escalatedEnvironmentalStatIDs {stats : List Row} {worker : Text} {ids : List Nat}
    {i : Nat} {v : Row} (hids : (stats.map Row.id).Nodup)
    (hstats : (stats.filter (·.run.workerID = worker)).Perm rows) (hrows : Increasing rows)
    (h : escalatedEnvironmentalStatIDs policy stats = some ids) (hv : rows[i]? = some v) :
    v.id ∈ ids ↔ transientFailure policy classifyFailureMessage v.toVerification = true ∧
      Escalates policy classifyFailureMessage (rows.take (i + 1)) := by
  have hmem : v ∈ stats ∧ v.run.workerID = worker := by
    have hrow := hstats.symm.subset (mem_of_getElem? hv)
    rwa [mem_filter, decide_eq_true_eq] at hrow
  have hrowIDs : (rows.map Row.id).Nodup :=
    (hstats.map Row.id).nodup_iff.mp (hids.sublist (filter_sublist.map Row.id))
  rw [← lt_rowStreak_iff, mem_workerIDs h]
  constructor
  · rintro ⟨other, -, l, hl, hlisted⟩
    -- the row that is listed under this id is the row itself
    obtain ⟨j, w, hw, hid, -⟩ := (mem_streakIDs [] hl).mp hlisted
    have hother : w ∈ stats ∧ w.run.workerID = other := by
      have hrow := mem_of_getElem? hw
      rwa [oldestFirst, mem_insertionSort, mem_filter, decide_eq_true_eq] at hrow
    grind [inj_on_of_nodup_map, oldestFirst_eq, mem_streakIDs_iff]
  · intro hlisted
    have hworker : worker ∈ (stats.map (·.run.workerID)).dedup := by
      rw [mem_dedup]
      exact List.mem_map.mpr ⟨v, hmem⟩
    have hsome := workerIDs_isSome_iff.mp (isSome_of_mem h) worker hworker
    obtain ⟨l, hl⟩ := isSome_iff_exists.mp hsome
    grind [oldestFirst_eq, mem_streakIDs_iff]

end Agreement

/-- **The three walkers agree** on every transient failure of a history, for every policy and every
history that ingest stored with increasing start times and that fits the rows each walker fetches,
exactly when the three classifications of its rows are consistent. -/
theorem walkers_agree_iff (settings : Settings) (arrivals : List Arrival)
    (verifications stats : List Row)
    (hstart : Increasing (rowsOf (arriveAll settings arrivals)))
    (hfits : (arriveAll settings arrivals).length ≤ historyLimit settings.environmental + 1)
    (hverifications : verifications.Perm (rowsOf (arriveAll settings arrivals)))
    (hids : (stats.map Row.id).Nodup)
    (hstats : (stats.filter (·.run.workerID = settings.workerID)).Perm
      (rowsOf (arriveAll settings arrivals))) :
    WalkersAgree settings.environmental (arriveAll settings arrivals) verifications stats ↔
      Consistent settings.environmental (rowsOf (arriveAll settings arrivals)) stats := by
  have hjudged := judged_arriveAll arrivals hstart hfits
  generalize arriveAll settings arrivals = stored at *
  have hrowIDs : ((rowsOf stored).map Row.id).Nodup :=
    (hstats.map Row.id).nodup_iff.mp (hids.sublist (filter_sublist.map Row.id))
  have hwalk : environmentalVerificationIDs settings.environmental verifications =
      streakIDs settings.environmental classifyVerification
        (· ≤ settings.environmental.consecutive) 0 (rowsOf stored) := by
    rw [environmentalVerificationIDs, oldestFirst_eq hverifications hstart]
  -- what the three say about one transient failure
  have hrow : ∀ {environmental escalated : List Nat} {i : Nat} {s : Stored},
      environmentalVerificationIDs settings.environmental verifications = some environmental →
      escalatedEnvironmentalStatIDs settings.environmental stats = some escalated →
      stored[i]? = some s →
      transientFailure settings.environmental classifyVerification s.row.toVerification = true →
      (((s.row.id ∈ environmental ↔ s.environmental = true) ∧
        (s.row.id ∈ environmental ↔ s.row.id ∉ escalated)) ↔
      (ingestedTransient settings.environmental s.row.toVerification = true ∨
        Escalates settings.environmental classifyVerification ((rowsOf stored).take (i + 1))) ∧
      (Escalates settings.environmental classifyVerification ((rowsOf stored).take (i + 1)) ↔
        Escalates settings.environmental classifyFailureMessage
          ((rowsOf stored).take (i + 1)))) := by
    intro environmental escalated i s henv hesc hs htransient
    have hv : (rowsOf stored)[i]? = some s.row := by rw [rowsOf, getElem?_map, hs]; rfl
    rw [hwalk] at henv
    have hfailed := failed_of_transient htransient
    rw [mem_streakIDs_iff hrowIDs henv hv,
      mem_escalatedEnvironmentalStatIDs hids hstats hstart hesc hv,
      hjudged i s hs, ← rowStreak_take_succ hv htransient, decide_eq_true_eq, ← not_lt,
      lt_rowStreak_iff]
    have hmessage : Escalates settings.environmental classifyFailureMessage
        ((rowsOf stored).take (i + 1)) →
        transientFailure settings.environmental classifyFailureMessage s.row.toVerification =
          true := fun h => h.transient hv hfailed
    tauto
  constructor
  · rintro ⟨environmental, escalated, henv, hesc, hagree⟩
    have hplace : ∀ i v, (rowsOf stored)[i]? = some v →
        ∃ s : Stored, stored[i]? = some s ∧ s.row = v :=
      fun i v hv => map_eq_some_iff.mp (by rwa [rowsOf, getElem?_map] at hv)
    refine ⟨escalatedEnvironmentalStatIDs_isSome_iff.mp (isSome_of_mem hesc), ?_, ?_⟩
    · intro i v hv htransient
      obtain ⟨s, hs, rfl⟩ := hplace i v hv
      exact ((hrow henv hesc hs htransient).mp
        (hagree s (mem_of_getElem? hs) htransient)).1
    · intro i v hv htransient
      obtain ⟨s, hs, rfl⟩ := hplace i v hv
      exact ((hrow henv hesc hs htransient).mp
        (hagree s (mem_of_getElem? hs) htransient)).2
  · intro h
    obtain ⟨escalated, hesc⟩ := isSome_iff_exists.mp
      (escalatedEnvironmentalStatIDs_isSome_iff.mpr h.classified)
    have hsome : (environmentalVerificationIDs settings.environmental verifications).isSome := by
      rw [hwalk, streakIDs_isSome_iff]
      intro v hv hfailed
      have hstat := (mem_filter.mp (hstats.symm.subset hv)).1
      exact classifyVerification_isSome (h.classified v hstat hfailed)
    obtain ⟨environmental, henv⟩ := isSome_iff_exists.mp hsome
    refine ⟨environmental, escalated, henv, hesc, fun s hs htransient => ?_⟩
    obtain ⟨i, hi⟩ := getElem?_of_mem hs
    have hv : (rowsOf stored)[i]? = some s.row := by rw [rowsOf, getElem?_map, hi]; rfl
    exact (hrow henv hesc hi htransient).mpr
      ⟨h.ingested i s.row hv htransient, h.counted i s.row hv htransient⟩

def sampleSettings : Settings :=
  { profileHash := id, storedInWindow := fun _ => false, windowMarker := fun _ => false
    storedInWindow_nil := rfl, workerID := text "worker"
    environmental := { bucket := text "b", escalateAfterConsecutive := 1 } }

/-- A slowdown of the object store whose message does not name the bucket; the worker adds the one
of its configuration. -/
def slowdown (bucket : String) : FailureClassification :=
  { stage := stageRestore, signature := Utf8.encode (text "s")
    objectStore := some { apiCode := text "slowdown", bucket := text bucket } }

def slowdownReport (id : Nat) (bucket : String) : Arrival :=
  let payload : VerificationPayload :=
    { startedAt := id, errorMessage := text "api_code=slowdown"
      failureClassification := some (slowdown bucket) }
  { id := id, received := { now := id, report := .verification payload } }

def slowdownRow (id : Nat) (bucket : String) : Row :=
  { run := { workerID := text "worker", name := text "worker" }, startedAt := id
    errorMessage := text "api_code=slowdown", classification := some (slowdown bucket), id := id }

/-- Two slowdowns of the configured bucket: the guard forgives the first, and all three walkers
escalate the second. -/
theorem walkers_agree_second_escalated :
    arriveAll sampleSettings [slowdownReport 1 "b", slowdownReport 2 "b"] =
      [{ row := slowdownRow 1 "b", environmental := true },
        { row := slowdownRow 2 "b", environmental := false }] ∧
    WalkersAgree sampleSettings.environmental
      [{ row := slowdownRow 1 "b", environmental := true },
        { row := slowdownRow 2 "b", environmental := false }]
      [slowdownRow 1 "b", slowdownRow 2 "b"] [slowdownRow 2 "b", slowdownRow 1 "b"] := by
  have harrive : arriveAll sampleSettings [slowdownReport 1 "b", slowdownReport 2 "b"] =
      [{ row := slowdownRow 1 "b", environmental := true },
        { row := slowdownRow 2 "b", environmental := false }] := by decide +kernel
  have hagree := walkers_agree_iff sampleSettings [slowdownReport 1 "b", slowdownReport 2 "b"]
    [slowdownRow 1 "b", slowdownRow 2 "b"] [slowdownRow 2 "b", slowdownRow 1 "b"]
  rw [harrive] at hagree
  refine ⟨harrive, (hagree (by decide +kernel) (by decide +kernel) (.refl _) (by decide +kernel)
    (.swap ..)).mpr ⟨by decide +kernel, fun i v hv _ => .inl ?_, fun i v hv _ => ?_⟩⟩
  · have hall : ∀ v ∈ [slowdownRow 1 "b", slowdownRow 2 "b"],
        ingestedTransient sampleSettings.environmental v.toVerification = true := by decide +kernel
    exact hall v (mem_of_getElem? hv)
  · have hi : i < 2 := (List.getElem?_eq_some_iff.mp hv).1
    rw [← lt_rowStreak_iff, ← lt_rowStreak_iff]
    interval_cases i <;> decide +kernel

/-- **The walkers disagree.** A worker is moved to the configured bucket between two slowdowns. The
first one is no weather for whoever reads the stored classification, so the second one is the first
of its streak; the walker that goes by the messages counts both and lists the second. -/
theorem walkers_disagree_moved :
    arriveAll sampleSettings [slowdownReport 1 "x", slowdownReport 2 "b"] =
      [{ row := slowdownRow 1 "x", environmental := false },
        { row := slowdownRow 2 "b", environmental := true }] ∧
    Increasing [slowdownRow 1 "x", slowdownRow 2 "b"] ∧
    ¬ WalkersAgree sampleSettings.environmental
      [{ row := slowdownRow 1 "x", environmental := false },
        { row := slowdownRow 2 "b", environmental := true }]
      [slowdownRow 1 "x", slowdownRow 2 "b"] [slowdownRow 1 "x", slowdownRow 2 "b"] := by
  refine ⟨by decide +kernel, by decide +kernel, ?_⟩
  rintro ⟨environmental, escalated, henv, hesc, hagree⟩
  have hwalk : environmentalVerificationIDs sampleSettings.environmental
      [slowdownRow 1 "x", slowdownRow 2 "b"] = some [2] := by decide +kernel
  have hstats : escalatedEnvironmentalStatIDs sampleSettings.environmental
      [slowdownRow 1 "x", slowdownRow 2 "b"] = some [2] := by decide +kernel
  cases hwalk.symm.trans henv
  cases hstats.symm.trans hesc
  exact absurd (hagree _ (mem_cons_of_mem _ mem_cons_self) (by decide +kernel)).2
    (by decide)

end LitestreamSoak.Orchestrator.EnvironmentalAgreement
