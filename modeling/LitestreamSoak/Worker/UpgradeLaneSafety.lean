import LitestreamSoak.Worker.UpgradeLane

/-!
# Worker — the upgrade lane never runs the wrong build
-/

namespace LitestreamSoak.Worker.UpgradeLane

open Lib Option

variable {Key : Type}

/-! ## §1 — the invariant -/

variable {new : LaneState Key} {cfg : Config} {s : State Key} {f : LaneState Key} {run : Run Key}

def Ready (cfg : Config) (f : LaneState Key) : Prop :=
  f.phase = .post ∧ (cfg.deleteL9AtSwitch = true → purgeSucceeded f.l9Purge = true)

def RunOK (f : LaneState Key) : Run Key → Prop
  | .between => True
  | .recordTXID read txid => read = f ∧ f.phase = .pre ∧ f.preUpgradeTXID < txid
  | .recordFirstL9 read => read = f

def LaneOK (cfg : Config) (file : Option (LaneState Key)) : Lane Key → Prop
  | .idle => True
  | .initializing _ => file = none
  | .loaded state => file = some state
  | .base run => ∃ f, file = some f ∧ f.phase = .pre ∧ RunOK f run
  | .warmupEnded => ∃ f, file = some f ∧ f.phase = .pre
  | .switching state => ∃ f, file = some f ∧ f.phase = .pre ∧ state = { f with phase := .post }
  | .switched state => file = some state ∧ state.phase = .post
  | .purging state _ => file = some state ∧ state.phase = .post ∧ cfg.deleteL9AtSwitch = true ∧
      purgeSucceeded state.l9Purge = false
  | .recordingPurge state _ => ∃ f record, file = some f ∧ f.phase = .post ∧
      cfg.deleteL9AtSwitch = true ∧ purgeSucceeded f.l9Purge = false ∧
      state = { f with l9Purge := some record } ∧
      purgeSucceeded (some record) = record.succeeded
  | .starting state => file = some state ∧ Ready cfg state
  | .candidate run => ∃ f, file = some f ∧ Ready cfg f ∧ RunOK f run

/-- What the file holds at each point of the lane; the copy in memory is the file wherever the lane
is about to act on it. -/
structure Inv (cfg : Config) (s : State Key) : Prop where
  lane : LaneOK cfg s.file s.lane
  history : s.candidateRan = true → ∃ f, s.file = some f ∧ Ready cfg f

/-- The file only moves forward: it stays, the txid does not decrease, and after the switch the
phase and the txid rest. -/
def Advances (old new : Option (LaneState Key)) : Prop :=
  ∀ f, old = some f → ∃ f', new = some f' ∧ f.preUpgradeTXID ≤ f'.preUpgradeTXID ∧
    (f.phase = .post → f'.phase = .post ∧ f'.preUpgradeTXID = f.preUpgradeTXID)

theorem Advances.refl (file : Option (LaneState Key)) : Advances file file :=
  fun f hf => ⟨f, hf, Nat.le_refl _, fun hpost => ⟨hpost, rfl⟩⟩

theorem Advances.write {old : Option (LaneState Key)} (w : Write)
    (h : Advances old (some new)) : Advances old (w.file old new) := by
  cases w with
  | failedOld => exact .refl old
  | _ => exact h

theorem Inv.history_write (h : Inv cfg s)
    (w : Write) (hnew : ∀ f, s.file = some f → Ready cfg f → Ready cfg new) :
    s.candidateRan = true → ∃ f, w.file s.file new = some f ∧ Ready cfg f := by
  intro hran
  obtain ⟨f, hf, hready⟩ := h.history hran
  cases w with
  | failedOld => exact ⟨f, hf, hready⟩
  | _ => exact ⟨new, rfl, hnew f hf hready⟩

theorem RunOK.content (h : RunOK f run)
    (hcontent : run.content = some new) :
    new.phase = f.phase ∧ new.l9Purge = f.l9Purge ∧ f.preUpgradeTXID ≤ new.preUpgradeTXID ∧
      (f.phase = .post → new.preUpgradeTXID = f.preUpgradeTXID) := by
  cases run with
  | between => cases hcontent
  | recordTXID read txid =>
    obtain ⟨rfl, hpre, hlt⟩ := h
    cases hcontent
    refine ⟨rfl, rfl, Nat.le_of_lt hlt, fun hpost => ?_⟩
    rw [hpre] at hpost
    cases hpost
  | recordFirstL9 read =>
    obtain rfl : read = f := h
    cases hcontent
    exact ⟨rfl, rfl, Nat.le_refl _, fun _ => rfl⟩

theorem RunOK.read {run' : Run Key} {records : LaneState Key → Bool}
    {next : LaneState Key → Run Key} (hnext : records f = true → RunOK f (next f))
    (hread : run.read (some f) records next = some run') : RunOK f run' := by
  cases run with
  | between =>
    obtain rfl : (if records f then next f else .between) = run' := some.inj hread
    split
    · next hrecords => exact hnext hrecords
    · trivial
  | _ => cases hread

/-! ## §2 — the steps -/

variable {s' : State Key}

theorem writeRun_spec
    (h : Inv cfg s) (hf : s.file = some f) (hrun : RunOK f run) (hcontent : run.content = some new)
    (w : Write) :
    (∃ f', w.file s.file new = some f' ∧ f'.phase = f.phase ∧ f'.l9Purge = f.l9Purge) ∧
      (s.candidateRan = true → ∃ f', w.file s.file new = some f' ∧ Ready cfg f') ∧
      Advances s.file (w.file s.file new) := by
  obtain ⟨hphase, hpurge, hle, hrest⟩ := hrun.content hcontent
  refine ⟨?_, h.history_write w fun g hg hready => ?_, Advances.write w fun g hg => ?_⟩
  -- the file is the one before or the new one, which agree in phase and purge
  · grind [Write.file]
  · grind [Ready]
  · grind

theorem writeStep_spec {w : Write} (h : Inv cfg s)
    (hstep : writeStep s w = some s') : Inv cfg s' ∧ Advances s.file s'.file := by
  obtain ⟨file, lane, ran⟩ := s
  have hlane := h.lane
  cases lane with
  | initializing state =>
    cases hstep
    obtain rfl : file = none := hlane
    refine ⟨⟨?_, h.history_write w nofun⟩, nofun⟩
    cases w <;> trivial
  | base run =>
    obtain ⟨new, hcontent, rfl⟩ := map_eq_some_iff.mp hstep
    obtain ⟨f, hf, hpre, hrun⟩ := hlane
    obtain ⟨⟨f', hf', hphase, -⟩, hhistory, hadvances⟩ := writeRun_spec h hf hrun hcontent w
    exact ⟨⟨⟨f', hf', hphase.trans hpre, trivial⟩, hhistory⟩, hadvances⟩
  | candidate run =>
    obtain ⟨new, hcontent, rfl⟩ := map_eq_some_iff.mp hstep
    obtain ⟨f, hf, hready, hrun⟩ := hlane
    obtain ⟨⟨f', hf', hphase, hpurge⟩, hhistory, hadvances⟩ := writeRun_spec h hf hrun hcontent w
    refine ⟨⟨⟨f', hf', ?_, trivial⟩, hhistory⟩, hadvances⟩
    unfold Ready
    rw [hphase, hpurge]
    exact hready
  | switching state =>
    cases hstep
    obtain ⟨f, hf, hpre, rfl⟩ := hlane
    -- the candidate has not run: the file says pre-upgrade
    have hbefore : ∀ g, file = some g → Ready cfg g → False := by
      intro g hg hready
      obtain rfl : f = g := some.inj (hf.symm.trans hg)
      exact absurd (hpre.symm.trans hready.1) nofun
    refine ⟨⟨?_, h.history_write w fun g hg hready => (hbefore g hg hready).elim⟩,
      Advances.write w fun g hg => ?_⟩
    · cases w with
      | ok => exact ⟨rfl, rfl⟩
      | _ => trivial
    · grind
  | recordingPurge state attempt =>
    cases hstep
    obtain ⟨f, record, hf, hpost, hdelete, hfailed, rfl, hrecord⟩ := hlane
    -- the candidate has not run: the file has no successful purge
    have hbefore : ∀ g, file = some g → Ready cfg g → False := by
      intro g hg hready
      obtain rfl : f = g := some.inj (hf.symm.trans hg)
      exact absurd (hfailed.symm.trans (hready.2 hdelete)) Bool.false_ne_true
    refine ⟨⟨?_, h.history_write w fun g hg hready => (hbefore g hg hready).elim⟩,
      Advances.write w fun g hg => ?_⟩
    · cases w with
      | ok =>
        show LaneOK cfg _ (if record.succeeded then _ else if _ then _ else _)
        cases hsucceeded : record.succeeded with
        | true => exact ⟨rfl, hpost, fun _ => hrecord.trans hsucceeded⟩
        | false => grind [LaneOK, Write.file]
      | _ => trivial
    · grind
  | _ => cases hstep

theorem checkStep_spec (h : Inv cfg s)
    (hstep : checkStep cfg s = some s') : Inv cfg s' ∧ s'.file = s.file := by
  obtain ⟨file, lane, ran⟩ := s
  have hlane := h.lane
  cases lane with
  | loaded state =>
    cases hstep
    obtain rfl : file = some state := hlane
    refine ⟨⟨?_, h.history⟩, rfl⟩
    dsimp only
    split
    · trivial
    · split
      · next hpre => exact ⟨state, rfl, hpre, trivial⟩
      · next hpost =>
        refine ⟨rfl, ?_⟩
        cases hphase : state.phase with
        | pre => exact absurd hphase hpost
        | post => rfl
  | switched state =>
    cases hstep
    obtain ⟨rfl, hpost⟩ := hlane
    refine ⟨⟨?_, h.history⟩, rfl⟩
    dsimp only
    split
    · grind [LaneOK]
    · next hclean =>
      refine ⟨rfl, hpost, fun hdelete => ?_⟩
      simpa [hdelete] using hclean
  | _ => cases hstep

/-! ## §3 — the purge record -/

variable [LinearOrder Key]

theorem remaining_of_no_error {replica : Replica Key}
    (h : (purgeReplicaL9 replica).error = none) : (purgeReplicaL9 replica).remainingL9 = 0 := by
  -- every early return of the purge carries an error; the last test is the one on what remains
  grind [purgeReplicaL9]

/-- The record of an attempt counts as successful exactly where the attempt had no error, so what
the lane acts on in memory is what a later start reads. -/
theorem attemptRecord_succeeded (replica : Replica Key) (before : Option (L9Purge Key))
    (attempt : Nat) :
    purgeSucceeded (some (attemptRecord replica before attempt)) =
      (attemptRecord replica before attempt).succeeded := by
  cases herror : (purgeReplicaL9 replica).error with
  | none => simp [purgeSucceeded, attemptRecord, herror, remaining_of_no_error herror]
  | some e => simp [purgeSucceeded, attemptRecord, herror]

/-- **The step lemma**: the invariant is kept and the file moves forward. -/
theorem step_spec {a : Action Key} (h : Inv cfg s)
    (hstep : step cfg s a = some s') : Inv cfg s' ∧ Advances s.file s'.file := by
  have hlane := h.lane
  cases a with
  | write w => exact writeStep_spec h hstep
  | check =>
    obtain ⟨hinv, hfile⟩ := checkStep_spec h hstep
    exact ⟨hinv, hfile ▸ .refl _⟩
  | start now =>
    simp only [step] at hstep
    split at hstep
    · next hfile =>
      cases hstep
      exact ⟨⟨hfile, h.history⟩, .refl _⟩
    · next hfile =>
      cases hstep
      exact ⟨⟨hfile, h.history⟩, .refl _⟩
    · cases hstep
  | readTXID txid =>
    simp only [step] at hstep
    split at hstep
    · next run hbase =>
      obtain ⟨run', hread, rfl⟩ := map_eq_some_iff.mp hstep
      rw [hbase] at hlane
      obtain ⟨f, hf, hpre, -⟩ := hlane
      rw [hf] at hread
      refine ⟨⟨⟨f, hf, hpre, RunOK.read (fun hrecords => ?_) hread⟩, h.history⟩, .refl _⟩
      grind [recordsTXID, RunOK]
    · cases hstep
  | readFirstL9 objects =>
    simp only [step] at hstep
    split at hstep
    · next run hbase =>
      obtain ⟨run', hread, rfl⟩ := map_eq_some_iff.mp hstep
      rw [hbase] at hlane
      obtain ⟨f, hf, hpre, -⟩ := hlane
      rw [hf] at hread
      have hnote : RunOK f (.recordFirstL9 f) := rfl
      exact ⟨⟨⟨f, hf, hpre, RunOK.read (fun _ => hnote) hread⟩, h.history⟩, .refl _⟩
    · next run hcandidate =>
      obtain ⟨run', hread, rfl⟩ := map_eq_some_iff.mp hstep
      rw [hcandidate] at hlane
      obtain ⟨f, hf, hready, -⟩ := hlane
      rw [hf] at hread
      have hnote : RunOK f (.recordFirstL9 f) := rfl
      exact ⟨⟨⟨f, hf, hready, RunOK.read (fun _ => hnote) hread⟩, h.history⟩, .refl _⟩
    · cases hstep
  | endWarmup =>
    simp only [step] at hstep
    split at hstep
    · next hbase =>
      cases hstep
      rw [hbase] at hlane
      obtain ⟨f, hf, hpre, -⟩ := hlane
      exact ⟨⟨⟨f, hf, hpre⟩, h.history⟩, .refl _⟩
    · cases hstep
  | reread =>
    simp only [step] at hstep
    split at hstep
    · next state hended hfile =>
      cases hstep
      rw [hended] at hlane
      obtain ⟨f, hf, hpre⟩ := hlane
      obtain rfl : state = f := some.inj (hfile.symm.trans hf)
      exact ⟨⟨⟨state, hf, hpre, rfl⟩, h.history⟩, .refl _⟩
    · next hended hfile =>
      -- the base ran on a file, and no step removes it
      rw [hended] at hlane
      obtain ⟨f, hf, -⟩ := hlane
      cases hfile.symm.trans hf
    · cases hstep
  | purge replica =>
    simp only [step] at hstep
    split at hstep
    · next state attempt hpurging =>
      cases hstep
      rw [hpurging] at hlane
      obtain ⟨hf, hpost, hdelete, hfailed⟩ := hlane
      have hrecord := attemptRecord_succeeded replica state.l9Purge attempt
      exact ⟨⟨⟨state, _, hf, hpost, hdelete, hfailed, rfl, hrecord⟩, h.history⟩, .refl _⟩
    · cases hstep
  | run =>
    simp only [step] at hstep
    split at hstep
    · next state hstarting =>
      cases hstep
      rw [hstarting] at hlane
      exact ⟨⟨⟨state, hlane.1, hlane.2, trivial⟩, fun _ => ⟨state, hlane.1, hlane.2⟩⟩, .refl _⟩
    · cases hstep
  | crash =>
    cases hstep
    exact ⟨⟨trivial, h.history⟩, .refl _⟩

/-- **The run lemma.** -/
theorem inv_of_reachable (h : (machine cfg).Reachable s) : Inv cfg s := by
  refine h.invariant ?_ ?_
  · rintro s rfl
    exact ⟨trivial, nofun⟩
  · intro s a s' hs _ hstep
    exact (step_spec hs hstep).1

/-! ## §4 — the result -/

/-- **The lane never runs the wrong build.** In every state that starts, crashes, purges and failed
writes can lead to: where the base build runs, the file says pre-upgrade and the candidate has not
run; the candidate starts only on a file that says post-upgrade and, where snapshots are to be
deleted, holds a successful purge; a purge runs only while the candidate has not; and every step
moves the file forward, so that post-upgrade stays and the txid never decreases and rests from then
on. -/
theorem lane_safe (cfg : Config) {s : State Key} (hreach : (machine cfg).Reachable s) :
    (∀ run, s.lane = .base run → s.candidateRan = false ∧ ∃ f, s.file = some f ∧ f.phase = .pre) ∧
    (∀ s', (machine cfg).step s .run = some s' → ∃ f, s.file = some f ∧ f.phase = .post ∧
      (cfg.deleteL9AtSwitch = true → purgeSucceeded f.l9Purge = true)) ∧
    (∀ replica s', (machine cfg).step s (.purge replica) = some s' → s.candidateRan = false) ∧
    ∀ a s', (machine cfg).step s a = some s' → Advances s.file s'.file := by
  have hinv := inv_of_reachable hreach
  have hlane := hinv.lane
  -- a candidate that ran left a file that neither the base nor a purge starts from
  have hfresh : ∀ f, s.file = some f → ¬ Ready cfg f → s.candidateRan = false := by
    intro f hf hnot
    by_contra hran
    obtain ⟨g, hg, hready⟩ := hinv.history (by simpa using hran)
    obtain rfl : f = g := some.inj (hf.symm.trans hg)
    exact hnot hready
  refine ⟨fun run hbase => ?_, fun s' hrun => ?_, fun replica s' hpurge => ?_,
    fun a s' hstep => (step_spec hinv hstep).2⟩
  · rw [hbase] at hlane
    obtain ⟨f, hf, hpre, -⟩ := hlane
    have hnot : ¬ Ready cfg f := fun hready => nomatch hpre.symm.trans hready.1
    exact ⟨hfresh f hf hnot, f, hf, hpre⟩
  · simp only [machine, step] at hrun
    split at hrun
    · next state hstarting =>
      rw [hstarting] at hlane
      exact ⟨state, hlane.1, hlane.2.1, hlane.2.2⟩
    · cases hrun
  · simp only [machine, step] at hpurge
    split at hpurge
    · next state attempt hpurging =>
      rw [hpurging] at hlane
      obtain ⟨hf, -, hdelete, hfailed⟩ := hlane
      exact hfresh state hf fun hready =>
        Bool.false_ne_true (hfailed.symm.trans (hready.2 hdelete))
    · cases hpurge

/-- A lane that dies on the write of the switch, whose content reached the volume, starts again in
the post-upgrade phase, empties the level of snapshots and may run the candidate. -/
theorem lane_safe_restarted :
    let cfg : Config := ⟨[], [], true⟩
    ∃ s : State Nat, (machine cfg).Reachable s ∧ ((machine cfg).step s .run).isSome ∧
      ∃ f, s.file = some f ∧ f.phase = .post ∧
        (cfg.deleteL9AtSwitch = true → purgeSucceeded f.l9Purge = true) := by
  intro cfg
  have hrun : ∃ s : State Nat, (machine cfg).Reachable s ∧ ((machine cfg).step s .run).isSome :=
    let replica : Replica Nat :=
      ⟨false, fun _ => true, fun _ => true, some [9, 4], fun _ => true, some []⟩
    Machine.exists_reaches_of_run (.start rfl)
      [.start 0, .write .ok, .check, .readTXID 5, .write .ok, .endWarmup, .reread,
        .write .failedNew, .start 0, .check, .check, .purge replica, .write .ok]
      (by decide)
  obtain ⟨s, hreach, hsome⟩ := hrun
  obtain ⟨s', hstep⟩ := isSome_iff_exists.mp hsome
  exact ⟨s, hreach, hsome, (lane_safe cfg hreach).2.1 s' hstep⟩

end LitestreamSoak.Worker.UpgradeLane
