import LitestreamSoak.Worker.ManyDBVerifier

/-!
# Worker — no written database is lost and no pass is unearned

The invariant of a running process, carried through crashes and starts.
-/

namespace LitestreamSoak.Worker.ManyDB

open Lib List Function Option

variable {Path : Type} [DecidableEq Path]

/-! ## §1 — the rebuilt tracker -/

variable {t : Tracker Path} {p : Path} {paths : List Path}

/-- A tracker as a start builds it: exactly the configured databases, none durable. -/
structure Rebuilt (paths : List Path) (t : Tracker Path) : Prop where
  keys : ∀ p, (t.changed p).isSome ↔ p ∈ paths
  generations : ∀ p c, t.changed p = some c → c.generation ≤ t.changeGeneration
  durable : ∀ p c, t.changed p = some c → c.durable = false

theorem Rebuilt.mark {seen : List Path} (h : Rebuilt seen t) (p : Path) :
    Rebuilt (seen ++ [p]) (t.mark p false) := by
  have hother : ∀ q, q ≠ p → (t.mark p false).changed q = t.changed q := by
    intro q hq
    simp [Tracker.mark, Tracker.set, update_of_ne hq]
  refine ⟨fun q => ?_, fun q c hc => ?_, fun q c hc => ?_⟩ <;> by_cases hqp : q = p
  · simp [hqp, Tracker.mark, Tracker.set]
  · simp [hother q hqp, h.keys q, hqp]
  · subst hqp
    have hgen : t.changeGeneration + 1 = c.generation := by
      simpa [Tracker.mark, Tracker.set] using congrArg (Option.map Change.generation) hc
    exact Nat.le_of_eq hgen.symm
  · exact Nat.le_succ_of_le (h.generations q c (by rwa [hother q hqp] at hc))
  · subst hqp
    cases hold : t.changed q with
    | none =>
      simp only [Tracker.mark, Tracker.set, update_self, hold, some.injEq] at hc
      subst hc
      rfl
    | some c' =>
      have hfalse := h.durable q c' hold
      simp only [Tracker.mark, Tracker.set, update_self, hold, some.injEq] at hc
      subst hc
      simp [hfalse]
  · exact h.durable q c (by rwa [hother q hqp] at hc)

theorem rebuilt_seeded (paths : List Path) : Rebuilt paths (seeded paths) := by
  have hfold : ∀ (rest seen : List Path) (t : Tracker Path), Rebuilt seen t →
      Rebuilt (seen ++ rest) (rest.foldl (fun t p => t.mark p false) t) := by
    intro rest
    induction rest with
    | nil =>
      intro seen t h
      simpa using h
    | cons p rest ih =>
      intro seen t h
      simpa using ih (seen ++ [p]) _ (h.mark p)
  exact hfold paths [] _ ⟨by simp, nofun, nofun⟩

theorem Rebuilt.setWritten (h : Rebuilt paths t) : Rebuilt paths (t.setWritten p) := by
  have hcases : ∀ q c, (t.setWritten p).changed q = some c →
      ∃ c', t.changed q = some c' ∧ c.generation = c'.generation ∧ c.durable = c'.durable := by
    intro q c hc
    by_cases hqp : q = p
    · subst hqp
      obtain ⟨c', hc', rfl⟩ : ∃ c', t.changed q = some c' ∧ { c' with written := true } = c := by
        simpa [Tracker.setWritten, Tracker.set] using hc
      exact ⟨c', hc', rfl, rfl⟩
    · exact ⟨c, by simpa [Tracker.setWritten, Tracker.set, update_of_ne hqp] using hc, rfl, rfl⟩
  refine ⟨fun q => ?_, fun q c hc => ?_, fun q c hc => ?_⟩
  · rw [← h.keys q]
    by_cases hqp : q = p
    · simp [hqp, Tracker.setWritten, Tracker.set]
    · simp [Tracker.setWritten, Tracker.set, update_of_ne hqp]
  · obtain ⟨c', hc', hgen, -⟩ := hcases q c hc
    exact hgen ▸ h.generations q c' hc'
  · grind [Rebuilt.durable]

theorem isWritten_setWritten_of {q : Path} (h : t.isWritten q) : (t.setWritten p).isWritten q := by
  unfold Tracker.isWritten at h ⊢
  by_cases hqp : q = p
  · subst hqp
    cases hc : t.changed q with
    | none => simp [hc] at h
    | some c => simp [Tracker.setWritten, Tracker.set, hc]
  · simpa [Tracker.setWritten, Tracker.set, update_of_ne hqp] using h

theorem isWritten_setWritten (h : (t.changed p).isSome) : (t.setWritten p).isWritten p := by
  obtain ⟨c, hc⟩ := isSome_iff_exists.mp h
  simp [Tracker.isWritten, Tracker.setWritten, Tracker.set, hc]

theorem rebuilt_foldl_setWritten (written : List Path)
    (h : Rebuilt paths t) :
    Rebuilt paths (written.foldl Tracker.setWritten t) ∧
      ∀ p ∈ paths, t.isWritten p ∨ p ∈ written →
        (written.foldl Tracker.setWritten t).isWritten p := by
  induction written generalizing t with
  | nil => exact ⟨h, fun p _ hp => by simpa using hp⟩
  | cons q written ih =>
    obtain ⟨hshape, hwritten⟩ := ih (h.setWritten (p := q))
    refine ⟨hshape, fun p hp hcase => hwritten p hp ?_⟩
    rcases hcase with hbefore | hlisted
    · exact .inl (isWritten_setWritten_of hbefore)
    · rcases mem_cons.mp hlisted with rfl | hrest
      · exact .inl (isWritten_setWritten ((h.keys p).mpr hp))
      · exact .inr hrest

theorem restoreWrittenState_spec (paths : List Path) (onVolume : Path → Bool)
    (content : Content Path) :
    Rebuilt paths (restoreWrittenState paths onVolume content) ∧
      ∀ p ∈ paths, onVolume p = true → (∀ w, content = some w → p ∈ w) →
        (restoreWrittenState paths onVolume content).isWritten p := by
  have hseeded := rebuilt_seeded paths
  cases content with
  | some written =>
    obtain ⟨hshape, hwritten⟩ := rebuilt_foldl_setWritten (written.filter (· ∈ paths)) hseeded
    refine ⟨hshape, fun p hp _ hlisted => hwritten p hp (.inr ?_)⟩
    exact mem_filter.mpr ⟨hlisted written rfl, by simpa using hp⟩
  | none =>
    obtain ⟨hshape, hwritten⟩ := rebuilt_foldl_setWritten paths hseeded
    by_cases hany : paths.any onVolume = true
    · simp only [restoreWrittenState, hany, if_true]
      exact ⟨hshape, fun p hp _ _ => hwritten p hp (.inr hp)⟩
    · simp only [restoreWrittenState, hany]
      refine ⟨hseeded, fun p hp hon _ => absurd ?_ hany⟩
      exact List.any_eq_true.mpr ⟨p, hp, hon⟩

/-! ## §2 — through crashes and starts -/

variable {s : State Path} {v : Volume Path} {s' : State Path} {writers : Nat}

def Owes (paths : List Path) (v : Volume Path) : Prop :=
  ∀ p, v.Uncovered p → p ∈ paths ∧ v.onVolume p = true ∧ v.Listed p

/-- What holds of the volume while no process runs, while the databases are populated, and of volume
and memory while one runs; `step_inv` is the step lemma. -/
def StateInv (paths : List Path) (s : State Path) : Prop :=
  match s.process with
  | .down => Owes paths s.volume
  | .populating todo fresh =>
    Owes paths s.volume ∧ (∀ p ∈ paths, p ∉ todo → s.volume.onVolume p = true) ∧
      -- on a fresh volume a database with a row write has still to be found
      (fresh = true → ∀ p, s.volume.Uncovered p → p ∈ todo)
  | .populated => Owes paths s.volume ∧ ∀ p ∈ paths, s.volume.onVolume p = true
  | .up m => Inv paths s.volume m

omit [DecidableEq Path] in
theorem StateInv.owes (h : StateInv paths s) : Owes paths s.volume := by
  unfold StateInv at h
  split at h
  · exact h
  · exact h.1
  · exact h.1
  · intro p hp
    obtain ⟨hwritten, hlisted⟩ := h.kept.uncovered p hp
    have hmem := h.kept.keys p (Tracker.isSome_of_isWritten hwritten)
    exact ⟨hmem, h.onVolume p hmem, hlisted⟩

theorem populateStep_inv {todo : List Path} {fresh : Bool}
    (ok created : Bool) (h : StateInv paths ⟨v, .populating (p :: todo) fresh⟩) :
    StateInv paths (populateStep v ok created p todo fresh) := by
  obtain ⟨howes, hfound, hfresh⟩ := h
  unfold populateStep
  split
  · grind [StateInv]
  · next hoff =>
    -- nothing was ever written to a database that is not there
    have howes' : ∀ b, Owes paths { v with onVolume := update v.onVolume p b } := by
      intro b q hq
      obtain ⟨hmem, hon, hlisted⟩ := howes q hq
      have hqp : q ≠ p := by
        rintro rfl
        exact hoff hon
      exact ⟨hmem, by simpa [update_of_ne hqp] using hon, hlisted⟩
    cases ok with
    | false => exact howes' _
    | true =>
      refine ⟨howes' _, fun q hq hnot => ?_, fun hf q hq => ?_⟩
      · grind
      · have hqp : q ≠ p := by
          rintro rfl
          exact hoff (howes q hq).2.1
        exact (mem_cons.mp (hfresh hf q hq)).resolve_left hqp

omit [DecidableEq Path] in
theorem recordEmptyStep_inv {fresh : Bool} (ok : Bool)
    (h : StateInv paths ⟨v, .populating [] fresh⟩) :
    StateInv paths (recordEmptyStep v ok fresh) := by
  obtain ⟨howes, hfound, hfresh⟩ := h
  unfold recordEmptyStep
  cases fresh with
  | false => exact ⟨howes, fun p hp => hfound p hp nofun⟩
  | true =>
    -- the empty set is written only where nothing is owed
    have hnothing : ∀ possible, Owes paths { v with possible } :=
      fun _ p hp => absurd (hfresh rfl p hp) nofun
    cases ok with
    | true => exact ⟨hnothing _, fun p hp => hfound p hp nofun⟩
    | false => exact hnothing _

theorem build_inv (writers : Nat) {content : Content Path}
    (howes : Owes paths v) (hfound : ∀ p ∈ paths, v.onVolume p = true)
    (hcontent : content = none ∨ content ∈ v.possible) :
    Inv paths v (newMemory writers (restoreWrittenState paths v.onVolume content)) := by
  obtain ⟨hshape, hwritten⟩ := restoreWrittenState_spec paths v.onVolume content
  generalize restoreWrittenState paths v.onVolume content = t at hshape hwritten ⊢
  have hidle : ∀ (i : Nat) w, (replicate writers (Writer.idle : Writer Path))[i]? = some w →
      w = .idle := fun i w hw => eq_of_mem_replicate (mem_of_getElem? hw)
  refine ⟨⟨fun p hp => (hshape.keys p).mp hp, ?_, ?_, ?_⟩, hfound, ?_, ?_, ?_,
    fun h => (by cases h), fun _ h => (by cases h)⟩
  · intro p g hg
    obtain ⟨c, hc, rfl⟩ := map_eq_some_iff.mp hg
    exact hshape.generations p c hc
  · intro p hp
    obtain ⟨c, hc⟩ := isSome_iff_exists.mp
      (Tracker.isSome_of_isWritten (Tracker.isWritten_of_isDurable hp))
    have hc' : t.changed p = some c := hc
    simp [newMemory, Tracker.isDurable, hc', hshape.durable p c hc'] at hp
  · intro p hp
    obtain ⟨hmem, hon, hlisted⟩ := howes p hp
    refine ⟨hwritten p hmem hon fun w hw => hlisted w ?_, hlisted⟩
    exact hw ▸ hcontent.resolve_left (by simp [hw])
  · intro i w hw
    obtain rfl := hidle i w hw
    exact ⟨fun _ h => (by cases h), fun h => (by cases h), fun _ h => (by cases h),
      fun _ h => (by cases h), fun _ _ h => (by cases h)⟩
  · exact ⟨fun h => (by cases h), fun _ h => (by cases h), fun h => (by cases h),
      fun h => (by cases h),
      fun _ h => (by cases h)⟩
  · grind [Writer.busy, newMemory]

/-- A crash keeps the invariant, whatever the volume settles to. -/
theorem crashStep_inv {settled : Option (Content Path)} (howes : Owes paths v)
    (hstep : crashStep v settled = some s') : StateInv paths s' := by
  cases settled with
  | none =>
    cases hstep
    exact howes
  | some c =>
    simp only [crashStep] at hstep
    split at hstep
    · next hc =>
      cases hstep
      intro p hp
      obtain ⟨hmem, hon, hlisted⟩ := howes p hp
      refine ⟨hmem, hon, fun w hw => hlisted w ?_⟩
      rwa [List.mem_singleton.mp hw]
    · cases hstep

/-- **The step lemma.** -/
theorem step_inv {a : Action Path}
    (h : StateInv paths s) (hstep : step paths writers s a = some s') : StateInv paths s' := by
  obtain ⟨v, process⟩ := s
  unfold step at hstep
  split at hstep
  · cases hstep
    have howes := h.owes
    exact ⟨howes, fun p hp hnot => absurd hp hnot, fun _ p hp => (howes p hp).1⟩
  -- the three steps of a start
  · grind [populateStep_inv]
  · grind [recordEmptyStep_inv]
  · grind [build_inv, StateInv]
  · next hprocess =>
    dsimp only at hprocess
    subst hprocess
    obtain ⟨m', hbegin, rfl⟩ := map_eq_some_iff.mp hstep
    exact beginStep_inv h hbegin
  · next hprocess =>
    dsimp only at hprocess
    subst hprocess
    obtain ⟨⟨v', m'⟩, hbind, rfl⟩ := map_eq_some_iff.mp hstep
    obtain ⟨w, hw, hwriter⟩ := bind_eq_some_iff.mp hbind
    exact writerStep_inv h hw hwriter
  · next hprocess =>
    dsimp only at hprocess
    subst hprocess
    obtain ⟨⟨v', m'⟩, hverifier, rfl⟩ := map_eq_some_iff.mp hstep
    exact verifierStep_inv h hverifier
  · next m hprocess =>
    dsimp only at hprocess
    subst hprocess
    cases hstep
    have hinv : Inv paths v m := h
    exact ⟨hinv.kept, hinv.onVolume, hinv.writers,
      ⟨hinv.verifier.lock, hinv.verifier.stage, hinv.verifier.quiet, hinv.verifier.paused,
        hinv.verifier.passed⟩, hinv.active,
      fun hc => have hold := hinv.cycle hc
        ⟨hold.inFlight, hold.generations, hold.commits, hold.after, hold.begun, hold.passed⟩,
      hinv.unvalidated⟩
  · exact crashStep_inv h.owes hstep
  · cases hstep

/-- **The run lemma.** -/
theorem stateInv_of_reachable (h : (machine paths writers).Reachable s) : StateInv paths s := by
  refine h.invariant ?_ ?_
  · rintro s rfl p hp
    exact absurd hp (Nat.lt_irrefl 0)
  · intro s a s' hs _ hstep
    exact step_inv hs hstep

/-! ## §3 — the written set survives -/

/-- **The rebuilt load has every uncovered write.** In whatever state the volume was left (after any
interleaving, any failed saves and removals, a crash at any step), a start that reads the state
file, or fails to, marks every database written that has a committed row write no acknowledged
verification covers: the file lists it, or there is no file to read, a database exists, and all are
marked. -/
theorem build_restores_uncovered (paths : List Path) (writers : Nat) {s s' : State Path}
    {content : Content Path} {p : Path} (hreach : (machine paths writers).Reachable s)
    (hbuild : (machine paths writers).step s (.build content) = some s')
    (huncovered : s.volume.Uncovered p) :
    ∃ m, s'.process = .up m ∧ m.tracker.isWritten p ∧
      ((∃ w, content = some w ∧ p ∈ w) ∨
        (content = none ∧ paths.any s.volume.onVolume ∧ ∀ q ∈ paths, m.tracker.isWritten q)) := by
  have hinv := stateInv_of_reachable hreach
  obtain ⟨hmem, hon, hlisted⟩ := hinv.owes p huncovered
  obtain ⟨v, process⟩ := s
  cases process with
  | populated =>
    simp only [machine, step] at hbuild
    split at hbuild
    · next hcontent =>
      cases hbuild
      obtain ⟨-, hwritten⟩ := restoreWrittenState_spec paths v.onVolume content
      refine ⟨_, rfl, hwritten p hmem hon fun w hw => hlisted w ?_, ?_⟩
      · exact hw ▸ hcontent.resolve_left (by simp [hw])
      · cases content with
        | some w => exact .inl ⟨w, rfl, hlisted w (hcontent.resolve_left nofun)⟩
        | none =>
          -- every database is on the volume by then, so the spec marks each of them
          exact .inr ⟨rfl, List.any_eq_true.mpr ⟨p, hmem, hon⟩,
            fun q hq => hwritten q hq (hinv.2 q hq) nofun⟩
    · cases hbuild
  | _ => cases hbuild

def firstStart : List (Action Bool) :=
  [.start, .populate true false, .populate true false, .recordEmpty true, .build (some [])]

/-- A write through the saving path; `saves` are the answers from the write of the file on. -/
def savedWrite (p : Bool) (saves : List Bool) : List (Action Bool) :=
  .begin 0 p :: (replicate 8 (.writer 0 true) ++ saves.map (.writer 0))

/-- The save fails and the stale file is removed, the row write commits, and the process dies: the
next start finds no file and marks both databases. -/
theorem build_restores_uncovered_without_file :
    ∃ s s', (machine [true, false] 1).Reachable s ∧
      (machine [true, false] 1).step s (.build none) = some s' ∧ s.volume.Uncovered true ∧
      ∃ m, s'.process = .up m ∧ m.tracker.isWritten true ∧
        ((∃ w, (none : Content Bool) = some w ∧ true ∈ w) ∨
          ((none : Content Bool) = none ∧ [true, false].any s.volume.onVolume ∧
            ∀ q ∈ [true, false], m.tracker.isWritten q)) := by
  have hrun : ∃ s, (machine [true, false] 1).Reachable s ∧ s.volume.Uncovered true ∧
      ((machine [true, false] 1).step s (.build none)).isSome :=
    Machine.exists_reaches_of_run (.start rfl)
      (firstStart ++ savedWrite true [false, true, true, true, true, true] ++
        [.crash none, .start, .populate true false, .populate true false, .recordEmpty true])
      (by decide)
  obtain ⟨s, hreach, huncovered, hsome⟩ := hrun
  obtain ⟨s', hbuild⟩ := isSome_iff_exists.mp hsome
  exact ⟨s, s', hreach, hbuild, huncovered,
    build_restores_uncovered [true, false] 1 hreach hbuild huncovered⟩

/-! ## §4 — what leaves the pending set, and when a cycle passes -/

variable {m m' : Memory Path} {v' : Volume Path} {move : VerifierMove Path}

theorem isSome_saveStep (paths : List Path) (t : Tracker Path) (possible : List (Content Path))
    (ok : Bool) (stage : SaveStage Path) (p : Path) :
    ((saveStep paths t possible ok stage).1.changed p).isSome = (t.changed p).isSome := by
  cases stage <;> cases ok <;> simp [saveStep, Tracker.markSaved]

omit [DecidableEq Path] in
theorem Tracker.Renews.isSome {t' : Tracker Path} {q : Path} (h : t.Renews t' p)
    (hq : (t.changed q).isSome) : (t'.changed q).isSome := by
  by_cases hqp : q = p
  · exact hqp ▸ Tracker.isSome_of_isWritten h.written
  · rwa [h.other q hqp]

theorem writerStep_frame {i : Nat}
    {ok : Bool} {w : Writer Path} (hstep : writerStep paths v m i ok w = some (v', m')) :
    m'.verifier = m.verifier ∧
      ∀ p, (m.tracker.changed p).isSome → (m'.tracker.changed p).isSome := by
  cases w with
  | idle => cases hstep
  | sawClean q locked =>
    simp only [writerStep] at hstep
    split at hstep
    · next hbump =>
      obtain ⟨-, rfl⟩ := by simpa only [some.injEq, Prod.mk.injEq] using hstep
      exact ⟨rfl, fun _ hp => (Tracker.renews_bumpDurable hbump).1.isSome hp⟩
    · obtain ⟨-, rfl⟩ := by simpa only [some.injEq, Prod.mk.injEq] using hstep
      exact ⟨rfl, fun _ hp => hp⟩
  | waiting q =>
    simp only [writerStep] at hstep
    split at hstep
    · obtain ⟨-, rfl⟩ := by simpa only [some.injEq, Prod.mk.injEq] using hstep
      exact ⟨rfl, fun _ hp => hp⟩
    · cases hstep
  | marking q =>
    obtain ⟨-, rfl⟩ := by simpa only [writerStep, some.injEq, Prod.mk.injEq] using hstep
    exact ⟨rfl, fun _ hp => (m.tracker.renews_mark q).isSome hp⟩
  | saving q stage =>
    obtain ⟨-, rfl⟩ := by simpa only [writerStep, some.injEq, Prod.mk.injEq] using hstep
    exact ⟨rfl, fun p hp => (isSome_saveStep paths m.tracker v.possible ok stage p).trans hp⟩
  | _ =>
    obtain ⟨-, rfl⟩ := by simpa only [writerStep, some.injEq, Prod.mk.injEq] using hstep
    exact ⟨rfl, fun _ hp => hp⟩

theorem verifierStep_tracker (hstep : verifierStep paths v m move = some (v', m')) :
    m'.tracker = m.tracker ∨
      (∃ p g, m.verifier = .validated p ∧ m.cycle.generations p = some g ∧
        m'.tracker = (acknowledge m.tracker p g).1) ∨
      ∃ ok stage, m'.tracker = (saveStep paths m.tracker v.possible ok stage).1 := by
  have htracker : ∀ {r : Volume Path × Memory Path}, some r = some (v', m') →
      m'.tracker = r.2.tracker := by
    rintro r ⟨⟩
    rfl
  unfold verifierStep at hstep
  cases hpc : m.verifier with
  | validated p =>
    rw [hpc] at hstep
    cases move with
    | proceed =>
      dsimp only at hstep
      split at hstep
      · exact .inl (htracker hstep)
      · next g hsnapshot => exact .inr (.inl ⟨p, g, rfl, hsnapshot, htracker hstep⟩)
    | fail => exact .inl (htracker hstep)
    | _ => cases hstep
  | saving stage =>
    rw [hpc] at hstep
    cases move with
    | proceed ok => exact .inr (.inr ⟨ok, stage, htracker hstep⟩)
    | _ => cases hstep
  | _ =>
    -- no other step writes the tracker
    rw [hpc] at hstep
    split at hstep <;> try contradiction
    all_goals
      first
      | exact .inl (htracker hstep)
      | (split at hstep <;> first | exact .inl (htracker hstep) | cases hstep)

theorem verifierStep_removes (hstep : verifierStep paths v m move = some (v', m'))
    (hp : (m.tracker.changed p).isSome) (hgone : m'.tracker.changed p = none) :
    ∃ g, m.verifier = .validated p ∧ m.cycle.generations p = some g ∧ m.tracker.gen p = some g := by
  have hkept : (m'.tracker.changed p).isSome → False := by simp [hgone]
  rcases verifierStep_tracker hstep with hsame | ⟨q, g, hpc, hsnapshot, hack⟩ | ⟨ok, stage, hsave⟩
  · exact (hkept (hsame ▸ hp)).elim
  · rcases acknowledge_cases m.tracker q g with hsame | ⟨hgen, hset⟩
    · exact (hkept (by rwa [hack, hsame])).elim
    · by_cases hpq : p = q
      · subst hpq
        exact ⟨g, hpc, hsnapshot, hgen⟩
      · have hother : (m.tracker.set q none).changed p = m.tracker.changed p :=
          update_of_ne hpq ..
        exact (hkept (by rwa [hack, hset, hother])).elim
  · exact (hkept (by rwa [hsave, isSome_saveStep])).elim

theorem verifierStep_returns (hstep : verifierStep paths v m move = some (v', m'))
    (hpasses : m'.verifier = .returning true) :
    m.verifier = .loop ∧ m'.unvalidated = m.unvalidated ∧
      ∀ p ∈ paths, m.tracker.isWritten p = false := by
  have hne : ∀ {r : Volume Path × Memory Path}, some r = some (v', m') →
      r.2.verifier ≠ .returning true → False := by
    rintro r ⟨⟩ hr
    exact hr hpasses
  unfold verifierStep at hstep
  cases hpc : m.verifier with
  | loop =>
    rw [hpc] at hstep
    cases move with
    | proceed =>
      dsimp only at hstep
      split at hstep
      · grind [Memory.withVerifier]
      · exact (hne hstep nofun).elim
    | _ => cases hstep
  | _ =>
    -- every other step leads elsewhere; where it branches, on both ways
    rw [hpc] at hstep
    exfalso
    split at hstep <;> try contradiction
    all_goals
      first
      | (refine hne hstep ?_
         dsimp only [Memory.takeSnapshot, Memory.withVerifier]
         split <;> nofun)
      | exact hne hstep nofun
      | (split at hstep <;> first | exact hne hstep nofun | cases hstep)

theorem up_step_cases
    {a : Action Path} (hstep : step paths writers ⟨v, .up m⟩ a = some s')
    (hm' : s'.process = .up m') :
    (∃ move, verifierStep paths v m move = some (s'.volume, m')) ∨
      (m'.verifier = m.verifier ∧
        ∀ p, (m.tracker.changed p).isSome → (m'.tracker.changed p).isSome) := by
  cases a with
  | verifier move =>
    obtain ⟨⟨v', r⟩, hverifier, rfl⟩ := map_eq_some_iff.mp hstep
    obtain rfl : r = m' := by simpa using hm'
    exact .inl ⟨move, hverifier⟩
  | writer i ok =>
    obtain ⟨⟨v', r⟩, hbind, rfl⟩ := map_eq_some_iff.mp hstep
    obtain ⟨w, -, hwriter⟩ := bind_eq_some_iff.mp hbind
    obtain rfl : r = m' := by simpa using hm'
    exact .inr (writerStep_frame hwriter)
  | begin i p =>
    obtain ⟨r, hbegin, rfl⟩ := map_eq_some_iff.mp hstep
    obtain rfl : r = m' := by simpa using hm'
    unfold beginStep at hbegin
    split at hbegin
    · split at hbegin
      · cases hbegin
        exact .inr ⟨rfl, fun _ hp => hp⟩
      · cases hbegin
    · cases hbegin
  | stop =>
    cases hstep
    obtain rfl : { m with stopped := true } = m' := by simpa using hm'
    exact .inr ⟨rfl, fun _ hp => hp⟩
  | crash settled =>
    cases settled with
    | none =>
      cases hstep
      cases hm'
    | some c =>
      simp only [step, crashStep] at hstep
      split at hstep
      · cases hstep
        cases hm'
      · cases hstep
  | _ => cases hstep

/-- **Acknowledgements and passes are earned.** Within one process, a step that takes a database off
the pending set is the acknowledgement of a validation of it that passed in this cycle, with no
write to it in flight at the cycle's pending snapshot, none begun since, and none committed since. A
step with which the cycle returns passed (the coverage read) finds no database with a write begun
that no such validation has covered since. -/
theorem pending_set_sound (paths : List Path) (writers : Nat) {s s' : State Path} {a : Action Path}
    {m m' : Memory Path} (hreach : (machine paths writers).Reachable s)
    (hstep : (machine paths writers).step s a = some s') (hm : s.process = .up m)
    (hm' : s'.process = .up m') :
    (∀ p, (m.tracker.changed p).isSome → m'.tracker.changed p = none →
      m.verifier = .validated p ∧ p ∈ m.cycle.passed ∧ p ∉ m.cycle.inFlight ∧
        p ∉ m.cycle.begunSince ∧ s.volume.commits p = m.cycle.commitsAt p) ∧
    (m'.verifier = .returning true → m.verifier ≠ .returning true → m'.unvalidated = []) := by
  obtain ⟨v, process⟩ := s
  obtain rfl : process = .up m := hm
  have hinv : Inv paths v m := stateInv_of_reachable hreach
  rcases up_step_cases hstep hm' with ⟨move, hverifier⟩ | ⟨hsame, hkept⟩
  · refine ⟨fun p hp hgone => ?_, fun hpasses _ => ?_⟩
    · obtain ⟨g, hpc, hsnapshot, hgen⟩ := verifierStep_removes hverifier hp hgone
      obtain ⟨hpassed, hflight, hbegun, hcommits, -⟩ := hinv.earned hpc hsnapshot hgen
      exact ⟨hpc, hpassed, hflight, hbegun, hcommits⟩
    · obtain ⟨hpc, hunvalidated, hnone⟩ := verifierStep_returns hverifier hpasses
      have hquiet : m.verifier.quiet = true := by rw [hpc]; rfl
      rw [hunvalidated]
      refine eq_nil_iff_forall_not_mem.mpr fun p hp => ?_
      -- an unvalidated database is written by now, and so the coverage read counts it
      have hwritten := (hinv.unvalidated p hp).resolve_right (hinv.not_before hquiet p)
      have hmem := hinv.kept.keys p (Tracker.isSome_of_isWritten hwritten)
      simp [hnone p hmem] at hwritten
  · refine ⟨fun p hp hgone => ?_, fun hpasses hnot => absurd (hsame.symm.trans hpasses) hnot⟩
    have hstill := hkept p hp
    simp [hgone] at hstill

def State.memory? (s : State Path) : Option (Memory Path) :=
  match s.process with
  | .up m => some m
  | _ => none

omit [DecidableEq Path] in
theorem State.process_of_memory? (h : m ∈ s.memory?) : s.process = .up m := by
  grind [State.memory?]

/-- A write to the first database, then a cycle up to its validation, with a resume in between. -/
def firstCycle : List (Action Bool) :=
  firstStart ++ savedWrite true (replicate 6 true) ++
    [.verifier (.proceed true), .verifier (.proceed true), .verifier (.snapshot [true]),
      .verifier (.proceed true), .verifier .cycle, .verifier (.proceed true),
      .verifier (.proceed true), .verifier (.proceed true)]

/-- The cycle of one written database: its acknowledgement takes it off, and after the save the
coverage read passes. -/
theorem pending_set_sound_cycle :
    (∃ s s' m m', (machine [true, false] 1).Reachable s ∧
      (machine [true, false] 1).step s (.verifier (.proceed true)) = some s' ∧
      s.process = .up m ∧ s'.process = .up m' ∧
      ((m.tracker.changed true).isSome ∧ m'.tracker.changed true = none) ∧
      m.verifier = .validated true ∧ true ∈ m.cycle.passed ∧ true ∉ m.cycle.inFlight ∧
      true ∉ m.cycle.begunSince ∧ s.volume.commits true = m.cycle.commitsAt true) ∧
    ∃ s s' m m', (machine [true, false] 1).Reachable s ∧
      (machine [true, false] 1).step s (.verifier (.proceed true)) = some s' ∧
      s.process = .up m ∧ s'.process = .up m' ∧
      (0 < s.volume.commits true ∧ m'.verifier = .returning true ∧ m.verifier ≠ .returning true) ∧
      m'.unvalidated = [] := by
  constructor
  · have hrun : ∃ s, (machine [true, false] 1).Reachable s ∧ ∃ m ∈ s.memory?,
        ∃ s' ∈ (machine [true, false] 1).step s (.verifier (.proceed true)), ∃ m' ∈ s'.memory?,
          (m.tracker.changed true).isSome ∧ m'.tracker.changed true = none :=
      Machine.exists_reaches_of_run (.start rfl) firstCycle (by decide)
    obtain ⟨s, hreach, m, hm, s', hstep, m', hm', hleaves⟩ := hrun
    have hup := State.process_of_memory? hm
    have hup' := State.process_of_memory? hm'
    exact ⟨s, s', m, m', hreach, hstep, hup, hup', hleaves,
      (pending_set_sound [true, false] 1 hreach hstep hup hup').1 true hleaves.1 hleaves.2⟩
  · have hrun : ∃ s, (machine [true, false] 1).Reachable s ∧ ∃ m ∈ s.memory?,
        ∃ s' ∈ (machine [true, false] 1).step s (.verifier (.proceed true)), ∃ m' ∈ s'.memory?,
          0 < s.volume.commits true ∧ m'.verifier = .returning true ∧
            m.verifier ≠ .returning true :=
      Machine.exists_reaches_of_run (.start rfl)
        (firstCycle ++ replicate 9 (.verifier (.proceed true))) (by decide)
    obtain ⟨s, hreach, m, hm, s', hstep, m', hm', hpasses⟩ := hrun
    have hup := State.process_of_memory? hm
    have hup' := State.process_of_memory? hm'
    exact ⟨s, s', m, m', hreach, hstep, hup, hup', hpasses,
      (pending_set_sound [true, false] 1 hreach hstep hup hup').2 hpasses.2.1 hpasses.2.2⟩

end LitestreamSoak.Worker.ManyDB
