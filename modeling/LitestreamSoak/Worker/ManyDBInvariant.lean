import LitestreamSoak.Worker.ManyDB

/-!
# Worker — the invariant of the many-database load

One invariant over the volume and the memory of a running process carries the results on the
many-database load.

`saveStep_spec` says once what a step of a save does, for the writers and for the verifier.
-/

namespace LitestreamSoak.Worker.ManyDB

open Lib

variable {Path : Type} [DecidableEq Path]

/-! ## §1 — the invariant -/

/-- Every content a crash may leave lists `p`, or there is no content to be read. -/
def Volume.Listed (v : Volume Path) (p : Path) : Prop := ∀ w, some w ∈ v.possible → p ∈ w

def Tracker.gen (t : Tracker Path) (p : Path) : Option Nat := (t.changed p).map Change.generation

/-- The generation of `p` is newer than every generation given out before `t`. -/
def Fresh (t t' : Tracker Path) (p : Path) : Prop := ∀ g, t'.gen p = some g → t.changeGeneration < g

def AllListed (v : Volume Path) (t : Tracker Path) : Prop := ∀ p, t.isWritten p → v.Listed p

/-- What the volume owes: a durable entry, and a database with an uncovered row write, is listed in
every content the state file may have. -/
structure Kept (paths : List Path) (v : Volume Path) (t : Tracker Path) : Prop where
  keys : ∀ p, (t.changed p).isSome → p ∈ paths
  generations : ∀ p g, t.gen p = some g → g ≤ t.changeGeneration
  durable : ∀ p, t.isDurable p → v.Listed p
  uncovered : ∀ p, v.Uncovered p → t.isWritten p ∧ v.Listed p

def StageOK (v : Volume Path) (t : Tracker Path) : SaveStage Path → Prop
  | .write written => ∀ p, t.isWritten p → p ∈ written
  | .markDurable _ => AllListed v t
  | .clearDirty => AllListed v t
  | .setDirty false => AllListed v t
  | _ => True

/-- A writer that may commit has its database written and listed; a save in progress holds `stateMu`
and its snapshot is the written set. -/
structure WriterOK (paths : List Path) (v : Volume Path) (t : Tracker Path) (mu : Option Holder)
    (i : Nat) (w : Writer Path) : Prop where
  path : ∀ p, w.inFlight = some p → p ∈ paths
  lock : w.locked → mu = some (.writer i)
  after : ∀ p, w.after = some p → t.isWritten p
  committing : ∀ p, w.committing = some p → v.Listed p
  stage : ∀ p stage, w = .saving p stage → StageOK v t stage

def Verifier.pauses : Verifier Path → Bool
  | .pausing | .repausing _ => true
  | pc => pc.quiet

/-- Between a pause and the resume no write is in flight. -/
structure VerifierOK (v : Volume Path) (m : Memory Path) : Prop where
  lock : m.verifier.locked → m.stateMu = some .verifier
  stage : ∀ stage, m.verifier = .saving stage → StageOK v m.tracker stage
  quiet : m.verifier.quiet → m.active = 0
  paused : m.verifier.pauses → m.paused = true
  passed : ∀ p, m.verifier = .validated p → p ∈ m.cycle.passed

/-- A write to `p` has begun and has not taken its generation yet. -/
def Before (writers : List (Writer Path)) (p : Path) : Prop :=
  ∃ (i : Nat) (w : Writer Path), writers[i]? = some w ∧ w.before = some p

/-- `p` is pending under the generation it had at the snapshot. -/
def Memory.Same (m : Memory Path) (p : Path) : Prop :=
  ∃ g, m.cycle.generations p = some g ∧ m.tracker.gen p = some g

/-- As long as a database still has the generation of the pending snapshot, no row write to it has
committed since and none is about to. -/
structure CycleOK (v : Volume Path) (m : Memory Path) : Prop where
  inFlight : m.cycle.inFlight = []
  generations : ∀ p g, m.cycle.generations p = some g → g ≤ m.tracker.changeGeneration
  commits : ∀ p, m.Same p → v.commits p = m.cycle.commitsAt p
  after : ∀ p, m.Same p → ∀ (i : Nat) w, m.writers[i]? = some w → w.after ≠ some p
  begun : ∀ p, m.Same p → p ∈ m.cycle.begunSince → Before m.writers p
  passed : ∀ p ∈ m.cycle.passed, p ∈ m.unvalidated → p ∈ m.cycle.begunSince

structure Inv (paths : List Path) (v : Volume Path) (m : Memory Path) : Prop where
  kept : Kept paths v m.tracker
  onVolume : ∀ p ∈ paths, v.onVolume p
  writers : ∀ (i : Nat) w, m.writers[i]? = some w → WriterOK paths v m.tracker m.stateMu i w
  verifier : VerifierOK v m
  active : m.active = m.writers.countP Writer.busy
  cycle : m.verifier.inCycle → CycleOK v m
  unvalidated : ∀ p ∈ m.unvalidated, m.tracker.isWritten p ∨ Before m.writers p

/-! ## §2 — the tracker's operations -/

namespace Tracker

variable {t t' : Tracker Path} {p q : Path}

omit [DecidableEq Path] in
theorem isWritten_of_isDurable (h : t.isDurable p) : t.isWritten p := by
  unfold isDurable at h
  unfold isWritten
  cases hc : t.changed p with
  | none => simp [hc] at h
  | some c => simp_all

omit [DecidableEq Path] in
theorem isSome_of_isWritten (h : t.isWritten p) : (t.changed p).isSome := by
  unfold isWritten at h
  cases hc : t.changed p with
  | none => simp [hc] at h
  | some c => rfl

/-- `p` takes the next generation as a written database; the other entries stay. -/
structure Renews (t t' : Tracker Path) (p : Path) : Prop where
  other : ∀ q, q ≠ p → t'.changed q = t.changed q
  counter : t'.changeGeneration = t.changeGeneration + 1
  gen : t'.gen p = some (t.changeGeneration + 1)
  written : t'.isWritten p
  durable : t'.isDurable p → t.isDurable p

omit [DecidableEq Path] in
theorem Renews.isWritten (h : t.Renews t' p) (hq : t.isWritten q) : t'.isWritten q := by
  by_cases hqp : q = p
  · exact hqp ▸ h.written
  · simpa [Tracker.isWritten, h.other q hqp] using hq

omit [DecidableEq Path] in
theorem Renews.gen_other (h : t.Renews t' p) (hqp : q ≠ p) : t'.gen q = t.gen q := by
  simp [Tracker.gen, h.other q hqp]

omit [DecidableEq Path] in
theorem Renews.fresh (h : t.Renews t' p) : Fresh t t' p := by
  intro g hg
  have hnew : t.changeGeneration + 1 = g := Option.some.inj (h.gen.symm.trans hg)
  omega

theorem renews_mark (t : Tracker Path) (p : Path) : t.Renews (t.mark p true) p where
  other q hq := by simp [mark, set, Function.update_of_ne hq]
  counter := rfl
  gen := by simp [Tracker.gen, mark, set]
  written := by simp [Tracker.isWritten, mark, set]
  durable h := by
    -- an entry that enters the written set is not durable
    cases hc : t.changed p with
    | none => simp [isDurable, mark, set, hc] at h
    | some c => cases hw : c.written <;> simp_all [isDurable, mark, set]

theorem renews_bumpDurable (h : t.bumpDurable p = some t') : t.Renews t' p ∧ t.isDurable p := by
  unfold bumpDurable at h
  cases hc : t.changed p with
  | none => simp [hc] at h
  | some c =>
    simp only [hc] at h
    split at h
    · next hcond =>
      obtain rfl := Option.some.inj h
      have hdurable : t.isDurable p := by simpa [isDurable, hc] using hcond
      refine ⟨⟨fun q hq => ?_, rfl, ?_, ?_, fun _ => hdurable⟩, hdurable⟩
      · simp [set, Function.update_of_ne hq]
      · simp [Tracker.gen, set]
      · have := isWritten_of_isDurable hdurable
        simpa [Tracker.isWritten, set, hc] using this
    · cases h

end Tracker

/-! ## §3 — one step of a save -/

variable {v : Volume Path} {t : Tracker Path} {paths : List Path}

/-- What a step of a save leaves: the same written set under the same generations, everything that
was listed still listed, and the next stage with what it needs. -/
structure SaveSpec (paths : List Path) (v : Volume Path) (t : Tracker Path)
    (possible : List (Content Path))
    (t' : Tracker Path) (next : SaveStage Path ⊕ Saved) : Prop where
  written : ∀ p, t'.isWritten p = t.isWritten p
  gen : ∀ p, t'.gen p = t.gen p
  counter : t'.changeGeneration = t.changeGeneration
  listed : ∀ p, t.isWritten p → v.Listed p → Volume.Listed { v with possible } p
  kept : Kept paths { v with possible } t'
  stage : ∀ stage, next = .inl stage → StageOK { v with possible } t' stage
  done : next = .inr .done → AllListed { v with possible } t'

omit [DecidableEq Path] in
theorem Kept.of_listed
    {possible : List (Content Path)} (h : Kept paths v t)
    (hlisted : ∀ p, t.isWritten p → v.Listed p → Volume.Listed { v with possible } p) :
    Kept paths { v with possible } t where
  keys := h.keys
  generations := h.generations
  durable p hp := hlisted p (Tracker.isWritten_of_isDurable hp) (h.durable p hp)
  uncovered p hp :=
    have howed := h.uncovered p hp
    ⟨howed.1, hlisted p howed.1 howed.2⟩

omit [DecidableEq Path] in
theorem SaveSpec.of_file
    {possible : List (Content Path)} {next : SaveStage Path ⊕ Saved} (h : Kept paths v t)
    (hlisted : ∀ p, t.isWritten p → v.Listed p → Volume.Listed { v with possible } p)
    (hstage : ∀ stage, next = .inl stage → StageOK { v with possible } t stage)
    (hdone : next = .inr .done → AllListed { v with possible } t) :
    SaveSpec paths v t possible t next :=
  { written := fun _ => rfl, gen := fun _ => rfl, counter := rfl, listed := hlisted
    kept := h.of_listed hlisted, stage := hstage, done := hdone }

namespace Tracker

theorem isWritten_markSaved (t : Tracker Path) (saved : List Path) (p : Path) :
    (t.markSaved saved).isWritten p = t.isWritten p := by
  unfold markSaved isWritten
  cases hc : t.changed p with
  | none => simp [hc]
  | some c => by_cases hp : p ∈ saved ∧ c.written = true <;> simp [hc, hp]

theorem gen_markSaved (t : Tracker Path) (saved : List Path) (p : Path) :
    (t.markSaved saved).gen p = t.gen p := by
  unfold markSaved gen
  cases hc : t.changed p with
  | none => simp [hc]
  | some c => by_cases hp : p ∈ saved ∧ c.written = true <;> simp [hc, hp]

end Tracker

theorem Kept.markSaved (h : Kept paths v t)
    (hall : AllListed v t) (saved : List Path) : Kept paths v (t.markSaved saved) where
  keys p hp := h.keys p (by simpa [Tracker.markSaved] using hp)
  generations p g hg := h.generations p g (by rwa [Tracker.gen_markSaved] at hg)
  durable p hp := hall p (by
    rw [← Tracker.isWritten_markSaved t saved]
    exact Tracker.isWritten_of_isDurable hp)
  uncovered p hp := by
    rw [Tracker.isWritten_markSaved]
    exact h.uncovered p hp

theorem saveStep_spec (ok : Bool)
    {stage : SaveStage Path} (h : Kept paths v t) (hstage : StageOK v t stage) :
    SaveSpec paths v t (saveStep paths t v.possible ok stage).2.1
      (saveStep paths t v.possible ok stage).1 (saveStep paths t v.possible ok stage).2.2 := by
  cases stage with
  | stat =>
    refine .of_file h (fun _ _ hp => hp) ?_ ?_
    · rintro stage hnext
      cases ok <;> cases hnext
      trivial
    · rintro hnext
      cases ok <;> cases hnext
  | snapshot =>
    refine .of_file h (fun _ _ hp => hp) ?_ nofun
    rintro _ ⟨⟩ p hp
    exact List.mem_filter.mpr ⟨h.keys p (Tracker.isSome_of_isWritten hp), hp⟩
  | write written =>
    cases ok with
    | true =>
      have hall : AllListed { v with possible := [some written] } t := by
        intro p hp w hw
        obtain rfl : w = written := by simpa using hw
        exact hstage p hp
      refine .of_file h (fun p hp _ => hall p hp) ?_ nofun
      rintro _ ⟨⟩
      exact hall
    | false =>
      refine .of_file h (fun p hp hlisted w hw => ?_) ?_ nofun
      · -- the file is the new content or one it could be before
        rcases List.mem_cons.mp hw with hnew | hold
        · obtain rfl : w = written := Option.some.inj hnew
          exact hstage p hp
        · exact hlisted w hold
      · rintro _ ⟨⟩
        trivial
  | markDurable written =>
    refine
      { written := Tracker.isWritten_markSaved t written
        gen := Tracker.gen_markSaved t written
        counter := rfl
        listed := fun _ _ hp => hp
        kept := h.markSaved hstage written
        stage := ?_
        done := nofun }
    rintro _ ⟨⟩ p hp
    exact hstage p ((Tracker.isWritten_markSaved t written p).symm.trans hp)
  | clearDirty =>
    exact
      { written := fun _ => rfl, gen := fun _ => rfl, counter := rfl, listed := fun _ _ hp => hp
        kept := ⟨h.keys, h.generations, h.durable, h.uncovered⟩, stage := nofun
        done := fun _ => hstage }
  | remove =>
    refine .of_file h (fun p _ hlisted w hw => ?_) ?_ nofun
    · rcases List.mem_cons.mp hw with hnew | hold
      · cases hnew
      · exact hlisted w hold
    · rintro _ ⟨⟩
      cases ok <;> trivial
  | sync =>
    cases ok with
    | true =>
      have hall : ∀ p, Volume.Listed { v with possible := [none] } p := by
        intro p w hw
        simp at hw
      refine .of_file h (fun p _ _ => hall p) ?_ nofun
      rintro _ ⟨⟩ p _
      exact hall p
    | false =>
      refine .of_file h (fun _ _ hp => hp) ?_ nofun
      rintro _ ⟨⟩
      trivial
  | setDirty removalFailed =>
    refine
      { written := fun _ => rfl, gen := fun _ => rfl, counter := rfl, listed := fun _ _ hp => hp
        kept := ⟨h.keys, h.generations, h.durable, h.uncovered⟩, stage := nofun, done := ?_ }
    intro hnext
    cases removalFailed with
    | true => cases hnext
    | false => exact hstage

end LitestreamSoak.Worker.ManyDB
