import LitestreamSoak.Worker.ManyDBInvariant

/-!
# Worker — the writers keep the invariant

A writer's step is checked once, by **`Inv.writer_edit`**, against what it does to the tracker, the
file and the lock (`WriterEdit`); the cases of `writerStep` then only say which edit they are.
-/

namespace LitestreamSoak.Worker.ManyDB

open Lib List Option

variable {Path : Type}

/-! ## §1 — a writer's step keeps the invariant

A writer between `beginWrite` and `endWrite` is busy, so the verifier is not quiet and holds
nothing; what has to be kept is the other writers and the cycle's view of the generations. -/

/-- What a step of writer `i` from `w` to `w'` may do to the tracker, the file and the lock. -/
structure WriterEdit (paths : List Path) (v v' : Volume Path) (m : Memory Path) (t' : Tracker Path)
    (mu' : Option Holder) (i : Nat) (w w' : Writer Path) : Prop where
  busy : w.busy = true
  busy' : w'.busy = true
  onVolume : v'.onVolume = v.onVolume
  kept : Kept paths v' t'
  counter : m.tracker.changeGeneration ≤ t'.changeGeneration
  gen : ∀ p, t'.gen p = m.tracker.gen p ∨ Fresh m.tracker t' p
  written : ∀ p, m.tracker.isWritten p → t'.isWritten p
  listed : ∀ p, m.tracker.isWritten p → v.Listed p → v'.Listed p
  /-- only the holder of `stateMu` changes the written set or the file -/
  shared : w.locked = true ∨
    (v'.possible = v.possible ∧ ∀ p, t'.isWritten p = m.tracker.isWritten p)
  mu : w.locked = true ∨ mu' = m.stateMu ∨ m.stateMu = none
  writer : WriterOK paths v' t' mu' i w'
  commits : ∀ p, v'.commits p = v.commits p ∨ w.after = some p
  after : ∀ p, w'.after = some p → w.after = some p ∨ Fresh m.tracker t' p
  before : ∀ p, w.before = some p → w'.before = some p ∨ (t'.isWritten p ∧ Fresh m.tracker t' p)

theorem StageOK.congr {v v' : Volume Path} {t t' : Tracker Path} {stage : SaveStage Path}
    (h : StageOK v t stage) (hfile : v'.possible = v.possible)
    (hwritten : ∀ p, t'.isWritten p = t.isWritten p) : StageOK v' t' stage := by
  have hall : AllListed v t → AllListed v' t' := by
    intro hall p hp w hw
    rw [hwritten] at hp
    rw [hfile] at hw
    exact hall p hp w hw
  cases stage with
  | write written =>
    intro p hp
    rw [hwritten] at hp
    exact h p hp
  | markDurable => exact hall h
  | clearDirty => exact hall h
  | setDirty removalFailed =>
    cases removalFailed with
    | true => trivial
    | false => exact hall h
  | _ => trivial

section WriterEdit

variable {paths : List Path} {v v' : Volume Path} {m : Memory Path} {t' : Tracker Path}
  {mu' : Option Holder} {i : Nat} {w w' : Writer Path} {p : Path}

theorem Inv.not_quiet (h : Inv paths v m) (hw : m.writers[i]? = some w) (hbusy : w.busy = true) :
    m.verifier.quiet = false := by
  by_contra hquiet
  have hzero : m.active = 0 := h.verifier.quiet (by simpa using hquiet)
  grind [Inv.active]

theorem Verifier.quiet_of_locked {pc : Verifier Path} (h : pc.locked = true) : pc.quiet = true := by
  cases pc <;> simp_all [Verifier.locked, Verifier.quiet]

theorem WriterEdit.others (h : Inv paths v m) (e : WriterEdit paths v v' m t' mu' i w w')
    (hw : m.writers[i]? = some w) {j : Nat} {u : Writer Path} (hj : j ≠ i)
    (hu : m.writers[j]? = some u) : WriterOK paths v' t' mu' j u := by
  have hok := h.writers j u hu
  -- both cannot hold `stateMu`
  have hfree : u.locked = true → w.locked = false := by
    intro hlocked
    by_contra hboth
    have hi := (h.writers i w hw).lock (by simpa using hboth)
    have hj' := hok.lock hlocked
    rw [hi] at hj'
    simp only [some.injEq, Holder.writer.injEq] at hj'
    exact hj hj'.symm
  refine ⟨hok.path, ?_, fun p hp => e.written p (hok.after p hp), ?_, ?_⟩
  · intro hlocked
    have hmu := hok.lock hlocked
    grind [WriterEdit.mu]
  · intro p hp
    have hafter : u.after = some p := by
      cases u with
      | unlocking q saved => cases saved <;> simp_all [Writer.committing, Writer.after]
      | writing q dir => cases dir <;> simp_all [Writer.committing, Writer.after]
      | _ => simp [Writer.committing] at hp
    exact e.listed p (hok.after p hafter) (hok.committing p hp)
  · intro p stage hsaving
    have hnot := hfree (by rw [hsaving]; rfl)
    rcases e.shared with hme | ⟨hfile, hwritten⟩
    · simp [hnot] at hme
    · exact (hok.stage p stage hsaving).congr hfile hwritten

theorem WriterEdit.begun (e : WriterEdit paths v v' m t' mu' i w w')
    (hw : m.writers[i]? = some w) (h : Before m.writers p) :
    Before (m.writers.set i w') p ∨ (t'.isWritten p ∧ Fresh m.tracker t' p) := by
  obtain ⟨j, u, hu, hbefore⟩ := h
  have hi : i < m.writers.length := (List.getElem?_eq_some_iff.mp hw).1
  by_cases hj : j = i
  · subst hj
    obtain rfl : w = u := some.inj (hw.symm.trans hu)
    rcases e.before p hbefore with hstill | hmarked
    · exact .inl ⟨j, w', by simp [hi], hstill⟩
    · exact .inr hmarked
  · exact .inl ⟨j, u, by rwa [getElem?_set_ne (Ne.symm hj)], hbefore⟩

def Memory.edit (m : Memory Path) (t' : Tracker Path) (mu' : Option Holder) (i : Nat)
    (w' : Writer Path) : Memory Path :=
  { m with tracker := t', stateMu := mu', writers := m.writers.set i w' }

theorem WriterEdit.same (e : WriterEdit paths v v' m t' mu' i w w') (hcycle : CycleOK v m)
    (h : (m.edit t' mu' i w').Same p) : m.Same p ∧ ¬ Fresh m.tracker t' p := by
  obtain ⟨g, hsnapshot, hgen⟩ := h
  have hle := hcycle.generations p g hsnapshot
  have hnot : ¬ Fresh m.tracker t' p := by
    intro hfresh
    have hlt := hfresh g hgen
    omega
  rcases e.gen p with hsame | hfresh
  · exact ⟨⟨g, hsnapshot, hsame ▸ hgen⟩, hnot⟩
  · exact absurd hfresh hnot

theorem WriterEdit.cycle (e : WriterEdit paths v v' m t' mu' i w w') (hw : m.writers[i]? = some w)
    (h : CycleOK v m) : CycleOK v' (m.edit t' mu' i w') where
  inFlight := h.inFlight
  generations p g hg := Nat.le_trans (h.generations p g hg) e.counter
  commits p hp := by
    have hsame := (e.same h hp).1
    rcases e.commits p with hcommits | hafter
    · exact hcommits.trans (h.commits p hsame)
    · exact absurd hafter (h.after p hsame i w hw)
  after p hp j u hu hafter := by
    have hsame := e.same h hp
    by_cases hj : j = i
    · subst hj
      have hj : j < m.writers.length := (List.getElem?_eq_some_iff.mp hw).1
      obtain rfl : w' = u := by simpa [Memory.edit, hj] using hu
      rcases e.after p hafter with hold | hfresh
      · exact h.after p hsame.1 j w hw hold
      · exact hsame.2 hfresh
    · exact h.after p hsame.1 j u (by simpa [Memory.edit, Ne.symm hj] using hu) hafter
  begun p hp hbegun := by
    have hsame := e.same h hp
    rcases e.begun hw (h.begun p hsame.1 hbegun) with hstill | hmarked
    · exact hstill
    · exact absurd hmarked.2 hsame.2
  passed := h.passed

/-- **The frame rule for writers.** -/
theorem Inv.writer_edit (h : Inv paths v m) (hw : m.writers[i]? = some w)
    (e : WriterEdit paths v v' m t' mu' i w w') : Inv paths v' (m.edit t' mu' i w') := by
  have hi : i < m.writers.length := (List.getElem?_eq_some_iff.mp hw).1
  have hquiet := h.not_quiet hw e.busy
  have hunlocked : m.verifier.locked = false := by
    by_contra hlocked
    have := Verifier.quiet_of_locked (by simpa using hlocked)
    simp [hquiet] at this
  refine ⟨e.kept, by rw [e.onVolume]; exact h.onVolume, ?_, ?_, ?_, fun hc => ?_, ?_⟩
  · grind [Memory.edit, WriterEdit.writer, WriterEdit.others]
  · refine ⟨?_, ?_, h.verifier.quiet, h.verifier.paused, h.verifier.passed⟩
    · intro hlocked
      exact absurd hlocked (by simpa [Memory.edit] using hunlocked)
    · grind [Verifier.locked, Memory.edit]
  · -- the writer was counted and still is
    grind [Inv.active, WriterEdit.busy, Memory.edit, WriterEdit.busy']
  · exact e.cycle hw (h.cycle hc)
  · grind [Inv.unvalidated, WriterEdit.written, WriterEdit.begun, Memory.edit]

/-! ## §2 — the cases of a writer's step -/

theorem Inv.edit_pc (h : Inv paths v m) (hbusy : w.busy = true) (hbusy' : w'.busy = true)
    (hmu : w.locked = true ∨ mu' = m.stateMu ∨ m.stateMu = none)
    (hwriter : WriterOK paths v m.tracker mu' i w')
    (hafter : ∀ p, w'.after = some p → w.after = some p)
    (hbefore : ∀ p, w.before = some p → w'.before = some p) :
    WriterEdit paths v v m m.tracker mu' i w w' where
  busy := hbusy
  busy' := hbusy'
  onVolume := rfl
  kept := h.kept
  counter := Nat.le_refl _
  gen _ := .inl rfl
  written _ hp := hp
  listed _ _ hp := hp
  shared := .inr ⟨rfl, fun _ => rfl⟩
  mu := hmu
  writer := hwriter
  commits _ := .inl rfl
  after p hp := .inl (hafter p hp)
  before p hp := .inl (hbefore p hp)

theorem WriterOK.of_before {t : Tracker Path} {mu : Option Holder}
    (hw : w.before = some p) (hp : p ∈ paths) (hlock : w.locked → mu = some (.writer i)) :
    WriterOK paths v t mu i w := by
  have hnone : w.after = none ∧ w.committing = none := by
    cases w <;> simp_all [Writer.before, Writer.after, Writer.committing]
  refine ⟨?_, hlock, by simp [hnone.1], by simp [hnone.2], ?_⟩
  · grind [Writer.inFlight]
  · rintro q stage rfl
    cases hw

theorem Kept.renews {t t' : Tracker Path} (h : Kept paths v t) (hp : p ∈ paths)
    (hrenews : t.Renews t' p) : Kept paths v t' where
  keys q hq := by
    by_cases hqp : q = p
    · exact hqp ▸ hp
    · exact h.keys q (by rwa [hrenews.other q hqp] at hq)
  generations q g hg := by
    have hcounter := hrenews.counter
    by_cases hqp : q = p
    · have hnew : t.changeGeneration + 1 = g := some.inj (hrenews.gen.symm.trans (hqp ▸ hg))
      omega
    · have hold := h.generations q g (by rwa [hrenews.gen_other hqp] at hg)
      omega
  durable q hq := by
    by_cases hqp : q = p
    · subst hqp
      exact h.durable q (hrenews.durable hq)
    · exact h.durable q (by simpa [Tracker.isDurable, hrenews.other q hqp] using hq)
  uncovered q hq :=
    have howed := h.uncovered q hq
    ⟨hrenews.isWritten howed.1, howed.2⟩

theorem Inv.edit_renews (h : Inv paths v m) (hw : m.writers[i]? = some w)
    (hbefore : w.before = some p) (hafter : w'.after = some p) (hrenews : m.tracker.Renews t' p)
    (hshared : w.locked = true ∨ m.tracker.isWritten p)
    (hwriter : WriterOK paths v t' m.stateMu i w') :
    WriterEdit paths v v m t' m.stateMu i w w' where
  busy := by cases w <;> simp_all [Writer.before, Writer.busy]
  busy' := by cases w' <;> simp_all [Writer.after, Writer.busy]
  onVolume := rfl
  kept := h.kept.renews ((h.writers i w hw).path p (by simp [Writer.inFlight, hbefore])) hrenews
  counter := by
    have := hrenews.counter
    omega
  gen q := by
    by_cases hqp : q = p
    · exact .inr (hqp ▸ hrenews.fresh)
    · exact .inl (hrenews.gen_other hqp)
  written _ hq := hrenews.isWritten hq
  listed _ _ hq := hq
  shared := by
    refine hshared.imp_right fun hwritten => ⟨rfl, fun q => ?_⟩
    by_cases hqp : q = p
    · rw [hqp, hwritten, hrenews.written]
    · simp [Tracker.isWritten, hrenews.other q hqp]
  mu := .inr (.inl rfl)
  writer := hwriter
  commits _ := .inl rfl
  after q hq := by
    obtain rfl : p = q := some.inj (hafter.symm.trans hq)
    exact .inr hrenews.fresh
  before q hq := by
    obtain rfl : p = q := some.inj (hbefore.symm.trans hq)
    exact .inr ⟨hrenews.written, hrenews.fresh⟩

theorem Inv.edit_slowPath {locked : Bool} (h : Inv paths v m) (hw : m.writers[i]? = some w)
    (hbefore : w.before = some p) (hlocked : w.locked = locked) :
    WriterEdit paths v v m m.tracker m.stateMu i w (slowPath p locked) := by
  have hok := h.writers i w hw
  have hp : p ∈ paths := hok.path p (by simp [Writer.inFlight, hbefore])
  have hbusy : w.busy = true := by cases w <;> simp_all [Writer.before, Writer.busy]
  refine h.edit_pc hbusy ?_ (.inr (.inl rfl)) ?_ ?_ ?_
  · cases locked <;> rfl
  · cases locked with
    | false => exact .of_before rfl hp nofun
    | true => exact .of_before rfl hp fun _ => hok.lock hlocked
  · cases locked <;> nofun
  · grind [Writer.before, slowPath]

theorem Inv.edit_unlock {saved : Saved} (h : Inv paths v m)
    (hw : m.writers[i]? = some (.unlocking p saved))
    (hbusy : w'.busy = true) (hafter : w'.after = some p) (hlocked : w'.locked = false)
    (hcommitting : ∀ q, w'.committing = some q → saved = .done ∧ q = p) :
    WriterEdit paths v v m m.tracker none i (.unlocking p saved) w' := by
  have hok := h.writers i _ hw
  have hbefore : w'.before = none := by
    cases w' <;> simp_all [Writer.before, Writer.after]
  refine h.edit_pc rfl hbusy (.inl rfl) ⟨?_, by simp [hlocked], ?_, ?_, ?_⟩ ?_ nofun
  · intro q hq
    have hpq : p = q := by simpa [Writer.inFlight, hbefore, hafter] using hq
    exact hok.path q (hpq ▸ rfl)
  · intro q hq
    exact hok.after q (hafter.symm.trans hq)
  · intro q hq
    obtain ⟨rfl, rfl⟩ := hcommitting q hq
    exact hok.committing q rfl
  · rintro q stage rfl
    cases hlocked
  · intro q hq
    exact hafter.symm.trans hq

theorem getElem?_set_cases {writers : List (Writer Path)} {j : Nat} {u : Writer Path}
    (hu : (writers.set i w')[j]? = some u) : u = w' ∨ writers[j]? = some u := by
  grind

theorem Before.set {writers : List (Writer Path)} {q : Path} (h : Before writers q)
    (hw : writers[i]? = some w) (hnone : w.before = none) : Before (writers.set i w') q := by
  obtain ⟨j, u, hu, hq⟩ := h
  have hj : i ≠ j := by
    rintro rfl
    obtain rfl := some.inj (hw.symm.trans hu)
    simp [hnone] at hq
  exact ⟨j, u, by rwa [getElem?_set_ne hj], hq⟩

theorem Inv.finish (h : Inv paths v m) (hw : m.writers[i]? = some (.finished p)) :
    Inv paths v ({ m with active := m.active - 1 }.withWriter i .idle) := by
  have hi : i < m.writers.length := (List.getElem?_eq_some_iff.mp hw).1
  have hquiet := h.not_quiet hw rfl
  -- the finished write was past its generation, so nothing that has begun disappears
  have hbefore : ∀ q, Before m.writers q → Before (m.writers.set i .idle) q :=
    fun q hq => hq.set hw rfl
  refine ⟨h.kept, h.onVolume, ?_, ?_, ?_, fun hc => ?_, ?_⟩
  · intro j u hu
    rcases getElem?_set_cases hu with rfl | hold
    · exact ⟨nofun, nofun, nofun, nofun, nofun⟩
    · exact h.writers j u hold
  · refine ⟨h.verifier.lock, h.verifier.stage, fun hq => ?_, h.verifier.paused, h.verifier.passed⟩
    exact absurd (hquiet.symm.trans hq) Bool.false_ne_true
  · grind [Inv.active, Memory.withWriter, Writer.busy]
  · have hold := h.cycle hc
    refine ⟨hold.inFlight, hold.generations, hold.commits, ?_, ?_, hold.passed⟩
    · intro q hq j u hu
      rcases getElem?_set_cases hu with rfl | hu'
      · nofun
      · exact hold.after q hq j u hu'
    · exact fun q hq hbegun => hbefore q (hold.begun q hq hbegun)
  · exact fun q hq => (h.unvalidated q hq).imp_right (hbefore q)

theorem Verifier.pauses_of_quiet {pc : Verifier Path} (h : pc.quiet = true) : pc.pauses = true := by
  cases pc <;> simp_all [Verifier.quiet, Verifier.pauses]

variable [DecidableEq Path]

theorem Inv.edit_saving {stage : SaveStage Path} (ok : Bool) (h : Inv paths v m)
    (hw : m.writers[i]? = some (.saving p stage)) :
    WriterEdit paths v { v with possible := (saveStep paths m.tracker v.possible ok stage).2.1 } m
      (saveStep paths m.tracker v.possible ok stage).1 m.stateMu i (.saving p stage)
      (match (saveStep paths m.tracker v.possible ok stage).2.2 with
      | .inl stage => .saving p stage
      | .inr saved => .unlocking p saved) := by
  have hok := h.writers i _ hw
  have hspec := saveStep_spec ok h.kept (hok.stage p stage rfl)
  have hwritten : m.tracker.isWritten p := hok.after p rfl
  have hlock := hok.lock rfl
  have hp : p ∈ paths := hok.path p rfl
  generalize saveStep paths m.tracker v.possible ok stage = r at hspec ⊢
  refine
    { busy := rfl, busy' := ?_, onVolume := rfl, kept := hspec.kept
      counter := Nat.le_of_eq hspec.counter.symm, gen := fun q => .inl (hspec.gen q)
      written := fun q hq => (hspec.written q).trans hq, listed := hspec.listed, shared := .inl rfl
      mu := .inl rfl, writer := ?_, commits := fun _ => .inl rfl, after := ?_, before := nofun }
  · cases r.2.2 <;> rfl
  · cases hnext : r.2.2 with
    | inl next =>
      refine ⟨?_, fun _ => hlock, ?_, nofun, ?_⟩
      · rintro q ⟨⟩
        exact hp
      · rintro q ⟨⟩
        exact (hspec.written p).trans hwritten
      · rintro q st ⟨⟩
        exact hspec.stage next hnext
    | inr saved =>
      refine ⟨?_, fun _ => hlock, ?_, ?_, nofun⟩
      · rintro q ⟨⟩
        exact hp
      · rintro q ⟨⟩
        exact (hspec.written p).trans hwritten
      · intro q hq
        cases saved with
        | done =>
          obtain rfl : p = q := some.inj hq
          exact hspec.done hnext p ((hspec.written p).trans hwritten)
        | _ => cases hq
  · grind [Writer.after]

theorem Inv.edit_writing {dir : Bool} (ok : Bool) (h : Inv paths v m)
    (hw : m.writers[i]? = some (.writing p dir)) :
    WriterEdit paths v
      (if ok && dir then { v with commits := Function.update v.commits p (v.commits p + 1) } else v)
      m m.tracker m.stateMu i (.writing p dir) (.finished p) := by
  have hok := h.writers i _ hw
  have hfinished : ∀ v', WriterOK paths v' m.tracker m.stateMu i (.finished p) :=
    fun v' => ⟨hok.path, nofun, hok.after, nofun, nofun⟩
  cases hcommit : ok && dir with
  | false => exact h.edit_pc rfl rfl (.inr (.inl rfl)) (hfinished v) (fun _ hq => hq) nofun
  | true =>
    have hdir : dir = true := by simp_all
    subst hdir
    refine
      { busy := rfl, busy' := rfl, onVolume := rfl, kept := ?_, counter := Nat.le_refl _
        gen := fun _ => .inl rfl, written := fun _ hq => hq, listed := fun _ _ hq => hq
        shared := .inr ⟨rfl, fun _ => rfl⟩, mu := .inr (.inl rfl), writer := hfinished _
        commits := ?_, after := fun _ hq => .inl hq, before := nofun }
    · refine ⟨h.kept.keys, h.kept.generations, h.kept.durable, fun q hq => ?_⟩
      by_cases hqp : q = p
      · subst hqp
        exact ⟨hok.after q rfl, hok.committing q rfl⟩
      · have hold : v.Uncovered q := by
          simpa [Volume.Uncovered, Function.update_of_ne hqp] using hq
        exact h.kept.uncovered q hold
    · grind [Writer.after]

/-- **A writer's step keeps the invariant.** -/
theorem writerStep_inv {ok : Bool} (h : Inv paths v m) (hw : m.writers[i]? = some w)
    {m' : Memory Path} (hstep : writerStep paths v m i ok w = some (v', m')) : Inv paths v' m' := by
  have hok := h.writers i w hw
  cases w with
  | idle => cases hstep
  | ready p locked =>
    obtain ⟨rfl, rfl⟩ := by simpa only [writerStep, some.injEq, Prod.mk.injEq] using hstep
    split
    · exact h.writer_edit hw (h.edit_slowPath hw rfl rfl)
    · have hclean : WriterOK paths v m.tracker m.stateMu i (.sawClean p locked) :=
        .of_before rfl (hok.path p rfl) hok.lock
      exact h.writer_edit hw (h.edit_pc rfl rfl (.inr (.inl rfl)) hclean nofun fun _ hq => hq)
  | sawClean p locked =>
    simp only [writerStep] at hstep
    split at hstep
    · next t hbump =>
      obtain ⟨rfl, rfl⟩ := by simpa only [some.injEq, Prod.mk.injEq] using hstep
      obtain ⟨hrenews, hdurable⟩ := Tracker.renews_bumpDurable hbump
      have hlisted := h.kept.durable p hdurable
      refine h.writer_edit hw (h.edit_renews hw rfl ?_ hrenews
        (.inr (Tracker.isWritten_of_isDurable hdurable)) ?_)
      · cases locked <;> rfl
      · cases locked <;>
          exact ⟨by rintro q ⟨⟩; exact hok.path p rfl, hok.lock,
            by rintro q ⟨⟩; exact hrenews.written, by rintro q ⟨⟩; exact hlisted, nofun⟩
    · obtain ⟨rfl, rfl⟩ := by simpa only [some.injEq, Prod.mk.injEq] using hstep
      exact h.writer_edit hw (h.edit_slowPath hw rfl rfl)
  | waiting p =>
    simp only [writerStep] at hstep
    split at hstep
    · next hfree =>
      obtain ⟨rfl, rfl⟩ := by simpa only [some.injEq, Prod.mk.injEq] using hstep
      have hready : WriterOK paths v m.tracker (some (.writer i)) i (.ready p true) :=
        .of_before rfl (hok.path p rfl) fun _ => rfl
      exact h.writer_edit hw (h.edit_pc rfl rfl (.inr (.inr hfree)) hready nofun fun _ hq => hq)
    · cases hstep
  | marking p =>
    obtain ⟨rfl, rfl⟩ := by simpa only [writerStep, some.injEq, Prod.mk.injEq] using hstep
    have hrenews := m.tracker.renews_mark p
    refine h.writer_edit hw (h.edit_renews hw rfl rfl hrenews (.inl rfl)
      ⟨?_, fun _ => hok.lock rfl, ?_, nofun, ?_⟩)
    · rintro q ⟨⟩
      exact hok.path p rfl
    · rintro q ⟨⟩
      exact hrenews.written
    · rintro q stage ⟨⟩
      trivial
  | saving p stage =>
    obtain ⟨rfl, rfl⟩ := by simpa only [writerStep, some.injEq, Prod.mk.injEq] using hstep
    exact h.writer_edit hw (h.edit_saving ok hw)
  | unlocking p saved =>
    obtain ⟨rfl, rfl⟩ := by simpa only [writerStep, some.injEq, Prod.mk.injEq] using hstep
    refine h.writer_edit hw (h.edit_unlock hw ?_ ?_ ?_ ?_)
    · cases saved <;> rfl
    · cases saved <;> rfl
    · cases saved <;> rfl
    · grind [Writer.committing]
  | writing p dir =>
    obtain ⟨rfl, rfl⟩ := by simpa only [writerStep, some.injEq, Prod.mk.injEq] using hstep
    exact h.writer_edit hw (h.edit_writing ok hw)
  | finished p => grind [writerStep, Inv.finish]

theorem beginStep_inv {m' : Memory Path} (h : Inv paths v m)
    (hstep : beginStep paths m i p = some m') : Inv paths v m' := by
  unfold beginStep at hstep
  split at hstep
  · next hw =>
    split at hstep
    · next hcond =>
      obtain rfl := some.inj hstep
      obtain ⟨hpaused, -, hp⟩ := hcond
      have hi : i < m.writers.length := (List.getElem?_eq_some_iff.mp hw).1
      have hquiet : m.verifier.quiet = false := by
        by_contra hq
        have := h.verifier.paused (Verifier.pauses_of_quiet (by simpa using hq))
        simp [hpaused] at this
      have hself : (m.writers.set i (.ready p false))[i]? = some (.ready p false) := by simp [hi]
      have hbefore : ∀ q, Before m.writers q → Before (m.writers.set i (.ready p false)) q :=
        fun q hq => hq.set hw rfl
      have hbegun : Before (m.writers.set i (.ready p false)) p := ⟨i, _, hself, rfl⟩
      refine ⟨h.kept, h.onVolume, ?_, ?_, ?_, fun hc => ?_, ?_⟩
      · intro j u hu
        rcases getElem?_set_cases hu with rfl | hold
        · exact .of_before rfl hp (absurd · Bool.false_ne_true)
        · exact h.writers j u hold
      · refine ⟨h.verifier.lock, h.verifier.stage, fun hq => ?_, h.verifier.paused,
          h.verifier.passed⟩
        exact absurd (hquiet.symm.trans hq) Bool.false_ne_true
      · grind [Inv.active, Memory.begin, Writer.busy]
      · have hold := h.cycle hc
        refine ⟨hold.inFlight, hold.generations, hold.commits, ?_, ?_, ?_⟩
        · intro q hq j u hu
          rcases getElem?_set_cases hu with rfl | hu'
          · nofun
          · exact hold.after q hq j u hu'
        · intro q hq hmem
          rcases mem_cons.mp hmem with rfl | hmem
          · exact hbegun
          · exact hbefore q (hold.begun q hq hmem)
        · intro q hq hmem
          rcases mem_cons.mp hmem with rfl | hmem
          · exact mem_cons_self
          · exact mem_cons_of_mem p (hold.passed q hq hmem)
      · grind [Inv.unvalidated, Memory.begin]
    · cases hstep
  · cases hstep

end WriterEdit

end LitestreamSoak.Worker.ManyDB
