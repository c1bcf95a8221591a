import LitestreamSoak.Worker.ManyDBWriters

/-!
# Worker — the verifier keeps the invariant

Where the verifier touches the tracker, the file or `stateMu` it is between a pause and the resume,
so every writer is idle (`Inv.idle`) and **`Inv.quiet_edit`** is all that is left to check. The one
step that takes a database off the pending set is the acknowledgement, and **`Inv.earned`** says
what it has earned by then.
-/

namespace LitestreamSoak.Worker.ManyDB

open Lib List Function

variable {Path : Type}

section Verifier

variable {paths : List Path} {v v' : Volume Path} {m m' : Memory Path} {t' : Tracker Path}
  {mu' : Option Holder} {pc : Verifier Path}

theorem Inv.idle (h : Inv paths v m) (hquiet : m.verifier.quiet = true) {i : Nat} {w : Writer Path}
    (hw : m.writers[i]? = some w) : w = .idle := by
  by_contra hne
  have hbusy : w.busy = true := by cases w <;> simp_all [Writer.busy]
  have := h.not_quiet hw hbusy
  simp [hquiet] at this

theorem Inv.not_before (h : Inv paths v m) (hquiet : m.verifier.quiet = true) (p : Path) :
    ¬ Before m.writers p := by
  rintro ⟨i, w, hw, hp⟩
  obtain rfl := h.idle hquiet hw
  cases hp

theorem Inv.verifier_pc (h : Inv paths v m) (paused : Bool)
    (hok : VerifierOK v { m with verifier := pc, paused })
    (hcycle : pc.inCycle → m.verifier.inCycle) :
    Inv paths v { m with verifier := pc, paused } :=
  have hold (hc : pc.inCycle) := h.cycle (hcycle hc)
  { kept := h.kept, onVolume := h.onVolume, writers := h.writers, verifier := hok
    active := h.active, unvalidated := h.unvalidated
    cycle := fun hc =>
      ⟨(hold hc).inFlight, (hold hc).generations, (hold hc).commits, (hold hc).after,
        (hold hc).begun, (hold hc).passed⟩ }

/-- **The frame rule for the verifier** where it acts on the tracker, the file or the lock: it is
quiet, so only the cycle and the unvalidated writes have to be kept. -/
theorem Inv.quiet_edit (h : Inv paths v m) (hquiet : m.verifier.quiet = true)
    (hcycle : m.verifier.inCycle = true) (honVolume : v'.onVolume = v.onVolume)
    (hcommits : v'.commits = v.commits) (hkept : Kept paths v' t')
    (hcounter : m.tracker.changeGeneration ≤ t'.changeGeneration)
    (hgen : ∀ p, t'.gen p = m.tracker.gen p ∨ t'.gen p = none)
    (hwritten : ∀ p ∈ m.unvalidated, t'.isWritten p)
    (hok : VerifierOK v' { m with tracker := t', stateMu := mu', verifier := pc }) :
    Inv paths v' { m with tracker := t', stateMu := mu', verifier := pc } := by
  have hold := h.cycle hcycle
  have hsame : ∀ p, Memory.Same { m with tracker := t', stateMu := mu', verifier := pc } p →
      m.Same p := by
    rintro p ⟨g, hsnapshot, hg⟩
    have hg' : t'.gen p = some g := hg
    rcases hgen p with heq | hnone
    · exact ⟨g, hsnapshot, heq ▸ hg'⟩
    · rw [hnone] at hg'
      cases hg'
  refine ⟨hkept, by rw [honVolume]; exact h.onVolume, ?_, hok, h.active, fun _ => ?_, ?_⟩
  · intro i w hw
    obtain rfl := h.idle hquiet hw
    exact ⟨nofun, nofun, nofun, nofun, nofun⟩
  · refine ⟨hold.inFlight, ?_, ?_, ?_, ?_, hold.passed⟩
    · exact fun p g hg => Nat.le_trans (hold.generations p g hg) hcounter
    · exact fun p hp => (congrFun hcommits p).trans (hold.commits p (hsame p hp))
    · exact fun p hp => hold.after p (hsame p hp)
    · exact fun p hp => hold.begun p (hsame p hp)
  · exact fun p hp => .inl (hwritten p hp)

theorem VerifierOK.of_unlocked (hlocked : m.verifier.locked = false)
    (hquiet : m.verifier.quiet → m.active = 0) (hpaused : m.verifier.pauses → m.paused = true)
    (hpassed : ∀ p, m.verifier = .validated p → p ∈ m.cycle.passed) : VerifierOK v m where
  lock := by simp [hlocked]
  stage stage hpc := by simp [hpc, Verifier.locked] at hlocked
  quiet := hquiet
  paused := hpaused
  passed := hpassed

theorem Inv.takeSnapshot (h : Inv paths v m) (hpc : m.verifier = .paused) (targets : List Path) :
    Inv paths v (m.takeSnapshot v targets) := by
  have hquiet : m.verifier.quiet = true := by rw [hpc]; rfl
  have hnone : m.writers.filterMap Writer.inFlight = [] := by
    rw [filterMap_eq_nil_iff]
    intro w hw
    obtain ⟨i, hi⟩ := getElem?_of_mem hw
    rw [h.idle hquiet hi]
    rfl
  have hok : VerifierOK v (m.takeSnapshot v targets) := by
    have hactive := h.verifier.quiet hquiet
    have hpaused := h.verifier.paused (Verifier.pauses_of_quiet hquiet)
    refine .of_unlocked ?_ (fun _ => hactive) (fun _ => hpaused) ?_
    all_goals
      unfold Memory.takeSnapshot
      by_cases htargets : targets = [] <;> simp [htargets, Verifier.locked]
  refine ⟨h.kept, h.onVolume, h.writers, hok, h.active, fun _ => ?_, h.unvalidated⟩
  refine ⟨hnone, ?_, fun _ _ => rfl, ?_, fun _ _ hp => absurd hp not_mem_nil,
    fun _ hp => absurd hp not_mem_nil⟩
  · intro p g hg
    exact h.kept.generations p g hg
  · intro p _ i w hw
    rw [h.idle hquiet hw]
    intro h
    cases h

variable [DecidableEq Path] {p : Path}

theorem Inv.validate (h : Inv paths v m) (hpc : m.verifier = .attempting p) :
    Inv paths v (m.validate p) := by
  have hquiet : m.verifier.quiet = true := by rw [hpc]; rfl
  have hold := h.cycle (by rw [hpc]; rfl)
  have hsub : ∀ q, q ∈ (m.validate p).unvalidated → q ∈ m.unvalidated := by
    intro q hq
    unfold Memory.validate at hq
    dsimp only at hq
    split at hq
    · exact hq
    · exact mem_of_mem_filter hq
  have hok : VerifierOK v (m.validate p) := by
    refine .of_unlocked rfl (fun _ => h.verifier.quiet hquiet)
      (fun _ => h.verifier.paused (Verifier.pauses_of_quiet hquiet)) ?_
    rintro q ⟨⟩
    exact mem_cons_self
  refine ⟨h.kept, h.onVolume, h.writers, hok, h.active, fun _ => ?_,
    fun q hq => h.unvalidated q (hsub q hq)⟩
  refine ⟨hold.inFlight, hold.generations, hold.commits, hold.after, hold.begun, ?_⟩
  intro q hq hmem
  rcases mem_cons.mp hq with rfl | hq
  · by_contra hnot
    have hnot' : q ∉ m.cycle.begunSince := hnot
    have hcovers : ¬ (q ∈ m.cycle.inFlight ∨ q ∈ m.cycle.begunSince) := by
      simp [hold.inFlight, hnot']
    simp [Memory.validate, hcovers] at hmem
  · exact hold.passed q hq (hsub q hmem)

theorem acknowledge_cases (t : Tracker Path) (p : Path) (g : Nat) :
    (acknowledge t p g).1 = t ∨ (t.gen p = some g ∧ (acknowledge t p g).1 = t.set p none) := by
  grind [acknowledge, Tracker.gen]

omit [DecidableEq Path] in
/-- **An acknowledgement that takes the entry off** is for a database that passed in this cycle and
has no write in flight at the snapshot, begun or committed since. -/
theorem Inv.earned {g : Nat} (h : Inv paths v m) (hpc : m.verifier = .validated p)
    (hsnapshot : m.cycle.generations p = some g) (hgen : m.tracker.gen p = some g) :
    p ∈ m.cycle.passed ∧ p ∉ m.cycle.inFlight ∧ p ∉ m.cycle.begunSince ∧
      v.commits p = m.cycle.commitsAt p ∧ p ∉ m.unvalidated := by
  have hquiet : m.verifier.quiet = true := by rw [hpc]; rfl
  have hold := h.cycle (by rw [hpc]; rfl)
  have hsame : m.Same p := ⟨g, hsnapshot, hgen⟩
  have hpassed := h.verifier.passed p hpc
  have hbegun : p ∉ m.cycle.begunSince :=
    fun hmem => h.not_before hquiet p (hold.begun p hsame hmem)
  refine ⟨hpassed, by simp [hold.inFlight], hbegun, hold.commits p hsame, ?_⟩
  exact fun hmem => hbegun (hold.passed p hpassed hmem)

theorem Kept.acknowledged {t : Tracker Path} (h : Kept paths v t) :
    Kept paths { v with covered := update v.covered p (v.commits p) } (t.set p none) := by
  have hself : (t.set p none).changed p = none := update_self ..
  have hother : ∀ q, q ≠ p → (t.set p none).changed q = t.changed q :=
    fun q hq => update_of_ne hq ..
  refine ⟨fun q hq => ?_, fun q g hg => ?_, fun q hq => ?_, fun q hq => ?_⟩ <;>
    by_cases hqp : q = p
  · simp [hqp, hself] at hq
  · exact h.keys q (by rwa [hother q hqp] at hq)
  · simp [Tracker.gen, hqp, hself] at hg
  · exact h.generations q g (by simpa [Tracker.gen, hother q hqp] using hg)
  · simp [Tracker.isDurable, hqp, hself] at hq
  · exact h.durable q (by simpa [Tracker.isDurable, hother q hqp] using hq)
  · simp [Volume.Uncovered, hqp] at hq
  · have howed := h.uncovered q (by simpa [Volume.Uncovered, update_of_ne hqp] using hq)
    exact ⟨by simpa [Tracker.isWritten, hother q hqp] using howed.1, howed.2⟩

omit [DecidableEq Path] in
theorem Inv.quiet_ok (h : Inv paths v m) (hquiet : m.verifier.quiet = true)
    (hlocked : pc.locked = false) (hvalidated : ∀ p, pc ≠ .validated p) :
    VerifierOK v' { m with tracker := t', stateMu := mu', verifier := pc } :=
  .of_unlocked hlocked (fun _ => h.verifier.quiet hquiet)
    (fun _ => h.verifier.paused (Verifier.pauses_of_quiet hquiet))
    (fun p hp => absurd hp (hvalidated p))

theorem Inv.acknowledge {g : Nat} (h : Inv paths v m) (hpc : m.verifier = .validated p)
    (hsnapshot : m.cycle.generations p = some g) :
    Inv paths (cover v m (acknowledge m.tracker p g).1 p)
      { m with
        tracker := (acknowledge m.tracker p g).1
        verifier := .acknowledged (acknowledge m.tracker p g).2 } := by
  have hquiet : m.verifier.quiet = true := by rw [hpc]; rfl
  have hcycle : m.verifier.inCycle = true := by rw [hpc]; rfl
  have hwritten : ∀ q ∈ m.unvalidated, m.tracker.isWritten q :=
    fun q hq => (h.unvalidated q hq).resolve_right (h.not_before hquiet q)
  rcases acknowledge_cases m.tracker p g with hsame | ⟨hgen, hset⟩
  · have hcover : cover v m m.tracker p = v := by
      unfold cover
      cases m.tracker.changed p <;> rfl
    rw [hsame, hcover]
    exact h.quiet_edit hquiet hcycle rfl rfl h.kept (Nat.le_refl _) (fun _ => .inl rfl) hwritten
      (h.quiet_ok hquiet rfl nofun)
  · obtain ⟨-, -, -, hcommits, hvalidated⟩ := h.earned hpc hsnapshot hgen
    have hself : (m.tracker.set p none).changed p = none := update_self ..
    have hother : ∀ q, q ≠ p → (m.tracker.set p none).changed q = m.tracker.changed q :=
      fun q hq => update_of_ne hq ..
    have hcover : cover v m (m.tracker.set p none) p =
        { v with covered := update v.covered p (v.commits p) } := by
      have hsome : (m.tracker.changed p).isSome := by
        cases hc : m.tracker.changed p with
        | none => simp [Tracker.gen, hc] at hgen
        | some c => rfl
      simp [cover, hsome, hself, hcommits]
    rw [hset, hcover]
    refine h.quiet_edit hquiet hcycle rfl rfl h.kept.acknowledged (Nat.le_refl _) (fun q => ?_)
      (fun q hq => ?_) (h.quiet_ok hquiet rfl nofun)
    · by_cases hqp : q = p
      · exact .inr (by simp [Tracker.gen, hqp, hself])
      · exact .inl (by simp [Tracker.gen, hother q hqp])
    · have hqp : q ≠ p := by
        rintro rfl
        exact hvalidated hq
      simpa [Tracker.isWritten, hother q hqp] using hwritten q hq

theorem Inv.verifier_saving {stage : SaveStage Path} (ok : Bool) (h : Inv paths v m)
    (hpc : m.verifier = .saving stage) :
    Inv paths { v with possible := (saveStep paths m.tracker v.possible ok stage).2.1 }
      { m with
        tracker := (saveStep paths m.tracker v.possible ok stage).1
        verifier := (match (saveStep paths m.tracker v.possible ok stage).2.2 with
          | .inl stage => .saving stage
          | .inr _ => .unlocking) } := by
  have hquiet : m.verifier.quiet = true := by rw [hpc]; rfl
  have hcycle : m.verifier.inCycle = true := by rw [hpc]; rfl
  have hlock : m.stateMu = some .verifier := h.verifier.lock (by rw [hpc]; rfl)
  have hactive := h.verifier.quiet hquiet
  have hpaused := h.verifier.paused (Verifier.pauses_of_quiet hquiet)
  have hspec := saveStep_spec ok h.kept (h.verifier.stage stage hpc)
  generalize saveStep paths m.tracker v.possible ok stage = r at hspec ⊢
  refine h.quiet_edit hquiet hcycle rfl rfl hspec.kept (Nat.le_of_eq hspec.counter.symm)
    (fun p => .inl (hspec.gen p)) (fun p hp => ?_) ?_
  · rw [hspec.written]
    exact (h.unvalidated p hp).resolve_right (h.not_before hquiet p)
  · cases hnext : r.2.2 with
    | inl next =>
      refine ⟨fun _ => hlock, ?_, fun _ => hactive, fun _ => hpaused, nofun⟩
      rintro _ ⟨⟩
      exact hspec.stage next hnext
    | inr saved => exact ⟨fun _ => hlock, nofun, fun _ => hactive, fun _ => hpaused, nofun⟩

omit [DecidableEq Path] in
theorem Inv.leave (h : Inv paths v m) (paused : Bool) (hpauses : pc.pauses = false)
    (hcycle : pc.inCycle → m.verifier.inCycle) : Inv paths v { m with verifier := pc, paused } := by
  have hquiet : pc.quiet = false := by
    by_contra hq
    have := Verifier.pauses_of_quiet (by simpa using hq)
    simp [hpauses] at this
  have hlocked : pc.locked = false := by
    by_contra hl
    have := Verifier.quiet_of_locked (by simpa using hl)
    simp [hquiet] at this
  refine h.verifier_pc paused (.of_unlocked hlocked (by simp [hquiet])
    (by simp [hpauses]) ?_) hcycle
  rintro p hp
  obtain rfl : pc = .validated p := hp
  cases hquiet

omit [DecidableEq Path] in
theorem Inv.stay (h : Inv paths v m) (hactive : m.active = 0) (hpauses : m.verifier.pauses)
    (hlocked : pc.locked = false) (hvalidated : ∀ p, pc ≠ .validated p)
    (hcycle : pc.inCycle → m.verifier.inCycle) : Inv paths v (m.withVerifier pc) :=
  h.verifier_pc m.paused (.of_unlocked hlocked (fun _ => hactive)
    (fun _ => h.verifier.paused hpauses) (fun p hp => absurd hp (hvalidated p))) hcycle

omit [DecidableEq Path] in
theorem Inv.raise (h : Inv paths v m) (hquiet : pc.quiet = false)
    (hcycle : pc.inCycle → m.verifier.inCycle) :
    Inv paths v { m with paused := true, verifier := pc } := by
  have hlocked : pc.locked = false := by
    by_contra hl
    have := Verifier.quiet_of_locked (by simpa using hl)
    simp [hquiet] at this
  refine h.verifier_pc true (.of_unlocked hlocked (by simp [hquiet]) (fun _ => rfl) ?_) hcycle
  rintro p hp
  obtain rfl : pc = .validated p := hp
  cases hquiet

omit [DecidableEq Path] in
theorem Inv.lock (h : Inv paths v m) (hquiet : m.verifier.quiet = true)
    (hcycle : m.verifier.inCycle = true)
    (hok : VerifierOK v { m with stateMu := mu', verifier := pc }) :
    Inv paths v { m with stateMu := mu', verifier := pc } :=
  h.quiet_edit hquiet hcycle rfl rfl h.kept (Nat.le_refl _) (fun _ => .inl rfl)
    (fun p hp => (h.unvalidated p hp).resolve_right (h.not_before hquiet p)) hok

/-- **The verifier's step keeps the invariant.** -/
theorem verifierStep_inv {move : VerifierMove Path} (h : Inv paths v m)
    (hstep : verifierStep paths v m move = some (v', m')) : Inv paths v' m' := by
  have hactive := h.verifier.quiet
  have hcases : ∀ {r : Volume Path × Memory Path}, some r = some (v', m') →
      Inv paths r.1 r.2 → Inv paths v' m' := by
    rintro r ⟨⟩ hr
    exact hr
  unfold verifierStep at hstep
  split at hstep
  · exact hcases hstep (h.raise rfl nofun)
  · next hpc =>
    split at hstep
    · next hzero => exact hcases hstep (h.stay hzero (by rw [hpc]; rfl) rfl nofun nofun)
    · cases hstep
  · exact hcases hstep (h.leave false rfl nofun)
  · next hpc => exact hcases hstep (h.takeSnapshot hpc _)
  · next hpc =>
    have hquiet : m.verifier.quiet = true := by rw [hpc]; rfl
    have hcycle : m.verifier.inCycle = true := by rw [hpc]; rfl
    split at hstep
    · exact hcases hstep (h.stay (hactive hquiet) (Verifier.pauses_of_quiet hquiet) rfl nofun nofun)
    · next p rest _ =>
      -- the remaining targets are not part of the invariant
      have hnext : Inv paths v (m.withVerifier (.attempting p)) :=
        h.stay (hactive hquiet) (Verifier.pauses_of_quiet hquiet) rfl nofun fun _ => hcycle
      refine hcases hstep ⟨hnext.kept, hnext.onVolume, hnext.writers, ?_, hnext.active, fun _ => ?_,
        hnext.unvalidated⟩
      · exact ⟨nofun, nofun, hnext.verifier.quiet, hnext.verifier.paused, nofun⟩
      · have hold := h.cycle hcycle
        exact ⟨hold.inFlight, hold.generations, hold.commits, hold.after, hold.begun, hold.passed⟩
  · next hpc => exact hcases hstep (h.validate hpc)
  · next hpc => exact hcases hstep (h.leave false rfl fun _ => by rw [hpc]; rfl)
  · next hpc => exact hcases hstep (h.raise rfl fun _ => by rw [hpc]; rfl)
  · next hpc =>
    split at hstep
    · next hzero =>
      exact hcases hstep (h.stay hzero (by rw [hpc]; rfl) rfl nofun fun _ => by rw [hpc]; rfl)
    · cases hstep
  · exact hcases hstep (h.leave false rfl nofun)
  · next hpc =>
    have hquiet : m.verifier.quiet = true := by rw [hpc]; rfl
    split at hstep
    · exact hcases hstep (h.stay (hactive hquiet) (Verifier.pauses_of_quiet hquiet) rfl nofun
        fun _ => by rw [hpc]; rfl)
    · next hsnapshot => exact hcases hstep (h.acknowledge hpc hsnapshot)
  · next persist _ hpc =>
    have hquiet : m.verifier.quiet = true := by rw [hpc]; rfl
    refine hcases hstep (h.stay (hactive hquiet) (Verifier.pauses_of_quiet hquiet) ?_ ?_
      fun _ => by rw [hpc]; rfl)
    all_goals split <;> first | rfl | nofun
  · next hpc =>
    have hquiet : m.verifier.quiet = true := by rw [hpc]; rfl
    split at hstep
    · refine hcases hstep (h.lock hquiet (by rw [hpc]; rfl)
        ⟨fun _ => rfl, ?_, fun _ => hactive hquiet,
        fun _ => h.verifier.paused (Verifier.pauses_of_quiet hquiet), nofun⟩)
      rintro _ ⟨⟩
      trivial
    · cases hstep
  · next hpc => exact hcases hstep (h.verifier_saving _ hpc)
  · next hpc =>
    have hquiet : m.verifier.quiet = true := by rw [hpc]; rfl
    exact hcases hstep (h.lock hquiet (by rw [hpc]; rfl) (h.quiet_ok hquiet rfl nofun))
  · exact hcases hstep (h.leave false rfl nofun)
  · exact hcases hstep (h.leave false rfl nofun)
  · exact hcases hstep (h.leave m.paused rfl nofun)
  · exact hcases hstep (h.leave m.paused rfl nofun)
  · exact hcases hstep (h.leave m.paused rfl nofun)
  · exact hcases hstep (h.leave m.paused rfl nofun)
  · cases hstep

end Verifier

end LitestreamSoak.Worker.ManyDB
