import LitestreamSoak.Worker.WALReset

/-!
# Worker — the WAL-reset cycle concludes only on its shape and always recovers

Two passes over the same procedure.

* **What a conclusion rests on.** Every exit before the validation carries an inconclusive sentinel
  (`Inconclusive`); what has been measured by the time the validation is asked is collected phase by
  phase into **`Conclusive`**.
* **What is undone.** **`Balanced`** relates the closures the cycle keeps to the effects it had;
  every phase preserves it, and each deferred recovery closes one account.

`cycle_sound` puts them together.
-/

namespace LitestreamSoak.Worker.WALReset

open Lib List

/-! ## §1 — what a conclusion rests on -/

variable {w : World} {l9 : L9} {saved : Header}

/-- The error says nothing about the build. -/
def Inconclusive (e : Err) (_ : World) : Prop := e.inconclusive = true

/-- The parts of the observation that are set once and rest: the listing before the stop and the
header after the exit. -/
def Fixed (l9 : L9) (saved : Header) (w : World) : Prop :=
  w.observation.l9Before = l9 ∧ w.observation.savedHeader = saved

theorem recordGeneration_frame (o : Observation) (lastSalt2 : UInt32) (wal : Generation) :
    (o.recordGeneration lastSalt2 wal).finalWAL = wal ∧
      (o.recordGeneration lastSalt2 wal).l9Before = o.l9Before ∧
      (o.recordGeneration lastSalt2 wal).savedHeader = o.savedHeader ∧
      (o.recordGeneration lastSalt2 wal).readerHeldAt = o.readerHeldAt ∧
      (o.recordGeneration lastSalt2 wal).restarted = o.restarted := by
  unfold Observation.recordGeneration Observation.reach
  grind [Observation.enterGeneration]

theorem Fixed.record (h : Fixed l9 saved w) (wal : Generation) : Fixed l9 saved (w.record wal) := by
  grind [recordGeneration_frame, Fixed, World.record]

theorem ensures_recordValid {E : Err → World → Prop} (wal : Generation) :
    Proc.Ensures (Fixed l9 saved) (recordValid wal) (fun _ => Fixed l9 saved) E :=
  .ite (fun _ => .update fun _ hw => hw.record wal) fun _ => .pure fun _ hw => hw

theorem ensures_restartWAL (attempts : Nat → AttemptAnswer) :
    Proc.Ensures (Fixed l9 saved) (restartWAL attempts) (fun _ => Fixed l9 saved)
      (fun e w => Inconclusive e w ∧ Fixed l9 saved w) := by
  unfold restartWAL
  refine .get_bind fun before => ?_
  refine (Proc.Ensures.loopUntil _ (fun a _ => ?_) (.fail fun w hw => ⟨rfl, hw⟩)).imp
    (fun w hw => hw.1) (fun _ _ h => h) (fun _ _ h => h)
  unfold attemptStep
  refine .update_bind (Fixed l9 saved) (fun w hw => hw) ?_
  refine .require_bind (fun w hw => ⟨rfl, hw⟩) fun _ => ?_
  refine .expect_bind (fun w hw => ⟨rfl, hw⟩) fun wal _ => ?_
  refine .bind_keep (ensures_recordValid wal) fun _ => ?_
  refine .ite (fun _ => .pure fun w hw => hw) fun _ => ?_
  refine .require_bind (fun w hw => ⟨rfl, hw⟩) fun _ => ?_
  exact .pure fun w hw => hw

theorem ensures_downStep (a : DownAnswer) :
    Proc.Ensures (Fixed l9 saved) (downStep a) (fun _ => Fixed l9 saved) Inconclusive := by
  unfold downStep
  refine .bind_keep (.catching (E := fun e w => Inconclusive e w ∧ Fixed l9 saved w) ?_ fun e => ?_)
    fun broke => ?_
  · exact (ensures_restartWAL a.attempts).bind fun _ => .pure fun w hw => hw
  · -- a failure to restart the WAL may end the loop and not the cycle
    refine .ite (fun _ => .fail fun w hw => rfl) fun _ => ?_
    exact .ite (fun _ => .pure fun w hw => hw.2) fun _ => .fail fun w hw => hw.1
  · refine .ite (fun _ => .pure fun w hw => hw) fun _ => ?_
    refine .update_bind (Fixed l9 saved) (fun w hw => hw) ?_
    refine .ite (fun _ => ?_) fun _ => ?_
    · refine .ite (fun _ => .fail fun w hw => rfl) fun _ => ?_
      exact .ite (fun _ => .pure fun w hw => hw) fun _ => .fail fun w hw => rfl
    · refine .expect_bind (fun w hw => rfl) fun wal _ => ?_
      refine .bind_keep (ensures_recordValid wal) fun _ => ?_
      exact .pure fun w hw => hw

/-- Litestream was stopped, and a valid WAL was read after it. -/
structure Stopped (env : Answers) (exitWAL : Generation) : Prop where
  stopped : env.stopped = true
  read : env.exitWAL = some exitWAL
  valid : exitWAL.header.valid = true

theorem Fixed.recordSavedPosition (h : Fixed l9 saved w)
    (exitWAL : Generation) (position : Option SavedPosition) :
    Fixed l9 saved (w.observe fun o => o.recordSavedPosition exitWAL position) := by
  cases position with
  | none => exact h
  | some p =>
    unfold World.observe Observation.recordSavedPosition
    dsimp only
    split <;> exact h

theorem observation_release (w : World) : w.release.observation = w.observation := by
  unfold World.release
  split <;> rfl

theorem observation_resume (w : World) : w.resume.observation = w.observation := by
  unfold World.resume
  split <;> rfl

/-- The observation has the L9 objects from before the cycle. -/
def Listed (env : Answers) (w : World) : Prop := w.observation.l9Before = env.l9Before

theorem ensures_stopAndReset (c : Check) (env : Answers) :
    Proc.Ensures (Listed env) (stopAndReset c env)
      (fun _ w => ∃ exitWAL, Stopped env exitWAL ∧ Fixed env.l9Before exitWAL.header w)
      Inconclusive := by
  unfold stopAndReset
  refine .expect_bind (fun w hw => rfl) fun signalWAL _ => ?_
  refine .update_bind (Listed env) (fun w hw => hw) ?_
  refine .update_bind (Listed env) (fun w hw => hw) ?_
  refine .require_bind (fun w hw => rfl) fun hstopped => ?_
  refine .expect_bind (fun w hw => rfl) fun exitWAL hexit => ?_
  refine .require_bind (fun w hw => rfl) fun hvalid => ?_
  -- the stop is a fact now, and the rest works on a fixed saved header
  refine .update_bind (Fixed env.l9Before exitWAL.header) (fun w hw => ⟨hw, rfl⟩) ?_
  refine .update_bind (Fixed env.l9Before exitWAL.header)
    (fun w hw => hw.recordSavedPosition exitWAL env.savedPosition) ?_
  refine .get_bind fun before => ?_
  refine .update_bind (Fixed env.l9Before exitWAL.header) (fun w hw => ?_) ?_
  · grind [Fixed, observation_release]
  refine .require_bind (fun w hw => rfl) fun _ => ?_
  refine .update_bind (Fixed env.l9Before exitWAL.header) (fun w hw => hw) ?_
  refine (Proc.Ensures.loopUntil_keep _ ensures_downStep (.pure fun _ h => h)).imp (fun _ h => h)
    (fun _ w hw => ?_) fun _ _ h => h
  exact ⟨exitWAL, ⟨hstopped, hexit, hvalid⟩, hw⟩

theorem ensures_pauseAndDrain (drains : Nat → DrainAnswer) :
    Proc.Ensures (Fixed l9 saved) (pauseAndDrain drains)
      (fun _ => Fixed l9 saved) Inconclusive := by
  refine .loopUntil_keep _ (fun a => ?_) (.fail fun w hw => rfl)
  unfold drainStep
  refine .require_bind (fun w hw => rfl) fun _ => ?_
  refine .update_bind (Fixed l9 saved) (fun w hw => hw) ?_
  refine .ite (fun _ => ?_) fun _ => ?_
  · exact .update_bind (Fixed l9 saved) (fun w hw => hw) (.pure fun w hw => hw)
  · refine .update_bind (Fixed l9 saved) (fun w hw => hw) ?_
    exact .require_bind (fun w hw => rfl) fun _ => .pure fun w hw => hw

/-- What the observation holds when Litestream is started again. -/
structure Measured (env : Answers) (exitWAL drainedWAL : Generation) (o : Observation) : Prop where
  l9Before : o.l9Before = env.l9Before
  savedHeader : o.savedHeader = exitWAL.header
  finalWAL : o.finalWAL = drainedWAL
  resets : o.resets = walResetCount exitWAL.header drainedWAL.header

theorem ensures_measure (env : Answers) (exitWAL : Generation) :
    Proc.Ensures (Fixed env.l9Before exitWAL.header) (measure env)
      (fun _ w => ∃ drainedWAL, env.drainedWAL = some drainedWAL ∧ drainedWAL.header.valid = true ∧
        Measured env exitWAL drainedWAL w.observation) Inconclusive := by
  unfold measure
  refine .expect_bind (fun w hw => rfl) fun drainedWAL hdrained => ?_
  refine .require_bind (fun w hw => rfl) fun hvalid => ?_
  refine .update_bind
    (fun w => Fixed env.l9Before exitWAL.header w ∧ w.observation.finalWAL = drainedWAL)
    (fun w hw => ⟨hw.record drainedWAL, (recordGeneration_frame _ _ drainedWAL).1⟩) ?_
  refine .update_bind (fun w => Measured env exitWAL drainedWAL w.observation)
    (fun w hw => ⟨hw.1.1, hw.1.2, hw.2, ?_⟩) ?_
  · -- the resets are counted from the header after the exit to the sample
    show walResetCount w.observation.savedHeader w.observation.finalWAL.header = _
    rw [hw.1.2, hw.2]
  refine .update fun w hw => ⟨drainedWAL, hdrained, hvalid, ?_⟩
  exact ⟨hw.l9Before, hw.savedHeader, hw.finalWAL, hw.resets⟩

/-- The shape is confirmed: Litestream was stopped and started again, and between the header after
its exit and the sample after the drain the WAL was reset often enough. -/
structure Shaped (c : Check) (env : Answers) (o : Observation) : Prop where
  stopped : env.stopped = true
  measured : ∃ exitWAL drainedWAL, env.exitWAL = some exitWAL ∧ exitWAL.header.valid = true ∧
    env.drainedWAL = some drainedWAL ∧ drainedWAL.header.valid = true ∧
    o.savedHeader = exitWAL.header ∧ o.finalWAL = drainedWAL ∧
    c.minResets ≤ walResetCount exitWAL.header drainedWAL.header
  shape : o.shapeEvidence = .confirmed
  started : env.started = true
  restarted : o.restarted = true

/-- A sync answered that everything was replicated. -/
def CaughtUp (env : Answers) : Prop :=
  ∃ a ∈ env.catchUps, ∃ txid replicated, a.response = some (txid, replicated) ∧ txid ≠ 0 ∧
    txid ≤ replicated

/-- All a passed or failed result rests on. -/
structure Conclusive (c : Check) (env : Answers) (o : Observation) :
    Prop extends Shaped c env o where
  caughtUp : CaughtUp env
  known : env.l9Before.known = true ∧ env.l9After.known = true
  unchanged : env.l9Before.objects = env.l9After.objects

theorem ensures_catchUpStep (c : Check) (env : Answers) {a : SyncAnswer} (ha : a ∈ env.catchUps) :
    Proc.Ensures (fun w => Shaped c env w.observation ∧ w.observation.l9Before = env.l9Before)
      (catchUpStep a)
      (fun ended w => (Shaped c env w.observation ∧ w.observation.l9Before = env.l9Before) ∧
        (ended = true → CaughtUp env)) Inconclusive := by
  unfold catchUpStep
  refine .bind (Q := fun caughtUp w =>
    (Shaped c env w.observation ∧ w.observation.l9Before = env.l9Before) ∧
      (caughtUp = true → CaughtUp env)) ?_ fun caughtUp => ?_
  · cases hresponse : a.response with
    | none => exact .pure fun w hw => ⟨hw, (absurd · Bool.false_ne_true)⟩
    | some response =>
      obtain ⟨txid, replicated⟩ := response
      refine .update_bind (fun w => Shaped c env w.observation ∧
        w.observation.l9Before = env.l9Before) (fun w hw => ?_)
          (.pure fun w hw => ⟨hw, fun h => ?_⟩)
      · exact ⟨⟨hw.1.stopped, hw.1.measured, hw.1.shape, hw.1.started, hw.1.restarted⟩, hw.2⟩
      · grind [CaughtUp]
  · refine .ite (fun hover => .pure fun w hw => ⟨hw.1, fun _ => hw.2 hover⟩) fun _ => ?_
    refine .ite (fun _ => .pure fun w hw => ⟨hw.1, (absurd · Bool.false_ne_true)⟩) fun _ => ?_
    exact .ite (fun _ => .fail fun w hw => rfl) fun _ => .fail fun w hw => rfl

theorem ensures_restartAndCatchUp (c : Check) (env : Answers) {exitWAL drainedWAL : Generation}
    (hstopped : Stopped env exitWAL) (hdrained : env.drainedWAL = some drainedWAL)
    (hvalid : drainedWAL.header.valid = true) :
    Proc.Ensures (fun w => Measured env exitWAL drainedWAL w.observation) (restartAndCatchUp c env)
      (fun _ w => Shaped c env w.observation ∧ w.observation.l9Before = env.l9Before ∧ CaughtUp env)
      Inconclusive := by
  unfold restartAndCatchUp
  refine .bind (Q := fun _ w => Measured env exitWAL drainedWAL w.observation ∧
    env.started = true ∧ w.observation.restarted = true) ?_ fun _ => ?_
  · unfold restart
    refine .update_bind (fun w => Measured env exitWAL drainedWAL w.observation) (fun w hw => hw) ?_
    refine .require_bind (fun w hw => rfl) fun hstarted => ?_
    exact .update fun w hw =>
      ⟨⟨hw.l9Before, hw.savedHeader, hw.finalWAL, hw.resets⟩, hstarted, rfl⟩
  refine .get_bind fun before => ?_
  refine .require_bind (fun w hw => rfl) fun hresets => ?_
  refine .require_bind (fun w hw => rfl) fun hshape => ?_
  have hloop : Proc.Ensures
      (fun w => Shaped c env w.observation ∧ w.observation.l9Before = env.l9Before)
      (Proc.loopUntil catchUpStep (Proc.fail (Err.of .catchUpTimeout)) env.catchUps)
      (fun _ w => Shaped c env w.observation ∧ w.observation.l9Before = env.l9Before ∧ CaughtUp env)
      Inconclusive := by
    refine .loopUntil _ (fun a ha => ?_) (.fail fun w hw => rfl)
    refine (ensures_catchUpStep c env ha).imp (fun _ h => h) (fun ended w hw => ?_) fun _ _ h => h
    cases ended with
    | true => exact ⟨hw.1.1, hw.1.2, hw.2 rfl⟩
    | false => exact hw.1
  refine hloop.imp (fun w hw => ?_) (fun _ _ h => h) fun _ _ h => h
  obtain ⟨⟨hmeasured, hstarted, hrestarted⟩, rfl⟩ := hw
  refine ⟨⟨hstopped.stopped, ?_, by simpa using hshape, hstarted, hrestarted⟩, hmeasured.l9Before⟩
  have hmin : c.minResets ≤ w.observation.resets := by simpa using hresets
  exact ⟨exitWAL, drainedWAL, hstopped.read, hstopped.valid, hdrained, hvalid,
    hmeasured.savedHeader,
    hmeasured.finalWAL, hmeasured.resets ▸ hmin⟩

/-- The validation, asked on a confirmed shape with the listings equal, had no error. -/
def Accepted (c : Check) (env : Answers) (w : World) : Prop :=
  Conclusive c env w.observation ∧ env.validation.2 = none

/-- An error of the validation, asked on a confirmed shape with the listings equal. -/
def Judged (c : Check) (env : Answers) (e : Err) (w : World) : Prop :=
  e.inconclusive = true ∨ (Conclusive c env w.observation ∧ env.validation.2 = some e)

theorem ensures_validate (c : Check) (env : Answers) :
    Proc.Ensures
      (fun w => Shaped c env w.observation ∧ w.observation.l9Before = env.l9Before ∧ CaughtUp env)
      (validate env)
      (fun _ => Accepted c env) (Judged c env) := by
  unfold validate
  refine .update_bind (fun w => Shaped c env w.observation ∧
    w.observation.l9Before = env.l9Before ∧ CaughtUp env) (fun w hw => hw) ?_
  refine .update_bind (fun w => Shaped c env w.observation ∧
    (w.observation.l9Before = env.l9Before ∧ w.observation.l9After = env.l9After) ∧ CaughtUp env)
    (fun w hw => ?_) ?_
  · have hshaped := hw.1
    exact ⟨⟨hshaped.stopped, hshaped.measured, hshaped.shape, hshaped.started, hshaped.restarted⟩,
      ⟨hw.2.1, rfl⟩, hw.2.2⟩
  refine .get_bind fun before => ?_
  refine .require_bind (fun w hw => .inl rfl) fun hlistings => ?_
  have hconclusive : ∀ w : World, (Shaped c env w.observation ∧
      (w.observation.l9Before = env.l9Before ∧ w.observation.l9After = env.l9After) ∧
      CaughtUp env) ∧ w = before → Conclusive c env w.observation := by
    rintro w ⟨⟨hshaped, ⟨hbefore, hafter⟩, hcaughtUp⟩, rfl⟩
    -- the listings were compared, so both are known and they are equal
    have hequal : (env.l9Before.known = true ∧ env.l9After.known = true) ∧
        env.l9Before.objects = env.l9After.objects := by
      simpa [Observation.snapshotInterference, L9.changed, hbefore, hafter] using hlistings
    exact ⟨hshaped, hcaughtUp, hequal.1, hequal.2⟩
  cases hvalidation : env.validation.2 with
  | none => exact .pure fun w hw => ⟨hconclusive w hw, hvalidation⟩
  | some e => exact .fail fun w hw => .inr ⟨hconclusive w hw, hvalidation⟩

theorem Judged.of_inconclusive {c : Check} {env : Answers} :
    ∀ e w, Inconclusive e w → Judged c env e w := fun _ _ h => .inl h

theorem ensures_conclude (c : Check) (env : Answers) {exitWAL : Generation}
    (hstopped : Stopped env exitWAL) :
    Proc.Ensures (Fixed env.l9Before exitWAL.header) (conclude c env)
      (fun _ => Accepted c env) (Judged c env) := by
  unfold conclude
  refine .bind_keep ((ensures_pauseAndDrain env.drains).imp_error Judged.of_inconclusive)
    fun _ => ?_
  refine .deferring (Q := fun _ => Accepted c env)
    (E := Judged c env) ?_ ?_ ?_
  · refine .bind ((ensures_measure env exitWAL).imp_error Judged.of_inconclusive) fun _ => ?_
    intro w hw
    obtain ⟨drainedWAL, hdrained, hvalid, hmeasured⟩ := hw
    have hrest : Proc.Ensures (fun w => Measured env exitWAL drainedWAL w.observation)
        (restartAndCatchUp c env >>= fun _ => Proc.update World.resume >>= fun _ => validate env)
        (fun _ => Accepted c env) (Judged c env) := by
      refine .bind ((ensures_restartAndCatchUp c env hstopped hdrained hvalid).imp_error
        Judged.of_inconclusive) fun _ => ?_
      refine .update_bind _ (fun w hw => ?_) (ensures_validate c env)
      rw [observation_resume]
      exact hw
    exact hrest w hmeasured
  -- a resume leaves the observation
  · grind [observation_resume, Accepted, deferResume]
  · grind [Judged, observation_resume, deferResume]

theorem ensures_burst (c : Check) (bursts : List BurstAnswer) :
    Proc.Ensures (fun _ => True)
      (Proc.loopUntil (burstStep c) (Proc.fail (Err.of .shapeNotReached)) bursts)
      (fun _ _ => True) Inconclusive := by
  refine .loopUntil_keep _ (fun a => ?_) (.fail fun w hw => rfl)
  unfold burstStep
  refine .expect_bind (fun w hw => rfl) fun wal _ => ?_
  refine .bind_keep ?_ fun _ => ?_
  · unfold holdReader
    refine .get_bind fun before => ?_
    refine .ite (fun _ => ?_) fun _ => .pure fun _ _ => trivial
    exact .require_bind (fun w hw => rfl) fun _ => .update fun _ _ => trivial
  refine .get_bind fun before => ?_
  refine .ite (fun _ => .pure fun _ _ => trivial) fun _ => ?_
  refine .require_bind (fun w hw => rfl) fun _ => ?_
  refine .require_bind (fun w hw => rfl) fun _ => ?_
  refine .update_bind (fun _ => True) (fun _ _ => trivial) ?_
  exact .require_bind (fun w hw => rfl) fun _ => .pure fun _ _ => trivial

theorem deferRestart_judged {c : Check} {env : Answers} {recovered : Bool} {e : Err}
    (h : Judged c env e w) :
    ∃ w', deferRestart recovered (.error e) w = (.error e, w') ∧ Judged c env e w' := by
  unfold deferRestart
  split
  · exact ⟨w, rfl, h⟩
  · next hnot =>
    have hinconclusive : e.inconclusive = true := by
      rcases h with hinc | ⟨hconclusive, -⟩
      · exact hinc
      · exact absurd hconclusive.restarted hnot
    grind [Judged]

/-- **What a conclusion rests on.** -/
theorem ensures_run (c : Check) (env : Answers) :
    Proc.Ensures (fun _ => True) (run c env)
      (fun _ => Accepted c env) (Judged c env) := by
  have hbody : Proc.Ensures (Listed env)
      (do stopAndReset c env; conclude c env)
      (fun _ => Accepted c env) (Judged c env) := by
    refine .bind ((ensures_stopAndReset c env).imp_error Judged.of_inconclusive) fun _ => ?_
    rintro w ⟨exitWAL, hstopped, hfixed⟩
    exact ensures_conclude c env hstopped w hfixed
  have hrecovered : Proc.Ensures (Listed env)
      (Proc.deferring (deferRestart env.recovered) do
        stopAndReset c env
        conclude c env)
      (fun _ => Accepted c env) (Judged c env) := by
    refine .deferring hbody ?_ ?_
    · intro _ w hw
      simpa [deferRestart, hw.1.restarted] using hw
    · intro e w hw
      obtain ⟨w', hw', hjudged⟩ := deferRestart_judged hw
      rw [hw']
      exact hjudged
  unfold run
  refine .deferring (Q := fun _ => Accepted c env)
    (E := Judged c env) ?_ ?_ ?_
  · refine .bind_keep ((ensures_burst c env.bursts).imp_error Judged.of_inconclusive) fun _ => ?_
    refine .update_bind (Listed env) (fun w _ => rfl) ?_
    refine .update_bind (Listed env) (fun w hw => hw) ?_
    exact .deferring hrecovered (fun _ w hw => hw) fun e w hw => hw
  -- a release leaves the observation
  · grind [Accepted, observation_release, deferRelease]
  · grind [Judged, observation_release, deferRelease]

/-! ## §2 — what is undone -/

variable {a : Account}

/-- The last word of the effects, newest first, on what `speaks` is about. -/
def latest (speaks : Effect → Option Bool) : List Effect → Bool
  | [] => false
  | e :: es => (speaks e).getD (latest speaks es)

def onStop : Effect → Option Bool
  | .stop => some true
  | .start => some false
  | _ => none

def onReader : Effect → Option Bool
  | .holdReader => some true
  | .releaseReader => some false
  | _ => none

def onLoad : Effect → Option Bool
  | .pauseLoad => some true
  | .resumeLoad => some false
  | _ => none

def onDowntime : Effect → Option Bool
  | .downtime on => some on
  | _ => none

/-- Everything is undone: a start was attempted after the stop, the reader was released exactly once
if it was taken, every pause of the load was followed by its resume, and downtime is cleared. -/
structure Recovered (effects : List Effect) : Prop where
  started : latest onStop effects = false
  readerFree : latest onReader effects = false
  released : effects.count .releaseReader = effects.count .holdReader
  heldOnce : effects.count .holdReader ≤ 1
  loadRuns : latest onLoad effects = false
  resumed : effects.count .resumeLoad = effects.count .pauseLoad
  downtime : latest onDowntime effects = false

/-- What the effects are balanced against. -/
structure Account where
  effects : List Effect
  reader : Reader
  paused : Bool
  readerHeldAt : Int
  restarted : Bool

def World.account (w : World) : Account :=
  ⟨w.effects, w.reader, w.paused, w.observation.readerHeldAt, w.observation.restarted⟩

/-- The step touches nothing that is accounted for. -/
def Quiet {α : Type} (x : Step α) : Prop := ∀ I : Account → Prop, x.Preserves fun w => I w.account

theorem account_record (w : World) (wal : Generation) : (w.record wal).account = w.account := by
  grind [recordGeneration_frame, World.account, World.record]

theorem quiet_recordValid (wal : Generation) : Quiet (recordValid wal) := by
  intro I
  refine .ite (.update fun w hw => ?_) (.pure ())
  rw [account_record]
  exact hw

theorem quiet_restartWAL (attempts : Nat → AttemptAnswer) : Quiet (restartWAL attempts) := by
  intro I
  refine .bind .get fun before => .loopUntil _ (fun a => ?_) (.fail _)
  unfold attemptStep
  refine .bind (.update fun w hw => hw) fun _ => ?_
  refine .bind (.require _ _) fun _ => .bind (.expect _ _) fun wal => ?_
  refine .bind (quiet_recordValid wal I) fun _ => .ite (.pure _) ?_
  exact .bind (.require _ _) fun _ => .pure _

theorem quiet_downStep (a : DownAnswer) : Quiet (downStep a) := by
  intro I
  unfold downStep
  refine .bind (.catching (.bind (quiet_restartWAL _ I) fun _ => .pure _) fun e =>
    .ite (.fail _) (.ite (.pure _) (.fail _))) fun broke => .ite (.pure _) ?_
  refine .bind (.update fun w hw => hw) fun _ => .ite (.ite (.fail _) (.ite (.pure _) (.fail _))) ?_
  exact .bind (.expect _ _) fun wal => .bind (quiet_recordValid wal I) fun _ => .pure _

theorem quiet_measure (env : Answers) : Quiet (measure env) := by
  intro I
  refine .bind (.expect _ _) fun drainedWAL => .bind (.require _ _) fun _ => ?_
  refine .bind (.update fun w hw => ?_) fun _ => ?_
  · rw [account_record]
    exact hw
  · exact .bind (.update fun w hw => hw) fun _ => .update fun w hw => hw

theorem quiet_catchUpStep (a : SyncAnswer) : Quiet (catchUpStep a) := by
  intro I
  unfold catchUpStep
  refine .bind ?_ fun caughtUp => .ite (.pure _) (.ite (.pure _) (.ite (.fail _) (.fail _)))
  cases a.response with
  | none => exact .pure _
  | some response => exact .bind (.update fun w hw => hw) fun _ => .pure _

theorem quiet_validate (env : Answers) : Quiet (validate env) := by
  intro I
  refine .bind (.update fun w hw => hw) fun _ => .bind (.update fun w hw => hw) fun _ => ?_
  refine .bind .get fun before => .bind (.require _ _) fun _ => ?_
  cases env.validation.2 with
  | none => exact .pure _
  | some e => exact .fail e

/-- The reader and the load are as the effects left them; the reader is held at most once. -/
structure Balanced (a : Account) : Prop where
  reader : latest onReader a.effects = (a.reader == .held)
  held : a.effects.count .holdReader = if a.reader = .none then 0 else 1
  released : a.effects.count .releaseReader = if a.reader = .released then 1 else 0
  flag : a.readerHeldAt = 0 ↔ a.reader = .none
  load : latest onLoad a.effects = a.paused
  pauses : a.effects.count .pauseLoad = a.effects.count .resumeLoad + if a.paused then 1 else 0

theorem Balanced.effect (h : Balanced a) {e : Effect} (hreader : onReader e = none)
    (hload : onLoad e = none) : Balanced { a with effects := e :: a.effects } := by
  have hcount : ∀ e' : Effect, (onReader e' ≠ none ∨ onLoad e' ≠ none) →
      (e :: a.effects).count e' = a.effects.count e' := by
    intro e' he'
    refine count_cons_of_ne ?_
    rintro rfl
    simp [hreader, hload] at he'
  refine ⟨?_, ?_, ?_, h.flag, ?_, ?_⟩
  · show (onReader e).getD _ = _
    rw [hreader]
    exact h.reader
  · rw [hcount _ (.inl (by simp [onReader]))]
    exact h.held
  · rw [hcount _ (.inl (by simp [onReader]))]
    exact h.released
  · show (onLoad e).getD _ = _
    rw [hload]
    exact h.load
  · grind [onLoad, Balanced.pauses]

theorem Balanced.restarted (h : Balanced a) (restarted : Bool) :
    Balanced { a with restarted } := ⟨h.reader, h.held, h.released, h.flag, h.load, h.pauses⟩

theorem Balanced.hold (h : Balanced a) (hnone : a.readerHeldAt = 0) {depth : Int}
    (hdepth : 0 < depth) :
    Balanced { a with
      effects := .holdReader :: a.effects, reader := .held, readerHeldAt := depth } := by
  have hreader : a.reader = .none := h.flag.mp hnone
  have hheld := h.held
  have hreleased := h.released
  have hpauses := h.pauses
  rw [hreader] at hheld hreleased
  refine ⟨rfl, ?_, ?_, ?_, h.load, ?_⟩
  · simpa using hheld
  · simpa [count_cons] using hreleased
  · have hne : depth ≠ 0 := by omega
    simp [hne]
  · simpa [count_cons] using hpauses

theorem Balanced.release (h : Balanced w.account) :
    Balanced w.release.account ∧ w.release.reader ≠ .held := by
  unfold World.release
  split
  · next hreader =>
    have hheld := h.held
    have hreleased := h.released
    have hflag := h.flag
    simp only [World.account, hreader] at hheld hreleased hflag
    refine ⟨⟨rfl, ?_, ?_, ?_, h.load, ?_⟩, nofun⟩
    · simpa [World.account, count_cons] using hheld
    · simpa [World.account, count_cons] using hreleased
    · simpa [World.account] using hflag
    · show count .pauseLoad (.releaseReader :: w.effects) =
        count .resumeLoad (.releaseReader :: w.effects) + _
      rw [count_cons_of_ne (by decide), count_cons_of_ne (by decide)]
      exact h.pauses
  · next hreader => exact ⟨h, hreader⟩

theorem Balanced.resume (h : Balanced w.account) :
    Balanced w.resume.account ∧ w.resume.paused = false := by
  unfold World.resume
  split
  · next hpaused =>
    have hpauses := h.pauses
    simp only [World.account, hpaused, if_true] at hpauses
    refine ⟨⟨h.reader, ?_, ?_, h.flag, rfl, ?_⟩, rfl⟩
    · exact (count_cons_of_ne (by decide)).trans h.held
    · exact (count_cons_of_ne (by decide)).trans h.released
    · simpa [World.account, count_cons] using hpauses
  · next hpaused => exact ⟨h, by simpa using hpaused⟩

theorem Balanced.pause (h : Balanced a) (hpaused : a.paused = false) :
    Balanced { a with effects := .pauseLoad :: a.effects, paused := true } := by
  have hpauses := h.pauses
  simp only [hpaused, Bool.false_eq_true, if_false] at hpauses
  refine ⟨h.reader, ?_, ?_, h.flag, rfl, ?_⟩
  · exact (count_cons_of_ne (by decide)).trans h.held
  · exact (count_cons_of_ne (by decide)).trans h.released
  · simpa [count_cons] using hpauses

theorem Balanced.pauseResume (h : Balanced a) (hpaused : a.paused = false) :
    Balanced { a with effects := .resumeLoad :: .pauseLoad :: a.effects } := by
  have hpauses := h.pauses
  simp only [hpaused, Bool.false_eq_true, if_false] at hpauses
  refine ⟨h.reader, ?_, ?_, h.flag, hpaused.symm, ?_⟩
  · exact (count_cons_of_ne (by decide)).trans h.held
  · exact (count_cons_of_ne (by decide)).trans h.released
  · simpa [count_cons, hpaused] using hpauses

/-! ### the accounts along the cycle -/

/-- Before Litestream is stopped. -/
structure Early (a : Account) : Prop where
  balanced : Balanced a
  paused : a.paused = false
  restarted : a.restarted = false
  stop : latest onStop a.effects = false
  downtime : latest onDowntime a.effects = false

/-- While Litestream may be stopped. -/
structure Down (a : Account) : Prop where
  balanced : Balanced a
  paused : a.paused = false
  restarted : a.restarted = false

/-- Once the load may be paused: a restart is on record only after the start it came with. -/
structure Closing (a : Account) : Prop where
  balanced : Balanced a
  started : a.restarted = true → latest onStop a.effects = false

theorem Down.closing (h : Down a) : Closing a :=
  ⟨h.balanced, fun hrestarted => by simp [h.restarted] at hrestarted⟩

theorem early_burstStep (c : Check) (a : BurstAnswer) :
    (burstStep c a).Preserves fun w => Early w.account := by
  unfold burstStep
  refine .bind (.expect _ _) fun wal => .bind ?_ fun _ => ?_
  · unfold holdReader
    refine .get_bind fun before => .ite (fun hcond => ?_) fun _ => .pure fun w hw => hw.1
    refine .require_bind (fun w hw => hw.1) fun _ => .update fun w hw => ?_
    obtain ⟨hearly, rfl⟩ := hw
    -- the depth is positive, so the flag says that the reader is taken
    have hcond : (wal.header.valid = true ∧ w.observation.readerHeldAt = 0) ∧
        c.readerHoldBytes ≤ wal.generationEnd := by simpa using hcond
    have hdepth : 0 < wal.generationEnd := by
      have := c.readerHoldBytes_pos
      omega
    exact ⟨hearly.balanced.hold hcond.1.2 hdepth, hearly.paused, hearly.restarted, hearly.stop,
      hearly.downtime⟩
  · refine .bind .get fun before => .ite (.pure _) ?_
    refine .bind (.require _ _) fun _ => .bind (.require _ _) fun _ => ?_
    exact .bind (.update fun w hw => hw) fun _ => .bind (.require _ _) fun _ => .pure _

theorem down_stopAndReset (c : Check) (env : Answers) :
    (stopAndReset c env).Preserves fun w => Down w.account := by
  unfold stopAndReset
  refine .bind (.expect _ _) fun signalWAL => .bind (.update fun w hw => hw) fun _ => ?_
  refine .bind (.update fun w hw => ⟨hw.balanced.effect rfl rfl, hw.paused, hw.restarted⟩)
    fun _ => ?_
  refine .bind (.require _ _) fun _ => .bind (.expect _ _) fun exitWAL => ?_
  refine .bind (.require _ _) fun _ => .bind (.update fun w hw => hw) fun _ => ?_
  refine .bind (.update fun w hw => ?_) fun _ => ?_
  · have hsame : (w.observe fun o => o.recordSavedPosition exitWAL env.savedPosition).account =
        w.account := by
      cases env.savedPosition with
      | none => rfl
      | some position =>
        unfold World.observe Observation.recordSavedPosition
        dsimp only
        split <;> rfl
    rw [hsame]
    exact hw
  refine .bind .get fun before => .bind (.update fun w hw => ?_) fun _ => ?_
  · have hpaused : w.release.paused = w.paused := by
      unfold World.release
      split <;> rfl
    have hrestarted := congrArg Observation.restarted (observation_release w)
    exact ⟨hw.balanced.release.1, hpaused.trans hw.paused, hrestarted.trans hw.restarted⟩
  refine .bind (.require _ _) fun _ => .bind (.update fun w hw => hw) fun _ => ?_
  exact .loopUntil _ (fun a => quiet_downStep a Down) (.pure ())

theorem closing_pauseAndDrain (drains : Nat → DrainAnswer) :
    Proc.Ensures (fun w => Down w.account) (pauseAndDrain drains)
      (fun _ w => Closing w.account) (fun _ w => Down w.account) := by
  refine .loopUntil _ (fun a _ => ?_) (.fail fun w hw => hw)
  unfold drainStep
  refine .require_bind (fun w hw => hw) fun _ => ?_
  refine .update_bind (fun w => ∃ before, Down (World.account before) ∧
    w = before.effect .pauseLoad) (fun w hw => ⟨w, hw, rfl⟩) ?_
  refine .ite (fun _ => ?_) fun _ => ?_
  · refine .update_bind (fun w => Closing w.account) ?_ (.pure fun w hw => by simpa using hw)
    rintro w ⟨before, hdown, rfl⟩
    refine ⟨hdown.balanced.pause hdown.paused, fun hrestarted => ?_⟩
    exact absurd (hdown.restarted.symm.trans hrestarted) Bool.false_ne_true
  · refine .update_bind (fun w => Down w.account) ?_ ?_
    · rintro w ⟨before, hdown, rfl⟩
      exact ⟨hdown.balanced.pauseResume hdown.paused, hdown.paused, hdown.restarted⟩
    · exact .require_bind (fun w hw => hw) fun _ => .pure fun w hw => by simpa using hw

theorem closing_restart (started : Bool) :
    Proc.Ensures (fun w => Closing w.account) (restart started)
      (fun _ w => Closing w.account ∧ latest onStop w.effects = false)
      (fun _ w => Closing w.account ∧ latest onStop w.effects = false) := by
  unfold restart
  refine .update_bind (fun w => Closing w.account ∧ latest onStop w.effects = false)
    (fun w hw => ⟨⟨hw.balanced.effect rfl rfl, fun _ => rfl⟩, rfl⟩) ?_
  refine .require_bind (fun w hw => hw) fun _ => .update fun w hw => ?_
  exact ⟨⟨(hw.1.balanced.restarted true).effect rfl rfl, fun _ => hw.2⟩, hw.2⟩

theorem latest_onStop_resume (w : World) :
    latest onStop w.resume.effects = latest onStop w.effects := by
  unfold World.resume
  split <;> rfl

theorem restarted_resume (w : World) : w.resume.account.restarted = w.account.restarted :=
  congrArg Observation.restarted (observation_resume w)

theorem Closing.resume (h : Closing w.account) :
    Closing w.resume.account ∧ w.resume.paused = false := by
  obtain ⟨hbalanced, hpaused⟩ := h.balanced.resume
  refine ⟨⟨hbalanced, fun hrestarted => ?_⟩, hpaused⟩
  rw [restarted_resume] at hrestarted
  exact (latest_onStop_resume w).trans (h.started hrestarted)

theorem closing_conclude (c : Check) (env : Answers) :
    Proc.Ensures (fun w => Down w.account) (conclude c env)
      (fun _ w => Closing w.account ∧ w.paused = false)
      (fun _ w => Closing w.account ∧ w.paused = false) := by
  unfold conclude
  refine .bind ((closing_pauseAndDrain env.drains).imp_error
    fun _ w hw => ⟨hw.closing, hw.paused⟩) fun _ => ?_
  refine .deferring (Q := fun _ w => Closing w.account) (E := fun _ w => Closing w.account) ?_
    (fun _ w hw => hw.resume) fun _ w hw => hw.resume
  refine Proc.Preserves.bind (quiet_measure env Closing) fun _ => ?_
  refine Proc.Preserves.bind ?_ fun _ => ?_
  · unfold restartAndCatchUp
    refine Proc.Preserves.bind ((closing_restart env.started).imp (fun _ h => h)
      (fun _ _ h => h.1) fun _ _ h => h.1) fun _ => ?_
    refine .bind .get fun before => .bind (.require _ _) fun _ => .bind (.require _ _) fun _ => ?_
    exact .loopUntil _ (fun a => quiet_catchUpStep a Closing) (.fail _)
  · exact .bind (.update fun w hw => hw.resume.1) fun _ => quiet_validate env Closing

theorem deferRestart_recovers {recovered : Bool} {r : Except Err Unit}
    (h : Closing w.account) (hpaused : w.paused = false) :
    Balanced (deferRestart recovered r w).2.account ∧
      (deferRestart recovered r w).2.paused = false ∧
      latest onStop (deferRestart recovered r w).2.effects = false := by
  unfold deferRestart
  split
  · next hrestarted => exact ⟨h.balanced, hpaused, h.started hrestarted⟩
  · have hstart : Balanced (w.effect .start).account := h.balanced.effect rfl rfl
    cases recovered with
    | true => exact ⟨(hstart.restarted true).effect rfl rfl, hpaused, rfl⟩
    | false => exact ⟨hstart, hpaused, rfl⟩

/-- Nothing but the reader is left to be released. -/
structure Undone (w : World) : Prop where
  balanced : Balanced w.account
  paused : w.paused = false
  stop : latest onStop w.effects = false
  downtime : latest onDowntime w.effects = false

theorem Undone.release (h : Undone w) : Recovered w.release.effects := by
  obtain ⟨hafter, hreader⟩ := h.balanced.release
  have hframe : w.release.paused = w.paused ∧
      latest onStop w.release.effects = latest onStop w.effects ∧
      latest onDowntime w.release.effects = latest onDowntime w.effects := by
    unfold World.release
    split <;> exact ⟨rfl, rfl, rfl⟩
  have hpaused : w.release.paused = false := hframe.1.trans h.paused
  have hheld : w.release.effects.count .holdReader =
      if w.release.reader = .none then 0 else 1 := hafter.held
  have hreleased : w.release.effects.count .releaseReader =
      if w.release.reader = .released then 1 else 0 := hafter.released
  have hpauses : w.release.effects.count .pauseLoad =
      w.release.effects.count .resumeLoad + if w.release.paused then 1 else 0 := hafter.pauses
  refine
    { started := hframe.2.1.trans h.stop
      readerFree := hafter.reader.trans (beq_false_of_ne hreader)
      released := ?_
      heldOnce := ?_
      loadRuns := hafter.load.trans hpaused
      resumed := ?_
      downtime := hframe.2.2.trans h.downtime }
  · -- the reader is not held any more, so it was never taken or has been released
    cases hcase : w.release.reader with
    | none => simp [hheld, hreleased, hcase]
    | held => exact absurd hcase hreader
    | released => simp [hheld, hreleased, hcase]
  · rw [hheld]
    split <;> omega
  · simp only [hpaused, Bool.false_eq_true, if_false] at hpauses
    omega

/-- **Everything is undone**, whichever way the cycle ends. -/
theorem recovered_run (c : Check) (env : Answers) :
    Proc.Ensures (fun w => Early w.account) (run c env) (fun _ w => Recovered w.effects)
      (fun _ w => Recovered w.effects) := by
  have hbody : Proc.Ensures (fun w => Down w.account) (do stopAndReset c env; conclude c env)
      (fun _ w => Closing w.account ∧ w.paused = false)
      (fun _ w => Closing w.account ∧ w.paused = false) :=
    .bind ((down_stopAndReset c env).imp_error fun _ w hw => ⟨hw.closing, hw.paused⟩)
      fun _ => closing_conclude c env
  -- the two recoveries that close the down window
  have hwindow : Proc.Ensures (fun w => Down w.account)
      (Proc.deferring (deferRestart env.recovered) do stopAndReset c env; conclude c env)
      (fun _ w => Balanced w.account ∧ w.paused = false ∧ latest onStop w.effects = false)
      (fun _ w => Balanced w.account ∧ w.paused = false ∧ latest onStop w.effects = false) :=
    hbody.deferring_always fun r w hw => deferRestart_recovers hw.1 hw.2
  unfold run
  refine .deferring_always (J := Undone) ?_ fun r w hw => hw.release
  refine .bind (Q := fun _ w => Early w.account) ?_ fun _ => ?_
  · refine (Proc.Preserves.loopUntil env.bursts (early_burstStep c) (.fail _)).imp_error
      fun _ w hw => ?_
    exact ⟨hw.balanced, hw.paused, hw.stop, hw.downtime⟩
  refine .update_bind (fun w => Early w.account) (fun w hw => hw) ?_
  refine .update_bind (fun w => Down w.account) (fun w hw => ?_) ?_
  · exact ⟨hw.balanced.effect rfl rfl, hw.paused, hw.restarted⟩
  · refine hwindow.deferring_always fun r w hw => ?_
    exact ⟨hw.1.effect rfl rfl, hw.2.1, hw.2.2, rfl⟩

/-! ## §3 — the cycle -/

/-- **The WAL-reset cycle is sound and recovers.** Whatever the outside answers: a result that is
not aborted rests on a confirmed shape, a restart, a replica that caught up and unchanged snapshot
listings; a passed one on a validation without an error as well; and every result, aborted ones
included, leaves everything undone that the cycle did. -/
theorem cycle_sound (c : Check) (gate : Bool) (env : Answers) {result : Result} {w : World}
    (hcycle : cycle c gate env = some (result, w)) :
    (result.status ≠ .aborted → Conclusive c env w.observation) ∧
      (result.status = .passed → env.validation.2 = none) ∧ Recovered w.effects := by
  have hstart : Early (World.account {}) :=
    ⟨⟨rfl, rfl, rfl, by simp [World.account], rfl, rfl⟩, rfl, rfl, rfl, rfl⟩
  have hjudged := ensures_run c env {} trivial
  have hrecovered := recovered_run c env {} hstart
  unfold cycle at hcycle
  cases gate with
  | false => cases hcycle
  | true =>
    simp only [if_true, Option.some.injEq, Prod.mk.injEq] at hcycle
    obtain ⟨rfl, rfl⟩ := hcycle
    match hrun : run c env {} with
    | (.ok _, w) =>
      rw [hrun] at hjudged hrecovered
      exact ⟨fun _ => hjudged.1, fun _ => hjudged.2, hrecovered⟩
    | (.error e, w) =>
      rw [hrun] at hjudged hrecovered
      refine ⟨fun hstatus => ?_, fun hstatus => ?_, hrecovered⟩
      · rcases hjudged with hinconclusive | ⟨hconclusive, -⟩
        · simp [walResetResult, hinconclusive] at hstatus
        · exact hconclusive
      · cases hinconclusive : e.inconclusive <;> simp [walResetResult, hinconclusive] at hstatus

/-- A reading of the WAL with these salts and frames. -/
def reading (salt1 salt2 : UInt32) (frames : Int) : Generation :=
  { header := ⟨salt1, salt2, true⟩, fileBytes := 16480032, frameSize := 4120
    committedFrames := frames, writtenFrames := frames }

/-- A cycle as it is meant: five resets, each generation longer than the last and all shorter than
the saved position. -/
def plannedAnswers (validation : Option Err) : Answers :=
  { bursts := [⟨some (reading 10 1 4000), true, false, false, 64, true⟩]
    l9Before := ⟨[], true⟩
    signalWAL := some (reading 10 1 4000)
    stopped := true
    exitWAL := some (reading 10 1 4000)
    savedPosition := some ⟨16480032, 10, 1, true⟩
    released := true
    downs := fun k =>
      { attempts := fun _ => ⟨1, true, some (reading (11 + k.toUInt32) (2 + k.toUInt32) 1), true⟩
        cancelled := false, expired := false, rows := 300, written := true
        burstCancelled := false, burstExpired := false
        wal := some (reading (11 + k.toUInt32) (2 + k.toUInt32) (300 + 100 * k)) }
    drains := fun _ => ⟨true, true, true⟩
    drainedWAL := some (reading 15 6 700)
    frameSalts := fun _ _ _ _ => some { checked := true }
    started := true
    recovered := true
    catchUps := [⟨some (7, 7), true, false⟩]
    validation := ({ boundary := 7 }, validation)
    l9After := ⟨[], true⟩ }

/-- The planned cycle is conclusive with either answer of the validation, and undoes its effects. -/
theorem cycle_sound_planned :
    (∃ result w, cycle newWALResetCheck true (plannedAnswers none) = some (result, w) ∧
      result.status = .passed ∧ Conclusive newWALResetCheck (plannedAnswers none) w.observation ∧
      Recovered w.effects) ∧
    ∃ result w, cycle newWALResetCheck true (plannedAnswers (some ⟨[]⟩)) = some (result, w) ∧
      result.status = .failed ∧
      Conclusive newWALResetCheck (plannedAnswers (some ⟨[]⟩)) w.observation ∧
      Recovered w.effects := by
  have hpassed : (cycle newWALResetCheck true (plannedAnswers none)).map (·.1.status) =
      some .passed := by decide +kernel
  have hfailed : (cycle newWALResetCheck true (plannedAnswers (some ⟨[]⟩))).map (·.1.status) =
      some .failed := by decide +kernel
  obtain ⟨⟨result, w⟩, hcycle, hstatus⟩ := Option.map_eq_some_iff.mp hpassed
  obtain ⟨⟨result', w'⟩, hcycle', hstatus'⟩ := Option.map_eq_some_iff.mp hfailed
  obtain ⟨hconclusive, -, hrecovered⟩ := cycle_sound _ _ _ hcycle
  obtain ⟨hconclusive', -, hrecovered'⟩ := cycle_sound _ _ _ hcycle'
  refine ⟨⟨result, w, hcycle, hstatus, hconclusive ?_, hrecovered⟩,
    ⟨result', w', hcycle', hstatus', hconclusive' ?_, hrecovered'⟩⟩
  · exact fun haborted => nomatch hstatus.symm.trans haborted
  · exact fun haborted => nomatch hstatus'.symm.trans haborted

end LitestreamSoak.Worker.WALReset
