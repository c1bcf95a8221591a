import LitestreamSoak.Worker.ReplayEngine

/-!
# Worker — what Pause and Resume of the replay engine guarantee

The channel `ackCh` of the pause in force is closed only while the engine is at rest: parked in
that pause, not running, or on its way out of `Run` with its context done (`Inv.rest`). `Pause`
returns nil when it finds its channel closed, so the engine is at rest from then on until `Resume`.

Two things break this, and the results below are about the runs without them (`apart`):

* **`Run` called while the engine is paused.** The pause was acknowledged because nothing ran, and
  `Run` goes through `CreateTables` before its first `waitIfPaused`. `superviseReplay` does call it
  so, when a failed `Run` is due again while the verifier compares (`restart_writes_while_paused`).
* **`Resume` called while a `Pause` is waiting.** `Resume` forgets `ackCh`, closed or not: the
  `Pause` may then return nil although the engine runs, or wait for a channel nobody closes.
-/

namespace LitestreamSoak.Worker.ReplayEngine

open Lib List

/-! ## §1 — the invariant -/

def EnginePC.resting (resume : Option Chan) (cancelled : Bool) : EnginePC → Prop
  | .idle | .finishing => True
  | .parked _ ch => resume = some ch
  | .checked _ => cancelled = true
  | _ => False

structure InForce (s : State) (n : Nat) : Prop where
  lt : n < s.channels
  resumeCh : s.resumeCh = some (.resume n)
  ackCh : s.ackCh = some (.ack n)
  resume_open : .resume n ∉ s.closed
  ackClosed : s.ackClosed = true ↔ .ack n ∈ s.closed

structure Inv (s : State) : Prop where
  running : s.running = true ↔ s.engine ≠ .idle
  fresh : ∀ n, .ack n ∈ s.closed ∨ .resume n ∈ s.closed → n < s.channels
  pauseCh : ∃ n, s.pauseCh = .pause n
  inForce : s.paused = true → ∃ n, InForce s n
  idle : s.paused = true → s.engine = .idle → s.ackClosed = true
  rest : s.paused = true → s.ackClosed = true → s.engine.resting s.resumeCh s.cancelled
  parked : ∀ g ch, s.engine = .parked g ch →
    (s.paused = true ∧ s.resumeCh = some ch ∧ s.ackClosed = true) ∨ ch ∈ s.closed
  waiting : ∀ ack, .waiting ack ∈ s.calls → s.paused = true ∧ s.ackCh = ack
  quiet : s.quiet = true → s.paused = true ∧ s.ackClosed = true

theorem inv_start : Inv {} where
  running := by simp
  fresh n h := by simp at h
  pauseCh := ⟨0, rfl⟩
  inForce h := nomatch h
  idle h := nomatch h
  rest h := nomatch h
  parked _ _ h := nomatch h
  waiting _ h := nomatch h
  quiet h := nomatch h

/-! ## §2 — acknowledging -/

variable {s : State}

theorem closeAckLocked_of_open {n : Nat} (hn : InForce s n)
    (hopen : s.ackClosed = false) :
    closeAckLocked s = { s with closed := .ack n :: s.closed, ackClosed := true } := by
  unfold closeAckLocked
  rw [if_neg (by simp [hopen]), hn.ackCh]
  rfl

/-- **Acknowledging.** A critical section that brings the engine to rest in the pause in force, and
then closes its channel, gives the invariant; before it the channel may be open. -/
theorem inv_closeAckLocked {n : Nat} (hpaused : s.paused = true) (hn : InForce s n)
    (hrest : s.engine.resting s.resumeCh s.cancelled)
    (hrunning : s.running = true ↔ s.engine ≠ .idle)
    (hfresh : ∀ n, .ack n ∈ s.closed ∨ .resume n ∈ s.closed → n < s.channels)
    (hpauseCh : ∃ n, s.pauseCh = .pause n)
    (hwaiting : ∀ ack, .waiting ack ∈ s.calls → s.paused = true ∧ s.ackCh = ack) :
    Inv (closeAckLocked s) := by
  have hparked : ∀ g ch, s.engine = .parked g ch → s.resumeCh = some ch := by
    intro g ch hpc
    rw [hpc] at hrest
    exact hrest
  cases hopen : s.ackClosed with
  | true =>
    unfold closeAckLocked
    rw [if_pos hopen]
    exact {
      running := hrunning
      fresh := hfresh
      pauseCh := hpauseCh
      inForce := fun _ => ⟨n, hn⟩
      idle := fun _ _ => hopen
      rest := fun _ _ => hrest
      parked := fun g ch hpc => .inl ⟨hpaused, hparked g ch hpc, hopen⟩
      waiting := hwaiting
      quiet := fun _ => ⟨hpaused, hopen⟩ }
  | false =>
    rw [closeAckLocked_of_open hn hopen]
    exact {
      running := hrunning
      fresh := fun m hm => by
        simp only [mem_cons, Chan.ack.injEq, reduceCtorEq, false_or] at hm
        rcases hm with (rfl | hm) | hm
        · exact hn.lt
        · exact hfresh m (.inl hm)
        · exact hfresh m (.inr hm)
      pauseCh := hpauseCh
      inForce := fun _ => ⟨n, hn.lt, hn.resumeCh, hn.ackCh, by simpa using hn.resume_open,
        by simp⟩
      idle := fun _ _ => rfl
      rest := fun _ _ => hrest
      parked := fun g ch hpc => .inl ⟨hpaused, hparked g ch hpc, rfl⟩
      waiting := hwaiting
      quiet := fun _ => ⟨hpaused, rfl⟩ }

/-! ## §3 — Run -/

variable {pc : EnginePC} {loop : Bool} {s' : State}

theorem Inv.goto (h : Inv s) (hne : s.engine ≠ .idle)
    (hpc : pc ≠ .idle) (hpark : ∀ g ch, pc ≠ .parked g ch)
    (hrest : s.paused = true → s.ackClosed = true → pc.resting s.resumeCh s.cancelled) :
    Inv (s.goto pc) where
  running := ⟨fun _ => hpc, fun _ => h.running.mpr hne⟩
  fresh := h.fresh
  pauseCh := h.pauseCh
  inForce hp := by
    obtain ⟨n, hn⟩ := h.inForce hp
    exact ⟨n, hn.lt, hn.resumeCh, hn.ackCh, hn.resume_open, hn.ackClosed⟩
  idle _ hidle := absurd hidle hpc
  rest := hrest
  parked g ch hp := absurd hp (hpark g ch)
  waiting := h.waiting
  quiet := h.quiet

theorem Inv.goto_of_busy (h : Inv s) (hne : s.engine ≠ .idle)
    (hbusy : ¬ s.engine.resting s.resumeCh s.cancelled) (hpc : pc ≠ .idle)
    (hpark : ∀ g ch, pc ≠ .parked g ch) : Inv (s.goto pc) :=
  h.goto hne hpc hpark fun hp ha => absurd (h.rest hp ha) hbusy

theorem Inv.park (h : Inv s) (hpaused : s.paused = true) (g : Gate)
    (hne : s.engine ≠ .idle) :
    Inv ((closeAckLocked s).goto (.parked g ((closeAckLocked s).resumeCh.getD (.resume 0)))) := by
  obtain ⟨n, hn⟩ := h.inForce hpaused
  have hresume : (closeAckLocked s).resumeCh = some (.resume n) := by
    unfold closeAckLocked
    split <;> exact hn.resumeCh
  -- parking and acknowledging are under one lock, in either order
  have hswap : (closeAckLocked s).goto (.parked g (.resume n))
      = closeAckLocked (s.goto (.parked g (.resume n))) := by
    unfold closeAckLocked State.goto
    dsimp only
    split <;> rfl
  rw [hresume, Option.getD_some, hswap]
  apply inv_closeAckLocked (n := n)
  · exact hpaused
  · exact ⟨hn.lt, hn.resumeCh, hn.ackCh, hn.resume_open, hn.ackClosed⟩
  · exact hn.resumeCh
  · exact ⟨fun _ => nofun, fun _ => h.running.mpr hne⟩
  · exact h.fresh
  · exact h.pauseCh
  · exact h.waiting

theorem Inv.finish (h : Inv s) : Inv (finish s) := by
  unfold ReplayEngine.finish
  dsimp only
  split
  · next hpaused =>
    obtain ⟨n, hn⟩ := h.inForce hpaused
    apply inv_closeAckLocked (n := n)
    · exact hpaused
    · exact ⟨hn.lt, hn.resumeCh, hn.ackCh, hn.resume_open, hn.ackClosed⟩
    · trivial
    · simp
    · exact h.fresh
    · exact h.pauseCh
    · exact h.waiting
  · next hpaused => exact {
      running := by simp
      fresh := h.fresh
      pauseCh := h.pauseCh
      inForce := fun hp => absurd hp hpaused
      idle := fun hp => absurd hp hpaused
      rest := fun hp => absurd hp hpaused
      parked := fun g ch hpc => nomatch hpc
      waiting := h.waiting
      quiet := fun hq => absurd (h.quiet hq).1 hpaused }

/-- The engine keeps the invariant. -/
theorem inv_engineStep {a : Answer} (h : Inv s)
    (hstep : engineStep loop s a = some s') : Inv s' := by
  unfold engineStep at hstep
  cases hpc : s.engine with
  | idle => simp [hpc] at hstep
  | opening | createTables | rows | due | failing | passEnd => grind [Inv.goto_of_busy,
      EnginePC.resting]
  | gate g =>
    simp only [hpc] at hstep
    split at hstep
    · next hpaused =>
      cases hstep
      exact h.park hpaused g (by simp [hpc])
    · cases hstep
      exact h.goto_of_busy (by simp [hpc]) (by simp [hpc, EnginePC.resting]) (by simp) (by simp)
  | parked g ch =>
    simp only [hpc] at hstep
    split at hstep
    · split at hstep
      · next hcancelled =>
        cases hstep
        exact h.goto (by simp [hpc]) (by simp) (by simp) fun _ _ => hcancelled
      · exact nomatch hstep
    · split at hstep
      · next hclosed =>
        cases hstep
        -- the channel of the pause in force is open, so this one is an earlier pause's
        refine h.goto (by simp [hpc]) (by simp) (by simp) fun hp ha => ?_
        have hrest := h.rest hp ha
        rw [hpc] at hrest
        obtain ⟨n, hn⟩ := h.inForce hp
        rw [EnginePC.resting, hn.resumeCh] at hrest
        cases hrest
        exact absurd hclosed hn.resume_open
      · exact nomatch hstep
  | checked g =>
    simp only [hpc] at hstep
    cases hstep
    refine h.goto (by simp [hpc]) ?_ ?_ fun hp ha => ?_
    · cases g <;> split <;> simp [Gate.after]
    · cases g <;> split <;> simp [Gate.after]
    · grind [Inv.rest, EnginePC.resting]
  | next | inserting => grind [Inv.goto_of_busy, EnginePC.resting]
  | decide => grind [Inv.goto_of_busy, EnginePC.resting]
  | sleeping ch => grind [Inv.goto_of_busy, EnginePC.resting]
  | retrying => grind [Inv.goto_of_busy, EnginePC.resting]
  | finishing =>
    simp only [hpc] at hstep
    cases hstep
    exact h.finish

/-! ## §4 — Pause and Resume -/

variable {k : Nat}

/-- The first part of `Pause` leaves a pause in force, acknowledged or not. -/
structure Pausing (s : State) : Prop where
  paused : s.paused = true
  inForce : ∃ n, InForce s n
  running : s.running = true ↔ s.engine ≠ .idle
  fresh : ∀ n, .ack n ∈ s.closed ∨ .resume n ∈ s.closed → n < s.channels
  pauseCh : ∃ n, s.pauseCh = .pause n
  rest : s.ackClosed = true → s.engine.resting s.resumeCh s.cancelled
  parked : ∀ g ch, s.engine = .parked g ch →
    (s.resumeCh = some ch ∧ s.ackClosed = true) ∨ ch ∈ s.closed
  waiting : ∀ ack, .waiting ack ∈ s.calls → s.ackCh = ack
  quiet : s.quiet = true → s.ackClosed = true

theorem Inv.beginPause (h : Inv s) : Pausing (beginPause s) := by
  unfold ReplayEngine.beginPause
  split
  · next hpaused => exact {
      paused := hpaused
      inForce := h.inForce hpaused
      running := h.running
      fresh := h.fresh
      pauseCh := h.pauseCh
      rest := h.rest hpaused
      parked := fun g ch hpc => (h.parked g ch hpc).imp_left And.right
      waiting := fun ack hack => (h.waiting ack hack).2
      quiet := fun hq => (h.quiet hq).2 }
  · next hpaused =>
    obtain ⟨p, hp⟩ := h.pauseCh
    -- the new channels have a number that no closed one has
    have hack : Chan.ack s.channels ∉ s.closed := fun hmem =>
      Nat.lt_irrefl _ (h.fresh _ (.inl hmem))
    have hresume : Chan.resume s.channels ∉ s.closed := fun hmem =>
      Nat.lt_irrefl _ (h.fresh _ (.inr hmem))
    exact {
      paused := rfl
      inForce := ⟨s.channels, Nat.lt_succ_self _, rfl, rfl, by simp [hp, hresume],
        by simp [hp, hack]⟩
      running := h.running
      fresh := fun n hn => by
        simp only [hp, mem_cons, reduceCtorEq, false_or] at hn
        exact Nat.lt_succ_of_lt (h.fresh n hn)
      pauseCh := h.pauseCh
      rest := fun ha => nomatch ha
      parked := fun g ch hpc => .inr (mem_cons_of_mem _
        ((h.parked g ch hpc).resolve_left fun hin => hpaused hin.1))
      waiting := fun ack hmem => absurd (h.waiting ack hmem).1 hpaused
      quiet := fun hq => absurd (h.quiet hq).1 hpaused }

theorem Inv.enroll (h : Inv s) (hpaused : s.paused = true) :
    Inv { s with calls := s.calls ++ [.waiting s.ackCh] } :=
  { h with
    inForce := fun hp => by
      obtain ⟨n, hn⟩ := h.inForce hp
      exact ⟨n, hn.lt, hn.resumeCh, hn.ackCh, hn.resume_open, hn.ackClosed⟩
    waiting := fun ack hack => by
      simp only [mem_append, mem_singleton, PauseCall.waiting.injEq] at hack
      rcases hack with hack | rfl
      · exact h.waiting ack hack
      · exact ⟨hpaused, rfl⟩ }

theorem inv_pause (h : Inv s) : Inv (pause s) := by
  have hp := h.beginPause
  unfold pause
  dsimp only
  split
  · next hrun =>
    have hbusy : (beginPause s).engine ≠ .idle := hp.running.mp hrun
    refine Inv.enroll ?_ hp.paused
    exact {
      running := hp.running
      fresh := hp.fresh
      pauseCh := hp.pauseCh
      inForce := fun _ => hp.inForce
      idle := fun _ hidle => absurd hidle hbusy
      rest := fun _ => hp.rest
      parked := fun g ch hpc => (hp.parked g ch hpc).imp_left fun hin => ⟨hp.paused, hin⟩
      waiting := fun ack hack => ⟨hp.paused, hp.waiting ack hack⟩
      quiet := fun hq => ⟨hp.paused, hp.quiet hq⟩ }
  · next hrun =>
    have hidle : (beginPause s).engine = .idle := by
      by_contra hne
      exact hrun (hp.running.mpr hne)
    have hsame : (closeAckLocked (beginPause s)).paused = true := by
      unfold closeAckLocked
      split <;> exact hp.paused
    refine Inv.enroll ?_ hsame
    obtain ⟨n, hn⟩ := hp.inForce
    apply inv_closeAckLocked hp.paused hn
    · rw [hidle]
      trivial
    · exact hp.running
    · exact hp.fresh
    · exact hp.pauseCh
    · exact fun ack hack => ⟨hp.paused, hp.waiting ack hack⟩

theorem Inv.leave (h : Inv s) {call : PauseCall}
    (hcall : call.isWaiting = false) (quiet : Bool)
    (hquiet : quiet = true → s.paused = true ∧ s.ackClosed = true) :
    Inv { s with calls := s.calls.set k call, quiet := quiet } :=
  { h with
    inForce := fun hp => by
      obtain ⟨n, hn⟩ := h.inForce hp
      exact ⟨n, hn.lt, hn.resumeCh, hn.ackCh, hn.resume_open, hn.ackClosed⟩
    waiting := fun ack hack => by
      rcases mem_or_eq_of_mem_set hack with hmem | heq
      · exact h.waiting ack hmem
      · rw [← heq] at hcall
        exact nomatch hcall
    quiet := hquiet }

theorem inv_pauseReturn (h : Inv s) (hstep : pauseReturn s k = some s') : Inv s' := by
  unfold pauseReturn at hstep
  split at hstep
  · next ack hk =>
    split at hstep
    · next hclosed =>
      cases hstep
      refine h.leave rfl true fun _ => ?_
      -- the call waits for the pause in force
      obtain ⟨hpaused, hack⟩ := h.waiting (some ack) (mem_of_getElem? hk)
      obtain ⟨n, hn⟩ := h.inForce hpaused
      rw [hn.ackCh] at hack
      cases hack
      exact ⟨hpaused, hn.ackClosed.mpr hclosed⟩
    · exact nomatch hstep
  · exact nomatch hstep

theorem inv_pauseCancel (h : Inv s) (hstep : pauseCancel s k = some s') : Inv s' := by
  unfold pauseCancel at hstep
  split at hstep
  · cases hstep
    exact h.leave rfl s.quiet h.quiet
  · exact nomatch hstep

theorem inv_resume (h : Inv s)
    (hnone : ∀ call ∈ s.calls, call.isWaiting = false) : Inv (resume s) := by
  have hwaiting : ∀ ack, PauseCall.waiting ack ∉ s.calls := fun ack hack =>
    nomatch hnone _ hack
  unfold resume
  split
  · next hpaused =>
    obtain ⟨n, hn⟩ := h.inForce hpaused
    exact {
      running := h.running
      fresh := fun m hm => by
        simp only [hn.resumeCh, Option.toList_some, singleton_append, mem_cons,
          reduceCtorEq, false_or, Chan.resume.injEq] at hm
        rcases hm with hm | rfl | hm
        · exact Nat.lt_succ_of_lt (h.fresh m (.inl hm))
        · exact Nat.lt_succ_of_lt hn.lt
        · exact Nat.lt_succ_of_lt (h.fresh m (.inr hm))
      pauseCh := ⟨_, rfl⟩
      inForce := fun hp => nomatch hp
      idle := fun hp => nomatch hp
      rest := fun hp => nomatch hp
      parked := fun g ch hpc => .inr (by
        rcases h.parked g ch hpc with ⟨-, hch, -⟩ | hclosed
        · simp [hch]
        · simp [hclosed])
      waiting := fun ack hack => absurd hack (hwaiting ack)
      quiet := fun hq => nomatch hq }
  · next hpaused =>
    exact { h with
      inForce := fun hp => absurd hp hpaused
      quiet := fun hq => nomatch hq }

/-! ## §5 — runs -/

/-- `Run` is not called while the engine is paused, nor `Resume` while a `Pause` is waiting. -/
def apart (s : State) : Action → Prop
  | .begin _ => s.paused = false
  | .resume => ∀ call ∈ s.calls, call.isWaiting = false
  | _ => True

instance : ∀ s a, Decidable (apart s a)
  | s, .begin _ => inferInstanceAs (Decidable (s.paused = false))
  | s, .resume => inferInstanceAs (Decidable (∀ call ∈ s.calls, call.isWaiting = false))
  | _, .engine _ | _, .cancel | _, .pause | _, .pauseReturn _ | _, .pauseCancel _ =>
    inferInstanceAs (Decidable True)

theorem inv_begin {cancelled : Bool} (h : Inv s) (hpaused : s.paused = false)
    (hstep : begin s cancelled = some s') : Inv s' := by
  have hno : s.paused ≠ true := by simp [hpaused]
  unfold begin at hstep
  split at hstep
  · cases hstep
    exact {
      running := by simp
      fresh := h.fresh
      pauseCh := h.pauseCh
      inForce := fun hp => absurd hp hno
      idle := fun hp => absurd hp hno
      rest := fun hp => absurd hp hno
      parked := fun g ch hpc => nomatch hpc
      waiting := h.waiting
      quiet := h.quiet }
  · exact nomatch hstep

theorem Inv.cancel (h : Inv s) : Inv { s with cancelled := true } :=
  { h with
    inForce := fun hp => by
      obtain ⟨n, hn⟩ := h.inForce hp
      exact ⟨n, hn.lt, hn.resumeCh, hn.ackCh, hn.resume_open, hn.ackClosed⟩
    rest := fun hp ha => by
      have hrest := h.rest hp ha
      dsimp only
      revert hrest
      cases s.engine <;> simp [EnginePC.resting] }

/-- A step that is `apart` keeps the invariant. -/
theorem inv_step {a : Action} (h : Inv s) (hok : apart s a)
    (hstep : step loop s a = some s') : Inv s' := by
  cases a with
  | begin cancelled => exact inv_begin h hok hstep
  | engine a => exact inv_engineStep h hstep
  | cancel =>
    cases hstep
    exact h.cancel
  | pause =>
    cases hstep
    exact inv_pause h
  | pauseReturn k => exact inv_pauseReturn h hstep
  | pauseCancel k => exact inv_pauseCancel h hstep
  | resume =>
    cases hstep
    exact inv_resume h hok

/-- The invariant holds along every run of such steps. -/
theorem inv_reaches (hs : (machine loop).Reaches apart s) : Inv s := by
  refine hs.invariant ?_ ?_
  · intro s hstart
    rw [show s = {} from hstart]
    exact inv_start
  · intro s a s' h hok hstep
    exact inv_step h hok hstep

/-! ## §6 — the results -/

theorem writing_of_resting {resume : Option Chan} {cancelled : Bool}
    (h : pc.resting resume cancelled) : pc.writing = false := by
  cases pc <;> first | rfl | exact h.elim

theorem Inv.pause_returns (h : Inv s) {ack : Option Chan}
    (hk : s.calls[k]? = some (.waiting ack)) (hclosed : s.ackClosed = true) :
    ∃ s', step loop s (.pauseReturn k) = some s' ∧ s'.calls[k]? = some .returned := by
  obtain ⟨hpaused, hack⟩ := h.waiting ack (mem_of_getElem? hk)
  obtain ⟨n, hn⟩ := h.inForce hpaused
  rw [hn.ackCh] at hack
  subst hack
  have hlt : k < s.calls.length := (List.getElem?_eq_some_iff.mp hk).1
  refine ⟨{ s with calls := s.calls.set k .returned, quiet := true }, ?_, ?_⟩
  · simp only [step, pauseReturn, hk]
    rw [if_pos (hn.ackClosed.mp hclosed)]
  · exact getElem?_set_self hlt

theorem parked_continues {g : Gate} {ch : Chan}
    (hpc : s.engine = .parked g ch) (hclosed : ch ∈ s.closed) :
    ∃ s', step loop s (.engine .chan) = some s' ∧ s'.engine = .checked g := by
  refine ⟨s.goto (.checked g), ?_, rfl⟩
  show engineStep loop s .chan = some (s.goto (.checked g))
  unfold engineStep
  simp only [hpc]
  rw [if_neg (by simp), if_pos hclosed]

/-- **A paused replay engine writes nothing.** In every run that calls `Run` only while the engine
is not paused, and `Resume` only while no `Pause` is waiting:

* from a `Pause` that returned nil to the next `Resume` the engine is not writing;
* a `Pause` that waits while the engine is not running, or is blocked in `waitIfPaused`, returns;
* an engine parked in `waitIfPaused` goes on after `Resume`, and in any state where the pause it
  parked in is over. -/
theorem paused_engine_writes_nothing {loop : Bool} {s : State}
    (hs : (machine loop).Reaches apart s) :
    (s.quiet = true → s.engine.writing = false) ∧
    (∀ k ack, s.calls[k]? = some (.waiting ack) →
      (s.engine = .idle ∨ ∃ g ch, s.engine = .parked g ch ∧ ch ∉ s.closed) →
      ∃ s', step loop s (.pauseReturn k) = some s' ∧ s'.calls[k]? = some .returned) ∧
    ∀ g ch, s.engine = .parked g ch →
      (∀ s', step loop s .resume = some s' →
        ∃ s'', step loop s' (.engine .chan) = some s'' ∧ s''.engine = .checked g) ∧
      (¬ (s.paused = true ∧ s.resumeCh = some ch) →
        ∃ s', step loop s (.engine .chan) = some s' ∧ s'.engine = .checked g) := by
  have h := inv_reaches hs
  refine ⟨fun hq => ?_, fun k ack hk hat => ?_, fun g ch hpc => ⟨fun s' hstep => ?_, ?_⟩⟩
  · obtain ⟨hpaused, hclosed⟩ := h.quiet hq
    exact writing_of_resting (h.rest hpaused hclosed)
  · refine h.pause_returns hk ?_
    obtain ⟨hpaused, -⟩ := h.waiting ack (mem_of_getElem? hk)
    rcases hat with hidle | ⟨g, ch, hpc, hopen⟩
    · exact h.idle hpaused hidle
    · exact ((h.parked g ch hpc).resolve_right hopen).2.2
  · cases hstep
    have hpc' : (resume s).engine = .parked g ch := by
      unfold resume
      split <;> exact hpc
    refine parked_continues hpc' ?_
    -- `Resume` closes the channel of the pause in force, and an earlier one is closed already
    unfold resume
    rcases h.parked g ch hpc with ⟨hpaused, hch, -⟩ | hclosed
    · rw [if_pos hpaused]
      simp [hch]
    · split
      · exact mem_append_right _ hclosed
      · exact hclosed
  · intro hover
    refine parked_continues hpc ((h.parked g ch hpc).resolve_left fun hin => ?_)
    exact hover ⟨hin.1, hin.2.1⟩

/-- Paused before its first row, the engine is parked. -/
theorem paused_engine_writes_nothing_parked : ∃ s, (machine true).Reaches apart s ∧
    s.quiet = true ∧ s.engine = .parked .row (.resume 1) ∧ s.engine.writing = false := by
  have hstart : (machine true).Reaches apart {} := .start rfl
  obtain ⟨s, hs, hq, hpc⟩ := Machine.exists_reaches_of_run hstart
    [.begin false, .engine .ok, .engine .ok, .engine .ok, .engine .ok, .engine .ok, .engine .ok,
      .pause, .engine .ok, .pauseReturn 0]
    (P := fun s => s.quiet = true ∧ s.engine = .parked .row (.resume 1))
    (by decide +kernel)
  exact ⟨s, hs, hq, hpc, (paused_engine_writes_nothing hs).1 hq⟩

/-- `Run` fails when it opens the rows, the verifier pauses the engine, and the supervisor calls
`Run` again: it is in `CreateTables` although `Pause` has returned nil. And a `Pause` that has not
read its acknowledgement yet when `Resume` is called returns nil while the engine inserts. -/
theorem restart_writes_while_paused :
    (∃ s, (machine true).Reachable s ∧ s.quiet = true ∧ s.engine = .createTables) ∧
    ∃ s, (machine true).Reachable s ∧ s.quiet = true ∧ s.engine = .inserting := by
  have hstart : (machine true).Reachable {} := .start rfl
  constructor
  · exact Machine.exists_reaches_of_run hstart
      [.begin false, .engine .ok, .engine .ok, .engine .ok, .engine .ok, .engine .failed,
        .engine .ok, .pause, .pauseReturn 0, .begin false, .engine .ok]
      (P := fun s => s.quiet = true ∧ s.engine = .createTables) (by decide +kernel)
  · exact Machine.exists_reaches_of_run hstart
      [.pause, .resume, .begin false, .engine .ok, .engine .ok, .engine .ok, .engine .ok,
        .engine .ok, .engine .ok, .engine .ok, .engine .ok, .engine .ok, .engine .ok, .engine .ok,
        .engine .ok, .pauseReturn 0]
      (P := fun s => s.quiet = true ∧ s.engine = .inserting) (by decide +kernel)

end LitestreamSoak.Worker.ReplayEngine
