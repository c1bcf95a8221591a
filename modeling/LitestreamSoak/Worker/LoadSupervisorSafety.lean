import LitestreamSoak.Worker.LoadSupervisor

/-!
# Worker — what Pause and Stop of the load supervisor guarantee

At most one child is alive, the one the supervisor's goroutine is at (`Inv.live`). Two facts about
it carry the rest:

* while the load is paused, a published child has been sent SIGSTOP (`Inv.quiet`): `Pause` signals
  the child it finds published, and a restart signals its child in the critical section that
  publishes it;
* once `Stop` is under way, a published child is interrupted or it is the one every `Stop` call
  waits for (`Inv.pursued`): a restart that publishes later reads `stopped` and interrupts its
  child itself.

Neither reaches a child between `startCmd` and its publication. The supervisor passes its pause
check, creates a child and only then takes the lock; a `Pause` or `Stop` in between finds the old
process exited and returns, while the new child runs (`load_runs_past_pause_and_stop`). It is
stopped, or interrupted, as soon as it is published.

`start` does not look at `paused` and `stopped` when it publishes the first child. The runner calls
it before it hands the supervisor to anybody else; the results below are about calls of `Pause` and
`Stop` after it has returned.
-/

namespace LitestreamSoak.Worker.LoadSupervisor

open Lib Function

/-! ## §1 — the invariant -/

/-- The child the goroutine has published and not reaped. -/
def SupervisePC.published : SupervisePC → Option Nat
  | .waiting i | .committed i _ => some i
  | _ => none

/-- The child the goroutine has started and not reaped. -/
def SupervisePC.current : SupervisePC → Option Nat
  | .waiting i | .committed i _ | .created i => some i
  | _ => none

/-- The child that `start` or the supervise loop has started and not seen exit. -/
def State.current (s : State) : Option Nat :=
  match s.start with
  | .created i => some i
  | _ => s.supervise.current

/-- The child that was created and is not published. -/
def State.unpublished (s : State) : Option Nat :=
  match s.start with
  | .created i => some i
  | _ =>
    match s.supervise with
    | .created i => some i
    | _ => none

/-- The channel a `Stop` call waits for, once it has read it. -/
def StopCall.target : StopCall → Option (Option Nat)
  | .absent => none
  | .locked _ _ procDone | .continued _ procDone | .waiting procDone | .returned procDone =>
    some procDone

/-- The goroutine is at a child of which it has not read that the load is stopped. -/
def SupervisePC.unaware (pc : SupervisePC) (i : Nat) : Prop :=
  pc = .waiting i ∨ pc = .committed i false

/-- The invariant of a run in which `Pause` and `Stop` wait for `start`. -/
structure Inv (s : State) : Prop where
  begun : s.start ≠ .returned → s.supervise = .absent ∧ s.stopped = false ∧ s.quiet = false ∧
    ∀ k, s.stops k = .absent
  live : ∀ i, (s.child i).live = true → s.current = some i
  fresh : ∀ i, s.current = some i → i + 1 = s.started ∧ (s.child i).done = false
  last : ∀ i, i + 1 = s.started → s.unpublished = some i ∨ s.procDone = some i
  published : ∀ i, s.supervise.published = some i →
    s.cmd = some i ∧ s.exited = false ∧ s.procDone = some i
  quiet : s.quiet = true → s.paused = true ∧ ∀ i, s.supervise.published = some i →
    (s.child i).live = true →
      (s.child i).sentStop = true ∧ ((s.child i).suspended = true ∨ s.stopped = true)
  stopping : ∀ k, s.stops k ≠ .absent → s.stopped = true
  procDone : ∀ i, s.procDone = some i → i < s.started
  target : ∀ k i, (s.stops k).target = some (some i) → i < s.started
  returned : ∀ k i, s.stops k = .returned (some i) → (s.child i).done = true
  pursued : ∀ i, s.supervise.unaware i → (s.child i).live = true →
    (s.child i).interrupted = true ∨ ∀ k p, (s.stops k).target = some p → p = some i

theorem inv_start : Inv {} where
  begun _ := ⟨rfl, rfl, rfl, fun _ => rfl⟩
  live _ h := nomatch h
  fresh _ h := nomatch h
  last _ h := absurd h (Nat.succ_ne_zero _)
  published _ h := nomatch h
  quiet h := nomatch h
  stopping _ h := absurd rfl h
  procDone _ h := nomatch h
  target _ _ h := nomatch h
  returned _ _ h := nomatch h
  pursued _ h := by rcases h with h | h <;> exact nomatch h

/-! ## §2 — signals and exits -/

variable {s : State} {f : Child → Child} {i : Nat}

@[simp] theorem child_setChild (s : State) (i j : Nat) (f : Child → Child) :
    (s.setChild i f).child j = if j = i then f (s.child i) else s.child j := by
  unfold State.setChild
  dsimp only
  split
  · next h => rw [h, update_self]
  · next h => rw [update_of_ne h]

/-- The children after signals and exits only. -/
structure Follows (s : State) (child : Nat → Child) : Prop where
  live : ∀ i, (child i).live = true → (s.child i).live = true
  done : ∀ i, (child i).done = (s.child i).done
  sentStop : ∀ i, (s.child i).sentStop = true → (child i).sentStop = true
  suspended : s.quiet = true → s.stopped = false → ∀ i, (s.child i).suspended = true →
    (child i).suspended = true
  interrupted : ∀ i, (s.child i).interrupted = true → (child i).interrupted = true

theorem Inv.follow (h : Inv s) {child : Nat → Child} (hf : Follows s child) :
    Inv { s with child := child } :=
  { h with
    live := fun i hi => h.live i (hf.live i hi)
    fresh := fun i hi => (h.fresh i hi).imp_right (hf.done i).trans
    quiet := fun hq => by
      refine ⟨(h.quiet hq).1, fun i hi hlive => ?_⟩
      obtain ⟨hsent, hsusp⟩ := (h.quiet hq).2 i hi (hf.live i hlive)
      refine ⟨hf.sentStop i hsent, ?_⟩
      cases hstopped : s.stopped with
      | true => exact .inr rfl
      | false => exact .inl (hf.suspended hq hstopped i (hsusp.resolve_right (by simp [hstopped])))
    returned := fun k i hk => (hf.done i).trans (h.returned k i hk)
    pursued := fun i hi hlive => (h.pursued i hi (hf.live i hlive)).imp_left (hf.interrupted i) }

theorem follows_setChild
    (hlive : (f (s.child i)).live = true → (s.child i).live = true)
    (hdone : (f (s.child i)).done = (s.child i).done)
    (hsent : (s.child i).sentStop = true → (f (s.child i)).sentStop = true)
    (hsusp : s.quiet = true → s.stopped = false → (s.child i).suspended = true →
      (f (s.child i)).suspended = true)
    (hint : (s.child i).interrupted = true → (f (s.child i)).interrupted = true) :
    Follows s (s.setChild i f).child := by
  refine ⟨fun j => ?_, fun j => ?_, fun j => ?_, fun hq hs j => ?_, fun j => ?_⟩ <;>
    rw [child_setChild] <;> by_cases hj : j = i
  · rw [if_pos hj, hj]; exact hlive
  · rw [if_neg hj]; exact id
  · rw [if_pos hj, hj]; exact hdone
  · rw [if_neg hj]
  · rw [if_pos hj, hj]; exact hsent
  · rw [if_neg hj]; exact id
  · rw [if_pos hj, hj]; exact hsusp hq hs
  · rw [if_neg hj]; exact id
  · rw [if_pos hj, hj]; exact hint
  · rw [if_neg hj]; exact id

theorem follows_signal (i : Nat)
    (hlive : ∀ c, (f c).live = c.live) (hdone : ∀ c, (f c).done = c.done)
    (hsent : ∀ c, c.sentStop = true → (f c).sentStop = true)
    (hsusp : s.quiet = true → s.stopped = false → ∀ c, c.suspended = true →
      (f c).suspended = true)
    (hint : ∀ c, c.interrupted = true → (f c).interrupted = true) :
    Follows s (s.signal i f).child := by
  apply follows_setChild <;> split
  · exact (hlive _).symm ▸ id
  · exact id
  · exact hdone _
  · rfl
  · exact hsent _
  · exact id
  · exact fun hq hs => hsusp hq hs _
  · exact fun _ _ => id
  · exact hint _
  · exact id

theorem Inv.sigstop (h : Inv s) (i : Nat) : Inv (s.signal i sigstop) :=
  h.follow (follows_signal i (fun _ => rfl) (fun _ => rfl) (fun _ _ => rfl)
    (fun _ _ _ _ => rfl) fun _ => id)

theorem Inv.interrupt (h : Inv s) (i : Nat) : Inv (s.signal i interrupt) :=
  h.follow (follows_signal i (fun _ => rfl) (fun _ => rfl) (fun _ => id)
    (fun _ _ _ => id) fun _ _ => rfl)

theorem Inv.sigcont (h : Inv s) (i : Nat) (hq : s.quiet = true → s.stopped = true) :
    Inv (s.signal i sigcont) := by
  refine h.follow (follows_signal i (fun _ => rfl) (fun _ => rfl) (fun _ => id) ?_ fun _ => id)
  intro hquiet hstopped
  rw [hq hquiet] at hstopped
  exact nomatch hstopped

theorem Inv.exit (h : Inv s) (i : Nat) : Inv (s.setChild i fun c => { c with live := false }) := by
  grind [State.setChild, follows_setChild, Inv.follow]

theorem child_signal_of_live
    (hlive : (s.child i).live = true) : (s.signal i f).child i = f (s.child i) := by
  unfold State.signal
  rw [child_setChild, if_pos rfl, if_pos hlive]

theorem live_signal {j : Nat}
    (hf : ∀ c, (f c).live = c.live) : ((s.signal i f).child j).live = (s.child j).live := by
  grind [State.signal, child_setChild]

/-! ## §3 — the first start -/

variable {s' : State} {ok : Bool}

@[simp] theorem child_spawn (s : State) (j : Nat) :
    s.spawn.child j = if j = s.started then { live := true } else s.child j :=
  child_setChild s s.started j fun _ => { live := true }

theorem live_spawn (hnone : ∀ i, (s.child i).live ≠ true) {j : Nat}
    (hj : (s.spawn.child j).live = true) : j = s.started := by
  rw [child_spawn] at hj
  split at hj
  · assumption
  · exact absurd hj (hnone j)

theorem child_spawn_of_lt {j : Nat} (hj : j < s.started) : s.spawn.child j = s.child j := by
  rw [child_spawn, if_neg (by omega)]

theorem Inv.not_live (h : Inv s) (hcur : s.current = none) (i : Nat) : (s.child i).live ≠ true := by
  intro hlive
  have := h.live i hlive
  rw [hcur] at this
  exact nomatch this

theorem Inv.start_eq (h : Inv s) (hpc : s.supervise ≠ .absent) : s.start = .returned := by
  by_contra hstart
  exact hpc (h.begun hstart).1

theorem Inv.start_of_stop (h : Inv s) {k : Nat} (hk : s.stops k ≠ .absent) :
    s.start = .returned := by
  by_contra hstart
  exact hk ((h.begun hstart).2.2.2 k)

/-- `start` keeps the invariant. -/
theorem inv_startStep (h : Inv s) (hstep : startStep s ok = some s') : Inv s' := by
  unfold startStep at hstep
  split at hstep
  · next hstart =>
    obtain ⟨hpc, hstopped, hquiet, hstops⟩ := h.begun (by simp [hstart])
    have hcur : s.current = none := by simp [State.current, hstart, hpc, SupervisePC.current]
    split at hstep
    · cases hstep
      exact { h with
        begun := fun _ => ⟨hpc, hstopped, hquiet, hstops⟩
        live := fun i hi => by rw [live_spawn (h.not_live hcur) hi]; rfl
        fresh := fun i hi => by
          cases hi
          exact ⟨rfl, by simp⟩
        last := fun i hi => .inl (by rw [Nat.succ.inj hi]; rfl)
        published := fun i hi => by simp [State.spawn, State.setChild, hpc,
          SupervisePC.published] at hi
        quiet := fun hq => by simp [State.spawn, State.setChild, hquiet] at hq
        procDone := fun i hi => Nat.lt_succ_of_lt (h.procDone i hi)
        target := fun k i hi => Nat.lt_succ_of_lt (h.target k i hi)
        returned := fun k i hk => by simp [State.spawn, State.setChild, hstops] at hk
        pursued := fun i hi => by
          simp [State.spawn, State.setChild, hpc, SupervisePC.unaware] at hi }
    · cases hstep
      exact { h with
        begun := fun hne => absurd rfl hne
        live := fun i hi => absurd hi (h.not_live hcur i)
        fresh := fun i hi => by simp [State.current, hpc, SupervisePC.current] at hi
        last := fun i hi => .inr ((h.last i hi).resolve_left
          (by simp [State.unpublished, hstart, hpc])) }
  · next i hstart =>
    obtain ⟨hpc, hstopped, hquiet, hstops⟩ := h.begun (by simp [hstart])
    have hcur : s.current = some i := by simp [State.current, hstart]
    cases hstep
    exact { h with
      begun := fun hne => absurd rfl hne
      live := fun j hj => (h.live j hj).symm ▸ hcur.symm ▸ rfl
      fresh := fun j hj => by cases hj; exact h.fresh i hcur
      last := fun j hj => .inr (by rw [Nat.succ.inj (hj.trans (h.fresh i hcur).1.symm)]; rfl)
      published := fun j hj => by
        cases hj
        exact ⟨rfl, rfl, rfl⟩
      quiet := fun hq => by simp [State.publish, hquiet] at hq
      procDone := fun j hj => by cases hj; exact (h.fresh i hcur).1.le
      pursued := fun j _ _ => .inr fun k p hp => by simp [State.publish, hstops,
        StopCall.target] at hp }
  · exact nomatch hstep

/-! ## §4 — the supervisor -/

theorem Inv.ensureResumeCh (h : Inv s) : Inv s.ensureResumeCh := by
  unfold State.ensureResumeCh
  split
  · exact h
  · exact { h with }

theorem Inv.closeResumeCh (h : Inv s) : Inv s.closeResumeCh := by
  unfold State.closeResumeCh
  split
  · exact { h with }
  · exact h

theorem unpublished_ne (hstart : s.start = .returned) (hpc : s.supervise ≠ .created i) :
    s.unpublished ≠ some i := by
  grind [State.unpublished]

theorem Inv.move (h : Inv s) (hstart : s.start = .returned)
    (hpc : ∀ i, s.supervise ≠ .created i) (hnone : ∀ i, (s.child i).live ≠ true) (exited : Bool)
    {pc : SupervisePC} (hcur : pc.current = none) (hpub : pc.published = none) :
    Inv { s with exited := exited, supervise := pc } :=
  { h with
    begun := fun hne => absurd hstart hne
    live := fun i hi => absurd hi (hnone i)
    fresh := fun i hi => by
      simp only [State.current, hstart, hcur] at hi
      exact nomatch hi
    last := fun i hi => .inr ((h.last i hi).resolve_left (unpublished_ne hstart (hpc i)))
    published := fun i hi => nomatch hpub.symm.trans hi
    quiet := fun hq => ⟨(h.quiet hq).1, fun i hi => nomatch hpub.symm.trans hi⟩
    pursued := fun i _ hlive => absurd hlive (hnone i) }

theorem Inv.close (h : Inv s) (hcur : s.current = none) (i : Nat) :
    Inv (s.setChild i fun c => { c with done := true }) := by
  have hlive : ∀ j, ((s.setChild i fun c => { c with done := true }).child j).live ≠ true := by
    intro j hj
    rw [child_setChild] at hj
    split at hj
    · exact h.not_live hcur i hj
    · exact h.not_live hcur j hj
  exact { h with
    live := fun j hj => absurd hj (hlive j)
    fresh := fun j hj => nomatch hcur.symm.trans hj
    quiet := fun hq => ⟨(h.quiet hq).1, fun j _ hj => absurd hj (hlive j)⟩
    returned := fun k j hk => by
      rw [child_setChild]
      split
      · rfl
      · exact h.returned k j hk
    pursued := fun j _ hj => absurd hj (hlive j) }

theorem Inv.restart (h : Inv s) (hpc : s.supervise = .restarting) :
    Inv { s.spawn with supervise := .created s.started } := by
  have hstart : s.start = .returned := h.start_eq (by simp [hpc])
  have hcur : s.current = none := by simp [State.current, hstart, hpc, SupervisePC.current]
  have hcur' : ({ s.spawn with supervise := .created s.started } : State).current
      = some s.started := by
    simp [State.current, State.spawn, State.setChild, hstart, SupervisePC.current]
  exact { h with
    begun := fun hne => absurd hstart hne
    live := fun i hi => by rw [live_spawn (h.not_live hcur) hi, hcur']
    fresh := fun i hi => by
      rw [hcur'] at hi
      cases hi
      exact ⟨rfl, by simp⟩
    last := fun i hi => by
      rw [Nat.succ.inj hi]
      simp [State.unpublished, State.spawn, State.setChild, hstart]
    published := fun i hi => nomatch hi
    quiet := fun hq => ⟨(h.quiet hq).1, fun i hi => nomatch hi⟩
    procDone := fun i hi => Nat.lt_succ_of_lt (h.procDone i hi)
    target := fun k i hi => Nat.lt_succ_of_lt (h.target k i hi)
    -- the channels the `Stop` calls wait for belong to earlier children
    returned := fun k i hk => by
      have hi : i < s.started := h.target k i (by rw [show s.stops k = _ from hk]; rfl)
      show (s.spawn.child i).done = true
      rw [child_spawn_of_lt hi]
      exact h.returned k i hk
    pursued := fun i hi => by rcases hi with hi | hi <;> exact nomatch hi }

theorem Inv.publish (h : Inv s) (hpc : s.supervise = .created i)
    (hquiet : s.quiet = true → (s.child i).live = true →
      (s.child i).sentStop = true ∧ (s.child i).suspended = true) :
    Inv { s.publish i with supervise := .committed i s.stopped } := by
  have hstart : s.start = .returned := h.start_eq (by simp [hpc])
  have hcur : s.current = some i := by simp [State.current, hstart, hpc, SupervisePC.current]
  have hlive : ∀ j, (s.child j).live = true → j = i := fun j hj =>
    Option.some.inj ((h.live j hj).symm.trans hcur)
  exact { h with
    begun := fun hne => absurd hstart hne
    live := fun j hj => by
      rw [hlive j hj]
      simp [State.current, State.publish, hstart, SupervisePC.current]
    fresh := fun j hj => by
      simp only [State.current, State.publish, hstart, SupervisePC.current] at hj
      cases hj
      exact h.fresh i hcur
    last := fun j hj => .inr (by rw [Nat.succ.inj (hj.trans (h.fresh i hcur).1.symm)]; rfl)
    published := fun j hj => by
      cases hj
      exact ⟨rfl, rfl, rfl⟩
    quiet := fun hq => ⟨(h.quiet hq).1, fun j hj hl => by
      cases hj
      exact ⟨(hquiet hq hl).1, .inl (hquiet hq hl).2⟩⟩
    procDone := fun j hj => by
      cases hj
      exact (h.fresh i hcur).1.le
    -- a goroutine that read the load as running finds no `Stop` call under way
    pursued := fun j hj hl => .inr fun k p hp => by
      rcases hj with hj | hj
      · exact nomatch hj
      · injection hj with _ hstopped
        have habsent : s.stops k = .absent := by
          by_contra hk
          rw [h.stopping k hk] at hstopped
          exact nomatch hstopped
        rw [show (s.publish i).stops k = .absent from habsent] at hp
        exact nomatch hp }

theorem Inv.commit (h : Inv s) (hpc : s.supervise = .created i) : Inv (commit s i) := by
  unfold LoadSupervisor.commit
  dsimp only
  split
  · refine (h.sigstop i).publish hpc fun _ hlive => ?_
    have hlive' : (s.child i).live = true :=
      (live_signal (f := LoadSupervisor.sigstop) fun _ => rfl).symm.trans hlive
    rw [child_signal_of_live hlive']
    exact ⟨rfl, rfl⟩
  · next hpaused => exact h.publish hpc fun hq => absurd (h.quiet hq).1 hpaused

theorem Inv.await (h : Inv s) {stopped : Bool}
    (hpc : s.supervise = .committed i stopped)
    (hint : stopped = true → (s.child i).live = true → (s.child i).interrupted = true) :
    Inv { s with supervise := .waiting i } := by
  have hstart : s.start = .returned := h.start_eq (by simp [hpc])
  have hcur : s.current = some i := by simp [State.current, hstart, hpc, SupervisePC.current]
  have hcur' : ({ s with supervise := .waiting i } : State).current = some i := by
    simp [State.current, hstart, SupervisePC.current]
  have hpub : s.supervise.published = some i := by rw [hpc]; rfl
  exact { h with
    begun := fun hne => absurd hstart hne
    live := fun j hj => by rw [hcur', ← hcur, h.live j hj]
    fresh := fun j hj => h.fresh j (by rw [hcur, ← hcur', hj])
    last := fun j hj => .inr ((h.last j hj).resolve_left (unpublished_ne hstart (by simp [hpc])))
    published := fun j hj => h.published j (hpub.trans hj)
    quiet := fun hq => ⟨(h.quiet hq).1, fun j hj => (h.quiet hq).2 j (hpub.trans hj)⟩
    pursued := fun j hj hl => by
      have hji : j = i := by
        rcases hj with hj | hj
        · injection hj with hij
          exact hij.symm
        · exact nomatch hj
      subst hji
      cases stopped with
      | true => exact .inl (hint rfl hl)
      | false => exact h.pursued j (.inr hpc) hl }

/-- The supervise loop keeps the invariant. -/
theorem inv_superviseStep (h : Inv s) (hstep : superviseStep s ok = some s') : Inv s' := by
  unfold superviseStep at hstep
  -- a goroutine without a child moves on by `Inv.move`
  have hmove : ∀ {pc pc' : SupervisePC} {exited : Bool}, s.supervise = pc → pc ≠ .absent →
      pc.current = none → pc'.current = none → pc'.published = none →
      Inv { s with exited := exited, supervise := pc' } := by
    rintro pc pc' exited rfl habs hcur hcur' hpub
    have hstart := h.start_eq habs
    have hnone : s.current = none := by simp [State.current, hstart, hcur]
    exact h.move hstart (fun i hi => by rw [hi] at hcur; exact nomatch hcur)
      (h.not_live hnone) exited
      hcur' hpub
  cases hpc : s.supervise with
  | absent | returned => simp [hpc] at hstep
  | waiting i =>
    simp only [hpc] at hstep
    split at hstep
    · exact nomatch hstep
    · next hgone =>
      cases hstep
      have hstart := h.start_eq (by simp [hpc])
      refine h.move hstart (by simp [hpc]) (fun j hj => ?_) s.exited rfl rfl
      have hji := h.live j hj
      simp only [State.current, hstart, hpc, SupervisePC.current] at hji
      cases hji
      exact hgone hj
  | closing i =>
    simp only [hpc] at hstep
    cases hstep
    have hstart := h.start_eq (by simp [hpc])
    have hnone : s.current = none := by simp [State.current, hstart, hpc, SupervisePC.current]
    have hclosed := h.close hnone i
    exact hclosed.move hstart (by simp [State.setChild, hpc])
      (hclosed.not_live hnone) s.exited rfl rfl
  | pauseCheck =>
    simp only [hpc] at hstep
    split at hstep
    · cases hstep
      exact hmove hpc nofun rfl rfl rfl
    · split at hstep <;> cases hstep
      · exact hmove hpc nofun rfl rfl rfl
      · have hstart := h.start_eq (by simp [hpc])
        have hsame : s.ensureResumeCh.start = s.start ∧ s.ensureResumeCh.current = s.current ∧
            s.ensureResumeCh.supervise = s.supervise := by
          unfold State.ensureResumeCh
          split <;> exact ⟨rfl, rfl, rfl⟩
        have hnone : s.ensureResumeCh.current = none := by
          rw [hsame.2.1]
          simp [State.current, hstart, hpc, SupervisePC.current]
        exact h.ensureResumeCh.move (hsame.1.trans hstart) (by simp [hsame.2.2, hpc])
          (h.ensureResumeCh.not_live hnone) _ rfl rfl
  | restarting =>
    simp only [hpc] at hstep
    split at hstep <;> cases hstep
    · exact h.restart hpc
    · exact hmove hpc nofun rfl rfl rfl
  | created i =>
    simp only [hpc] at hstep
    cases hstep
    exact h.commit hpc
  | committed i stopped =>
    simp only [hpc] at hstep
    cases hstep
    split
    · refine (h.interrupt i).await hpc fun _ hlive => ?_
      grind [live_signal, interrupt, child_signal_of_live]
    · next hstopped => exact h.await hpc fun h' => absurd h' hstopped
  | _ =>
    simp only [hpc] at hstep
    repeat' split at hstep
    all_goals cases hstep
    all_goals exact hmove hpc nofun rfl rfl rfl

/-! ## §5 — Pause, Resume and Stop -/

variable {k : Nat}

theorem Inv.markQuiet (h : Inv s) (hstart : s.start = .returned)
    (hpaused : s.paused = true)
    (hsent : ∀ i, s.supervise.published = some i → (s.child i).live = true →
      (s.child i).sentStop = true ∧ (s.child i).suspended = true) :
    Inv { s with quiet := true } :=
  { h with
    begun := fun hne => absurd hstart hne
    quiet := fun _ => ⟨hpaused, fun i hi hlive => (hsent i hi hlive).imp_right .inl⟩ }

/-- `Pause` keeps the invariant. -/
theorem inv_pause (h : Inv s) (hstart : s.start = .returned) : Inv (pause s ok) := by
  have hpaused : Inv { s.ensureResumeCh with paused := true } :=
    { h.ensureResumeCh with quiet := fun hq => ⟨rfl, (h.ensureResumeCh.quiet hq).2⟩ }
  have hstart' : s.ensureResumeCh.start = .returned := by
    unfold State.ensureResumeCh
    split <;> exact hstart
  unfold pause
  dsimp only
  split
  · next hcmd =>
    refine hpaused.markQuiet hstart' rfl fun i hi => ?_
    exact nomatch hcmd.symm.trans (hpaused.published i hi).1
  · next i hcmd =>
    split
    · next hexited =>
      refine hpaused.markQuiet hstart' rfl fun i hi => ?_
      exact nomatch hexited.symm.trans (hpaused.published i hi).2.1
    · split
      · -- the published child is the one the signal goes to
        refine (hpaused.sigstop i).markQuiet hstart' rfl fun j hj hlive => ?_
        have hji : i = j := Option.some.inj (hcmd.symm.trans (hpaused.published j hj).1)
        grind [live_signal, sigstop, child_signal_of_live]
      · exact hpaused

/-- `Resume` keeps the invariant. -/
theorem inv_resume (h : Inv s) : Inv (resume s) := by
  have hloud : Inv { s.closeResumeCh with paused := false, quiet := false } :=
    { h.closeResumeCh with
      begun := fun hne => by
        obtain ⟨hpc, hstopped, -, hstops⟩ := h.closeResumeCh.begun hne
        exact ⟨hpc, hstopped, rfl, hstops⟩
      quiet := fun hq => nomatch hq }
  unfold resume
  dsimp only
  split
  · exact hloud
  · split
    · exact hloud
    · exact hloud.sigcont _ fun hq => nomatch hq

theorem Inv.moveStop (h : Inv s) {call : StopCall}
    (hk : s.stops k ≠ .absent) (htarget : call.target = (s.stops k).target)
    (hdone : ∀ i, call = .returned (some i) → (s.child i).done = true) :
    Inv { s with stops := update s.stops k call } := by
  have htargets : ∀ j, (update s.stops k call j).target = (s.stops j).target := by
    intro j
    by_cases hj : j = k
    · rw [hj, update_self, htarget]
    · rw [update_of_ne hj]
  have hstart := h.start_of_stop hk
  exact { h with
    begun := fun hne => absurd hstart hne
    stopping := fun _ _ => h.stopping k hk
    target := fun j i hj => h.target j i ((htargets j).symm.trans hj)
    returned := fun j i hj => by
      by_cases hjk : j = k
      · rw [hjk] at hj
        exact hdone i ((update_self k call s.stops).symm.trans hj)
      · exact h.returned j i ((update_of_ne hjk call s.stops).symm.trans hj)
    pursued := fun i hi hlive => (h.pursued i hi hlive).imp_right fun hall j p hp =>
      hall j p ((htargets j).symm.trans hp) }

theorem Inv.lockStop (h : Inv s) (hstart : s.start = .returned) :
    Inv { s with
      stopped := true, quiet := false,
      stops := update s.stops k (.locked s.cmd s.exited s.procDone) } := by
  -- the target of each call is the new one's or an old one's
  have htarget : ∀ j p, (update s.stops k (.locked s.cmd s.exited s.procDone) j).target
      = some p → p = s.procDone ∨ (s.stops j).target = some p := by
    intro j p hp
    by_cases hj : j = k
    · rw [hj, update_self] at hp
      exact .inl (Option.some.inj hp).symm
    · rw [update_of_ne hj] at hp
      exact .inr hp
  exact { h with
    begun := fun hne => absurd hstart hne
    quiet := fun hq => nomatch hq
    stopping := fun _ _ => rfl
    target := fun j i hj => by
      rcases htarget j _ hj with hp | hp
      · exact h.procDone i hp.symm
      · exact h.target j i hp
    returned := fun j i hj => by
      by_cases hjk : j = k
      · rw [hjk] at hj
        exact nomatch (update_self k _ s.stops).symm.trans hj
      · exact h.returned j i ((update_of_ne hjk _ s.stops).symm.trans hj)
    pursued := fun i hi hlive => by
      have hpub : s.supervise.published = some i := by
        rcases hi with hi | hi <;> rw [show s.supervise = _ from hi] <;> rfl
      refine (h.pursued i hi hlive).imp_right fun hall j p hp => ?_
      rcases htarget j p hp with hp | hp
      · rw [hp, (h.published i hpub).2.2]
      · exact hall j p hp }

/-- `Stop` keeps the invariant. -/
theorem inv_stopStep (h : Inv s) (hstart : s.start = .returned)
    (hstep : stopStep s k = some s') : Inv s' := by
  unfold stopStep at hstep
  cases hk : s.stops k with
  | absent =>
    simp only [hk] at hstep
    cases hstep
    have hsame : s.closeResumeCh.start = s.start ∧ s.closeResumeCh.stops = s.stops ∧
        s.closeResumeCh.cmd = s.cmd ∧ s.closeResumeCh.exited = s.exited ∧
        s.closeResumeCh.procDone = s.procDone := by
      unfold State.closeResumeCh
      split <;> exact ⟨rfl, rfl, rfl, rfl, rfl⟩
    obtain ⟨hs, hstops, hcmd, hexited, hdone⟩ := hsame
    have hlocked := h.closeResumeCh.lockStop (hs.trans hstart) (k := k)
    rw [hstops, hcmd, hexited, hdone] at hlocked
    rw [hcmd, hexited, hdone]
    exact hlocked
  | locked cmd exited procDone =>
    have hstopped := h.stopping k (by simp [hk])
    have hwait : Inv { s with stops := update s.stops k (.waiting procDone) } :=
      h.moveStop (by simp [hk]) (by simp [hk, StopCall.target]) fun i hi => nomatch hi
    simp only [hk] at hstep
    split at hstep
    · split at hstep
      · cases hstep
        exact hwait
      · cases hstep
        refine (h.sigcont _ fun _ => hstopped).moveStop (k := k) ?_ ?_ fun i hi => nomatch hi
        · exact fun habs => nomatch hk.symm.trans habs
        · show _ = (s.stops k).target
          rw [hk]
          rfl
    · cases hstep
      exact hwait
  | continued i procDone =>
    simp only [hk] at hstep
    cases hstep
    refine (h.interrupt i).moveStop (k := k) ?_ ?_ fun i hi => nomatch hi
    · exact fun habs => nomatch hk.symm.trans habs
    · show _ = (s.stops k).target
      rw [hk]
      rfl
  | waiting procDone => grind [Inv.moveStop, StopCall.target]
  | returned procDone => simp [hk] at hstep

/-! ## §6 — runs -/

/-- `Pause` and `Stop` are called once `start` has returned. -/
def afterStart (s : State) : Action → Prop
  | .pause _ | .stop _ => s.start = .returned
  | _ => True

instance : ∀ s a, Decidable (afterStart s a)
  | s, .pause _ => inferInstanceAs (Decidable (s.start = .returned))
  | s, .stop _ => inferInstanceAs (Decidable (s.start = .returned))
  | _, .start _ | _, .supervise _ | _, .resume | _, .exit _ | _, .cancel =>
    inferInstanceAs (Decidable True)

/-- Every step keeps the invariant, a `Pause` or `Stop` after `start`. -/
theorem inv_step {a : Action} (h : Inv s) (hok : afterStart s a)
    (hstep : step s a = some s') : Inv s' := by
  cases a with
  | start ok => exact inv_startStep h hstep
  | supervise ok => exact inv_superviseStep h hstep
  | pause ok =>
    cases hstep
    exact inv_pause h hok
  | resume =>
    cases hstep
    exact inv_resume h
  | stop k => exact inv_stopStep h hok hstep
  | exit i => grind [step, Inv.exit]
  | cancel =>
    cases hstep
    exact { h with }

/-- The invariant holds along every run. -/
theorem inv_reaches (hs : machine.Reaches afterStart s) : Inv s := by
  refine hs.invariant ?_ ?_
  · rintro s rfl
    exact inv_start
  · intro s a s' h hok hstep
    exact inv_step h hok hstep

/-- The children started so far and the one a restart past its pause check may still start. -/
def State.quota (s : State) : Nat := s.started + if s.supervise = .restarting then 1 else 0

/-- How a state after a `Stop` is related to the one before: no restart begins, and what a call
waits for stays. -/
structure Later (s s' : State) : Prop where
  start : s'.start = s.start
  stopped : s.stopped = true → s'.stopped = true
  quota : s'.quota ≤ s.quota
  started : s.started ≤ s'.started
  target : ∀ k p, (s.stops k).target = some p → (s'.stops k).target = some p

theorem Later.trans {t : State} (h : Later s s') (h' : Later s' t) : Later s t where
  start := h'.start.trans h.start
  stopped hs := h'.stopped (h.stopped hs)
  quota := h'.quota.trans h.quota
  started := h.started.trans h'.started
  target k p hp := h'.target k p (h.target k p hp)

theorem later_superviseStep (hstopped : s.stopped = true)
    (hstep : superviseStep s ok = some s') : Later s s' := by
  unfold superviseStep at hstep
  cases hpc : s.supervise with
  | waiting i | backoff | awaitResume ch =>
    simp only [hpc] at hstep
    repeat' split at hstep
    all_goals cases hstep
    all_goals exact ⟨rfl, id, by simp [State.quota, hpc], le_rfl, fun _ _ => id⟩
  | reaped i | closing i =>
    simp only [hpc] at hstep
    cases hstep
    exact ⟨rfl, id, by simp [State.quota, State.setChild, hpc], le_rfl, fun _ _ => id⟩
  | check | pauseCheck =>
    -- the tests of `stopped` end the loop
    simp only [hpc, hstopped, Bool.or_true, if_true] at hstep
    cases hstep
    exact ⟨rfl, fun _ => rfl, by simp [State.quota, hpc], le_rfl, fun _ _ => id⟩
  | restarting =>
    simp only [hpc] at hstep
    split at hstep
    · cases hstep
      exact ⟨rfl, id, by simp [State.quota, State.spawn, State.setChild, hpc], Nat.le_succ _,
        fun _ _ => id⟩
    · cases hstep
      exact ⟨rfl, id, by simp [State.quota, hpc], le_rfl, fun _ _ => id⟩
  | created i =>
    simp only [hpc] at hstep
    cases hstep
    unfold LoadSupervisor.commit
    dsimp only
    split <;> exact ⟨rfl, id, by simp [State.quota, State.publish, State.signal, State.setChild,
      hpc],
      le_rfl, fun _ _ => id⟩
  | committed i stopped =>
    simp only [hpc] at hstep
    cases hstep
    split <;> exact ⟨rfl, id, by simp [State.quota, State.signal, State.setChild, hpc], le_rfl,
      fun _ _ => id⟩
  | _ => simp [hpc] at hstep

theorem later_stopStep (hstep : stopStep s k = some s') : Later s s' := by
  -- each step of a call keeps what it waits for
  have hcall : ∀ {call : StopCall}, s'.start = s.start → (s.stopped = true → s'.stopped = true) →
      s'.quota = s.quota → s'.started = s.started → s'.stops = update s.stops k call →
      (∀ p, (s.stops k).target = some p → call.target = some p) → Later s s' := by
    refine fun hstart hstopped hquota hstarted hstops htarget =>
      ⟨hstart, hstopped, hquota.le, hstarted.ge, fun j p hp => ?_⟩
    rw [hstops]
    by_cases hj : j = k
    · rw [hj] at hp ⊢
      rw [update_self]
      exact htarget p hp
    · rwa [update_of_ne hj]
  unfold stopStep at hstep
  cases hk : s.stops k with
  | absent =>
    simp only [hk, State.closeResumeCh] at hstep
    split at hstep <;> cases hstep <;>
      exact hcall rfl (fun _ => rfl) rfl rfl rfl (by simp [hk, StopCall.target])
  | returned p => simp [hk] at hstep
  | _ =>
    simp only [hk] at hstep
    repeat' split at hstep
    all_goals cases hstep
    all_goals exact hcall rfl id rfl rfl rfl (by simp [hk, StopCall.target])

/-- Once stopped, a step only moves on. -/
theorem later_step {a : Action} (hstart : s.start = .returned) (hstopped : s.stopped = true)
    (hstep : step s a = some s') : Later s s' := by
  cases a with
  | start ok => simp [step, startStep, hstart] at hstep
  | supervise ok => exact later_superviseStep hstopped hstep
  | pause ok =>
    cases hstep
    unfold pause State.ensureResumeCh
    dsimp only
    repeat' split
    all_goals exact ⟨rfl, id, le_rfl, le_rfl, fun _ _ => id⟩
  | resume =>
    cases hstep
    unfold resume State.closeResumeCh
    dsimp only
    repeat' split
    all_goals exact ⟨rfl, id, le_rfl, le_rfl, fun _ _ => id⟩
  | stop k => exact later_stopStep hstep
  | exit i =>
    simp only [step] at hstep
    split at hstep
    · cases hstep
      exact ⟨rfl, id, le_rfl, le_rfl, fun _ _ => id⟩
    · exact nomatch hstep
  | cancel =>
    cases hstep
    exact ⟨rfl, id, le_rfl, le_rfl, fun _ _ => id⟩

def machineFrom (s : State) : Machine State Action := ⟨fun t => t = s, step⟩

/-- Once stopped, a run only moves on. -/
theorem later_reaches {ok : State → Action → Prop} (hstart : s.start = .returned)
    (hstopped : s.stopped = true) (hs : (machineFrom s).Reaches ok s') : Later s s' := by
  induction hs with
  | start ht =>
    rw [show _ = s from ht]
    exact ⟨rfl, id, le_rfl, le_rfl, fun _ _ => id⟩
  | step _ _ hstep ih =>
    exact ih.trans (later_step (ih.start.trans hstart) (ih.stopped hstopped) hstep)

theorem reaches_of_machineFrom {ok : State → Action → Prop} (hs : machine.Reaches ok s)
    (hs' : (machineFrom s).Reaches ok s') : machine.Reaches ok s' := by
  induction hs' with
  | start ht => exact (show _ = s from ht) ▸ hs
  | step _ hok hstep ih => exact .step ih hok hstep

/-! ## §7 — the results -/

theorem Inv.live_cases (h : Inv s) (hstart : s.start = .returned)
    (hlive : (s.child i).live = true) : s.supervise = .created i ∨ s.supervise = .waiting i ∨
      ∃ stopped, s.supervise = .committed i stopped := by
  have hcur := h.live i hlive
  simp only [State.current, hstart] at hcur
  cases hpc : s.supervise with
  | created j =>
    rw [hpc] at hcur
    cases hcur
    exact .inl rfl
  | waiting j =>
    rw [hpc] at hcur
    cases hcur
    exact .inr (.inl rfl)
  | committed j stopped =>
    rw [hpc] at hcur
    cases hcur
    exact .inr (.inr ⟨stopped, rfl⟩)
  | _ =>
    rw [hpc] at hcur
    cases hcur

theorem Inv.sentStop_of_quiet (h : Inv s) (hq : s.quiet = true)
    (hlive : (s.child i).live = true) : s.supervise = .created i ∨
      ((s.child i).sentStop = true ∧ ((s.child i).suspended = true ∨ s.stopped = true)) := by
  have hstart : s.start = .returned := by
    by_contra hstart
    exact nomatch hq.symm.trans (h.begun hstart).2.2.1
  rcases h.live_cases hstart hlive with hpc | hpc | ⟨stopped, hpc⟩
  · exact .inl hpc
  · exact .inr ((h.quiet hq).2 i (by rw [hpc]; rfl) hlive)
  · exact .inr ((h.quiet hq).2 i (by rw [hpc]; rfl) hlive)

theorem Inv.interrupted_of_returned (h : Inv s) {p : Option Nat}
    (hk : s.stops k = .returned p) (hlive : (s.child i).live = true) :
    s.supervise = .created i ∨ s.supervise = .committed i true ∨
      (s.child i).interrupted = true := by
  have hstart := h.start_of_stop (k := k) (by simp [hk])
  have hopen := (h.fresh i (h.live i hlive)).2
  -- the call waited for another child's channel, since this one's is still open
  have hunaware : s.supervise.unaware i → (s.child i).interrupted = true := by
    intro hun
    refine (h.pursued i hun hlive).resolve_right fun hall => ?_
    have hp : p = some i := hall k p (by rw [hk]; rfl)
    rw [hp] at hk
    exact nomatch hopen.symm.trans (h.returned k i hk)
  rcases h.live_cases hstart hlive with hpc | hpc | ⟨stopped, hpc⟩
  · exact .inl hpc
  · exact .inr (.inr (hunaware (.inl hpc)))
  · cases stopped with
    | true => exact .inr (.inl hpc)
    | false => exact .inr (.inr (hunaware (.inr hpc)))

/-- A child that lives once a `Stop` call has returned is the one that was in the making, past the
pause check and not published, when the call took the lock: the call waited for every other. -/
theorem Inv.live_of_returned {t : State} {p : Option Nat} (h : Inv s) (hstart : s.start = .returned)
    (hstep : stopStep s k = some t) (hk : s.stops k = .absent) (hs' : Later t s') (h' : Inv s')
    (hreturned : s'.stops k = .returned p) (hlive : (s'.child i).live = true) :
    s.supervise = .created i ∨ s.supervise = .restarting ∧ i = s.started := by
  obtain ⟨hlast, hopen⟩ := h'.fresh i (h'.live i hlive)
  have ht : t.started = s.started ∧ t.quota = s.quota ∧ (t.stops k).target = some s.procDone := by
    simp only [stopStep, hk, State.closeResumeCh] at hstep
    cases hstep
    split <;> exact ⟨rfl, rfl, (congrArg StopCall.target (update_self ..)).trans rfl⟩
  have hp : p = s.procDone := by
    have htarget := hs'.target k _ ht.2.2
    rw [hreturned] at htarget
    exact Option.some.inj htarget
  have hne : s.procDone ≠ some i := by
    intro hi
    rw [hp, hi] at hreturned
    exact nomatch hopen.symm.trans (h'.returned k i hreturned)
  have hquota : s'.started ≤ s.quota :=
    (Nat.le_add_right _ _).trans (hs'.quota.trans_eq ht.2.1)
  have hstarted := hs'.started
  unfold State.quota at hquota
  by_cases hlater : i + 1 = s.started
  · left
    by_contra hpc
    exact (h.last i hlater).elim (unpublished_ne hstart hpc) hne
  · right
    split at hquota
    · next hpc => exact ⟨hpc, by omega⟩
    · omega

/-- **A paused or stopped load is quiet but for a restart in progress.** In every run that calls
`Pause` and `Stop` after `start` has returned:

* from a `Pause` that returned nil to the next `Resume` or `Stop`, each live child was sent SIGSTOP
  after its start, or belongs to a restart that has not published it;
* once a `Stop` has returned, no child lives except that of a restart that was past its pause check
  and had not published it when the `Stop` took the lock;
* such a child was interrupted, or is not published yet or about to be interrupted, and no child is
  started any more, except one if the supervisor is past its pause check. -/
theorem load_quiet_but_for_restart {s : State} (hs : machine.Reaches afterStart s) :
    (s.quiet = true → ∀ i, (s.child i).live = true → s.supervise = .created i ∨
      ((s.child i).sentStop = true ∧ ((s.child i).suspended = true ∨ s.stopped = true))) ∧
    (∀ k t, s.stops k = .absent → afterStart s (.stop k) → step s (.stop k) = some t →
      ∀ s', (machineFrom t).Reaches afterStart s' → ∀ p, s'.stops k = .returned p →
        ∀ i, (s'.child i).live = true →
          s.supervise = .created i ∨ s.supervise = .restarting ∧ i = s.started) ∧
    ∀ k p, s.stops k = .returned p →
      (∀ i, (s.child i).live = true → s.supervise = .created i ∨
        s.supervise = .committed i true ∨ (s.child i).interrupted = true) ∧
      ∀ s', (machineFrom s).Reaches afterStart s' →
        s'.started ≤ s.started + if s.supervise = .restarting then 1 else 0 := by
  have h := inv_reaches hs
  refine ⟨fun hq i hlive => h.sentStop_of_quiet hq hlive, ?_, fun k p hk => ⟨?_, ?_⟩⟩
  · intro k t hk hok hstep s' hs' p hreturned i hlive
    have ht : machine.Reaches afterStart t := .step hs hok hstep
    have hstopped : t.stopped = true := by
      have hlocked := hstep
      simp only [step, stopStep, hk] at hlocked
      cases hlocked
      rfl
    have hlater := later_reaches ((later_stopStep hstep).start.trans hok) hstopped hs'
    exact h.live_of_returned hok hstep hk hlater
      (inv_reaches (reaches_of_machineFrom ht hs')) hreturned
      hlive
  · exact fun i hlive => h.interrupted_of_returned hk hlive
  · intro s' hs'
    have habs : s.stops k ≠ .absent := by simp [hk]
    exact (Nat.le_add_right _ _).trans
      (later_reaches (h.start_of_stop habs) (h.stopping k habs) hs').quota

/-- A published child is paused; and a `Stop` returns during a restart, whose child lives after
it. -/
theorem load_quiet_but_for_restart_run :
    (∃ s, machine.Reaches afterStart s ∧ s.supervise = .waiting 0 ∧ (s.child 0).live = true ∧
      (s.child 0).sentStop = true) ∧
    ∃ s s', machine.Reaches afterStart s ∧ machine.Reaches afterStart s' ∧
      s'.stops 0 = .returned (some 0) ∧ (s'.child 1).live = true ∧
      (s.supervise = .created 1 ∨ s.supervise = .restarting ∧ 1 = s.started) := by
  have hstart : machine.Reaches afterStart {} := .start rfl
  constructor
  · obtain ⟨s, hs, hq, hlive, hpc⟩ := Machine.exists_reaches_of_run hstart
      [.start true, .start true, .pause true]
      (P := fun s => s.quiet = true ∧ (s.child 0).live = true ∧ s.supervise = .waiting 0)
      (by decide)
    have hsent := (load_quiet_but_for_restart hs).1 hq 0 hlive
    rw [hpc] at hsent
    exact ⟨s, hs, hpc, hlive, (hsent.resolve_left (by simp)).1⟩
  · obtain ⟨s, hs, hk, hok, t, ht, hrun⟩ := Machine.exists_reaches_of_run hstart
      ([.start true, .start true, .exit 0] ++ List.replicate 6 (.supervise true))
      (P := fun s => s.stops 0 = .absent ∧ s.start = .returned ∧ ∃ t ∈ step s (.stop 0),
        ∃ s' ∈ (machineFrom t).run afterStart t [.stop 0, .stop 0, .supervise true],
          s'.stops 0 = .returned (some 0) ∧ (s'.child 1).live = true)
      (by decide)
    obtain ⟨s', hs', hreturned, hlive⟩ := Machine.exists_reaches_of_run (.start rfl) _ hrun
    exact ⟨s, s', hs, reaches_of_machineFrom (.step (a := .stop 0) hs hok ht) hs', hreturned,
      hlive,
      (load_quiet_but_for_restart hs).2.1 0 t hk hok ht s' hs' _ hreturned 1 hlive⟩

/-- The child exits, the supervisor starts another, and `Pause` or `Stop` is called before that one
is published: it runs, although `Pause` has returned nil, and it is started after `Stop` has
returned. -/
theorem load_runs_past_pause_and_stop :
    (∃ s, machine.Reaches afterStart s ∧
      s.quiet = true ∧ (s.child 1).live = true ∧ (s.child 1).sentStop = false) ∧
    ∃ s, machine.Reaches afterStart s ∧ s.stops 0 = .returned (some 0) ∧ s.started = 1 ∧
      ∃ s', step s (.supervise true) = some s' ∧ (s'.child 1).live = true ∧
        (s'.child 1).interrupted = false := by
  have hstart : machine.Reaches afterStart {} := .start rfl
  constructor
  · exact Machine.exists_reaches_of_run hstart
      [.start true, .start true, .exit 0, .supervise true, .supervise true, .supervise true,
        .supervise true, .supervise true, .supervise true, .supervise true, .pause true]
      (P := fun s => s.quiet = true ∧ (s.child 1).live = true ∧ (s.child 1).sentStop = false)
      (by decide +kernel)
  · exact Machine.exists_reaches_of_run hstart
      [.start true, .start true, .exit 0, .supervise true, .supervise true, .supervise true,
        .supervise true, .supervise true, .supervise true, .stop 0, .stop 0, .stop 0]
      (P := fun s => s.stops 0 = .returned (some 0) ∧ s.started = 1 ∧
        ∃ s' ∈ step s (.supervise true), (s'.child 1).live = true ∧
          (s'.child 1).interrupted = false)
      (by decide +kernel)

/-- **At most one child.** In every run that calls `Pause` and `Stop` after `start` has returned no
two children are alive, and none once the supervisor has returned. -/
theorem load_never_doubled {s : State} (hs : machine.Reaches afterStart s) :
    (∀ i j, (s.child i).live = true → (s.child j).live = true → i = j) ∧
      (s.supervise = .returned → ∀ i, (s.child i).live = false) := by
  have h := inv_reaches hs
  refine ⟨fun i j hi hj => Option.some.inj ((h.live i hi).symm.trans (h.live j hj)),
    fun hpc i => Bool.eq_false_of_not_eq_true (h.not_live ?_ i)⟩
  simp [State.current, h.start_eq (by simp [hpc]), hpc, SupervisePC.current]

/-- A child that exited is replaced by a second one, and only that is alive. -/
theorem load_never_doubled_restarted : ∃ s, machine.Reaches afterStart s ∧
    (s.child 1).live = true ∧ (s.child 0).live = false := by
  have hstart : machine.Reaches afterStart {} := .start rfl
  obtain ⟨s, hs, hlive⟩ := Machine.exists_reaches_of_run hstart
    ([.start true, .start true, .exit 0] ++ List.replicate 7 (.supervise true))
    (P := fun s => (s.child 1).live = true) (by decide)
  refine ⟨s, hs, hlive, Bool.eq_false_of_not_eq_true fun hfirst => ?_⟩
  exact absurd ((load_never_doubled hs).1 0 1 hfirst hlive) (by decide)

end LitestreamSoak.Worker.LoadSupervisor
