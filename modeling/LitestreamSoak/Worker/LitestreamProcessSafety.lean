import LitestreamSoak.Worker.LitestreamProcess

/-!
# Worker.LitestreamProcessSafety — one process, stopped by its own requests

What a step of a request or of the check can do is said once (§1). Three invariants that do not need
each other come from it.

* **§2 `Watched`** — about one process at a time: what the monitor may find.
* **§3 `Owned`** — about requests and the stop they own: a request that was superseded unsent owns
  no stop, and a signal goes out only from the owner.
* **§4 `Single`** — about the check: where it is about to start a process, all have ended.
* **§5** — **`process_protocol_safe`**.
-/

namespace LitestreamSoak.Worker.LitestreamProcess

open Lib Function

variable {s s' : State} {r : Nat}

theorem processes_setProcess (s : State) (p q : Nat) (v : Process) :
    (s.setProcess p v).processes q = if q = p then v else s.processes q := by
  by_cases h : q = p
  · rw [h, if_pos rfl]
    exact update_self ..
  · rw [if_neg h]
    exact update_of_ne h ..

theorem requests_setRequest (s : State) (r q : Nat) (v : Request) :
    (s.setRequest r v).requests q = if q = r then v else s.requests q := by
  by_cases h : q = r
  · rw [h, if_pos rfl]
    exact update_self ..
  · rw [if_neg h]
    exact update_of_ne h ..

theorem supersede_eq (s : State) (old : Option Nat) :
    s.supersede old = s ∨ ∃ q, old = some q ∧ (s.requests q).signalled = none ∧
      s.supersede old = s.setRequest q { s.requests q with superseded := true } := by
  unfold State.supersede
  cases old with
  | none => exact .inl rfl
  | some q => grind

theorem takeOver_frame (s : State) (r p : Nat) :
    (s.takeOver r p).started = s.started ∧ (s.takeOver r p).current = s.current ∧
      (s.takeOver r p).made = s.made ∧ (s.takeOver r p).check = s.check := by
  unfold State.takeOver
  grind [supersede_eq, State.setProcess, State.setRequest]

theorem processes_takeOver (s : State) (r p q : Nat) :
    (s.takeOver r p).processes q =
      if q = p then
        { s.processes p with
          expectedExit := true
          stop := some r
          stopRequested := (s.processes p).stopRequested || !(s.processes p).exited }
      else s.processes q := by
  unfold State.takeOver
  rw [processes_setProcess]
  rcases supersede_eq s (s.processes p).stop with h | ⟨o, -, -, h⟩ <;> rw [h] <;> rfl

theorem requests_takeOver_self (s : State) (r p : Nat) :
    (s.takeOver r p).requests r = { s.requests r with pc := .signal } := by
  show (State.setRequest _ r _).requests r = _
  rw [requests_setRequest, if_pos rfl]

theorem requests_takeOver_of_ne (s : State) {q : Nat} (p : Nat) (hq : q ≠ r) :
    (s.takeOver r p).requests q = s.requests q ∨
      (s.processes p).stop = some q ∧ (s.requests q).signalled = none ∧
        (s.takeOver r p).requests q = { s.requests q with superseded := true } := by
  have hkept : (s.takeOver r p).requests q = (s.supersede (s.processes p).stop).requests q := by
    show (State.setRequest _ r _).requests q = _
    rw [requests_setRequest, if_neg hq]
  -- only the owner of the stop before can change
  grind [supersede_eq, requests_setRequest]

/-! ## §1 — what a step can do -/

variable {p : Nat}

/-- The request has marked its process. -/
def RequestPC.marked : RequestPC → Bool
  | .check | .mark => false
  | _ => true

/-- A request moves on, takes the stop over, or signals as its owner. It ends with a result that
lets the check go on only when its process is done. -/
inductive RequestEffect (s : State) (r : Nat) : State → Prop where
  | move (pc : RequestPC) (hmarked : (s.requests r).pc.marked = true → pc.marked = true)
      (hover : ∀ result, pc = .ended result → result.replaceable = true →
        ∀ p, (s.requests r).process = some p → (s.processes p).done = true) :
      RequestEffect s r (s.setRequest r { s.requests r with pc := pc })
  | mark (p : Nat) (hpc : (s.requests r).pc = .mark)
      (hprocess : (s.requests r).process = some p) :
      RequestEffect s r (s.takeOver r p)
  | send (p : Nat) (hprocess : (s.requests r).process = some p)
      (howner : (s.processes p).stop = some r) :
      RequestEffect s r (s.setRequest r { s.requests r with pc := .wait, signalled := some p })

theorem requestStepOn_effect {answer : SignalAnswer}
    (hprocess : (s.requests r).process = some p)
    (hstep : requestStepOn s r p answer = some s') : RequestEffect s r s' := by
  -- a result after `done` was seen closed
  have hdone : (s.processes p).done = true → ∀ pc : RequestPC, pc.marked = true →
      RequestEffect s r (s.setRequest r { s.requests r with pc := pc }) := by
    intro hdone pc hpc
    refine .move pc (fun _ => hpc) fun _ _ _ q hq => ?_
    rw [hprocess] at hq
    cases hq
    exact hdone
  unfold requestStepOn at hstep
  cases hpc : (s.requests r).pc with
  | check =>
    simp only [hpc] at hstep
    split at hstep
    · next h => cases hstep; exact hdone h _ rfl
    · cases hstep
      exact .move .mark (by rw [hpc]; nofun) nofun
  | mark =>
    simp only [hpc] at hstep
    cases hstep
    exact .mark p hpc hprocess
  | signal =>
    simp only [hpc] at hstep
    split at hstep
    · cases hstep
      exact .move (.ended .superseded) (fun _ => rfl) fun result h hgo => by cases h; cases hgo
    · next howner =>
      rw [ne_eq, not_not] at howner
      cases answer with
      | sent => cases hstep; exact .send p hprocess howner
      | processDone =>
        simp only at hstep
        split at hstep <;> cases hstep
        exact .move .waitGone (fun _ => rfl) nofun
      | failed =>
        cases hstep
        exact .move (.ended .signalFailed) (fun _ => rfl) fun result h hgo => by cases h; cases hgo
  | ended result => simp only [hpc] at hstep; cases hstep
  | _ =>
    simp only [hpc] at hstep
    split at hstep
    · next h => cases hstep; exact hdone h _ rfl
    · cases hstep

theorem requestStep_effect {answer : SignalAnswer}
    (hstep : requestStep s r answer = some s') : r < s.made ∧ RequestEffect s r s' := by
  unfold requestStep at hstep
  split at hstep
  · next hmade =>
    refine ⟨hmade, ?_⟩
    split at hstep
    · next hprocess =>
      split at hstep <;> cases hstep
      refine .move (.ended .notRunning) (fun _ => rfl) fun _ _ _ q hq => ?_
      rw [hprocess] at hq
      cases hq
    · next p hprocess => exact requestStepOn_effect hprocess hstep
  · cases hstep

/-- Nothing runs, or what runs was killed and may be replaced. -/
def State.Ended (s : State) : Prop :=
  s.litestreamRunning = false ∨
    ∃ r result, s.check = .killing r ∧ (s.requests r).pc = .ended result ∧ result.replaceable = true

inductive CheckEffect (s : State) : State → Prop where
  | goto (pc : CheckPC) (hfrom : ∀ p, s.check ≠ .publish p) (hto : ∀ p, pc ≠ .publish p)
      (hkill : ∀ r, pc ≠ .killing r) (hstart : pc = .start → s.Ended) :
      CheckEffect s { s with check := pc }
  | kill (hpc : s.check = .kill) : CheckEffect s { s.capture .kill with check := .killing s.made }
  | start (hpc : s.check = .start) :
      CheckEffect s
        { s.setProcess s.started {} with started := s.started + 1, check := .publish s.started }
  | publish (p : Nat) (hpc : s.check = .publish p) :
      CheckEffect s
        { s.setProcess p { s.processes p with waited := true } with
          current := some p, check := .monitor }
  | monitor (p : Nat) (hpc : s.check = .monitor) :
      CheckEffect s
        { s.setProcess p { s.processes p with monitor := .waiting } with check := .lastSync }

theorem checkStep_effect {ok : Bool} (hstep : checkStep s ok = some s') : CheckEffect s s' := by
  unfold checkStep at hstep
  cases hpc : s.check with
  | idle => simp only [hpc] at hstep; cases hstep
  | stopping r =>
    have hidle : CheckEffect s { s with check := .idle } :=
      .goto .idle (by rw [hpc]; nofun) nofun nofun nofun
    simp only [hpc] at hstep
    cases hreq : (s.requests r).pc with
    | ended result => simp only [hreq] at hstep; cases hstep; exact hidle
    | check | mark => simp only [hreq] at hstep; cases hstep
    | _ =>
      simp only [hreq] at hstep
      split at hstep <;> cases hstep
      exact hidle
  | running =>
    simp only [hpc] at hstep
    cases hstep
    cases hrunning : s.litestreamRunning with
    | true => exact .goto .expected (by rw [hpc]; nofun) nofun nofun nofun
    | false => exact .goto .start (by rw [hpc]; nofun) nofun nofun fun _ => .inl hrunning
  | expected =>
    simp only [hpc] at hstep
    cases hstep
    cases s.litestreamExitExpected with
    | true => exact .goto .kill (by rw [hpc]; nofun) nofun nofun nofun
    | false => exact .goto .firstSync (by rw [hpc]; nofun) nofun nofun nofun
  | firstSync =>
    simp only [hpc] at hstep
    cases hstep
    cases ok with
    | true => exact .goto .idle (by rw [hpc]; nofun) nofun nofun nofun
    | false => exact .goto .kill (by rw [hpc]; nofun) nofun nofun nofun
  | kill => simp only [hpc] at hstep; cases hstep; exact .kill hpc
  | killing r =>
    simp only [hpc] at hstep
    cases hreq : (s.requests r).pc with
    | ended result =>
      simp only [hreq] at hstep
      cases hstep
      cases hgo : result.replaceable with
      | true =>
        exact .goto .start (by rw [hpc]; nofun) nofun nofun fun _ => .inr
          ⟨r, result, hpc, hreq, hgo⟩
      | false => exact .goto .idle (by rw [hpc]; nofun) nofun nofun nofun
    | _ => simp only [hreq] at hstep; cases hstep
  | start =>
    simp only [hpc] at hstep
    split at hstep <;> cases hstep
    · exact .start hpc
    · exact .goto .idle (by rw [hpc]; nofun) nofun nofun nofun
  | publish p => simp only [hpc] at hstep; cases hstep; exact .publish p hpc
  | monitor =>
    simp only [hpc] at hstep
    split at hstep <;> cases hstep
    · exact .goto .lastSync (by rw [hpc]; nofun) nofun nofun nofun
    · exact .monitor _ hpc
  | lastSync =>
    simp only [hpc] at hstep
    cases hstep
    exact .goto .idle (by rw [hpc]; nofun) nofun nofun nofun

/-! ## §2 — what the monitor finds -/

variable {v : Process} {a : Action}

/-- What the monitor of a process may find. -/
structure Watched (v : Process) : Prop where
  exited_of_done : v.done = true → v.exited = true
  expected : v.stopRequested = true → v.expectedExit = true
  cancelled : v.monitor = .cancelled → v.exited = true ∧ v.stopRequested = false

theorem watched_setProcess (h : ∀ q, Watched (s.processes q))
    (hv : Watched v) : ∀ q, Watched ((s.setProcess p v).processes q) := by
  intro q
  rw [processes_setProcess]
  split
  · exact hv
  · exact h q

theorem watched_step (h : ∀ q, Watched (s.processes q)) (hstep : step s a = some s') :
    ∀ q, Watched (s'.processes q) := by
  cases a with
  | shutdown => cases hstep; exact h
  | request r answer =>
    cases (requestStep_effect hstep).2 with
    | mark p _ _ =>
      intro q
      rw [processes_takeOver]
      split
      · refine ⟨(h p).exited_of_done, fun _ => rfl, fun hcancelled => ?_⟩
        -- a cancelled monitor has seen the end, so the request comes after it
        obtain ⟨hexited, hnone⟩ := (h p).cancelled hcancelled
        exact ⟨hexited, by rw [hnone, hexited]; rfl⟩
      · exact h q
    | _ => exact h
  | check ok =>
    cases checkStep_effect hstep with
    | start _ => exact watched_setProcess h ⟨nofun, nofun, nofun⟩
    | publish p _ =>
      exact watched_setProcess h ⟨(h p).exited_of_done, (h p).expected, (h p).cancelled⟩
    | monitor p _ => exact watched_setProcess h ⟨(h p).exited_of_done, (h p).expected, nofun⟩
    | _ => exact h
  | exit p signal =>
    simp only [step] at hstep
    split at hstep <;> cases hstep
    exact watched_setProcess h ⟨fun _ => rfl, (h p).expected,
      fun hc => ⟨rfl, ((h p).cancelled hc).2⟩⟩
  | finish p =>
    simp only [step] at hstep
    split at hstep
    · next hend =>
      cases hstep
      exact watched_setProcess h ⟨fun _ => hend.1, (h p).expected, (h p).cancelled⟩
    · cases hstep
  | monitor p ctxErr =>
    simp only [step] at hstep
    split at hstep
    · next hdone =>
      cases hstep
      refine watched_setProcess h ⟨(h p).exited_of_done, (h p).expected, fun hcancelled => ?_⟩
      refine ⟨(h p).exited_of_done hdone.2, ?_⟩
      -- the monitor cancels only where no stop is expected
      have hunexpected : ¬ (ctxErr || (s.processes p).expectedExit) = true := by
        intro hquiet
        rw [if_pos hquiet] at hcancelled
        exact nomatch hcancelled
      by_contra hrequested
      rw [(h p).expected (by simpa using hrequested), Bool.or_true] at hunexpected
      exact hunexpected rfl
    · cases hstep
  | _ =>
    simp only [step] at hstep
    split at hstep <;> cases hstep
    exact h

theorem watched_reachable (hs : machine.Reachable s) : ∀ q, Watched (s.processes q) := by
  induction hs with
  | @start s hempty =>
    obtain rfl : s = {} := hempty
    exact fun _ => ⟨nofun, nofun, nofun⟩
  | step _ _ hstep ih => exact watched_step ih hstep

/-! ## §3 — who owns a stop -/

/-- A stop belongs to the request that made it last. -/
structure Owned (s : State) : Prop where
  unmade : ∀ r, s.made ≤ r → s.requests r = {}
  owner : ∀ p r, (s.processes p).stop = some r →
    (s.requests r).pc.marked = true ∧ (s.requests r).process = some p
  superseded : ∀ r, (s.requests r).superseded = true →
    (s.requests r).signalled = none ∧ (s.requests r).pc.marked = true ∧
      ∀ p, (s.processes p).stop ≠ some r
  captured : ∀ r p, (s.requests r).signalled = some p → (s.requests r).process = some p

theorem Owned.frame (h : Owned s) (hprocesses : s'.processes = s.processes)
    (hrequests : s'.requests = s.requests) (hmade : s'.made = s.made) : Owned s' := by
  obtain ⟨hunmade, howner, hsuperseded, hcaptured⟩ := h
  exact ⟨by rwa [hrequests, hmade], by rwa [hprocesses, hrequests],
    by rwa [hprocesses, hrequests], by rwa [hrequests]⟩

theorem Owned.setProcess (h : Owned s)
    (hv : v.stop = (s.processes p).stop ∨ v.stop = none) : Owned (s.setProcess p v) := by
  have hstop : ∀ q r, ((s.setProcess p v).processes q).stop = some r →
      (s.processes q).stop = some r := by
    intro q r hq
    rw [processes_setProcess] at hq
    split at hq
    · grind
    · exact hq
  exact ⟨h.unmade, fun q r hq => h.owner q r (hstop q r hq), fun r hr =>
    ⟨(h.superseded r hr).1, (h.superseded r hr).2.1,
      fun q hq => (h.superseded r hr).2.2 q (hstop q r hq)⟩, h.captured⟩

theorem Owned.capture (h : Owned s) (sig : Signal) : Owned (s.capture sig) := by
  have hother : ∀ r, r ≠ s.made → (s.capture sig).requests r = s.requests r := by
    intro r hr
    show (s.setRequest _ _).requests r = _
    rw [requests_setRequest, if_neg hr]
  have hnew : (s.capture sig).requests s.made = { process := s.current, sig := sig } := by
    show (s.setRequest _ _).requests s.made = _
    rw [requests_setRequest, if_pos rfl]
  -- no stop belongs to a request that was not made yet
  have hne : ∀ p r, (s.processes p).stop = some r → r ≠ s.made := by
    rintro p r hp rfl
    have hmarked := (h.owner p s.made hp).1
    rw [h.unmade s.made (Nat.le_refl _)] at hmarked
    cases hmarked
  refine ⟨fun r hr => ?_, fun p r hp => ?_, fun r hr => ?_, fun r p hp => ?_⟩
  · grind [Owned.unmade, State.capture]
  · rw [hother r (hne p r hp)]
    exact h.owner p r hp
  · by_cases hmade : r = s.made
    · rw [hmade, hnew] at hr
      cases hr
    · rw [hother r hmade] at hr ⊢
      exact h.superseded r hr
  · grind [Owned.captured]

theorem Owned.setRequest (h : Owned s) {v : Request} (hmade : r < s.made)
    (hmarked : (s.requests r).pc.marked = true → v.pc.marked = true)
    (hprocess : v.process = (s.requests r).process)
    (hsuperseded : v.superseded = true → v.signalled = none ∧ v.pc.marked = true ∧
      ∀ p, (s.processes p).stop ≠ some r)
    (hcaptured : ∀ p, v.signalled = some p → v.process = some p) : Owned (s.setRequest r v) := by
  refine ⟨fun q hq => ?_, fun p q hp => ?_, fun q hq => ?_, fun q p hp => ?_⟩
  · have hq : s.made ≤ q := hq
    rw [requests_setRequest, if_neg (by omega)]
    exact h.unmade q hq
  · grind [requests_setRequest, Owned.owner, State.setRequest]
  · rw [requests_setRequest] at hq ⊢
    split at hq
    · next hqr =>
      rw [if_pos hqr, hqr]
      exact hsuperseded hq
    · next hqr =>
      rw [if_neg hqr]
      exact h.superseded q hq
  · grind [requests_setRequest, Owned.captured]

theorem Owned.takeOver (h : Owned s) (hmade : r < s.made)
    (hpc : (s.requests r).pc = .mark) (hprocess : (s.requests r).process = some p) :
    Owned (s.takeOver r p) := by
  have hself := requests_takeOver_self s r p
  -- `r` has not marked before
  have hunmarked : ¬ (s.requests r).pc.marked = true := by rw [hpc]; nofun
  have hstop : ∀ q o, ((s.takeOver r p).processes q).stop = some o →
      (o = r ∧ q = p) ∨ q ≠ p ∧ o ≠ r ∧ (s.processes q).stop = some o := by
    intro q o hq
    rw [processes_takeOver] at hq
    split at hq
    · next hqp => exact .inl ⟨(Option.some.inj hq).symm, hqp⟩
    · next hqp =>
      refine .inr ⟨hqp, ?_, hq⟩
      rintro rfl
      exact hunmarked (h.owner q o hq).1
  refine ⟨fun q hq => ?_, fun q o hq => ?_, fun o ho => ?_, fun o q hq => ?_⟩
  · rw [(takeOver_frame s r p).2.2.1] at hq
    have hqr : q ≠ r := by omega
    rcases requests_takeOver_of_ne s p hqr with hsame | ⟨howner, -⟩
    · rw [hsame]
      exact h.unmade q hq
    · have hmarked := (h.owner p q howner).1
      rw [h.unmade q hq] at hmarked
      cases hmarked
  · rcases hstop q o hq with ⟨hor, hqp⟩ | ⟨hqp, hor, howner⟩
    · rw [hor, hself, hqp]
      exact ⟨rfl, hprocess⟩
    · rcases requests_takeOver_of_ne s p hor with hsame | ⟨-, -, hsame⟩ <;> rw [hsame] <;>
        exact h.owner q o howner
  · by_cases hor : o = r
    · rw [hor, hself] at ho
      exact absurd (h.superseded r ho).2.1 hunmarked
    · rcases requests_takeOver_of_ne s p hor with hsame | ⟨howner, hunsent, hsame⟩
      · rw [hsame] at ho ⊢
        obtain ⟨hunsent, hmarked, hnone⟩ := h.superseded o ho
        grind
      · rw [hsame]
        refine ⟨hunsent, (h.owner p o howner).1, fun q hq => ?_⟩
        -- the old owner owns the stop of no other process
        obtain ⟨hqp, -, hq⟩ := (hstop q o hq).resolve_left fun h => hor h.1
        have hsame := (h.owner q o hq).2.symm.trans (h.owner p o howner).2
        exact hqp (Option.some.inj hsame)
  · grind [Owned.captured, requests_takeOver_of_ne]

theorem owned_step (h : Owned s) (hstep : step s a = some s') : Owned s' := by
  cases a with
  | shutdown => cases hstep; exact h.capture _
  | request r answer =>
    obtain ⟨hmade, heffect⟩ := requestStep_effect hstep
    cases heffect with
    | move pc hmarked _ =>
      refine h.setRequest hmade hmarked rfl (fun hold => ?_) (h.captured r)
      obtain ⟨hunsent, hold, hnone⟩ := h.superseded r hold
      exact ⟨hunsent, hmarked hold, hnone⟩
    | mark p hpc hprocess => exact h.takeOver hmade hpc hprocess
    | send p hprocess howner =>
      refine h.setRequest hmade (fun _ => rfl) rfl (fun hold => ?_) fun q hq => ?_
      · exact absurd howner ((h.superseded r hold).2.2 p)
      · cases hq
        exact hprocess
  | stopForCheck =>
    simp only [step] at hstep
    split at hstep <;> cases hstep
    exact (h.capture _).frame rfl rfl rfl
  | ensure => grind [step, Owned.frame]
  | check ok =>
    cases checkStep_effect hstep with
    | goto pc _ _ _ _ => exact h.frame rfl rfl rfl
    | kill _ => exact (h.capture _).frame rfl rfl rfl
    | start _ => exact (h.setProcess (.inr rfl)).frame rfl rfl rfl
    | publish p _ =>
      exact (h.setProcess (v := { s.processes p with waited := true }) (.inl rfl)).frame rfl rfl rfl
    | monitor p _ =>
      exact (h.setProcess (v := { s.processes p with monitor := .waiting }) (.inl rfl)).frame
        rfl rfl rfl
  | _ => grind [step, Owned.setProcess]

theorem owned_reachable (hs : machine.Reachable s) : Owned s := by
  induction hs with
  | @start s hempty =>
    obtain rfl : s = {} := hempty
    exact ⟨fun _ _ => rfl, nofun, nofun, nofun⟩
  | step _ _ hstep ih => exact owned_step ih hstep

/-! ## §4 — one process at a time -/

/-- At most one process is alive. -/
structure Single (s : State) : Prop where
  unstarted : ∀ p, s.started ≤ p → (s.processes p).exited = false
  /-- A process that has not ended is the current one, or about to become it. -/
  alive : ∀ p < s.started, (s.processes p).exited = false →
    s.current = some p ∨ s.check = .publish p
  publish : ∀ p, s.check = .publish p → ∀ q < s.started, q ≠ p → (s.processes q).exited = true
  start : s.check = .start → ∀ p < s.started, (s.processes p).exited = true
  killing : ∀ r, s.check = .killing r → r < s.made ∧ (s.requests r).process = s.current
  ended : ∀ r result, (s.requests r).pc = .ended result → result.replaceable = true →
    ∀ p, (s.requests r).process = some p → (s.processes p).done = true

/-- Processes end and requests go on: what the steps of other threads than the check do. -/
structure Background (s s' : State) : Prop where
  started : s'.started = s.started
  current : s'.current = s.current
  made : s.made ≤ s'.made
  unstarted : ∀ p, s.started ≤ p → (s.processes p).exited = false → (s'.processes p).exited = false
  exited : ∀ p, (s.processes p).exited = true → (s'.processes p).exited = true
  done : ∀ p, (s.processes p).done = true → (s'.processes p).done = true
  process : ∀ r < s.made, (s'.requests r).process = (s.requests r).process
  ended : ∀ r result, (s'.requests r).pc = .ended result → result.replaceable = true →
    (s.requests r).pc = .ended result ∧ (s'.requests r).process = (s.requests r).process ∨
      ∀ p, (s'.requests r).process = some p → (s.processes p).done = true

theorem Background.refl (s : State) : Background s s :=
  ⟨rfl, rfl, Nat.le_refl _, fun _ _ h => h, fun _ h => h, fun _ h => h, fun _ _ => rfl,
    fun _ _ h _ => .inl ⟨h, rfl⟩⟩

theorem background_setProcess
    (hexited : v.exited = (s.processes p).exited ∨ p < s.started ∧ v.exited = true)
    (hdone : (s.processes p).done = true → v.done = true) : Background s (s.setProcess p v) := by
  refine { Background.refl s with
    unstarted := fun q hq halive => ?_, exited := fun q hq => ?_, done := fun q hq => ?_ }
  -- process `p` by its new value, every other by the old one
  · grind [processes_setProcess]
  · grind [processes_setProcess]
  · grind [processes_setProcess]

theorem background_setRequest {v : Request}
    (hprocess : v.process = (s.requests r).process)
    (hover : ∀ result, v.pc = .ended result → result.replaceable = true →
      ∀ p, v.process = some p → (s.processes p).done = true) :
    Background s (s.setRequest r v) := by
  refine { Background.refl s with process := fun q _ => ?_, ended := fun q result hq hgo => ?_ }
  · rw [requests_setRequest]
    split
    · next hqr => rw [hqr, hprocess]
    · rfl
  · grind [requests_setRequest]

theorem background_capture (s : State) (sig : Signal) : Background s (s.capture sig) := by
  have hrequests : ∀ r, (s.capture sig).requests r =
      if r = s.made then { process := s.current, sig := sig } else s.requests r :=
    fun r => requests_setRequest ..
  refine { Background.refl s with made := Nat.le_succ _, process := fun r hr => ?_, ended := ?_ }
  · rw [hrequests, if_neg (by omega)]
  · grind

theorem background_request (h : RequestEffect s r s') : Background s s' := by
  cases h with
  | move pc _ hover => exact background_setRequest rfl hover
  | mark p hpc _ =>
    obtain ⟨hstarted, hcurrent, hmade, -⟩ := takeOver_frame s r p
    have hself := requests_takeOver_self s r p
    have hkept : ∀ q, ((s.takeOver r p).processes q).exited = (s.processes q).exited ∧
        ((s.takeOver r p).processes q).done = (s.processes q).done := by
      intro q
      rw [processes_takeOver]
      split
      · next hqp => rw [hqp]; exact ⟨rfl, rfl⟩
      · exact ⟨rfl, rfl⟩
    refine ⟨hstarted, hcurrent, Nat.le_of_eq hmade.symm, fun q _ hq => (hkept q).1.trans hq,
      fun q hq => (hkept q).1.trans hq, fun q hq => (hkept q).2.trans hq, fun q _ => ?_,
      fun q result hq hgo => ?_⟩
    · grind [requests_takeOver_of_ne]
    · grind [requests_takeOver_of_ne]
  | send p _ _ => exact background_setRequest rfl nofun

theorem RequestEffect.check (h : RequestEffect s r s') : s'.check = s.check := by
  cases h with
  | mark p _ _ => exact (takeOver_frame s r p).2.2.2
  | _ => rfl

theorem Single.background (h : Single s) (hback : Background s s') (hcheck : s'.check = s.check) :
    Single s' := by
  refine ⟨fun p hp => ?_, fun p hp halive => ?_, fun p hpc q hq hne => ?_, fun hpc p hp => ?_,
    fun r hpc => ?_, fun r result hover hgo p hprocess => ?_⟩
  · rw [hback.started] at hp
    exact hback.unstarted p hp (h.unstarted p hp)
  · rw [hback.current, hcheck]
    grind [Background.started, Single.alive, Background.exited]
  · rw [hback.started] at hq
    exact hback.exited q (h.publish p (hcheck ▸ hpc) q hq hne)
  · rw [hback.started] at hp
    exact hback.exited p (h.start (hcheck ▸ hpc) p hp)
  · obtain ⟨hmade, hprocess⟩ := h.killing r (hcheck ▸ hpc)
    exact ⟨Nat.lt_of_lt_of_le hmade hback.made,
      (hback.process r hmade).trans (hprocess.trans hback.current.symm)⟩
  · rcases hback.ended r result hover hgo with ⟨hold, hsame⟩ | hdone
    · exact hback.done p (h.ended r result hold hgo p (hsame ▸ hprocess))
    · exact hback.done p (hdone p hprocess)

theorem Single.exited_of_ended (h : Single s) (hw : ∀ q, Watched (s.processes q)) (hended : s.Ended)
    (hfrom : ∀ p, s.check ≠ .publish p) : ∀ p < s.started, (s.processes p).exited = true := by
  intro p hp
  by_contra halive
  have hcurrent := (h.alive p hp (by simpa using halive)).resolve_right (hfrom p)
  have hdone : (s.processes p).done = true := by
    rcases hended with hrunning | ⟨r, result, hpc, hover, hgo⟩
    · rw [State.litestreamRunning, hcurrent] at hrunning
      simpa using hrunning
    · exact h.ended r result hover hgo p ((h.killing r hpc).2.trans hcurrent)
  exact halive ((hw p).exited_of_done hdone)

theorem single_checkEffect (h : Single s) (hw : ∀ q, Watched (s.processes q))
    (heffect : CheckEffect s s') : Single s' := by
  cases heffect with
  | goto pc hfrom hto hkill hstart =>
    refine ⟨h.unstarted, fun p hp halive => .inl ?_, fun p hpc => absurd hpc (hto p), fun hpc => ?_,
      fun r hpc => absurd hpc (hkill r), h.ended⟩
    · exact (h.alive p hp halive).resolve_right (hfrom p)
    · exact h.exited_of_ended hw (hstart hpc) hfrom
  | kill hpc =>
    have hcapture := h.background (background_capture s .kill) rfl
    refine ⟨hcapture.unstarted, fun p hp halive => .inl ?_, nofun, nofun, fun r hr => ?_,
      hcapture.ended⟩
    · exact (hcapture.alive p hp halive).resolve_right (by show s.check ≠ _; rw [hpc]; nofun)
    · cases hr
      refine ⟨Nat.lt_succ_self _, ?_⟩
      show ((s.setRequest _ _).requests s.made).process = _
      rw [requests_setRequest, if_pos rfl]
      rfl
  | start hpc =>
    have hall := h.start hpc
    have hold : ∀ q, q ≠ s.started → (s.setProcess s.started {}).processes q = s.processes q := by
      intro q hq
      rw [processes_setProcess, if_neg hq]
    refine ⟨fun p hp => ?_, fun p hp halive => ?_, fun p hp q hq hne => ?_, nofun, nofun,
      fun r result hover hgo p hprocess => ?_⟩
    -- the process just started is the only one that may be alive
    · grind [Single.unstarted]
    · grind
    · grind
    · -- a process that is done has been started before
      have hdone := h.ended r result hover hgo p hprocess
      show ((s.setProcess s.started {}).processes p).done = true
      rw [hold p]
      · exact hdone
      · intro hps
        have halive := h.unstarted p (Nat.le_of_eq hps.symm)
        rw [(hw p).exited_of_done hdone] at halive
        cases halive
  | publish p hpc =>
    have hset := h.background
      (background_setProcess (v := { s.processes p with waited := true }) (.inl rfl) id) rfl
    refine ⟨hset.unstarted, fun q hq halive => .inl ?_, nofun, nofun, nofun, hset.ended⟩
    by_contra hne
    have hqp : q ≠ p := fun hqp => hne (by rw [hqp])
    have hexited := hset.publish p hpc q hq hqp
    rw [halive] at hexited
    cases hexited
  | monitor p hpc =>
    have hset := h.background
      (background_setProcess (v := { s.processes p with monitor := .waiting }) (.inl rfl) id) rfl
    refine ⟨hset.unstarted, fun q hq halive => .inl ?_, nofun, nofun, nofun, hset.ended⟩
    exact (hset.alive q hq halive).resolve_right (by show s.check ≠ _; rw [hpc]; nofun)

theorem single_step (h : Single s) (hw : ∀ q, Watched (s.processes q))
    (hstep : step s a = some s') : Single s' := by
  cases a with
  | shutdown => cases hstep; exact h.background (background_capture s _) rfl
  | request r answer =>
    have heffect := (requestStep_effect hstep).2
    exact h.background (background_request heffect) heffect.check
  | stopForCheck =>
    simp only [step] at hstep
    split at hstep <;> cases hstep
    next hidle =>
    have hcapture := h.background (background_capture s .terminate) rfl
    refine ⟨hcapture.unstarted, fun p hp halive => .inl ?_, nofun, nofun, nofun, hcapture.ended⟩
    exact (hcapture.alive p hp halive).resolve_right (by show s.check ≠ _; rw [hidle]; nofun)
  | ensure =>
    simp only [step] at hstep
    split at hstep <;> cases hstep
    next hidle =>
    refine ⟨h.unstarted, fun p hp halive => .inl ?_, nofun, nofun, nofun, h.ended⟩
    exact (h.alive p hp halive).resolve_right (by rw [hidle]; nofun)
  | check ok => exact single_checkEffect h hw (checkStep_effect hstep)
  | exit p signal =>
    simp only [step] at hstep
    split at hstep <;> cases hstep
    next hguard => exact h.background (background_setProcess (.inr ⟨hguard.1, rfl⟩) id) rfl
  | finish p =>
    simp only [step] at hstep
    split at hstep <;> cases hstep
    exact h.background (background_setProcess (.inl rfl) fun _ => rfl) rfl
  | monitor p ctxErr =>
    simp only [step] at hstep
    split at hstep <;> cases hstep
    exact h.background (background_setProcess (.inl rfl) id) rfl

theorem single_reachable (hs : machine.Reachable s) : Single s := by
  induction hs with
  | @start s hempty =>
    obtain rfl : s = {} := hempty
    exact ⟨fun _ _ => rfl, nofun, nofun, nofun, nofun, nofun⟩
  | step hs _ hstep ih => exact single_step ih (watched_reachable hs) hstep

theorem check_of_started_lt (hstep : step s a = some s')
    (hlt : s.started < s'.started) : s.check = .start := by
  cases a with
  | shutdown => cases hstep; exact absurd hlt (Nat.lt_irrefl _)
  | request r answer =>
    rw [(background_request (requestStep_effect hstep).2).started] at hlt
    exact absurd hlt (Nat.lt_irrefl _)
  | check ok =>
    cases checkStep_effect hstep with
    | start hpc => exact hpc
    | _ => exact absurd hlt (Nat.lt_irrefl _)
  | _ =>
    simp only [step] at hstep
    split at hstep <;> cases hstep
    exact absurd hlt (Nat.lt_irrefl _)

/-! ## §5 — the protocol -/

/-- **Stopping and replacing Litestream is safe**, however the threads interleave: a process is
started only when every earlier one has ended, a request whose stop was taken over before it had
signalled never signals, a request signals only the process it captured, and the monitor never
cancels the run for a process whose stop was requested before it ended. -/
theorem process_protocol_safe (s : State) (hs : machine.Reachable s) :
    (∀ a s', step s a = some s' → s.started < s'.started →
      ∀ p < s.started, (s.processes p).exited = true) ∧
    (∀ r, (s.requests r).superseded = true → (s.requests r).signalled = none) ∧
    (∀ r p, (s.requests r).signalled = some p → (s.requests r).process = some p) ∧
    (∀ p, (s.processes p).monitor = .cancelled → (s.processes p).stopRequested = false) := by
  refine ⟨fun a s' hstep hlt => ?_, fun r hr => ?_, ?_, fun p hp => ?_⟩
  · exact (single_reachable hs).start (check_of_started_lt hstep hlt)
  · exact ((owned_reachable hs).superseded r hr).1
  · exact (owned_reachable hs).captured
  · exact ((watched_reachable hs p).cancelled hp).2

/-- A check's stop times out before its signal, the restart's kill takes it over and replaces the
process. -/
theorem process_protocol_safe_replaced :
    ∃ s, machine.Reachable s ∧ s.check = .start ∧ s.started = 1 ∧
      (s.requests 0).superseded = true ∧ (s.requests 0).signalled = none ∧
      (s.requests 1).signalled = some 0 ∧ (s.requests 1).process = some 0 ∧
      (s.processes 0).exited = true := by
  have hstart : machine.Reachable {} := .start rfl
  obtain ⟨s, hs, hpc, hstarted, hsuperseded, hsignalled⟩ := Machine.exists_reaches_of_run hstart
    [.check true, .check true, .check true, .check true,
      .stopForCheck, .request 0 .sent, .request 0 .sent, .check false,
      .ensure, .check true, .check true, .check true,
      .request 1 .sent, .request 1 .sent, .request 0 .sent, .request 1 .sent,
      .exit 0 (some .kill), .finish 0, .request 1 .sent, .check true]
    (P := fun s => s.check = .start ∧ s.started = 1 ∧ (s.requests 0).superseded = true ∧
      (s.requests 1).signalled = some 0) (by decide +kernel)
  obtain ⟨hone, hunsent, hcaptured, -⟩ := process_protocol_safe s hs
  refine ⟨s, hs, hpc, hstarted, hsuperseded, hunsent 0 hsuperseded, hsignalled,
    hcaptured 1 0 hsignalled, ?_⟩
  have hstep : step s (.check true) = some { s.setProcess s.started {} with
      started := s.started + 1, check := .publish s.started } := by
    simp only [step, checkStep, hpc, if_true]
  exact hone _ _ hstep (Nat.lt_succ_self _) 0 (by omega)

end LitestreamSoak.Worker.LitestreamProcess
