import LitestreamSoak.Lib.Keyed
import LitestreamSoak.Orchestrator.Reliability

/-!
# Orchestrator — what an eligible row stands for

The counters of a row are read against the observations that were read into it.

One exception stays visible in `Accounted`: an event counted elsewhere is an unexpected incident
that adds nothing, since the runtime rows are trusted to count it.
-/

namespace LitestreamSoak.Orchestrator.Reliability

open Lib List

/-! ## §1 — what an observation does to its row -/

section Rows

variable {events : List Event} {d : Deployment} {e e' e'' : WorkerRunEvidence} {attributed : Bool}

/-- The counter that answers for an incident. -/
structure Accounted (events : List Event) (e : WorkerRunEvidence) (i : RunIncident) : Prop where
  attributed : i.attributed = false → 0 < e.unattributedObservations
  injection : i.attributed = true → i.classification = .expectedInjection →
    0 < e.expectedInjections
  unexpected : i.attributed = true → i.classification = .unexpected →
    0 < e.unexpectedFailures ∨
      ∃ event ∈ events, event.countedElsewhere = true ∧ i.origin = .event event.id

/-- What every observation does to the row it is read into: the counters only go up, and an incident
it adds is answered for by a counter (`Accounted`). -/
structure Grows (events : List Event) (e e' : WorkerRunEvidence) : Prop where
  key : e'.key = e.key
  unattributed : e.unattributedObservations ≤ e'.unattributedObservations
  incomplete : e.incompleteObservations ≤ e'.incompleteObservations
  unexpected : e.unexpectedFailures ≤ e'.unexpectedFailures
  injections : e.expectedInjections ≤ e'.expectedInjections
  incidents : ∀ i ∈ e'.incidents, i ∈ e.incidents ∨ Accounted events e' i

/-- An observation that leaves the verifications alone. -/
structure Adds (events : List Event) (e e' : WorkerRunEvidence) : Prop extends
    Grows events e e' where
  coverage : e'.coverage = e.coverage

theorem Accounted.mono {i : RunIncident} (h : Accounted events e i) (hg : Grows events e e') :
    Accounted events e' i where
  attributed hi := (h.attributed hi).trans_le hg.unattributed
  injection hi hc := (h.injection hi hc).trans_le hg.injections
  unexpected hi hc := (h.unexpected hi hc).imp_left fun hpos => hpos.trans_le hg.unexpected

theorem Grows.trans (h : Grows events e e') (h' : Grows events e' e'') : Grows events e e'' where
  key := h'.key.trans h.key
  unattributed := h.unattributed.trans h'.unattributed
  incomplete := h.incomplete.trans h'.incomplete
  unexpected := h.unexpected.trans h'.unexpected
  injections := h.injections.trans h'.injections
  incidents i hi := by
    rcases h'.incidents i hi with hold | hnew
    · exact (h.incidents i hold).imp_right fun hacc => hacc.mono h'
    · exact .inr hnew

/-- Old incidents stay accounted for. -/
theorem Grows.accounted (hg : Grows events e e') (h : ∀ i ∈ e.incidents, Accounted events e i) :
    ∀ i ∈ e'.incidents, Accounted events e' i := by
  intro i hi
  rcases hg.incidents i hi with hold | hnew
  · exact (h i hold).mono hg
  · exact hnew

theorem Adds.refl (e : WorkerRunEvidence) : Adds events e e :=
  ⟨⟨rfl, le_rfl, le_rfl, le_rfl, le_rfl, fun _ hi => .inl hi⟩, rfl⟩

theorem Adds.trans (h : Adds events e e') (h' : Adds events e' e'') : Adds events e e'' :=
  ⟨h.toGrows.trans h'.toGrows, h'.coverage.trans h.coverage⟩

theorem Adds.ite {c : Prop} [Decidable c] (h : c → Adds events e e') :
    Adds events e (if c then e' else e) := by
  split
  · exact h ‹c›
  · exact .refl e

/-- A loop of such observations is one. -/
theorem Adds.foldl {α : Type} {f : WorkerRunEvidence → α → WorkerRunEvidence}
    (hf : ∀ e a, Adds events e (f e a)) (as : List α) (e : WorkerRunEvidence) :
    Adds events e (as.foldl f e) := by
  induction as generalizing e with
  | nil => exact .refl e
  | cons a as ih =>
    rw [foldl_cons]
    exact (hf e a).trans (ih (f e a))

/-- **The step rule**: counters that only go up, and one incident that they answer for. -/
theorem Adds.incident {i : RunIncident} (hkey : e'.key = e.key)
    (hcoverage : e'.coverage = e.coverage) (hincidents : e'.incidents = e.incidents ++ [i])
    (hunattributed : e.unattributedObservations ≤ e'.unattributedObservations)
    (hincomplete : e.incompleteObservations ≤ e'.incompleteObservations)
    (hunexpected : e.unexpectedFailures ≤ e'.unexpectedFailures)
    (hinjections : e.expectedInjections ≤ e'.expectedInjections) (hi : Accounted events e' i) :
    Adds events e e' := by
  refine ⟨⟨hkey, hunattributed, hincomplete, hunexpected, hinjections, ?_⟩, hcoverage⟩
  grind

theorem Adds.unavailable {origin : Origin} {time : Int} {kind : Text}
    (h : attributed = false → 0 < e.unattributedObservations) :
    Adds events e (e.addUnavailable origin time kind attributed) :=
  .incident rfl rfl rfl le_rfl (Nat.le_succ _) le_rfl le_rfl ⟨h, nofun, nofun⟩

/-! ## §2 — profiling, runtime rows and events -/

variable {r : RuntimeEvidence}

theorem addProfileIncident_adds (origin : Origin) (attributed : Bool) (e : WorkerRunEvidence)
    (i : ProfileIncident) : Adds events e (addProfileIncident origin attributed e i) := by
  unfold addProfileIncident
  split
  · exact .refl e
  cases attributed with
  | false =>
    exact .incident rfl rfl rfl (Nat.le_succ _) le_rfl le_rfl le_rfl
      ⟨fun _ => Nat.succ_pos _, nofun, nofun⟩
  | true =>
    cases hkind : containsText i.kind (text "unavailable") with
    | true =>
      exact .incident rfl rfl rfl le_rfl (Nat.le_succ _) le_rfl le_rfl ⟨nofun, nofun, nofun⟩
    | false =>
      exact .incident rfl rfl rfl le_rfl le_rfl (Nat.le_succ _) le_rfl
        ⟨nofun, nofun, fun _ _ => .inl (Nat.succ_pos _)⟩

/-- The incidents of a profiling report. -/
theorem observeProfilingEvidence_adds (e : WorkerRunEvidence) {o : Observation}
    (ho : o.attributed = true) (current : ProfilingEvidence) :
    Adds events e (observeProfilingEvidence e o current) := by
  have hunavailable : ∀ e, Adds events e (profilingUnavailable o e) := fun e =>
    .unavailable fun h => absurd (ho.symm.trans h) nofun
  have hcapability : Adds events e { e with profileCapability := current.capability } :=
    ⟨⟨rfl, le_rfl, le_rfl, le_rfl, le_rfl, fun _ hi => .inl hi⟩, rfl⟩
  unfold observeProfilingEvidence
  split
  · exact .refl e
  refine hcapability.trans ?_
  dsimp only
  split
  · exact hunavailable _
  -- from the last list that is read back to the first test
  refine Adds.trans ?_
    (Adds.foldl (fun e (r : ProfileRecord) =>
      Adds.foldl (addProfileIncident_adds _ _) r.incidents e) _ _)
  refine Adds.trans ?_ (Adds.foldl (fun e i => addProfileIncident_adds _ _ e i) _ _)
  refine Adds.trans ?_ (Adds.foldl (fun e _ => hunavailable e) _ _)
  exact Adds.ite fun _ => hunavailable _

theorem addFailures_pos (e : WorkerRunEvidence) {count : Nat} (h : count ≠ 0) :
    0 < (e.addFailures count).unexpectedFailures := by
  grind [maxInt, WorkerRunEvidence.addFailures]

/-- Errors that are counted add an incident and its counter. -/
theorem countErrors_adds (r : RuntimeEvidence) (e : WorkerRunEvidence) (kind : Text)
    (count : Nat) : Adds events e (r.countErrors e kind count) := by
  unfold RuntimeEvidence.countErrors
  split
  · exact .refl e
  next hcount =>
    exact .incident rfl rfl rfl le_rfl le_rfl (Nat.le_add_right _ _) le_rfl
      ⟨nofun, nofun, fun _ _ => .inl (addFailures_pos e hcount)⟩

theorem runtime_unavailable_adds (r : RuntimeEvidence) (e : WorkerRunEvidence) (kind : Text) :
    Adds events e (r.unavailable e kind) :=
  .unavailable nofun

theorem observeMaintenanceEvidence_adds (e : WorkerRunEvidence) (r : RuntimeEvidence)
    (current : MaintenanceEvidence) (m : RuntimeMaps) (forwardHeartbeat : Bool) :
    Adds events e (observeMaintenanceEvidence e r current m forwardHeartbeat).1 := by
  unfold observeMaintenanceEvidence
  split
  · exact .refl e
  refine Adds.trans ?_ (countErrors_adds r _ _ _)
  refine Adds.trans (Adds.trans ?_ (Adds.ite fun _ => runtime_unavailable_adds r _ _))
    ⟨⟨rfl, le_rfl, le_rfl, le_rfl, le_rfl, fun _ hi => .inl hi⟩, rfl⟩
  exact Adds.ite fun _ => runtime_unavailable_adds r _ _

theorem observeCounters_adds (e : WorkerRunEvidence) (r : RuntimeEvidence)
    (current : WorkloadCounters) (m : RuntimeMaps) (forwardHeartbeat : Bool) :
    Adds events e (observeCounters e r current m forwardHeartbeat).1 := by
  unfold observeCounters
  split
  · split
    · exact runtime_unavailable_adds r e _
    · exact .refl e
  dsimp only
  refine Adds.trans (Adds.trans ?_ (countErrors_adds r _ _ _))
    ⟨⟨rfl, le_rfl, le_rfl, le_rfl, le_rfl, fun _ hi => .inl hi⟩, rfl⟩
  refine Adds.trans ?_ (Adds.ite fun _ => runtime_unavailable_adds r _ _)
  refine Adds.trans ?_ (Adds.ite fun _ => runtime_unavailable_adds r _ _)
  refine Adds.trans ?_ (Adds.ite fun _ => runtime_unavailable_adds r _ _)
  exact Adds.ite fun _ => runtime_unavailable_adds r _ _

/-- A whole runtime row. -/
theorem readRuntime_adds (e : WorkerRunEvidence) (hr : r.attributed = true)
    (payload : RuntimePayload) (counters : WorkloadCounters) (m : RuntimeMaps) :
    Adds events e (readRuntime e r payload counters m).1 := by
  unfold readRuntime
  dsimp only
  refine Adds.trans ?_ (observeCounters_adds _ r counters _ _)
  refine Adds.trans ?_ (observeMaintenanceEvidence_adds _ r payload.maintenance _ _)
  refine Adds.trans ?_ (Adds.ite fun _ => runtime_unavailable_adds r _ _)
  exact observeProfilingEvidence_adds e hr payload.profiling

theorem readUnattributed_adds (e : WorkerRunEvidence) (r : RuntimeEvidence) :
    Adds events e (readUnattributed e r) :=
  .incident rfl rfl rfl (Nat.le_succ _) le_rfl le_rfl le_rfl
    ⟨fun _ => Nat.succ_pos _, nofun, nofun⟩

/-- An event: classified, counted, or left to the runtime rows. -/
theorem readEvent_adds (e : WorkerRunEvidence) {event : Event} (hevent : event ∈ events)
    (class_ : Classification) : Adds events e (readEvent d e event class_) := by
  unfold readEvent
  dsimp only
  split
  · exact .refl e
  generalize hatt : (event.attributed && matchesDeployment true event.run event.workerID d) = att
  cases att with
  | false =>
    exact .incident rfl rfl rfl (Nat.le_succ _) le_rfl le_rfl le_rfl
      ⟨fun _ => Nat.succ_pos _, nofun, nofun⟩
  | true =>
    rw [if_pos rfl]
    cases class_ with
    | expectedInjection =>
      exact .incident rfl rfl rfl le_rfl le_rfl le_rfl (Nat.le_succ _)
        ⟨nofun, fun _ _ => Nat.succ_pos _, nofun⟩
    | maintenance =>
      unfold countEvent
      dsimp only
      split_ifs <;> exact .incident rfl rfl rfl le_rfl le_rfl le_rfl le_rfl ⟨nofun, nofun, nofun⟩
    | unavailable =>
      exact .incident rfl rfl rfl le_rfl (Nat.le_succ _) le_rfl le_rfl ⟨nofun, nofun, nofun⟩
    | unexpected =>
      unfold countEvent
      dsimp only
      split
      · -- the runtime rows are trusted with this one
        next hcounted =>
          exact .incident rfl rfl rfl le_rfl le_rfl le_rfl le_rfl
            ⟨nofun, nofun, fun _ _ => .inr ⟨event, hevent, hcounted, rfl⟩⟩
      · exact .incident rfl rfl rfl le_rfl le_rfl (Nat.le_succ _) le_rfl
          ⟨nofun, nofun, fun _ _ => .inl (Nat.succ_pos _)⟩

/-! ## §3 — the tallies of a row -/

variable {v : Verification}

/-- The verification counts: attributed, finished and not pending. -/
def Verification.measured (d : Deployment) (v : Verification) : Bool :=
  v.matchesDeployment d && !v.reportedPending && !v.unfinished

def Coverage.measured (c : Coverage) (d : Deployment) : List Verification :=
  c.verifications.filter (·.measured d)

/-- What a row's counters say about its verifications and incidents, for every row at every point of
the three passes. -/
structure Tallies (events : List Event) (d : Deployment) (e : WorkerRunEvidence) : Prop where
  count : e.coverage.verificationCount = (e.coverage.measured d).length
  first : e.coverage.firstVerification = (e.coverage.measured d).head?.map (·.time)
  last : e.coverage.lastVerification = (e.coverage.measured d).getLast?.map (·.time)
  gaps : (e.coverage.measured d).IsChain fun a b =>
    b.time - a.time ≤ e.coverage.maxVerificationGap
  attributed : ∀ v ∈ e.coverage.verifications, v.matchesDeployment d = false →
    0 < e.unattributedObservations
  finished : ∀ v ∈ e.coverage.verifications, v.reportedPending = false → v.unfinished = true →
    0 < e.incompleteObservations
  succeeded : ∀ v ∈ e.coverage.measured d, v.succeeded = false → 0 < e.unexpectedFailures
  incidents : ∀ i ∈ e.incidents, Accounted events e i

theorem Tallies.fresh (id profile region : Text) :
    Tallies events d { workerID := id, profile, region } where
  count := rfl
  first := rfl
  last := rfl
  gaps := .nil
  attributed _ hv := absurd hv not_mem_nil
  finished _ hv := absurd hv not_mem_nil
  succeeded _ hv := absurd hv not_mem_nil
  incidents _ hi := absurd hi not_mem_nil

theorem Tallies.adds (h : Tallies events d e) (ha : Adds events e e') : Tallies events d e' := by
  obtain ⟨hcount, hfirst, hlast, hgaps, hattributed, hfinished, hsucceeded, hincidents⟩ := h
  rw [← ha.coverage] at hcount hfirst hlast hgaps hattributed hfinished hsucceeded
  refine ⟨hcount, hfirst, hlast, hgaps, ?_, ?_, ?_, ?_⟩
  · exact fun v hv hno => (hattributed v hv hno).trans_le ha.unattributed
  · exact fun v hv hno hun => (hfinished v hv hno hun).trans_le ha.incomplete
  · exact fun v hv hno => (hsucceeded v hv hno).trans_le ha.unexpected
  · exact ha.toGrows.accounted hincidents

/-- A verification that does not count is read. -/
theorem Tallies.read (h : Tallies events d e) (hg : Grows events e e')
    (hcoverage : e'.coverage = e.coverage.read v) (hmeasured : v.measured d = false)
    (hattributed : v.matchesDeployment d = false → 0 < e'.unattributedObservations)
    (hfinished : v.reportedPending = false → v.unfinished = true →
      0 < e'.incompleteObservations) : Tallies events d e' := by
  have hsame : (e.coverage.read v).measured d = e.coverage.measured d := by
    show (e.coverage.verifications ++ [v]).filter _ = _
    rw [filter_append, filter_cons_of_neg (by simp [hmeasured]), filter_nil,
      append_nil]
    rfl
  refine ⟨?_, ?_, ?_, ?_, ?_, ?_, ?_, ?_⟩
  · rw [hcoverage, hsame]; exact h.count
  · rw [hcoverage, hsame]; exact h.first
  · rw [hcoverage, hsame]; exact h.last
  · rw [hcoverage, hsame]; exact h.gaps
  · intro w hw hno
    rw [hcoverage] at hw
    rcases mem_append.mp hw with hold | hnew
    · exact (h.attributed w hold hno).trans_le hg.unattributed
    · exact hattributed (mem_singleton.mp hnew ▸ hno)
  · intro w hw hno hun
    rw [hcoverage] at hw
    rcases mem_append.mp hw with hold | hnew
    · exact (h.finished w hold hno hun).trans_le hg.incomplete
    · obtain rfl := mem_singleton.mp hnew
      exact hfinished hno hun
  · intro w hw hno
    rw [hcoverage, hsame] at hw
    exact (h.succeeded w hw hno).trans_le hg.unexpected
  · exact hg.accounted h.incidents

/-- A verification that counts extends the span and the largest gap. -/
theorem Tallies.measure (h : Tallies events d e) (hg : Grows events e e')
    (hcoverage : e'.coverage = (e.coverage.read v).measure v) (hmeasured : v.measured d = true)
    (hsucceeded : v.succeeded = false → 0 < e'.unexpectedFailures) : Tallies events d e' := by
  have hpush : e'.coverage.measured d = e.coverage.measured d ++ [v] := by
    rw [hcoverage]
    show (e.coverage.verifications ++ [v]).filter _ = _
    rw [filter_append, filter_cons_of_pos hmeasured, filter_nil]
    rfl
  have hmatches : v.matchesDeployment d = true ∧ v.reportedPending = false ∧
      v.unfinished = false := by
    simpa [Verification.measured, and_assoc] using hmeasured
  have hmem : ∀ w ∈ e'.coverage.verifications, w ∈ e.coverage.verifications ∨ w = v := by
    intro w hw
    rw [hcoverage] at hw
    exact (mem_append.mp hw).imp_right mem_singleton.mp
  refine ⟨?_, ?_, ?_, ?_, ?_, ?_, ?_, ?_⟩
  · rw [hpush, length_append, ← h.count, hcoverage]
    rfl
  · rw [hpush, hcoverage]
    show some (e.coverage.firstVerification.getD v.time) = _
    rw [h.first]
    cases e.coverage.measured d <;> rfl
  · rw [hpush, hcoverage, getLast?_concat]
    rfl
  · -- the old gaps stay below the new bound, and the new one is in it
    rw [hpush, hcoverage]
    show List.IsChain (fun a b : Verification =>
      b.time - a.time ≤ (e.coverage.measure v).maxVerificationGap) _
    have hlast := h.last
    have hle : e.coverage.maxVerificationGap ≤ (e.coverage.measure v).maxVerificationGap := by
      unfold Coverage.measure
      cases e.coverage.lastVerification with
      | none => exact le_refl e.coverage.maxVerificationGap
      | some last => exact le_max_left _ _
    rw [isChain_append]
    refine ⟨h.gaps.imp fun a b hab => hab.trans hle, .singleton v, ?_⟩
    · intro a ha b hb
      obtain rfl : v = b := by simpa using hb
      rw [Option.mem_def.mp ha] at hlast
      unfold Coverage.measure
      rw [hlast]
      exact le_max_right _ _
  · intro w hw hno
    rcases hmem w hw with hold | rfl
    · exact (h.attributed w hold hno).trans_le hg.unattributed
    · exact absurd (hmatches.1.symm.trans hno) nofun
  · intro w hw hno hun
    rcases hmem w hw with hold | rfl
    · exact (h.finished w hold hno hun).trans_le hg.incomplete
    · exact absurd (hmatches.2.2.symm.trans hun) nofun
  · intro w hw hno
    rw [hpush] at hw
    rcases mem_append.mp hw with hold | hnew
    · exact (h.succeeded w hold hno).trans_le hg.unexpected
    · exact hsucceeded (mem_singleton.mp hnew ▸ hno)
  · exact hg.accounted h.incidents

/-! ## §4 — one verification -/

theorem observeAttribution_adds (e : WorkerRunEvidence) (v : Verification) (attributed : Bool) :
    Adds events e (observeAttribution e v attributed) ∧
      (attributed = false → 0 < (observeAttribution e v attributed).unattributedObservations) := by
  cases attributed with
  | true => exact ⟨⟨⟨rfl, le_rfl, le_rfl, le_rfl, le_rfl, fun _ hi => .inl hi⟩, rfl⟩, nofun⟩
  | false =>
    exact ⟨⟨⟨rfl, Nat.le_succ _, le_rfl, le_rfl, le_rfl, fun _ hi => .inl hi⟩, rfl⟩,
      fun _ => Nat.succ_pos _⟩

theorem observePending_adds (e : WorkerRunEvidence) (v : Verification) (attributed : Bool) :
    Adds events e (observePending e v attributed) := by
  unfold observePending
  cases attributed <;>
    exact ⟨⟨rfl, le_rfl, le_rfl, le_rfl, le_rfl, fun _ hi => .inl hi⟩, rfl⟩

/-- A failure adds its incident, and counts where it is attributed. -/
theorem observeFailure_adds {signature : Verification → Text}
    (h : attributed = false → 0 < e.unattributedObservations) :
    Adds events e (observeFailure signature e v attributed) ∧
      (attributed = true → 0 < (observeFailure signature e v attributed).unexpectedFailures) := by
  cases attributed with
  | true =>
    exact ⟨.incident rfl rfl rfl le_rfl le_rfl (Nat.le_succ _) le_rfl
      ⟨nofun, nofun, fun _ _ => .inl (Nat.succ_pos _)⟩, fun _ => Nat.succ_pos _⟩
  | false =>
    exact ⟨.incident rfl rfl rfl le_rfl le_rfl le_rfl le_rfl ⟨h, nofun, nofun⟩, nofun⟩

theorem observeProgress_adds (e : WorkerRunEvidence) (v : Verification) :
    Adds events e (observeProgress e v) := by
  unfold observeProgress
  split
  · exact .refl e
  · exact Adds.ite fun _ => ⟨⟨rfl, le_rfl, le_rfl, le_rfl, le_rfl, fun _ hi => .inl hi⟩, rfl⟩

/-- What becomes of a verification, outcome by outcome. -/
theorem observeOutcome_tallies (signature : Verification → Text)
    (h : Tallies events d e) (hg : Grows events e e')
    (hcoverage : e'.coverage = e.coverage.read v)
    (hunattributed : v.matchesDeployment d = false → 0 < e'.unattributedObservations) :
    Grows events e (observeOutcome signature e' v (v.matchesDeployment d)) ∧
      Tallies events d (observeOutcome signature e' v (v.matchesDeployment d)) ∧
      (observeOutcome signature e' v (v.matchesDeployment d)).coverage.verifications =
        e'.coverage.verifications := by
  unfold observeOutcome
  split
  · next hpending =>
    have hadds : Adds events e' (observePending e' v (v.matchesDeployment d)) :=
      observePending_adds e' v (v.matchesDeployment d)
    have hgrows := hg.trans hadds.toGrows
    refine ⟨hgrows, h.read hgrows (hadds.coverage.trans hcoverage) ?_ ?_ ?_,
      congrArg Coverage.verifications hadds.coverage⟩
    · simp [Verification.measured, hpending]
    · exact fun hno => (hunattributed hno).trans_le hadds.unattributed
    · exact fun hno => absurd (hpending.symm.trans hno) nofun
  split
  · next hunfinished =>
    have hadds : Adds events e' (e'.addUnavailable (.verification v.id) v.time v.status
        (v.matchesDeployment d)) := .unavailable hunattributed
    have hgrows := hg.trans hadds.toGrows
    refine ⟨hgrows, h.read hgrows (hadds.coverage.trans hcoverage) ?_ ?_ ?_,
      congrArg Coverage.verifications hadds.coverage⟩
    · simp [Verification.measured, hunfinished]
    · exact fun hno => (hunattributed hno).trans_le hadds.unattributed
    · exact fun _ _ => Nat.succ_pos _
  next hpending hunfinished =>
    have hfailure : Adds events e' (observeFailure signature e' v (v.matchesDeployment d)) ∧ _ :=
      observeFailure_adds hunattributed
    generalize hnext : (if v.succeeded then e' else
      observeFailure signature e' v (v.matchesDeployment d)) = next
    have hadds : Adds events e' next := by
      rw [← hnext]
      split
      · exact .refl e'
      · exact hfailure.1
    have hgrows := hg.trans hadds.toGrows
    dsimp only
    split
    · next hmatches =>
      have hmeasure : Grows events next (measure next v) :=
        ⟨rfl, le_rfl, le_rfl, le_rfl, le_rfl, fun _ hi => .inl hi⟩
      have hprogress : Adds events (measure next v) (observeProgress (measure next v) v) :=
        observeProgress_adds (measure next v) v
      have hall := hgrows.trans (hmeasure.trans hprogress.toGrows)
      refine ⟨hall, h.measure (v := v) hall ?_ ?_ ?_, ?_⟩
      · rw [hprogress.coverage, ← hcoverage, ← hadds.coverage]
        rfl
      · simpa [Verification.measured, hmatches, hpending] using hunfinished
      · grind [observeProgress, measure]
      · rw [hprogress.coverage, ← hadds.coverage]
        rfl
    · next hmatches =>
      have hno : v.matchesDeployment d = false := Bool.eq_false_iff.mpr hmatches
      refine ⟨hgrows, h.read hgrows (hadds.coverage.trans hcoverage) ?_ ?_ ?_,
      congrArg Coverage.verifications hadds.coverage⟩
      · simp [Verification.measured, hno]
      · exact fun _ => (hunattributed hno).trans_le hadds.unattributed
      · exact fun _ hun => absurd hun hunfinished

/-- **One verification**, whatever its outcome, keeps the tallies of its row. -/
theorem readVerification_tallies (signature : Verification → Text) (v : Verification)
    (h : Tallies events d e) :
    Grows events e (readVerification signature d e v) ∧
      Tallies events d (readVerification signature d e v) ∧
      (readVerification signature d e v).coverage.verifications =
        e.coverage.verifications ++ [v] := by
  have hread : Grows events e { e with coverage := e.coverage.read v } :=
    ⟨rfl, le_rfl, le_rfl, le_rfl, le_rfl, fun _ hi => .inl hi⟩
  have hattribution : Adds events { e with coverage := e.coverage.read v }
      (observeAttribution { e with coverage := e.coverage.read v } v (v.matchesDeployment d)) ∧ _ :=
    observeAttribution_adds { e with coverage := e.coverage.read v } v (v.matchesDeployment d)
  have hprofiling : Adds events
      (observeAttribution { e with coverage := e.coverage.read v } v (v.matchesDeployment d))
      (if v.matchesDeployment d && v.runtime.profiling.capability != [] then
        observeProfilingEvidence
          (observeAttribution { e with coverage := e.coverage.read v } v (v.matchesDeployment d))
          ⟨[], .verification v.id, v.run, true, v.time⟩ v.runtime.profiling
      else observeAttribution { e with coverage := e.coverage.read v } v (v.matchesDeployment d)) :=
    Adds.ite fun _ => observeProfilingEvidence_adds _ rfl _
  have hadds := hattribution.1.trans hprofiling
  obtain ⟨hgrows, htallies, hsame⟩ := observeOutcome_tallies signature h
    (hread.trans hadds.toGrows) hadds.coverage
    fun hno => (hattribution.2 hno).trans_le hprofiling.unattributed
  exact ⟨hgrows, htallies, hsame.trans (congrArg Coverage.verifications hadds.coverage)⟩

/-! ## §5 — the rows -/

variable {rows : Rows} {stop : Option Int} {vs : List Verification} {x : WorkerRunEvidence}

/-- The verifications that are read at all: of the deployment or of its time, outside of a metering
window. -/
def Verification.isRead (d : Deployment) (stop : Option Int) (v : Verification) : Bool :=
  (v.run.deploymentID = 0 || v.run.deploymentID = d.id) &&
    !outsideRun d stop v.run.deploymentID v.time && !v.run.inMeteringWindow

def Verification.key (v : Verification) : Text × Text × Text :=
  (v.workerID, v.run.profileName, v.run.region)

def Verification.isKeyed (v : Verification) : Prop :=
  ¬(v.run.profileName = [] ∧ v.run.region = [])

/-- The rows as a whole: one row per key, each with its tallies. -/
structure Collected (events : List Event) (d : Deployment) (stop : Option Int)
    (vs : List Verification) (rows : Rows) : Prop where
  keys : (rows.map (·.key)).Nodup
  tallies : ∀ e ∈ rows, Tallies events d e
  order : ∀ e ∈ rows, e.coverage.verifications.Sublist vs
  complete : ∀ v ∈ vs, v.isRead d stop = true → v.isKeyed →
    ∃ e ∈ rows, e.key = v.key ∧ v ∈ e.coverage.verifications

/-- There is one row for each key. -/
theorem Collected.eq_of_key (h : Collected events d stop vs rows) (he : e ∈ rows) (he' : e' ∈ rows)
    (hkey : e'.key = e.key) : e' = e :=
  inj_on_of_nodup_map h.keys he' he hkey

/-- A row of the table after one of them was replaced. -/
theorem mem_put (hx : x ∈ put rows e) : x = e ∨ x ∈ rows ∧ x.key ≠ e.key := by
  obtain ⟨old, hold, rfl⟩ := mem_map.mp hx
  split
  · exact .inl rfl
  · exact .inr ⟨hold, ‹_›⟩

theorem mem_put_self (hx : x ∈ rows) (hkey : e.key = x.key) :
    e ∈ put rows e :=
  mem_map.mpr ⟨x, hx, if_pos hkey.symm⟩

theorem mem_put_of_ne (hx : x ∈ rows) (hkey : x.key ≠ e.key) :
    x ∈ put rows e :=
  mem_map.mpr ⟨x, hx, if_neg hkey⟩

theorem put_keys (rows : Rows) (e : WorkerRunEvidence) :
    (put rows e).map (·.key) = rows.map (·.key) :=
  map_replace (fun _ => e) (fun _ hold => hold.symm) rows

/-- **A row written back.** The row grew from one of the rows, and holds what is new in `vs`. -/
theorem Collected.put {new : List Verification} (h : Collected events d stop vs rows)
    (he : e ∈ rows) (hkey : e'.key = e.key) (ht : Tallies events d e')
    (horder : e'.coverage.verifications.Sublist (vs ++ new))
    (hold : ∀ v ∈ e.coverage.verifications, v ∈ e'.coverage.verifications)
    (hnew : ∀ v ∈ new, v.isKeyed → e.key = v.key ∧ v ∈ e'.coverage.verifications) :
    Collected events d stop (vs ++ new) (put rows e') := by
  refine ⟨?_, ?_, ?_, ?_⟩
  · rw [put_keys]
    exact h.keys
  · grind [mem_put, Collected.tallies]
  · intro x hx
    rcases mem_put hx with rfl | ⟨hx, -⟩
    · exact horder
    · exact (h.order x hx).trans (sublist_append_left vs new)
  · intro v hv hread hkeyed
    rcases mem_append.mp hv with hv | hv
    · obtain ⟨x, hx, hxkey, hxv⟩ := h.complete v hv hread hkeyed
      grind [Collected.eq_of_key, mem_put_self, mem_put_of_ne]
    · obtain ⟨hekey, hev⟩ := hnew v hv hkeyed
      exact ⟨e', mem_put_self he hkey, hkey.trans hekey, hev⟩

/-- A row may be replaced by what an observation made of it. -/
theorem Collected.put_adds (h : Collected events d stop vs rows) (he : e ∈ rows)
    (ha : Adds events e e') : Collected events d stop vs (Reliability.put rows e') := by
  rw [← append_nil vs]
  refine h.put he ha.key ((h.tallies e he).adds ha) ?_ ?_ (by simp)
  · rw [ha.coverage, append_nil]
    exact h.order e he
  · rw [ha.coverage]
    exact fun _ hv => hv

/-- The row of a key is found, or added empty. -/
theorem Collected.ensureKey (h : Collected events d stop vs rows) (id profile region : Text) :
    Collected events d stop vs (ensureKey rows id profile region).1 ∧
      (ensureKey rows id profile region).2 ∈ (ensureKey rows id profile region).1 ∧
      (ensureKey rows id profile region).2.key = (id, profile, region) := by
  unfold Reliability.ensureKey
  split
  · grind
  · next hfind =>
    have hnone : ∀ x ∈ rows, x.key ≠ (id, profile, region) := by simpa using hfind
    refine ⟨⟨?_, ?_, ?_, ?_⟩, by simp, rfl⟩
    · exact nodup_map_concat h.keys hnone
    · intro x hx
      rcases mem_append.mp hx with hx | hx
      · exact h.tallies x hx
      · rw [mem_singleton.mp hx]
        exact .fresh id profile region
    · intro x hx
      rcases mem_append.mp hx with hx | hx
      · exact h.order x hx
      · rw [mem_singleton.mp hx]
        exact nil_sublist vs
    · grind [Collected.complete]

theorem Collected.ensure (h : Collected events d stop vs rows) (id profile region : Text) :
    Collected events d stop vs (ensure rows id profile region).1 ∧
      (ensure rows id profile region).2 ∈ (ensure rows id profile region).1 ∧
      (¬(profile = [] ∧ region = []) →
        (ensure rows id profile region).2.key = (id, profile, region)) := by
  -- a row of the worker is there, or one is made under its key
  grind [Collected.ensureKey, ensure, mem_singleton_self]

/-! ## §6 — the passes -/

variable {s' : Rows × RuntimeMaps}

/-- A verification that is not read changes no row. -/
theorem Collected.skip (h : Collected events d stop vs rows)
    (hv : v.isRead d stop = false) : Collected events d stop (vs ++ [v]) rows where
  keys := h.keys
  tallies := h.tallies
  order e he := (h.order e he).trans (sublist_append_left vs [v])
  complete w hw hread hkeyed := by
    rcases mem_append.mp hw with hw | hw
    · exact h.complete w hw hread hkeyed
    · rw [mem_singleton.mp hw, hv] at hread
      cases hread

/-- One verification of the first pass. -/
theorem verificationPass_collected (signature : Verification → Text) (v : Verification)
    (h : Collected events d stop vs rows) :
    Collected events d stop (vs ++ [v]) (verificationPass signature d stop rows v) := by
  unfold verificationPass
  split
  · next hother => exact h.skip (by simp [Verification.isRead, hother])
  split
  · next houtside => exact h.skip (by simp [Verification.isRead, houtside])
  split
  · next hmetering => exact h.skip (by simp [Verification.isRead, hmetering])
  obtain ⟨hrows, hmem, hkey⟩ := h.ensure v.workerID v.run.profileName v.run.region
  obtain ⟨hgrows, htallies, hverifications⟩ :=
    readVerification_tallies signature v (hrows.tallies _ hmem)
  show Collected events d stop (vs ++ [v])
    (put (ensure rows v.workerID v.run.profileName v.run.region).1
      (readVerification signature d (ensure rows v.workerID v.run.profileName v.run.region).2 v))
  refine hrows.put hmem hgrows.key htallies ?_ ?_ ?_
  · rw [hverifications]
    exact (hrows.order _ hmem).append (List.Sublist.refl [v])
  · intro w hw
    rw [hverifications]
    exact mem_append_left _ hw
  · grind [Verification.isKeyed, Verification.key]

theorem verifications_collected (signature : Verification → Text) (new : List Verification)
    (h : Collected events d stop vs rows) :
    Collected events d stop (vs ++ new) (new.foldl (verificationPass signature d stop) rows) := by
  induction new generalizing vs rows with
  | nil =>
    rw [append_nil]
    exact h
  | cons v new ih =>
    rw [foldl_cons, append_cons]
    exact ih (verificationPass_collected signature v h)

theorem matchesDeployment_attributed {run : RunIdentity} {workerID : Text}
    (h : matchesDeployment attributed run workerID d = true) : attributed = true := by
  simp only [matchesDeployment, Bool.and_eq_true] at h
  tauto

theorem observeRuntime_collected {m : RuntimeMaps}
    (h : Collected events d stop vs rows) (hread : observeRuntime d rows m r = some s') :
    Collected events d stop vs s'.1 := by
  obtain ⟨hrows, hmem, -⟩ := h.ensure r.run.workerID r.run.profileName r.run.region
  unfold observeRuntime at hread
  dsimp only at hread
  split at hread
  · next hmatches =>
    have hattributed : r.attributed = true := matchesDeployment_attributed hmatches
    obtain ⟨payload, -, hread⟩ := Option.bind_eq_some_iff.mp hread
    obtain ⟨counters, -, hread⟩ := Option.bind_eq_some_iff.mp hread
    cases hread
    exact hrows.put_adds hmem (readRuntime_adds _ hattributed payload counters m)
  · cases hread
    exact hrows.put_adds hmem (readUnattributed_adds _ r)

/-- One row of the second pass. -/
theorem runtimePass_collected {s : Rows × RuntimeMaps}
    (h : Collected events d stop vs s.1) (hpass : runtimePass d stop s r = some s') :
    Collected events d stop vs s'.1 := by
  unfold runtimePass at hpass
  split at hpass
  · cases hpass
    exact h
  split at hpass
  · cases hpass
    exact h
  split at hpass
  · cases hpass
  dsimp only at hpass
  split at hpass
  · split at hpass
    · cases hpass
      exact h
    · exact observeRuntime_collected h hpass
  · exact observeRuntime_collected h hpass

theorem runtime_collected {rs : List RuntimeEvidence} {s : Rows × RuntimeMaps}
    (h : Collected events d stop vs s.1) (hpass : rs.foldlM (runtimePass d stop) s = some s') :
    Collected events d stop vs s'.1 := by
  induction rs generalizing s with
  | nil =>
    cases hpass
    exact h
  | cons r rs ih =>
    rw [foldlM_cons] at hpass
    obtain ⟨next, hnext, hrest⟩ := Option.bind_eq_some_iff.mp hpass
    exact ih (runtimePass_collected h hnext) hrest

/-- One event of the third pass. -/
theorem eventPass_collected {seen : List (Text × Text × Text)} {event : Event}
    (hevent : event ∈ events) (h : Collected events d stop vs rows) :
    Collected events d stop vs (eventPass d stop (rows, seen) event).1 := by
  obtain ⟨hrows, hmem, -⟩ := h.ensure event.workerID event.run.profileName event.run.region
  unfold eventPass
  dsimp only
  split
  · exact h
  split
  · exact h
  split
  · exact h
  split
  · exact h
  split
  · exact h
  split
  · exact h
  exact hrows.put_adds hmem (readEvent_adds _ hevent _)

theorem events_collected {new : List Event} {s : Rows × List (Text × Text × Text)}
    (hnew : ∀ event ∈ new, event ∈ events) (h : Collected events d stop vs s.1) :
    Collected events d stop vs (new.foldl (eventPass d stop) s).1 := by
  induction new generalizing s with
  | nil => exact h
  | cons event new ih => grind [eventPass_collected]

theorem workerRows_collected (j : Journal) (d : Deployment) :
    Collected events d stop [] (workerRows j d) := by
  have hstart : Collected events d stop [] [] := ⟨.nil, fun _ h => absurd h not_mem_nil,
    fun _ h => absurd h not_mem_nil, fun _ h => absurd h not_mem_nil⟩
  refine foldlRecOn (motive := fun rows => Collected events d stop [] rows) _ _ hstart ?_
  intro rows hrows w _
  exact (hrows.ensure w.id w.profileName w.region).1

/-- **The whole collection.** After the three passes the rows hold the verifications of the journal,
in reading order, each row with its tallies. -/
theorem collectEvidence_collected {signature : Verification → Text} {j : Journal}
    (h : collectEvidence signature j d stop = some rows) :
    Collected j.events d stop (listEvidenceVerifications j d stop) rows := by
  unfold collectEvidence at h
  obtain ⟨⟨runtimeRows, m⟩, hruntime, hevents⟩ := Option.bind_eq_some_iff.mp h
  cases hevents
  have hworkers : Collected j.events d stop [] (workerRows j d) := workerRows_collected j d
  have hverifications := verifications_collected signature (listEvidenceVerifications j d stop)
    hworkers
  rw [nil_append] at hverifications
  refine events_collected ?_ (runtime_collected hverifications hruntime)
  intro event hevent
  rw [listEvidenceEvents, mem_insertionSort] at hevent
  exact (mem_filter.mp hevent).1

/-! ## §7 — eligibility -/

def WorkerRunEvidence.attributedVerifications (e : WorkerRunEvidence) (d : Deployment) :
    List Verification :=
  e.coverage.verifications.filter fun v => v.matchesDeployment d && !v.reportedPending

/-- **A clean soak** of a deployment, on one row, up to `finish`. -/
structure CleanSoak (j : Journal) (d : Deployment) (stop : Option Int) (finish : Int)
    (e : WorkerRunEvidence) : Prop where
  twoOrMore : 2 ≤ (e.attributedVerifications d).length
  passed : ∀ v ∈ e.attributedVerifications d, v.completedAt.isSome = true ∧ v.passed = true ∧
    v.succeeded = true
  first : ∃ v ∈ (e.attributedVerifications d).head?, v.time - d.startedAt ≤ hour
  consecutive : (e.attributedVerifications d).IsChain fun v w => w.time - v.time ≤ hour
  last : ∃ v ∈ (e.attributedVerifications d).getLast?, finish - v.time ≤ hour
  span : ∃ v ∈ (e.attributedVerifications d).head?, ∃ w ∈ (e.attributedVerifications d).getLast?,
    24 * hour ≤ w.time - v.time
  allAttributed : e.unattributedObservations = 0 ∧
    (∀ v ∈ e.coverage.verifications, v.matchesDeployment d = true) ∧
    ∀ i ∈ e.incidents, i.attributed = true
  finished : ∀ v ∈ e.coverage.verifications, v.reportedPending = false → v.unfinished = false
  incidents : ∀ i ∈ e.incidents, i.classification ≠ .expectedInjection ∧
    (i.classification = .unexpected →
      ∃ event ∈ j.events, event.countedElsewhere = true ∧ i.origin = .event event.id)
  /-- the row holds verifications of the journal, in reading order -/
  listed : e.coverage.verifications.Sublist (listEvidenceVerifications j d stop)
  complete : ∀ v ∈ listEvidenceVerifications j d stop, v.isRead d stop = true → v.isKeyed →
    v.key = e.key → v ∈ e.coverage.verifications

theorem reasonIf_eq_nil {failed : Bool} {reason : Reason} :
    reasonIf failed reason = [] ↔ failed = false := by
  cases failed <;> simp [reasonIf]

/-- What the verdict has checked. -/
theorem of_evaluateRunEligibility {start finish maxGap minimumSpan : Int}
    (h : evaluateRunEligibility e start finish maxGap minimumSpan = []) :
    e.unattributedObservations = 0 ∧ e.incompleteObservations = 0 ∧ e.unexpectedFailures = 0 ∧
      e.expectedInjections = 0 ∧ 2 ≤ e.coverage.verificationCount ∧
      minimumSpan ≤ e.coverage.verifiedSpan ∧
      e.coverage.gap start finish maxGap = false := by
  grind [evaluateRunEligibility, coverageReasons, append_eq_nil_iff, reasonIf_eq_nil]

/-- No gap: the start, the end and all that is between. -/
theorem of_gap {c : Coverage} {start finish maxGap : Int}
    (h : c.gap start finish maxGap = false) :
    ∃ first ∈ c.firstVerification, ∃ last ∈ c.lastVerification, first - start ≤ maxGap ∧
      c.maxVerificationGap ≤ maxGap ∧ finish - last ≤ maxGap := by
  grind [Coverage.gap]

/-- In a row without unfinished checks, the attributed ones are the measured ones. -/
theorem attributedVerifications_eq
    (h : ∀ v ∈ e.coverage.verifications, v.reportedPending = false → v.unfinished = false) :
    e.attributedVerifications d = e.coverage.measured d := by
  refine filter_congr fun v hv => ?_
  grind [Verification.measured]

theorem succeeded_passed (h : v.succeeded = true) : v.passed = true := by
  simp only [Verification.succeeded, Bool.and_eq_true] at h
  exact h.1.2

/-- **Eligibility is sound.** An eligible row stands for a clean soak of the deployment, up to the
end of the run or the present. -/
theorem eligible_clean {signature : Verification → Text} {j : Journal} {now : Int}
    {verdicts : List Verdict} {r : Verdict}
    (hbuild : buildRunReliability signature j d stop now = some verdicts) (hr : r ∈ verdicts)
    (heligible : r.eligible = true) : CleanSoak j d stop (stop.getD now) r.evidence := by
  obtain ⟨rows, hcollect, rfl⟩ := Option.map_eq_some_iff.mp hbuild
  rw [mem_insertionSort] at hr
  obtain ⟨e, he, rfl⟩ := mem_map.mp hr
  have hrows := collectEvidence_collected hcollect
  have ht := hrows.tallies e he
  obtain ⟨hunattributed, hincomplete, hunexpected, hinjections, hcount, hspan, hgap⟩ :=
    of_evaluateRunEligibility (List.isEmpty_iff.mp heligible)
  obtain ⟨first, hfirst, last, hlast, hstart, hmax, hfinish⟩ := of_gap hgap
  have hfinished : ∀ v ∈ e.coverage.verifications, v.reportedPending = false →
      v.unfinished = false := by
    intro v hv hno
    by_contra hun
    have := ht.finished v hv hno (by simpa using hun)
    omega
  have hmeasured : e.attributedVerifications d = e.coverage.measured d :=
    attributedVerifications_eq hfinished
  obtain ⟨v, hv, hvfirst⟩ := Option.map_eq_some_iff.mp (ht.first.symm.trans hfirst)
  obtain ⟨w, hw, hwlast⟩ := Option.map_eq_some_iff.mp (ht.last.symm.trans hlast)
  have hattributed : ∀ i ∈ e.incidents, i.attributed = true := by
    intro i hi
    by_contra hno
    have := (ht.incidents i hi).attributed (by simpa using hno)
    omega
  refine ⟨?_, ?_, ?_, ?_, ?_, ?_, ⟨hunattributed, ?_, hattributed⟩, hfinished, ?_, ?_, ?_⟩
  · show 2 ≤ (e.attributedVerifications d).length
    rw [hmeasured, ← ht.count]
    exact hcount
  · intro x hx
    have hx : x ∈ e.coverage.measured d := hmeasured ▸ hx
    have hsucceeded : x.succeeded = true := by
      by_contra hno
      have := ht.succeeded x hx (by simpa using hno)
      omega
    have hdone : x.unfinished = false := by
      have := (mem_filter.mp hx).2
      simp only [Verification.measured, Bool.and_eq_true, Bool.not_eq_true'] at this
      exact this.2
    simp only [Verification.unfinished, Bool.or_eq_false_iff, Option.isNone_eq_false_iff] at hdone
    exact ⟨hdone.2, succeeded_passed hsucceeded, hsucceeded⟩
  · exact ⟨v, hmeasured ▸ hv, hvfirst ▸ hstart⟩
  · show List.IsChain _ (e.attributedVerifications d)
    rw [hmeasured]
    exact ht.gaps.imp fun a b hab => hab.trans hmax
  · exact ⟨w, hmeasured ▸ hw, hwlast ▸ hfinish⟩
  · refine ⟨v, hmeasured ▸ hv, w, hmeasured ▸ hw, ?_⟩
    rw [hvfirst, hwlast]
    unfold Coverage.verifiedSpan at hspan
    rw [Option.mem_def.mp hfirst, Option.mem_def.mp hlast] at hspan
    exact hspan
  · intro x hx
    by_contra hno
    have := ht.attributed x hx (by simpa using hno)
    omega
  · intro i hi
    have haccounted := ht.incidents i hi
    refine ⟨fun hclass => ?_, fun hclass => ?_⟩
    · have := haccounted.injection (hattributed i hi) hclass
      omega
    · rcases haccounted.unexpected (hattributed i hi) hclass with hpos | hevent
      · omega
      · exact hevent
  · exact hrows.order e he
  · intro x hx hread hkeyed hkey
    obtain ⟨e', he', hkey', hmem⟩ := hrows.complete x hx hread hkeyed
    rw [hrows.eq_of_key he he' (hkey'.trans hkey)] at hmem
    exact hmem

end Rows

/-! ## §8 — a soak of 25 hours -/

def soakDeployment : Deployment where
  id := 1
  source := text "main"
  gitSHA := text "g"
  litestreamSHA := text "l"
  workloadSHA := text "w"
  startedAt := 0

def soakRun : RunIdentity where
  deploymentID := 1
  workerID := text "worker"
  machineID := text "m"
  runID := text "r"
  gitSHA := text "g"
  litestreamSHA := text "l"
  workloadSHA := text "w"
  source := text "main"
  profileName := text "default"
  profileHash := text "h"
  validatorID := text "v"

def soakVerification (id : Nat) (time : Int) (status : Text) (passed : Bool) : Verification where
  id := id
  evidenceSource := text "main"
  workerID := text "worker"
  startedAt := time
  completedAt := some time
  status := status
  passed := passed
  run := soakRun
  attributed := true
  historyComplete := true
  runtime := {}

def soakHeartbeat : RuntimeEvidence where
  id := 1
  source := text "main"
  kind := text "heartbeat"
  run := soakRun
  attributed := true
  receivedAt := 25 * hour
  identity := some ([], [])
  payload := some
    { profiling := { capability := text "disabled" }
      snapshotHealthy := true
      snapshotCollectedAt := some (25 * hour)
      maintenance :=
        { epoch := text "e", startedAt := some 0, complete := true
          snapshots := 1, compactions := 1, retentions := 1 } }
  counters := some { epoch := text "e", present := true, attempts := 1, mutations := 1 }

def soakError : Event where
  id := 1
  evidenceSource := text "main"
  workerID := text "worker"
  eventType := text "workload_error"
  createdAt := 2 * hour
  run := soakRun
  attributed := true
  workloadEventID := []
  incidentEventID := []
  maintenance := {}
  counters := { epoch := text "e", present := true, attempts := 1, mutations := 1 }

def soakJournal : Journal where
  workers := []
  verifications := soakVerification 100 (3 * hour - 1) (text "pending") false ::
    (range 25).map fun k => soakVerification k ((k + 1) * hour) (text "passed") true
  runtime := [soakHeartbeat]
  events := [soakError]

/-- A day of hourly passes, a pending check, and an error left to the runtime counters. -/
theorem eligible_clean_soak :
    ∃ verdicts ∈ buildRunReliability (fun _ => []) soakJournal soakDeployment (some (25 * hour)) 0,
      ∃ r ∈ verdicts, r.eligible = true ∧
        CleanSoak soakJournal soakDeployment (some (25 * hour)) (25 * hour) r.evidence := by
  have hrun : ∃ verdicts ∈ buildRunReliability (fun _ => []) soakJournal soakDeployment
      (some (25 * hour)) 0, ∃ r ∈ verdicts, r.eligible = true := by
    decide +kernel
  obtain ⟨verdicts, hbuild, r, hr, heligible⟩ := hrun
  exact ⟨verdicts, hbuild, r, hr, heligible, eligible_clean hbuild hr heligible⟩

/-- An eligible row with an attributed verification that did not pass and an attributed incident
that is unexpected. -/
theorem eligible_with_pending_and_error :
    ∃ verdicts ∈ buildRunReliability (fun _ => []) soakJournal soakDeployment (some (25 * hour)) 0,
      ∃ r ∈ verdicts, r.eligible = true ∧
        (∃ v ∈ r.evidence.coverage.verifications,
          v.matchesDeployment soakDeployment = true ∧ v.passed = false) ∧
        ∃ i ∈ r.evidence.incidents, i.attributed = true ∧ i.classification = .unexpected := by
  decide +kernel

end LitestreamSoak.Orchestrator.Reliability
