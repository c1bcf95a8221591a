import LitestreamSoak.Orchestrator.Reports
import LitestreamSoak.Lib.Unwinding

/-!
# Orchestrator — what quarantined reports have an influence on

Two histories of reports that differ only by quarantined ones are to leave the same worker row and
to lead to the same decisions (`SameDecisions`). For quarantined heartbeats that holds. A
quarantined verification is recorded among the worker's verifications, and the streak of
environmental failures and the run of failures behind a dormancy are counted over all of these.

* **§2** — the decisions read only what `visible` lets through, and a handler keeps two states that
  agree on that in agreement: an `Unwinding`.
* **§3**, **§4** — conversely, each quarantined verification that is recorded and visible changes a
  decision in some state: it breaks, extends or pushes out a streak of environmental failures, or
  shifts a run of failures.
-/

namespace LitestreamSoak.Orchestrator.Quarantine

open Lib Lib.Utf8 Reporting List Option
open Store.Workers Store.Verifications
open Orchestrator.VerificationReport Orchestrator.Reports

/-! ## §1 — the property and its condition -/

section Statements

variable (settings : Settings) (expected : Store.Workers.WorkerIdentity)

/-- The worker row, the dormancy decision at any time, and the environmental decision on any
further report that matches the expected run. -/
def SameDecisions (s t : Reports.State) : Prop :=
  s.worker = t.worker ∧
    (∀ now, dormancyDecision settings now s = dormancyDecision settings now t) ∧
    ∀ now p, matchesRun settings.toCodec expected p.identity = true →
      environmentalDecision settings now p s = environmentalDecision settings now p t

/-- A quarantined report of the kind. -/
def Hidden (kind : Received → Prop) (r : Received) : Prop :=
  quarantined settings.toCodec expected r.report.identity = true ∧ kind r

/-- From any stored state, histories that differ by quarantined reports of a class lead to the same
decisions. -/
def Inert (kind : Received → Prop) : Prop :=
  ∀ s h₁ h₂, DiffersBy (Hidden settings expected kind) h₁ h₂ →
    SameDecisions settings expected (h₁.foldl (handle settings expected) s)
      (h₂.foldl (handle settings expected) s)

/-- The verification will not be read: no bucket is configured, so no failure is environmental, and
the dormancy listing leaves it out, or cannot be long enough for the policy. -/
def Unread (p : VerificationPayload) : Prop :=
  trimSpace settings.environmental.bucket = [] ∧
    (settings.storedInWindow p.identity.profileConfig = true ∨
      256 < settings.dormancy.normalizedMinFailures)

/-- The report leaves nothing that a decision reads. -/
def Harmless (r : Received) : Prop :=
  match r.report with
  | .verification p => received r.now p = none ∨ Unread settings p
  | _ => True

/-- A report can match the expected run. -/
def Complete : Prop :=
  expected.runID ≠ [] ∧ expected.workloadID ≠ [] ∧ expected.profileConfig ≠ [] ∧
    expected.machineID ≠ []

end Statements

/-! ## §2 — harmless reports -/

section Unwinding

variable {settings : Settings} {expected : Store.Workers.WorkerIdentity} {s t : Reports.State}

/-- A decision may read the row. -/
def visible (settings : Settings) (v : Verification) : Bool :=
  trimSpace settings.environmental.bucket ≠ [] ||
    (!settings.storedInWindow v.run.profileConfig &&
      settings.dormancy.normalizedMinFailures ≤ 256)

/-- The states agree on the worker and on the rows that are read. -/
def Sim (settings : Settings) (s t : Reports.State) : Prop :=
  s.worker = t.worker ∧
    s.verifications.filter (visible settings) = t.verifications.filter (visible settings)

theorem isTransientObjectStoreFailure_of_blank {policy : EnvironmentalFailurePolicy}
    (h : trimSpace policy.bucket = []) (c : FailureClassification) :
    isTransientObjectStoreFailure policy c = false := by
  cases hstore : c.objectStore <;> simp [isTransientObjectStoreFailure, hstore, h]

theorem environmental_of_blank {policy : EnvironmentalFailurePolicy}
    (h : trimSpace policy.bucket = []) (verifications : List Verification)
    (p : VerificationPayload) : environmental policy verifications p = some false := by
  unfold environmental
  split
  · rw [environmentalWithoutEscalation, isTransientObjectStoreFailure_of_blank h]
    rfl
  · rfl

theorem filter_visible_of_bucket (h : trimSpace settings.environmental.bucket ≠ [])
    (verifications : List Verification) :
    verifications.filter (visible settings) = verifications :=
  filter_eq_self.mpr fun v _ => by simp [visible, h]

theorem Sim.environmental (h : Sim settings s t) (p : VerificationPayload) :
    environmental settings.environmental s.verifications p =
      environmental settings.environmental t.verifications p := by
  by_cases hbucket : trimSpace settings.environmental.bucket = []
  · rw [environmental_of_blank hbucket, environmental_of_blank hbucket]
  · have heq := h.2
    rw [filter_visible_of_bucket hbucket, filter_visible_of_bucket hbucket] at heq
    rw [heq]

theorem sameFailures_spec {signature : Bytes} {verifications : List Verification} {count : Nat}
    {oldest : Int} {found : Nat × Int}
    (h : sameFailures signature count oldest verifications = some found) :
    found = (count, oldest) ∨
      ∃ n v, found = (count + n + 1, v.observedAt) ∧ verifications[n]? = some v := by
  induction verifications generalizing count oldest with
  | nil => exact Or.inl (some.inj h).symm
  | cons v rest ih =>
    rw [sameFailures] at h
    split at h
    · exact Or.inl (some.inj h).symm
    · obtain ⟨c, -, h⟩ := bind_eq_some_iff.mp h
      split at h
      · exact Or.inl (some.inj h).symm
      · -- the row is counted, and the rest of the run follows it
        rcases ih h with hstop | ⟨n, w, hfound, hw⟩
        · exact Or.inr ⟨0, v, hstop, rfl⟩
        · exact Or.inr ⟨n + 1, w, by rw [hfound]; congr 1; omega, hw⟩

theorem one_le_normalizedMinFailures (policy : DormancyPolicy) :
    1 ≤ policy.normalizedMinFailures := by
  unfold DormancyPolicy.normalizedMinFailures
  split <;> omega

/-- **A candidate's count** is met by the listing, and its time is that of the row it ends at. -/
theorem detectDormancyCandidate_spec {policy : DormancyPolicy} {now : Int}
    {verifications : List Verification} {c : DormancyCandidate}
    (h : (detectDormancyCandidate policy now verifications).join = some c) :
    policy.normalizedMinFailures ≤ c.count ∧
      ∃ n v, c.count = n + 1 ∧ verifications[n]? = some v ∧ c.since = v.observedAt := by
  have h := join_eq_some_iff.mp h
  cases verifications with
  | nil => cases h
  | cons latest rest =>
    rw [detectDormancyCandidate] at h
    split at h
    · cases h
    · obtain ⟨d, -, h⟩ := bind_eq_some_iff.mp h
      obtain ⟨⟨count, oldest⟩, hfound, h⟩ := map_eq_some_iff.mp h
      dsimp only at h
      generalize (if d.signature = [] then encode (text "unknown_failure") else d.signature) =
        signature at h hfound
      split_ifs at h with hfew hearly
      simp only [Bool.or_eq_true, decide_eq_true_eq, not_or, not_lt] at hfew
      obtain rfl := some.inj h
      refine ⟨hfew.1, ?_⟩
      rcases sameFailures_spec hfound with hnone | ⟨n, v, heq, hv⟩
      · have hcount : count = 0 := congrArg Prod.fst hnone
        have hmin := one_le_normalizedMinFailures policy
        omega
      · have hcount : count = 0 + n + 1 := congrArg Prod.fst heq
        rw [Nat.zero_add] at hcount
        exact ⟨n, v, hcount, hv, congrArg Prod.snd heq⟩

theorem length_dormancyHistory_le (codec : Codec) (w : Store.Workers.Worker)
    (verifications : List Verification) :
    (dormancyHistory codec w verifications).length ≤ 256 := by
  have hlisted : ∀ rows, (listVerifications rows 256).length ≤ 256 := fun rows => by
    rw [listVerifications, length_take]
    exact min_le_left ..
  have hsince : ∀ rows : List Verification, rows.length ≤ 256 → ∀ cutoff,
      (verificationsSince rows cutoff).length ≤ 256 := by
    intro rows hrows cutoff
    unfold verificationsSince
    split
    · exact hrows
    · exact (length_filter_le ..).trans hrows
  exact (length_filter_le ..).trans (hsince _ (hlisted _) _)

theorem dormancyDecision_of_large (h : 256 < settings.dormancy.normalizedMinFailures) (now : Int)
    (s : Reports.State) : dormancyDecision settings now s = none := by
  by_contra hne
  obtain ⟨c, hc⟩ := ne_none_iff_exists'.mp hne
  obtain ⟨w, -, hc⟩ := bind_eq_some_iff.mp hc
  split at hc
  · obtain ⟨hmin, n, v, hcount, hv, -⟩ := detectDormancyCandidate_spec hc
    grind [length_dormancyHistory_le]
  · cases hc

theorem Sim.dormancyDecision (h : Sim settings s t) (now : Int) :
    dormancyDecision settings now s = dormancyDecision settings now t := by
  rcases Nat.lt_or_ge 256 settings.dormancy.normalizedMinFailures with hlarge | hsmall
  · rw [dormancyDecision_of_large hlarge, dormancyDecision_of_large hlarge]
  · -- the filter of the listing only lets visible rows through
    have hlets : (fun v : Verification =>
        !settings.storedInWindow v.run.profileConfig && visible settings v) =
        fun v => !settings.storedInWindow v.run.profileConfig := by
      funext v
      cases hwindow : settings.storedInWindow v.run.profileConfig with
      | true => rfl
      | false => simp [visible, hwindow, hsmall]
    have hfilter : s.verifications.filter (fun v => !settings.storedInWindow v.run.profileConfig) =
        t.verifications.filter fun v => !settings.storedInWindow v.run.profileConfig := by
      rw [← hlets, ← List.filter_filter, ← List.filter_filter, h.2]
    unfold Reports.dormancyDecision dormancyHistory
    rw [h.1, hfilter]

/-- **Related states** lead to the same decisions. -/
theorem Sim.sameDecisions (h : Sim settings s t) : SameDecisions settings expected s t := by
  refine ⟨h.1, h.dormancyDecision, fun now p _ => ?_⟩
  unfold environmentalDecision
  congr 1
  funext q
  exact h.environmental q

theorem received_spec {now : Int} {p q : VerificationPayload} (h : received now p = some q) :
    q.identity = p.identity ∧ q.startedAt = p.startedAt := by
  obtain ⟨i, hi, rfl⟩ := map_eq_some_iff.mp h
  obtain ⟨normalized, hnormal, hi⟩ := bind_eq_some_iff.mp hi
  have hsame : normalized = p ∨ ∃ c, normalized = p.inconclusive c := by
    unfold normalizeInconclusiveRestoreFailure at hnormal
    split_ifs at hnormal
    · exact Or.inl (some.inj hnormal).symm
    · exact Or.inr ⟨_, (some.inj hnormal).symm⟩
    · obtain ⟨locked, -, hnormal⟩ := bind_eq_some_iff.mp hnormal
      split_ifs at hnormal
      · exact Or.inr ⟨_, (some.inj hnormal).symm⟩
      · obtain ⟨unavailable, -, hnormal⟩ := bind_eq_some_iff.mp hnormal
        split_ifs at hnormal
        · exact Or.inr ⟨_, (some.inj hnormal).symm⟩
        · obtain ⟨canceled, -, rfl⟩ := map_eq_some_iff.mp hnormal
          split
          · exact Or.inr ⟨_, rfl⟩
          · exact Or.inl rfl
  have hkept : normalized.identity = p.identity ∧ normalized.startedAt = p.startedAt := by
    rcases hsame with rfl | ⟨c, rfl⟩
    · exact ⟨rfl, rfl⟩
    · exact ⟨rfl, rfl⟩
  split at hi
  · obtain ⟨computed, -, rfl⟩ := map_eq_some_iff.mp hi
    exact hkept
  · obtain rfl := some.inj hi
    exact hkept

/-- **A harmless quarantined report** does not leave the relation. -/
theorem sim_handle_of_harmless {r : Received}
    (hquarantined : quarantined settings.toCodec expected r.report.identity = true)
    (hharmless : Harmless settings r) (h : Sim settings s t) :
    Sim settings (handle settings expected s r) t := by
  obtain ⟨now, report⟩ := r
  cases report with
  | heartbeat p =>
    have hkeep : handle settings expected s ⟨now, .heartbeat p⟩ = s := if_pos hquarantined
    rw [hkeep]
    exact h
  | event p =>
    have hkeep : handle settings expected s ⟨now, .event p⟩ = s := by
      show handleWorkerEvent settings expected _ p s = s
      rw [handleWorkerEvent]
      split
      · rfl
      · exact if_pos hquarantined
    rw [hkeep]
    exact h
  | verification p =>
    show Sim settings (handleVerification settings expected _ p s) t
    unfold handleVerification
    split
    · exact h
    · next q hq =>
      split
      · exact h
      · next env henv =>
        have hspec := received_spec hq
        have hunread : Unread settings p := hharmless.resolve_left (by rw [hq]; nofun)
        have hhidden : visible settings (verificationRow settings expected q) = false := by
          have hconfig : (verificationRow settings expected q).run.profileConfig =
              p.identity.profileConfig := by
            rw [← hspec.1]
            rfl
          rw [visible, hconfig, hunread.1]
          rcases hunread.2 with hwindow | hlarge
          · simp [hwindow]
          · simp [hlarge]
        constructor
        · rw [← h.1, recordVerification, hspec.1]
          exact if_pos hquarantined
        · rw [← h.2, recordVerification, filter_append]
          simp [hhidden]

/-- **Any report** taken in related states leads to related states. -/
theorem sim_handle_handle (r : Received) (h : Sim settings s t) :
    Sim settings (handle settings expected s r) (handle settings expected t r) := by
  obtain ⟨now, report⟩ := r
  cases report with
  -- a heartbeat reads and writes the worker row only
  | heartbeat p => grind [handleHeartbeat, Sim, handle]
  | event p =>
    show Sim settings (handleWorkerEvent settings expected _ p s)
      (handleWorkerEvent settings expected _ p t)
    unfold handleWorkerEvent
    split_ifs
    · exact h
    · exact h
    all_goals rw [h.1]; exact ⟨rfl, h.2⟩
  | verification p =>
    show Sim settings (handleVerification settings expected _ p s)
      (handleVerification settings expected _ p t)
    unfold handleVerification
    split
    · exact h
    · next q _ =>
      rw [h.environmental q]
      grind [recordVerification, Sim]

theorem unwinding {kind : Received → Prop}
    (hclass : ∀ r, Hidden settings expected kind r → Harmless settings r) :
    Unwinding (handle settings expected) (Hidden settings expected kind) (Sim settings) where
  symm h := ⟨h.1.symm, h.2.symm⟩
  hide hr h := sim_handle_of_harmless hr.1 (hclass _ hr) h
  keep r h := sim_handle_handle r h

end Unwinding

/-! ## §3 — a recorded verification and the streak of environmental failures -/

section Recorded

variable {settings : Settings} {expected : Store.Workers.WorkerIdentity}
  {policy : EnvironmentalFailurePolicy} {v : Verification} {t : Int} {p q : VerificationPayload}
  {now : Int} {kind : Received → Prop}

/-- A failure that the provider is to blame for, whatever the configured bucket is. -/
def slowdown : FailureClassification :=
  { stage := stageRestore, signature := encode (text "restore_s3_slowdown")
    objectStore := some { httpStatus := 503 } }

/-- A failure of the object store. -/
def transientRow (startedAt : Int) : Verification :=
  { startedAt := startedAt, status := text "failed", classification := some slowdown }

def abortedRow (startedAt : Int) : Verification :=
  { startedAt := startedAt, status := text "aborted" }

theorem isTransient_slowdown
    (h : trimSpace policy.bucket ≠ []) : isTransientObjectStoreFailure policy slowdown = true := by
  have hblank : trimSpace [] = [] := rfl
  simp [isTransientObjectStoreFailure, slowdown, h, hblank]

theorem classifyVerification_transientRow (t : Int) :
    classifyVerification (transientRow t) = some slowdown := by
  have hread : (transientRow t).failureClassification = some slowdown := by
    show Store.FailureClassifications.readBack slowdown = some slowdown
    decide +kernel
  have hvalid : slowdown.valid = true := rfl
  rw [classifyVerification, hread]
  exact if_pos hvalid

theorem inconclusive_transientRow (t : Int) : (transientRow t).inconclusive = false := by
  show (equalFold (trimSpace (text "failed")) (text "aborted") ||
    equalFold (trimSpace (text "failed")) (text "pending")) = false
  decide

theorem failed_transientRow (t : Int) : (transientRow t).failed = true := by
  rw [Verification.failed, inconclusive_transientRow]
  rfl

theorem inconclusive_abortedRow (t : Int) : (abortedRow t).inconclusive = true := by
  show (equalFold (trimSpace (text "aborted")) (text "aborted") || _) = true
  have h : equalFold (trimSpace (text "aborted")) (text "aborted") = true := by decide
  rw [h, Bool.true_or]

theorem environmentalStreak_abortedRows (policy : EnvironmentalFailurePolicy) (count k : Nat)
    (t : Int) (rest : List Verification) :
    environmentalStreak policy count (replicate k (abortedRow t) ++ rest) =
      environmentalStreak policy count rest := by
  induction k with
  | zero => rfl
  | succ k ih => grind [environmentalStreak, inconclusive_abortedRow]

theorem environmentalStreak_transientRows
    (hbucket : trimSpace policy.bucket ≠ []) (count k : Nat) (t : Int)
    (rest : List Verification) :
    environmentalStreak policy count (replicate k (transientRow t) ++ rest) =
      environmentalStreak policy (count + k) rest := by
  induction k generalizing count with
  | zero => rfl
  | succ k ih =>
    rw [replicate_succ, cons_append, environmentalStreak,
      if_neg (by simp [inconclusive_transientRow]), if_neg (by simp [failed_transientRow]),
      classifyVerification_transientRow, bind_some,
      if_neg (by simp [isTransient_slowdown hbucket]), ih, Nat.add_right_comm]
    rfl

/-- Rows of one time that a streak passes over or counts. -/
def weather (t : Int) (aborted transient : Nat) : List Verification :=
  replicate aborted (abortedRow t) ++ replicate transient (transientRow t)

theorem startedAt_of_mem_weather {aborted transient : Nat}
    (h : v ∈ weather t aborted transient) : v.startedAt = t := by
  rcases mem_append.mp h with h | h
  · rw [eq_of_mem_replicate h]
    rfl
  · rw [eq_of_mem_replicate h]
    rfl

theorem environmentalStreak_weather
    (hbucket : trimSpace policy.bucket ≠ []) (count : Nat) (t : Int) (aborted transient : Nat) :
    environmentalStreak policy count (weather t aborted transient) = some (count + transient) := by
  have h := environmentalStreak_transientRows hbucket count transient t []
  rw [append_nil] at h
  rw [weather, environmentalStreak_abortedRows, h]
  rfl

theorem take_weather (t : Int) (aborted transient limit : Nat) (h : aborted ≤ limit) :
    (weather t aborted transient).take limit =
      weather t aborted (min (limit - aborted) transient) := by
  rw [weather, take_append, length_replicate, take_replicate, take_replicate,
    Nat.min_eq_right h]
  rfl

theorem pairwise_of_startedAt {rows : List Verification}
    (h : ∀ v ∈ rows, v.startedAt = t) : rows.Pairwise fun a b => b.startedAt ≤ a.startedAt :=
  List.Pairwise.imp_of_mem (fun ha hb _ => by rw [h _ ha, h _ hb])
    (pairwise_of_forall fun _ _ => trivial)

/-- A slowdown reported by the expected run. -/
def matchingFailure (settings : Settings) (expected : Store.Workers.WorkerIdentity) :
    VerificationPayload :=
  { identity := { expected with
      profileHash := settings.profileHash expected.profileConfig
      validatorID := text "soak-verifier:" ++ expected.gitSHA }
    status := text "failed", failureClassification := some slowdown }

theorem matchesRun_matchingFailure (h : Complete expected) :
    matchesRun settings.toCodec expected (matchingFailure settings expected).identity = true := by
  obtain ⟨hrun, hworkload, hconfig, hmachine⟩ := h
  simp [matchesRun, matchingFailure, hrun, hworkload, hconfig, hmachine]

theorem failed_matchingFailure : (matchingFailure settings expected).failed = true := by
  show (!false && !verificationStatusAborted (text "failed") &&
    !verificationStatusPending (text "failed")) = true
  decide

theorem normalize_matchingFailure :
    normalizeInconclusiveRestoreFailure (matchingFailure settings expected) =
      some (matchingFailure settings expected) := by
  have houtput : restoreOutputDiskFull (matchingFailure settings expected).errorMessage =
      false := by
    show restoreOutputDiskFull [] = false
    rfl
  have hlocked : restoredComparisonLocked (matchingFailure settings expected).errorMessage =
      some false := by
    show restoredComparisonLocked [] = some false
    rfl
  have hpinned : pinnedRestoreTargetUnavailable (matchingFailure settings expected).restoreMode
      (matchingFailure settings expected).errorMessage = some false := by
    show pinnedRestoreTargetUnavailable [] [] = some false
    rfl
  have hcanceled : restoreRequestCanceled (matchingFailure settings expected).errorMessage =
      some false := by
    show restoreRequestCanceled [] = some false
    rfl
  grind [normalizeInconclusiveRestoreFailure]

/-- What is computed for an empty message; no profile takes it for a full disk. -/
def emptyMessage : FailureClassification :=
  { stage := [], signature := encode (text "unknown_failure") }

theorem computed_matchingFailure (observedAt : Option Int) :
    classifyVerificationFailureWithRuntime (matchingFailure settings expected).checkType
      (matchingFailure settings expected).errorMessage
      (matchingFailure settings expected).identity.profileName
      (matchingFailure settings expected).runtime observedAt = some emptyMessage := by
  have hclassified : classifyVerificationFailure [] [] = some emptyMessage := rfl
  have hname : emptyMessage.signature ≠ encode diskCapacityFull := by decide
  have htext : containsAny (toLower []) ["disk full"] = false := by decide
  grind [diskCapacityOverride, classifyVerificationFailureWithRuntime, matchingFailure]

theorem received_matchingFailure (now : Int) :
    received now (matchingFailure settings expected) =
      some (matchingFailure settings expected) := by
  have hchosen : chooseClassification (matchingFailure settings expected) emptyMessage =
      slowdown := by
    have hstage : emptyMessage.stage ≠ stageDiskCapacity := by decide
    have hreported : reportedDiskClassification (matchingFailure settings expected) = false := by
      show (slowdown.stage = stageDiskCapacity || slowdown.signature = encode diskCapacityFull ||
        slowdown.signature = encode soakFixtureDiskExhausted : Bool) = false
      decide
    rw [chooseClassification, if_neg hstage, hreported]
    rfl
  rw [received, ingest, normalize_matchingFailure, bind_some,
    if_pos failed_matchingFailure, classifyFailed, computed_matchingFailure, map_some,
    map_some, hchosen]
  rfl

theorem environmentalDecision_matchingFailure
    (hbucket : trimSpace settings.environmental.bucket ≠ []) (now : Int) (s : Reports.State) :
    environmentalDecision settings now (matchingFailure settings expected) s =
      (environmentalStreak settings.environmental 1
        (listVerifications s.verifications (historyLimit settings.environmental))).map
          fun count => !decide (settings.environmental.consecutive < count) := by
  rw [environmentalDecision, received_matchingFailure, bind_some, environmental,
    failed_matchingFailure]
  show environmentalWithoutEscalation settings.environmental s.verifications slowdown = _
  rw [environmentalWithoutEscalation, isTransient_slowdown hbucket]
  rfl

/-- **A quarantined verification** is recorded, and that is all, when the streak can be counted. -/
theorem handle_quarantined {s : Reports.State} {env : Bool}
    (hquarantined : quarantined settings.toCodec expected p.identity = true)
    (hreceived : received now p = some q)
    (henv : environmental settings.environmental s.verifications q = some env) :
    handle settings expected s ⟨now, .verification p⟩ =
      { s with verifications := s.verifications ++ [verificationRow settings expected q] } := by
  -- all a quarantined verification leaves is its row
  grind [handleVerification, recordVerification, received_spec, handle]

theorem environmentalStreak_isSome
    {verifications : List Verification} (count : Nat)
    (h : ∀ v ∈ verifications, v.inconclusive = true ∨ (classifyVerification v).isSome) :
    (environmentalStreak policy count verifications).isSome := by
  induction verifications generalizing count with
  | nil => rfl
  | cons v rest ih =>
    have hrest := fun count => ih count fun w hw => h w (mem_cons_of_mem _ hw)
    rw [environmentalStreak]
    split
    · exact hrest count
    · next hconclusive =>
      split
      · rfl
      · obtain ⟨c, hc⟩ := isSome_iff_exists.mp
          ((h v mem_cons_self).resolve_left hconclusive)
        rw [hc, bind_some]
        split
        · rfl
        · exact hrest (count + 1)

theorem newestFirst_subset {rows : List Verification} (h : v ∈ newestFirst rows) : v ∈ rows := by
  induction rows using reverseRecOn with
  | nil => cases h
  | append_singleton rows w ih => grind [newestFirst_append, mem_orderedInsert]

theorem environmental_isSome (policy : EnvironmentalFailurePolicy)
    {verifications : List Verification}
    (h : ∀ v ∈ verifications, v.inconclusive = true ∨ (classifyVerification v).isSome)
    (p : VerificationPayload) : ∃ env, environmental policy verifications p = some env := by
  rw [← isSome_iff_exists, environmental]
  split
  · rw [environmentalWithoutEscalation]
    grind [environmentalStreak_isSome, newestFirst_subset, listVerifications]
  · rfl

theorem countable_weather {aborted transient : Nat} :
    ∀ v ∈ weather t aborted transient,
      v.inconclusive = true ∨ (classifyVerification v).isSome := by
  grind [inconclusive_abortedRow, classifyVerification_transientRow, weather]

/-- **Weather without and with one more row.** If the row has no influence, the streak is escalated
alike with it and without it. -/
theorem Inert.streak_eq (hinert : Inert settings expected kind)
    (hcomplete : Complete expected) (hbucket : trimSpace settings.environmental.bucket ≠ [])

    (hhidden : Hidden settings expected kind ⟨now, .verification p⟩)
    (hreceived : received now p = some q) (aborted transient : Nat) :
    (environmentalStreak settings.environmental 1
      ((verificationRow settings expected q ::
        weather (p.startedAt - 1) aborted transient).take
          (historyLimit settings.environmental))).map
        (fun count => !decide (settings.environmental.consecutive < count)) =
      (environmentalStreak settings.environmental 1
        ((weather (p.startedAt - 1) aborted transient).take
          (historyLimit settings.environmental))).map
        (fun count => !decide (settings.environmental.consecutive < count)) := by
  have hrows : (weather (p.startedAt - 1) aborted transient).Pairwise
      fun a b => b.startedAt ≤ a.startedAt :=
    pairwise_of_startedAt fun v hv => startedAt_of_mem_weather hv
  have hnewest : ∀ v ∈ weather (p.startedAt - 1) aborted transient,
      newer (verificationRow settings expected q) v := by
    intro v hv
    show v.startedAt < q.startedAt
    rw [startedAt_of_mem_weather hv, (received_spec hreceived).2]
    omega
  let s : Reports.State := { verifications := weather (p.startedAt - 1) aborted transient }
  obtain ⟨env, henv⟩ := environmental_isSome settings.environmental countable_weather q
  have hsame := hinert s [⟨now, .verification p⟩] [] (.left hhidden .nil)
  have hdecision := hsame.2.2 0 _ (matchesRun_matchingFailure hcomplete)
  simp only [foldl_cons, foldl_nil] at hdecision
  rw [handle_quarantined hhidden.1 hreceived henv, environmentalDecision_matchingFailure hbucket,
    environmentalDecision_matchingFailure hbucket] at hdecision
  rw [listVerifications, listVerifications, newestFirst_append_newest hrows hnewest,
    newestFirst_of_pairwise hrows] at hdecision
  exact hdecision

theorem one_le_consecutive (policy : EnvironmentalFailurePolicy) : 1 ≤ policy.consecutive := by
  unfold EnvironmentalFailurePolicy.consecutive
  split <;> omega

theorem consecutive_lt_historyLimit (policy : EnvironmentalFailurePolicy) :
    policy.consecutive + 1 < historyLimit policy := by
  unfold historyLimit
  omega

/-- **With a bucket configured** no recorded verification is without influence. -/
theorem not_inert_of_bucket (hcomplete : Complete expected)
    (hbucket : trimSpace settings.environmental.bucket ≠ [])

    (hhidden : Hidden settings expected kind ⟨now, .verification p⟩)
    (hreceived : received now p = some q) : ¬ Inert settings expected kind := by
  intro hinert
  have hweather := hinert.streak_eq hcomplete hbucket hhidden hreceived
  have hone := one_le_consecutive settings.environmental
  have hlimit := consecutive_lt_historyLimit settings.environmental
  generalize hrow : verificationRow settings expected q = row at hweather
  generalize settings.environmental.consecutive = n at hweather hone hlimit
  generalize hL : historyLimit settings.environmental = L at hweather hlimit
  obtain ⟨m, rfl⟩ : ∃ m, L = m + 1 := ⟨L - 1, by omega⟩
  cases hinconclusive : row.inconclusive with
  | true =>
    -- it takes a place in the listing, and pushes out the failure that escalates
    have h := hweather (m + 1 - n) n
    rw [take_succ_cons, environmentalStreak, if_pos hinconclusive,
      take_weather _ _ _ _ (by omega), take_weather _ _ _ _ (by omega),
      environmentalStreak_weather hbucket, environmentalStreak_weather hbucket] at h
    have hcounts := some.inj h
    simp only [Bool.not_inj_iff, decide_eq_decide] at hcounts
    omega
  | false =>
    by_cases htransient : row.failed = true ∧
        ∃ c, classifyVerification row = some c ∧
          isTransientObjectStoreFailure settings.environmental c = true
    · -- it makes the streak one longer
      obtain ⟨hfailed, c, hc, htransient⟩ := htransient
      have h := hweather 0 (n - 1)
      rw [take_succ_cons, environmentalStreak, if_neg (by simp [hinconclusive]),
        if_neg (by simp [hfailed]), hc, bind_some, if_neg (by simp [htransient]),
        take_weather _ _ _ _ (by omega), take_weather _ _ _ _ (by omega),
        environmentalStreak_weather hbucket, environmentalStreak_weather hbucket] at h
      have hcounts := some.inj h
      simp only [Bool.not_inj_iff, decide_eq_decide] at hcounts
      omega
    · -- it ends the streak before the failures that escalate
      have h := hweather 0 n
      have hends : environmentalStreak settings.environmental 1
          (row :: (weather (p.startedAt - 1) 0 n).take m) = some 1 ∨
          environmentalStreak settings.environmental 1
            (row :: (weather (p.startedAt - 1) 0 n).take m) = none := by
        rw [environmentalStreak, if_neg (by simp [hinconclusive])]
        cases hfailed : row.failed with
        | false => exact Or.inl rfl
        | true =>
          rw [if_neg (by simp)]
          cases hc : classifyVerification row with
          | none => exact Or.inr rfl
          | some c => grind
      rw [take_succ_cons, take_weather _ _ _ (m + 1) (by omega),
        environmentalStreak_weather hbucket] at h
      rcases hends with hends | hends
      · grind
      · rw [hends] at h
        cases h

/-! ## §4 — a recorded verification and the run of failures behind a dormancy -/

def integrityFailure : FailureClassification :=
  { stage := text "integrity", signature := encode (text "rows_differ") }

/-- A failed check; the ones with a higher number were completed earlier. -/
def failedRow (startedAt : Int) (i : Nat) : Verification :=
  { startedAt := startedAt, completedAt := some (1000 - i), status := text "failed"
    classification := some integrityFailure }

def failures (startedAt : Int) : List Verification := (range 256).map (failedRow startedAt)

theorem classifyVerification_failedRow (t : Int) (i : Nat) :
    classifyVerification (failedRow t i) = some integrityFailure := by
  have hread : (failedRow t i).failureClassification = some integrityFailure := by
    show Store.FailureClassifications.readBack integrityFailure = some integrityFailure
    decide +kernel
  have hvalid : integrityFailure.valid = true := rfl
  rw [classifyVerification, hread]
  exact if_pos hvalid

theorem failed_failedRow (t : Int) (i : Nat) : (failedRow t i).failed = true := by
  show (!(equalFold (trimSpace (text "failed")) (text "aborted") ||
    equalFold (trimSpace (text "failed")) (text "pending")) &&
      (!false || equalFold (trimSpace (text "failed")) (text "failed"))) = true
  decide

theorem sameFailures_failedRows (t : Int) (indices : List Nat) (count : Nat) (oldest : Int) :
    sameFailures integrityFailure.signature count oldest (indices.map (failedRow t)) =
      some (count + indices.length,
        (indices.getLast?.map fun i : Nat => 1000 - (i : Int)).getD oldest) := by
  induction indices generalizing count oldest with
  | nil => rfl
  | cons i rest ih =>
    rw [map_cons, sameFailures, if_neg (by simp [failed_failedRow]),
      classifyVerification_failedRow, bind_some, if_neg (by simp), ih]
    congr 2
    · rw [length_cons]
      omega
    · grind [Verification.observedAt, failedRow]

def pauseTime (policy : DormancyPolicy) : Int := 745 + policy.normalizedThreshold

theorem detectDormancyCandidate_failures {policy : DormancyPolicy}
    (hmin : policy.normalizedMinFailures ≤ 256) (t : Int) :
    detectDormancyCandidate policy (pauseTime policy) (failures t) =
      some (some { signature := integrityFailure.signature, since := 745, count := 256 }) := by
  have hcons : failures t = failedRow t 0 :: ((range 255).map Nat.succ).map (failedRow t) :=
    congrArg (map (failedRow t)) (range_succ_eq_map (n := 255))
  have hloop := sameFailures_failedRows t (range 256) 0 0
  have hlast : (range 256).getLast? = some 255 := by simp [getLast?_range]
  rw [hlast, length_range] at hloop
  have hsignature : integrityFailure.signature ≠ [] := by decide
  rw [hcons, detectDormancyCandidate, if_neg (by simp [failed_failedRow]),
    classifyVerification_failedRow, bind_some, if_neg hsignature, ← hcons, failures]
  dsimp only
  rw [hloop]
  show some (if (decide (256 < policy.normalizedMinFailures) || decide ((1000 : Int) - 255 = 0)) =
    true then _ else _) = _
  rw [if_neg (by simp [Nat.not_lt.mpr hmin]), if_neg (by rw [pauseTime]; simp)]
  rfl

def runningWorker : Store.Workers.Worker := { status := .running }

theorem dormancyDecision_runningWorker (now : Int) (verifications : List Verification) :
    dormancyDecision settings now { worker := some runningWorker, verifications := verifications } =
      (detectDormancyCandidate settings.dormancy now
        ((listVerifications (verifications.filter
          fun v => !settings.storedInWindow v.run.profileConfig) 256).filter
            fun v => !runInMeteringWindow settings.toCodec v.run)).join := by
  rw [dormancyDecision, bind_some, if_pos (by decide)]
  rfl

theorem mem_failures (h : v ∈ failures t) : ∃ i, v = failedRow t i := by
  obtain ⟨i, -, rfl⟩ := List.mem_map.mp h
  exact ⟨i, rfl⟩

theorem filter_failures (t : Int) :
    (failures t).filter (fun v => !settings.storedInWindow v.run.profileConfig) = failures t := by
  rw [filter_eq_self]
  intro v hv
  obtain ⟨i, rfl⟩ := mem_failures hv
  show (!settings.storedInWindow []) = true
  rw [settings.storedInWindow_nil]
  rfl

theorem runInMeteringWindow_failures (h : v ∈ failures t) :
    runInMeteringWindow settings.toCodec v.run = false := by
  obtain ⟨i, rfl⟩ := mem_failures h
  have hnone : containsText [] (text "\"metering_window\"") = false := by decide
  show (containsText [] _ && _) = false
  rw [hnone, Bool.false_and]

theorem pairwise_failures (t : Int) :
    (failures t).Pairwise fun a b => b.startedAt ≤ a.startedAt := by
  apply pairwise_of_startedAt (t := t)
  intro v hv
  obtain ⟨i, rfl⟩ := mem_failures hv
  rfl

theorem length_failures (t : Int) : (failures t).length = 256 := by
  rw [failures, length_map, length_range]

theorem dormancyDecision_failures (hmin : settings.dormancy.normalizedMinFailures ≤ 256) (t : Int) :
    dormancyDecision settings (pauseTime settings.dormancy)
      { worker := some runningWorker, verifications := failures t } =
        some { signature := integrityFailure.signature, since := 745, count := 256 } := by
  have hkept : (failures t).filter (fun v => !runInMeteringWindow settings.toCodec v.run) =
      failures t :=
    filter_eq_self.mpr fun v hv => by rw [runInMeteringWindow_failures hv]; rfl
  rw [dormancyDecision_runningWorker, filter_failures, listVerifications,
    newestFirst_of_pairwise (pairwise_failures t),
    take_of_length_le (length_failures t).le, hkept, detectDormancyCandidate_failures hmin]
  rfl

/-- **With one more row** on top the earliest failure is not in the listing. -/
theorem dormancyDecision_failures_append {row : Verification}
    (hrow : settings.storedInWindow row.run.profileConfig = false)
    (hnew : t < row.startedAt) (now : Int) :
    dormancyDecision settings now
      { worker := some runningWorker, verifications := failures t ++ [row] } ≠
        some { signature := integrityFailure.signature, since := 745, count := 256 } := by
  intro hdecision
  have hlisted : listVerifications ((failures t ++ [row]).filter
      fun v => !settings.storedInWindow v.run.profileConfig) 256 =
        row :: (failures t).take 255 := by
    have hnewest : ∀ v ∈ failures t, newer row v := by
      intro v hv
      obtain ⟨i, rfl⟩ := mem_failures hv
      exact hnew
    rw [filter_append, filter_failures, filter_cons_of_pos (by simp [hrow]),
      filter_nil, listVerifications, newestFirst_append_newest (pairwise_failures t) hnewest,
      take_succ_cons]
  have hkept : ((failures t).take 255).filter
      (fun v => !runInMeteringWindow settings.toCodec v.run) = (failures t).take 255 := by
    rw [filter_eq_self]
    intro v hv
    rw [runInMeteringWindow_failures (mem_of_mem_take hv)]
    rfl
  rw [dormancyDecision_runningWorker, hlisted] at hdecision
  obtain ⟨-, n, v, hcount, hv, hsince⟩ := detectDormancyCandidate_spec hdecision
  obtain rfl : n = 255 := by
    have hcount : 256 = n + 1 := hcount
    omega
  cases hwindow : runInMeteringWindow settings.toCodec row.run with
  | true =>
    -- a row of a metering window still takes a place
    rw [filter_cons_of_neg (by simp [hwindow]), hkept, getElem?_take] at hv
    cases hv
  | false =>
    rw [filter_cons_of_pos (by simp [hwindow]), hkept, getElem?_cons_succ,
      getElem?_take, if_pos (by omega), failures, getElem?_map] at hv
    have hrange : (range 256)[254]? = some 254 := getElem?_range (by omega)
    rw [hrange] at hv
    obtain rfl : failedRow t 254 = v := some.inj hv
    have hsince : (745 : Int) = 1000 - 254 := hsince
    omega

/-- **Without a bucket** a recorded verification that the dormancy listing shows has an influence,
unless the policy never pauses. -/
theorem not_inert_of_listed
    (hbucket : trimSpace settings.environmental.bucket = [])
    (hmin : settings.dormancy.normalizedMinFailures ≤ 256)
    (hhidden : Hidden settings expected kind ⟨now, .verification p⟩)
    (hreceived : received now p = some q)
    (hlisted : settings.storedInWindow p.identity.profileConfig = false) :
    ¬ Inert settings expected kind := by
  intro hinert
  have hspec := received_spec hreceived
  have hsame := hinert
    { worker := some runningWorker, verifications := failures (p.startedAt - 1) }
    [⟨now, .verification p⟩] [] (.left hhidden .nil)
  have hdecision := hsame.2.1 (pauseTime settings.dormancy)
  simp only [foldl_cons, foldl_nil] at hdecision
  rw [handle_quarantined hhidden.1 hreceived (environmental_of_blank hbucket _ q),
    dormancyDecision_failures hmin] at hdecision
  refine dormancyDecision_failures_append ?_ ?_ _ hdecision
  · show settings.storedInWindow q.identity.profileConfig = false
    rw [hspec.1]
    exact hlisted
  · show p.startedAt - 1 < q.startedAt
    rw [hspec.2]
    omega

end Recorded

/-- **Quarantined reports have no influence** exactly as far as they are harmless: from any stored
state, histories that differ only by quarantined reports of a class leave the same worker row and
lead to the same dormancy decision at any time and the same environmental decision on any further
matching report if the quarantined reports of the class are harmless, and, for an expected run that
reports can match, only if they are. -/
theorem quarantined_inert_iff_harmless (settings : Settings)
    (expected : Store.Workers.WorkerIdentity)
    (kind : Received → Prop) :
    ((∀ r, Hidden settings expected kind r → Harmless settings r) →
      Inert settings expected kind) ∧
    (Complete expected → Inert settings expected kind →
      ∀ r, Hidden settings expected kind r → Harmless settings r) := by
  constructor
  · intro hclass s h₁ h₂ hdiffer
    exact ((unwinding hclass).run hdiffer ⟨rfl, rfl⟩).sameDecisions
  · rintro hcomplete hinert ⟨now, report⟩ hhidden
    cases report with
    | heartbeat p => trivial
    | event p => trivial
    | verification p =>
      by_contra hharmful
      obtain ⟨hrecorded, hread⟩ := not_or.mp hharmful
      obtain ⟨q, hreceived⟩ := ne_none_iff_exists'.mp hrecorded
      by_cases hbucket : trimSpace settings.environmental.bucket = []
      · have hlisted : settings.storedInWindow p.identity.profileConfig = false ∧
            settings.dormancy.normalizedMinFailures ≤ 256 := by
          simpa [Unread, hbucket] using hread
        exact not_inert_of_listed hbucket hlisted.2 hhidden hreceived hlisted.1 hinert
      · exact not_inert_of_bucket hcomplete hbucket hhidden hreceived hinert

def sampleSettings : Settings :=
  { profileHash := id, storedInWindow := fun _ => false, windowMarker := fun _ => false
    storedInWindow_nil := rfl, workerID := text "worker"
    environmental := { bucket := text "replicas" } }

def sampleRun : Store.Workers.WorkerIdentity :=
  { runID := text "run-2", workloadID := text "orders", profileConfig := text "low"
    machineID := text "machine-2" }

/-- No bucket, and a profile that is stored as a metering window. -/
def meteringSettings : Settings :=
  { profileHash := id, storedInWindow := fun profile => profile = text "window"
    windowMarker := fun _ => false, storedInWindow_nil := rfl, workerID := text "worker" }

/-- A failed verification of a metering window that ran on the machine before. -/
def meteredFailure : Received :=
  { now := 60000000000
    report := .verification
      { identity := { sampleRun with machineID := text "machine-1", profileConfig := text "window" }
        startedAt := 60000000000, status := text "failed" } }

/-- Quarantined heartbeats are inert, and where nobody reads them so are the verifications of
metering windows: one that is recorded is among them. -/
theorem heartbeats_and_windows_inert :
    Complete sampleRun ∧
    (Inert sampleSettings sampleRun fun r => ∃ p, r.report = .heartbeat p) ∧
    (Inert meteringSettings sampleRun fun r =>
      ∃ p, r.report = .verification p ∧ p.identity.profileConfig = text "window") ∧
    Hidden meteringSettings sampleRun (fun r =>
      ∃ p, r.report = .verification p ∧ p.identity.profileConfig = text "window")
      meteredFailure ∧
    (handle meteringSettings sampleRun {} meteredFailure).verifications.length = 1 := by
  refine ⟨by unfold Complete; decide, ?_, ?_, ⟨by decide +kernel, _, rfl, rfl⟩, by decide +kernel⟩
  · apply (quarantined_inert_iff_harmless sampleSettings sampleRun _).1
    rintro ⟨now, report⟩ ⟨-, p, rfl⟩
    trivial
  · apply (quarantined_inert_iff_harmless meteringSettings sampleRun _).1
    rintro ⟨now, report⟩ ⟨-, p, rfl, hwindow⟩
    exact .inr ⟨by decide, .inl (decide_eq_true hwindow)⟩

/-- A slowdown of the bucket, reported in the minute it started. -/
def slowdownAt (minute : Int) : Received :=
  { now := 60000000000 * minute
    report := .verification
      { matchingFailure sampleSettings sampleRun with startedAt := 60000000000 * minute } }

/-- A pass of the run before, reported by the machine before. -/
def stalePass : Received :=
  { now := 60000000000 * 3
    report := .verification
      { identity := { sampleRun with runID := text "run-1", machineID := text "machine-1" }
        startedAt := 60000000000 * 3, status := text "passed", passed := true } }

/-- **A quarantined pass hides an outage.** Three slowdowns in a row are escalated and degrade the
worker; with a pass of another machine between the second and the third they are not. -/
theorem quarantined_pass_hides_outage :
    DiffersBy (Hidden sampleSettings sampleRun fun r => ∀ p, r.report ≠ .event p)
      [slowdownAt 1, slowdownAt 2, stalePass, slowdownAt 4]
      [slowdownAt 1, slowdownAt 2, slowdownAt 4] ∧
    (([slowdownAt 1, slowdownAt 2, stalePass, slowdownAt 4].foldl
      (handle sampleSettings sampleRun) {}).worker.map Store.Workers.Worker.status =
        some .running) ∧
    (([slowdownAt 1, slowdownAt 2, slowdownAt 4].foldl
      (handle sampleSettings sampleRun) {}).worker.map Store.Workers.Worker.status =
        some .degraded) := by
  have hhidden : Hidden sampleSettings sampleRun (fun r => ∀ p, r.report ≠ .event p) stalePass := by
    constructor
    · decide +kernel
    · intro p
      nofun
  refine ⟨.both _ (.both _ (.left hhidden (.both _ .nil))), ?_, ?_⟩
  · decide +kernel
  · decide +kernel

end LitestreamSoak.Orchestrator.Quarantine
