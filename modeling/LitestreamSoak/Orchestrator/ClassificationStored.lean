import LitestreamSoak.Orchestrator.VerificationReport
import LitestreamSoak.Reporting.ClassificationSound
import LitestreamSoak.Store.FailureClassifications

/-!
# Orchestrator — which computed classifications survive storage

A reader of a verification drops a classification that is not valid, and JSON does not carry a
signature that was cut inside a character. `Survives` says that the control plane gets through the
classification of a report and that what it computed is valid and read back unchanged;
`SafeToClassify` is what that takes of the report.

The places where it can go wrong, in the order of the handler:

* a marker for a locked comparison is looked up in the message in lower case, and the message is
  sliced at that offset (`comparisonOffsetFits`);
* a many-database profile turns a failure that mentions a full disk into one of the disk, but
  leaves the parts of the restore or the object store on it (`Overridden`);
* a message without a known cause is known by its first line, whatever that says and wherever it
  is cut (`GoodLine`).
-/

namespace LitestreamSoak.Orchestrator.ClassificationStored

open Lib Lib.Utf8 Reporting
open Store.FailureClassifications Orchestrator.VerificationReport

/-! ## §1 — the property and its condition -/

/-- The report is ingested, and a classification the control plane computed for it is valid and
read back as it was. -/
def Survives (observedAt : Option Int) (p : VerificationPayload) : Prop :=
  ∃ i, ingest observedAt p = some i ∧
    (i.computed → ∀ c ∈ i.payload.failureClassification, c.valid ∧ readBack c = some c)

abbrev message (p : VerificationPayload) : Text := classifiedMessage p.errorMessage

def Overridden (p : VerificationPayload) : Prop :=
  isManyDBProfile p.identity.profileName ∧
    (containsAny (toLower p.errorMessage) ["disk full"] ∨
      Unnamed p.checkType (message p) ∧ meaningfulLine (message p) = some diskCapacityFull)

instance (p : VerificationPayload) : Decidable (Overridden p) :=
  inferInstanceAs (Decidable (_ ∧ (_ ∨ _ ∧ _)))

def Describable (p : VerificationPayload) : Prop :=
  if Overridden p then
    parseObjectStoreFailure (message p) = none ∧
      inferFailureStage p.checkType (message p) ≠ stageRestore
  else
    p.failureClassification = none → Unnamed p.checkType (message p) →
      ∀ line ∈ meaningfulLine (message p), GoodLine line

/-- A failure `normalizeInconclusiveRestoreFailure` takes for one of the provider's. -/
def ProviderFailure (p : VerificationPayload) : Prop :=
  pinnedRestoreTargetUnavailable p.restoreMode p.errorMessage = some true ∨
    restoreRequestCanceled p.errorMessage = some true

/-- **What a report has to be** for its classification to survive. -/
def SafeToClassify (p : VerificationPayload) : Prop :=
  p.failed = false ∨ restoreOutputDiskFull p.errorMessage ∨
    comparisonOffsetFits p.errorMessage ∧
      (restoredComparisonLocked p.errorMessage = some true ∨
        isDiskCapacityFailure (toLower (message p)) ∨
        comparisonOffsetFits (message p) ∧
          (ProviderFailure p ∨ restoredComparisonLocked (message p) = some true ∨ Describable p))

/-! ## §2 — panics -/

variable {msg : Text}

theorem restoredComparisonLocked_eq_none_iff :
    restoredComparisonLocked msg = none ↔ comparisonOffsetFits msg = false := by
  unfold restoredComparisonLocked
  split
  · next h => simpa using h
  · next h => simpa using h

theorem classifyVerificationFailure_of_disk (checkType : Text)
    (hdisk : isDiskCapacityFailure (toLower (classifiedMessage msg)) = true) :
    classifyVerificationFailure checkType msg =
      some { stage := stageDiskCapacity, signature := encode diskCapacityFull } := by
  rw [classifyVerificationFailure, if_pos hdisk]

theorem classifyVerificationFailure_of_not_disk (checkType : Text)
    (hdisk : isDiskCapacityFailure (toLower (classifiedMessage msg)) = false) :
    classifyVerificationFailure checkType msg =
      (restoredComparisonLocked (classifiedMessage msg)).map fun locked =>
        if locked then
          { stage := stageHarnessLock, signature := encode restoredComparisonLockedSignature }
        else classifyMessage checkType (classifiedMessage msg) := by
  rw [classifyVerificationFailure, if_neg (by simp [hdisk])]

/-! ## §3 — the classification that is chosen -/

theorem storable_iff {c : FailureClassification} : c.Storable ↔ c.valid ∧ readBack c = some c := by
  rw [readBack_eq_self_iff]
  constructor
  · exact fun h => ⟨h.1, h⟩
  · exact fun h => h.2

theorem storable_fillRestoreMode {restoreMode : Text} {c : FailureClassification} :
    (fillRestoreMode restoreMode c).Storable ↔ c.Storable := by
  unfold fillRestoreMode
  split
  · exact Iff.rfl
  · exact Iff.rfl

theorem storable_diskCapacityFull :
    FailureClassification.Storable
      { stage := stageDiskCapacity, signature := encode diskCapacityFull } :=
  (storable_disk_iff rfl rfl (Or.inl rfl)).mpr ⟨rfl, rfl⟩

/-- **The choice** between the computed and the reported classification: a computed one has to be
storable when it is of the disk, and when there is no other. -/
theorem storable_chooseClassification_iff {p : VerificationPayload}
    {computed : FailureClassification} :
    (keepsReported p computed = false → (chooseClassification p computed).Storable) ↔
      (computed.stage = stageDiskCapacity ∨ p.failureClassification = none →
        computed.Storable) := by
  unfold keepsReported chooseClassification
  by_cases hstage : computed.stage = stageDiskCapacity
  · simp [hstage]
  · rw [if_neg hstage]
    cases hreported : p.failureClassification with
    | none => simp [reportedDiskClassification, hreported]
    | some c => grind [storable_diskCapacityFull]

/-! ## §4 — the many-database override -/

section Override

variable {p : VerificationPayload} {observedAt : Option Int}

/-- The classification `handleVerification` computes from one of the message. -/
abbrev override (observedAt : Option Int) (p : VerificationPayload) (c : FailureClassification) :
    FailureClassification :=
  diskCapacityOverride p.errorMessage p.identity.profileName p.runtime observedAt c

/-- **The override** either leaves a classification as it is, or keeps just its parts. -/
theorem override_cases (observedAt : Option Int) (p : VerificationPayload)
    (c : FailureClassification) :
    (override observedAt p c = c ∧
      ¬ (isManyDBProfile p.identity.profileName ∧
        (c.signature = encode diskCapacityFull ∨
          containsAny (toLower p.errorMessage) ["disk full"]))) ∨
    (override observedAt p c).stage = stageDiskCapacity ∧
      (∃ signature, (override observedAt p c).signature = encode signature ∧
        (signature = diskCapacityFull ∨ signature = soakFixtureDiskExhausted)) ∧
      (override observedAt p c).objectStore = c.objectStore ∧
      (override observedAt p c).restore = c.restore ∧
      isManyDBProfile p.identity.profileName ∧
        (c.signature = encode diskCapacityFull ∨
          containsAny (toLower p.errorMessage) ["disk full"]) := by
  -- two guards leave the classification as it is, behind them it is replaced
  grind [diskCapacityOverride]

theorem storable_override {c : FailureClassification} (hc : c.Storable)
    (hstore : c.objectStore = none) (hrestore : c.restore = none) :
    (override observedAt p c).Storable := by
  grind [override_cases, storable_disk_iff]

/-- **A message's classification** can be stored, where it has to be, exactly when the message is
describable. -/
theorem storable_override_iff (hcheck : PlainStage (trimSpace p.checkType))
    (hdisk : isDiskCapacityFailure (toLower (message p)) = false) :
    ((override observedAt p (classifyMessage p.checkType (message p))).stage = stageDiskCapacity ∨
        p.failureClassification = none →
      (override observedAt p (classifyMessage p.checkType (message p))).Storable) ↔
      Describable p := by
  have htold : isManyDBProfile p.identity.profileName ∧
      ((classifyMessage p.checkType (message p)).signature = encode diskCapacityFull ∨
        containsAny (toLower p.errorMessage) ["disk full"]) ↔ Overridden p := by
    rw [Overridden, classifyMessage_signature_eq_diskCapacityFull_iff hdisk,
      or_comm (a := _ ∧ _)]
  unfold Describable
  rcases override_cases observedAt p
      (classifyMessage p.checkType (message p)) with ⟨heq, hnot⟩ |
    ⟨hstage, ⟨signature, hsignature, hname⟩, hstore, hrestore, hover⟩
  · -- the classification is the message's own, so its stage is not the disk's
    have hplain := (classifyMessage_coherent hcheck hdisk).stage.2.2
    rw [if_neg (fun h => hnot (htold.mpr h)), heq, classifyMessage_storable_iff hcheck hdisk]
    simp only [hplain, false_or]
  · grind [storable_disk_iff, classifyMessage_objectStore_eq_none_iff,
      classifyMessage_restore_eq_none_iff, failureStage_of_parse_eq_none]

end Override

/-! ## §5 — the handler -/

section Handler

variable {p : VerificationPayload} {observedAt : Option Int} {c : FailureClassification}

theorem failed_inconclusive (c : Option FailureClassification) :
    (p.inconclusive c).failed = false := by
  have haborted : verificationStatusAborted (text "aborted") = true := by decide
  rw [VerificationPayload.failed]
  show (!p.passed && !verificationStatusAborted (text "aborted") && _) = false
  rw [haborted, Bool.not_true, Bool.and_false, Bool.false_and]

/-- **A report found inconclusive** survives with a classification that can be stored. -/
theorem survives_of_inconclusive {c : Option FailureClassification}
    (h : normalizeInconclusiveRestoreFailure p = some (p.inconclusive c))
    (hc : ∀ d ∈ c, d.Storable) : Survives observedAt p := by
  refine ⟨{ payload := p.inconclusive c, computed := p.failed }, ?_, fun _ d hd => ?_⟩
  · rw [ingest, h, Option.bind_some, if_neg (by simp [failed_inconclusive])]
  · exact storable_iff.mp (hc d hd)

theorem not_survives_of_normalize (h : normalizeInconclusiveRestoreFailure p = none) :
    ¬ Survives observedAt p := by
  rintro ⟨i, hi, -⟩
  rw [ingest, h] at hi
  cases hi

/-- **A failure that counts** survives exactly when what is computed for it can be stored where it
has to be. -/
theorem survives_iff_of_computed (hfailed : p.failed = true)
    (hnormal : normalizeInconclusiveRestoreFailure p = some p)
    (hc : classifyVerificationFailure p.checkType p.errorMessage = some c) :
    Survives observedAt p ↔
      ((override observedAt p c).stage = stageDiskCapacity ∨ p.failureClassification = none →
        (override observedAt p c).Storable) := by
  have hingest : ingest observedAt p = some
      { payload := { p with
          failureClassification := some (fillRestoreMode p.restoreMode
            (chooseClassification p (override observedAt p c))) }
        computed := !keepsReported p (override observedAt p c) } := by
    rw [ingest, hnormal, Option.bind_some, if_pos hfailed, classifyFailed,
      classifyVerificationFailureWithRuntime, hc]
    rfl
  rw [← storable_chooseClassification_iff, Survives, hingest]
  constructor
  · rintro ⟨i, hi, hok⟩ hkeeps
    cases hi
    exact storable_fillRestoreMode.mp (storable_iff.mpr (hok (by simp [hkeeps]) _ rfl))
  · intro hok
    refine ⟨_, rfl, fun hcomputed d hd => ?_⟩
    cases hd
    exact storable_iff.mp (storable_fillRestoreMode.mpr (hok (by simpa using hcomputed)))

theorem normalize_of_unlocked (hfailed : p.failed = true)
    (houtput : restoreOutputDiskFull p.errorMessage = false)
    (hlocked : restoredComparisonLocked p.errorMessage = some false) :
    normalizeInconclusiveRestoreFailure p =
      (pinnedRestoreTargetUnavailable p.restoreMode p.errorMessage).bind fun unavailable =>
        if unavailable then some (p.inconclusive none)
        else (restoreRequestCanceled p.errorMessage).map fun canceled =>
          if canceled then p.inconclusive none else p := by
  grind [normalizeInconclusiveRestoreFailure]

theorem provider_answers
    (hc : classifyVerificationFailure restoreValidate p.errorMessage = some c) :
    (∃ b, pinnedRestoreTargetUnavailable p.restoreMode p.errorMessage = some b) ∧
      restoreRequestCanceled p.errorMessage = some (requestCanceled c) := by
  constructor
  · rw [pinnedRestoreTargetUnavailable, hc]
    split_ifs
    · exact ⟨_, rfl⟩
    · exact ⟨_, rfl⟩
    · exact ⟨_, rfl⟩
  · rw [restoreRequestCanceled, hc]
    rfl

theorem not_providerFailure
    (hc : classifyVerificationFailure restoreValidate p.errorMessage = some c)
    (hstage : c.stage ≠ stageRestore) : ¬ ProviderFailure p := by
  rintro (h | h)
  · rw [pinnedRestoreTargetUnavailable, hc] at h
    split_ifs at h
    · cases h
    · cases h
    · simp [hstage] at h
  · rw [restoreRequestCanceled, hc] at h
    simp [requestCanceled, hstage] at h

theorem normalize_of_provider (hfailed : p.failed = true)
    (houtput : restoreOutputDiskFull p.errorMessage = false)
    (hlocked : restoredComparisonLocked p.errorMessage = some false)
    (hc : classifyVerificationFailure restoreValidate p.errorMessage = some c) :
    (ProviderFailure p ∧ normalizeInconclusiveRestoreFailure p = some (p.inconclusive none)) ∨
      ¬ ProviderFailure p ∧ normalizeInconclusiveRestoreFailure p = some p := by
  obtain ⟨⟨unavailable, hunavailable⟩, hcanceled⟩ := provider_answers hc
  rw [normalize_of_unlocked hfailed houtput hlocked, ProviderFailure, hunavailable, hcanceled]
  cases unavailable with
  | true => simp
  | false => cases requestCanceled c <;> simp

theorem normalize_of_panic (hfailed : p.failed = true)
    (houtput : restoreOutputDiskFull p.errorMessage = false)
    (hlocked : restoredComparisonLocked p.errorMessage = some false)
    (hc : classifyVerificationFailure restoreValidate p.errorMessage = none) :
    normalizeInconclusiveRestoreFailure p = none := by
  rw [normalize_of_unlocked hfailed houtput hlocked, restoreRequestCanceled,
    pinnedRestoreTargetUnavailable, hc]
  split_ifs <;> rfl

/-- **A failure of a message that can be classified.** -/
theorem survives_iff_of_classified (hcheck : PlainStage (trimSpace p.checkType))
    (hfailed : p.failed = true) (houtput : restoreOutputDiskFull p.errorMessage = false)
    (hlocked : restoredComparisonLocked p.errorMessage = some false)
    (hdisk : isDiskCapacityFailure (toLower (message p)) = false) {locked : Bool}
    (hcompared : restoredComparisonLocked (message p) = some locked) :
    Survives observedAt p ↔ ProviderFailure p ∨ locked = true ∨ Describable p := by
  have hclassified := fun checkType => classifyVerificationFailure_of_not_disk checkType hdisk
  simp only [hcompared, Option.map_some] at hclassified
  rcases normalize_of_provider hfailed houtput hlocked (hclassified restoreValidate) with
    ⟨hprovider, hnormal⟩ | ⟨hprovider, hnormal⟩
  · grind [survives_of_inconclusive]
  · rw [survives_iff_of_computed hfailed hnormal (hclassified p.checkType)]
    cases locked with
    | true =>
      constructor
      · exact fun _ => Or.inr (Or.inl rfl)
      · intro _ _
        exact storable_override (storable_of_plain [] (by decide) (by decide)) rfl rfl
    | false => grind [storable_override_iff]

/-- **A failure that is not of the restore output's disk.** -/
theorem survives_iff_of_outputFits (hcheck : PlainStage (trimSpace p.checkType))
    (hfailed : p.failed = true) (houtput : restoreOutputDiskFull p.errorMessage = false) :
    Survives observedAt p ↔
      comparisonOffsetFits p.errorMessage ∧
        (restoredComparisonLocked p.errorMessage = some true ∨
          isDiskCapacityFailure (toLower (message p)) ∨
          comparisonOffsetFits (message p) ∧
            (ProviderFailure p ∨ restoredComparisonLocked (message p) = some true ∨
              Describable p)) := by
  cases hlocked : restoredComparisonLocked p.errorMessage with
  | none => grind [normalizeInconclusiveRestoreFailure, not_survives_of_normalize,
      restoredComparisonLocked]
  | some locked =>
    have hfits : comparisonOffsetFits p.errorMessage = true := by
      by_contra h
      rw [restoredComparisonLocked_eq_none_iff.mpr (by simpa using h)] at hlocked
      cases hlocked
    rw [and_iff_right hfits]
    cases locked with
    | true =>
      have hnormal : normalizeInconclusiveRestoreFailure p =
          some (p.inconclusive (some (restoredComparisonLockedClassification p.restoreMode))) := by
        rw [normalizeInconclusiveRestoreFailure, if_neg (by simp [hfailed]),
          if_neg (by simp [houtput]), hlocked]
        rfl
      refine ⟨fun _ => Or.inl rfl, fun _ => survives_of_inconclusive hnormal ?_⟩
      rintro c ⟨⟩
      exact storable_of_plain p.restoreMode (by decide) (by decide)
    | false =>
      rw [or_iff_right (by simp)]
      cases hdisk : isDiskCapacityFailure (toLower (message p)) with
      | true =>
        have hclassified := fun checkType => classifyVerificationFailure_of_disk checkType hdisk
        have hprovider := not_providerFailure (hclassified restoreValidate) (by decide)
        have hnormal : normalizeInconclusiveRestoreFailure p = some p :=
          ((normalize_of_provider hfailed houtput hlocked
            (hclassified restoreValidate)).resolve_left
            fun h => hprovider h.1).2
        rw [survives_iff_of_computed hfailed hnormal (hclassified p.checkType)]
        exact ⟨fun _ => Or.inl rfl,
          fun _ _ => storable_override storable_diskCapacityFull rfl rfl⟩
      | false =>
        rw [or_iff_right (by simp)]
        cases hcompared : restoredComparisonLocked (message p) with
        | none =>
          have hpanic := classifyVerificationFailure_of_not_disk restoreValidate hdisk
          rw [show classifiedMessage p.errorMessage = message p from rfl, hcompared] at hpanic
          have hnormal := normalize_of_panic hfailed houtput hlocked hpanic
          rw [restoredComparisonLocked_eq_none_iff.mp hcompared]
          simp [not_survives_of_normalize hnormal]
        | some compared =>
          have hfits : comparisonOffsetFits (message p) = true := by
            by_contra h
            rw [restoredComparisonLocked_eq_none_iff.mpr (by simpa using h)] at hcompared
            cases hcompared
          rw [and_iff_right hfits, Option.some.injEq]
          exact survives_iff_of_classified hcheck hfailed houtput hlocked hdisk hcompared

end Handler

/-- **Computed classifications survive storage** exactly for the reports of `SafeToClassify`: for
every failure report whose check type is not blank, whatever the bytes of its error message, its
profile, its runtime snapshot and the time, the report is ingested with a computed classification
that is valid and read back as it was stored. -/
theorem classification_survives_iff (p : VerificationPayload) (errorMessage : Bytes)
    (observedAt : Option Int) (hcheck : PlainStage (trimSpace p.checkType)) :
    Survives observedAt (p.receive errorMessage) ↔ SafeToClassify (p.receive errorMessage) := by
  have hcheck : PlainStage (trimSpace (p.receive errorMessage).checkType) := hcheck
  generalize p.receive errorMessage = p at hcheck ⊢
  rw [SafeToClassify]
  cases hfailed : p.failed with
  | false =>
    have hnormal : normalizeInconclusiveRestoreFailure p = some p := if_pos (by simp [hfailed])
    refine ⟨fun _ => Or.inl rfl, fun _ => ⟨{ payload := p, computed := false }, ?_, nofun⟩⟩
    rw [ingest, hnormal, Option.bind_some, if_neg (by simp [hfailed]), hfailed]
  | true =>
    cases houtput : restoreOutputDiskFull p.errorMessage with
    | true =>
      have hnormal : normalizeInconclusiveRestoreFailure p =
          some (p.inconclusive (some (harnessCapacityClassification p.restoreMode))) := by
        rw [normalizeInconclusiveRestoreFailure, if_neg (by simp [hfailed]), if_pos houtput]
      refine ⟨fun _ => Or.inr (Or.inl rfl), fun _ => survives_of_inconclusive hnormal ?_⟩
      rintro c ⟨⟩
      exact storable_of_plain p.restoreMode (by decide) (by decide)
    | false =>
      simp only [Bool.true_eq_false, Bool.false_eq_true, false_or]
      exact survives_iff_of_outputFits hcheck hfailed houtput

theorem plainStage_of_workerCheckType {checkType : Text} (h : checkType ∈ workerCheckTypes) :
    PlainStage (trimSpace checkType) := by
  revert checkType
  decide

def sampleReport : VerificationPayload := { checkType := text "integrity", status := text "failed" }

/-- A message that no signature names is stored and read back as classified. -/
theorem classification_survives_unnamed :
    Survives (some 0) (sampleReport.receive (encode (text "row count differs by 3"))) := by
  have hcheck := plainStage_of_workerCheckType (show text "integrity" ∈ workerCheckTypes by decide)
  apply (classification_survives_iff sampleReport _ (some 0) hcheck).mpr
  have hmessage : (sampleReport.receive (encode (text "row count differs by 3"))).errorMessage =
      text "row count differs by 3" := toValid_encode _
  refine Or.inr (Or.inr ⟨?_, Or.inr (Or.inr ⟨?_, Or.inr (Or.inr ?_)⟩)⟩)
  · rw [hmessage]
    decide +kernel
  · rw [message, hmessage]
    decide +kernel
  · rw [Describable, if_neg (by decide +kernel)]
    intro _ _ line hline
    obtain rfl : text "row count differs by 3" = line := by
      rw [message, hmessage] at hline
      have hfirst : meaningfulLine (classifiedMessage (text "row count differs by 3")) =
          some (text "row count differs by 3") := by decide +kernel
      exact Option.some.inj (hfirst.symm.trans hline)
    exact ⟨by decide, by decide, Or.inl (by decide)⟩

theorem not_survives_of_ingest {observedAt : Option Int} {p : VerificationPayload}
    (h : (ingest observedAt p).map (fun i => (i.computed,
      i.payload.failureClassification.map fun c => decide (readBack c = some c))) =
        some (true, some false)) : ¬ Survives observedAt p := by
  rintro ⟨i, hi, hok⟩
  rw [hi] at h
  have hpair := Option.some.inj h
  have hcomputed : i.computed = true := congrArg Prod.fst hpair
  have hread := congrArg Prod.snd hpair
  obtain ⟨c, hc, hlost⟩ := Option.map_eq_some_iff.mp hread
  have hkept := (hok hcomputed c hc).2
  simp [hkept] at hlost

/-- **Two classifications that are lost.** A many-database worker reports that a restore met a full
disk: the stage becomes the disk's, the part of the restore stays, and the reader drops the whole.
Another message is cut inside its 41st character: the classification is valid, but another one is
read back. -/
theorem classification_lost :
    ¬ Survives (some 0)
      (VerificationPayload.receive
        { identity := { profileName := text "sentinel-manydb" }, checkType := text "integrity"
          status := text "failed" }
        (encode (text "restore failed: disk full"))) ∧
    ¬ Survives (some 0)
      (sampleReport.receive (encode ('x' :: List.replicate 40 '\u2713'))) := by
  constructor
  · apply not_survives_of_ingest
    decide +kernel
  · apply not_survives_of_ingest
    decide +kernel

end LitestreamSoak.Orchestrator.ClassificationStored
