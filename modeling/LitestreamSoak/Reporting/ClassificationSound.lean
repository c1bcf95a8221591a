import LitestreamSoak.Reporting.Classification

/-!
# Reporting — which classifications are valid

`FailureClassification.valid` couples a stage, a signature and two optional parts that the
classifier sets in different places. A signature that is a line of the message is the one kind
whose validity depends on the text (`classifyMessage_storable_iff`): the line must not be the name
of a disk signature, and the cut after 120 bytes must fall between two characters and not behind a
space.
-/

namespace LitestreamSoak.Reporting

open Lib Lib.Utf8 List

/-! ## §1 — stages and named signatures -/

variable {message checkType : Text}

def PlainStage (stage : Text) : Prop :=
  stage ≠ [] ∧ trimSpace stage = stage ∧ stage ≠ stageDiskCapacity

instance (stage : Text) : Decidable (PlainStage stage) :=
  inferInstanceAs (Decidable (_ ∧ _ ∧ _))

def PlainSignature (signature : Text) : Prop :=
  signature ≠ [] ∧ trimSpace signature = signature ∧
    signature ≠ diskCapacityFull ∧ signature ≠ soakFixtureDiskExhausted

instance (signature : Text) : Decidable (PlainSignature signature) :=
  inferInstanceAs (Decidable (_ ∧ _ ∧ _ ∧ _))

theorem inferFailureStage_cases (checkType : Text)
    (hdisk : isDiskCapacityFailure (toLower message) = false) :
    inferFailureStage checkType message ∈
      [trimSpace checkType, stageSync, stageRestore, text "integrity_check",
        text "validation"] := by
  simp only [inferFailureStage, hdisk, Bool.false_eq_true, if_false]
  split_ifs <;> simp

/-- Stages and named signatures are trimmed, not empty, and not those of a full disk. -/
theorem failureStage_plain (hcheck : PlainStage (trimSpace checkType))
    (hdisk : isDiskCapacityFailure (toLower message) = false) :
    PlainStage (failureStage checkType message) := by
  have hinferred : PlainStage (inferFailureStage checkType message) := by
    have hmem := inferFailureStage_cases checkType hdisk
    simp only [mem_cons, not_mem_nil, or_false] at hmem
    rcases hmem with h | h | h | h | h
    · rw [h]
      exact hcheck
    all_goals rw [h]; decide
  rw [failureStage]
  split
  · decide
  · exact hinferred

theorem signatureStagePrefix_cases (stage : Text) :
    signatureStagePrefix stage = stageSync ∨ signatureStagePrefix stage = stageRestore := by
  unfold signatureStagePrefix
  split
  · exact Or.inl rfl
  · exact Or.inr rfl

theorem plain_signatureStagePrefix {rest : Text} (stage : Text)
    (hsync : PlainSignature (stageSync ++ rest))
    (hrestore : PlainSignature (stageRestore ++ rest)) :
    PlainSignature (signatureStagePrefix stage ++ rest) := by
  grind [signatureStagePrefix_cases]

theorem restoreReplanFailureSignature_plain {lower : Text}
    (h : restoreReplanFailureSignature lower ≠ []) :
    PlainSignature (restoreReplanFailureSignature lower) := by
  unfold restoreReplanFailureSignature at h ⊢
  split_ifs at h ⊢
  · decide
  · decide
  · decide
  · exact absurd rfl h

theorem plain_ite {c : Prop} [Decidable c] {t : Text} {rest : Option Text}
    (ht : c → PlainSignature t) (hrest : ∀ s ∈ rest, PlainSignature s) :
    ∀ s ∈ (if c then some t else rest), PlainSignature s := by
  split
  · next hc =>
    rintro s ⟨⟩
    exact ht hc
  · exact hrest

/-- **Named signatures** are plain, unless the message is one of a full disk. -/
theorem namedSignature_plain {stage lower : Text} (hdisk : isDiskCapacityFailure lower = false) :
    ∀ signature ∈ namedSignature stage lower, PlainSignature signature := by
  have hprefixed : ∀ rest ∈ [text "_missing_ltx", text "_decode_error", text "_plan_failed"],
      PlainSignature (signatureStagePrefix stage ++ rest) := by
    intro rest hrest
    have hboth : PlainSignature (stageSync ++ rest) ∧ PlainSignature (stageRestore ++ rest) := by
      revert rest
      decide
    exact plain_signatureStagePrefix stage hboth.1 hboth.2
  rw [namedSignature, if_neg (by simp [hdisk])]
  -- the cases in the order of the source
  apply plain_ite (fun _ => by decide)
  apply plain_ite (fun _ => by decide)
  apply plain_ite (fun _ => by decide)
  apply plain_ite (fun _ => by decide)
  apply plain_ite (fun _ => by decide)
  apply plain_ite (fun _ => by decide)
  apply plain_ite (fun _ => by decide)
  apply plain_ite (fun _ => by decide)
  apply plain_ite (fun _ => by decide)
  apply plain_ite restoreReplanFailureSignature_plain
  apply plain_ite (fun _ => by decide)
  apply plain_ite (fun _ => hprefixed _ (by simp))
  apply plain_ite (fun _ => hprefixed _ (by simp))
  apply plain_ite (fun _ => hprefixed _ (by simp))
  apply plain_ite (fun _ => by decide)
  apply plain_ite (fun _ => by decide)
  apply plain_ite (fun _ => by decide)
  apply plain_ite (fun _ => by decide)
  apply plain_ite (fun _ => by decide)
  rintro signature ⟨⟩

theorem objectStoreSignature_plain (stage : Text) (failure : ObjectStoreFailure) :
    PlainSignature (objectStoreSignature stage failure) := by
  unfold objectStoreSignature
  dsimp only
  split_ifs
  all_goals exact plain_signatureStagePrefix stage (by decide) (by decide)

/-! ## §2 — the parts -/

/-- The parts are set for the stages that may have them. -/
theorem classifyMessage_objectStore_isSome
    (h : (classifyMessage checkType message).objectStore.isSome) :
    (classifyMessage checkType message).stage = stageSync ∨
      (classifyMessage checkType message).stage = stageRestore := by
  have hparsed : (parseObjectStoreFailure message).isSome := by
    simpa [classifyMessage] using h
  show failureStage checkType message = _ ∨ failureStage checkType message = _
  rw [failureStage]
  split
  · exact Or.inr rfl
  · next hguard =>
    -- the object store failed, so the guard can only have missed a stage
    grind

theorem classifyMessage_objectStore_eq_none_iff :
    (classifyMessage checkType message).objectStore = none ↔
      parseObjectStoreFailure message = none := by
  simp [classifyMessage]

theorem classifyMessage_restore_eq_none_iff :
    (classifyMessage checkType message).restore = none ↔
      failureStage checkType message ≠ stageRestore := by
  simp [classifyMessage]

theorem failureStage_of_parse_eq_none
    (h : parseObjectStoreFailure message = none) :
    failureStage checkType message = inferFailureStage checkType message := by
  rw [failureStage, h]
  rfl

def Unnamed (checkType message : Text) : Prop :=
  parseObjectStoreFailure message = none ∧
    namedSignature (inferFailureStage checkType message) (toLower message) = none

instance (checkType message : Text) : Decidable (Unnamed checkType message) :=
  inferInstanceAs (Decidable (_ ∧ _))

theorem classifyMessage_signature_of_unnamed
    (h : Unnamed checkType message) :
    (classifyMessage checkType message).signature = firstMeaningfulLine message := by
  simp [classifyMessage, failureStage_of_parse_eq_none h.1, h.1, inferFailureSignature, h.2]

/-- **Every other message** has a plain signature. -/
theorem classifyMessage_signature_of_named
    (hdisk : isDiskCapacityFailure (toLower message) = false) (h : ¬ Unnamed checkType message) :
    ∃ signature, PlainSignature signature ∧
      (classifyMessage checkType message).signature = encode signature := by
  cases hparsed : parseObjectStoreFailure message with
  | none =>
    cases hnamed : namedSignature (inferFailureStage checkType message) (toLower message) with
    | none => exact absurd ⟨hparsed, hnamed⟩ h
    | some signature =>
      refine ⟨signature, namedSignature_plain hdisk signature hnamed, ?_⟩
      simp [classifyMessage, failureStage_of_parse_eq_none hparsed, hparsed,
        inferFailureSignature, hnamed]
  | some failure =>
    simp only [classifyMessage, hparsed, Option.map_some, storeFailureSignature]
    have hplain := objectStoreSignature_plain (failureStage checkType message)
      { failure with phase := firstNonEmpty [failure.phase, inferRestorePhase (toLower message)] }
    split_ifs with htransport hempty
    · exact ⟨text "s3_transport", by decide, rfl⟩
    · exact ⟨_, hplain, rfl⟩
    · exact absurd hplain.1 hempty

/-! ## §3 — signatures that are a line of the message -/

variable {msg line : Text}

/-- The first 120 bytes of a line are whole characters, and the last of them is no space. -/
def CutsClean (line : Text) : Prop :=
  (encode line).length ≤ 120 ∨
    ∃ head, head <+: line ∧ (encode head).length = 120 ∧ ∀ c ∈ head.getLast?, isSpace c = false

theorem meaningfulLine_spec (h : meaningfulLine msg = some line) :
    line ≠ [] ∧ trimSpace line = line := by
  constructor
  · simpa using find?_some h
  · obtain ⟨raw, -, rfl⟩ := mem_map.mp (mem_of_find?_eq_some h)
    exact trimSpace_trimSpace raw

theorem firstMeaningfulLine_of_some (h : meaningfulLine msg = some line) :
    firstMeaningfulLine msg = (encode line).take 120 := by
  grind [firstMeaningfulLine, take_of_length_le]

theorem prefix_of_encode_eq_take {s : Text} (h : encode s = (encode line).take 120) :
    s <+: line ∧ (s = line ∨ (encode s).length = 120) := by
  have hpre : encode s <+: encode line := h ▸ take_prefix 120 (encode line)
  refine ⟨encode_prefix_iff.mp hpre, ?_⟩
  grind [take_of_length_le, encode_injective]

theorem head_not_space {s : Text} (htrim : trimSpace line = line) (hpre : s <+: line) :
    ∀ c ∈ s.head?, isSpace c = false := by
  intro c hc
  obtain ⟨rest, rfl⟩ := hpre
  apply (trimSpace_eq_self_iff.mp htrim).1
  rw [head?_append, Option.mem_def.mp hc]
  rfl

/-- **The cut of a line** is a trimmed text exactly when it is clean. -/
theorem exists_trimmed_cut_iff (htrim : trimSpace line = line) :
    (∃ s, encode s = (encode line).take 120 ∧ trimSpace s = s) ↔ CutsClean line := by
  constructor
  · rintro ⟨s, hs, hstrim⟩
    obtain ⟨hpre, rfl | hlength⟩ := prefix_of_encode_eq_take hs
    · left
      have hlen := congrArg length hs
      rw [length_take] at hlen
      omega
    · exact Or.inr ⟨s, hpre, hlength, (trimSpace_eq_self_iff.mp hstrim).2⟩
  · rintro (hshort | ⟨head, hpre, hlength, hlast⟩)
    · exact ⟨line, (take_of_length_le hshort).symm, htrim⟩
    · refine ⟨head, ?_, trimSpace_eq_self_iff.mpr ⟨head_not_space htrim hpre, hlast⟩⟩
      rw [← hlength]
      exact prefix_iff_eq_take.mp (encode_prefix_iff.mpr hpre)

/-! ## §4 — validity -/

variable {c : FailureClassification}

def FailureClassification.Storable (c : FailureClassification) : Prop :=
  c.valid ∧ ∃ s, encode s = c.signature

/-- A stage that is not the disk's, with the parts it may have. -/
structure FailureClassification.Coherent (c : FailureClassification) : Prop where
  stage : PlainStage c.stage
  objectStore : c.objectStore.isSome → c.stage = stageSync ∨ c.stage = stageRestore
  restore : c.restore.isSome → c.stage = stageRestore

theorem valid_iff :
    c.valid ↔
      (trimSpace c.stage = c.stage ∧ c.stage ≠ []) ∧
      (trimBytes c.signature = c.signature ∧ c.signature ≠ []) ∧
      (c.objectStore.isSome → c.stage = stageSync ∨ c.stage = stageRestore) ∧
      (c.restore.isSome → c.stage = stageRestore) ∧
      if c.signature = encode diskCapacityFull ∨ c.signature = encode soakFixtureDiskExhausted then
        c.stage = stageDiskCapacity ∧ c.objectStore = none ∧ c.restore = none
      else c.stage ≠ stageDiskCapacity := by
  by_cases hstage : trimSpace c.stage = c.stage
  · by_cases hsignature : trimBytes c.signature = c.signature
    · simp only [FailureClassification.valid, hstage, hsignature, ne_eq, not_true_eq_false]
      cases c.objectStore <;> cases c.restore <;> simp <;> grind
    · simp [FailureClassification.valid, hsignature]
  · simp [FailureClassification.valid, hstage]

/-- **With a coherent stage** it is the signature that decides. -/
theorem storable_iff_of_coherent (h : c.Coherent) :
    c.Storable ↔ ∃ s, PlainSignature s ∧ encode s = c.signature := by
  have hvalid : ∀ s, encode s = c.signature → (c.valid ↔ PlainSignature s) := by
    intro s hs
    simp only [valid_iff, ← hs, trimBytes_encode, encode_injective.eq_iff, ne_eq,
      encode_eq_nil_iff]
    constructor
    · rintro ⟨-, ⟨htrim, hne⟩, -, -, hname⟩
      split at hname
      · exact absurd hname.1 h.stage.2.2
      · next hnot => exact ⟨hne, htrim, not_or.mp hnot⟩
    · rintro ⟨hne, htrim, hnot⟩
      refine ⟨⟨h.stage.2.1, h.stage.1⟩, ⟨htrim, hne⟩, h.objectStore, h.restore, ?_⟩
      rw [if_neg (not_or.mpr hnot)]
      exact h.stage.2.2
  grind [FailureClassification.Storable]

theorem storable_of_plain {stage signature : Text} (restoreMode : Text) (hstage : PlainStage stage)
    (hsignature : PlainSignature signature) :
    FailureClassification.Storable
      { stage := stage, signature := encode signature, restoreMode := restoreMode } :=
  (storable_iff_of_coherent ⟨hstage, by simp, by simp⟩).mpr ⟨signature, hsignature, rfl⟩

/-- **A classification of the disk** has no parts. -/
theorem storable_disk_iff {signature : Text}
    (hstage : c.stage = stageDiskCapacity) (hsignature : c.signature = encode signature)
    (hdisk : signature = diskCapacityFull ∨ signature = soakFixtureDiskExhausted) :
    c.Storable ↔ c.objectStore = none ∧ c.restore = none := by
  have hname : c.signature = encode diskCapacityFull ∨
      c.signature = encode soakFixtureDiskExhausted := by
    rw [hsignature, encode_injective.eq_iff, encode_injective.eq_iff]
    exact hdisk
  constructor
  · rintro ⟨hvalid, -⟩
    have hparts := (valid_iff.mp hvalid).2.2.2.2
    rw [if_pos hname] at hparts
    exact hparts.2
  · rintro ⟨hstore, hrestore⟩
    have htrim : trimBytes c.signature = c.signature ∧ c.signature ≠ [] := by
      rcases hname with h | h <;> rw [h] <;> decide
    refine ⟨valid_iff.mpr ⟨?_, htrim, ?_, ?_, ?_⟩, signature, hsignature.symm⟩
    · rw [hstage]
      decide
    · simp [hstore]
    · simp [hrestore]
    · rw [if_pos hname]
      exact ⟨hstage, hstore, hrestore⟩

theorem classifyMessage_coherent
    (hcheck : PlainStage (trimSpace checkType))
    (hdisk : isDiskCapacityFailure (toLower message) = false) :
    (classifyMessage checkType message).Coherent where
  stage := failureStage_plain hcheck hdisk
  objectStore := classifyMessage_objectStore_isSome
  restore h := by
    by_contra hne
    rw [classifyMessage_restore_eq_none_iff.mpr hne] at h
    cases h

theorem classifyMessage_signature_eq_diskCapacityFull_iff
    (hdisk : isDiskCapacityFailure (toLower message) = false) :
    (classifyMessage checkType message).signature = encode diskCapacityFull ↔
      Unnamed checkType message ∧ meaningfulLine message = some diskCapacityFull := by
  by_cases hunnamed : Unnamed checkType message
  · rw [classifyMessage_signature_of_unnamed hunnamed, and_iff_right hunnamed]
    cases hline : meaningfulLine message with
    | none =>
      rw [firstMeaningfulLine, hline]
      simp only [encode_injective.eq_iff, reduceCtorEq, iff_false]
      decide
    | some line =>
      rw [firstMeaningfulLine_of_some hline, Option.some.injEq]
      constructor
      · intro h
        -- the name is shorter than the cut
        obtain ⟨-, hsame | hlong⟩ := prefix_of_encode_eq_take h.symm
        · exact hsame.symm
        · exact absurd hlong (by decide)
      · rintro rfl
        decide
  · obtain ⟨signature, hplain, hsignature⟩ := classifyMessage_signature_of_named hdisk hunnamed
    rw [hsignature, encode_injective.eq_iff]
    constructor
    · exact fun h => absurd h hplain.2.2.1
    · exact fun h => absurd h.1 hunnamed

def GoodLine (line : Text) : Prop :=
  line ≠ diskCapacityFull ∧ line ≠ soakFixtureDiskExhausted ∧ CutsClean line

theorem plainSignature_cut_iff (hline : meaningfulLine msg = some line) :
    (∃ s, PlainSignature s ∧ encode s = (encode line).take 120) ↔ GoodLine line := by
  obtain ⟨hne, htrim⟩ := meaningfulLine_spec hline
  have hshort : ∀ name ∈ [diskCapacityFull, soakFixtureDiskExhausted],
      (encode name).length < 120 := by decide
  have hcut : ∀ name ∈ [diskCapacityFull, soakFixtureDiskExhausted], ∀ s,
      encode s = (encode line).take 120 → (s = name ↔ line = name) := by
    intro name hname s hs
    obtain ⟨hpre, rfl | hlong⟩ := prefix_of_encode_eq_take hs
    · exact Iff.rfl
    · have hlength := hshort name hname
      constructor
      · rintro rfl
        omega
      · rintro rfl
        have := congrArg length hs
        rw [length_take] at this
        omega
  rw [GoodLine, ← exists_trimmed_cut_iff htrim]
  constructor
  · rintro ⟨s, ⟨-, hstrim, hfull, hsoak⟩, hs⟩
    exact ⟨fun h => hfull ((hcut _ (by simp) s hs).mpr h),
      fun h => hsoak ((hcut _ (by simp) s hs).mpr h), s, hs, hstrim⟩
  · rintro ⟨hfull, hsoak, s, hs, hstrim⟩
    refine ⟨s, ⟨?_, hstrim, fun h => hfull ((hcut _ (by simp) s hs).mp h),
      fun h => hsoak ((hcut _ (by simp) s hs).mp h)⟩, hs⟩
    rintro rfl
    obtain ⟨-, hnil | hlong⟩ := prefix_of_encode_eq_take hs
    · exact hne hnil.symm
    · exact absurd hlong (by decide)

/-- **A message's classification** can be stored unless it is known by a line that cannot. -/
theorem classifyMessage_storable_iff
    (hcheck : PlainStage (trimSpace checkType))
    (hdisk : isDiskCapacityFailure (toLower message) = false) :
    (classifyMessage checkType message).Storable ↔
      (Unnamed checkType message → ∀ line ∈ meaningfulLine message, GoodLine line) := by
  rw [storable_iff_of_coherent (classifyMessage_coherent hcheck hdisk)]
  by_cases hunnamed : Unnamed checkType message
  · rw [classifyMessage_signature_of_unnamed hunnamed]
    simp only [hunnamed, forall_const]
    cases hline : meaningfulLine message with
    | none =>
      have hplain : PlainSignature (text "unknown_failure") := by decide
      rw [firstMeaningfulLine, hline]
      constructor
      · rintro - line ⟨⟩
      · exact fun _ => ⟨_, hplain, rfl⟩
    | some line =>
      rw [firstMeaningfulLine_of_some hline, plainSignature_cut_iff hline]
      simp
  · grind [classifyMessage_signature_of_named]

end LitestreamSoak.Reporting
