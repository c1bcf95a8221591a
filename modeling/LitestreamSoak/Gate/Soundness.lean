import LitestreamSoak.Gate.Score
import LitestreamSoak.Reporting.Classification

/-!
# Gate — a passed gate has passed

The verdict of a gate is folded through counts per side and per mode, results made up for modes a
side never saw, the fault copied to every mode, and two overrides. This module follows a `pass`
back through all of them to the verifications.
-/

namespace LitestreamSoak.Gate

open Lib List

/-- **What a pass must mean in one mode**, in terms of the verifications read. -/
structure PassedIn (mode : Text) (candidate baseline : SideReads) : Prop where
  candidate_succeeded : ∃ v ∈ candidate.accepted, v.mode = mode ∧ v.succeeded = true
  candidate_not_failed : ∀ v ∈ candidate.accepted, v.mode = mode → v.failed = false
  candidate_no_hard_fault : rcGateHardFault (candidate.fault.map Prod.fst) = false
  baseline_covered :
    (∃ v ∈ baseline.accepted, v.mode = mode ∧ (v.succeeded = true ∨ v.failed = true)) ∨
      rcGateHardFault (baseline.fault.map Prod.fst) = true

structure StandsFor (r : RCGateSideResult) (reads : SideReads) (mode : Text) : Prop where
  status : r.status = rcGateSideStatus r
  fault : r.fault = reads.fault
  passed : r.passed = (reads.accepted.filter (·.mode = mode)).countP Verification.succeeded
  failed : r.failed = (reads.accepted.filter (·.mode = mode)).countP Verification.failed

/-! ## §1 — the counts -/

section Counts

variable (signature : Text → Text → Text)

def reproduces (v : Verification) : Bool := v.failed && walResetReproduction signature v

theorem count_counters (r : RCGateSideResult) (v : Verification) :
    (r.count signature v).passed = r.passed + (if v.succeeded then 1 else 0) ∧
      (r.count signature v).failed = r.failed + (if v.failed then 1 else 0) ∧
      (r.count signature v).reproduced =
        r.reproduced + if reproduces signature v then 1 else 0 := by
  grind [RCGateSideResult.count, reproduces, Verification.not_failed_of_succeeded]

theorem foldl_count_counters (vs : List Verification) (r : RCGateSideResult) :
    (vs.foldl (·.count signature ·) r).passed = r.passed + vs.countP Verification.succeeded ∧
      (vs.foldl (·.count signature ·) r).failed = r.failed + vs.countP Verification.failed := by
  induction vs generalizing r with
  | nil => simp
  | cons v vs ih => grind [count_counters]

theorem lookup_mode_cons (m : Text × RCGateSideResult) (rest : ModeResults) (name : Text) :
    (m :: rest).lookup name = if name = m.1 then some m.2 else rest.lookup name := by
  grind

theorem lookup_count (fresh : RCGateSideResult) (v : Verification) (modes : ModeResults)
    (name : Text) :
    (modes.count signature fresh v).lookup name =
      if name = v.mode then some (((modes.lookup name).getD fresh).count signature v)
      else modes.lookup name := by
  induction modes with
  | nil => rw [ModeResults.count, lookup_mode_cons]; rfl
  | cons m rest ih => grind [ModeResults.count]

/-- **The loop, mode by mode**: a mode's result is the count over the verifications of that mode,
and a mode without one has no entry. -/
theorem lookup_foldl_countAccepted (fresh : RCGateSideResult) (vs : List Verification)
    (acc : RCGateSideResult × ModeResults) (name : Text) :
    (vs.foldl (countAccepted signature fresh) acc).2.lookup name =
      if vs.filter (·.mode = name) = [] then acc.2.lookup name
      else some ((vs.filter (·.mode = name)).foldl (·.count signature ·)
        ((acc.2.lookup name).getD fresh)) := by
  induction vs generalizing acc with
  | nil => simp
  | cons v vs ih =>
    rw [foldl_cons, ih]
    have hentry : (countAccepted signature fresh acc v).2.lookup name = _ :=
      lookup_count signature fresh v acc.2 name
    by_cases h : name = v.mode
    · grind
    · grind

theorem reproduced_foldl_countAccepted (fresh : RCGateSideResult) (vs : List Verification)
    (acc : RCGateSideResult × ModeResults) :
    (vs.foldl (countAccepted signature fresh) acc).1.reproduced =
      acc.1.reproduced + vs.countP (reproduces signature) := by
  induction vs generalizing acc with
  | nil => simp
  | cons v vs ih => grind [countAccepted, count_counters]

end Counts

/-! ## §2 — a side in a mode -/

section Sides

variable {signature : Text → Text → Text} {db : DB} {gate : RCGate} {scenario : GateScenario}
  {filter : GateSideFilter} {stop : Time} {side : RCGateSideResult} {modes : ModeResults}

theorem lookup_map_close (fault : Option (Reason × Detail)) (modes : ModeResults) (name : Text) :
    (modes.map fun (mode, r) => (mode, r.close fault)).lookup name =
      (modes.lookup name).map (RCGateSideResult.close fault) := by
  induction modes with
  | nil => rfl
  | cons m rest ih => grind

theorem mem_names_of_lookup {modes : ModeResults} {name : Text}
    (h : modes.lookup name ≠ none) : name ∈ modes.map Prod.fst := by
  induction modes with
  | nil => exact absurd rfl h
  | cons m rest ih => grind

theorem rcGateSideStatus_ne_missing (r : RCGateSideResult) : rcGateSideStatus r ≠ .missing := by
  unfold rcGateSideStatus
  split
  · simp
  · split <;> simp

theorem rcGateSideStatus_eq_passing {r : RCGateSideResult} (h : rcGateSideStatus r = .passing) :
    0 < r.passed ∧ r.failed = 0 ∧ rcGateHardFault (r.fault.map Prod.fst) = false := by
  unfold rcGateSideStatus at h
  split at h
  · cases h
  · grind

theorem rcGateSideStatus_covered {r : RCGateSideResult} (h : (rcGateSideStatus r).covered = true) :
    0 < r.passed ∨ 0 < r.failed ∨ rcGateHardFault (r.fault.map Prod.fst) = true := by
  unfold rcGateSideStatus at h
  split at h
  · grind
  · split at h
    · next hpos => exact Or.inl hpos
    · cases h

theorem rcGateSide_cases (h : rcGateSide signature db gate scenario filter stop =
    .ok (side, modes)) :
    (side.status = .missing ∧ modes = []) ∨
      ∃ reads, readSide db gate scenario filter stop = .ok (some reads) ∧
        ∃ start fresh : RCGateSideResult,
          start.reproduced = 0 ∧ fresh.passed = 0 ∧ fresh.failed = 0 ∧
          side = (reads.accepted.foldl (countAccepted signature fresh) (start, [])).1.close
            reads.fault ∧
          modes = (reads.accepted.foldl (countAccepted signature fresh) (start, [])).2.map
            fun (mode, r) => (mode, r.close reads.fault) := by
  unfold rcGateSide at h
  cases hreads : readSide db gate scenario filter stop with
  | error e => simp [hreads, bind, Except.bind] at h
  | ok found =>
    cases found with
    | none =>
      simp only [hreads, bind, Except.bind, pure, Except.pure, Except.ok.injEq,
        Prod.mk.injEq] at h
      exact Or.inl ⟨h.1 ▸ rfl, h.2.symm⟩
    | some reads =>
      simp only [hreads, bind, Except.bind, pure, Except.pure, Except.ok.injEq,
        Prod.mk.injEq] at h
      exact Or.inr ⟨reads, rfl, _, _, rfl, rfl, rfl, h.1.symm, h.2.symm⟩

/-- **A side in a mode.** Whether the mode was seen or its result is made up, the counts are those
of the accepted verifications of the mode, and the fault is the side's. -/
theorem modeSide_of_reads (signature : Text → Text → Text) (reads : SideReads)
    (start : RCGateSideResult) {fresh : RCGateSideResult} (hpassed : fresh.passed = 0)
    (hfailed : fresh.failed = 0) (name : Text) :
    let scored := reads.accepted.foldl (countAccepted signature fresh) (start, [])
    let r := modeSide (scored.1.close reads.fault)
      (scored.2.map fun (mode, r) => (mode, r.close reads.fault)) name
    StandsFor r reads name := by
  intro scored r
  have hlookup := lookup_foldl_countAccepted signature fresh reads.accepted (start, []) name
  by_cases hnone : reads.accepted.filter (·.mode = name) = []
  · -- no verification of this mode: the result is made up from the side's fault
    rw [if_pos hnone] at hlookup
    have hr : r = { source := (scored.1.close reads.fault).source
                    workerID := (scored.1.close reads.fault).workerID
                    status := rcGateSideStatus
                      { source := (scored.1.close reads.fault).source
                        workerID := (scored.1.close reads.fault).workerID
                        status := .missing, fault := reads.fault }
                    fault := reads.fault } := by
      show modeSide _ _ _ = _
      unfold modeSide
      rw [lookup_map_close, hlookup]
      exact if_neg (rcGateSideStatus_ne_missing _)
    rw [hr]
    exact ⟨rfl, rfl, by rw [hnone]; rfl, by rw [hnone]; rfl⟩
  · rw [if_neg hnone] at hlookup
    have hr : r = ((reads.accepted.filter (·.mode = name)).foldl (·.count signature ·)
        fresh).close reads.fault := by
      show modeSide _ _ _ = _
      unfold modeSide
      rw [lookup_map_close, hlookup]
      rfl
    obtain ⟨hp, hf⟩ := foldl_count_counters signature (reads.accepted.filter (·.mode = name)) fresh
    rw [hr]
    refine ⟨rfl, rfl, ?_, ?_⟩
    · show _ = _
      rw [RCGateSideResult.close, hp, hpassed, Nat.zero_add]
    · rw [RCGateSideResult.close, hf, hfailed, Nat.zero_add]

end Sides

/-! ## §3 — a scenario -/

section Verdicts

variable {s : GateScenario} {candidate baseline : RCGateSideResult × ModeResults}
  {result : RCGateScenarioResult}

theorem rcGateScenarioVerdict_eq_pass {c b : SideStatus} (h : rcGateScenarioVerdict c b = .pass) :
    c = .passing ∧ b.covered = true := by
  revert h
  cases c <;> cases b <;> decide

theorem rcGateScenarioVerdict_ne_noReproduction (c b : SideStatus) :
    rcGateScenarioVerdict c b ≠ .noReproduction := by
  cases c <;> cases b <;> decide

theorem rcGateModesVerdict_eq_pass {modes : List RCGateModeResult}
    (h : rcGateModesVerdict modes = .pass) {m : RCGateModeResult} (hm : m ∈ modes) :
    m.verdict = .pass ∨ m.verdict = .noReproduction := by
  unfold rcGateModesVerdict at h
  cases hfind : [ScenarioVerdict.regression, .bothFailing, .incomplete].find? fun verdict =>
      modes.any fun mode => mode.verdict = verdict with
  | some verdict =>
    -- the search only finds one of the three, and none of them is a pass
    have hmem := mem_of_find?_eq_some hfind
    rw [hfind, Option.getD_some] at h
    rw [h] at hmem
    simp at hmem
  | none =>
    have hall := find?_eq_none.mp hfind
    have hne : ∀ verdict ∈ [ScenarioVerdict.regression, .bothFailing, .incomplete],
        m.verdict ≠ verdict := by
      intro verdict hverdict heq
      exact hall verdict hverdict (any_eq_true.mpr ⟨m, hm, by simpa using heq⟩)
    cases hv : m.verdict with
    | pass => exact Or.inl rfl
    | noReproduction => exact Or.inr rfl
    | _ => exact absurd hv (hne _ (by simp))

theorem rcGateCoverageVerdict_eq_pass {verdict : ScenarioVerdict} {c b : RCGateSideResult}
    (h : rcGateCoverageVerdict verdict c b = .pass) : verdict = .pass := by
  unfold rcGateCoverageVerdict at h
  split at h
  · cases h
  · exact h

theorem rcGateWALResetVerdict_eq_pass {verdict : ScenarioVerdict} {b : RCGateSideResult}
    (h : rcGateWALResetVerdict verdict b = .pass) : verdict = .pass ∧ 0 < b.reproduced := by
  unfold rcGateWALResetVerdict at h
  split at h
  · cases h
  · grind

theorem mem_foldl_addName {seen names : List Text} {name : Text} :
    name ∈ seen.foldl addName names ↔ name ∈ names ∨ name ∈ seen := by
  induction seen generalizing names with
  | nil => simp
  | cons n seen ih => grind [addName]

theorem rcGateRequiredModes_ne_nil (s : GateScenario) (c b : RCGateSideResult) :
    rcGateRequiredModes s c b ≠ [] := by
  unfold rcGateRequiredModes
  split
  · next h => simpa using h
  · split
    · simp
    · decide

/-- **A scenario that passes** passes in every mode that is required or was seen on either side,
and its baseline reproduced the bug where the scenario is the WAL reset one. -/
theorem scenarioResult_pass (h : scenarioResult s candidate baseline = some result)
    (hpass : result.verdict = .pass) :
    result.scenario = s.name ∧ result.candidate = candidate.1 ∧ result.baseline = baseline.1 ∧
      (∀ name, name ∈ rcGateRequiredModes s candidate.1 baseline.1 ∨
          name ∈ candidate.2.map Prod.fst ∨ name ∈ baseline.2.map Prod.fst →
        (modeSide candidate.1 candidate.2 name).status = .passing ∧
          (modeSide baseline.1 baseline.2 name).status.covered = true) ∧
      (s.walReset = true → 0 < baseline.1.reproduced) := by
  unfold scenarioResult at h
  split at h
  · cases h
  · next hskip =>
    simp only [Option.some.injEq] at h
    subst h
    refine ⟨rfl, rfl, rfl, ?_⟩
    -- undo the two overrides on the folded verdict
    have hwal : s.walReset = true → 0 < baseline.1.reproduced := by
      intro hreset
      simp only [hreset, if_true] at hpass
      exact (rcGateWALResetVerdict_eq_pass hpass).2
    refine ⟨fun name hname => ?_, hwal⟩
    generalize hmodes : rcGateModeResults (rcGateRequiredModes s candidate.1 baseline.1)
      candidate.1 baseline.1 candidate.2 baseline.2 = modes at hpass
    have hfolded : (if rcGateScenarioVerdict candidate.1.status baseline.1.status ≠ .incomplete &&
        modes ≠ [] then rcGateModesVerdict modes
        else rcGateScenarioVerdict candidate.1.status baseline.1.status) = .pass := by
      have hcov := hpass
      simp only at hcov
      split at hcov
      · grind [rcGateWALResetVerdict_eq_pass, rcGateCoverageVerdict_eq_pass]
      · split at hcov
        · exact rcGateCoverageVerdict_eq_pass hcov
        · exact hcov
    -- the mode is among the results, so its verdict is not one of the three bad ones
    let m : RCGateModeResult :=
      { mode := name
        candidate := modeSide candidate.1 candidate.2 name
        baseline := modeSide baseline.1 baseline.2 name
        verdict := rcGateScenarioVerdict (modeSide candidate.1 candidate.2 name).status
          (modeSide baseline.1 baseline.2 name).status }
    have hm : m ∈ modes := by
      rw [← hmodes]
      unfold rcGateModeResults
      refine mem_map.mpr ⟨name, ?_, rfl⟩
      rw [mem_insertionSort, mem_foldl_addName, mem_append]
      exact hname
    have hne : modes ≠ [] := ne_nil_of_mem hm
    have hverdict : rcGateModesVerdict modes = .pass := by
      by_cases hsides : rcGateScenarioVerdict candidate.1.status baseline.1.status = .incomplete
      · simp [hsides] at hfolded
      · simpa [hsides, hne] using hfolded
    rcases rcGateModesVerdict_eq_pass hverdict hm with hmpass | hmnone
    · exact rcGateScenarioVerdict_eq_pass hmpass
    · exact absurd hmnone (rcGateScenarioVerdict_ne_noReproduction _ _)

end Verdicts

/-! ## §4 — the gate -/

section Gate

variable {signature : Text → Text → Text} {db : DB} {gate : RCGate} {stop : Time}

/-- **The invariant of the loop over the scenarios**: every result so far is the result of a scored
scenario, and one that is not a pass has raised a flag. -/
def Scoring.Justified (signature : Text → Text → Text) (db : DB) (gate : RCGate) (stop : Time)
    (acc : Scoring) : Prop :=
  ∀ result ∈ acc.scenarios,
    (∃ s ∈ scoredScenarios gate, ∃ candidate baseline,
      rcGateSide signature db gate s s.candidateFilter stop = .ok candidate ∧
      rcGateSide signature db gate s s.baselineFilter stop = .ok baseline ∧
      scenarioResult s candidate baseline = some result) ∧
    (result.verdict = .pass ∨ acc.failing = true ∨ acc.incomplete = true)

theorem add_flags (acc : Scoring) (result : RCGateScenarioResult) :
    result.verdict = .pass ∨ (acc.add result).failing = true ∨
      (acc.add result).incomplete = true := by
  cases hv : result.verdict <;> simp [Scoring.add, hv]

theorem justified_step {acc acc' : Scoring} {s : GateScenario}
    (hacc : acc.Justified signature db gate stop) (hs : s ∈ scoredScenarios gate)
    (hstep : Scoring.step signature db gate stop acc s = .ok acc') :
    acc'.Justified signature db gate stop := by
  unfold Scoring.step at hstep
  cases hc : rcGateSide signature db gate s s.candidateFilter stop with
  | error e => simp [hc, bind, Except.bind] at hstep
  | ok candidate =>
    cases hb : rcGateSide signature db gate s s.baselineFilter stop with
    | error e => simp [hc, hb, bind, Except.bind] at hstep
    | ok baseline =>
      simp only [hc, hb, bind, Except.bind, pure, Except.pure] at hstep
      cases hresult : scenarioResult s candidate baseline with
      | none =>
        rw [hresult] at hstep
        cases hstep
        exact hacc
      | some result =>
        rw [hresult] at hstep
        cases hstep
        intro r hr
        rcases mem_append.mp hr with hold | hnew
        · obtain ⟨hfrom, hflag⟩ := hacc r hold
          refine ⟨hfrom, hflag.imp_right ?_⟩
          rintro (hf | hi) <;> simp [Scoring.add, *]
        · obtain rfl := mem_singleton.mp hnew
          exact ⟨⟨s, hs, candidate, baseline, hc, hb, hresult⟩, add_flags acc r⟩

theorem justified_foldlM (scenarios : List GateScenario)
    (hscored : ∀ s ∈ scenarios, s ∈ scoredScenarios gate) {acc acc' : Scoring}
    (hacc : acc.Justified signature db gate stop)
    (hrun : scenarios.foldlM (Scoring.step signature db gate stop) acc = .ok acc') :
    acc'.Justified signature db gate stop := by
  induction scenarios generalizing acc with
  | nil =>
    cases hrun
    exact hacc
  | cons s rest ih =>
    rw [foldlM_cons] at hrun
    cases hstep : Scoring.step signature db gate stop acc s with
    | error e => simp [hstep, bind, Except.bind] at hrun
    | ok next =>
      simp only [hstep, bind, Except.bind] at hrun
      have hnext := justified_step hacc (hscored s (by simp)) hstep
      exact ih (fun s' hs' => hscored s' (by simp [hs'])) hnext hrun

theorem reads_of_modeSide {s : GateScenario} {filter : GateSideFilter}
    {scored : RCGateSideResult × ModeResults}
    (h : rcGateSide signature db gate s filter stop = .ok scored) {name : Text}
    (hne : (modeSide scored.1 scored.2 name).status ≠ .missing) :
    ∃ reads, readSide db gate s filter stop = .ok (some reads) ∧
      scored.1.reproduced = reads.accepted.countP (reproduces signature) ∧
      (∀ v ∈ reads.accepted, v.mode ∈ scored.2.map Prod.fst) ∧
      ∀ mode, StandsFor (modeSide scored.1 scored.2 mode) reads mode := by
  rcases rcGateSide_cases h with ⟨hmissing, hnil⟩ | ⟨reads, hreads, start, fresh, hstart, hp, hf,
    hside, hmodes⟩
  · -- a missing side is missing in every mode
    refine absurd ?_ hne
    simp [modeSide, hnil, hmissing]
  · refine ⟨reads, hreads, ?_, fun v hv => ?_, fun mode => ?_⟩
    · rw [hside, RCGateSideResult.close, reproduced_foldl_countAccepted, hstart, Nat.zero_add]
    · apply mem_names_of_lookup
      have hin : v ∈ reads.accepted.filter (·.mode = v.mode) := by simp [hv]
      rw [hmodes, lookup_map_close, lookup_foldl_countAccepted, if_neg (ne_nil_of_mem hin)]
      simp
    · rw [hside, hmodes]
      exact modeSide_of_reads signature reads start hp hf mode

theorem passedIn_of_status {candidate baseline : SideReads} {mode : Text}
    {c b : RCGateSideResult} (hc : StandsFor c candidate mode) (hb : StandsFor b baseline mode)
    (hpassing : c.status = .passing) (hcovered : b.status.covered = true) :
    PassedIn mode candidate baseline := by
  obtain ⟨hcstatus, hcfault, hcpassed, hcfailed⟩ := hc
  obtain ⟨hbstatus, hbfault, hbpassed, hbfailed⟩ := hb
  obtain ⟨hpos, hzero, hfault⟩ := rcGateSideStatus_eq_passing (hcstatus ▸ hpassing)
  refine ⟨?_, fun v hv hmode => ?_, hcfault ▸ hfault, ?_⟩
  · obtain ⟨v, hv, hsucceeded⟩ := countP_pos_iff.mp (hcpassed ▸ hpos)
    obtain ⟨hin, hmode⟩ := mem_filter.mp hv
    exact ⟨v, hin, of_decide_eq_true hmode, hsucceeded⟩
  · have hnone := countP_eq_zero.mp (hcfailed ▸ hzero)
    grind
  · rcases rcGateSideStatus_covered (hbstatus ▸ hcovered) with h | h | h
    · obtain ⟨v, hv, hsucceeded⟩ := countP_pos_iff.mp (hbpassed ▸ h)
      grind
    · obtain ⟨v, hv, hfailed⟩ := countP_pos_iff.mp (hbfailed ▸ h)
      grind
    · exact Or.inr (hbfault ▸ h)

/-- **A gate that passes really passed.** For every scenario in the result and every mode that is
required for it or was seen on either side, the candidate succeeded at least once, never failed and
has no hard fault, and the baseline is covered; for the WAL reset scenario the baseline reproduced
the bug. -/
theorem buildRCGateResults_pass {results : RCGateResults}
    (hresults : buildRCGateResults signature db gate stop = .ok results)
    (hpass : results.verdict = .pass) {result : RCGateScenarioResult}
    (hresult : result ∈ results.scenarios) :
    ∃ s ∈ scoredScenarios gate, result.scenario = s.name ∧
      ∃ candidate baseline : SideReads,
        readSide db gate s s.candidateFilter stop = .ok (some candidate) ∧
        readSide db gate s s.baselineFilter stop = .ok (some baseline) ∧
        (∀ mode, mode ∈ rcGateRequiredModes s result.candidate result.baseline ∨
            (∃ v ∈ candidate.accepted, v.mode = mode) ∨ (∃ v ∈ baseline.accepted, v.mode = mode) →
          PassedIn mode candidate baseline) ∧
        (s.walReset = true →
          ∃ v ∈ baseline.accepted, v.failed = true ∧ walResetReproduction signature v = true) := by
  unfold buildRCGateResults at hresults
  cases hrun : (scoredScenarios gate).foldlM (Scoring.step signature db gate stop) {} with
  | error e => simp [hrun, bind, Except.bind] at hresults
  | ok acc =>
    cases hheld : rcGateHeldWorkers db gate with
    | error e => simp [hrun, hheld, bind, Except.bind] at hresults
    | ok held =>
      simp only [hrun, hheld, bind, Except.bind, pure, Except.pure, Except.ok.injEq] at hresults
      subst hresults
      have hstart : Scoring.Justified signature db gate stop {} := fun r hr => by simp at hr
      obtain ⟨⟨s, hs, candidate, baseline, hc, hb, hscenario⟩, hflag⟩ :=
        justified_foldlM _ (fun _ h => h) hstart hrun result hresult
      -- no flag is raised, so this scenario passed
      have hverdict : result.verdict = .pass := by
        rcases hflag with h | h | h
        · exact h
        · simp [Scoring.verdict, h] at hpass
        · by_cases hfail : acc.failing = true <;> simp [Scoring.verdict, h, hfail] at hpass
      obtain ⟨hname, hcand, hbase, hmodes, hwal⟩ := scenarioResult_pass hscenario hverdict
      -- one required mode is enough to see that neither side is missing
      obtain ⟨first, hfirst⟩ :=
        exists_mem_of_ne_nil _ (rcGateRequiredModes_ne_nil s candidate.1 baseline.1)
      obtain ⟨hpassing, hcovered⟩ := hmodes first (Or.inl hfirst)
      obtain ⟨creads, hcreads, -, hcseen, hcmode⟩ :=
        reads_of_modeSide hc (by rw [hpassing]; decide)
      obtain ⟨breads, hbreads, hbrepro, hbseen, hbmode⟩ :=
        reads_of_modeSide hb (fun hmissing => by rw [hmissing] at hcovered; cases hcovered)
      refine ⟨s, hs, hname, creads, breads, hcreads, hbreads, fun mode hmode => ?_,
        fun hreset => ?_⟩
      · rw [hcand, hbase] at hmode
        have hstatus := hmodes mode <| hmode.imp_right <| Or.imp
          (fun ⟨v, hv, heq⟩ => heq ▸ hcseen v hv) (fun ⟨v, hv, heq⟩ => heq ▸ hbseen v hv)
        exact passedIn_of_status (hcmode mode) (hbmode mode) hstatus.1 hstatus.2
      · have hpos := hwal hreset
        rw [hbrepro, countP_pos_iff] at hpos
        obtain ⟨v, hv, hrepro⟩ := hpos
        obtain ⟨hfailed, hbug⟩ := Bool.and_eq_true_iff.mp hrepro
        exact ⟨v, hv, hfailed, hbug⟩

def walResetGate : RCGate :=
  { kind := .rc, repository := text "r", candidateSource := text "rc-1", candidateSHA := text "1"
    candidateImageRef := text "i1", candidateGitSHA := text "g", baselineSource := text "rcbase-2"
    baselineSHA := text "2", baselineImageRef := text "i2", baselineGitSHA := text "g"
    duration := hour, startedAt := 0, expiresAt := hour, provisionDeadline := hour
    profiles := [gateWALResetProfile] }

def walResetWorker (id source : String) : Worker :=
  { id := text id, status := .running, source := text source, profileName := gateWALResetProfile
    profileConfig := some { walResetCheck := true }, createdAt := 0 }

def walResetReport (id source sha : String) (deployment : Nat) (checkType restoreMode : Text)
    (passed : Bool) (errorMessage : Text) : Verification :=
  { run :=
      { workloadSHA := [], deploymentID := deployment, validatorID := text "v", workerID := text id
        source := text source, gitSHA := text "g", litestreamSHA := text sha, runID := text "r"
        profileHash := text "p", machineID := text "m" }
    attributed := true, workerID := text id, startedAt := 1, status := text "completed"
    checkType, passed, restoreMode, errorMessage }

/-- The candidate passes a restore and a WAL reset cycle; the baseline passes the restore and fails
the cycle. -/
def walResetDB : DB :=
  { deployments :=
      [{ id := 1, source := text "rc-1", gitSHA := text "g", litestreamSHA := text "1"
         workloadSHA := [], imageRef := text "i1", startedAt := 0 },
        { id := 2, source := text "rcbase-2", gitSHA := text "g", litestreamSHA := text "2"
          workloadSHA := [], imageRef := text "i2", startedAt := 0 }]
    workers := [walResetWorker "w1" "rc-1", walResetWorker "w2" "rcbase-2"]
    verifications :=
      [walResetReport "w1" "rc-1" "1" 1 [] [] true [],
        walResetReport "w1" "rc-1" "1" 1 gateCheckWALReset gateModeWALReset true [],
        walResetReport "w2" "rcbase-2" "2" 2 [] [] true [],
        walResetReport "w2" "rcbase-2" "2" 2 gateCheckWALReset gateModeWALReset false
          (text "wal reset restore failed: restore_decode_error: ltx: checksum mismatch")]
    events := []
    heartbeats := [] }

/-- The signature of `ClassifyVerificationFailure`, as a text. -/
def walResetSignature (checkType errorMessage : Text) : Text :=
  (Reporting.classifyVerificationFailure checkType errorMessage).elim [] fun c =>
    Utf8.toValid c.signature

/-- The gate over `walResetDB` scores two scenarios and passes, so the theorem speaks of both. -/
theorem buildRCGateResults_pass_walReset :
    ∃ results, buildRCGateResults walResetSignature walResetDB walResetGate hour = .ok results ∧
      results.verdict = .pass ∧ results.scenarios.length = 2 ∧
      ∀ result ∈ results.scenarios, ∃ s ∈ scoredScenarios walResetGate, result.scenario = s.name ∧
        ∃ candidate baseline : SideReads,
          readSide walResetDB walResetGate s s.candidateFilter hour = .ok (some candidate) ∧
          readSide walResetDB walResetGate s s.baselineFilter hour = .ok (some baseline) ∧
          (∀ mode, mode ∈ rcGateRequiredModes s result.candidate result.baseline ∨
              (∃ v ∈ candidate.accepted, v.mode = mode) ∨
                (∃ v ∈ baseline.accepted, v.mode = mode) →
            PassedIn mode candidate baseline) ∧
          (s.walReset = true → ∃ v ∈ baseline.accepted,
            v.failed = true ∧ walResetReproduction walResetSignature v = true) := by
  have hrun : ((buildRCGateResults walResetSignature walResetDB walResetGate hour).toOption.any
      fun r => r.verdict = .pass && r.scenarios.length = 2) = true := by decide +kernel
  cases hresults : buildRCGateResults walResetSignature walResetDB walResetGate hour with
  | error e => simp [hresults, Except.toOption] at hrun
  | ok results =>
    simp only [hresults, Except.toOption, Option.any_some, Bool.and_eq_true,
      decide_eq_true_eq] at hrun
    exact ⟨results, rfl, hrun.1, hrun.2, fun _ hresult =>
      buildRCGateResults_pass hresults hrun.1 hresult⟩

end Gate

end LitestreamSoak.Gate
