import LitestreamSoak.Gate.Scenarios

/-!
# Gate — source names and fleets

A gate's two sides are told apart by their source names, `<kind>[-nol9]-<sha8>[-<suffix>]`, and much
is read back from a name alone: whether it is a gate's (`isGateSource`), the kind of the gate
(`gateKindForSource`), the lane variant (`gateLaneVariantForSource`) and, from those, the fleet the
source runs (`GateFleetForSource`). The names are built in one place and parsed in four; this module
has all five.

The sources in a metering window come from the environment and are a parameter (`metered`).
-/

namespace LitestreamSoak.Gate

open Lib List

def rcGateCandidatePrefix : Text := text "rc"
def rcGateBaselinePrefix : Text := text "rcbase"
def upgradeGateCandidatePrefix : Text := text "up"
def upgradeGateBaselinePrefix : Text := text "upbase"

/-! ## §1 — source names -/

def hexDigits : List Char := text "0123456789abcdef"
def alphanumerics : List Char := text "0123456789abcdefghijklmnopqrstuvwxyz"

/-- `[0-9a-z]{1,8}` -/
def suffixPattern : RegularExpression Char := oneOf alphanumerics * atMost (oneOf alphanumerics) 7

/-- `(rc|rcbase|up|upbase)(-nol9)?-[0-9a-f]{8}(-[0-9a-z]{1,8})?` -/
def gateSourceRe : RegularExpression Char :=
  (literal rcGateCandidatePrefix + literal rcGateBaselinePrefix +
      literal upgradeGateCandidatePrefix + literal upgradeGateBaselinePrefix) *
    (optionally (literal (text "-nol9")) *
      (literal (text "-") * (oneOf hexDigits ^ 8 *
        optionally (literal (text "-") * suffixPattern))))

def gateSourceSuffixRe : RegularExpression Char := suffixPattern

def fullCommitSHARe : RegularExpression Char := oneOf hexDigits ^ 40

def isGateSource (source : Text) : Bool := gateSourceRe.rmatch (trimSpace source)

/-- The part before the first dash says the kind. -/
def gateKindForSource (source : Text) : RCGateKind :=
  let start := (trimSpace source).takeWhile (· ≠ '-')
  if start = upgradeGateCandidatePrefix || start = upgradeGateBaselinePrefix then .upgrade else .rc

/-- `up-nol9-<cand8>` is the no-L9 lane; a name with any other number of parts is not. -/
def gateLaneVariantForSource (source : Text) : Text :=
  match (trimSpace source).splitOn '-' with
  | [_, variant, _] => if variant = upgradeLaneVariantNoL9 then upgradeLaneVariantNoL9 else []
  | _ => []

def gateSourceName (start sha suffix : Text) : Text :=
  start ++ text "-" ++ sha.take 8 ++ if suffix ≠ [] then text "-" ++ suffix else []

def gateSourcePrefixes (kind : RCGateKind) (laneVariant : Text) : Text × Text :=
  match kind with
  | .upgrade =>
    if laneVariant ≠ [] then
      (upgradeGateCandidatePrefix ++ text "-" ++ laneVariant,
        upgradeGateBaselinePrefix ++ text "-" ++ laneVariant)
    else (upgradeGateCandidatePrefix, upgradeGateBaselinePrefix)
  | .rc => (rcGateCandidatePrefix, rcGateBaselinePrefix)

/-! ## §2 — fleets -/

/-- The settings of a workload that the gate code reads or sets. -/
structure WorkloadConfig where
  loadMode : Text
  volumeSizeGB : Nat
  memoryMB : Nat
  cpus : Nat
  vfsReaderCheck : Bool := false
  walResetCheck : Bool := false
  ltxCoverageCheck : Bool := false
  upgradeLane : Bool := false
  upgradeDeleteL9AtSwitch : Bool := false
  populateStopOnFailure : Bool := false
  meteringWindow : Bool := false
  s3FaultProxyEnabled : Bool := false
  s3FaultProxyMode : Text := []
deriving DecidableEq

structure DesiredWorker where
  name : Text
  profileName : Text
  region : Text := text "ord"
  volumeSizeGB : Nat
  workload : WorkloadConfig
  source : Text := []
  gitSHA : Text := []
  litestreamSHA : Text := []
  workerID : Text := []
deriving DecidableEq

def synthetic (volumeSizeGB memoryMB cpus : Nat) : WorkloadConfig :=
  { loadMode := text "synthetic", volumeSizeGB, memoryMB, cpus }

def rcGateWorkers : List DesiredWorker :=
  [{ name := text "worker-gate-stress", profileName := gateStressProfile, volumeSizeGB := 20
     workload := synthetic 20 2048 2 },
    { name := text "worker-gate-manydb-500", profileName := gateManyDB500Profile, volumeSizeGB := 15
      workload := { loadMode := text "many-db", volumeSizeGB := 15, memoryMB := 3072, cpus := 2 } },
    { name := text "worker-gate-large-db", profileName := gateLargeDBProfile, volumeSizeGB := 40
      workload := synthetic 40 4096 2 },
    { name := text "worker-gate-remote", profileName := gateRemoteProfile, region := text "ams"
      volumeSizeGB := 10, workload := synthetic 10 1024 1 },
    { name := text "worker-gate-vfs", profileName := gateVFSProfile, volumeSizeGB := 10
      workload := { synthetic 10 2048 2 with vfsReaderCheck := true } },
    { name := text "worker-gate-walreset", profileName := gateWALResetProfile, volumeSizeGB := 10
      workload := { synthetic 10 2048 2 with walResetCheck := true } }]

def upgradeLaneWorker : DesiredWorker :=
  { name := text "worker-gate-upgrade-lane", profileName := gateUpgradeLaneProfile
    volumeSizeGB := 10, workload := { synthetic 10 1024 1 with upgradeLane := true } }

def upgradeFollowWorker : DesiredWorker :=
  { name := text "worker-gate-upgrade-follow", profileName := gateUpgradeFollowProfile
    volumeSizeGB := 10, workload := synthetic 10 1024 1 }

/-- The candidate source runs the lane worker and a follow worker, in the no-L9 variant the lane
worker alone; the baseline source runs the follow worker. -/
def upgradeGateWorkers (source : Text) : List DesiredWorker :=
  if hasPrefix (trimSpace source) (upgradeGateBaselinePrefix ++ text "-") then [upgradeFollowWorker]
  else if gateLaneVariantForSource source = upgradeLaneVariantNoL9 then
    [{ upgradeLaneWorker with
        name := text "worker-gate-upgrade-lane-nol9"
        profileName := gateUpgradeLaneNoL9Profile
        workload := { upgradeLaneWorker.workload with upgradeDeleteL9AtSwitch := true } }]
  else [upgradeLaneWorker, upgradeFollowWorker]

def workerNameForSource (source baseName : Text) : Text :=
  let source := trimSpace source
  let rest :=
    if hasPrefix baseName (text "worker-main-") then baseName.drop 12
    else if hasPrefix baseName (text "worker-") then baseName.drop 7
    else baseName
  if source = [] || source = text "main" then baseName
  else text "worker-" ++ source ++ text "-" ++ rest

def withMeteringWindowObserveProxy (metered : List Text) (w : DesiredWorker) : DesiredWorker :=
  if !metered.contains w.source then w
  else
    let marked := { w with workload := { w.workload with meteringWindow := true } }
    if marked.workload.s3FaultProxyEnabled then marked
    else
      { marked with
        workload :=
          { marked.workload with s3FaultProxyEnabled := true, s3FaultProxyMode := text "observe" } }

def placeWorker (source gitSHA litestreamSHA : Text) (w : DesiredWorker) : DesiredWorker :=
  let name := workerNameForSource source w.name
  { w with
    source, gitSHA, litestreamSHA, name, workerID := name
    workload :=
      { w.workload with
        populateStopOnFailure := true
        ltxCoverageCheck := w.workload.loadMode ≠ text "many-db" } }

def GateFleetForSource (metered : List Text) (source gitSHA litestreamSHA : Text) :
    List DesiredWorker :=
  let source := trimSpace source
  let workers :=
    match gateKindForSource source with
    | .upgrade => upgradeGateWorkers source
    | .rc => rcGateWorkers
  (workers.map (placeWorker source gitSHA litestreamSHA)).map
    (withMeteringWindowObserveProxy metered)

def gateFleetForSource (metered : List Text) (gate : RCGate) (source gitSHA litestreamSHA : Text) :
    List DesiredWorker :=
  (GateFleetForSource metered source gitSHA litestreamSHA).filter fun desired =>
    gateSelectsProfile gate desired.profileName

/-! ## §3 — the profiles of a fleet -/

theorem withMeteringWindowObserveProxy_profileName (metered : List Text) (w : DesiredWorker) :
    (withMeteringWindowObserveProxy metered w).profileName = w.profileName := by
  unfold withMeteringWindowObserveProxy
  split
  · rfl
  · dsimp only
    split <;> rfl

def fleetProfiles (source : Text) : List Text :=
  match gateKindForSource source with
  | .upgrade => (upgradeGateWorkers source).map DesiredWorker.profileName
  | .rc => rcGateWorkers.map DesiredWorker.profileName

theorem GateFleetForSource_profiles (metered : List Text) (source gitSHA litestreamSHA : Text) :
    (GateFleetForSource metered source gitSHA litestreamSHA).map DesiredWorker.profileName =
      fleetProfiles (trimSpace source) := by
  unfold GateFleetForSource fleetProfiles
  rw [map_map, map_map]
  have hkeep : DesiredWorker.profileName ∘ withMeteringWindowObserveProxy metered ∘
      placeWorker (trimSpace source) gitSHA litestreamSHA = DesiredWorker.profileName := by
    funext w
    exact withMeteringWindowObserveProxy_profileName metered _
  rw [Function.comp_assoc, hkeep]
  cases gateKindForSource (trimSpace source) <;> rfl

/-- **A narrowed fleet runs a profile** exactly where the source's fleet has it and the gate
selects it. -/
theorem exists_mem_gateFleetForSource {metered : List Text} {gate : RCGate}
    {source gitSHA litestreamSHA profile : Text} :
    (∃ w ∈ gateFleetForSource metered gate source gitSHA litestreamSHA, w.profileName = profile) ↔
      profile ∈ fleetProfiles (trimSpace source) ∧ gateSelectsProfile gate profile = true := by
  grind [GateFleetForSource_profiles, gateFleetForSource]

/-! ## §4 — names read back

A built name is a start, a dash, eight hex digits and, with a suffix, a dash and the suffix. None of
the variable parts has a dash or a space, so the parsers see exactly the parts that were put in. -/

variable {sha suffix start : Text}

def ShortSHA (sha : Text) : Prop := (sha.take 8).length = 8 ∧ ∀ c ∈ sha.take 8, c ∈ hexDigits

/-- A suffix that the request check lets through; empty for none. -/
def SuffixOK (suffix : Text) : Prop :=
  suffix = [] ∨ (1 ≤ suffix.length ∧ suffix.length ≤ 8 ∧ ∀ c ∈ suffix, c ∈ alphanumerics)

theorem shortSHA_of_rmatch (h : fullCommitSHARe.rmatch sha = true) : ShortSHA sha := by
  grind [RegularExpression.rmatch_iff_matches', fullCommitSHARe, mem_oneOf_pow, ShortSHA]

theorem mem_suffixPattern {s : Text} :
    s ∈ suffixPattern.matches' ↔ 1 ≤ s.length ∧ s.length ≤ 8 ∧ ∀ c ∈ s, c ∈ alphanumerics := by
  rw [suffixPattern, mem_mul]
  constructor
  · rintro ⟨a, ha, b, hb, rfl⟩
    obtain ⟨c, hc, rfl⟩ := mem_oneOf.mp ha
    obtain ⟨hlen, hall⟩ := mem_atMost_oneOf.mp hb
    grind
  · rintro ⟨hpos, hlen, hall⟩
    cases s with
    | nil => simp at hpos
    | cons c rest =>
      have hall := forall_mem_cons.mp hall
      have hrest : rest.length ≤ 7 := by
        rw [length_cons] at hlen
        omega
      exact ⟨[c], mem_oneOf.mpr ⟨c, hall.1, rfl⟩, rest, mem_atMost_oneOf.mpr ⟨hrest, hall.2⟩, rfl⟩

theorem suffixOK_of_check
    (h : (suffix ≠ [] && !gateSourceSuffixRe.rmatch suffix) = false) : SuffixOK suffix := by
  grind [RegularExpression.rmatch_iff_matches', gateSourceSuffixRe, mem_suffixPattern, SuffixOK]

/-- What source names start with, `gateSourcePrefixes` over every kind and variant. -/
def gateSourceStarts : List Text :=
  [rcGateCandidatePrefix, rcGateBaselinePrefix, upgradeGateCandidatePrefix,
    upgradeGateBaselinePrefix, upgradeGateCandidatePrefix ++ text "-" ++ upgradeLaneVariantNoL9,
    upgradeGateBaselinePrefix ++ text "-" ++ upgradeLaneVariantNoL9]

theorem start_plain (hstart : start ∈ gateSourceStarts) : ∀ c ∈ start, isSpace c = false := by
  have hall : (gateSourceStarts.all fun start => start.all fun c => !isSpace c) = true := by decide
  intro c hc
  simpa using all_eq_true.mp (all_eq_true.mp hall start hstart) c hc

theorem alphanumeric_plain {c : Char} (hc : c ∈ alphanumerics) : isSpace c = false ∧ c ≠ '-' := by
  have hall : (alphanumerics.all fun c => !isSpace c && c != '-') = true := by decide
  simpa using all_eq_true.mp hall c hc

theorem hexDigits_subset {c : Char} (hc : c ∈ hexDigits) : c ∈ alphanumerics := by
  have hall : (hexDigits.all fun c => alphanumerics.contains c) = true := by decide
  simpa using all_eq_true.mp hall c hc

theorem text_dash : text "-" = ['-'] := rfl

theorem mem_gateSourceName (hsha : ShortSHA sha)
    (hsuffix : SuffixOK suffix) {c : Char} (hc : c ∈ gateSourceName start sha suffix) :
    c ∈ start ∨ c = '-' ∨ c ∈ alphanumerics := by
  have hsha' : c ∈ sha.take 8 → c ∈ alphanumerics := fun h => hexDigits_subset (hsha.2 c h)
  have hsuffix' : c ∈ suffix → c ∈ alphanumerics := by
    rcases hsuffix with rfl | h
    · simp
    · exact h.2.2 c
  grind [gateSourceName]

theorem trimSpace_gateSourceName (hsha : ShortSHA sha)
    (hsuffix : SuffixOK suffix) (hstart : start ∈ gateSourceStarts) :
    trimSpace (gateSourceName start sha suffix) = gateSourceName start sha suffix := by
  apply trimSpace_of_forall
  intro c hc
  rcases mem_gateSourceName hsha hsuffix hc with h | rfl | h
  · exact start_plain hstart c h
  · decide
  · exact (alphanumeric_plain h).1

/-- **The parts of a built name**: those of its start, the short commit, and the suffix. -/
theorem splitOn_gateSourceName (hsha : ShortSHA sha)
    (hsuffix : SuffixOK suffix) :
    (gateSourceName start sha suffix).splitOn '-' =
      start.splitOn '-' ++ [sha.take 8] ++ if suffix = [] then [] else [suffix] := by
  have hsha' : '-' ∉ sha.take 8 := fun h =>
    (alphanumeric_plain (hexDigits_subset (hsha.2 _ h))).2 rfl
  rcases hsuffix with rfl | hsuffix
  · grind [gateSourceName, splitOn_append_cons_self, splitOn_eq_singleton]
  · have hne : suffix ≠ [] := by
      rintro rfl
      simp at hsuffix
    have hsuffix' : '-' ∉ suffix := fun h => (alphanumeric_plain (hsuffix.2.2 _ h)).2 rfl
    have hname : gateSourceName start sha suffix =
        start ++ '-' :: (sha.take 8 ++ '-' :: suffix) := by
      simp [gateSourceName, hne, text_dash]
    rw [hname, splitOn_append_cons_self, splitOn_append_cons_self,
      splitOn_eq_singleton hsha', splitOn_eq_singleton hsuffix']
    simp [hne]

theorem isGateSource_gateSourceName (hsha : ShortSHA sha)
    (hsuffix : SuffixOK suffix) (hstart : start ∈ gateSourceStarts) :
    isGateSource (gateSourceName start sha suffix) = true := by
  have hsplit : ∀ start ∈ gateSourceStarts, ∃ kind ∈ [rcGateCandidatePrefix, rcGateBaselinePrefix,
      upgradeGateCandidatePrefix, upgradeGateBaselinePrefix], ∃ variant ∈ [[], text "-nol9"],
        start = kind ++ variant := by decide
  rw [isGateSource, trimSpace_gateSourceName hsha hsuffix hstart,
    RegularExpression.rmatch_iff_matches', gateSourceRe]
  obtain ⟨kind, hkind, variant, hvariant, rfl⟩ := hsplit start hstart
  -- one piece of the name for each factor of the pattern
  refine mem_mul.mpr ⟨kind, ?_, variant ++ (text "-" ++ (sha.take 8 ++
    if suffix ≠ [] then text "-" ++ suffix else [])),
      mem_mul.mpr ⟨variant, mem_optionally.mpr ?_, _,
      mem_mul.mpr ⟨text "-", mem_literal.mpr rfl, _,
        mem_mul.mpr ⟨sha.take 8, mem_oneOf_pow.mpr hsha, _, ?_, rfl⟩, rfl⟩, rfl⟩, ?_⟩
  · simp only [RegularExpression.matches'_add, Language.mem_add, mem_literal]
    simpa [or_assoc] using hkind
  · rw [mem_literal]
    simpa using hvariant
  · rcases hsuffix with rfl | hsuffix
    · exact mem_optionally.mpr (Or.inl rfl)
    · have hne : suffix ≠ [] := by
        rintro rfl
        simp at hsuffix
      rw [if_pos hne]
      exact mem_optionally.mpr (Or.inr (mem_mul.mpr ⟨text "-", mem_literal.mpr rfl, suffix,
        mem_suffixPattern.mpr hsuffix, rfl⟩))
  · simp [gateSourceName]

theorem takeWhile_start (start rest : Text) :
    (start ++ text "-" ++ rest).takeWhile (· ≠ '-') =
      (start ++ text "-").takeWhile (· ≠ '-') := by
  induction start with
  | nil => rfl
  | cons c start ih =>
    by_cases hc : c = '-'
    · simp [hc]
    · simpa [takeWhile_cons, hc] using ih

theorem gateKindForSource_gateSourceName (hsha : ShortSHA sha)
    (hsuffix : SuffixOK suffix) (hstart : start ∈ gateSourceStarts) :
    gateKindForSource (gateSourceName start sha suffix) =
      gateKindForSource (start ++ text "-") := by
  have htrim : ∀ start ∈ gateSourceStarts, trimSpace (start ++ text "-") = start ++ text "-" := by
    decide
  grind [gateSourceName, gateKindForSource, trimSpace_gateSourceName, takeWhile_start]

theorem gateLaneVariantForSource_of_plain (hsha : ShortSHA sha)
    (hsuffix : SuffixOK suffix) (hstart : start ∈ gateSourceStarts)
    (hsplit : start.splitOn '-' = [start]) :
    gateLaneVariantForSource (gateSourceName start sha suffix) = [] := by
  have hne : sha.take 8 ≠ upgradeLaneVariantNoL9 := by
    intro heq
    have hlen := hsha.1
    rw [heq] at hlen
    revert hlen
    decide
  grind [gateLaneVariantForSource, trimSpace_gateSourceName, splitOn_gateSourceName]

/-- **A no-L9 name** has three parts, and is read back as one, only without a suffix. -/
theorem gateLaneVariantForSource_of_nol9 {first : Text} (hsha : ShortSHA sha)
    (hsuffix : SuffixOK suffix) (hstart : start ∈ gateSourceStarts)
    (hsplit : start.splitOn '-' = [first, upgradeLaneVariantNoL9]) :
    gateLaneVariantForSource (gateSourceName start sha suffix) =
      if suffix = [] then upgradeLaneVariantNoL9 else [] := by
  grind [gateLaneVariantForSource, trimSpace_gateSourceName, splitOn_gateSourceName]

end LitestreamSoak.Gate
