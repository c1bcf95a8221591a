import LitestreamSoak.Gate.Fleet
import LitestreamSoak.Lib.Procedure
import LitestreamSoak.Lib.Table

/-!
# Gate — registration

`RegisterRCGate` validates a request, builds the gate record and stores it. A gate is worth its
machines only if it can both fail and be covered; `Accountable` says that in terms of the record:
its source names are gate sources that parse back to its kind and lane variant, it scores at least
one scenario, and each side of a scored scenario is scored on a profile its source's fleet runs.
-/

namespace LitestreamSoak.Gate

open Lib List

def rcGateUpstreamRepository : Text := text "benbjohnson/litestream"
def upgradeGateDefaultDuration : Text := text "24h0m0s"
def upgradeGateDefaultWarmup : Duration := 2 * hour
def rcGateMaxDuration : Duration := 7 * 24 * hour
def rcGateProvisionTimeout : Duration := 2 * hour
def rcGateTailDuration : Duration := 7 * 24 * hour

/-! ## §1 — the request -/

structure RCGateRequest where
  kind : Text := []
  repository : Text
  candidateRef : Text := []
  candidateSHA : Text
  baselineSHA : Text
  duration : Text
  upgradeWarmup : Text := []
  laneVariant : Text := []
  tail : Bool := false
  profiles : List Text := []
  sourceSuffix : Text := []
  observeProxy : Bool := false

inductive RegisterError where
  | kind
  | repository
  | commitSHAs
  | sameCommit
  | duration
  | upgradeTail
  | upgradeWarmup
  | warmupNotShorter (warmup duration : Duration)
  | warmupNotUpgrade
  | laneVariantNotUpgrade
  | laneVariant
  | profile (name : Text) (kind : RCGateKind)
  | tailWithoutStress
  | sourceSuffix
  | meteredSource (source : Text)
  | sourceActive
  | store
deriving DecidableEq

def parseRCGateKind (raw : Text) : Except RegisterError RCGateKind :=
  let kind := trimSpace raw
  if kind = [] || kind = text "rc" then .ok .rc
  else if kind = text "upgrade" then .ok .upgrade
  else .error .kind

def parseLaneVariant (raw : Text) (kind : RCGateKind) : Except RegisterError Text :=
  let variant := trimSpace raw
  if variant = [] then .ok []
  else if kind ≠ .upgrade then .error .laneVariantNotUpgrade
  else if variant = upgradeLaneVariantNoL9 then .ok variant
  else .error .laneVariant

def wantedProfiles (requested : List Text) : List Text :=
  (requested.map trimSpace).filter (· ≠ [])

def kindProfiles (metered : List Text) (kind : RCGateKind) (laneVariant : Text) : List Text :=
  let (candidate, baseline) := gateSourcePrefixes kind laneVariant
  [candidate ++ text "-00000000", baseline ++ text "-00000000"].flatMap fun source =>
    (GateFleetForSource metered source [] []).map DesiredWorker.profileName

def selectWanted (wanted selected : List Text) (profile : Text) : List Text :=
  if wanted.contains profile && !selected.contains profile then selected ++ [profile] else selected

/-- A requested subset in fleet order; no profile at all means the whole fleet. -/
def normalizeGateProfiles (metered : List Text) (kind : RCGateKind) (laneVariant : Text)
    (requested : List Text) : Except RegisterError (List Text) :=
  let wanted := wantedProfiles requested
  if wanted = [] then .ok []
  else
    let selected := (kindProfiles metered kind laneVariant).foldl (selectWanted wanted) []
    match wanted.find? fun profile => !selected.contains profile with
    | some profile => .error (.profile profile kind)
    | none => .ok selected

def parseUpgradeWarmup (request : RCGateRequest) (kind : RCGateKind) (duration : Duration) :
    Except RegisterError Duration :=
  match kind with
  | .upgrade =>
    if request.tail then .error .upgradeTail
    else
      let given := trimSpace request.upgradeWarmup
      match if given = [] then some upgradeGateDefaultWarmup else parseDuration given with
      | none => .error .upgradeWarmup
      | some warmup =>
        if warmup ≤ 0 then .error .upgradeWarmup
        else if duration ≤ warmup then .error (.warmupNotShorter warmup duration)
        else .ok warmup
  | .rc => if trimSpace request.upgradeWarmup ≠ [] then .error .warmupNotUpgrade else .ok 0

def parseGateDuration (request : RCGateRequest) (kind : RCGateKind) :
    Except RegisterError Duration :=
  let given := trimSpace request.duration
  let given := if given = [] && kind = .upgrade then upgradeGateDefaultDuration else given
  match parseDuration given with
  | none => .error .duration
  | some duration =>
    if duration ≤ 0 || rcGateMaxDuration < duration then .error .duration else .ok duration

/-! ## §2 — the gate a request builds -/

def gateHasProfile (metered : List Text) (gate : RCGate) (profile : Text) : Bool :=
  gate.sources.any fun source =>
    (gateFleetForSource metered gate source [] []).any fun desired => desired.profileName = profile

def rcGateProfileWindow (metered : List Text) (gate : RCGate) (profile : Text) : Option Time :=
  if !gateHasProfile metered gate profile then none
  else
    let tailExpiry :=
      if gate.tail && profile = gateStressProfile then gate.tailExpiresAt else none
    match gate.status with
    | .running => some (tailExpiry.getD gate.expiresAt)
    | .tail => tailExpiry
    | _ => none

def effectiveDesiredVolumeSize (desired : DesiredWorker) : Nat :=
  if 0 < desired.volumeSizeGB then desired.volumeSizeGB
  else if 0 < desired.workload.volumeSizeGB then desired.workload.volumeSizeGB
  else 10

def gateResources (metered : List Text) (gate : RCGate) : List RCGateResource :=
  gate.sources.flatMap fun source =>
    (gateFleetForSource metered gate source [] (gate.litestreamSHAFor source)).map fun desired =>
      { source
        workerName := desired.name
        profile := desired.profileName
        region := firstNonEmpty [trimSpace desired.region, text "ord"]
        cpus := desired.workload.cpus
        memoryMB := desired.workload.memoryMB
        volumeGB := effectiveDesiredVolumeSize desired
        tail := gate.tail && desired.profileName = gateStressProfile
        startedAt := gate.startedAt
        expiresAt := (rcGateProfileWindow metered gate desired.profileName).getD 0 }

structure GateParts where
  kind : RCGateKind
  laneVariant : Text
  candidateSHA : Text
  baselineSHA : Text
  duration : Duration
  warmup : Duration
  profiles : List Text
  suffix : Text

def refuseIf (bad : Bool) (e : RegisterError) : Except RegisterError Unit :=
  if bad then .error e else .ok ()

def validateRequest (metered : List Text) (request : RCGateRequest) :
    Except RegisterError GateParts := do
  let kind ← parseRCGateKind request.kind
  refuseIf (trimSpace request.repository ≠ rcGateUpstreamRepository) .repository
  let candidateSHA := trimSpace request.candidateSHA
  let baselineSHA := trimSpace request.baselineSHA
  refuseIf (!fullCommitSHARe.rmatch candidateSHA || !fullCommitSHARe.rmatch baselineSHA) .commitSHAs
  refuseIf (candidateSHA = baselineSHA) .sameCommit
  let duration ← parseGateDuration request kind
  let warmup ← parseUpgradeWarmup request kind duration
  let laneVariant ← parseLaneVariant request.laneVariant kind
  let profiles ← normalizeGateProfiles metered kind laneVariant request.profiles
  refuseIf (request.tail && profiles ≠ [] && !profiles.contains gateStressProfile)
    .tailWithoutStress
  let suffix := trimSpace request.sourceSuffix
  refuseIf (suffix ≠ [] && !gateSourceSuffixRe.rmatch suffix) .sourceSuffix
  return { kind, laneVariant, candidateSHA, baselineSHA, duration, warmup, profiles, suffix }

/-- The record built from the validated parts, before its resources are listed. -/
def GateParts.gate (parts : GateParts) (request : RCGateRequest) (now : Time) : RCGate :=
  let (candidate, baseline) := gateSourcePrefixes parts.kind parts.laneVariant
  { kind := parts.kind
    laneVariant := parts.laneVariant
    repository := trimSpace request.repository
    candidateRef := trimSpace request.candidateRef
    candidateSource := gateSourceName candidate parts.candidateSHA parts.suffix
    candidateSHA := parts.candidateSHA
    baselineSource := gateSourceName baseline parts.baselineSHA parts.suffix
    baselineSHA := parts.baselineSHA
    duration := parts.duration
    upgradeWarmup := parts.warmup
    tail := request.tail
    profiles := parts.profiles
    observeProxy := request.observeProxy
    startedAt := now
    expiresAt := now + parts.duration
    tailExpiresAt := if request.tail then some (now + rcGateTailDuration) else none
    provisionDeadline := now + rcGateProvisionTimeout }

def newRCGate (metered : List Text) (request : RCGateRequest) (now : Time) :
    Except RegisterError RCGate := do
  let parts ← validateRequest metered request
  let gate := parts.gate request now
  match gate.sources.find? fun source => gate.observeProxy && metered.contains source with
  | some source => throw (.meteredSource source)
  | none => return { gate with resources := gateResources metered gate }

/-! ## §3 — storing it -/

def RCGate.closed (g : RCGate) : Bool := g.status = .completed || g.status = .aborted

def joinGateProfiles (profiles : List Text) : Text := [','].intercalate profiles

def splitGateProfiles (raw : Text) : List Text := ((raw.splitOn ',').map trimSpace).filter (· ≠ [])

def RCGate.readBack (g : RCGate) : RCGate :=
  { g with
    duration := g.duration.tdiv second * second
    upgradeWarmup := g.upgradeWarmup.tdiv second * second
    profiles := splitGateProfiles (joinGateProfiles g.profiles) }

abbrev GateTable := Table RCGate.id

/-- Whether an open gate has one of the two sources, in either role. -/
def overlapping (gates : GateTable) (gate : RCGate) : Bool :=
  gates.rows.any fun g => !g.closed && g.sources.any gate.sources.contains

def activeRCGateForSource (gates : GateTable) (source : Text) : Option RCGate :=
  (gates.rows.filter fun g => !g.closed && g.sources.contains (trimSpace source)).getLast?

/-- The fields `RegisterRCGate` compares with an open gate's. -/
def RCGate.sameRequest (existing gate : RCGate) : Bool :=
  existing.kind = gate.kind && existing.laneVariant = gate.laneVariant &&
    existing.repository = gate.repository && existing.candidateSHA = gate.candidateSHA &&
    existing.baselineSHA = gate.baselineSHA && existing.duration = gate.duration &&
    existing.upgradeWarmup = gate.upgradeWarmup && existing.tail = gate.tail &&
    existing.profiles = gate.profiles && existing.observeProxy = gate.observeProxy

structure StoreFaults where
  create : Bool := false
  lookup : Bool := false

/-- `RegisterRCGate`: the answer (the gate, and whether it was created) and the stored gates. -/
def registerRCGate (metered : List Text) (faults : StoreFaults) (gates : GateTable)
    (request : RCGateRequest) (now : Time) : Except RegisterError (RCGate × Bool) × GateTable :=
  match newRCGate metered request now with
  | .error e => (.error e, gates)
  | .ok gate =>
    if faults.create then (.error .store, gates)
    else if overlapping gates gate then
      if faults.lookup then (.error .store, gates)
      else
        match activeRCGateForSource gates gate.candidateSource with
        | some existing =>
          if existing.sameRequest gate then (.ok (existing, false), gates)
          else (.error .sourceActive, gates)
        | none => (.error .sourceActive, gates)
    else
      (.ok ({ gate with id := gates.maxKey + 1 }, true),
        gates.append (fun id => { gate.readBack with id }) fun _ => rfl)

/-! ## §4 — what registration should guarantee -/

/-- **A gate that can fail and be covered.** -/
structure Accountable (metered : List Text) (gate : RCGate) : Prop where
  sources_parse : ∀ source ∈ gate.sources, isGateSource source = true ∧
    gateKindForSource source = gate.kind ∧ gateLaneVariantForSource source = gate.laneVariant
  scored : scoredScenarios gate ≠ []
  sides_run : ∀ s ∈ scoredScenarios gate, ∀ f ∈ [s.candidateFilter, s.baselineFilter],
    ∃ w ∈ gateFleetForSource metered gate (f.sourceFor gate) [] [], w.profileName = s.sideProfile f

instance (metered : List Text) (gate : RCGate) : Decidable (Accountable metered gate) :=
  decidable_of_iff
    ((∀ source ∈ gate.sources, isGateSource source = true ∧
      gateKindForSource source = gate.kind ∧ gateLaneVariantForSource source = gate.laneVariant) ∧
      scoredScenarios gate ≠ [] ∧
      ∀ s ∈ scoredScenarios gate, ∀ f ∈ [s.candidateFilter, s.baselineFilter],
        ∃ w ∈ gateFleetForSource metered gate (f.sourceFor gate) [] [],
          w.profileName = s.sideProfile f)
    ⟨fun ⟨hparse, hscored, hrun⟩ => ⟨hparse, hscored, hrun⟩,
      fun ⟨hparse, hscored, hrun⟩ => ⟨hparse, hscored, hrun⟩⟩

/-- **The requests that lead to one**: a lane variant and a source suffix exclude each other, and a
profile subset of an upgrade gate has the follow worker and, in the no-L9 variant, the lane. -/
def RCGateRequest.Coverable (request : RCGateRequest) : Prop :=
  (trimSpace request.laneVariant = [] ∨ trimSpace request.sourceSuffix = []) ∧
    (trimSpace request.kind = text "upgrade" → wantedProfiles request.profiles = [] ∨
      (gateUpgradeFollowProfile ∈ wantedProfiles request.profiles ∧
        (trimSpace request.laneVariant ≠ [] →
          gateUpgradeLaneNoL9Profile ∈ wantedProfiles request.profiles)))

instance (request : RCGateRequest) : Decidable request.Coverable := by
  unfold RCGateRequest.Coverable
  infer_instance

/-! ## §5 — the validated parts -/

variable {request : RCGateRequest}

/-- What the checks establish, as far as names, scenarios and fleets depend on it. -/
structure PartsOf (metered : List Text) (request : RCGateRequest) (parts : GateParts) : Prop where
  kind : parseRCGateKind request.kind = .ok parts.kind
  laneVariant : parseLaneVariant request.laneVariant parts.kind = .ok parts.laneVariant
  profiles :
    normalizeGateProfiles metered parts.kind parts.laneVariant request.profiles = .ok parts.profiles
  candidateSHA : ShortSHA parts.candidateSHA
  baselineSHA : ShortSHA parts.baselineSHA
  suffix_eq : parts.suffix = trimSpace request.sourceSuffix
  suffix : SuffixOK parts.suffix

theorem refuseIf_eq_ok {bad : Bool} {e : RegisterError} {u : Unit} (h : refuseIf bad e = .ok u) :
    bad = false := by
  unfold refuseIf at h
  split at h
  · cases h
  · next hbad => simpa using hbad

theorem partsOf_validateRequest {metered : List Text} {parts : GateParts}
    (h : validateRequest metered request = .ok parts) : PartsOf metered request parts := by
  unfold validateRequest at h
  obtain ⟨kind, hkind, h⟩ := exists_of_bind_eq_ok h
  obtain ⟨_, -, h⟩ := exists_of_bind_eq_ok h
  obtain ⟨_, hshas, h⟩ := exists_of_bind_eq_ok h
  obtain ⟨_, -, h⟩ := exists_of_bind_eq_ok h
  obtain ⟨duration, -, h⟩ := exists_of_bind_eq_ok h
  obtain ⟨warmup, -, h⟩ := exists_of_bind_eq_ok h
  obtain ⟨laneVariant, hvariant, h⟩ := exists_of_bind_eq_ok h
  obtain ⟨profiles, hprofiles, h⟩ := exists_of_bind_eq_ok h
  obtain ⟨_, -, h⟩ := exists_of_bind_eq_ok h
  obtain ⟨_, hsuffix, h⟩ := exists_of_bind_eq_ok h
  cases h
  have hshas := refuseIf_eq_ok hshas
  simp only [Bool.or_eq_false_iff, Bool.not_eq_false'] at hshas
  exact ⟨hkind, hvariant, hprofiles, shortSHA_of_rmatch hshas.1, shortSHA_of_rmatch hshas.2, rfl,
    suffixOK_of_check (refuseIf_eq_ok hsuffix)⟩

theorem partsOf_newRCGate {metered : List Text} {now : Time}
    {gate : RCGate} (h : newRCGate metered request now = .ok gate) :
    ∃ parts, PartsOf metered request parts ∧
      gate = { parts.gate request now with
        resources := gateResources metered (parts.gate request now) } := by
  unfold newRCGate at h
  obtain ⟨parts, hparts, h⟩ := exists_of_bind_eq_ok h
  refine ⟨parts, partsOf_validateRequest hparts, ?_⟩
  dsimp only at h
  split at h
  · cases h
  · cases h
    rfl

section Parts

variable {metered : List Text} {request : RCGateRequest} {parts : GateParts}

theorem PartsOf.kind_eq (h : PartsOf metered request parts) :
    parts.kind = .upgrade ↔ trimSpace request.kind = text "upgrade" := by
  have hkind := h.kind
  unfold parseRCGateKind at hkind
  dsimp only at hkind
  split at hkind
  · grind
  · split at hkind
    · next hup =>
      rw [← Except.ok.inj hkind]
      simp [hup]
    · cases hkind

theorem PartsOf.laneVariant_cases (h : PartsOf metered request parts) :
    parts.laneVariant = trimSpace request.laneVariant ∧
      (parts.laneVariant = [] ∨
        (parts.laneVariant = upgradeLaneVariantNoL9 ∧ parts.kind = .upgrade)) := by
  have hvariant := h.laneVariant
  -- the one variant there is needs an upgrade gate
  grind [parseLaneVariant]

theorem mem_foldl_select {wanted l acc : List Text} {p : Text} :
    p ∈ l.foldl (selectWanted wanted) acc ↔ p ∈ acc ∨ (p ∈ l ∧ p ∈ wanted) := by
  induction l generalizing acc with
  | nil => simp
  | cons q l ih =>
    rw [foldl_cons, ih, selectWanted]
    by_cases hw : q ∈ wanted <;> by_cases hs : q ∈ acc <;> simp [hw, hs] <;> grind

theorem PartsOf.mem_profiles (h : PartsOf metered request parts) (p : Text) :
    (p ∈ parts.profiles ↔ p ∈ wantedProfiles request.profiles) ∧
      (p ∈ parts.profiles → p ∈ kindProfiles metered parts.kind parts.laneVariant) := by
  have hprofiles := h.profiles
  -- no profile is wanted, one is unknown, or the wanted ones are selected
  grind [normalizeGateProfiles, mem_foldl_select]

end Parts

/-! ## §6 — tables and fleets -/

/-- Whether every side of the selected scenarios of a table runs, for a candidate fleet with the
profiles `c` and a baseline fleet with the profiles `b`. -/
def sidesRun (table : List GateScenario) (c b : List Text) (sel : Text → Bool) : Bool :=
  table.all fun s => !sel s.profile || [s.candidateFilter, s.baselineFilter].all fun f =>
    (if f.role = some .baseline then b else c).contains (s.sideProfile f) && sel (s.sideProfile f)

theorem sides_run_iff (metered : List Text) (gate : RCGate)
    (hc : trimSpace gate.candidateSource = gate.candidateSource)
    (hb : trimSpace gate.baselineSource = gate.baselineSource) :
    (∀ s ∈ scoredScenarios gate, ∀ f ∈ [s.candidateFilter, s.baselineFilter],
      ∃ w ∈ gateFleetForSource metered gate (f.sourceFor gate) [] [],
        w.profileName = s.sideProfile f) ↔
      sidesRun (gateScenariosFor gate) (fleetProfiles gate.candidateSource)
        (fleetProfiles gate.baselineSource) (gateSelectsProfile gate) = true := by
  have hside : ∀ s : GateScenario, ∀ f : GateSideFilter,
      (∃ w ∈ gateFleetForSource metered gate (f.sourceFor gate) [] [],
        w.profileName = s.sideProfile f) ↔
      ((if f.role = some .baseline then fleetProfiles gate.baselineSource
        else fleetProfiles gate.candidateSource).contains (s.sideProfile f) &&
          gateSelectsProfile gate (s.sideProfile f)) = true := by
    intro s f
    rw [exists_mem_gateFleetForSource, Bool.and_eq_true]
    unfold GateSideFilter.sourceFor
    split
    · rw [hb, contains_iff_mem]
    · rw [hc, contains_iff_mem]
  -- a scenario that is not selected asks for nothing
  grind [sidesRun, scoredScenarios]

theorem sidesRun_upgrade (sel : Text → Bool) :
    sidesRun upgradeGateScenarios [gateUpgradeLaneProfile, gateUpgradeFollowProfile]
        [gateUpgradeFollowProfile] sel =
      (!sel gateUpgradeLaneProfile || sel gateUpgradeFollowProfile) := by
  have htable : sidesRun upgradeGateScenarios [gateUpgradeLaneProfile, gateUpgradeFollowProfile]
        [gateUpgradeFollowProfile] sel =
      [(gateUpgradeLaneProfile, [gateUpgradeLaneProfile, gateUpgradeLaneProfile]),
        (gateUpgradeLaneProfile, [gateUpgradeLaneProfile, gateUpgradeLaneProfile]),
        (gateUpgradeLaneProfile, [gateUpgradeLaneProfile, gateUpgradeFollowProfile]),
        (gateUpgradeFollowProfile, [gateUpgradeFollowProfile, gateUpgradeFollowProfile]),
        (gateUpgradeLaneProfile, [gateUpgradeLaneProfile, gateUpgradeLaneProfile]),
        (gateUpgradeFollowProfile, [gateUpgradeFollowProfile, gateUpgradeFollowProfile])].all
          fun (p, sides) => !sel p || sides.all sel := rfl
  rw [htable]
  cases hl : sel gateUpgradeLaneProfile <;> cases hf : sel gateUpgradeFollowProfile <;>
    simp [hl, hf]

theorem sidesRun_nol9 (sel : Text → Bool) :
    sidesRun upgradeGateNoL9Scenarios [gateUpgradeLaneNoL9Profile] [gateUpgradeFollowProfile] sel =
      (!sel gateUpgradeLaneNoL9Profile || sel gateUpgradeFollowProfile) := by
  have htable : sidesRun upgradeGateNoL9Scenarios [gateUpgradeLaneNoL9Profile]
        [gateUpgradeFollowProfile] sel =
      [(gateUpgradeLaneNoL9Profile, [gateUpgradeLaneNoL9Profile, gateUpgradeLaneNoL9Profile]),
        (gateUpgradeLaneNoL9Profile, [gateUpgradeLaneNoL9Profile, gateUpgradeLaneNoL9Profile]),
        (gateUpgradeLaneNoL9Profile, [gateUpgradeLaneNoL9Profile, gateUpgradeFollowProfile]),
        (gateUpgradeLaneNoL9Profile, [gateUpgradeLaneNoL9Profile, gateUpgradeLaneNoL9Profile])].all
          fun (p, sides) => !sel p || sides.all sel := rfl
  grind

def rcProfiles : List Text := rcGateWorkers.map DesiredWorker.profileName

theorem sidesRun_rc (sel : Text → Bool) :
    sidesRun rcGateScenarios rcProfiles rcProfiles sel = true := by
  have hown : ∀ s ∈ rcGateScenarios, ∀ f ∈ [s.candidateFilter, s.baselineFilter],
      s.sideProfile f = s.profile ∧ rcProfiles.contains s.profile = true := by decide
  -- each side of a scenario runs the scenario's own profile
  grind [sidesRun]

/-! ## §7 — which accepted requests lead to an accountable gate -/

section Accountability

variable {metered : List Text} {request : RCGateRequest} {parts : GateParts} {gate : RCGate}
  {start sha suffix : Text}

theorem mem_kindProfiles_rc {p : Text} (h : p ∈ kindProfiles metered .rc []) : p ∈ rcProfiles := by
  unfold kindProfiles at h
  simp only [gateSourcePrefixes, flatMap_cons, flatMap_nil, append_nil,
    GateFleetForSource_profiles] at h
  rcases mem_append.mp h with h | h
  · exact h
  · exact h

theorem PartsOf.selects (h : PartsOf metered request parts)
    (hgate : gate.profiles = parts.profiles) (p : Text) (hp : p ∉ gateOptInProfiles) :
    gateSelectsProfile gate p = true ↔
      wantedProfiles request.profiles = [] ∨ p ∈ wantedProfiles request.profiles := by
  have hnil : parts.profiles = [] ↔ wantedProfiles request.profiles = [] := by
    simp only [eq_nil_iff_forall_not_mem, fun q => (h.mem_profiles q).1]
  unfold gateSelectsProfile RCGate.selectsProfile
  rw [hgate]
  by_cases hempty : parts.profiles = []
  · simp [hempty, hnil.mp hempty, hp]
  · have hne := mt hnil.mpr hempty
    simp [hempty, hne, (h.mem_profiles p).1]

structure BuiltFrom (parts : GateParts) (candidate baseline : Text) (gate : RCGate) : Prop where
  kind : gate.kind = parts.kind
  laneVariant : gate.laneVariant = parts.laneVariant
  profiles : gate.profiles = parts.profiles
  candidateSource : gate.candidateSource = gateSourceName candidate parts.candidateSHA parts.suffix
  baselineSource : gate.baselineSource = gateSourceName baseline parts.baselineSHA parts.suffix

theorem scoredScenarios_ne_nil :
    scoredScenarios gate ≠ [] ↔
      ∃ s ∈ gateScenariosFor gate, gateSelectsProfile gate s.profile = true := by
  unfold scoredScenarios
  simp [filter_eq_nil_iff]

/-- Names that are read back right, and hence also untouched by trimming. -/
structure ReadBack (source : Text) (kind : RCGateKind) (laneVariant : Text) : Prop where
  isGateSource : isGateSource source = true
  kind : gateKindForSource source = kind
  laneVariant : gateLaneVariantForSource source = laneVariant
  trim : trimSpace source = source

theorem readBack_plain (hsha : ShortSHA sha) (hsuffix : SuffixOK suffix)
    (hstart : start ∈ gateSourceStarts) (hsplit : start.splitOn '-' = [start]) :
    ReadBack (gateSourceName start sha suffix) (gateKindForSource (start ++ text "-")) [] :=
  ⟨isGateSource_gateSourceName hsha hsuffix hstart,
    gateKindForSource_gateSourceName hsha hsuffix hstart,
    gateLaneVariantForSource_of_plain hsha hsuffix hstart hsplit,
    trimSpace_gateSourceName hsha hsuffix hstart⟩

theorem accountable_iff_table {table : List GateScenario} {c b : List Text}
    (hc : ReadBack gate.candidateSource gate.kind gate.laneVariant)
    (hb : ReadBack gate.baselineSource gate.kind gate.laneVariant)
    (htable : gateScenariosFor gate = table) (hcf : fleetProfiles gate.candidateSource = c)
    (hbf : fleetProfiles gate.baselineSource = b) :
    Accountable metered gate ↔ (∃ s ∈ table, gateSelectsProfile gate s.profile = true) ∧
      sidesRun table c b (gateSelectsProfile gate) = true := by
  have hsides := sides_run_iff metered gate hc.trim hb.trim
  rw [htable, hcf, hbf] at hsides
  rw [← hsides, ← htable, ← scoredScenarios_ne_nil]
  constructor
  · rintro ⟨-, hscored, hrun⟩
    exact ⟨hscored, hrun⟩
  · rintro ⟨hscored, hrun⟩
    refine ⟨fun source hsource => ?_, hscored, hrun⟩
    grind [RCGate.sources, ReadBack.isGateSource, ReadBack.kind, ReadBack.laneVariant]

/-- **A gate of the standard kind** is always accountable. -/
theorem accountable_rc (h : PartsOf metered request parts)
    (hgate : BuiltFrom parts rcGateCandidatePrefix rcGateBaselinePrefix gate)
    (hkind : parts.kind = .rc) : Accountable metered gate := by
  have hvariant : parts.laneVariant = [] := by
    rcases h.laneVariant_cases.2 with hnil | ⟨-, hup⟩
    · exact hnil
    · rw [hkind] at hup
      cases hup
  have hc : ReadBack gate.candidateSource gate.kind gate.laneVariant := by
    rw [hgate.candidateSource, hgate.kind, hgate.laneVariant, hkind, hvariant]
    exact readBack_plain h.candidateSHA h.suffix (by decide) (by decide)
  have hb : ReadBack gate.baselineSource gate.kind gate.laneVariant := by
    rw [hgate.baselineSource, hgate.kind, hgate.laneVariant, hkind, hvariant]
    exact readBack_plain h.baselineSHA h.suffix (by decide) (by decide)
  have hk : gate.kind = .rc := hgate.kind.trans hkind
  have htable : gateScenariosFor gate = rcGateScenarios := by rw [gateScenariosFor, hk]
  have hcf : fleetProfiles gate.candidateSource = rcProfiles := by
    rw [fleetProfiles, hc.kind, hk]
    rfl
  have hbf : fleetProfiles gate.baselineSource = rcProfiles := by
    rw [fleetProfiles, hb.kind, hk]
    rfl
  rw [accountable_iff_table hc hb htable hcf hbf]
  refine ⟨?_, sidesRun_rc _⟩
  by_cases hnil : parts.profiles = []
  · refine ⟨overloadScenario, by decide, ?_⟩
    rw [gateSelectsProfile, hgate.profiles, if_pos hnil]
    decide
  · -- every profile of the fleet has a scenario
    obtain ⟨p, hp⟩ := exists_mem_of_ne_nil _ hnil
    have hin := (h.mem_profiles p).2 hp
    rw [hkind, hvariant] at hin
    have hall : ∀ p ∈ rcProfiles, ∃ s ∈ rcGateScenarios, s.profile = p := by decide
    obtain ⟨s, hs, rfl⟩ := hall p (mem_kindProfiles_rc hin)
    refine ⟨s, hs, ?_⟩
    simp [gateSelectsProfile, RCGate.selectsProfile, hgate.profiles, hnil, hp]

theorem fleetProfiles_upbase (hsha : ShortSHA sha)
    (hsuffix : SuffixOK suffix) (hstart : start ∈ gateSourceStarts)
    (hkind : gateKindForSource (start ++ text "-") = .upgrade)
    (hbase : ∀ rest, hasPrefix (start ++ text "-" ++ rest)
      (upgradeGateBaselinePrefix ++ text "-") = true) :
    fleetProfiles (gateSourceName start sha suffix) = [gateUpgradeFollowProfile] := by
  rw [fleetProfiles, gateKindForSource_gateSourceName hsha hsuffix hstart, hkind]
  have hname : hasPrefix (gateSourceName start sha suffix)
      (upgradeGateBaselinePrefix ++ text "-") = true := by
    rw [gateSourceName, append_assoc]
    exact hbase _
  show (upgradeGateWorkers _).map _ = _
  rw [upgradeGateWorkers, trimSpace_gateSourceName hsha hsuffix hstart, if_pos hname]
  rfl

theorem fleetProfiles_up (hsha : ShortSHA sha)
    (hsuffix : SuffixOK suffix) (hstart : start ∈ gateSourceStarts)
    (hkind : gateKindForSource (start ++ text "-") = .upgrade)
    (hbase : ∀ rest, hasPrefix (start ++ text "-" ++ rest)
      (upgradeGateBaselinePrefix ++ text "-") = false) :
    fleetProfiles (gateSourceName start sha suffix) =
      if gateLaneVariantForSource (gateSourceName start sha suffix) = upgradeLaneVariantNoL9 then
        [gateUpgradeLaneNoL9Profile]
      else [gateUpgradeLaneProfile, gateUpgradeFollowProfile] := by
  rw [fleetProfiles, gateKindForSource_gateSourceName hsha hsuffix hstart, hkind]
  have hname : hasPrefix (gateSourceName start sha suffix)
      (upgradeGateBaselinePrefix ++ text "-") = false := by
    rw [gateSourceName, append_assoc]
    exact hbase _
  show (upgradeGateWorkers _).map _ = _
  rw [upgradeGateWorkers, trimSpace_gateSourceName hsha hsuffix hstart, hname]
  split
  · next h => cases h
  · split <;> rfl

/-- **A gate of the standard upgrade lane** is accountable exactly where the follow worker runs. -/
theorem accountable_upgrade (h : PartsOf metered request parts)
    (hgate : BuiltFrom parts upgradeGateCandidatePrefix upgradeGateBaselinePrefix gate)
    (hkind : parts.kind = .upgrade) (hvariant : parts.laneVariant = []) :
    Accountable metered gate ↔ gateSelectsProfile gate gateUpgradeFollowProfile = true := by
  have hcin : upgradeGateCandidatePrefix ∈ gateSourceStarts := by decide
  have hbin : upgradeGateBaselinePrefix ∈ gateSourceStarts := by decide
  have hc : ReadBack gate.candidateSource gate.kind gate.laneVariant := by
    rw [hgate.candidateSource, hgate.kind, hgate.laneVariant, hkind, hvariant]
    exact readBack_plain h.candidateSHA h.suffix hcin (by decide)
  have hb : ReadBack gate.baselineSource gate.kind gate.laneVariant := by
    rw [hgate.baselineSource, hgate.kind, hgate.laneVariant, hkind, hvariant]
    exact readBack_plain h.baselineSHA h.suffix hbin (by decide)
  have htable : gateScenariosFor gate = upgradeGateScenarios := by
    rw [gateScenariosFor, hgate.kind, hkind, hgate.laneVariant, hvariant]
    rfl
  have hcf : fleetProfiles gate.candidateSource =
      [gateUpgradeLaneProfile, gateUpgradeFollowProfile] := by
    have hlane := hc.laneVariant
    rw [hgate.laneVariant, hvariant] at hlane
    rw [hgate.candidateSource] at hlane ⊢
    rw [fleetProfiles_up h.candidateSHA h.suffix hcin (by decide) (fun _ => rfl), hlane]
    rfl
  have hbf : fleetProfiles gate.baselineSource = [gateUpgradeFollowProfile] := by
    rw [hgate.baselineSource]
    exact fleetProfiles_upbase h.baselineSHA h.suffix hbin (by decide) fun _ => rfl
  have hprofiles : ∀ s ∈ upgradeGateScenarios,
      s.profile = gateUpgradeLaneProfile ∨ s.profile = gateUpgradeFollowProfile := by decide
  have hscored : ∃ s ∈ upgradeGateScenarios, s.profile = gateUpgradeFollowProfile := by decide
  rw [accountable_iff_table hc hb htable hcf hbf, sidesRun_upgrade]
  constructor
  -- a scenario is about the lane's own profile or the one it follows
  · grind
  · grind

/-- **A gate of the no-L9 lane** is accountable exactly where its names have no suffix and both of
its workers run. -/
theorem accountable_nol9 (h : PartsOf metered request parts)
    (hgate : BuiltFrom parts (upgradeGateCandidatePrefix ++ text "-" ++ upgradeLaneVariantNoL9)
      (upgradeGateBaselinePrefix ++ text "-" ++ upgradeLaneVariantNoL9) gate)
    (hkind : parts.kind = .upgrade) (hvariant : parts.laneVariant = upgradeLaneVariantNoL9) :
    Accountable metered gate ↔ parts.suffix = [] ∧
      gateSelectsProfile gate gateUpgradeLaneNoL9Profile = true ∧
      gateSelectsProfile gate gateUpgradeFollowProfile = true := by
  have hcin : upgradeGateCandidatePrefix ++ text "-" ++
      upgradeLaneVariantNoL9 ∈ gateSourceStarts := by
    decide
  have hbin : upgradeGateBaselinePrefix ++ text "-" ++
      upgradeLaneVariantNoL9 ∈ gateSourceStarts := by
    decide
  have hcsplit : (upgradeGateCandidatePrefix ++ text "-" ++ upgradeLaneVariantNoL9).splitOn '-' =
      [upgradeGateCandidatePrefix, upgradeLaneVariantNoL9] := by decide
  have hbsplit : (upgradeGateBaselinePrefix ++ text "-" ++ upgradeLaneVariantNoL9).splitOn '-' =
      [upgradeGateBaselinePrefix, upgradeLaneVariantNoL9] := by decide
  have hcvariant := gateLaneVariantForSource_of_nol9 h.candidateSHA h.suffix hcin hcsplit
  have hbvariant := gateLaneVariantForSource_of_nol9 h.baselineSHA h.suffix hbin hbsplit
  by_cases hsuffix : parts.suffix = []
  · rw [if_pos hsuffix] at hcvariant hbvariant
    have hc : ReadBack gate.candidateSource gate.kind gate.laneVariant := by
      rw [hgate.candidateSource, hgate.kind, hgate.laneVariant, hkind, hvariant]
      exact ⟨isGateSource_gateSourceName h.candidateSHA h.suffix hcin,
        gateKindForSource_gateSourceName h.candidateSHA h.suffix hcin, hcvariant,
        trimSpace_gateSourceName h.candidateSHA h.suffix hcin⟩
    have hb : ReadBack gate.baselineSource gate.kind gate.laneVariant := by
      rw [hgate.baselineSource, hgate.kind, hgate.laneVariant, hkind, hvariant]
      exact ⟨isGateSource_gateSourceName h.baselineSHA h.suffix hbin,
        gateKindForSource_gateSourceName h.baselineSHA h.suffix hbin, hbvariant,
        trimSpace_gateSourceName h.baselineSHA h.suffix hbin⟩
    have htable : gateScenariosFor gate = upgradeGateNoL9Scenarios := by
      rw [gateScenariosFor, hgate.kind, hkind, hgate.laneVariant, hvariant]
      rfl
    have hcf : fleetProfiles gate.candidateSource = [gateUpgradeLaneNoL9Profile] := by
      rw [hgate.candidateSource, fleetProfiles_up h.candidateSHA h.suffix hcin (by decide)
        (fun _ => rfl), hcvariant]
      rfl
    have hbf : fleetProfiles gate.baselineSource = [gateUpgradeFollowProfile] := by
      rw [hgate.baselineSource]
      exact fleetProfiles_upbase h.baselineSHA h.suffix hbin (by decide) fun _ => rfl
    have hprofiles : ∀ s ∈ upgradeGateNoL9Scenarios, s.profile = gateUpgradeLaneNoL9Profile := by
      decide
    have hscored := exists_mem_of_ne_nil upgradeGateNoL9Scenarios (by decide)
    rw [accountable_iff_table hc hb htable hcf hbf, sidesRun_nol9]
    constructor
    · grind
    · grind
  · -- with a suffix the candidate name has four parts and is read back as the standard lane
    rw [if_neg hsuffix] at hcvariant
    constructor
    · intro hacc
      have hlane := (hacc.sources_parse gate.candidateSource (by simp [RCGate.sources])).2.2
      rw [hgate.candidateSource, hcvariant, hgate.laneVariant, hvariant] at hlane
      cases hlane
    · rintro ⟨hnil, -⟩
      exact absurd hnil hsuffix

end Accountability

theorem builtFrom_gate (parts : GateParts) (request : RCGateRequest) (now : Time)
    (resources : List RCGateResource) :
    BuiltFrom parts (gateSourcePrefixes parts.kind parts.laneVariant).1
      (gateSourcePrefixes parts.kind parts.laneVariant).2
      { parts.gate request now with resources } :=
  ⟨rfl, rfl, rfl, rfl, rfl⟩

/-- **An accepted request** leads to a gate that can fail and be covered exactly where it is
coverable. -/
theorem accountable_iff_coverable {metered : List Text} {faults : StoreFaults} {gates : GateTable}
    {request : RCGateRequest} {now : Time} {gate : RCGate} {created : Bool}
    (h : (registerRCGate metered faults gates request now).1 = .ok (gate, created)) :
    ∃ built, newRCGate metered request now = .ok built ∧
      (created = true → gate = { built with id := gate.id }) ∧
      (Accountable metered built ↔ request.Coverable) := by
  unfold registerRCGate at h
  cases hbuilt : newRCGate metered request now with
  | error e => simp [hbuilt] at h
  | ok built =>
    refine ⟨built, rfl, fun hcreated => ?_, ?_⟩
    · rw [hbuilt] at h
      dsimp only at h
      grind
    · obtain ⟨parts, hparts, rfl⟩ := partsOf_newRCGate hbuilt
      have hfrom := builtFrom_gate parts request now
        (gateResources metered (parts.gate request now))
      obtain ⟨hvariant, hcases⟩ := hparts.laneVariant_cases
      have hselects := hparts.selects hfrom.profiles
      unfold RCGateRequest.Coverable
      rw [← hparts.kind_eq, ← hvariant, ← hparts.suffix_eq]
      rcases hcases with hnil | ⟨hnol9, hkind⟩
      · cases hkind : parts.kind with
        | rc =>
          simp only [hkind, gateSourcePrefixes] at hfrom
          have hacc := accountable_rc hparts hfrom hkind
          simp [hacc, hnil]
        | upgrade =>
          simp only [hkind, hnil, gateSourcePrefixes] at hfrom
          rw [accountable_upgrade hparts hfrom hkind hnil, hselects _ (by decide)]
          simp [hnil]
      · have hne : upgradeLaneVariantNoL9 ≠ [] := by decide
        simp only [hkind, hnol9, gateSourcePrefixes, hne, ne_eq, not_false_iff, if_true] at hfrom
        rw [accountable_nol9 hparts hfrom hkind hnol9, hselects _ (by decide),
          hselects _ (by decide), hnol9, hkind]
        simp only [hne, false_or, ne_eq, not_false_iff, forall_const]
        tauto

def upgradeRequest (laneVariant sourceSuffix : Text) (profiles : List Text) : RCGateRequest :=
  { kind := text "upgrade", repository := rcGateUpstreamRepository
    candidateSHA := replicate 40 'a', baselineSHA := replicate 40 'b', duration := []
    laneVariant, sourceSuffix, profiles }

/-- A no-L9 rerun of the whole fleet without a suffix is accepted, and accountable. -/
theorem accountable_iff_coverable_nol9 :
    (upgradeRequest upgradeLaneVariantNoL9 [] []).Coverable ∧
      ∃ built, newRCGate [] (upgradeRequest upgradeLaneVariantNoL9 [] []) 0 = .ok built ∧
        (Accountable [] built ↔ (upgradeRequest upgradeLaneVariantNoL9 [] []).Coverable) := by
  refine ⟨by decide, ?_⟩
  have haccepted : (registerRCGate [] {} (Table.empty RCGate.id)
      (upgradeRequest upgradeLaneVariantNoL9 [] []) 0).1.toOption.isSome = true := by decide
  cases hanswer : (registerRCGate [] {} (Table.empty RCGate.id)
      (upgradeRequest upgradeLaneVariantNoL9 [] []) 0).1 with
  | error e => simp [hanswer, Except.toOption] at haccepted
  | ok answer =>
    obtain ⟨built, hbuilt, -, hiff⟩ := accountable_iff_coverable hanswer
    exact ⟨built, hbuilt, hiff⟩

theorem exists_not_accountable_of_run
    (hrun : ((registerRCGate [] {} (Table.empty RCGate.id) request 0).1.toOption.any fun answer =>
      answer.2 && !decide (Accountable [] answer.1)) = true) :
    ∃ gate, (registerRCGate [] {} (Table.empty RCGate.id) request 0).1 = .ok (gate, true) ∧
      ¬ Accountable [] gate := by
  grind [registerRCGate, Except.toOption]

/-- **Accepted requests whose gate cannot do its work**: a no-L9 gate with a source suffix, the lane
without the follow worker, and the no-L9 follow worker alone. -/
theorem accepted_not_accountable :
    (∃ gate, (registerRCGate [] {} (Table.empty RCGate.id)
        (upgradeRequest upgradeLaneVariantNoL9 (text "rerun") []) 0).1 = .ok (gate, true) ∧
      ¬ Accountable [] gate) ∧
    (∃ gate, (registerRCGate [] {} (Table.empty RCGate.id)
        (upgradeRequest [] [] [gateUpgradeLaneProfile]) 0).1 = .ok (gate, true) ∧
      ¬ Accountable [] gate) ∧
    ∃ gate, (registerRCGate [] {} (Table.empty RCGate.id)
        (upgradeRequest upgradeLaneVariantNoL9 [] [gateUpgradeFollowProfile]) 0).1 =
          .ok (gate, true) ∧
      ¬ Accountable [] gate :=
  ⟨exists_not_accountable_of_run (by decide), exists_not_accountable_of_run (by decide),
    exists_not_accountable_of_run (by decide)⟩

end LitestreamSoak.Gate
