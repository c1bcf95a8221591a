import LitestreamSoak.Gate.Fault

/-!
# Gate — the scenario tables

Which scenarios a gate scores, and which verifications count for each side of one
(`GateSideFilter`). A side may be scored on the other side's source (the lane worker is its own
baseline before the switch) or on another profile (the lane's follow checks against the plain
follow worker), so a scenario's profile alone does not say which worker a side needs.
-/

namespace LitestreamSoak.Gate

open Lib

def gateManyDB500Profile : Text := text "gate-manydb-500"
def gateLargeDBProfile : Text := text "gate-large-db"
def gateRemoteProfile : Text := text "gate-remote"
def gateVFSProfile : Text := text "gate-vfs"
def gateWALResetProfile : Text := text "gate-walreset"
def gateUpgradeLaneProfile : Text := text "gate-upgrade-lane"
def gateUpgradeLaneNoL9Profile : Text := text "gate-upgrade-lane-nol9"
def gateUpgradeFollowProfile : Text := text "gate-upgrade-follow"

def upgradeLaneVariantNoL9 : Text := text "nol9"
def upgradePhasePre : Text := text "pre-upgrade"
def upgradePhasePost : Text := text "post-upgrade"

def gateCheckFollow : Text := text "follow"
def gateCheckHistorical : Text := text "pre-upgrade-restore"
def gateCheckCoverage : Text := text "coverage"
def gateCheckVFS : Text := text "vfs"
def gateCheckWALReset : Text := text "walreset"

def gateModeTXID : Text := text "txid"
def gateModeFollow : Text := text "follow"
def gateModeCoverage : Text := text "coverage"
def gateModeVFSSnapshot : Text := text "vfs-snapshot"
def gateModeVFSRead : Text := text "vfs-read"
def gateModeWALReset : Text := text "walreset-restore"

def gateStandaloneChecks : List Text := [gateCheckCoverage, gateCheckVFS, gateCheckWALReset]
def gateNonCurrentChecks : List Text :=
  [gateCheckFollow, gateCheckHistorical] ++ gateStandaloneChecks
def gateStandaloneModes : List Text :=
  [gateModeCoverage, gateModeVFSSnapshot, gateModeVFSRead, gateModeWALReset]
def gateVFSModes : List Text := [gateModeVFSSnapshot, gateModeVFSRead]
def gateRotatingRestoreModes : List Text := [gateModeTXID, text "timestamp", text "latest"]
def gateOptInProfiles : List Text := [gateVFSProfile, gateWALResetProfile]

/-! ## §1 — side filters -/

inductive GateRole where
  | candidate
  | baseline
deriving DecidableEq

/-- Which check types count: the current-boundary ones (the empty string of the source), all but
the standalone ones (`*`), or one. -/
inductive CheckFilter where
  | current
  | any
  | only (checkType : Text)
deriving DecidableEq

structure GateSideFilter where
  role : Option GateRole := none
  profile : Text := []
  phase : Text := []
  checkType : CheckFilter := .current
  mode : Text := []
deriving DecidableEq

def GateSideFilter.sourceFor (f : GateSideFilter) (gate : RCGate) : Text :=
  if f.role = some .baseline then gate.baselineSource else gate.candidateSource

/-- A phase filter also requires the report's active Litestream build to be the one that phase must
have run, so a mislabelled phase never counts. -/
def GateSideFilter.acceptsPhase (f : GateSideFilter) (gate : RCGate) (v : Verification) : Bool :=
  f.phase = [] ||
    (v.run.upgradePhase = f.phase &&
      equalFold (trimSpace v.run.activeLitestreamSHA)
        (if f.phase = upgradePhasePre then gate.baselineSHA else gate.candidateSHA))

/-- The restore mode of a verification; reports from before the rotation name none. -/
def Verification.mode (v : Verification) : Text :=
  if trimSpace v.restoreMode = [] then gateModeTXID else trimSpace v.restoreMode

def GateSideFilter.accepts (f : GateSideFilter) (gate : RCGate) (v : Verification) : Bool :=
  f.acceptsPhase gate v && (f.mode = [] || v.mode = f.mode) &&
    match f.checkType with
    | .any => !gateStandaloneChecks.contains v.checkType
    | .current => !gateNonCurrentChecks.contains v.checkType
    | .only checkType => v.checkType = checkType

/-! ## §2 — scenarios -/

structure GateScenario where
  name : Text
  profile : Text
  identity : Text := []
  txidOnly : Bool := false
  coverage : Bool := false
  vfs : Bool := false
  walReset : Bool := false
  requiredModes : List Text := []
  candidate : GateSideFilter := {}
  baseline : GateSideFilter := {}
deriving DecidableEq

def GateScenario.candidateFilter (s : GateScenario) : GateSideFilter :=
  { s.candidate with role := s.candidate.role.or (some .candidate) }

def GateScenario.baselineFilter (s : GateScenario) : GateSideFilter :=
  { s.baseline with role := s.baseline.role.or (some .baseline) }

def GateScenario.sideProfile (s : GateScenario) (f : GateSideFilter) : Text :=
  firstNonEmpty [f.profile, s.profile]

def GateScenario.standalone (base : GateScenario) (nameEnd : String) (modes : List Text)
    (check : Text) : GateScenario :=
  { base with
    name := base.name ++ text nameEnd
    requiredModes := modes
    candidate := { base.candidate with checkType := .only check }
    baseline := { base.baseline with checkType := .only check } }

def ltxCoverageScenario (base : GateScenario) : GateScenario :=
  { base.standalone "-ltx-coverage" [gateModeCoverage] gateCheckCoverage with coverage := true }

def vfsReaderScenario (base : GateScenario) : GateScenario :=
  { base.standalone "-vfs-reader" gateVFSModes gateCheckVFS with vfs := true }

def walResetScenario (base : GateScenario) : GateScenario :=
  { base.standalone "-wal-reset" [gateModeWALReset] gateCheckWALReset with walReset := true }

def overloadScenario : GateScenario :=
  { name := text "overload-truncate0", profile := gateStressProfile,
    identity := text "overload-truncate0" }

def pinnedReaderScenario : GateScenario :=
  { name := text "pinned-reader", profile := gateStressProfile, identity := text "pinned-reader" }

def largeDBScenario : GateScenario := { name := text "large-db", profile := gateLargeDBProfile }

def remoteScenario : GateScenario := { name := text "remote", profile := gateRemoteProfile }

def vfsScenario : GateScenario := { name := text "vfs", profile := gateVFSProfile }

def walResetBaseScenario : GateScenario :=
  { name := text "walreset", profile := gateWALResetProfile }

def rcGateScenarios : List GateScenario :=
  [overloadScenario,
    pinnedReaderScenario,
    { name := text "manydb-500", profile := gateManyDB500Profile, txidOnly := true },
    largeDBScenario,
    remoteScenario,
    vfsScenario,
    walResetBaseScenario,
    ltxCoverageScenario overloadScenario,
    ltxCoverageScenario pinnedReaderScenario,
    ltxCoverageScenario largeDBScenario,
    ltxCoverageScenario remoteScenario,
    ltxCoverageScenario vfsScenario,
    ltxCoverageScenario walResetBaseScenario,
    vfsReaderScenario vfsScenario,
    walResetScenario walResetBaseScenario]

def laneScenario (name : Text) (profile : Text) : GateScenario :=
  { name, profile
    candidate := { role := some .candidate, phase := upgradePhasePost }
    baseline := { role := some .candidate, phase := upgradePhasePre } }

def laneHistoricalScenario (name : Text) (profile : Text) : GateScenario :=
  { name := name ++ text "-historical", profile
    requiredModes := [gateModeTXID]
    candidate :=
      { role := some .candidate, phase := upgradePhasePost, checkType := .only gateCheckHistorical }
    baseline := { role := some .candidate, phase := upgradePhasePre, mode := gateModeTXID } }

def laneFollowScenario (name : Text) (profile : Text) : GateScenario :=
  { name := name ++ text "-follow", profile
    requiredModes := [gateModeFollow]
    candidate :=
      { role := some .candidate, phase := upgradePhasePost, checkType := .only gateCheckFollow }
    baseline :=
      { role := some .baseline, profile := gateUpgradeFollowProfile,
        checkType := .only gateCheckFollow } }

def upgradeGateScenarios : List GateScenario :=
  let lane := text "upgrade-lane"
  [laneScenario lane gateUpgradeLaneProfile,
    laneHistoricalScenario lane gateUpgradeLaneProfile,
    laneFollowScenario lane gateUpgradeLaneProfile,
    { name := text "follow-l9", profile := gateUpgradeFollowProfile
      requiredModes := gateRotatingRestoreModes ++ [gateModeFollow]
      candidate := { role := some .candidate, checkType := .any }
      baseline := { role := some .baseline, checkType := .any } },
    ltxCoverageScenario (laneScenario lane gateUpgradeLaneProfile),
    ltxCoverageScenario
      { name := text "follow-l9", profile := gateUpgradeFollowProfile
        candidate := { role := some .candidate }
        baseline := { role := some .baseline } }]

def upgradeGateNoL9Scenarios : List GateScenario :=
  let lane := text "upgrade-lane-nol9"
  [laneScenario lane gateUpgradeLaneNoL9Profile,
    laneHistoricalScenario lane gateUpgradeLaneNoL9Profile,
    laneFollowScenario lane gateUpgradeLaneNoL9Profile,
    ltxCoverageScenario (laneScenario lane gateUpgradeLaneNoL9Profile)]

def gateScenariosFor (gate : RCGate) : List GateScenario :=
  match gate.kind with
  | .upgrade =>
    if gate.laneVariant = upgradeLaneVariantNoL9 then upgradeGateNoL9Scenarios
    else upgradeGateScenarios
  | .rc => rcGateScenarios

/-- A requested subset selects exactly its members; the whole fleet leaves the opt-in profiles
out. -/
def gateSelectsProfile (gate : RCGate) (profile : Text) : Bool :=
  if gate.profiles = [] then !gateOptInProfiles.contains profile else gate.selectsProfile profile

def scoredScenarios (gate : RCGate) : List GateScenario :=
  (gateScenariosFor gate).filter fun scenario => gateSelectsProfile gate scenario.profile

end LitestreamSoak.Gate
