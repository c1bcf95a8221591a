import LitestreamSoak.Gate.Registration
import LitestreamSoak.Lib.Machine

/-!
# Gate.Ownership — who owns a source, and registering twice

Registrations and the closing of gates, interleaved. A registration is two statements: the
transaction of `CreateRCGate`, which checks both sources against both columns of every open gate and
inserts the gate, and, where that refused, the lookup of the gate that is in the way.
-/

namespace LitestreamSoak.Gate.Ownership

open Lib List Function

variable {metered : List Text}

/-! ## §1 — the two statements of a registration -/

variable {now : Time} {request : RCGateRequest} {gates : GateTable} {gate : RCGate}

theorem id_readBack (gate : RCGate) (id : Nat) : ({ gate.readBack with id } : RCGate).id = id := rfl

/-- `CreateRCGate`: the stored gate, unless an open gate has one of its sources. -/
def createRCGate (gates : GateTable) (gate : RCGate) : Option GateTable :=
  if overlapping gates gate then none
  else some (gates.append (fun id => { gate.readBack with id }) (id_readBack gate))

def lookupRCGate (gates : GateTable) (gate : RCGate) : Except RegisterError (RCGate × Bool) :=
  match activeRCGateForSource gates gate.candidateSource with
  | some existing => if existing.sameRequest gate then .ok (existing, false)
      else .error .sourceActive
  | none => .error .sourceActive

theorem registerRCGate_eq
    (h : newRCGate metered request now = .ok gate) :
    registerRCGate metered {} gates request now =
      match createRCGate gates gate with
      | some gates' => (.ok ({ gate with id := gates.maxKey + 1 }, true), gates')
      | none => (lookupRCGate gates gate, gates) := by
  -- both look the gate up only where a side overlaps
  grind [registerRCGate, createRCGate, lookupRCGate]

/-! ## §2 — the machine -/

inductive Call where
  | idle
  | lookup (request : RCGateRequest) (gate : RCGate)
  | returned (answer : Except RegisterError (RCGate × Bool))

structure State where
  gates : GateTable := .empty _
  requests : Nat → Option RCGateRequest := fun _ => none
  calls : Nat → Call := fun _ => .idle

def State.setCall (s : State) (c : Nat) (call : Call) : State :=
  { s with calls := update s.calls c call }

def setStatus (gates : GateTable) (id : Nat) (status : RCGateStatus) : GateTable :=
  gates.updateAt id (fun g => { g with status }) fun _ => rfl

inductive Action where
  /-- Call `c` of `RegisterRCGate`, up to its transaction; `fault` is a database error. -/
  | register (c : Nat) (request : RCGateRequest) (now : Time) (fault : Bool)
  | lookup (c : Nat) (fault : Bool)
  | tail (id : Nat)
  | complete (id : Nat)
  | abort (id : Nat)

def registerStep (metered : List Text) (s : State) (c : Nat) (request : RCGateRequest) (now : Time)
    (fault : Bool) : State :=
  match newRCGate metered request now with
  | .error e => s.setCall c (.returned (.error e))
  | .ok gate =>
    if fault then s.setCall c (.returned (.error .store))
    else
      match createRCGate s.gates gate with
      | none => s.setCall c (.lookup request gate)
      | some gates =>
        let id := s.gates.maxKey + 1
        { s.setCall c (.returned (.ok ({ gate with id }, true))) with
          gates, requests := update s.requests id (some request) }

def step (metered : List Text) (s : State) : Action → Option State
  | .register c request now fault =>
    match s.calls c with
    | .lookup .. => none
    | _ => some (registerStep metered s c request now fault)
  | .lookup c fault =>
    match s.calls c with
    | .lookup _ gate =>
      some (s.setCall c (.returned
        (if fault then .error .store else lookupRCGate s.gates gate)))
    | _ => none
  | .tail id =>
    if s.gates.rows.any fun g => g.id = id && g.status = .running then
      some { s with gates := setStatus s.gates id .tail }
    else none
  | .complete id => some { s with gates := setStatus s.gates id .completed }
  | .abort id => some { s with gates := setStatus s.gates id .aborted }

def machine (metered : List Text) : Machine State Action where
  start s := s = {}
  step := step metered

/-! ## §3 — the parts of a request that are stored and compared -/

variable {parts : GateParts} {g : RCGate}

def WholeSeconds (request : RCGateRequest) : Prop :=
  ∀ kind duration, parseRCGateKind request.kind = .ok kind →
    parseGateDuration request kind = .ok duration →
    second ∣ duration ∧
      ∀ warmup, parseUpgradeWarmup request kind duration = .ok warmup → second ∣ warmup

theorem newRCGate_spec
    (h : newRCGate metered request now = .ok gate) :
    ∃ parts, validateRequest metered request = .ok parts ∧
      gate = { parts.gate request now with
        resources := gateResources metered (parts.gate request now) } := by
  unfold newRCGate at h
  obtain ⟨parts, hparts, h⟩ := exists_of_bind_eq_ok h
  refine ⟨parts, hparts, ?_⟩
  dsimp only at h
  split at h
  · cases h
  · cases h
    rfl

theorem newRCGate_now
    (h : newRCGate metered request now = .ok gate) (now' : Time) :
    ∃ gate', newRCGate metered request now' = .ok gate' := by
  unfold newRCGate at h
  obtain ⟨parts, hparts, h⟩ := exists_of_bind_eq_ok h
  dsimp only at h
  split at h
  · cases h
  · next hfree =>
    refine ⟨{ parts.gate request now' with
      resources := gateResources metered (parts.gate request now') }, ?_⟩
    unfold newRCGate
    rw [hparts]
    dsimp only [bind, Except.bind]
    split
    · -- the sources do not depend on the time
      next source hfound => cases hfree.symm.trans hfound
    · rfl

theorem durations_validateRequest
    (h : validateRequest metered request = .ok parts) :
    parseRCGateKind request.kind = .ok parts.kind ∧
      parseGateDuration request parts.kind = .ok parts.duration ∧
      parseUpgradeWarmup request parts.kind parts.duration = .ok parts.warmup := by
  unfold validateRequest at h
  obtain ⟨kind, hkind, h⟩ := exists_of_bind_eq_ok h
  obtain ⟨_, -, h⟩ := exists_of_bind_eq_ok h
  obtain ⟨_, -, h⟩ := exists_of_bind_eq_ok h
  obtain ⟨_, -, h⟩ := exists_of_bind_eq_ok h
  obtain ⟨duration, hduration, h⟩ := exists_of_bind_eq_ok h
  obtain ⟨warmup, hwarmup, h⟩ := exists_of_bind_eq_ok h
  obtain ⟨laneVariant, -, h⟩ := exists_of_bind_eq_ok h
  obtain ⟨profiles, -, h⟩ := exists_of_bind_eq_ok h
  obtain ⟨_, -, h⟩ := exists_of_bind_eq_ok h
  obtain ⟨_, -, h⟩ := exists_of_bind_eq_ok h
  cases h
  exact ⟨hkind, hduration, hwarmup⟩

theorem wholeSeconds_iff
    (h : validateRequest metered request = .ok parts) :
    WholeSeconds request ↔ second ∣ parts.duration ∧ second ∣ parts.warmup := by
  obtain ⟨hkind, hduration, hwarmup⟩ := durations_validateRequest h
  constructor
  -- a request has one kind, one duration and one warmup
  · grind [WholeSeconds]
  · grind [WholeSeconds]

def profileNames : List Text :=
  rcProfiles ++ [gateUpgradeLaneProfile, gateUpgradeLaneNoL9Profile, gateUpgradeFollowProfile]

theorem mem_profileNames {source p : Text} (h : p ∈ fleetProfiles source) : p ∈ profileNames := by
  have hlane : ∀ q ∈ [gateUpgradeLaneProfile, gateUpgradeFollowProfile], q ∈ profileNames := by
    decide
  have hnol9 : ∀ q ∈ [gateUpgradeLaneNoL9Profile], q ∈ profileNames := by decide
  have hfollow : ∀ q ∈ [gateUpgradeFollowProfile], q ∈ profileNames := by decide
  unfold fleetProfiles at h
  cases hkind : gateKindForSource source with
  | rc =>
    rw [hkind] at h
    exact mem_append_left _ h
  | upgrade =>
    rw [hkind] at h
    dsimp only at h
    unfold upgradeGateWorkers at h
    split at h
    · exact hfollow p h
    · split at h
      · exact hnol9 p h
      · exact hlane p h

theorem splitGateProfiles_joinGateProfiles {profiles : List Text}
    (h : ∀ p ∈ profiles, p ∈ profileNames) :
    splitGateProfiles (joinGateProfiles profiles) = profiles := by
  have hplain : ∀ p ∈ profileNames, ',' ∉ p ∧ (∀ c ∈ p, isSpace c = false) ∧ p ≠ [] := by
    have hall : profileNames.all (fun p => !p.contains ',' && p.all (fun c => !isSpace c) &&
        p ≠ []) = true := by decide
    intro p hp
    simpa [and_assoc] using all_eq_true.mp hall p hp
  unfold splitGateProfiles joinGateProfiles
  by_cases hnil : profiles = []
  · rw [hnil]
    decide
  · rw [splitOn_intercalate ',' (fun p hp => (hplain p (h p hp)).1) hnil]
    have htrim : profiles.map trimSpace = profiles := by
      conv_rhs => rw [← map_id profiles]
      exact map_congr_left fun p hp => trimSpace_of_forall (hplain p (h p hp)).2.1
    rw [htrim, filter_eq_self]
    intro p hp
    exact decide_eq_true (hplain p (h p hp)).2.2

theorem profiles_readBack
    (h : validateRequest metered request = .ok parts) :
    splitGateProfiles (joinGateProfiles parts.profiles) = parts.profiles := by
  apply splitGateProfiles_joinGateProfiles
  intro p hp
  have hkind := ((partsOf_validateRequest h).mem_profiles p).2 hp
  unfold kindProfiles at hkind
  obtain ⟨source, -, hp⟩ := mem_flatMap.mp hkind
  rw [GateFleetForSource_profiles] at hp
  exact mem_profileNames hp

theorem tdiv_mul_eq_iff (d : Duration) : d.tdiv second * second = d ↔ second ∣ d :=
  ⟨fun h => ⟨d.tdiv second, by rw [Int.mul_comm]; exact h.symm⟩, Int.tdiv_mul_cancel⟩

def CreatedBy (metered : List Text) (request : RCGateRequest) (g : RCGate) : Prop :=
  ∃ now gate, newRCGate metered request now = .ok gate ∧
    g = { gate.readBack with id := g.id, status := g.status }

/-- **What the comparison sees.** A gate created by a request is taken for the gate of that very
request exactly where nothing was lost in whole seconds. -/
theorem sameRequest_iff
    (hcreated : CreatedBy metered request g) (hgate : newRCGate metered request now = .ok gate) :
    g.sameRequest gate = true ↔ WholeSeconds request := by
  obtain ⟨_, _, hfirst, hg⟩ := hcreated
  obtain ⟨parts, hparts, rfl⟩ := newRCGate_spec hfirst
  obtain ⟨parts', hparts', rfl⟩ := newRCGate_spec hgate
  cases hparts.symm.trans hparts'
  rw [wholeSeconds_iff hparts, ← tdiv_mul_eq_iff, ← tdiv_mul_eq_iff, hg]
  simp [RCGate.sameRequest, RCGate.readBack, GateParts.gate, profiles_readBack hparts]

theorem start_mem_gateSourceStarts
    (h : PartsOf metered request parts) :
    (gateSourcePrefixes parts.kind parts.laneVariant).1 ∈ gateSourceStarts := by
  rcases h.laneVariant_cases.2 with hnil | ⟨hnol9, hkind⟩
  · rw [hnil]
    cases parts.kind <;> decide
  · rw [hnol9, hkind]
    decide

theorem candidateSource_eq
    (hcreated : CreatedBy metered request g) (hgate : newRCGate metered request now = .ok gate) :
    trimSpace gate.candidateSource = gate.candidateSource ∧
      gate.candidateSource = g.candidateSource := by
  obtain ⟨_, _, hfirst, hg⟩ := hcreated
  obtain ⟨parts, hparts, rfl⟩ := newRCGate_spec hfirst
  obtain ⟨parts', hparts', rfl⟩ := newRCGate_spec hgate
  cases hparts.symm.trans hparts'
  have hof := partsOf_validateRequest hparts
  refine ⟨trimSpace_gateSourceName hof.candidateSHA hof.suffix (start_mem_gateSourceStarts hof), ?_⟩
  rw [hg]
  rfl

/-! ## §4 — the invariant -/

variable {id : Nat} {s : State}

/-- **No source name belongs to two open gates**, in whichever roles. -/
def Exclusive (gates : GateTable) : Prop :=
  ∀ g ∈ gates, ∀ g' ∈ gates, g.closed = false → g'.closed = false → g.id ≠ g'.id →
    ∀ source ∈ g.sources, source ∉ g'.sources

theorem not_overlapping (h : overlapping gates gate = false)
    (hg : g ∈ gates) (hopen : g.closed = false) : ∀ source ∈ g.sources, source ∉ gate.sources := by
  intro source hsource hmem
  have hnone := any_eq_false.mp h g hg
  grind

theorem Exclusive.append (h : Exclusive gates)
    (hfree : overlapping gates gate = false) :
    Exclusive (gates.append (fun id => { gate.readBack with id }) fun _ => rfl) := by
  intro g hg g' hg' hopen hopen' hne source hsource hsource'
  rcases (Table.mem_append ..).mp hg with hg | hg <;>
    rcases (Table.mem_append ..).mp hg' with hg' | hg'
  · exact h g hg g' hg' hopen hopen' hne source hsource hsource'
  · rw [hg'] at hsource'
    exact not_overlapping hfree hg hopen source hsource hsource'
  · rw [hg] at hsource
    exact not_overlapping hfree hg' hopen' source hsource' hsource
  · exact hne (by rw [hg, hg'])

theorem mem_setStatus {status : RCGateStatus}
    (h : g ∈ setStatus gates id status) :
    ∃ old ∈ gates, g = { old with status := g.status } ∧ (g.status = old.status ∨
      old.id = id ∧ g.status = status) := by
  rcases (Table.mem_updateAt ..).mp h with ⟨hg, -⟩ | ⟨old, hold, hid, rfl⟩
  · exact ⟨g, hg, rfl, .inl rfl⟩
  · exact ⟨old, hold, rfl, .inr ⟨hid, rfl⟩⟩

theorem Exclusive.status (h : Exclusive gates)
    {status : RCGateStatus}
    (hopens : ∀ g ∈ gates, g.id = id → { g with status }.closed = false → g.closed = false) :
    Exclusive (setStatus gates id status) := by
  have hold : ∀ g ∈ setStatus gates id status, g.closed = false →
      ∃ old ∈ gates, old.closed = false ∧ old.id = g.id ∧ old.sources = g.sources := by
    intro g hg hopen
    obtain ⟨old, hold, heq, hstatus⟩ := mem_setStatus hg
    rw [heq] at hopen ⊢
    refine ⟨old, hold, ?_, rfl, rfl⟩
    rcases hstatus with hsame | ⟨hid, hnew⟩
    · rw [hsame] at hopen
      exact hopen
    · rw [hnew] at hopen
      exact hopens old hold hid hopen
  intro g hg g' hg' hopen hopen' hne source hsource hsource'
  obtain ⟨old, hmem, hclosed, hid, hsources⟩ := hold g hg hopen
  obtain ⟨old', hmem', hclosed', hid', hsources'⟩ := hold g' hg' hopen'
  rw [← hsources] at hsource
  rw [← hsources'] at hsource'
  exact h old hmem old' hmem' hclosed hclosed'
    (by rw [hid, hid']; exact hne) source hsource hsource'

structure Inv (metered : List Text) (s : State) : Prop where
  exclusive : Exclusive s.gates
  created : ∀ g ∈ s.gates, ∀ request, s.requests g.id = some request → CreatedBy metered request g
  waiting : ∀ c request gate, s.calls c = .lookup request gate →
    ∃ now, newRCGate metered request now = .ok gate

theorem inv_registerStep (h : Inv metered s) (c : Nat) (request : RCGateRequest)
    (now : Time) (fault : Bool) : Inv metered (registerStep metered s c request now fault) := by
  -- a call that returns, or waits for its lookup with the gate it wanted to create
  have hcall : ∀ call, (∀ q gate, call = .lookup q gate → ∃ t, newRCGate metered q t = .ok gate) →
      ∀ c' q gate, update s.calls c call c' = .lookup q gate →
        ∃ t, newRCGate metered q t = .ok gate := by
    intro call hnew c' q gate hlookup
    by_cases hc : c' = c
    · rw [hc, update_self] at hlookup
      exact hnew q gate hlookup
    · rw [update_of_ne hc] at hlookup
      exact h.waiting c' q gate hlookup
  have hreturned : ∀ answer c' q gate, update s.calls c (.returned answer) c' =
      .lookup q gate → ∃ t, newRCGate metered q t = .ok gate :=
    fun answer => hcall (.returned answer) fun q gate heq => by cases heq
  unfold registerStep
  cases hnew : newRCGate metered request now with
  | error e => exact { h with waiting := hreturned (.error e) }
  | ok gate =>
    cases fault with
    | true => exact { h with waiting := hreturned (.error .store) }
    | false =>
      dsimp only
      rw [if_neg Bool.false_ne_true]
      unfold createRCGate
      cases hover : overlapping s.gates gate with
      | true =>
        refine { h with waiting := hcall (.lookup request gate) fun q g heq => ?_ }
        obtain ⟨rfl, rfl⟩ := Call.lookup.inj heq
        exact ⟨now, hnew⟩
      | false =>
        refine ⟨h.exclusive.append hover, fun g hg q hq => ?_, hreturned _⟩
        have hq : update s.requests (s.gates.maxKey + 1) (some request) g.id = some q := hq
        rcases (Table.mem_append ..).mp hg with hold | rfl
        · have hlt := s.gates.key_le_maxKey hold
          rw [update_of_ne (by omega)] at hq
          exact h.created g hold q hq
        · rw [update_self] at hq
          cases hq
          exact ⟨now, gate, hnew, rfl⟩

theorem Inv.setStatus (h : Inv metered s) {status : RCGateStatus}
    (hopens : ∀ g ∈ s.gates, g.id = id → { g with status }.closed = false → g.closed = false) :
    Inv metered { s with gates := setStatus s.gates id status } := by
  refine { h with exclusive := h.exclusive.status hopens, created := fun g hg q hq => ?_ }
  obtain ⟨old, hold, heq, -⟩ := mem_setStatus hg
  have hid : g.id = old.id := by rw [heq]
  obtain ⟨now, gate, hgate, hstored⟩ := h.created old hold q (hid ▸ hq)
  refine ⟨now, gate, hgate, ?_⟩
  rw [hstored] at heq
  rw [heq]

/-- Registering and closing keep the invariant. -/
theorem inv_step {s' : State} {a : Action} (h : Inv metered s)
    (hstep : step metered s a = some s') : Inv metered s' := by
  cases a with
  | register c request now fault => grind [step, inv_registerStep]
  | lookup c fault =>
    simp only [step] at hstep
    split at hstep <;> cases hstep
    refine { h with waiting := fun c' q gate hlookup => ?_ }
    have hlookup : update s.calls c _ c' = .lookup q gate := hlookup
    by_cases hc : c' = c
    · rw [hc, update_self] at hlookup
      cases hlookup
    · rw [update_of_ne hc] at hlookup
      exact h.waiting c' q gate hlookup
  | tail id =>
    simp only [step] at hstep
    split at hstep <;> cases hstep
    next hrunning =>
    apply h.setStatus
    -- only a running gate goes into its tail
    intro g hg hid _
    obtain ⟨own, hown, hcond⟩ := any_eq_true.mp hrunning
    simp only [Bool.and_eq_true, decide_eq_true_eq] at hcond
    rw [s.gates.eq_of_key_eq hg hown (hid.trans hcond.1.symm)]
    simp [RCGate.closed, hcond.2]
  | complete id | abort id =>
    cases hstep
    exact h.setStatus fun g _ _ hopen => (by simp [RCGate.closed] at hopen)

/-- The invariant holds along every run. -/
theorem inv_reachable (hs : (machine metered).Reachable s) : Inv metered s := by
  induction hs with
  | @start s hempty =>
    obtain rfl : s = {} := hempty
    have hnone : ∀ g, ¬ g ∈ ({} : State).gates := Table.not_mem_empty
    refine ⟨fun g hg => absurd hg (hnone g), fun g hg => absurd hg (hnone g), ?_⟩
    intro c request gate hcall
    cases hcall
  | step _ _ hstep ih => exact inv_step ih hstep

/-! ## §5 — registering twice -/

theorem Exclusive.activeRCGateForSource (h : Exclusive gates)
    (hg : g ∈ gates) (hopen : g.closed = false) {source : Text} (hsource : source ∈ g.sources)
    (htrim : trimSpace source = source) : activeRCGateForSource gates source = some g := by
  unfold Gate.activeRCGateForSource
  rw [htrim]
  have hmem : g ∈ gates.rows.filter fun g => !g.closed && g.sources.contains source :=
    mem_filter.mpr ⟨hg, by rw [hopen, contains_iff_mem.mpr hsource]; rfl⟩
  cases hlast : (gates.rows.filter fun g => !g.closed && g.sources.contains source).getLast? with
  | none =>
    rw [getLast?_eq_none_iff.mp hlast] at hmem
    cases hmem
  | some other =>
    obtain ⟨hother, hcond⟩ := mem_filter.mp (mem_of_getLast? hlast)
    simp only [Bool.and_eq_true, Bool.not_eq_true', contains_iff_mem] at hcond
    by_contra hne
    have hid : g.id ≠ other.id := by
      intro hid
      rw [gates.eq_of_key_eq hg hother hid] at hne
      exact hne rfl
    exact h g hg other hother hopen hcond.1 hid source hsource hcond.2

theorem overlapping_of_open (hg : g ∈ s.gates) (hopen : g.closed = false)
    (hsource : gate.candidateSource = g.candidateSource) : overlapping s.gates gate = true := by
  refine any_eq_true.mpr ⟨g, hg, ?_⟩
  grind [RCGate.sources]

theorem Inv.lookup_iff (h : Inv metered s) (hg : g ∈ s.gates) (hopen : g.closed = false)
    (hrequest : s.requests g.id = some request) (hgate : newRCGate metered request now = .ok gate) :
    lookupRCGate s.gates gate = .ok (g, false) ↔ WholeSeconds request := by
  have hcreated := h.created g hg request hrequest
  obtain ⟨htrim, hsource⟩ := candidateSource_eq hcreated hgate
  have hactive : activeRCGateForSource s.gates gate.candidateSource = some g :=
    h.exclusive.activeRCGateForSource hg hopen (by rw [hsource]; exact mem_cons_self) htrim
  grind [sameRequest_iff, lookupRCGate]

/-- **Gate sources are exclusive, and registering twice is idempotent in whole seconds.** In every
interleaving of registrations and closings no source name belongs to two open gates; the request of
a gate that is still open creates nothing when it is made again; and that gate is the answer, of a
whole registration and of one that waits for its lookup, exactly where the duration and the warm-up
of the request are whole seconds. -/
theorem registration_exclusive (metered : List Text) (s : State)
    (hs : (machine metered).Reachable s) :
    (∀ g ∈ s.gates, ∀ g' ∈ s.gates, g.closed = false → g'.closed = false → g.id ≠ g'.id →
      ∀ source ∈ g.sources, source ∉ g'.sources) ∧
    ∀ g ∈ s.gates, g.closed = false → ∀ request, s.requests g.id = some request →
      (∀ now, (registerRCGate metered {} s.gates request now).2 = s.gates) ∧
      (∀ now, registerRCGate metered {} s.gates request now = (.ok (g, false), s.gates) ↔
        WholeSeconds request) ∧
      ∀ c gate, s.calls c = .lookup request gate →
        (lookupRCGate s.gates gate = .ok (g, false) ↔ WholeSeconds request) := by
  have h := inv_reachable hs
  refine ⟨h.exclusive, fun g hg hopen request hrequest => ?_⟩
  have hcreated := h.created g hg request hrequest
  have ⟨_, _, hfirst, _⟩ := hcreated
  have hagain : ∀ now, registerRCGate metered {} s.gates request now =
      (lookupRCGate s.gates ((newRCGate metered request now).toOption.getD g), s.gates) := by
    intro now
    obtain ⟨gate, hgate⟩ := newRCGate_now hfirst now
    have hover := overlapping_of_open hg hopen (candidateSource_eq hcreated hgate).2
    rw [registerRCGate_eq hgate, createRCGate, if_pos hover, hgate]
    rfl
  refine ⟨fun now => by rw [hagain], fun now => ?_, fun c gate hcall => ?_⟩
  · obtain ⟨gate, hgate⟩ := newRCGate_now hfirst now
    rw [hagain, hgate, ← h.lookup_iff hg hopen hrequest hgate]
    simp [Except.toOption]
  · obtain ⟨now, hgate⟩ := h.waiting c request gate hcall
    exact h.lookup_iff hg hopen hrequest hgate

deriving instance DecidableEq for RCGateRequest

def rcRequest (duration : String) : RCGateRequest where
  repository := rcGateUpstreamRepository
  candidateSHA := replicate 40 'a'
  baselineSHA := replicate 40 'b'
  duration := text duration

/-- A gate of 72 hours is found again when its request is repeated. -/
theorem registration_exclusive_whole_hours :
    ∃ s g, (machine []).Reachable s ∧ g ∈ s.gates ∧
      registerRCGate [] {} s.gates (rcRequest "72h") 60 = (.ok (g, false), s.gates) := by
  have hstart : (machine []).Reachable {} := .start rfl
  obtain ⟨s, hs, g, hg, hopen, hrequest⟩ := Machine.exists_reaches_of_run hstart
    [.register 0 (rcRequest "72h") 0 false]
    (P := fun s => ∃ g ∈ s.gates.rows, g.closed = false ∧
      s.requests g.id = some (rcRequest "72h")) (by decide +kernel)
  have hwhole : WholeSeconds (rcRequest "72h") := by
    intro kind duration hkind hduration
    have hrc : parseRCGateKind (rcRequest "72h").kind = .ok .rc := by decide
    have hhours : parseGateDuration (rcRequest "72h") .rc = .ok (72 * hour) := by decide +kernel
    cases hkind.symm.trans hrc
    cases hduration.symm.trans hhours
    refine ⟨by decide, fun warmup hwarmup => ?_⟩
    cases hwarmup
    decide
  have hthm := (registration_exclusive [] s hs).2 g hg hopen _ hrequest
  exact ⟨s, g, hs, hg, (hthm.2.1 60).mpr hwhole⟩

/-- **A gate of an hour and a half second** is registered, and the same request is then refused as
one for another gate. -/
theorem fractional_registration_refused :
    ∃ s g, (machine []).Reachable s ∧ g ∈ s.gates ∧ g.closed = false ∧
      s.requests g.id = some (rcRequest "1h0.5s") ∧
      (registerRCGate [] {} s.gates (rcRequest "1h0.5s") 60).1 = .error .sourceActive := by
  have hstart : (machine []).Reachable {} := .start rfl
  obtain ⟨s, hs, g, hg, hopen, hrequest, hrefused⟩ := Machine.exists_reaches_of_run hstart
    [.register 0 (rcRequest "1h0.5s") 0 false]
    (P := fun s => ∃ g ∈ s.gates.rows, g.closed = false ∧
      s.requests g.id = some (rcRequest "1h0.5s") ∧
      (registerRCGate [] {} s.gates (rcRequest "1h0.5s") 60).1 = .error .sourceActive)
    (by decide +kernel)
  exact ⟨s, g, hs, hg, hopen, hrequest, hrefused⟩

end LitestreamSoak.Gate.Ownership
