import LitestreamSoak.Orchestrator.Replacement
import LitestreamSoak.Orchestrator.RecoverySafety

/-!
# Orchestrator — when a worker may get a second machine

A request for a machine should find every machine that was recorded or requested before it confirmed
gone (`AllGone`). Two paths break this, both in the resume of a dormant worker: it goes on after a
destroy that failed, and after a creation whose answer is unknown it recreates the worker
(`second_machine`). Where neither happens (`clean`) the property holds in every run.
-/

namespace LitestreamSoak.Orchestrator.Replacement

open Lib Orchestrator List Option

/-! ## §1 — requests and the attempts that own them -/

variable {r : MachineRequest} {w w' : World}

/-- A request whose attempt is still open; nothing else is requested while it stands. -/
def Owned (w : World) (r : MachineRequest) : Prop :=
  ∃ a ∈ w.tables.attempts, a.phase.isOpen = true ∧ r.attempt = some a.id

/-- A request that was rejected, or whose machine is among `ids`. -/
def Within (ids : List Text) (r : MachineRequest) : Prop :=
  match r.result with
  | .ok id => id ∈ ids
  | .error e => providerRejectedRequest e = true

theorem Within.mono {ids ids' : List Text} (h : Within ids r)
    (hsub : ids ⊆ ids') : Within ids' r := by
  grind [Within]

theorem Within.rejected (ids : List Text) {e : ProviderError}
    (hresult : r.result = .error e) (he : providerRejectedRequest e = true) : Within ids r := by
  unfold Within
  rw [hresult]
  exact he

/-- What a request for a ready attempt returned is the machine the attempt names. -/
def ReadyOK (w : World) : Prop :=
  ∀ row ∈ w.tables.attempts, row.phase = .machineReady →
    ∀ r ∈ w.machineRequests, r.attempt = some row.id → r.result = .ok row.machineID

/-- What a step does to requests: it makes none and keeps each owned or names its machine in the
worker's row, or it makes one for an open attempt while no other is owned. -/
inductive Moves (w w' : World) : Prop where
  | keep (hrequests : w'.machineRequests = w.machineRequests)
      (howned : ∀ r ∈ w.machineRequests, Owned w r →
        Owned w' r ∨ Within (machineIDs w'.tables) r)
  | request (r : MachineRequest) (hrequests : w'.machineRequests = r :: w.machineRequests)
      (htables : w'.tables = w.tables) (hown : Owned w r)
      (hfirst : ∀ r' ∈ w.machineRequests, ¬ Owned w r')

theorem Moves.refl (w : World) : Moves w w := .keep rfl fun _ _ h => .inl h

/-- No request is made and no attempt closes. -/
theorem Moves.of_open (hrequests : w'.machineRequests = w.machineRequests)
    (hopen : ∀ a ∈ w.tables.attempts, a.phase.isOpen = true →
      ∃ a' ∈ w'.tables.attempts, a'.phase.isOpen = true ∧ a'.id = a.id) : Moves w w' := by
  refine .keep hrequests fun r _ hown => .inl ?_
  grind [Owned]

theorem Moves.of_attempts (hrequests : w'.machineRequests = w.machineRequests)
    (hattempts : w'.tables.attempts = w.tables.attempts) : Moves w w' := by
  refine .of_open hrequests fun a ha hopen => ⟨a, ?_, hopen, rfl⟩
  rw [hattempts]
  exact ha

theorem ReadyOK.of_attempts (h : ReadyOK w)
    (hrequests : w'.machineRequests = w.machineRequests)
    (hattempts : w'.tables.attempts = w.tables.attempts) : ReadyOK w' := by
  unfold ReadyOK
  rw [hrequests, hattempts]
  exact h

/-! ## §2 — the parts of `createWorker` -/

variable {o : Orchestrator.Outcome} {result : Sql} {a : ProvisioningAttempt} {volumeID : Text}
  {cfg : Config} {t : Tables} {worker : Worker} {next : Next MachinePC (Option NewMachine)}

theorem insertAttempt_attempts (t : Tables) (new : ProvisioningAttempt) :
    (insertAttempt t new).worker = t.worker ∧
      ((insertAttempt t new).attempts = t.attempts ∨
        ∃ row, row.phase = .planned ∧ (insertAttempt t new).attempts = t.attempts ++ [row]) := by
  grind [insertAttempt]

/-- A step of a part keeps track of the requests, and of the row's machine while it goes on. -/
structure Tracks {PC α : Type} (w w' : World) (next : Next PC α) (P : PC → Prop) : Prop where
  ready : ReadyOK w'
  moves : Moves w w'
  goes : next.Holds (fun pc => machineIDs w'.tables = machineIDs w.tables ∧ P pc) fun _ => True

/-- `BeginProvisioning` inserts a planned attempt at most. -/
theorem insertAttempt_tracks (h : ReadyOK w) (new : ProvisioningAttempt) :
    ReadyOK (w.setTables (insertAttempt w.tables new)) ∧
      Moves w (w.setTables (insertAttempt w.tables new)) ∧
      machineIDs (insertAttempt w.tables new) = machineIDs w.tables := by
  obtain ⟨hworker, hattempts⟩ := insertAttempt_attempts w.tables new
  have hids : machineIDs (insertAttempt w.tables new) = machineIDs w.tables := by
    rw [machineIDs, machineIDs, hworker]
  rcases hattempts with hsame | ⟨row, hplanned, happend⟩
  · exact ⟨h.of_attempts rfl hsame, .of_attempts rfl hsame, hids⟩
  · refine ⟨?_, .of_open rfl fun a ha hopen => ⟨a, ?_, hopen, rfl⟩, hids⟩
    -- the new attempt is planned, not ready
    · grind [World.setTables, ReadyOK]
    · grind [World.setTables]

theorem beginStep_tracks {pc : BeginPC}
    {next : Next BeginPC (Option ProvisioningAttempt)} (h : ReadyOK w)
    (hstep : beginStep w pc o = some (w', next)) :
    ReadyOK w' ∧ Moves w w' ∧ machineIDs w'.tables = machineIDs w.tables := by
  unfold beginStep at hstep
  split at hstep
  · next new =>
    cases hstep
    exact insertAttempt_tracks h new
  · next new applied =>
    cases hstep
    cases applied with
    | true => exact insertAttempt_tracks h new
    | false => exact ⟨h, .refl w, rfl⟩
  · cases hstep
    exact ⟨h, .refl w, rfl⟩
  · cases hstep
    exact ⟨h, .refl w, rfl⟩
  · cases hstep

/-- A claim names a machine only when it makes the attempt ready. -/
theorem advanceStep_tracks {PC : Type} {phase : Phase}
    {machineID : Text} {goto : PC} {next : Next PC Bool} {P : PC → Prop}
    (hstep : advanceStep w a phase volumeID machineID result goto = (w', next)) (h : ReadyOK w)
    (hopen : phase.isOpen = true) (hgoto : P goto)
    (hready : phase = .machineReady → machineID ≠ [] ∧
      ∀ r ∈ w.machineRequests, r.attempt = some a.id → r.result = .ok machineID) :
    Tracks w w' next P := by
  have hmoves : Moves w (w.setAttempts
      (advanceProvisioning w.tables.attempts a phase volumeID machineID)) := by
    refine .of_open rfl fun x hx hxopen => ?_
    refine ⟨_, List.mem_map_of_mem hx, ?_, ?_⟩
    · split
      · exact hopen
      · exact hxopen
    · split <;> rfl
  have hkeeps : ReadyOK (w.setAttempts
      (advanceProvisioning w.tables.attempts a phase volumeID machineID)) := by
    intro x hx hxready r hr hattempt
    rcases mem_updateClaimed hx with hold | ⟨row, hrow, hid, hphase, rfl⟩
    · exact h x hold hxready r hr hattempt
    · obtain ⟨hne, hresult⟩ := hready hxready
      have hmachine : orKeep machineID row.machineID = machineID := if_neg hne
      show r.result = .ok (orKeep machineID row.machineID)
      rw [hmachine]
      refine hresult r hr ?_
      rw [hattempt]
      exact congrArg some hid
  unfold advanceStep at hstep
  dsimp only at hstep
  split at hstep
  · cases hstep
    refine ⟨hkeeps, hmoves, ?_⟩
    split
    · exact ⟨rfl, hgoto⟩
    · trivial
  · cases hstep
    exact ⟨hkeeps, hmoves, trivial⟩
  · cases hstep
    exact ⟨h, .refl _, trivial⟩

/-- All that was requested for the attempt is this machine. -/
def Answered (w : World) (a : ProvisioningAttempt) (machine : NewMachine) : Prop :=
  machine.id ≠ [] ∧ ∀ r ∈ w.machineRequests, r.attempt = some a.id → r.result = .ok machine.id

def MachineKnown (w : World) (a : ProvisioningAttempt) : MachinePC → Prop
  | .bind _ _ machine => Answered w a machine
  | _ => True

/-- A machine that is created has an id. -/
def Named : Orchestrator.Outcome → Prop
  | .machine (.ok machine) => machine.id ≠ []
  | _ => True

/-- While nothing was requested for the open attempt, no request is owned. -/
theorem not_owned (h : WorldOK w) (ha : Synced w a)
    (hcount : machineCount w a.id = 0) (hr : r ∈ w.machineRequests) :
    ¬ Owned w r := by
  rintro ⟨b, hb, hopen, hattempt⟩
  rw [h.oneOpen b hb a ha.1 hopen ha.2] at hattempt
  exact countP_eq_zero.mp hcount r hr (by simpa using hattempt)

theorem Answered.first {args : MachineArgs}
    {identity : WorkerIdentity} {machine : NewMachine} (hcount : machineCount w a.id = 0)
    (hnamed : machine.id ≠ []) :
    Answered (requestMachine w args identity (.ok machine)) a machine := by
  refine ⟨hnamed, fun r hr hattempt => ?_⟩
  rcases mem_cons.mp hr with rfl | hold
  · rfl
  · exact absurd (by simpa using hattempt) (countP_eq_zero.mp hcount r hold)

/-- The request of the open attempt becomes the one that is owned. -/
theorem requestMachine_tracks (h : WorldOK w) (hready : ReadyOK w) (ha : Synced w a)
    (hphase : a.phase = .machineRequested) (hcount : machineCount w a.id = 0) {args : MachineArgs}
    (hargs : args.attempt = some a.id) (identity : WorkerIdentity)
    (result : Except ProviderError NewMachine) :
    ReadyOK (requestMachine w args identity result) ∧
      Moves w (requestMachine w args identity result) := by
  refine ⟨fun row hrow hrowready r hr hattempt => ?_,
    .request _ rfl rfl ⟨a, ha.1, ha.2, hargs⟩ fun r hr => not_owned h ha hcount hr⟩
  rcases mem_cons.mp hr with rfl | hold
  · -- the attempt that requests is not ready
    obtain rfl := h.eq_of_id hrow ha.1 (some.inj (hattempt.symm.trans hargs))
    cases hphase.symm.trans hrowready
  · exact hready row hrow hrowready r hold hattempt

theorem saveIdentity_tracks {PC α : Type}
    {provisioning : Option ProvisioningAttempt} {identity : WorkerIdentity}
    {yes no next : Next PC α} (h : ReadyOK w)
    (hexec : w.exec (saveIdentity cfg w.tables provisioning identity) result yes no = (w', next)) :
    ReadyOK w' ∧ Moves w w' ∧ w'.machineRequests = w.machineRequests ∧
      w'.tables.worker = w.tables.worker ∧ (next = yes ∨ next = no) := by
  rcases exec_cases hexec with ⟨t, ht, rfl, hnext⟩ | ⟨rfl, hnext⟩
  · obtain ⟨hattempts, hworker⟩ := saveIdentity_spec ht
    exact ⟨h.of_attempts rfl hattempts, .of_attempts rfl hattempts, rfl, hworker, hnext⟩
  · exact ⟨h, .refl _, rfl, rfl, .inr hnext⟩

theorem machineIDs_congr {t' : Tables} (h : t'.worker = t.worker) :
    machineIDs t' = machineIDs t := by
  rw [machineIDs, machineIDs, h]

/-- A step of `createWorkerMachine` under a claim. -/
theorem machineStep_tracks {pc : MachinePC} (h : WorldOK w) (hready : ReadyOK w) (ha : Synced w a)
    (hphase : a.phase = .machineRequested) (hpc : MachineOK w a pc) (hknown : MachineKnown w a pc)
    (hnamed : Named o) (hstep : machineStep cfg (machineArgs worker a) w pc o = some (w', next)) :
    ReadyOK w' ∧ Moves w w' ∧ machineIDs w'.tables = machineIDs w.tables ∧
      next.Holds (MachineKnown w' a) fun r => ∀ m ∈ r, Answered w' a m := by
  unfold machineStep at hstep
  split at hstep
  · cases hstep
    exact ⟨hready, .refl w, rfl, trivial⟩
  · cases hstep
    exact ⟨hready, .refl w, rfl, nofun⟩
  · cases hstep
    exact ⟨hready, .refl w, rfl, nofun⟩
  · split at hstep
    · cases hstep
      exact ⟨hready, .refl w, rfl, nofun⟩
    · grind [saveIdentity_tracks, machineIDs, Next.Holds, MachineKnown]
  · next provisioning identity n result =>
    have hargs : (machineArgs worker a).attempt = some a.id := rfl
    obtain ⟨hready', hmoves⟩ :=
      requestMachine_tracks h hready ha hphase hpc.2 hargs identity result
    cases result with
    | ok machine =>
      cases hstep
      exact ⟨hready', hmoves, rfl, .first hpc.2 hnamed⟩
    | error e =>
      simp only [hpc.1, Bool.true_or, if_true] at hstep
      cases hstep
      exact ⟨hready', hmoves, rfl, nofun⟩
  · cases hstep
    exact ⟨hready, .refl w, rfl, nofun⟩
  · next provisioning identity machine result =>
    obtain ⟨hready', hmoves, hrequests, hworker, hnext⟩ :=
      saveIdentity_tracks hready (some.inj hstep)
    refine ⟨hready', hmoves, machineIDs_congr hworker, ?_⟩
    rcases hnext with rfl | rfl
    · intro m hm
      cases hm
      exact ⟨hknown.1, hrequests ▸ hknown.2⟩
    · exact nofun
  · cases hstep

/-- The completion takes the machine over into the worker's row. -/
theorem completeProvisioning_tracks
    (h : WorldOK w) (hready : ReadyOK w) (ht : completeProvisioning w.tables a = some t) :
    ReadyOK (w.setTables t) ∧ Moves w (w.setTables t) := by
  simp only [completeProvisioning, ite_none_right_eq_some] at ht
  obtain ⟨⟨hphase, hmachine, -, hstored, hprovisionable⟩, ht⟩ := ht
  cases ht
  obtain ⟨row, hrow, hrowready⟩ := List.any_eq_true.mp hstored
  have hrowready : ((row.id = a.id ∧ row.phase = .machineReady) ∧ row.volumeID = a.volumeID) ∧
      row.machineID = a.machineID := by simpa using hrowready
  have hworker : ∃ x, w.tables.worker = some x := by
    rw [← isSome_iff_exists]
    exact isSome_of_any hprovisionable
  obtain ⟨x, hx⟩ := hworker
  refine ⟨fun y hy hyready r hr hattempt => ?_, .keep rfl fun r hr hown => ?_⟩
  · rcases mem_updateClaimed hy with hold | ⟨_, -, -, -, rfl⟩
    · exact hready y hold hyready r hr hattempt
    · cases hyready
  · -- the requests of the attempt that completes created the machine now in the worker's row
    obtain ⟨y, hy, hopen, hattempt⟩ := hown
    by_cases hclaimed : y.id = a.id ∧ y.phase = a.phase
    · right
      obtain rfl := h.eq_of_id hy hrow (hclaimed.1.trans hrowready.1.1.1.symm)
      have hresult := hready y hy hrowready.1.1.2 r hr hattempt
      unfold Within
      rw [hresult, hrowready.2]
      simp [machineIDs, World.setTables, hx, hmachine]
    · grind [Owned, World.setTables, updateClaimed]

theorem finishStep_tracks {PC : Type}
    {machine : NewMachine} {next : Next PC Bool} {P : PC → Prop} (h : WorldOK w)
    (hready : ReadyOK w) (hstep : finishStep w a machine result = (w', next)) :
    Tracks w w' next P := by
  unfold finishStep at hstep
  rcases exec_cases hstep with ⟨t, ht, rfl, hnext⟩ | ⟨rfl, rfl⟩
  · have hkeeps : ReadyOK (w.setTables t) ∧ Moves w (w.setTables t) := by
      split at ht
      · exact completeProvisioning_tracks h hready ht
      · have hattempts := (bindProvisioningMachine_quiet ht).1
        exact ⟨hready.of_attempts rfl hattempts, .of_attempts rfl hattempts⟩
    refine ⟨hkeeps.1, hkeeps.2, ?_⟩
    rcases hnext with rfl | rfl <;> trivial
  · exact ⟨hready, .refl _, trivial⟩

def ProvisionKnown (w : World) : ProvisionPC → Prop
  | .machine a pc => MachineKnown w a pc
  | .saveMachine a machine => Answered w a machine
  | _ => True

/-- A step of `resumeWorkerProvisioning`. -/
theorem provisionStep_tracks {pc : ProvisionPC} {next : Next ProvisionPC Bool} (h : WorldOK w)
    (hready : ReadyOK w) (hpc : ProvisionOK w pc) (hknown : ProvisionKnown w pc)
    (hnamed : Named o) (hstep : provisionStep cfg worker w pc o = some (w', next)) :
    Tracks w w' next (ProvisionKnown w') := by
  -- a request for a volume changes neither the tables nor the requests for machines
  have hvolume : ∀ a result, Moves w (requestVolume w a result) := fun _ _ => .of_attempts rfl rfl
  unfold provisionStep at hstep
  split at hstep
  · cases hstep
    exact ⟨hready, .refl w, trivial⟩
  · split at hstep
    · exact advanceStep_tracks (some.inj hstep) hready rfl trivial nofun
    · exact advanceStep_tracks (some.inj hstep) hready rfl trivial nofun
    · cases hstep
      exact ⟨hready, .refl w, trivial⟩
  · cases hstep
    exact ⟨hready, .refl w, rfl, trivial⟩
  · cases hstep
    exact ⟨hready, .refl w, trivial⟩
  · cases hstep
    exact ⟨hready, .refl w, trivial⟩
  · next a attempt found =>
    cases hstep
    refine ⟨hready, .refl w, rfl, ?_⟩
    cases found <;> trivial
  · next a attempt result =>
    cases result with
    | ok volumeID =>
      cases hstep
      exact ⟨hready, hvolume _ _, rfl, trivial⟩
    | error e =>
      dsimp only at hstep
      split at hstep <;> cases hstep
      · exact ⟨hready, hvolume _ _, trivial⟩
      · exact ⟨hready, hvolume _ _, rfl, trivial⟩
  · next a result =>
    cases result with
    | ok volumeID =>
      cases hstep
      exact ⟨hready, hvolume _ _, rfl, trivial⟩
    | error e =>
      cases hstep
      exact ⟨hready, hvolume _ _, trivial⟩
  · exact advanceStep_tracks (some.inj hstep) hready rfl trivial nofun
  · obtain ⟨ha, hphase, hmachine⟩ := hpc
    split at hstep
    · cases hstep
    all_goals
      next hsub =>
        cases hstep
        obtain ⟨hready', hmoves, hids, hnext⟩ :=
          machineStep_tracks h hready ha hphase hmachine hknown hnamed hsub
        refine ⟨hready', hmoves, ?_⟩
        first | trivial | exact ⟨hids, hnext⟩ | exact ⟨hids, hnext _ rfl⟩
  · exact advanceStep_tracks (some.inj hstep) hready rfl trivial fun _ => hknown
  · exact finishStep_tracks h hready (some.inj hstep)
  · cases hstep

theorem machineIDs_upsert (t : Tables) (req : WorkerRequest) (now : Int) :
    machineIDs { t with
      worker := some (upsertWorker t.worker { newWorkerRecord req with createdAt := now }) } =
      machineIDs t := by
  cases hworker : t.worker with
  | none => simp [machineIDs, hworker, upsertWorker, newWorkerRecord]
  | some old => simp [machineIDs, hworker, upsertWorker, newWorkerRecord, orKeep_nil]

def CreateKnown (w : World) : CreatePC → Prop
  | .provision _ pc => ProvisionKnown w pc
  | _ => True

/-- A step of `createWorker`. -/
theorem createStep_tracks {pc : CreatePC}
    {next : Next CreatePC Bool} (h : WorldOK w) (hready : ReadyOK w) (hpc : CreateOK w pc)
    (hknown : CreateKnown w pc) (hnamed : Named o)
    (hstep : createStep cfg w pc o = some (w', next)) : Tracks w w' next (CreateKnown w') := by
  unfold createStep at hstep
  split at hstep
  · cases hstep
    exact ⟨hready, .refl w, trivial⟩
  · split at hstep <;> cases hstep
    · exact ⟨hready, .refl w, trivial⟩
    · exact ⟨hready, .refl w, rfl, trivial⟩
  · cases hstep
    exact ⟨hready, .refl w, rfl, trivial⟩
  · next req now result =>
    rcases exec_cases (some.inj hstep) with ⟨t, ht, rfl, hnext⟩ | ⟨rfl, rfl⟩
    · cases ht
      refine ⟨hready, .of_attempts rfl rfl, ?_⟩
      rcases hnext with rfl | rfl
      · exact ⟨machineIDs_upsert _ req now, trivial⟩
      · trivial
    · exact ⟨hready, .refl _, trivial⟩
  · cases hstep
    exact ⟨hready, .refl w, trivial⟩
  · cases hstep
    exact ⟨hready, .refl w, rfl, trivial⟩
  · split at hstep
    · cases hstep
    all_goals
      next hsub =>
        cases hstep
        obtain ⟨hready', hmoves, hids⟩ := beginStep_tracks hready hsub
        exact ⟨hready', hmoves, by trivial⟩
  · split at hstep
    · cases hstep
    all_goals
      next hsub =>
        cases hstep
        obtain ⟨hready', hmoves, hgoes⟩ := provisionStep_tracks h hready hpc hknown hnamed hsub
        exact ⟨hready', hmoves, hgoes⟩
  · cases hstep

/-! ## §3 — the direct creation of a resume -/

variable {req : WorkerRequest}

/-- No attempt is open. -/
def NoOpen (w : World) : Prop := ∀ a ∈ w.tables.attempts, a.phase.isOpen = false

def Dormant (w : World) : Prop := ∀ x, w.tables.worker = some x → x.status = .dormant

/-- A resume creates its machine itself, while no attempt is open. -/
def DirectOK (w : World) : MachinePC → Prop
  | .lookup => True
  | .register provisioning => provisioning = none → NoOpen w
  | .request provisioning _ _ => provisioning = none ∧ NoOpen w
  | .bind provisioning _ machine => provisioning = none ∧ NoOpen w ∧ machine.id ≠ []

theorem noOpen_of_active (h : activeProvisioning w.tables.attempts = none) : NoOpen w := by
  intro a ha
  have hnone := find?_eq_none.mp h a ha
  simpa using hnone

theorem NoOpen.not_owned (h : NoOpen w) (r : MachineRequest) : ¬ Owned w r := by
  rintro ⟨a, ha, hopen, -⟩
  cases (h a ha).symm.trans hopen

/-- No identity is saved for an attempt while the worker is dormant. -/
theorem saveIdentity_dormant (h : Dormant w) (a : ProvisioningAttempt)
    (identity : WorkerIdentity) : saveIdentity cfg w.tables (some a) identity = none := by
  have hrefused : provisionable w.tables a = false := by
    unfold provisionable
    cases hworker : w.tables.worker with
    | none => rfl
    | some x => simp [h x hworker]
  simp [saveIdentity, expectProvisioningRun, hrefused]

/-- What a step of the direct creation does: nothing to the row, the attempts and the requests, or
one request that no attempt owns. -/
inductive DirectMove (w w' : World) (o : Orchestrator.Outcome) :
    MachinePC → Next MachinePC (Option NewMachine) → Prop where
  | goto {pc pc' : MachinePC} (hsame : Same w w') (hworker : w'.tables.worker = w.tables.worker)
      (hpc : ∀ p i m, pc ≠ .bind p i m) (hpc' : DirectOK w' pc')
        (hbind : ∀ p i m, pc' ≠ .bind p i m) :
      DirectMove w w' o pc (.goto pc')
  | stop {pc : MachinePC} (hsame : Same w w') (hworker : w'.tables.worker = w.tables.worker)
      (hpc : (∀ p i m, pc ≠ .bind p i m) ∨ ∃ applied, o = .sql (.failed applied)) :
      DirectMove w w' o pc (.done none)
  | bound {p : Option ProvisioningAttempt} {i : WorkerIdentity} {m : NewMachine} (hsame : Same w w')
      (hworker : w'.tables.worker = w.tables.worker) :
      DirectMove w w' o (.bind p i m) (.done (some m))
  | created {p : Option ProvisioningAttempt} {i : WorkerIdentity} {n : Nat} {m : NewMachine}
      {r : MachineRequest} (hw : w' = { w with machineRequests := r :: w.machineRequests })
      (hattempt : r.attempt = none) (ho : o = .machine (.ok m)) (hresult : r.result = .ok m.id) :
      DirectMove w w' o (.request p i n) (.goto (.bind none i m))
  | failed {p : Option ProvisioningAttempt} {i : WorkerIdentity} {n : Nat} {e : ProviderError}
      {r : MachineRequest} {next : Next MachinePC (Option NewMachine)}
      (hw : w' = { w with machineRequests := r :: w.machineRequests })
      (hattempt : r.attempt = none) (ho : o = .machine (.error e)) (hresult : r.result = .error e)
      (hnext : next = .done none ∨ next = .goto (.request none i (n + 1))) :
      DirectMove w w' o (.request p i n) next

/-- A step of `createWorkerMachine` without a claim. -/
theorem directStep_spec {pc : MachinePC} (hdormant : Dormant w) (hpc : DirectOK w pc)
    (hstep : machineStep cfg (resumeArgs worker req volumeID) w pc o = some (w', next)) :
    DirectMove w w' o pc next := by
  unfold machineStep at hstep
  split at hstep
  · cases hstep
    exact .goto ⟨rfl, rfl, rfl⟩ rfl nofun noOpen_of_active nofun
  · cases hstep
    exact .stop ⟨rfl, rfl, rfl⟩ rfl (.inl nofun)
  · cases hstep
    exact .stop ⟨rfl, rfl, rfl⟩ rfl (.inl nofun)
  · next provisioning runID deploymentID workloadSHA result =>
    split at hstep
    · cases hstep
      exact .stop ⟨rfl, rfl, rfl⟩ rfl (.inl nofun)
    · have hexec := some.inj hstep
      cases provisioning with
      | some a =>
        rw [saveIdentity_dormant hdormant] at hexec
        cases hexec
        exact .stop ⟨rfl, rfl, rfl⟩ rfl (.inl nofun)
      | none =>
        have hopen : NoOpen w := hpc rfl
        rcases exec_cases hexec with ⟨t, ht, rfl, hnext⟩ | ⟨rfl, rfl⟩
        · obtain ⟨hattempts, hworker⟩ := saveIdentity_spec ht
          rcases hnext with rfl | rfl
          · refine .goto ⟨hattempts, rfl, rfl⟩ hworker nofun ⟨rfl, fun a ha => ?_⟩ nofun
            exact hopen a (hattempts ▸ ha)
          · exact .stop ⟨hattempts, rfl, rfl⟩ hworker (.inl nofun)
        · exact .stop ⟨rfl, rfl, rfl⟩ rfl (.inl nofun)
  · next provisioning identity n result =>
    obtain ⟨rfl, hopen⟩ := hpc
    cases result with
    | ok machine =>
      cases hstep
      exact .created rfl rfl rfl rfl
    | error e =>
      dsimp only at hstep
      split at hstep <;> cases hstep
      · exact .failed rfl rfl rfl rfl (.inl rfl)
      · exact .failed rfl rfl rfl rfl (.inr rfl)
  · cases hstep
    exact .stop ⟨rfl, rfl, rfl⟩ rfl (.inl nofun)
  · next provisioning identity machine result =>
    obtain ⟨rfl, -, -⟩ := hpc
    cases result with
    | ok =>
      cases hstep
      exact .bound ⟨rfl, rfl, rfl⟩ rfl
    | failed applied =>
      cases applied <;> cases hstep <;> exact .stop ⟨rfl, rfl, rfl⟩ rfl (.inr ⟨_, rfl⟩)
  · cases hstep

/-! ## §4 — the invariant -/

variable {s : State}

/-- Every machine on record is confirmed gone. -/
def Cleared (s : State) : Prop := ∀ id ∈ machineIDs s.world.tables, id ∈ s.gone

/-- The caller's copy of the row names the machine on record. -/
def RowIs (s : State) (w : Worker) : Prop :=
  ∃ x, s.world.tables.worker = some x ∧ x.flyMachineID = w.flyMachineID

/-- A machine that was created and is not on record yet. -/
def pending : PC → List Text
  | .machine _ _ _ (.bind _ _ machine) => [machine.id]
  | .record _ _ machine => [machine.id]
  | _ => []

/-- What a call relies on, place by place. -/
def PCOK (s : State) : PC → Prop
  | .idle | .readWorker _ | .probing => True
  | .readAttempt w _ | .stop w _ | .destroy w _ | .recreate w _ => RowIs s w
  | .supersede w _ a => RowIs s w ∧ Synced s.world a ∧ a.phase = .machineReady ∧
      a.machineID ∈ machineIDs s.world.tables
  | .destroyVolume _ _ | .recreateVolume _ _ => Cleared s
  | .create _ pc => Cleared s ∧ CreateOK s.world pc ∧ CreateKnown s.world pc
  | .mounts w _ | .backfill w _ _ | .destroyDormant w _ _ => RowIs s w ∧ Dormant s.world
  | .machine w _ _ pc => RowIs s w ∧ Dormant s.world ∧ Cleared s ∧ DirectOK s.world pc
  | .record _ _ machine => Cleared s ∧ machine.id ≠ [] ∧ s.world.tables.worker.isSome = true
  | .recordVersion _ machine => ∃ x, s.world.tables.worker = some x ∧ x.flyMachineID = machine.id

/-- Every machine is gone, on record in the worker's row, or owned. -/
structure Inv (s : State) : Prop where
  world : WorldOK s.world
  ready : ReadyOK s.world
  recorded : ∀ id ∈ s.recorded, id ∈ s.gone ∨ id ∈ machineIDs s.world.tables
  requests : ∀ r ∈ s.world.machineRequests, Owned s.world r ∨
    Within (s.gone ++ machineIDs s.world.tables ++ pending s.pc) r
  pc : PCOK s s.pc

theorem mem_machineIDs {id : Text} :
    id ∈ machineIDs t ↔ id ≠ [] ∧ ∃ x, t.worker = some x ∧ x.flyMachineID = id := by
  cases hworker : t.worker with
  | none => simp [machineIDs, hworker]
  | some x => grind [machineIDs]

/-- Once the machine of its copy is gone, the caller may create another. -/
theorem RowIs.cleared {w : Worker} (h : RowIs s w)
    (hgone : w.flyMachineID = [] ∨ w.flyMachineID ∈ s.gone) : Cleared s := by
  obtain ⟨x, hx, hid⟩ := h
  intro id hmem
  obtain ⟨hne, y, hy, rfl⟩ := mem_machineIDs.mp hmem
  grind

/-! ### The entries of the calls -/

section Entries

variable {s : State} {w : Worker} {req : WorkerRequest}

theorem volumeEntry_ok (h : Cleared s) :
    PCOK s (volumeEntry w req) ∧ pending (volumeEntry w req) = [] := by
  unfold volumeEntry
  split
  · exact ⟨⟨h, trivial, trivial⟩, rfl⟩
  · exact ⟨h, rfl⟩

theorem machineEntry_ok (h : RowIs s w) :
    PCOK s (machineEntry w req) ∧ pending (machineEntry w req) = [] := by
  unfold machineEntry
  split
  · next hnil => exact volumeEntry_ok (h.cleared (.inl hnil))
  · exact ⟨h, rfl⟩

theorem recreateVolumeEntry_ok (h : Cleared s) :
    PCOK s (recreateVolumeEntry w req) ∧ pending (recreateVolumeEntry w req) = [] := by
  unfold recreateVolumeEntry
  split
  · exact ⟨⟨h, trivial, trivial⟩, rfl⟩
  · exact ⟨h, rfl⟩

theorem recreateEntry_ok (h : RowIs s w) :
    PCOK s (recreateEntry w req) ∧ pending (recreateEntry w req) = [] := by
  unfold recreateEntry
  split
  · next hnil => exact recreateVolumeEntry_ok (h.cleared (.inl hnil))
  · exact ⟨h, rfl⟩

theorem destroyDormantEntry_ok (h : RowIs s w) (hdormant : Dormant s.world) (volumeID : Text) :
    PCOK s (destroyDormantEntry w req volumeID) ∧
      pending (destroyDormantEntry w req volumeID) = [] := by
  unfold destroyDormantEntry
  split
  · next hnil => exact ⟨⟨h, hdormant, h.cleared (.inl hnil), trivial⟩, rfl⟩
  · exact ⟨⟨h, hdormant⟩, rfl⟩

/-- A call begins with what it read. -/
theorem callEntry_ok (h : s.world.tables.worker = some w) (call : Call) :
    PCOK s (callEntry w call) ∧ pending (callEntry w call) = [] := by
  have hrow : RowIs s w := ⟨w, h, rfl⟩
  cases call with
  | replace req rolling => grind [callEntry, PCOK, pending]
  | resume req physicalSpecMatches =>
    simp only [callEntry]
    split
    · exact ⟨trivial, rfl⟩
    · next hstatus =>
      have hdormant : Dormant s.world := by
        intro x hx
        cases h.symm.trans hx
        simpa using hstatus
      split
      · exact ⟨trivial, rfl⟩
      · split
        · exact recreateEntry_ok hrow
        · split
          · exact destroyDormantEntry_ok hrow hdormant _
          · split
            · exact ⟨trivial, rfl⟩
            · exact ⟨⟨hrow, hdormant⟩, rfl⟩

end Entries

/-! ### Moves of a caller -/

variable {pc : PC}

theorem Inv.stay {t : State} (h : Inv s) (hworld : t.world = s.world)
    (hrecorded : t.recorded = s.recorded) (hgone : s.gone ⊆ t.gone) (hpending : pending s.pc = [])
    (hpc : PCOK t t.pc) : Inv t := by
  refine ⟨hworld ▸ h.world, hworld ▸ h.ready, fun id hid => ?_, fun r hr => ?_, hpc⟩
  -- what is gone stays gone
  · grind [Inv.recorded]
  · grind [Inv.requests, Within]

/-- A step of the world, and what it must keep in sight. -/
theorem Inv.move (h : Inv s) (hworld : WorldOK w)
    (hready : ReadyOK w) (hmoves : Moves s.world w)
    (hcover : ∀ id ∈ machineIDs s.world.tables, id ∈ s.gone ∨ id ∈ machineIDs w.tables)
    (hpending : ∀ id ∈ pending s.pc, id ∈ machineIDs w.tables ++ pending pc)
    (hpc : PCOK (s.next w pc) pc) : Inv (s.next w pc) := by
  have hsub : s.gone ++ machineIDs s.world.tables ++ pending s.pc ⊆
      s.gone ++ machineIDs w.tables ++ pending pc := by
    intro id hid
    simp only [mem_append] at hid hpending ⊢
    rcases hid with (hgone | hrow) | hpend
    · exact .inl (.inl hgone)
    · exact .inl (hcover id hrow)
    · exact (hpending id hpend).imp_left .inr
  refine ⟨hworld, hready, fun id hid => ?_, fun r hr => ?_, hpc⟩
  · grind [Inv.recorded, State.next]
  · show Owned w r ∨ Within (s.gone ++ machineIDs w.tables ++ pending pc) r
    cases hmoves with
    | keep hrequests howned =>
      have hr : r ∈ s.world.machineRequests := hrequests ▸ hr
      rcases h.requests r hr with hown | hwithin
      · grind [Within]
      · exact .inr (hwithin.mono hsub)
    | request new hrequests htables hown hfirst =>
      have hr : r ∈ w.machineRequests := hr
      rw [hrequests] at hr
      rcases mem_cons.mp hr with rfl | hold
      · left
        unfold Owned
        rw [htables]
        exact hown
      · exact .inr (((h.requests r hold).resolve_left (hfirst r hold)).mono hsub)

theorem Inv.row (h : Inv s)
    (hattempts : t.attempts = s.world.tables.attempts)
    (hcover : ∀ id ∈ machineIDs s.world.tables, id ∈ s.gone ∨ id ∈ machineIDs t)
    (hpending : ∀ id ∈ pending s.pc, id ∈ machineIDs t ++ pending pc)
    (hpc : PCOK (s.next (s.world.setTables t) pc) pc) :
    Inv (s.next (s.world.setTables t) pc) :=
  h.move (h.world.same ⟨hattempts, rfl, rfl⟩) (h.ready.of_attempts rfl hattempts)
    (.of_attempts rfl hattempts) hcover hpending hpc

/-- A statement that takes effect or not, and may report an error either way. -/
theorem Inv.exec {t : Option Tables} {yes : PC}
    (hstmt : ∀ t', t = some t' → Inv (s.next (s.world.setTables t') yes) ∧
      Inv (s.next (s.world.setTables t') .idle))
    (hfail : t = none ∨ result = .failed false → Inv (s.goto .idle)) :
    Inv (s.exec t result yes) := by
  unfold State.exec
  split
  · next t' => exact (hstmt t' rfl).1
  · next t' => exact (hstmt t' rfl).2
  · next hok happlied =>
    refine hfail ?_
    cases t with
    | none => exact .inl rfl
    | some t =>
      cases result with
      | ok => exact absurd rfl (hok t rfl)
      | failed applied =>
        cases applied with
        | true => exact absurd rfl (happlied t rfl)
        | false => exact .inr rfl

/-- A ready attempt is superseded only while its machine is on record. -/
theorem abandon_tracks (h : WorldOK w)
    (hready : ReadyOK w) (ha : Synced w a) (hphase : a.phase = .machineReady)
    (hmachine : a.machineID ∈ machineIDs w.tables) (ht : abandonProvisioning w.tables a = some t) :
    ReadyOK (w.setTables t) ∧ Moves w (w.setTables t) ∧ t.worker = w.tables.worker := by
  simp only [abandonProvisioning, ite_none_right_eq_some] at ht
  cases ht.2
  refine ⟨fun y hy hyready r hr hattempt => ?_, .keep rfl fun r hr hown => ?_, rfl⟩
  · rcases mem_updateClaimed hy with hold | ⟨_, -, -, -, rfl⟩
    · exact hready y hold hyready r hr hattempt
    · cases hyready
  · right
    obtain ⟨y, hy, hopen, hattempt⟩ := hown
    cases h.oneOpen y hy a ha.1 hopen ha.2
    unfold Within
    rw [hready a ha.1 hphase r hr hattempt]
    exact hmachine

/-! ## §5 — steps -/

variable {s' : State}

/-- **The condition.** The resume's own destroy leaves no machine, its creation is answered by a
machine or by a rejection, and the machine it created is stored. -/
def clean (s : State) : Action → Bool
  | .step (.provider error) =>
    match s.pc with
    | .destroyDormant _ _ _ => destroyed error
    | _ => true
  | .step (.run (.machine (.error e))) =>
    match s.pc with
    | .machine _ _ _ _ => providerRejectedRequest e
    | _ => true
  | .step (.run (.sql result)) =>
    match s.pc with
    | .machine _ _ _ (.bind _ _ _) => result = .ok
    | .record _ _ _ => result != .failed false
    | _ => true
  | _ => true

/-- The steps of `createWorker` within a call. -/
theorem createStep_inv {probing : Bool} {pc : CreatePC} {next : Next CreatePC Bool}
    (hs : s.pc = .create probing pc) (h : Inv s) (hnamed : Named o)
    (hstep : createStep cfg s.world pc o = some (w, next)) :
    (∀ pc', next = .goto pc' → Inv (s.next w (.create probing pc'))) ∧ Inv (s.next w .idle) ∧
      Inv (s.next w .probing) := by
  have hpc : PCOK s (.create probing pc) := hs ▸ h.pc
  obtain ⟨hcleared, hok, hknown⟩ := hpc
  obtain ⟨hworld, -, hnext⟩ := createStep_spec h.world hok hstep
  obtain ⟨hready, hmoves, hgoes⟩ := createStep_tracks h.world h.ready hok hknown hnamed hstep
  have hnone : ∀ pc', ∀ id ∈ pending s.pc, id ∈ machineIDs w.tables ++ pending pc' := by
    intro pc' id hid
    rw [hs] at hid
    cases hid
  have hcover : ∀ id ∈ machineIDs s.world.tables, id ∈ s.gone ∨ id ∈ machineIDs w.tables :=
    fun id hid => .inl (hcleared id hid)
  refine ⟨?_, h.move hworld hready hmoves hcover (hnone _) trivial,
    h.move hworld hready hmoves hcover (hnone _) trivial⟩
  rintro pc' rfl
  refine h.move hworld hready hmoves hcover (hnone _) ⟨?_, hnext, hgoes.2⟩
  intro id hid
  exact hcleared id (hgoes.1 ▸ hid)

theorem Inv.same (h : Inv s) (hsame : Same s.world w)
    (hworker : w.tables.worker = s.world.tables.worker)
    (hpending : pending s.pc ⊆ pending pc) (hpc : PCOK (s.next w pc) pc) : Inv (s.next w pc) := by
  refine h.move (h.world.same hsame) (h.ready.of_attempts hsame.machines hsame.attempts)
    (.of_attempts hsame.machines hsame.attempts) ?_ ?_ hpc
  · intro id hid
    rw [machineIDs_congr hworker]
    exact .inr hid
  · exact fun id hid => mem_append_right _ (hpending hid)

/-- A request without an attempt. -/
theorem Inv.direct (h : Inv s) (hopen : NoOpen s.world)
    (hattempt : r.attempt = none) (hs : pending s.pc = []) (hresult : Within (pending pc) r)
    (hpc : PCOK (s.next { s.world with machineRequests := r :: s.world.machineRequests } pc) pc) :
    Inv (s.next { s.world with machineRequests := r :: s.world.machineRequests } pc) := by
  have hcount : ∀ id, machineCount { s.world with
      machineRequests := r :: s.world.machineRequests } id = machineCount s.world id := by
    intro id
    simp [machineCount, hattempt]
  refine ⟨⟨h.world.ids, h.world.oneOpen, fun row hrow => ?_, fun r' hr' id hid => ?_,
    h.world.volumeOwner⟩, fun row hrow hready r' hr' hid => ?_, fun id hid => ?_, fun r' hr' => ?_,
      hpc⟩
  · obtain ⟨hno, hm0, hm1, hv0, hv1⟩ := h.world.rows row hrow
    exact ⟨hno, hcount row.id ▸ hm0, hcount row.id ▸ hm1, hv0, hv1⟩
  · rcases mem_cons.mp hr' with rfl | hold
    · cases hattempt.symm.trans hid
    · exact h.world.machineOwner r' hold id hid
  · rcases mem_cons.mp hr' with rfl | hold
    · cases hattempt.symm.trans hid
    · exact h.ready row hrow hready r' hold hid
  · grind [Inv.recorded, State.next]
  · right
    rcases mem_cons.mp hr' with rfl | hold
    · exact hresult.mono (subset_append_right _ _)
    · have hwithin := (h.requests r' hold).resolve_left (hopen.not_owned r')
      rw [hs, append_nil] at hwithin
      exact hwithin.mono (subset_append_left _ _)

theorem pending_machine {w : Worker} {pc : MachinePC}
    (h : ∀ p i m, pc ≠ .bind p i m) : pending (.machine w req volumeID pc) = [] := by
  cases pc with
  | bind p i m => exact absurd rfl (h p i m)
  | _ => rfl

/-- The steps of `createWorkerMachine` within a resume. -/
theorem directStep_inv {w : Worker} {pc : MachinePC} {world : World}
    (hs : s.pc = .machine w req volumeID pc) (h : Inv s)
    (hclean : clean s (.step (.run o)) = true) (hnamed : Named o)
    (hstep : machineStep cfg (resumeArgs w req volumeID) s.world pc o = some (world, next)) :
    next.Holds (fun pc' => Inv (s.next world (.machine w req volumeID pc'))) fun result =>
      match result with
      | none => Inv (s.next world (recreateEntry w req))
      | some machine => Inv (s.next world (.record req volumeID machine)) := by
  have hpc : PCOK s (.machine w req volumeID pc) := hs ▸ h.pc
  obtain ⟨⟨x, hx, hid⟩, hdormant, hcleared, hok⟩ := hpc
  -- what rests on the worker's row stays with it
  have hframe : world.tables.worker = s.world.tables.worker → ∀ pc',
      RowIs (s.next world pc') w ∧ Dormant world ∧ Cleared (s.next world pc') := by
    intro hworker pc'
    refine ⟨⟨x, hworker.trans hx, hid⟩, fun y hy => hdormant y (hworker ▸ hy), fun id hmem => ?_⟩
    exact hcleared id (machineIDs_congr hworker ▸ hmem)
  cases directStep_spec hdormant hok hstep with
  | goto hsame hworker hpc hpc' hbind =>
    obtain ⟨hrow, hdormant', hcleared'⟩ := hframe hworker _
    refine h.same hsame hworker ?_ ⟨hrow, hdormant', hcleared', hpc'⟩
    rw [hs, pending_machine hpc]
    exact nil_subset _
  | stop hsame hworker hpc =>
    obtain ⟨hrow, -, -⟩ := hframe hworker (recreateEntry w req)
    have hpending : pending s.pc = [] := by
      rw [hs]
      cases pc with
      | bind p i m =>
        -- the statement that stores the machine's identity has not failed
        grind [clean]
      | _ => rfl
    refine h.same hsame hworker ?_ (recreateEntry_ok hrow).1
    rw [hpending]
    exact nil_subset _
  | bound hsame hworker =>
    obtain ⟨⟨y, hy, -⟩, -, hcleared'⟩ := hframe hworker _
    refine h.same hsame hworker ?_ ⟨hcleared', hok.2.2, isSome_of_eq_some hy⟩
    rw [hs]
    exact List.Subset.refl _
  | created hw hattempt ho hresult =>
    obtain ⟨-, hopen⟩ := hok
    subst hw ho
    obtain ⟨hrow, hdormant', hcleared'⟩ := hframe rfl _
    refine h.direct hopen hattempt (by rw [hs]; rfl) ?_
      ⟨hrow, hdormant', hcleared', rfl, hopen, hnamed⟩
    unfold Within
    rw [hresult]
    exact mem_singleton_self _
  | failed hw hattempt ho hresult hnext =>
    obtain ⟨-, hopen⟩ := hok
    subst hw ho
    have hrejected := fun ids => Within.rejected ids hresult (by simpa [clean, hs] using hclean)
    rcases hnext with rfl | rfl
    · obtain ⟨hrow, -, -⟩ := hframe rfl (recreateEntry w req)
      exact h.direct hopen hattempt (by rw [hs]; rfl) (hrejected _) (recreateEntry_ok hrow).1
    · obtain ⟨hrow, hdormant', hcleared'⟩ := hframe rfl _
      exact h.direct hopen hattempt (by rw [hs]; rfl) (hrejected _)
        ⟨hrow, hdormant', hcleared', rfl, hopen⟩

/-- The provider has confirmed that the machine of the row is gone. -/
theorem Cleared.confirm {w : Worker} (h : RowIs s w) (pc : PC) :
    Cleared ((s.confirm w.flyMachineID).goto pc) := by
  obtain ⟨x, hx, hid⟩ := h
  have hrow : RowIs ((s.confirm w.flyMachineID).goto pc) w := ⟨x, hx, hid⟩
  exact hrow.cleared (.inr (mem_cons_self ..))

theorem Inv.goto (h : Inv s) (hpending : pending s.pc = [])
    (hpc : PCOK s pc) : Inv (s.goto pc) := by
  refine h.stay rfl rfl (List.Subset.refl _) hpending ?_
  show PCOK (s.goto pc) pc
  cases pc <;> exact hpc

theorem Inv.confirm (h : Inv s) {id : Text} (hpending : pending s.pc = [])
    (hpc : PCOK ((s.confirm id).goto pc) pc) : Inv ((s.confirm id).goto pc) :=
  h.stay rfl rfl (subset_cons_self _ _) hpending hpc

theorem covered_of_nil {ids ids' : List Text} (h : ids = []) : ∀ id ∈ ids, id ∈ ids' := by
  rw [h]
  exact fun _ hid => absurd hid not_mem_nil

/-- The statement that abandons a ready attempt. -/
theorem supersede_inv {w : Worker}
    (h : Inv s) (hs : s.pc = .supersede w req a) (result : Sql) :
    Inv (s.exec (abandonProvisioning s.world.tables a) result
      (if w.status = .pending then .idle else machineEntry w req)) := by
  have hpc : PCOK s (.supersede w req a) := hs ▸ h.pc
  have hpending : pending s.pc = [] := by rw [hs]; rfl
  obtain ⟨⟨x, hx, hid⟩, ha, hphase, hmachine⟩ := hpc
  refine Inv.exec (fun t ht => ?_) fun _ => h.goto hpending trivial
  obtain ⟨hready, hmoves, hworker⟩ := abandon_tracks h.world h.ready ha hphase hmachine ht
  have hworld := abandonProvisioning_ok h.world ha ht
  have hcover : ∀ id ∈ machineIDs s.world.tables, id ∈ s.gone ∨ id ∈ machineIDs t :=
    fun id hmem => .inr (machineIDs_congr hworker ▸ hmem)
  refine ⟨h.move hworld hready hmoves hcover (covered_of_nil hpending) ?_,
    h.move hworld hready hmoves hcover (covered_of_nil hpending) trivial⟩
  split
  · trivial
  · exact (machineEntry_ok ⟨x, hworker.trans hx, hid⟩).1

/-- A statement that leaves the machine on record. -/
theorem Inv.keepMachine (h : Inv s) (hpending : pending s.pc = [])
    (hattempts : t.attempts = s.world.tables.attempts)
      (hids : machineIDs t = machineIDs s.world.tables)
    (hpc : PCOK (s.next (s.world.setTables t) pc) pc) :
    Inv (s.next (s.world.setTables t) pc) := by
  refine h.row hattempts (fun id hid => ?_) (covered_of_nil hpending) hpc
  rw [hids]
  exact .inr hid

theorem machineIDs_map {f : Worker → Worker} (h : ∀ x, t.worker = some x →
    (f x).flyMachineID = x.flyMachineID) :
    machineIDs { t with worker := t.worker.map f } = machineIDs t := by
  cases hworker : t.worker with
  | none => rw [machineIDs, machineIDs, hworker]; rfl
  | some x => simp [machineIDs, hworker, h x hworker]

theorem setMachine_worker {x : Worker} (h : t.worker = some x)
    (machineID volumeID : Text) : (setMachine t machineID volumeID).worker =
      some { x with flyMachineID := machineID, flyVolumeID := volumeID } := by
  show t.worker.map _ = _
  rw [h]
  rfl

/-- The volume id is backfilled, with the machine id the row has. -/
theorem backfill_inv {w : Worker} (h : Inv s)
    (hs : s.pc = .backfill w req volumeID) (result : Sql) :
    Inv (s.exec (some (setMachine s.world.tables w.flyMachineID volumeID)) result
      (destroyDormantEntry w req volumeID)) := by
  have hpc : PCOK s (.backfill w req volumeID) := hs ▸ h.pc
  have hpending : pending s.pc = [] := by rw [hs]; rfl
  obtain ⟨⟨x, hx, hid⟩, hdormant⟩ := hpc
  refine Inv.exec (fun t ht => ?_) fun _ => h.goto hpending trivial
  cases ht
  have hids : machineIDs (setMachine s.world.tables w.flyMachineID volumeID) =
      machineIDs s.world.tables := by
    refine machineIDs_map fun y hy => ?_
    cases hx.symm.trans hy
    exact hid.symm
  refine ⟨h.keepMachine hpending rfl hids ?_, h.keepMachine hpending rfl hids trivial⟩
  have hworker := setMachine_worker hx w.flyMachineID volumeID
  have hrow : ∀ pc', RowIs (s.next (s.world.setTables
      (setMachine s.world.tables w.flyMachineID volumeID)) pc') w := fun _ => ⟨_, hworker, rfl⟩
  refine (destroyDormantEntry_ok (hrow _) ?_ volumeID).1
  intro y hy
  obtain ⟨z, hz, rfl⟩ := map_eq_some_iff.mp hy
  exact hdormant z hz

/-- The new machine is put on record. -/
theorem record_inv {machine : NewMachine}
    (h : Inv s) (hs : s.pc = .record req volumeID machine)
    (hresult : result ≠ .failed false) :
    Inv (s.exec (some (setMachine s.world.tables machine.id volumeID)) result
      (.recordVersion req machine)) := by
  have hpc : PCOK s (.record req volumeID machine) := hs ▸ h.pc
  obtain ⟨hcleared, hne, hrow⟩ := hpc
  obtain ⟨x, hx⟩ := isSome_iff_exists.mp hrow
  have hworker := setMachine_worker hx machine.id volumeID
  have hpending : ∀ pc', ∀ id ∈ pending s.pc,
      id ∈ machineIDs (setMachine s.world.tables machine.id volumeID) ++ pending pc' := by
    intro pc' id hid
    rw [hs] at hid
    cases List.mem_singleton.mp hid
    exact mem_append_left _ (mem_machineIDs.mpr ⟨hne, _, hworker, rfl⟩)
  refine Inv.exec (fun t ht => ?_) fun hfail => ?_
  · cases ht
    have hcover : ∀ id ∈ machineIDs s.world.tables, id ∈ s.gone ∨
        id ∈ machineIDs (setMachine s.world.tables machine.id volumeID) :=
      fun id hid => .inl (hcleared id hid)
    exact ⟨h.row rfl hcover (hpending _) ⟨_, hworker, rfl⟩, h.row rfl hcover (hpending _) trivial⟩
  · rcases hfail with hnone | hfailed
    · cases hnone
    · exact absurd hfailed hresult

/-- **A step of a call.** -/
theorem callStep_inv {o : Outcome} (hs : s.pc = pc)
    (h : Inv s) (hclean : clean s (.step o) = true) (hnamed : ∀ out, o = .run out → Named out)
    (hstep : callStep cfg s pc o = some s') : Inv s' := by
  have hpc : PCOK s pc := hs ▸ h.pc
  have hpending : pending s.pc = pending pc := by rw [hs]
  unfold callStep at hstep
  split at hstep
  · -- the worker's row is read
    next call =>
    split at hstep
    · cases hstep
      exact h.goto hpending trivial
    · next w hw =>
      cases hstep
      exact h.goto hpending (callEntry_ok hw call).1
  · next w req =>
    split at hstep
    · cases hstep
      refine h.goto hpending ?_
      split
      · trivial
      · exact (machineEntry_ok hpc).1
    · next a ha =>
      cases hstep
      refine h.goto hpending ?_
      split
      · next hsuperseded =>
        obtain ⟨x, hx, hid⟩ := hpc
        simp only [supersededProvisioning, Bool.and_eq_true, bne_iff_ne, decide_eq_true_eq]
          at hsuperseded
        obtain ⟨⟨⟨⟨⟨⟨⟨⟨-, hphase⟩, hne⟩, hmachine⟩, -⟩, -⟩, -⟩, -⟩, -⟩ := hsuperseded
        refine ⟨⟨x, hx, hid⟩, synced_of_active ha, hphase, ?_⟩
        exact mem_machineIDs.mpr ⟨hne, x, hx, hid.trans hmachine.symm⟩
      · trivial
  · cases hstep
    exact supersede_inv h hs _
  · cases hstep
    exact h.goto hpending hpc
  · split at hstep <;> cases hstep
    · exact h.confirm hpending (volumeEntry_ok (Cleared.confirm hpc _)).1
    · exact h.goto hpending trivial
  · split at hstep <;> cases hstep
    · exact h.confirm hpending (volumeEntry_ok (Cleared.confirm hpc _)).1
    · exact h.goto hpending trivial
  · cases hstep
    refine h.goto hpending ?_
    split
    · exact ⟨hpc, trivial, trivial⟩
    · trivial
  · next probing pc out =>
    split at hstep
    · cases hstep
    · next hsub =>
      cases hstep
      exact (createStep_inv hs h (hnamed out rfl) hsub).1 _ rfl
    · next hsub =>
      cases hstep
      obtain ⟨-, hidle, hprobing⟩ := createStep_inv hs h (hnamed out rfl) hsub
      split
      · exact hprobing
      · exact hidle
  · -- a recreated worker is marked probing
    cases hstep
    have hids : machineIDs (markProbing s.world.tables) = machineIDs s.world.tables :=
      machineIDs_map fun _ _ => rfl
    refine Inv.exec (fun t ht => ?_) fun _ => h.goto hpending trivial
    cases ht
    exact ⟨h.keepMachine hpending rfl hids trivial, h.keepMachine hpending rfl hids trivial⟩
  · split at hstep <;> cases hstep
    · exact h.goto hpending trivial
    · exact h.goto hpending hpc
  · cases hstep
    exact h.goto hpending trivial
  · cases hstep
    exact backfill_inv h hs _
  · -- the condition: this destroy leaves no machine
    next w req volumeID error =>
    have hdestroyed : destroyed error = true := by simpa [clean, hs] using hclean
    rw [if_pos hdestroyed] at hstep
    cases hstep
    obtain ⟨hrow, hdormant⟩ := hpc
    exact h.confirm hpending ⟨hrow, hdormant, Cleared.confirm hrow _, trivial⟩
  · next w req volumeID pc out =>
    split at hstep
    · cases hstep
    all_goals
      next hsub =>
        cases hstep
        exact directStep_inv hs h hclean (hnamed out rfl) hsub
  · grind [record_inv, clean]
  · next req machine result =>
    obtain ⟨x, hx, hid⟩ := hpc
    cases hstep
    refine Inv.exec (fun t ht => ?_) fun _ => h.goto hpending trivial
    cases ht
    have hids : machineIDs (setMachineVersion s.world.tables machine.id req) =
        machineIDs s.world.tables := by
      refine machineIDs_map fun y hy => ?_
      cases hx.symm.trans hy
      exact hid.symm
    exact ⟨h.keepMachine hpending rfl hids trivial, h.keepMachine hpending rfl hids trivial⟩
  · split at hstep <;> cases hstep
    · exact h.confirm hpending (recreateVolumeEntry_ok (Cleared.confirm hpc _)).1
    · exact h.goto hpending trivial
  · cases hstep
    refine h.goto hpending ?_
    split
    · exact ⟨hpc, trivial, trivial⟩
    · trivial
  · cases hstep
    exact h.goto hpending trivial
  · cases hstep
    exact h.goto hpending trivial
  · cases hstep
    exact h.goto hpending trivial
  · cases hstep

theorem named_of_fresh (h : freshMachine s o = true) : Named o := by
  unfold freshMachine at h
  split at h
  · simp only [Bool.and_eq_true, bne_iff_ne] at h
    exact h.1.1.1
  · grind [Named]

/-- A step is one of its call, with a named machine. -/
theorem step_call {o : Outcome}
    (hstep : step cfg s (.step o) = some s') :
    callStep cfg s s.pc o = some s' ∧ ∀ out, o = .run out → Named out := by
  simp only [step] at hstep
  grind [named_of_fresh]

/-- **The step lemma.** -/
theorem step_inv {a : Action} (h : Inv s) (hclean : clean s a = true)
    (hstep : step cfg s a = some s') : Inv s' := by
  cases a with
  | call call =>
    simp only [step] at hstep
    split at hstep
    · next hs =>
      cases hstep
      exact h.goto (by rw [hs]; rfl) trivial
    · cases hstep
  | step o =>
    obtain ⟨hcall, hnamed⟩ := step_call hstep
    exact callStep_inv rfl h hclean hnamed hcall
  | settle status evidenceHeld =>
    simp only [step] at hstep
    split at hstep
    · next hs =>
      cases hstep
      have hids : machineIDs (setStatus s.world.tables status evidenceHeld) =
          machineIDs s.world.tables := machineIDs_map fun _ _ => rfl
      exact h.keepMachine (by rw [hs]; rfl) rfl hids trivial
    · cases hstep

/-- The invariant holds in every clean run. -/
theorem inv_of_reaches
    (h : (machine cfg worker).Reaches (fun s a => clean s a = true) s) : Inv s := by
  refine h.invariant ?_ ?_
  · rintro s rfl
    refine ⟨⟨nodup_nil, nofun, nofun, nofun, nofun⟩, nofun, fun id hid => .inr ?_, nofun, trivial⟩
    exact (mem_append.mp hid).resolve_right not_mem_nil
  · intro s a s' hs hclean hstep
    exact step_inv hs hclean hstep

/-! ## §6 — the result -/

/-- Every machine that was recorded is confirmed gone, and every request was rejected or its machine
is confirmed gone. -/
def AllGone (s : State) : Prop :=
  (∀ id ∈ s.recorded, id ∈ s.gone) ∧ ∀ r ∈ s.world.machineRequests, Within s.gone r

instance (ids : List Text) (r : MachineRequest) : Decidable (Within ids r) :=
  match h : r.result with
  | .ok id => decidable_of_iff (id ∈ ids) (by rw [Within, h])
  | .error e => decidable_of_iff (providerRejectedRequest e = true) (by rw [Within, h])

instance (s : State) : Decidable (AllGone s) := inferInstanceAs (Decidable (_ ∧ _))

/-- Where nothing is owned, on record or pending, every machine is gone. -/
theorem Inv.allGone (h : Inv s) (hcleared : Cleared s) (hpending : pending s.pc = [])
    (hfree : ∀ r ∈ s.world.machineRequests, ¬ Owned s.world r) : AllGone s := by
  refine ⟨fun id hid => (h.recorded id hid).elim (·) (hcleared id), fun r hr => ?_⟩
  refine ((h.requests r hr).resolve_left (hfree r hr)).mono fun id hid => ?_
  rw [hpending, append_nil] at hid
  exact (mem_append.mp hid).elim (·) (hcleared id)

/-- A new request comes from `createWorker` or from a resume. -/
theorem callStep_requests {o : Outcome}
    (hstep : callStep cfg s pc o = some s')
    (hchange : s'.world.machineRequests ≠ s.world.machineRequests) :
    (∃ probing pc' out w next, pc = .create probing pc' ∧ o = .run out ∧
      createStep cfg s.world pc' out = some (w, next) ∧
      w.machineRequests ≠ s.world.machineRequests) ∨
    ∃ w req volumeID pc' out world next, pc = .machine w req volumeID pc' ∧ o = .run out ∧
      machineStep cfg (resumeArgs w req volumeID) s.world pc' out = some (world, next) ∧
      world.machineRequests ≠ s.world.machineRequests := by
  have hexec : ∀ t result yes,
      (s.exec t result yes).world.machineRequests = s.world.machineRequests := by
    intro t result yes
    unfold State.exec
    split <;> rfl
  cases pc with
  | create probing pc =>
    cases o with
    | run out =>
      simp only [callStep] at hstep
      split at hstep
      · cases hstep
      all_goals
        next hsub =>
          cases hstep
          exact .inl ⟨_, _, _, _, _, rfl, rfl, hsub, hchange⟩
    | _ => cases hstep
  | machine w req volumeID pc =>
    cases o with
    | run out =>
      simp only [callStep] at hstep
      split at hstep
      · cases hstep
      all_goals
        next hsub =>
          cases hstep
          exact .inr ⟨_, _, _, _, _, _, _, rfl, rfl, hsub, hchange⟩
    | _ => cases hstep
  | _ =>
    -- every other step leaves the log
    unfold callStep at hstep
    split at hstep <;> try contradiction
    all_goals
      first
      | cases hstep; first | exact absurd rfl hchange | exact absurd (hexec _ _ _) hchange
      | split at hstep <;> cases hstep <;> exact absurd rfl hchange

/-- **A machine is requested only after the others are gone.** In every run of replacements, rolling
updates, resumes and recreations of a worker, and for every answer of the provider: if each destroy
and creation of a resume met the condition, then wherever a machine is requested, every machine that
was recorded or requested before is confirmed gone or its request was rejected. -/
theorem machine_requested_after_gone (cfg : Config) (worker : Worker) {s s' : State} {a : Action}
    (hreach : (machine cfg worker).Reaches (fun s a => clean s a = true) s)
    (hstep : (machine cfg worker).step s a = some s')
    (hrequest : s'.world.machineRequests ≠ s.world.machineRequests) : AllGone s := by
  have h := inv_of_reaches hreach
  have hcall : ∃ o, callStep cfg s s.pc o = some s' ∧ ∀ out, o = .run out → Named out := by
    cases a with
    | step o => exact ⟨o, step_call hstep⟩
    | _ =>
      simp only [machine, step] at hstep
      split at hstep <;> cases hstep
      exact absurd rfl hrequest
  obtain ⟨o, hcall, hnamed⟩ := hcall
  have hpc := h.pc
  rcases callStep_requests hcall hrequest with
    ⟨probing, pc, out, w, next, hs, rfl, hsub, hchange⟩ |
      ⟨w, req, volumeID, pc, out, world, next, hs, rfl, hsub, hchange⟩
  · -- the open attempt has made no request before
    rw [hs] at hpc
    obtain ⟨hcleared, hok, hknown⟩ := hpc
    refine h.allGone hcleared (by rw [hs]; rfl) ?_
    cases (createStep_tracks h.world h.ready hok hknown (hnamed out rfl) hsub).moves with
    | keep hrequests _ => exact absurd hrequests hchange
    | request _ _ _ _ hfirst => exact hfirst
  · rw [hs] at hpc
    obtain ⟨-, hdormant, hcleared, hok⟩ := hpc
    cases directStep_spec hdormant hok hsub with
    | goto hsame => exact absurd hsame.machines hchange
    | stop hsame => exact absurd hsame.machines hchange
    | bound hsame => exact absurd hsame.machines hchange
    | _ =>
      exact h.allGone hcleared (by rw [hs]; rfl) fun r _ => NoOpen.not_owned hok.2 r

/-- A dormant worker whose machine is destroyed is resumed with a new one. -/
theorem machine_requested_after_gone_resumed :
    let cfg : Config := ⟨text "w", id, id⟩
    let worker : Worker :=
      { name := text "n", status := .dormant, source := text "main", gitSHA := text "g"
        litestreamSHA := text "l", profileName := text "p", region := text "ord"
        flyMachineID := text "m", flyVolumeID := text "v", profile := some (text "f") }
    ∃ s s', (machine cfg worker).Reaches (fun s a => clean s a = true) s ∧
      (machine cfg worker).step s (.step (.run (.machine (.ok ⟨text "k", true⟩)))) = some s' ∧
      s'.world.machineRequests ≠ s.world.machineRequests ∧ text "m" ∈ s.recorded ∧ AllGone s := by
  intro cfg worker
  let req : WorkerRequest :=
    ⟨text "n", text "main", text "g", text "l", text "p", text "i", text "ord", 10, some (text "f")⟩
  have hrun : ∃ s, (machine cfg worker).Reaches (fun s a => clean s a = true) s ∧
      (text "m" ∈ s.recorded ∧
        ∃ s' ∈ (machine cfg worker).step s (.step (.run (.machine (.ok ⟨text "k", true⟩)))),
          s'.world.machineRequests.length ≠ s.world.machineRequests.length) :=
    Machine.exists_reaches_of_run (.start rfl)
      [.call (.resume req true), .step (.run (.sql .ok)), .step (.provider none),
        .step (.run (.sql .ok)), .step (.run (.register (text "r") 0 [] .ok))]
      (by decide)
  obtain ⟨s, hreach, hrecorded, s', hstep, hlength⟩ := hrun
  have hrequest : s'.world.machineRequests ≠ s.world.machineRequests := by
    intro hsame
    exact hlength (by rw [hsame])
  exact ⟨s, s', hreach, hstep, hrequest, hrecorded,
    machine_requested_after_gone cfg worker hreach hstep hrequest⟩

/-- **A second machine.** A dormant worker is resumed though the destroy of its machine failed; and
one whose creation is not answered is recreated, which requests another machine. -/
theorem second_machine :
    let cfg : Config := ⟨text "w", id, id⟩
    let worker := fun machineID : Text =>
      ({ name := text "n", status := .dormant, source := text "main", gitSHA := text "g"
         litestreamSHA := text "l", profileName := text "p", region := text "ord"
         flyMachineID := machineID, flyVolumeID := text "v", profile := some (text "f") } : Worker)
    let request : Action := .step (.run (.machine (.ok ⟨text "k", true⟩)))
    (∃ s, (machine cfg (worker (text "m"))).Reachable s ∧ s.world.machineRequests = [] ∧
      ¬ AllGone s ∧ ∃ s' ∈ (machine cfg (worker (text "m"))).step s request,
        s'.world.machineRequests.length = 1) ∧
    ∃ s, (machine cfg (worker [])).Reachable s ∧ s.world.machineRequests.length = 1 ∧
      ¬ AllGone s ∧ ∃ s' ∈ (machine cfg (worker [])).step s request,
        s'.world.machineRequests.length = 2 := by
  intro cfg worker request
  let req : WorkerRequest :=
    ⟨text "n", text "main", text "g", text "l", text "p", text "i", text "ord", 10, some (text "f")⟩
  let run := fun o => Action.step (.run o)
  constructor
  · have hrun : ∃ s, (machine cfg (worker (text "m"))).Reachable s ∧
        (s.world.machineRequests.length = 0 ∧ ¬ AllGone s ∧
          ∃ s' ∈ (machine cfg (worker (text "m"))).step s request,
            s'.world.machineRequests.length = 1) :=
      Machine.exists_reaches_of_run (.start rfl)
        [.call (.resume req true), run (.sql .ok), .step (.provider (some (.api 500 false))),
          run (.sql .ok), run (.register (text "r") 0 [] .ok)]
        (by decide)
    obtain ⟨s, hreach, hnone, hgone⟩ := hrun
    exact ⟨s, hreach, length_eq_zero_iff.mp hnone, hgone⟩
  · exact Machine.exists_reaches_of_run (.start rfl)
      [.call (.resume req true), run (.sql .ok), run (.sql .ok),
        run (.register (text "r") 0 [] .ok), run (.machine (.error (.other false))),
        .step (.provider none), run (.sql .ok), run (.stamp 0 .ok), run (.plan (text "u") 0 []),
        run (.sql .ok), run (.sql .ok), run (.sql .ok), run (.sql .ok), run (.source false),
        run (.volume (.ok (text "v2"))), run (.sql .ok), run (.sql .ok), run (.sql .ok),
        run (.register [] 0 [] .ok)]
      (by decide)

end LitestreamSoak.Orchestrator.Replacement
