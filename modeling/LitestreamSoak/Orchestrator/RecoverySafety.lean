import LitestreamSoak.Orchestrator.Recovery

/-!
# Orchestrator — provisioning creates at most once

Only the holder of the lock is inside a call, so a step has to keep the facts of one caller.
-/

namespace LitestreamSoak.Orchestrator

open Lib List Function Option

/-! ## §1 — the invariant of the world -/

variable {w w' : World} {row a : ProvisioningAttempt}

/-- The machines requested for an attempt. -/
def machineCount (w : World) (id : Text) : Nat :=
  w.machineRequests.countP fun r => r.attempt = some id

/-- The volumes requested for an attempt, without those the provider rejected. -/
def volumeCount (w : World) (id : Text) : Nat :=
  w.volumeRequests.countP fun r => r.attempt = id && !r.rejected

def Phase.beforeMachine : Phase → Bool
  | .planned | .volumeRequested | .volumeReady => true
  | _ => false

/-- An attempt has requested at most one machine and one volume, and none before its phase says
so. -/
structure RowOK (w : World) (row : ProvisioningAttempt) : Prop where
  noVolume : row.phase = .planned ∨ row.phase = .volumeRequested → row.volumeID = []
  machine0 : row.phase.beforeMachine = true → machineCount w row.id = 0
  machine1 : machineCount w row.id ≤ 1
  volume0 : row.phase = .planned → volumeCount w row.id = 0
  volume1 : volumeCount w row.id ≤ 1

theorem RowOK.congr (h : RowOK w row)
    (hm : w'.machineRequests = w.machineRequests) (hv : w'.volumeRequests = w.volumeRequests) :
    RowOK w' row := by
  have hmachine : machineCount w' row.id = machineCount w row.id := by
    rw [machineCount, machineCount, hm]
  have hvolume : volumeCount w' row.id = volumeCount w row.id := by
    rw [volumeCount, volumeCount, hv]
  exact ⟨h.noVolume, hmachine ▸ h.machine0, hmachine ▸ h.machine1, hvolume ▸ h.volume0,
    hvolume ▸ h.volume1⟩

/-- One open attempt, and for each attempt at most one request for a machine and one volume request
that was not rejected: none before the phase that claims it. -/
structure WorldOK (w : World) : Prop where
  ids : (w.tables.attempts.map (·.id)).Nodup
  oneOpen : ∀ a ∈ w.tables.attempts, ∀ b ∈ w.tables.attempts,
    a.phase.isOpen = true → b.phase.isOpen = true → a = b
  rows : ∀ row ∈ w.tables.attempts, RowOK w row
  machineOwner : ∀ r ∈ w.machineRequests, ∀ id, r.attempt = some id →
    ∃ row ∈ w.tables.attempts, row.id = id
  volumeOwner : ∀ r ∈ w.volumeRequests, ∃ row ∈ w.tables.attempts, row.id = r.attempt

/-- A caller's copy of an open attempt is the stored row. -/
def Synced (w : World) (a : ProvisioningAttempt) : Prop :=
  a ∈ w.tables.attempts ∧ a.phase.isOpen = true

/-- Attempt ids are unique. -/
theorem WorldOK.eq_of_id (h : WorldOK w) {b : ProvisioningAttempt}
    (ha : a ∈ w.tables.attempts) (hb : b ∈ w.tables.attempts) (hid : a.id = b.id) : a = b :=
  inj_on_of_nodup_map h.ids ha hb hid

/-- The open attempt is the one that is read. -/
theorem WorldOK.active (h : WorldOK w) (ha : Synced w a) :
    activeProvisioning w.tables.attempts = some a := by
  cases hread : activeProvisioning w.tables.attempts with
  | none =>
    have hnone := find?_eq_none.mp hread a ha.1
    exact absurd ha.2 hnone
  | some b =>
    have hopen : b.phase.isOpen = true := by
      simpa using find?_some (p := fun x : ProvisioningAttempt => x.phase.isOpen) hread
    rw [h.oneOpen b (mem_of_find?_eq_some hread) a ha.1 hopen ha.2]

theorem synced_of_active (h : activeProvisioning w.tables.attempts = some a) : Synced w a := by
  refine ⟨mem_of_find?_eq_some h, ?_⟩
  simpa using find?_some (p := fun x : ProvisioningAttempt => x.phase.isOpen) h

theorem WorldOK.open_length (h : WorldOK w) :
    (w.tables.attempts.filter (·.phase.isOpen)).length ≤ 1 := by
  have hnodup : (w.tables.attempts.filter (·.phase.isOpen)).Nodup :=
    (List.Nodup.of_map _ h.ids).filter _
  have hsame : ∀ a ∈ w.tables.attempts.filter (·.phase.isOpen),
      ∀ b ∈ w.tables.attempts.filter (·.phase.isOpen), a = b := by
    intro a ha b hb
    rw [mem_filter] at ha hb
    exact h.oneOpen a ha.1 b hb.1 ha.2 hb.2
  generalize w.tables.attempts.filter (·.phase.isOpen) = opened at hnodup hsame
  match opened with
  | [] => simp
  | [a] => simp
  | a :: b :: rest =>
    have hab := hsame a (by simp) b (by simp)
    exact absurd hab (ne_of_not_mem_cons (nodup_cons.mp hnodup).1)

/-- At most one request of each kind for any attempt id. -/
theorem WorldOK.counts (h : WorldOK w) (id : Text) :
    machineCount w id ≤ 1 ∧ volumeCount w id ≤ 1 := by
  by_cases hrow : ∃ row ∈ w.tables.attempts, row.id = id
  · obtain ⟨row, hmem, rfl⟩ := hrow
    exact ⟨(h.rows row hmem).machine1, (h.rows row hmem).volume1⟩
  · have hm : machineCount w id = 0 := by
      refine countP_eq_zero.mpr fun r hr hid => hrow ?_
      exact h.machineOwner r hr id (by simpa using hid)
    have hv : volumeCount w id = 0 := by
      refine countP_eq_zero.mpr fun r hr hid => hrow ?_
      obtain ⟨row, hmem, hown⟩ := h.volumeOwner r hr
      have hid : r.attempt = id ∧ r.rejected = false := by simpa using hid
      exact ⟨row, hmem, hown.trans hid.1⟩
    omega

/-! ## §2 — statements keep it -/

variable {f : ProvisioningAttempt → ProvisioningAttempt} {volumeID machineID : Text} {phase : Phase}

/-- A row of the table after a claim. -/
theorem mem_updateClaimed {attempts : List ProvisioningAttempt} {row' : ProvisioningAttempt}
    (h : row' ∈ updateClaimed attempts a f) :
    row' ∈ attempts ∨ ∃ row ∈ attempts, row.id = a.id ∧ row.phase = a.phase ∧ row' = f row := by
  obtain ⟨row, hrow, rfl⟩ := List.mem_map.mp h
  split
  · grind
  · exact .inl hrow

theorem updateClaimed_ids {attempts : List ProvisioningAttempt} (hid : ∀ row, (f row).id = row.id) :
    (updateClaimed attempts a f).map (·.id) = attempts.map (·.id) := by
  grind [updateClaimed, map_congr_left]

/-- A claim of an open attempt keeps the world, if it keeps the row. -/
theorem WorldOK.updateClaimed (h : WorldOK w) (hopen : a.phase.isOpen = true)
    (hid : ∀ row, (f row).id = row.id)
    (hrow : ∀ row, row.phase = a.phase → RowOK w row → RowOK w (f row)) :
    WorldOK (w.setAttempts (updateClaimed w.tables.attempts a f)) := by
  have hids : (Orchestrator.updateClaimed w.tables.attempts a f).map (·.id) =
      w.tables.attempts.map (·.id) := updateClaimed_ids hid
  -- an open row of the update comes from an open row
  have horigin : ∀ row' ∈ Orchestrator.updateClaimed w.tables.attempts a f,
      row'.phase.isOpen = true → ∃ row ∈ w.tables.attempts, row.phase.isOpen = true ∧
        row'.id = row.id := by
    intro row' hrow' hopen'
    rcases mem_updateClaimed hrow' with hold | ⟨row, hmem, -, hphase, rfl⟩
    · exact ⟨row', hold, hopen', rfl⟩
    · exact ⟨row, hmem, by rw [hphase]; exact hopen, hid row⟩
  have howner : ∀ id, (∃ row ∈ w.tables.attempts, row.id = id) →
      ∃ row ∈ Orchestrator.updateClaimed w.tables.attempts a f, row.id = id := by
    rintro id ⟨row, hmem, rfl⟩
    have hmem' : row.id ∈ (Orchestrator.updateClaimed w.tables.attempts a f).map (·.id) := by
      rw [hids]
      exact List.mem_map_of_mem hmem
    exact List.mem_map.mp hmem'
  refine ⟨?_, ?_, ?_, ?_, ?_⟩
  · grind [WorldOK.ids, World.setAttempts]
  · intro x hx y hy hxopen hyopen
    obtain ⟨x₀, hx₀, hx₀open, hxid⟩ := horigin x hx hxopen
    obtain ⟨y₀, hy₀, hy₀open, hyid⟩ := horigin y hy hyopen
    have hsame : x.id = y.id := by
      rw [hxid, hyid, h.oneOpen x₀ hx₀ y₀ hy₀ hx₀open hy₀open]
    exact inj_on_of_nodup_map (hids ▸ h.ids) hx hy hsame
  · intro row' hrow'
    rcases mem_updateClaimed hrow' with hold | ⟨row, hmem, -, hphase, rfl⟩
    · exact (h.rows row' hold).congr rfl rfl
    · exact (hrow row hphase (h.rows row hmem)).congr rfl rfl
  · intro r hr id hattempt
    exact howner id (h.machineOwner r hr id hattempt)
  · intro r hr
    exact howner _ (h.volumeOwner r hr)

/-- The moves of an attempt: a claim or a result, or the adoption of a machine. -/
inductive Forward : Phase → Phase → Prop where
  | claimVolume : Forward .planned .volumeRequested
  | volume : Forward .volumeRequested .volumeReady
  | claimMachine : Forward .volumeReady .machineRequested
  | machine {phase : Phase} (hopen : phase.isOpen = true) : Forward phase .machineReady

theorem Forward.isOpen {old new : Phase} (h : Forward old new) : old.isOpen = true := by
  cases h with
  | machine hopen => exact hopen
  | _ => rfl

/-- A row that moves on keeps its counts. -/
theorem RowOK.forward (h : RowOK w row) (hforward : Forward row.phase phase)
    (hvolume : phase = .volumeRequested → volumeID = []) :
    RowOK w { row with
      phase, volumeID := orKeep volumeID row.volumeID,
      machineID := orKeep machineID row.machineID } := by
  obtain ⟨hno, hm0, hm1, hv0, hv1⟩ := h
  generalize row.phase = old at hforward hno hm0 hv0
  cases hforward with
  | claimVolume =>
    refine ⟨fun _ => ?_, fun _ => hm0 rfl, hm1, nofun, hv1⟩
    show orKeep volumeID row.volumeID = []
    rw [hvolume rfl, hno (.inl rfl)]
    rfl
  | volume => exact ⟨by simp, fun _ => hm0 rfl, hm1, nofun, hv1⟩
  | claimMachine => exact ⟨by simp, nofun, hm1, nofun, hv1⟩
  | machine hopen => exact ⟨by simp, nofun, hm1, nofun, hv1⟩

/-- `AdvanceProvisioning` keeps the world. -/
theorem WorldOK.advance (h : WorldOK w) (machineID : Text) (hforward : Forward a.phase phase)
    (hvolume : phase = .volumeRequested → volumeID = []) :
    WorldOK (w.setAttempts (advanceProvisioning w.tables.attempts a phase volumeID machineID)) := by
  refine h.updateClaimed hforward.isOpen (fun _ => rfl) fun row hphase hrow => ?_
  exact hrow.forward (hphase ▸ hforward) hvolume

/-- The copy the caller goes on with is the row it has written. -/
theorem Synced.advance {next : ProvisioningAttempt}
    (h : Synced w a) (hopen : next.phase.isOpen = true)
    (hnext : next = { a with
      phase := next.phase
      volumeID := orKeep volumeID a.volumeID
      machineID := orKeep machineID a.machineID }) :
    Synced (w.setAttempts
      (advanceProvisioning w.tables.attempts a next.phase volumeID machineID)) next := by
  refine ⟨List.mem_map.mpr ⟨a, h.1, ?_⟩, hopen⟩
  simp only [decide_true, Bool.and_self, if_true]
  exact hnext.symm

theorem RowOK.close (h : RowOK w row)
    (hclosed : phase.isOpen = false) : RowOK w { row with phase } := by
  cases phase with
  | complete => exact ⟨by simp, nofun, h.machine1, nofun, h.volume1⟩
  | abandoned => exact ⟨by simp, nofun, h.machine1, nofun, h.volume1⟩
  | _ => cases hclosed

/-- An attempt may be closed at any time. -/
theorem WorldOK.close (h : WorldOK w)
    (hopen : a.phase.isOpen = true) (hclosed : phase.isOpen = false) :
    WorldOK (w.setAttempts
      (Orchestrator.updateClaimed w.tables.attempts a fun row => { row with phase })) :=
  h.updateClaimed hopen (fun _ => rfl) fun _ _ hrow => hrow.close hclosed

/-- Neither the attempts nor the requests have changed. -/
structure Same (w w' : World) : Prop where
  attempts : w'.tables.attempts = w.tables.attempts
  machines : w'.machineRequests = w.machineRequests
  volumes : w'.volumeRequests = w.volumeRequests

theorem WorldOK.same (h : WorldOK w) (hsame : Same w w') : WorldOK w' := by
  refine ⟨?_, ?_, ?_, ?_, ?_⟩
  · rw [hsame.attempts]
    exact h.ids
  · rw [hsame.attempts]
    exact h.oneOpen
  · rw [hsame.attempts]
    exact fun row hrow => (h.rows row hrow).congr hsame.machines hsame.volumes
  · rw [hsame.attempts, hsame.machines]
    exact h.machineOwner
  · rw [hsame.attempts, hsame.volumes]
    exact h.volumeOwner

/-- `BeginProvisioning` inserts an attempt only where none is open. -/
theorem WorldOK.insert (h : WorldOK w) (new : ProvisioningAttempt) :
    WorldOK (w.setTables (insertAttempt w.tables new)) := by
  unfold insertAttempt
  dsimp only
  split
  · next hfree =>
    have hfree : ∀ row ∈ w.tables.attempts, row.id ≠ new.id ∧ row.phase.isOpen = false := by
      intro row hrow
      simp only [Bool.and_eq_true, Bool.not_eq_true', List.any_eq_false] at hfree
      simpa using hfree.2 row hrow
    let row : ProvisioningAttempt := { new with phase := .planned, volumeID := [], machineID := [] }
    have hmachine : machineCount w new.id = 0 := by
      refine countP_eq_zero.mpr fun r hr hid => ?_
      obtain ⟨owner, hmem, hown⟩ := h.machineOwner r hr new.id (by simpa using hid)
      exact (hfree owner hmem).1 hown
    have hvolume : volumeCount w new.id = 0 := by
      refine countP_eq_zero.mpr fun r hr hid => ?_
      obtain ⟨owner, hmem, hown⟩ := h.volumeOwner r hr
      have hid : r.attempt = new.id ∧ r.rejected = false := by simpa using hid
      exact (hfree owner hmem).1 (hown.trans hid.1)
    have hnew : RowOK w row :=
      ⟨fun _ => rfl, fun _ => hmachine, by show machineCount w new.id ≤ 1; omega, fun _ => hvolume,
        by show volumeCount w new.id ≤ 1; omega⟩
    have hmem : ∀ x ∈ w.tables.attempts ++ [row], x ∈ w.tables.attempts ∨ x = row := by
      intro x hx
      simpa using hx
    refine ⟨?_, ?_, ?_, ?_, ?_⟩
    -- the id is new, and no other attempt is open
    · grind [WorldOK.ids, World.setTables]
    · grind [World.setTables]
    · intro x hx
      rcases hmem x hx with hx | rfl
      · exact (h.rows x hx).congr rfl rfl
      · exact hnew.congr rfl rfl
    · grind [WorldOK.machineOwner, World.setTables]
    · grind [WorldOK.volumeOwner, World.setTables]
  · exact h.same ⟨rfl, rfl, rfl⟩

/-! ## §3 — requests -/

/-- A request adds one to its attempt. -/
theorem machineCount_request (w : World) {args : MachineArgs} (identity : WorkerIdentity)
    (result : Except ProviderError NewMachine) {a : Text} (hargs : args.attempt = some a)
    (id : Text) :
    machineCount (requestMachine w args identity result) id =
      machineCount w id + if id = a then 1 else 0 := by
  grind [machineCount, requestMachine]

theorem volumeCount_request (w : World) (a : ProvisioningAttempt)
    (result : Except ProviderError Text) (id : Text) :
    volumeCount (requestVolume w a result) id ≤ volumeCount w id + if id = a.id then 1 else 0 := by
  grind [volumeCount, requestVolume]

/-- A rejected request does not count. -/
theorem volumeCount_rejected {e : ProviderError}
    (he : providerRejectedRequest e = true) (id : Text) :
    volumeCount (requestVolume w a (.error e)) id = volumeCount w id := by
  simp [volumeCount, requestVolume, volumeRejected, he]

/-- The request of a claimed machine that has not been made yet. -/
theorem WorldOK.requestMachine (h : WorldOK w)
    (ha : Synced w a) (hphase : a.phase = .machineRequested) (hcount : machineCount w a.id = 0)
    {args : MachineArgs} (hargs : args.attempt = some a.id) (identity : WorkerIdentity)
    (result : Except ProviderError NewMachine) :
    WorldOK (requestMachine w args identity result) := by
  refine ⟨h.ids, h.oneOpen, fun row hrow => ?_, fun r hr id hattempt => ?_, h.volumeOwner⟩
  · have hcounts := machineCount_request w identity result hargs row.id
    obtain ⟨hno, hm0, hm1, hv0, hv1⟩ := h.rows row hrow
    by_cases hid : row.id = a.id
    · obtain rfl := h.eq_of_id hrow ha.1 hid
      refine ⟨hno, fun hbefore => ?_, ?_, hv0, hv1⟩
      · rw [hphase] at hbefore
        cases hbefore
      · rw [hcounts, hcount, if_pos rfl]
    · rw [if_neg hid] at hcounts
      exact ⟨hno, hcounts ▸ hm0, hcounts ▸ hm1, hv0, hv1⟩
  · rcases mem_cons.mp hr with rfl | hr
    · exact ⟨a, ha.1, some.inj (hargs.symm.trans hattempt)⟩
    · exact h.machineOwner r hr id hattempt

/-- The request of a claimed volume. -/
theorem WorldOK.requestVolume (h : WorldOK w)
    (ha : Synced w a) (hphase : a.phase = .volumeRequested) (hcount : volumeCount w a.id = 0)
    (result : Except ProviderError Text) : WorldOK (requestVolume w a result) := by
  refine ⟨h.ids, h.oneOpen, fun row hrow => ?_, h.machineOwner, fun r hr => ?_⟩
  · have hcounts := volumeCount_request w a result row.id
    obtain ⟨hno, hm0, hm1, hv0, hv1⟩ := h.rows row hrow
    by_cases hid : row.id = a.id
    · obtain rfl := h.eq_of_id hrow ha.1 hid
      refine ⟨hno, hm0, hm1, fun hplanned => ?_, ?_⟩
      · rw [hphase] at hplanned
        cases hplanned
      · rw [hcount, if_pos rfl] at hcounts
        exact hcounts
    · rw [if_neg hid] at hcounts
      exact ⟨hno, hm0, hm1, fun hplanned => by have := hv0 hplanned; omega, by omega⟩
  · rcases mem_cons.mp hr with rfl | hr
    · exact ⟨a, ha.1, rfl⟩
    · exact h.volumeOwner r hr

/-! ## §4 — what a step may do -/

variable {t' t : Tables} {cfg : Config} {identity : WorkerIdentity} {result : Sql}

/-- A step requests no machine and completes nothing, or it makes one request for a stored attempt
with that attempt's volume, or it completes an attempt together with the worker's row. -/
inductive Effect (w w' : World) : Prop where
  | quiet (hrequests : w'.machineRequests = w.machineRequests)
      (hstatus : ∀ x', w'.tables.worker = some x' → x'.status = .starting →
        ∃ x, w.tables.worker = some x ∧ x.status = .starting)
      (hcomplete : ∀ row ∈ w'.tables.attempts, row.phase = .complete → row ∈ w.tables.attempts)
  | requested (row : ProvisioningAttempt) (hrow : row ∈ w.tables.attempts) (r : MachineRequest)
      (hrequests : w'.machineRequests = r :: w.machineRequests) (hattempt : r.attempt = some row.id)
      (hvolume : r.volumeID = row.volumeID) (htables : w'.tables = w.tables)
  | completed (row : ProvisioningAttempt) (hrow : row ∈ w.tables.attempts)
      (hphase : row.phase = .machineReady) (hrequests : w'.machineRequests = w.machineRequests)
      (hmem : { row with phase := .complete } ∈ w'.tables.attempts)
      (hnew : ∀ row' ∈ w'.tables.attempts, row'.phase = .complete →
        row' ∈ w.tables.attempts ∨ row' = { row with phase := .complete })
      (x' : Worker) (hworker : w'.tables.worker = some x') (hstarting : x'.status = .starting)
      (hmachine : x'.flyMachineID = row.machineID) (hvolume : x'.flyVolumeID = row.volumeID)

theorem Effect.refl (w : World) : Effect w w :=
  .quiet rfl (fun x hx hstatus => ⟨x, hx, hstatus⟩) fun _ hrow _ => hrow

/-- A step that makes no request and completes nothing. -/
theorem Effect.of_same (h : Same w w')
    (hstatus : ∀ x', w'.tables.worker = some x' → x'.status = .starting →
      ∃ x, w.tables.worker = some x ∧ x.status = .starting) : Effect w w' := by
  refine .quiet h.machines hstatus fun row hrow _ => ?_
  rw [h.attempts] at hrow
  exact hrow

theorem Effect.advance (w : World) (a : ProvisioningAttempt)
    (volumeID machineID : Text) (hphase : phase ≠ .complete) :
    Effect w (w.setAttempts
      (advanceProvisioning w.tables.attempts a phase volumeID machineID)) := by
  refine .quiet rfl (fun x hx hstatus => ⟨x, hx, hstatus⟩) fun row hrow hcomplete => ?_
  rcases mem_updateClaimed hrow with hold | ⟨_, -, -, -, rfl⟩
  · exact hold
  · exact absurd hcomplete hphase

/-- A step goes on to a place with `P`, or returns with `Q`. -/
def Next.Holds {PC α : Type} (P : PC → Prop) (Q : α → Prop) : Next PC α → Prop
  | .goto pc => P pc
  | .done result => Q result

theorem saveIdentity_spec {provisioning : Option ProvisioningAttempt}
    (h : saveIdentity cfg t provisioning identity = some t') :
    t'.attempts = t.attempts ∧ t'.worker = t.worker := by
  cases provisioning with
  | none =>
    cases h
    exact ⟨rfl, rfl⟩
  | some a => grind [saveIdentity, expectProvisioningRun]

/-- A statement takes effect, or does not; either way it may report an error. -/
theorem exec_cases {PC α : Type} {t : Option Tables}
    {yes no next : Next PC α} (hexec : w.exec t result yes no = (w', next)) :
    (∃ t', t = some t' ∧ w' = w.setTables t' ∧ (next = yes ∨ next = no)) ∨ w' = w ∧ next = no := by
  unfold World.exec at hexec
  -- applied and answered, applied and not answered, not applied
  grind

/-- A statement that writes no attempt and starts no worker. -/
theorem exec_quiet {PC α : Type} {t : Option Tables}
    {yes no next : Next PC α} (hexec : w.exec t result yes no = (w', next))
    (hattempts : ∀ t', t = some t' → t'.attempts = w.tables.attempts ∧
      ∀ x', t'.worker = some x' → x'.status = .starting →
        ∃ x, w.tables.worker = some x ∧ x.status = .starting) :
    Same w w' ∧ Effect w w' ∧ (next = yes ∨ next = no) := by
  rcases exec_cases hexec with ⟨t', ht, rfl, hnext⟩ | ⟨rfl, hnext⟩
  · have hsame : Same w (w.setTables t') := ⟨(hattempts t' ht).1, rfl, rfl⟩
    exact ⟨hsame, .of_same hsame (hattempts t' ht).2, hnext⟩
  · exact ⟨⟨rfl, rfl, rfl⟩, .refl _, .inr hnext⟩

theorem saveIdentity_quiet {PC α : Type}
    {provisioning : Option ProvisioningAttempt}
    {yes no next : Next PC α}
    (hexec : w.exec (saveIdentity cfg w.tables provisioning identity) result yes no = (w', next)) :
    Same w w' ∧ Effect w w' ∧ (next = yes ∨ next = no) := by
  refine exec_quiet hexec fun t' ht => ?_
  grind [saveIdentity_spec]

theorem Synced.same (h : Synced w a) (hsame : Same w w') :
    Synced w' a := ⟨hsame.attempts ▸ h.1, h.2⟩

theorem Same.machineCount (h : Same w w') (id : Text) : machineCount w' id = machineCount w id := by
  rw [Orchestrator.machineCount, Orchestrator.machineCount, h.machines]

/-! ## §5 — the parts of `createWorker` -/

variable {o : Outcome}

/-- A step of `BeginProvisioning`; the attempt it returns is the stored one. -/
theorem beginStep_spec {pc : BeginPC}
    {next : Next BeginPC (Option ProvisioningAttempt)} (h : WorldOK w)
    (hstep : beginStep w pc o = some (w', next)) :
    WorldOK w' ∧ Effect w w' ∧ next.Holds (fun _ => True) fun r => ∀ a ∈ r, Synced w' a := by
  have hinsert : ∀ new, Effect w (w.setTables (insertAttempt w.tables new)) := by
    intro new
    unfold insertAttempt
    dsimp only
    split
    · refine .quiet rfl (fun x hx hstatus => ⟨x, hx, hstatus⟩) fun row hrow hcomplete => ?_
      rcases mem_append.mp hrow with hold | hnew
      · exact hold
      · rw [List.mem_singleton.mp hnew] at hcomplete
        cases hcomplete
    · exact .of_same ⟨rfl, rfl, rfl⟩ fun x hx hstatus => ⟨x, hx, hstatus⟩
  unfold beginStep at hstep
  split at hstep
  · next new =>
    cases hstep
    exact ⟨h.insert new, hinsert new, trivial⟩
  · next new applied =>
    cases hstep
    cases applied with
    | true => exact ⟨h.insert new, hinsert new, nofun⟩
    | false => exact ⟨h, .refl w, nofun⟩
  · next new =>
    cases hstep
    refine ⟨h, .refl w, fun a ha => ?_⟩
    exact synced_of_active (mem_filter_iff.mp ha).1
  · cases hstep
    exact ⟨h, .refl w, nofun⟩
  · cases hstep

/-- Between the claim of a machine and its request no machine has been requested, and the open
attempt has been read, so that an error is not retried. -/
def MachineOK (w : World) (a : ProvisioningAttempt) : MachinePC → Prop
  | .lookup => machineCount w a.id = 0
  | .register provisioning => provisioning.isSome = true ∧ machineCount w a.id = 0
  | .request provisioning _ _ => provisioning.isSome = true ∧ machineCount w a.id = 0
  | .bind _ _ _ => True

/-- A step of `createWorkerMachine` under a claim. -/
theorem machineStep_spec {worker : Worker}
    {pc : MachinePC} {next : Next MachinePC (Option NewMachine)} (h : WorldOK w)
    (ha : Synced w a) (hphase : a.phase = .machineRequested) (hpc : MachineOK w a pc)
    (hstep : machineStep cfg (machineArgs worker a) w pc o = some (w', next)) :
    WorldOK w' ∧ Effect w w' ∧ Synced w' a ∧ next.Holds (MachineOK w' a) fun _ => True := by
  unfold machineStep at hstep
  split at hstep
  · cases hstep
    rw [h.active ha]
    exact ⟨h, .refl w, ha, rfl, hpc⟩
  · cases hstep
    exact ⟨h, .refl w, ha, trivial⟩
  · cases hstep
    exact ⟨h, .refl w, ha, trivial⟩
  · next provisioning runID deploymentID workloadSHA result =>
    split at hstep
    · cases hstep
      exact ⟨h, .refl w, ha, trivial⟩
    · next profile _ =>
      obtain ⟨hsame, heffect, hnext⟩ := saveIdentity_quiet (some.inj hstep)
      refine ⟨h.same hsame, heffect, ha.same hsame, ?_⟩
      rcases hnext with rfl | rfl
      · exact ⟨hpc.1, (hsame.machineCount a.id).trans hpc.2⟩
      · trivial
  · next provisioning identity n result =>
    have hworld : WorldOK (requestMachine w (machineArgs worker a) identity result) :=
      h.requestMachine ha hphase hpc.2 rfl identity result
    have heffect : Effect w (requestMachine w (machineArgs worker a) identity result) :=
      .requested a ha.1 _ rfl rfl rfl rfl
    cases result with
    | ok machine =>
      cases hstep
      exact ⟨hworld, heffect, ha, trivial⟩
    | error e =>
      simp only [hpc.1, Bool.true_or, if_true] at hstep
      cases hstep
      exact ⟨hworld, heffect, ha, trivial⟩
  · cases hstep
    exact ⟨h, .refl w, ha, trivial⟩
  · grind [saveIdentity_quiet, WorldOK.same, Synced.same, Next.Holds]
  · cases hstep

/-- Between the claim of a volume and its request no request stands, and the open attempt has been
read, so that an ambiguous fork is not followed by another request. -/
def ProvisionOK (w : World) : ProvisionPC → Prop
  | .resume a => Synced w a
  | .lookup a | .volume a => Synced w a ∧ a.phase = .volumeRequested ∧ volumeCount w a.id = 0
  | .source a attempt | .fork a attempt =>
    Synced w a ∧ a.phase = .volumeRequested ∧ volumeCount w a.id = 0 ∧ attempt.isSome = true
  | .saveVolume a _ => Synced w a ∧ a.phase = .volumeRequested
  | .machine a pc => Synced w a ∧ a.phase = .machineRequested ∧ MachineOK w a pc
  | .saveMachine a _ => a.phase.isOpen = true
  | .finish _ _ => True

theorem Forward.ne_complete {old new : Phase} (h : Forward old new) : new ≠ .complete := by
  cases h <;> simp

/-- A claim moves the stored attempt and the caller's copy together. -/
theorem advanceStep_spec {PC : Type} {goto : PC} {next : Next PC Bool} {P : World → PC → Prop}
    (hstep : advanceStep w a phase volumeID machineID result goto = (w', next)) (h : WorldOK w)
    (hforward : Forward a.phase phase) (hvolume : phase = .volumeRequested → volumeID = [])
    (hgoto : P (w.setAttempts (advanceProvisioning w.tables.attempts a phase volumeID machineID))
      goto) : WorldOK w' ∧ Effect w w' ∧ next.Holds (P w') fun _ => True := by
  have hworld := h.advance machineID hforward hvolume
  have heffect := Effect.advance w a volumeID machineID hforward.ne_complete
  unfold advanceStep at hstep
  dsimp only at hstep
  split at hstep
  · grind [Next.Holds]
  · obtain ⟨rfl, rfl⟩ := Prod.mk.inj hstep
    exact ⟨hworld, heffect, trivial⟩
  · obtain ⟨rfl, rfl⟩ := Prod.mk.inj hstep
    exact ⟨h, .refl _, trivial⟩

theorem bindProvisioningMachine_quiet
    (h : bindProvisioningMachine t a = some t') :
    t'.attempts = t.attempts ∧ ∀ x', t'.worker = some x' → x'.status = .starting →
      ∃ x, t.worker = some x ∧ x.status = .starting := by
  simp only [bindProvisioningMachine, ite_none_right_eq_some] at h
  obtain rfl := some.inj h.2
  refine ⟨rfl, fun x hx hstatus => ?_⟩
  obtain ⟨y, hy, rfl⟩ := map_eq_some_iff.mp hx
  exact ⟨y, hy, hstatus⟩

/-- The completion writes the worker and the attempt in one transaction. -/
theorem completeProvisioning_spec
    (h : WorldOK w) (ht : completeProvisioning w.tables a = some t') :
    WorldOK (w.setTables t') ∧ Effect w (w.setTables t') := by
  simp only [completeProvisioning, ite_none_right_eq_some] at ht
  obtain ⟨⟨hphase, -, -, hready, hprovisionable⟩, ht⟩ := ht
  cases ht
  obtain ⟨x, hx⟩ : ∃ x, w.tables.worker = some x := by
    cases hworker : w.tables.worker with
    | none =>
      rw [provisionable, hworker] at hprovisionable
      cases hprovisionable
    | some x => exact ⟨x, rfl⟩
  have hopen : a.phase.isOpen = true := by
    rw [hphase]
    rfl
  obtain ⟨row, hrow, hrowready⟩ := List.any_eq_true.mp hready
  have hrowready : ((row.id = a.id ∧ row.phase = .machineReady) ∧ row.volumeID = a.volumeID) ∧
      row.machineID = a.machineID := by simpa using hrowready
  obtain ⟨⟨⟨hid, hrowphase⟩, hvolume⟩, hmachine⟩ := hrowready
  refine ⟨(h.close hopen rfl).same ⟨rfl, rfl, rfl⟩, .completed row hrow hrowphase rfl ?_ ?_
    { x with flyMachineID := a.machineID, flyVolumeID := a.volumeID, status := .starting }
    ?_ rfl hmachine.symm hvolume.symm⟩
  · refine List.mem_map.mpr ⟨row, hrow, ?_⟩
    simp [hid, hrowphase, hphase]
  · grind [WorldOK.eq_of_id, World.setTables, updateClaimed]
  · show w.tables.worker.map _ = _
    rw [hx]
    rfl

/-- The last statement of a provisioning. -/
theorem finishStep_spec {PC : Type} {machine : NewMachine} {next : Next PC Bool} {P : PC → Prop}
    (h : WorldOK w) (hstep : finishStep w a machine result = (w', next)) :
    WorldOK w' ∧ Effect w w' ∧ next.Holds P fun _ => True := by
  unfold finishStep at hstep
  cases hstarted : machine.started with
  | false =>
    rw [hstarted] at hstep
    obtain ⟨hsame, heffect, hnext⟩ :=
      exec_quiet hstep fun t' ht => bindProvisioningMachine_quiet ht
    refine ⟨h.same hsame, heffect, ?_⟩
    rcases hnext with rfl | rfl <;> trivial
  | true =>
    rw [hstarted] at hstep
    rcases exec_cases hstep with ⟨t', ht, rfl, hnext⟩ | ⟨rfl, rfl⟩
    · grind [completeProvisioning_spec, Next.Holds]
    · exact ⟨h, .refl _, trivial⟩

theorem orKeep_nil (old : Text) : orKeep [] old = old := rfl

theorem orKeep_of_nil (new : Text) : orKeep new [] = new := by
  unfold orKeep
  split
  · next h => exact h.symm
  · rfl

/-- A volume is requested once it is claimed. -/
theorem volumeStep_spec (h : WorldOK w)
    (ha : Synced w a) (hphase : a.phase = .volumeRequested) (hcount : volumeCount w a.id = 0)
    (result : Except ProviderError Text) :
    WorldOK (requestVolume w a result) ∧ Effect w (requestVolume w a result) ∧
      Synced (requestVolume w a result) a :=
  ⟨h.requestVolume ha hphase hcount result,
    .quiet rfl (fun x hx hstatus => ⟨x, hx, hstatus⟩) fun _ hrow _ => hrow, ha⟩

/-- A step of `resumeWorkerProvisioning`. -/
theorem provisionStep_spec {worker : Worker} {pc : ProvisionPC} {next : Next ProvisionPC Bool}
    (h : WorldOK w) (hpc : ProvisionOK w pc)
    (hstep : provisionStep cfg worker w pc o = some (w', next)) :
    WorldOK w' ∧ Effect w w' ∧ next.Holds (ProvisionOK w') fun _ => True := by
  unfold provisionStep at hstep
  split at hstep
  · cases hstep
    exact ⟨h, .refl _, trivial⟩
  · next a result =>
    -- a claim: the volume of a planned attempt, or the machine of one with a volume
    have hrow := h.rows a hpc.1
    split at hstep
    · next hphase =>
      refine advanceStep_spec (some.inj hstep) h (hphase ▸ .claimVolume) (fun _ => rfl) ?_
      exact ⟨hpc.advance rfl rfl, rfl, hrow.volume0 hphase⟩
    · next hphase =>
      refine advanceStep_spec (some.inj hstep) h (hphase ▸ .claimMachine) nofun ?_
      exact ⟨hpc.advance rfl rfl, rfl, hrow.machine0 (by rw [hphase]; rfl)⟩
    · cases hstep
      exact ⟨h, .refl _, trivial⟩
  · next a =>
    cases hstep
    rw [h.active hpc.1]
    exact ⟨h, .refl _, hpc.1, hpc.2.1, hpc.2.2, rfl⟩
  · cases hstep
    exact ⟨h, .refl _, trivial⟩
  · cases hstep
    exact ⟨h, .refl _, trivial⟩
  · next a attempt found =>
    cases hstep
    refine ⟨h, .refl _, ?_⟩
    cases found with
    | true => exact hpc
    | false => exact ⟨hpc.1, hpc.2.1, hpc.2.2.1⟩
  · next a attempt result =>
    obtain ⟨ha, hphase, hcount, hsome⟩ := hpc
    obtain ⟨hworld, heffect, hsynced⟩ := volumeStep_spec h ha hphase hcount result
    cases result with
    | ok volumeID =>
      cases hstep
      exact ⟨hworld, heffect, hsynced, hphase⟩
    | error e =>
      simp only [hsome, Bool.true_and] at hstep
      split at hstep
      · cases hstep
        exact ⟨hworld, heffect, trivial⟩
      · next hrejected =>
        -- the fork was rejected, so a fresh volume may still be requested
        grind [volumeCount_rejected, Next.Holds, ProvisionOK]
  · grind [volumeStep_spec, Next.Holds, ProvisionOK]
  · next a volumeID result =>
    obtain ⟨ha, hphase⟩ := hpc
    have hnone := (h.rows a ha.1).noVolume (.inr hphase)
    refine advanceStep_spec (some.inj hstep) h (hphase ▸ .volume) nofun ?_
    refine ha.advance rfl ?_
    rw [hnone, orKeep_of_nil, orKeep_nil]
  · next a pc _ =>
    obtain ⟨ha, hphase, hmachine⟩ := hpc
    split at hstep
    · cases hstep
    all_goals
      next hsub =>
        cases hstep
        obtain ⟨hworld, heffect, hsynced, hnext⟩ := machineStep_spec h ha hphase hmachine hsub
        refine ⟨hworld, heffect, ?_⟩
        first | trivial | exact ⟨hsynced, hphase, hnext⟩ | exact hsynced.2
  · refine advanceStep_spec (some.inj hstep) h (.machine hpc) nofun ?_
    trivial
  · exact finishStep_spec h (some.inj hstep)
  · cases hstep

def CreateOK (w : World) : CreatePC → Prop
  | .provision _ pc => ProvisionOK w pc
  | _ => True

/-- A step of `createWorker`. -/
theorem createStep_spec {pc : CreatePC}
    {next : Next CreatePC Bool} (h : WorldOK w) (hpc : CreateOK w pc)
    (hstep : createStep cfg w pc o = some (w', next)) :
    WorldOK w' ∧ Effect w w' ∧ next.Holds (CreateOK w') fun _ => True := by
  unfold createStep at hstep
  split at hstep
  · cases hstep
    exact ⟨h, .refl _, trivial⟩
  · split at hstep <;> obtain ⟨rfl, rfl⟩ := Prod.mk.inj (some.inj hstep) <;>
      exact ⟨h, .refl _, trivial⟩
  · cases hstep
    exact ⟨h, .refl _, trivial⟩
  · next req now result =>
    -- the row of the worker is pending again; no attempt changes
    obtain ⟨hsame, heffect, hnext⟩ := exec_quiet (some.inj hstep) fun t' ht => by
      cases ht
      refine ⟨rfl, fun x hx hstatus => ?_⟩
      cases hx
      cases hold : w.tables.worker <;> rw [hold] at hstatus <;> cases hstatus
    refine ⟨h.same hsame, heffect, ?_⟩
    rcases hnext with rfl | rfl <;> trivial
  · cases hstep
    exact ⟨h, .refl _, trivial⟩
  · cases hstep
    exact ⟨h, .refl _, trivial⟩
  · split at hstep
    · cases hstep
    all_goals
      next hsub =>
        cases hstep
        obtain ⟨hworld, heffect, hnext⟩ := beginStep_spec h hsub
        exact ⟨hworld, heffect, by first | trivial | exact hnext _ rfl⟩
  · split at hstep
    · cases hstep
    all_goals
      next hsub =>
        cases hstep
        exact provisionStep_spec h hpc hsub
  · cases hstep

/-! ## §6 — a recovery -/

/-- A recovery's copy of the attempt is the stored row until it resumes or adopts. -/
def RecoverOK (w : World) : RecoverPC → Prop
  | .observe _ _ a => ∀ x ∈ a, Synced w x
  | .reconcile _ a | .machines _ a => Synced w a
  | .saveVolume _ a _ => Synced w a ∧ a.phase = .volumeRequested
  | .adoptAdvance _ _ _ _ a | .readExpected _ a _ _ | .expectMachine _ a _ _ _
  | .saveMachine _ a _ _ => a.phase.isOpen = true
  | .provision _ pc => ProvisionOK w pc
  | _ => True

/-- A worker from before the attempts existed: nothing is claimed for it. -/
theorem legacyNext_ok (o : Observed) (expected : Option WorkerIdentity) :
    (legacyNext cfg o expected).Holds (RecoverOK w) fun _ => True := by
  unfold legacyNext
  split
  · split <;> trivial
  · split
    · trivial
    · split <;> trivial
  · trivial

theorem reconcileNext_ok {o : Observed} (ha : Synced w a) :
    (reconcileNext o a).Holds (RecoverOK w) fun _ => True := by
  unfold reconcileNext
  split
  · trivial
  · grind [Next.Holds, RecoverOK]

theorem machinesNext_ok {o : Observed}
    (ha : Synced w a) : (machinesNext cfg o a).Holds (RecoverOK w) fun _ => True := by
  unfold machinesNext
  split
  · split
    · exact ha
    · trivial
  · split
    · trivial
    · exact ha.2
  · trivial

theorem expectProvisioningRun_quiet {PC α : Type} {yes no next : Next PC α}
    (hexec : w.exec (expectProvisioningRun cfg w.tables a identity) result yes no = (w', next)) :
    Same w w' ∧ Effect w w' ∧ (next = yes ∨ next = no) := by
  have hsave : w.exec (saveIdentity cfg w.tables (some a) identity) result yes no = (w', next) :=
    hexec
  exact saveIdentity_quiet hsave

/-- A step of a recovery, from its reads to the provisioning it resumes. -/
theorem recoverStep_spec {pc : RecoverPC} {o : RecoverOutcome}
    {next : Next RecoverPC Bool} (h : WorldOK w) (hpc : RecoverOK w pc)
    (hstep : recoverStep cfg w pc o = some (w', next)) :
    WorldOK w' ∧ Effect w w' ∧ next.Holds (RecoverOK w') fun _ => True := by
  unfold recoverStep at hstep
  split at hstep
  · split at hstep <;> obtain ⟨rfl, rfl⟩ := Prod.mk.inj (some.inj hstep) <;>
      exact ⟨h, .refl _, trivial⟩
  · dsimp only at hstep
    split at hstep <;> cases hstep
    · exact ⟨h, .refl _, fun x hx => synced_of_active hx⟩
    · exact ⟨h, .refl _, trivial⟩
  · dsimp only at hstep
    split at hstep <;> cases hstep
    · exact ⟨h, .refl _, trivial⟩
    · next a => exact ⟨h, .refl _, hpc a rfl⟩
  · next o =>
    cases hstep
    exact ⟨h, .refl _, legacyNext_ok o _⟩
  · split at hstep
    · cases hstep
    all_goals
      next hsub =>
        cases hstep
        obtain ⟨hworld, heffect, hnext⟩ := beginStep_spec h hsub
        exact ⟨hworld, heffect, by first | trivial | exact (hnext _ rfl).2⟩
  · refine advanceStep_spec (some.inj hstep) h (.machine hpc) nofun ?_
    trivial
  · grind [expectProvisioningRun_quiet, WorldOK.same, Next.Holds, RecoverOK]
  · cases hstep
    refine ⟨h, .refl _, ?_⟩
    split <;> trivial
  · cases hstep
    refine ⟨h, .refl _, ?_⟩
    split <;> trivial
  · cases hstep
    exact ⟨h, .refl _, trivial⟩
  · split at hstep
    · cases hstep
    all_goals
      next hsub =>
        cases hstep
        obtain ⟨hworld, heffect, hnext⟩ := beginStep_spec h hsub
        exact ⟨hworld, heffect, by first | trivial | exact hnext _ rfl⟩
  · cases hstep
    exact ⟨h, .refl _, reconcileNext_ok hpc⟩
  · -- a volume found by its name stands for the answer to its request
    obtain ⟨ha, hphase⟩ := hpc
    have hnone := (h.rows _ ha.1).noVolume (.inr hphase)
    refine advanceStep_spec (some.inj hstep) h (hphase ▸ .volume) nofun ?_
    refine ha.advance rfl ?_
    rw [hnone, orKeep_of_nil, orKeep_nil]
  · cases hstep
    exact ⟨h, .refl _, machinesNext_ok hpc⟩
  · split at hstep
    · cases hstep
      exact ⟨h, .refl _, trivial⟩
    · split at hstep <;> cases hstep
      · exact ⟨h, .refl _, hpc⟩
      · exact ⟨h, .refl _, trivial⟩
  · grind [expectProvisioningRun_quiet, WorldOK.same, Next.Holds, RecoverOK]
  · refine advanceStep_spec (some.inj hstep) h (.machine hpc) nofun ?_
    trivial
  · exact finishStep_spec h (some.inj hstep)
  · split at hstep
    · cases hstep
    all_goals
      next hsub =>
        cases hstep
        exact provisionStep_spec h hpc hsub
  · cases hstep
    exact ⟨h, .refl _, trivial⟩
  · cases hstep

/-! ## §7 — runs -/

variable {pc : CallerPC} {s : State}

def CallerPC.active : CallerPC → Bool
  | .creating _ | .recovering _ => true
  | _ => false

/-- What a caller under the lock relies on. -/
def CallerOK (w : World) : CallerPC → Prop
  | .creating pc => CreateOK w pc
  | .recovering pc => RecoverOK w pc
  | _ => True

theorem CallerOK.of_not_active (h : pc.active = false) : CallerOK w pc := by
  cases pc with
  | creating pc => cases h
  | recovering pc => cases h
  | _ => trivial

/-- The world is in order, and whoever is active has the lock. -/
structure Inv (s : State) : Prop where
  world : WorldOK s.world
  locked : ∀ c, (s.callers c).active = true → s.lock = some c
  callers : ∀ c, CallerOK s.world (s.callers c)

theorem Inv.of_active (hworld : WorldOK s.world)
    (h : ∀ c, (s.callers c).active = true → s.lock = some c ∧ CallerOK s.world (s.callers c)) :
    Inv s := by
  refine ⟨hworld, fun c hc => (h c hc).1, fun c => ?_⟩
  cases hc : (s.callers c).active with
  | false => exact .of_not_active hc
  | true => exact (h c hc).2

/-- One caller at a time is active. -/
theorem Inv.others (h : Inv s) {c d : Nat} (hc : (s.callers c).active = true)
    (hne : d ≠ c) : (s.callers d).active = false := by
  cases hd : (s.callers d).active with
  | false => rfl
  | true => exact absurd (some.inj ((h.locked d hd).symm.trans (h.locked c hc))) hne

theorem Inv.free (h : Inv s) (hfree : s.lock = none) (c : Nat) : (s.callers c).active = false := by
  cases hc : (s.callers c).active with
  | false => rfl
  | true => cases hfree.symm.trans (h.locked c hc)

/-- The step of one caller. -/
theorem Inv.update {callers : Nat → CallerPC} {c : Nat} (hworld : WorldOK s.world)
    (hcallers : s.callers = update callers c pc)
    (hothers : ∀ d ≠ c, (callers d).active = false)
    (hpc : pc.active = true → s.lock = some c ∧ CallerOK s.world pc) : Inv s := by
  refine .of_active hworld fun d hd => ?_
  rw [hcallers] at hd ⊢
  grind

theorem Inv.goto (h : Inv s) {c : Nat} {world : World}
    (hc : (s.callers c).active = true) (hworld : WorldOK world) (hpc : CallerOK world pc) :
    Inv { s.setCaller c pc with world } :=
  .update hworld rfl (fun _ hne => h.others hc hne) fun _ => ⟨h.locked c hc, hpc⟩

theorem Inv.return (h : Inv s) {c : Nat} {world : World}
    (hc : (s.callers c).active = true) (hworld : WorldOK world) :
    Inv { s.return c with world } :=
  .update hworld rfl (fun _ hne => h.others hc hne) fun hidle => by cases hidle

theorem Inv.outside (h : Inv s) (c : Nat) (hpc : pc.active = false) : Inv (s.setCaller c pc) := by
  refine .of_active h.world fun d hd => ?_
  have hd : (Function.update s.callers c pc d).active = true := hd
  show _ ∧ CallerOK s.world (Function.update s.callers c pc d)
  grind [Inv.locked, Inv.callers, State.setCaller]

/-- A worker's report changes nothing a provisioning relies on. -/
theorem ProvisionOK.report {pc : ProvisionPC} (h : ProvisionOK w pc)
    (worker : Option Worker) (expected : Option WorkerIdentity) :
    ProvisionOK (w.setTables { w.tables with worker, expected }) pc := by
  cases pc with
  | machine a pc => cases pc <;> exact h
  | _ => exact h

theorem CallerOK.report (h : CallerOK w pc) (worker : Option Worker)
    (expected : Option WorkerIdentity) :
    CallerOK (w.setTables { w.tables with worker, expected }) pc := by
  cases pc with
  | creating pc =>
    cases pc with
    | provision x pc => exact ProvisionOK.report h worker expected
    | _ => trivial
  | recovering pc =>
    cases pc with
    | provision x pc => exact ProvisionOK.report h worker expected
    | _ => exact h
  | _ => trivial

/-- A teardown closes the open attempt. -/
theorem abandonProvisioning_ok (h : WorldOK w)
    (ha : Synced w a) (ht : abandonProvisioning w.tables a = some t) : WorldOK (w.setTables t) := by
  simp only [abandonProvisioning, ite_none_right_eq_some] at ht
  obtain rfl := some.inj ht.2
  exact h.close ha.2 rfl

/-- **The step lemma.** But for a report, a step has one of the three effects. -/
theorem step_spec {s' : State} {a : Action} (h : Inv s) (hstep : step cfg s a = some s') :
    Inv s' ∧ ((∀ worker expected, a ≠ .report worker expected) → Effect s.world s'.world) := by
  cases a with
  | call c call =>
    simp only [step] at hstep
    split at hstep <;> cases hstep
    exact ⟨h.outside c rfl, fun _ => .refl _⟩
  | cancel c =>
    simp only [step] at hstep
    split at hstep <;> cases hstep
    exact ⟨h.outside c rfl, fun _ => .refl _⟩
  | lock c =>
    simp only [step] at hstep
    split at hstep
    · next call _ hfree =>
      cases hstep
      refine ⟨.update h.world rfl (fun d _ => h.free hfree d) fun _ => ⟨rfl, ?_⟩, fun _ => .refl _⟩
      cases call <;> trivial
    · cases hstep
  | create c outcome =>
    simp only [step] at hstep
    split at hstep
    · next pc hpc =>
      have hactive : (s.callers c).active = true := by rw [hpc]; rfl
      have hok : CallerOK s.world (.creating pc) := hpc ▸ h.callers c
      split at hstep
      · cases hstep
      · next hsub =>
        cases hstep
        obtain ⟨hworld, heffect, hnext⟩ := createStep_spec h.world hok hsub
        exact ⟨h.goto hactive hworld hnext, fun _ => heffect⟩
      · next hsub =>
        cases hstep
        obtain ⟨hworld, heffect, -⟩ := createStep_spec h.world hok hsub
        exact ⟨h.return hactive hworld, fun _ => heffect⟩
    · cases hstep
  | recover c outcome =>
    simp only [step] at hstep
    split at hstep
    · next pc hpc =>
      have hactive : (s.callers c).active = true := by rw [hpc]; rfl
      have hok : CallerOK s.world (.recovering pc) := hpc ▸ h.callers c
      split at hstep
      · cases hstep
      · next hsub =>
        cases hstep
        obtain ⟨hworld, heffect, hnext⟩ := recoverStep_spec h.world hok hsub
        exact ⟨h.goto hactive hworld hnext, fun _ => heffect⟩
      · next hsub =>
        cases hstep
        obtain ⟨hworld, heffect, -⟩ := recoverStep_spec h.world hok hsub
        exact ⟨h.return hactive hworld, fun _ => heffect⟩
    · cases hstep
  | die =>
    cases hstep
    exact ⟨⟨h.world, nofun, fun _ => trivial⟩, fun _ => .refl _⟩
  | report worker expected =>
    cases hstep
    refine ⟨⟨h.world.same ⟨rfl, rfl, rfl⟩, h.locked, fun c => ?_⟩, fun hne => ?_⟩
    · exact (h.callers c).report worker expected
    · exact absurd rfl (hne worker expected)
  | abandon =>
    simp only [step] at hstep
    split at hstep
    · next a hfree hactive =>
      obtain ⟨t, ht, rfl⟩ := map_eq_some_iff.mp hstep
      have hworld := abandonProvisioning_ok h.world (synced_of_active hactive) ht
      refine ⟨⟨hworld, h.locked, fun c => .of_not_active (h.free hfree c)⟩, fun _ => ?_⟩
      simp only [abandonProvisioning, ite_none_right_eq_some] at ht
      obtain rfl := some.inj ht.2
      refine .quiet rfl (fun x hx hstatus => ⟨x, hx, hstatus⟩) fun row hrow hcomplete => ?_
      rcases mem_updateClaimed hrow with hold | ⟨_, -, -, -, rfl⟩
      · exact hold
      · cases hcomplete
    · cases hstep

/-- The invariant holds in every run. -/
theorem inv_of_reachable (h : (machine cfg).Reachable s) : Inv s := by
  refine h.invariant ?_ ?_
  · rintro s rfl
    exact ⟨⟨nodup_nil, nofun, nofun, nofun, nofun⟩, nofun, fun _ => trivial⟩
  · intro s a s' hs _ hstep
    exact (step_spec hs hstep).1

/-! ## §8 — the result -/

/-- **Provisioning creates at most once.** In every run of creations and recoveries of a worker,
with deaths, provider errors and any inventories: at most one attempt is open; an attempt has at
most one request for a machine and at most one volume request that was not rejected; a request for
a machine names the volume stored in its attempt; an attempt that completes does so together with
a worker that is starting on its ids; and but for a report nothing else moves the worker to
starting. -/
theorem provisioning_creates_once (cfg : Config) {s : State} (hreach : (machine cfg).Reachable s) :
    (s.world.tables.attempts.filter (·.phase.isOpen)).length ≤ 1 ∧
    (∀ id, machineCount s.world id ≤ 1 ∧ volumeCount s.world id ≤ 1) ∧
    ∀ a s', (machine cfg).step s a = some s' →
      (∀ r ∈ s'.world.machineRequests, r ∈ s.world.machineRequests ∨
        ∃ row ∈ s.world.tables.attempts, r.attempt = some row.id ∧ r.volumeID = row.volumeID) ∧
      (∀ row ∈ s'.world.tables.attempts, row.phase = .complete → row ∈ s.world.tables.attempts ∨
        ∃ x, s'.world.tables.worker = some x ∧ x.status = .starting ∧
          x.flyMachineID = row.machineID ∧ x.flyVolumeID = row.volumeID) ∧
      ((∀ worker expected, a ≠ .report worker expected) →
        ∀ x, s'.world.tables.worker = some x → x.status = .starting →
          (∃ old, s.world.tables.worker = some old ∧ old.status = .starting) ∨
          ∃ row ∈ s.world.tables.attempts, row.phase = .machineReady ∧
            { row with phase := .complete } ∈ s'.world.tables.attempts ∧
            x.flyMachineID = row.machineID ∧ x.flyVolumeID = row.volumeID) := by
  have hinv := inv_of_reachable hreach
  refine ⟨hinv.world.open_length, hinv.world.counts, fun a s' hstep => ?_⟩
  by_cases hreport : ∀ worker expected, a ≠ .report worker expected
  · have heffect := (step_spec hinv hstep).2 hreport
    cases heffect with
    | quiet hrequests hstatus hcomplete =>
      refine ⟨fun r hr => .inl (hrequests ▸ hr), fun row hrow hc => .inl (hcomplete row hrow hc),
        fun _ x hx hstarting => .inl (hstatus x hx hstarting)⟩
    | requested row hrow r hrequests hattempt hvolume htables =>
      rw [hrequests, htables]
      refine ⟨fun r' hr' => ?_, fun row' hrow' _ => .inl hrow',
        fun _ x hx hstarting => .inl ⟨x, hx, hstarting⟩⟩
      rcases mem_cons.mp hr' with rfl | hold
      · exact .inr ⟨row, hrow, hattempt, hvolume⟩
      · exact .inl hold
    | completed row hrow hphase hrequests hmem hnew x hworker hstarting hmachine hvolume =>
      refine ⟨fun r hr => .inl (hrequests ▸ hr), fun row' hrow' hc => ?_, fun _ y hy _ => .inr ?_⟩
      · rcases hnew row' hrow' hc with hold | rfl
        · exact .inl hold
        · exact .inr ⟨x, hworker, hstarting, hmachine, hvolume⟩
      · obtain rfl : x = y := some.inj (hworker.symm.trans hy)
        exact ⟨row, hrow, hphase, hmem, hmachine, hvolume⟩
  · -- a report writes neither attempts nor requests
    have hkeep : s'.world.tables.attempts = s.world.tables.attempts ∧
        s'.world.machineRequests = s.world.machineRequests := by
      cases a with
      | report worker expected =>
        cases hstep
        exact ⟨rfl, rfl⟩
      | _ => exact absurd (by intro _ _ h; cases h) hreport
    rw [hkeep.1, hkeep.2]
    exact ⟨fun r hr => .inl hr, fun row hrow _ => .inl hrow, fun h => absurd h hreport⟩

/-- A volume whose fork was rejected is created, the creation of its machine answers late, a
recovery after a death finds both by name and run, and completes the attempt. -/
theorem provisioning_creates_once_recovered :
    let cfg : Config := ⟨text "w", id, id⟩
    ∃ s s', (machine cfg).Reachable s ∧
      (machine cfg).step s (.recover 1 (.run (.sql .ok))) = some s' ∧
      s.world.tables.worker.map (·.status) = some .pending ∧
      ∃ x, s'.world.tables.worker = some x ∧ x.status = .starting ∧
        ∃ row ∈ s.world.tables.attempts, row.phase = .machineReady ∧
          x.flyMachineID = row.machineID ∧ x.flyVolumeID = row.volumeID := by
  intro cfg
  let req : WorkerRequest :=
    ⟨text "n", text "pr", text "g", text "l", text "p", text "i", text "ord", 10, some (text "f")⟩
  let volume : Volume := ⟨text "v", text "soak_u", .created, 10, text "ord", [], []⟩
  let found : Machine :=
    { id := text "m", name := text "n", state := .started, region := text "ord", image := text "i"
      env :=
        { workerID := text "w", gitSHA := text "g", litestreamSHA := text "l", source := text "pr"
          runID := text "u", workloadID := text "f", volumeID := text "v"
          profile := some (text "f") }
      mounts := [⟨text "v", text "/data"⟩] }
  let create := fun o => Action.create 0 o
  let recover := fun o => Action.recover 1 (.run o)
  have hrun : ∃ s, (machine cfg).Reachable s ∧
      (s.world.tables.worker.map (·.status) = some .pending ∧
        ∃ s' ∈ (machine cfg).step s (.recover 1 (.run (.sql .ok))),
          ∃ x ∈ s'.world.tables.worker, x.status = .starting) :=
    Machine.exists_reaches_of_run (.start rfl)
      [.call 0 (.create req), .lock 0, create (.sql .ok), create (.stamp 0 .ok),
        create (.plan (text "u") 0 []), create (.sql .ok), create (.sql .ok), create (.sql .ok),
        create (.sql .ok), create (.source true), create (.volume (.error (.api 404 false))),
        create (.volume (.ok (text "v"))), create (.sql .ok), create (.sql .ok), create (.sql .ok),
        create (.register [] 0 [] .ok), create (.machine (.error (.other false))), .die,
        .call 1 (.recover (text "i")), .lock 1, recover (.sql .ok), recover (.sql .ok),
        .recover 1 (.inventory [found] [volume]), recover (.sql .ok), recover (.sql .ok),
        recover (.sql .ok), recover (.sql .ok), recover (.sql .ok)]
      (by decide)
  obtain ⟨s, hreach, hpending, s', hstep, x, hx, hstarting⟩ := hrun
  have honce := ((provisioning_creates_once cfg hreach).2.2 _ s' hstep).2.2 nofun x hx hstarting
  rcases honce with ⟨old, hold, hstatus⟩ | ⟨row, hrow, hready, -, hids⟩
  · rw [hold, map_some, hstatus] at hpending
    cases hpending
  · exact ⟨s, s', hreach, hstep, hpending, x, hx, hstarting, row, hrow, hready, hids⟩

end LitestreamSoak.Orchestrator
