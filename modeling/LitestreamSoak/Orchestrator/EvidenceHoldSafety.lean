import LitestreamSoak.Orchestrator.EvidenceHold
import LitestreamSoak.Orchestrator.RecoverySafety

/-!
# Orchestrator — what an evidence hold protects

A hold is set and released under the worker's lock, and every call that destroys checks it under the
same lock (`Inv`). So no step destroys what a hold on a worker it acts on names. What the check does
not see are the other workers: two of one name, or a volume that comes into a row while it is
collected, break the protection (`held_evidence_destroyed`). Where every machine, volume and object
is on record for one worker only (`Apart`) it holds in every run (`hold_protects`).
-/

namespace LitestreamSoak.Orchestrator.EvidenceHold

open Lib Orchestrator List Function Option

/-! ## §1 — the parts of a call keep a hold -/

/-- The worker's row says that its evidence is held. -/
def held (w : World) : Bool := w.tables.worker.any (·.evidenceHeld)

def Free (w : World) : Prop := held w = false

section Frame

variable {w w' : World} {result : Sql} {cfg : Config} {o : Orchestrator.Outcome}

theorem held_some {x : Worker} (h : w.tables.worker = some x) : held w = x.evidenceHeld := by
  rw [held, h]
  rfl

theorem held_of_worker {t : Tables} (h : t.worker = w.tables.worker) :
    held (w.setTables t) = held w := by
  rw [held, held, ← h]
  rfl

theorem held_map {t : Tables} {f : Worker → Worker} (ht : t.worker = w.tables.worker.map f)
    (hf : ∀ x, (f x).evidenceHeld = x.evidenceHeld) : held (w.setTables t) = held w := by
  grind [held, World.setTables]

theorem exec_held {PC α : Type} {t : Option Tables} {yes no next : Next PC α}
    (hexec : w.exec t result yes no = (w', next))
    (ht : ∀ t', t = some t' → held (w.setTables t') = held w) : held w' = held w := by
  rcases exec_cases hexec with ⟨t', ht', rfl, -⟩ | ⟨rfl, -⟩
  · exact ht t' ht'
  · rfl

theorem saveIdentity_held {t : Tables} {provisioning : Option ProvisioningAttempt}
    {identity : WorkerIdentity} (h : saveIdentity cfg w.tables provisioning identity = some t) :
    held (w.setTables t) = held w :=
  held_of_worker (saveIdentity_spec h).2

theorem abandonProvisioning_held {t : Tables} {a : ProvisioningAttempt}
    (h : abandonProvisioning w.tables a = some t) : held (w.setTables t) = held w := by
  simp only [abandonProvisioning, ite_none_right_eq_some] at h
  cases h.2
  rfl

theorem insertAttempt_held (w : World) (new : ProvisioningAttempt) :
    held (w.setTables (insertAttempt w.tables new)) = held w := by
  refine held_of_worker ?_
  unfold insertAttempt
  dsimp only
  split <;> rfl

theorem requestMachine_held (w : World) (args : MachineArgs) (identity : WorkerIdentity)
    (result : Except ProviderError NewMachine) :
    held (requestMachine w args identity result) = held w := rfl

theorem requestVolume_held (w : World) (a : ProvisioningAttempt)
    (result : Except ProviderError Text) : held (requestVolume w a result) = held w := rfl

theorem setAttempts_held (w : World) (attempts : List ProvisioningAttempt) :
    held (w.setAttempts attempts) = held w := rfl

theorem beginStep_held {pc : BeginPC} {next : Next BeginPC (Option ProvisioningAttempt)}
    (hstep : beginStep w pc o = some (w', next)) : held w' = held w := by
  unfold beginStep at hstep
  grind [insertAttempt_held]

theorem machineStep_held {args : MachineArgs} {pc : MachinePC}
    {next : Next MachinePC (Option NewMachine)}
    (hstep : machineStep cfg args w pc o = some (w', next)) : held w' = held w := by
  unfold machineStep at hstep
  grind [exec_held, saveIdentity_held, requestMachine_held]

theorem advanceStep_held {PC : Type} {a : ProvisioningAttempt} {phase : Phase}
    {volumeID machineID : Text} {goto : PC} {next : Next PC Bool}
    (hstep : advanceStep w a phase volumeID machineID result goto = (w', next)) :
    held w' = held w := by
  unfold advanceStep at hstep
  grind [setAttempts_held]

theorem finishStep_held {PC : Type} {a : ProvisioningAttempt} {machine : NewMachine}
    {next : Next PC Bool} (hstep : finishStep w a machine result = (w', next)) :
    held w' = held w := by
  refine exec_held hstep fun t ht => ?_
  split at ht
  · grind [completeProvisioning, held_map]
  · grind [bindProvisioningMachine, held_map]

theorem provisionStep_held {worker : Worker} {pc : ProvisionPC} {next : Next ProvisionPC Bool}
    (hstep : provisionStep cfg worker w pc o = some (w', next)) : held w' = held w := by
  unfold provisionStep at hstep
  grind [advanceStep_held, finishStep_held, machineStep_held, requestVolume_held]

/-- The upsert keeps the hold of the row it finds. -/
theorem upsertWorker_held (w : World) (new : Worker) (hnew : new.evidenceHeld = false) :
    held (w.setTables { w.tables with worker := some (upsertWorker w.tables.worker new) }) =
      held w := by
  unfold held World.setTables
  cases hworker : w.tables.worker with
  | none => exact hnew
  | some old => rfl

theorem createStep_held {pc : CreatePC} {next : Next CreatePC Bool}
    (hstep : createStep cfg w pc o = some (w', next)) : held w' = held w := by
  unfold createStep at hstep
  grind [exec_held, upsertWorker_held, newWorkerRecord, beginStep_held, provisionStep_held]

theorem replacement_exec_held {s : Replacement.State} {t : Option Tables} {yes : Replacement.PC}
    (ht : ∀ t', t = some t' → held (s.world.setTables t') = held s.world) :
    held (s.exec t result yes).world = held s.world := by
  unfold Replacement.State.exec
  split
  · exact ht _ rfl
  · exact ht _ rfl
  · rfl

theorem row_held {t : Tables} (f : Worker → Worker)
    (hf : ∀ x, (f x).evidenceHeld = x.evidenceHeld)
    (ht : some { w.tables with worker := w.tables.worker.map f } = some t) :
    held (w.setTables t) = held w := by
  cases ht
  exact held_map rfl hf

theorem applied_held {f : Tables → Tables}
    (hf : held (w.setTables (f w.tables)) = held w) (result : Sql) :
    held (applied w f result) = held w := by
  unfold applied
  split
  · exact hf
  · exact hf
  · rfl

end Frame

/-! ## §2 — what a caller goes on with -/

def DestroyPC.checked : DestroyPC → Bool
  | .read | .retain _ => false
  | _ => true

def changeChecked : Replacement.PC → Bool
  | .readWorker _ => false
  | _ => true

/-- The workers that the caller has found free, under their locks. -/
def PC.checked : PC → List Text
  | .destroy id pc => if pc.checked then [id] else []
  | .change id pc => if changeChecked pc then [id] else []
  | .clearOld id _ _ => [id]
  | .lockOwner _ _ _ locked held | .reload _ _ _ _ locked held => if held then [] else locked
  | .persist _ locked | .collect _ locked => locked
  | _ => []

def DestroyPC.copy : DestroyPC → Option Worker
  | .read => none
  | .retain w | .machine w | .volume w _ | .attempt w _ | .inventory w _ _ | .machines w _ _ _ _ _
  | .volumes w _ _ _ _ | .clear w _ _ | .abandon w _ | .status w _ => some w

/-- What the destroy has listed and not destroyed yet. -/
def DestroyPC.listed : DestroyPC → List Target
  | .machines _ _ machineIDs volumeIDs _ _ => machineIDs.map .machine ++ volumeIDs.map .volume
  | .volumes _ _ volumeIDs _ _ => volumeIDs.map .volume
  | _ => []

def changeCopy : Replacement.PC → Option Worker
  | .readAttempt w _ | .supersede w _ _ | .stop w _ | .destroy w _ | .destroyVolume w _
  | .mounts w _ | .backfill w _ _ | .destroyDormant w _ _ | .machine w _ _ _ | .recreate w _
  | .recreateVolume w _ => some w
  | _ => none

def attemptTargets (a : ProvisioningAttempt) (machines : List Machine) (volumes : List Volume) :
    List Target :=
  (attemptMachines a machines).map .machine ++ (attemptVolumes a volumes).map .volume

theorem callEntry_copy (x : Worker) (call : Replacement.Call) :
    ∀ y ∈ changeCopy (Replacement.callEntry x call), y = x := by
  cases call <;> grind [Replacement.callEntry, Replacement.recreateEntry,
    Replacement.recreateVolumeEntry, Replacement.destroyDormantEntry, changeCopy]

theorem machineEntry_copy (x : Worker) (req : WorkerRequest) :
    ∀ y ∈ changeCopy (Replacement.machineEntry x req), y = x := by
  grind [Replacement.machineEntry, Replacement.volumeEntry, changeCopy]

theorem exec_pc {s : Replacement.State} {t : Option Tables} {result : Sql} {yes : Replacement.PC} :
    (s.exec t result yes).pc = yes ∨ (s.exec t result yes).pc = .idle := by
  unfold Replacement.State.exec
  split
  · exact .inl rfl
  · exact .inr rfl
  · exact .inr rfl

theorem replacement_copy {cfg : Config} {s s' : Replacement.State} {pc : Replacement.PC}
    {o : Replacement.Outcome} (hstep : Replacement.callStep cfg s pc o = some s') :
    ∀ x ∈ changeCopy s'.pc, x ∈ changeCopy pc ∨ s.world.tables.worker = some x := by
  unfold Replacement.callStep at hstep
  grind [changeCopy, callEntry_copy, machineEntry_copy, Replacement.volumeEntry,
    Replacement.recreateEntry, Replacement.recreateVolumeEntry, Replacement.destroyDormantEntry,
    exec_pc, Replacement.State.goto, Replacement.State.next, Replacement.State.confirm]

theorem replacement_held {cfg : Config} {s s' : Replacement.State} {pc : Replacement.PC}
    {o : Replacement.Outcome} (hstep : Replacement.callStep cfg s pc o = some s') :
    held s'.world = held s.world := by
  unfold Replacement.callStep at hstep
  grind [createStep_held, machineStep_held, replacement_exec_held, row_held,
    abandonProvisioning_held, Replacement.State.goto, Replacement.State.next,
    Replacement.State.confirm, Replacement.setMachine, Replacement.setMachineVersion,
    Replacement.markProbing]

theorem callEntry_of_held {x : Worker} (h : x.evidenceHeld = true) (call : Replacement.Call) :
    Replacement.callEntry x call = .idle := by
  cases call <;> simp [Replacement.callEntry, h]

theorem replacement_checked {cfg : Config} {s s' : Replacement.State} {pc : Replacement.PC}
    {o : Replacement.Outcome} (hstep : Replacement.callStep cfg s pc o = some s')
    (hnext : s'.pc ≠ .idle) : changeChecked pc = true ∨ Free s.world := by
  cases pc with
  | readWorker call =>
    unfold Replacement.callStep at hstep
    grind [Replacement.State.goto, callEntry_of_held, Free, held_some]
  | _ => exact .inl rfl

section Destroy

variable {site : Site} {w w' : World} {pc pc' : DestroyPC} {o : Outcome}
  {next : Next DestroyPC Unit}

theorem destroyStep_held (hstep : destroyStep site w pc o = some (w', next)) :
    held w' = held w := by
  unfold destroyStep at hstep
  grind [applied_held, held_map, updateWorkerStatus, setRow, abandonProvisioning_held]

theorem destroyStep_checked (hstep : destroyStep site w pc o = some (w', .goto pc'))
    (hchecked : pc'.checked = true) : pc.checked = true ∨ Free w := by
  unfold destroyStep at hstep
  grind [DestroyPC.checked, Free, held_some]

theorem cleared_spec (x : Worker) (a : Option ProvisioningAttempt) (failed : Bool) :
    (cleared x a failed).copy = some x ∧ (cleared x a failed).listed = [] ∧
      ∀ y b f, cleared x a failed ≠ .inventory y b f := by
  unfold cleared
  split <;> exact ⟨rfl, rfl, by simp⟩

theorem clearEntry_spec (x : Worker) (a : Option ProvisioningAttempt) (failed : Bool) :
    (clearEntry site x a failed).copy = some x ∧ (clearEntry site x a failed).listed = [] ∧
      ∀ y b f, clearEntry site x a failed ≠ .inventory y b f := by
  unfold clearEntry
  split
  · exact ⟨rfl, rfl, by simp⟩
  · exact cleared_spec x a _

theorem destroyStep_copy (hstep : destroyStep site w pc o = some (w', .goto pc')) :
    ∀ x ∈ pc'.copy, x ∈ pc.copy ∨ w.tables.worker = some x := by
  unfold destroyStep at hstep
  grind [DestroyPC.copy, volumeEntry, clearEntry_spec, cleared_spec]

theorem destroyStep_listed (hstep : destroyStep site w pc o = some (w', .goto pc')) :
    ∀ t ∈ pc'.listed, t ∈ pc.listed ∨ ∃ x a failed machines volumes,
      pc = .inventory x a failed ∧ o = .inventory machines volumes ∧
        t ∈ attemptTargets a machines volumes := by
  unfold destroyStep at hstep
  grind [DestroyPC.listed, volumeEntry, clearEntry_spec, cleared_spec, attemptTargets]

theorem destroyStep_attempt (hstep : destroyStep site w pc o = some (w', .goto pc')) {x : Worker}
    {a : ProvisioningAttempt} {failed : Bool} (hpc' : pc' = .inventory x a failed) :
    a ∈ w'.tables.attempts := by
  unfold destroyStep at hstep
  grind [volumeEntry, clearEntry_spec, cleared_spec, activeProvisioning]

end Destroy

/-! ## §3 — a step of a call -/

/-- A caller that acts for worker `id` may still destroy `t`: its copy of the row names it, or it is
on the list of what the worker's open attempt has left. -/
def PC.aims (id : Text) (t : Target) : PC → Prop
  | .destroy i pc => i = id ∧ ((∃ x ∈ pc.copy, Hits x t) ∨ t ∈ pc.listed)
  | .change i pc => i = id ∧ ∃ x ∈ changeCopy pc, Hits x t
  | .clearOld i x pc => i = id ∧ (Hits x t ∨ ∃ y ∈ changeCopy pc, Hits y t)
  | _ => False

/-- The volume a caller collects, with the workers it has locked for it or is going to lock. -/
def PC.collects : PC → Option (Text × List Text)
  | .lockOwner volumeID _ todo locked _ => some (volumeID, todo ++ locked)
  | .reload volumeID _ id todo locked _ => some (volumeID, id :: (todo ++ locked))
  | .persist volumeID locked | .collect volumeID locked => some (volumeID, locked)
  | _ => none

def PC.observes (id : Text) (a : ProvisioningAttempt) : PC → Prop
  | .destroy i (.inventory _ b _) => i = id ∧ b = a
  | _ => False

section Steps

variable {site : Site} {s s' t : State} {c : Nat} {pc pc' : PC} {o : Outcome} {id : Text}

theorem PC.checked_locked (h : id ∈ pc.checked) : id ∈ pc.locked := by
  cases pc <;> grind [PC.checked, PC.locked]

/-- Where a caller has a target from: it had it before, the row it reads names it, or an inventory
lists it for the attempt it looks up. -/
def Source (s : State) (pc : PC) (o : Outcome) (id : Text) (x : Target) : Prop :=
  pc.aims id x ∨ (∃ w, s.row id = some w ∧ Hits w x) ∨
    ∃ a machines volumes, pc.observes id a ∧ o = .inventory machines volumes ∧
      x ∈ attemptTargets a machines volumes

/-- **What a step of a call does**: to the rows (from those of `s` to those of `t`), and to what the
caller, at `pc` before and at `pc'` after it, has locked, has checked and is going to destroy. -/
structure Advance (site : Site) (s : State) (pc : PC) (o : Outcome) (t : State) (pc' : PC) :
    Prop where
  callers : t.callers = s.callers
  locks : t.locks = s.locks
  worlds : ∀ i, i ∉ pc.locked → t.worlds i = s.worlds i
  keeps : ∀ i, held (s.worlds i) = true →
    held (t.worlds i) = true ∨ ∃ destroy, pc = .releaseClear i destroy
  locked : pc'.locked ⊆ pc.locked
  free : (∀ i ∈ pc.checked, Free (s.worlds i)) → ∀ i ∈ pc'.checked, Free (t.worlds i)
  aims : ∀ i x, pc'.aims i x → Source s pc o i x
  observes : ∀ i a, pc'.observes i a → a ∈ (t.worlds i).tables.attempts
  collects : ∀ v ids', pc'.collects = some (v, ids') → t = s ∧ ids' = ownersOf site s v ∨
    ∃ ids, pc.collects = some (v, ids) ∧ ids ⊆ ids'

/-- A place at which a caller has checked nothing and has nothing to destroy. -/
def PC.plain : PC → Bool
  | .idle | .waiting _ _ | .holdRead _ | .holdSet _ | .holdReload _ | .releaseRead _ _
  | .releaseClear _ _ | .destroy _ .read | .change _ (.readWorker _) | .owners _ _ => true
  | _ => false

theorem PC.plain_spec (h : pc.plain = true) :
    pc.checked = [] ∧ (∀ i x, ¬ pc.aims i x) ∧ (∀ i a, ¬ pc.observes i a) ∧ pc.collects = none := by
  cases pc with
  | destroy i pc =>
    cases pc with
    | read => exact ⟨rfl, by simp [PC.aims, DestroyPC.copy, DestroyPC.listed], fun _ _ => id, rfl⟩
    | _ => cases h
  | change i pc =>
    cases pc with
    | readWorker call => exact ⟨rfl, by simp [PC.aims, changeCopy], fun _ _ => id, rfl⟩
    | _ => cases h
  | _ => first | cases h; done | exact ⟨rfl, fun _ _ => id, fun _ _ => id, rfl⟩

/-- Most steps write no row. -/
theorem Advance.stay (hlocked : pc'.locked ⊆ pc.locked)
    (hfree : (∀ i ∈ pc.checked, Free (s.worlds i)) → ∀ i ∈ pc'.checked, Free (s.worlds i))
    (haims : ∀ i x, pc'.aims i x → Source s pc o i x) (hobserves : ∀ i a, ¬ pc'.observes i a)
    (hcollects : ∀ v ids', pc'.collects = some (v, ids') → s = s ∧ ids' = ownersOf site s v ∨
      ∃ ids, pc.collects = some (v, ids) ∧ ids ⊆ ids') : Advance site s pc o s pc' :=
  ⟨rfl, rfl, fun _ _ => rfl, fun _ => .inl, hlocked, hfree, haims,
    fun i a ha => absurd ha (hobserves i a), hcollects⟩

theorem Advance.plain (h : pc'.plain = true) (hlocked : pc'.locked ⊆ pc.locked) :
    Advance site s pc o s pc' := by
  obtain ⟨hchecked, haims, hobserves, hcollects⟩ := PC.plain_spec h
  refine .stay hlocked ?_ (fun i x hx => absurd hx (haims i x)) hobserves ?_
  · rw [hchecked]
    exact fun _ => nofun
  · rw [hcollects]
    exact nofun

theorem Advance.idle : Advance site s pc o s .idle := .plain rfl (nil_subset _)

/-- A caller that has one worker locked writes its row. -/
theorem Advance.write {world : World} (hid : pc.locked = [id]) (hpc' : pc'.collects = none)
    (hlocked : pc'.locked ⊆ [id])
    (hkeeps : held (s.worlds id) = true →
      held world = true ∨ ∃ destroy, pc = .releaseClear id destroy)
    (hfree : (∀ i ∈ pc.checked, Free (s.worlds i)) → ∀ i ∈ pc'.checked, Free world)
    (haims : ∀ i x, pc'.aims i x → Source s pc o i x)
    (hobserves : ∀ i a, pc'.observes i a → i = id ∧ a ∈ world.tables.attempts) :
    Advance site s pc o (s.setWorld id world) pc' where
  callers := rfl
  locks := rfl
  worlds i hi := update_of_ne (by simpa [hid] using hi) _ _
  keeps i hi := by
    show held (update s.worlds id world i) = true ∨ _
    by_cases h : i = id
    · subst h
      rw [update_self]
      exact hkeeps hi
    · rw [update_of_ne h]
      exact .inl hi
  locked := hid ▸ hlocked
  free h i hi := by
    obtain rfl := List.mem_singleton.mp (hlocked (PC.checked_locked hi))
    show Free (update s.worlds i world i)
    rw [update_self]
    exact hfree h i hi
  aims := haims
  observes i a ha := by
    obtain ⟨rfl, hmem⟩ := hobserves i a ha
    show a ∈ (update s.worlds i world i).tables.attempts
    rw [update_self]
    exact hmem
  collects v ids' hids := by
    rw [hpc'] at hids
    cases hids

theorem setEvidenceHold_held {w : World} (h : held w = true) (result : Sql) :
    held (applied w (setEvidenceHold true) result) = true := by
  have hset : held (w.setTables (setEvidenceHold true w.tables)) = true := by
    unfold held World.setTables setEvidenceHold setRow at *
    cases hworker : w.tables.worker with
    | none =>
      rw [hworker] at h
      cases h
    | some x => rfl
  unfold applied
  split
  · exact hset
  · exact hset
  · exact h

theorem changeNext_cases (site : Site) (id : Text) (before after : Replacement.PC) :
    changeNext site id before after = .idle ∨ after ≠ .idle ∧
      (changeNext site id before after = .change id after ∨
        ∃ x ∈ changeCopy before, changeNext site id before after = .clearOld id x after) := by
  unfold changeNext
  grind [changeCopy]

theorem ownerEntry_cases (volumeID : Text) (request : Bool) (todo locked : List Text)
    (held : Bool) : ownerEntry volumeID request todo locked held = .idle ∨
      ownerEntry volumeID request todo locked held = .lockOwner volumeID request todo locked held ∨
      held = false ∧ todo = [] ∧
        ownerEntry volumeID request todo locked held = .persist volumeID locked := by
  unfold ownerEntry collectEntry
  grind

theorem destroy_advance {pc : DestroyPC} {world : World} {next : Next DestroyPC Unit}
    (hstep : destroyStep site (s.worlds id) pc o = some (world, next)) :
    next.Holds
      (fun pc' => Advance site s (.destroy id pc) o (s.setWorld id world) (.destroy id pc'))
      fun _ => Advance site s (.destroy id pc) o (s.setWorld id world) .idle := by
  have hkeeps : held (s.worlds id) = true → held world = true ∨
      ∃ destroy, PC.destroy id pc = .releaseClear id destroy :=
    fun h => .inl ((destroyStep_held hstep).trans h)
  cases next with
  | done result =>
    exact .write rfl rfl (nil_subset _) hkeeps nofun nofun nofun
  | goto pc' =>
    refine .write rfl rfl (List.Subset.refl _) hkeeps ?_ ?_ ?_
    · intro hfree i hi
      have hchecked : pc'.checked = true := by
        by_contra hno
        simp [PC.checked, hno] at hi
      rw [Free, destroyStep_held hstep]
      refine (destroyStep_checked hstep hchecked).elim (fun h => hfree id ?_) (·)
      simp [PC.checked, h]
    · rintro i x ⟨rfl, ⟨y, hy, hit⟩ | hlisted⟩
      · rcases destroyStep_copy hstep y hy with hold | hrow
        · exact .inl ⟨rfl, .inl ⟨y, hold, hit⟩⟩
        · exact .inr (.inl ⟨y, hrow, hit⟩)
      · rcases destroyStep_listed hstep x hlisted with hold | ⟨y, a, failed, ms, vs, rfl, ho, hx⟩
        · exact .inl ⟨rfl, .inr hold⟩
        · exact .inr (.inr ⟨a, ms, vs, ⟨rfl, rfl⟩, ho, hx⟩)
    · intro i a hobserves
      cases pc' with
      | inventory y b failed =>
        obtain ⟨rfl, rfl⟩ := hobserves
        exact ⟨rfl, destroyStep_attempt hstep rfl⟩
      | _ => cases hobserves

theorem change_advance {pc : Replacement.PC} {o : Replacement.Outcome} {world : World}
    (hstep : changeStep site id (s.worlds id) pc o = some (world, pc')) :
    Advance site s (.change id pc) (.call o) (s.setWorld id world) pc' := by
  obtain ⟨r, hcall, heq⟩ := map_eq_some_iff.mp hstep
  cases heq
  have hheld : held r.world = held (s.worlds id) := replacement_held hcall
  have hfree : r.pc ≠ .idle → (∀ i ∈ (PC.change id pc).checked, Free (s.worlds i)) →
      Free r.world := by
    intro hnext hfree
    rw [Free, hheld]
    refine (replacement_checked hcall hnext).elim (fun h => hfree id ?_) (·)
    simp [PC.checked, h]
  have hkeeps : held (s.worlds id) = true → held r.world = true ∨
      ∃ destroy, PC.change id pc = .releaseClear id destroy := fun h => .inl (hheld.trans h)
  have hcopy : ∀ y ∈ changeCopy r.pc, ∀ t, Hits y t → Source s (.change id pc) (.call o) id t := by
    intro y hy t hit
    rcases replacement_copy hcall y hy with hold | hrow
    · exact .inl ⟨rfl, y, hold, hit⟩
    · exact .inr (.inl ⟨y, hrow, hit⟩)
  rcases changeNext_cases site id pc r.pc with hnext | ⟨hne, hnext | ⟨x, hx, hnext⟩⟩ <;> rw [hnext]
  · exact .write rfl rfl (nil_subset _) hkeeps nofun nofun nofun
  all_goals refine .write rfl rfl (List.Subset.refl _) hkeeps (fun h _ _ => hfree hne h) ?_ nofun
  · rintro i t ⟨rfl, y, hy, hit⟩
    exact hcopy y hy t hit
  · rintro i t ⟨rfl, hit | ⟨y, hy, hit⟩⟩
    · exact .inl ⟨rfl, x, hx, hit⟩
    · exact hcopy y hy t hit

/-- The owners of a volume: those listed are locked one after the other. -/
theorem Advance.owner {volumeID : Text} {request held : Bool} {todo locked : List Text}
    (hlocked : locked ⊆ pc.locked)
    (hfree : held = false → (∀ i ∈ pc.checked, Free (s.worlds i)) → ∀ i ∈ locked, Free (s.worlds i))
    (hcollects : s = s ∧ todo ++ locked = ownersOf site s volumeID ∨
      ∃ ids, pc.collects = some (volumeID, ids) ∧ ids ⊆ todo ++ locked) :
    Advance site s pc o s (ownerEntry volumeID request todo locked held) := by
  rcases ownerEntry_cases volumeID request todo locked held with h | h | ⟨hheld, rfl, h⟩ <;> rw [h]
  · exact .idle
  · refine .stay hlocked (fun hpc i hi => ?_) nofun nofun ?_
    · cases held with
      | true => cases hi
      | false => exact hfree rfl hpc i hi
    · rintro v ids' ⟨⟩
      exact hcollects
  · refine .stay hlocked (hfree hheld) nofun nofun ?_
    rintro v ids' ⟨⟩
    exact hcollects

/-- **A step of a call.** -/
theorem callStep_advance (hstep : callStep site s c pc o = some s') :
    ∃ t pc', s' = t.goto c pc' ∧ Advance site s pc o t pc' := by
  unfold callStep at hstep
  split at hstep
  · -- a hold reads the row, sets the flag and reads the row again
    split at hstep <;> cases hstep
    · exact ⟨s, .idle, rfl, .idle⟩
    · refine ⟨s, _, rfl, ?_⟩
      split
      · exact .idle
      · exact .plain rfl (List.Subset.refl _)
  · cases hstep
    exact ⟨s, .idle, rfl, .idle⟩
  · next id result =>
    cases hstep
    refine ⟨_, _, rfl, ?_⟩
    split
    · exact .write rfl rfl (List.Subset.refl _) (fun h => .inl (setEvidenceHold_held h result))
        nofun nofun nofun
    · exact .write rfl rfl (nil_subset _) (fun h => .inl (setEvidenceHold_held h result))
        nofun nofun nofun
  · cases hstep
    exact ⟨s, .idle, rfl, .idle⟩
  · next id destroy =>
    split at hstep <;> cases hstep
    · exact ⟨s, .idle, rfl, .idle⟩
    · refine ⟨s, _, rfl, ?_⟩
      split
      · exact .plain rfl (List.Subset.refl _)
      · split
        · exact .plain rfl (List.Subset.refl _)
        · exact .idle
  · cases hstep
    exact ⟨s, .idle, rfl, .idle⟩
  · next id destroy result =>
    cases hstep
    refine ⟨_, _, rfl, ?_⟩
    split
    · exact .write rfl rfl (List.Subset.refl _) (fun _ => .inr ⟨destroy, rfl⟩) nofun
        (by simp [PC.aims, DestroyPC.copy, DestroyPC.listed]) nofun
    · exact .write rfl rfl (nil_subset _) (fun _ => .inr ⟨destroy, rfl⟩) nofun nofun nofun
  · split at hstep
    · cases hstep
    · next hsub =>
      cases hstep
      exact ⟨_, _, rfl, destroy_advance hsub⟩
    · next hsub =>
      cases hstep
      exact ⟨_, .idle, rfl, destroy_advance hsub⟩
  · grind [change_advance]
  · next id x pc keys page =>
    split at hstep <;> cases hstep
    have hfree : (∀ i ∈ [id], Free (s.worlds i)) → ∀ i ∈ (PC.change id pc).checked,
        Free (s.worlds i) := fun h i hi => h i (PC.checked_locked hi)
    refine ⟨s, _, rfl, ?_⟩
    split
    · exact .stay (List.Subset.refl _) (·) (fun _ _ => .inl) nofun nofun
    · refine .stay (List.Subset.refl _) hfree ?_ nofun nofun
      rintro i t ⟨rfl, hit⟩
      exact .inl ⟨rfl, .inr hit⟩
  · cases hstep
    refine ⟨s, _, rfl, .owner (nil_subset _) (fun _ _ => nofun) (.inl ⟨rfl, append_nil _⟩)⟩
  · cases hstep
    exact ⟨s, .idle, rfl, .idle⟩
  · next volumeID request id todo locked held =>
    split at hstep <;> cases hstep
    · exact ⟨s, .idle, rfl, .idle⟩
    · next w hw =>
      refine ⟨s, _, rfl, .owner (List.Subset.refl _) ?_ (.inr ⟨_, rfl, ?_⟩)⟩
      · -- the owner just read is free, as those before it
        intro hheld hfree i hi
        rw [Bool.or_eq_false_iff] at hheld
        rcases mem_cons.mp hi with rfl | hi
        · exact (held_some hw).trans hheld.2
        · exact hfree i (by simpa [PC.checked, hheld.1] using hi)
      · grind
  · cases hstep
    exact ⟨s, .idle, rfl, .idle⟩
  · next volumeID locked =>
    cases hstep
    exact ⟨s, _, rfl, .stay (List.Subset.refl _) (·) nofun nofun fun v ids hids =>
      .inr ⟨ids, hids, List.Subset.refl _⟩⟩
  · cases hstep
    exact ⟨s, .idle, rfl, .idle⟩
  · cases hstep
    exact ⟨s, .idle, rfl, .idle⟩
  · cases hstep

/-! ## §4 — steps of the fleet -/

variable {a : Action}

/-- **A step of the fleet**: one of a call, the lock of a worker, or a report. -/
inductive Move (site : Site) (s : State) (a : Action) : State → Prop where
  | advance {c : Nat} {o : Outcome} {t : State} {pc' : PC}
      (hact : a = .step c o ∨
        o = .page [] .more ∧ ∀ i destroy, s.callers c ≠ .releaseClear i destroy)
      (hadvance : Advance site s (s.callers c) o t pc') : Move site s a (t.goto c pc')
  | lock {c : Nat} {id : Text} {pc' : PC} (hfree : s.locks id = none)
      (hlocked : pc'.locked ⊆ id :: (s.callers c).locked)
      (hchecked : pc'.checked ⊆ (s.callers c).checked) (haims : ∀ i x, ¬ pc'.aims i x)
      (hobserves : ∀ i b, ¬ pc'.observes i b)
      (hcollects : ∀ v ids', pc'.collects = some (v, ids') →
        ∃ ids, (s.callers c).collects = some (v, ids) ∧ ids ⊆ ids') :
      Move site s a { s.setCaller c pc' with locks := update s.locks id (some c) }
  | report (id : Text) (row : Worker) :
      Move site s a (s.setWorld id ((s.worlds id).setTables (reportRow (s.worlds id).tables row)))

theorem Call.entry_plain (id : Text) (call : Call) :
    (call.entry id).plain = true ∧ (call.entry id).locked = [id] := by
  cases call <;> exact ⟨rfl, rfl⟩

theorem act_move (hact : act site s a = some s') : Move site s a s' := by
  cases a with
  | call c id call =>
    simp only [act] at hact
    split at hact
    · next hs =>
      split at hact <;> cases hact
      have hwaiting : Move site s (.call c id call) (s.goto c (.waiting id call)) :=
        .advance (.inr ⟨rfl, by simp [hs]⟩) (.plain rfl (nil_subset _))
      exact hwaiting
    · cases hact
  | volume c volumeID request =>
    simp only [act] at hact
    split at hact <;> cases hact
    next hs =>
    have howners : Move site s (.volume c volumeID request) (s.goto c (.owners volumeID request)) :=
      .advance (.inr ⟨rfl, by simp [hs]⟩) (.plain rfl (nil_subset _))
    exact howners
  | lock c =>
    simp only [act] at hact
    split at hact
    · next id call hs =>
      split at hact <;> cases hact
      next hfree =>
      obtain ⟨hplain, hlocked⟩ := Call.entry_plain id call
      obtain ⟨hchecked, haims, hobserves, hcollects⟩ := PC.plain_spec hplain
      refine .lock hfree (by rw [hlocked]; exact cons_subset_cons _ (nil_subset _))
        (by rw [hchecked]; exact nil_subset _) haims hobserves fun v ids' hids => ?_
      rw [hcollects] at hids
      cases hids
    · next volumeID request id todo locked held hs =>
      split at hact <;> cases hact
      next hfree =>
      refine .lock hfree (by rw [hs]; exact List.Subset.refl _)
        (by rw [hs]; exact List.Subset.refl _) nofun nofun fun v ids' hids => ?_
      cases hids
      exact ⟨_, by rw [hs]; rfl, List.Subset.refl _⟩
    · cases hact
  | cancel c =>
    simp only [act] at hact
    split at hact <;> cases hact
    all_goals
      next hs =>
        have hidle : Move site s (.cancel c) (s.goto c .idle) :=
          .advance (.inr ⟨rfl, by simp [hs]⟩) .idle
        exact hidle
  | step c outcome =>
    obtain ⟨t, pc', rfl, hadvance⟩ := callStep_advance hact
    exact .advance (.inl rfl) hadvance
  | report id row =>
    simp only [act] at hact
    split at hact <;> cases hact
    exact .report id row

theorem step_move (hstep : step site s a = some s') : Move site s a s' :=
  act_move (Option.filter_eq_some_iff.mp hstep).1

/-- A caller has its workers locked, and those it has checked are free. -/
structure Inv (s : State) : Prop where
  locks : ∀ c, ∀ id ∈ (s.callers c).locked, s.locks id = some c
  free : ∀ c, ∀ id ∈ (s.callers c).checked, Free (s.worlds id)

theorem State.goto_worlds (s : State) (c : Nat) (pc : PC) : (s.goto c pc).worlds = s.worlds := by
  cases pc <;> rfl

theorem State.goto_callers (s : State) (c : Nat) (pc : PC) :
    (s.goto c pc).callers = update s.callers c pc := by
  cases pc <;> rfl

theorem Inv.move (h : Inv s) (c : Nat)
    (hcallers : ∀ d, d ≠ c → s'.callers d = s.callers d)
    (hlocks : ∀ d, d ≠ c → ∀ id, s.locks id = some d → s'.locks id = some d)
    (hworlds : ∀ d, d ≠ c → ∀ id, s.locks id = some d → s'.worlds id = s.worlds id)
    (hown : ∀ id ∈ (s'.callers c).locked, s'.locks id = some c)
    (hfree : ∀ id ∈ (s'.callers c).checked, Free (s'.worlds id)) : Inv s' := by
  constructor
  · grind [Inv.locks]
  · intro d id hid
    by_cases hd : d = c
    · subst hd
      exact hfree id hid
    · rw [hcallers d hd] at hid
      rw [hworlds d hd id (h.locks d id (PC.checked_locked hid))]
      exact h.free d id hid

/-- What another caller has locked this one has not. -/
theorem Inv.other (h : Inv s) {d : Nat} (hd : d ≠ c) (hid : s.locks id = some d) :
    id ∉ (s.callers c).locked :=
  fun hmem => hd (some.inj (hid.symm.trans (h.locks c id hmem)))

theorem Inv.advance (h : Inv s) (hadvance : Advance site s (s.callers c) o t pc') :
    Inv (t.goto c pc') := by
  have hc : (t.goto c pc').callers c = pc' := by rw [State.goto_callers, update_self]
  refine h.move c ?_ ?_ ?_ ?_ ?_
  · intro d hd
    rw [State.goto_callers, update_of_ne hd, hadvance.callers]
  · intro d hd i hi
    cases pc' with
    | idle =>
      show (if i ∈ (t.callers c).locked then none else t.locks i) = some d
      rw [hadvance.callers, hadvance.locks, if_neg (h.other hd hi)]
      exact hi
    | _ => exact (congrFun hadvance.locks i).trans hi
  · intro d hd i hi
    rw [State.goto_worlds]
    exact hadvance.worlds i (h.other hd hi)
  · intro i hi
    rw [hc] at hi
    cases pc' with
    | idle => cases hi
    | _ => exact (congrFun hadvance.locks i).trans (h.locks c i (hadvance.locked hi))
  · intro i hi
    rw [hc] at hi
    rw [State.goto_worlds]
    exact hadvance.free (h.free c) i hi

theorem reportRow_held (w : World) (row : Worker) :
    held (w.setTables (reportRow w.tables row)) = held w := by
  unfold held World.setTables reportRow
  cases w.tables.worker <;> rfl

theorem report_held (row : Worker) (i : Text) :
    held ((s.setWorld id ((s.worlds id).setTables (reportRow (s.worlds id).tables row))).worlds i) =
      held (s.worlds i) := by
  show held (update s.worlds id _ i) = _
  by_cases hi : i = id
  · rw [hi, update_self, reportRow_held]
  · rw [update_of_ne hi]

/-- **The step lemma.** -/
theorem Inv.step (h : Inv s) (hmove : Move site s a s') : Inv s' := by
  cases hmove with
  | advance _ hadvance => exact h.advance hadvance
  | @lock c id pc' hfree hlocked hchecked =>
    have hc : update s.callers c pc' c = pc' := update_self ..
    refine h.move c (fun d hd => update_of_ne hd _ _) (fun d hd i hi => ?_) (fun _ _ _ _ => rfl)
      (fun i hi => ?_) fun i hi => ?_
    · grind
    · have hi : i ∈ pc'.locked := hc ▸ hi
      grind [Inv.locks]
    · have hi : i ∈ pc'.checked := hc ▸ hi
      exact h.free c i (hchecked hi)
  | report id row => exact ⟨h.locks, fun c i hi => (report_held row i).trans (h.free c i hi)⟩

/-- The invariant holds along every run. -/
theorem inv_of_reaches {ok : State → Action → Prop} (h : (machine site).Reaches ok s) : Inv s := by
  refine h.invariant ?_ fun s a s' hs _ hstep => hs.step (step_move hstep)
  rintro s ⟨-, hidle, -⟩
  constructor
  · intro c id hid
    rw [hidle c] at hid
    cases hid
  · intro c id hid
    rw [hidle c] at hid
    cases hid

/-- Only a release ends a hold. -/
theorem step_keeps_hold (hmove : Move site s a s') {i : Text} (hheld : held (s.worlds i) = true) :
    held (s'.worlds i) = true ∨
      ∃ c o destroy, a = .step c o ∧ s.callers c = .releaseClear i destroy := by
  cases hmove with
  | @advance c o t pc' hact hadvance =>
    rw [State.goto_worlds]
    refine (hadvance.keeps i hheld).imp_right fun ⟨destroy, hpc⟩ => ?_
    rcases hact with rfl | ⟨-, hnot⟩
    · exact ⟨c, o, destroy, rfl, hpc⟩
    · exact absurd hpc (hnot i destroy)
  | lock => exact .inl hheld
  | report id row => exact .inl ((report_held row i).trans hheld)

/-! ## §5 — what belongs to whom -/

variable {own : Target → Text} {worlds worlds' : Text → World}

/-- **The condition**, on what is stored before a step. Every machine, volume and object belongs to
one worker, the same in the whole run, and only that worker has it on record. -/
structure Apart (site : Site) (own : Target → Text) (s : State) (a : Action) : Prop where
  /-- no two workers have one machine or one volume on record, or replicas of which one lies in the
  other, at one time or one after the other -/
  owned : ∀ id x, s.row id = some x → ∀ t, Hits x t → own t = id
  named : ∀ id x, s.row id = some x → trimSpace x.flyVolumeID = [] → x.flyVolumeID = []
  /-- an inventory lists for an attempt only what belongs to the attempt's worker -/
  listed : ∀ c machines volumes, a = .step c (.inventory machines volumes) →
    ∀ id, ∀ b ∈ (s.worlds id).tables.attempts, ∀ t ∈ attemptTargets b machines volumes, own t = id
  /-- no volume comes into a row or an attempt while it is collected -/
  backfill : ∀ s', step site s a = some s' → ∀ c v ids, (s.callers c).collects = some (v, ids) →
    ∀ id ∈ site.ids, references (s'.worlds id) v = true → references (s.worlds id) v = true

/-- **Tied**: what a caller is going to destroy belongs to the worker it acts for, the attempt it
looks up is stored, and every worker that references the volume it collects is on its list. -/
structure Tied (site : Site) (own : Target → Text) (worlds : Text → World) (pc : PC) : Prop where
  aims : ∀ id t, pc.aims id t → own t = id
  observes : ∀ id b, pc.observes id b → b ∈ (worlds id).tables.attempts
  owners : ∀ v ids, pc.collects = some (v, ids) → trimSpace v ≠ [] →
    ∀ id ∈ site.ids, references (worlds id) v = true → id ∈ ids

theorem PC.observes_locked {b : ProvisioningAttempt} (h : pc.observes id b) : id ∈ pc.locked := by
  unfold PC.observes at h
  split at h
  · rw [h.1]
    exact mem_singleton_self _
  · cases h

theorem Tied.mono (h : Tied site own worlds pc)
    (hattempts : ∀ id ∈ pc.locked, (worlds' id).tables.attempts = (worlds id).tables.attempts)
    (hrefs : ∀ v ids, pc.collects = some (v, ids) → ∀ id ∈ site.ids,
      references (worlds' id) v = true → references (worlds id) v = true) :
    Tied site own worlds' pc where
  aims := h.aims
  observes id b hb := hattempts id (PC.observes_locked hb) ▸ h.observes id b hb
  owners v ids hids hv id hid hid' := h.owners v ids hids hv id hid (hrefs v ids hids id hid hid')

theorem Tied.advance (h : Tied site own s.worlds (s.callers c)) (hok : Apart site own s a)
    (hrefs : ∀ v ids, (s.callers c).collects = some (v, ids) → ∀ id ∈ site.ids,
      references (t.worlds id) v = true → references (s.worlds id) v = true)
    (hact : ∀ machines volumes, o = .inventory machines volumes → a = .step c o)
    (hadvance : Advance site s (s.callers c) o t pc') : Tied site own t.worlds pc' where
  aims id x hx := by
    rcases hadvance.aims id x hx with hold | ⟨w, hw, hit⟩ | ⟨b, machines, volumes, hb, ho, hx⟩
    · exact h.aims id x hold
    · exact hok.owned id w hw x hit
    · have ha : a = .step c (.inventory machines volumes) := ho ▸ hact machines volumes ho
      exact hok.listed c machines volumes ha id b (h.observes id b hb) x hx
  observes := hadvance.observes
  owners v ids' hids hv id hid hid' := by
    rcases hadvance.collects v ids' hids with ⟨rfl, rfl⟩ | ⟨ids, hids, hsub⟩
    · rw [ownersOf, if_neg hv]
      exact mem_filter.mpr ⟨hid, hid'⟩
    · exact hsub (h.owners v ids hids hv id hid (hrefs v ids hids id hid hid'))

/-- **The step lemma** under the condition. -/
theorem Tied.step (h : ∀ c, Tied site own s.worlds (s.callers c)) (hinv : Inv s)
    (hok : Apart site own s a) (hstep : step site s a = some s') (d : Nat) :
    Tied site own s'.worlds (s'.callers d) := by
  have hrefs := hok.backfill s' hstep
  cases step_move hstep with
  | @advance c o t pc' hact hadvance =>
    rw [State.goto_worlds] at hrefs ⊢
    rw [State.goto_callers, hadvance.callers]
    by_cases hd : d = c
    · rw [hd, update_self]
      refine (h c).advance hok (hrefs c) (fun machines volumes ho => ?_) hadvance
      refine hact.resolve_right fun hpage => ?_
      cases hpage.1.symm.trans ho
    · rw [update_of_ne hd]
      refine (h d).mono (fun i hi => ?_) (hrefs d)
      rw [hadvance.worlds i (hinv.other hd (hinv.locks d i hi))]
  | @lock c id pc' _ _ _ haims hobserves hcollects =>
    show Tied site own s.worlds (update s.callers c pc' d)
    by_cases hd : d = c
    · rw [hd, update_self]
      refine ⟨fun i x hx => absurd hx (haims i x), fun i b hb => absurd hb (hobserves i b), ?_⟩
      intro v ids' hids hv i hi hrefs
      obtain ⟨ids, hids, hsub⟩ := hcollects v ids' hids
      exact hsub ((h c).owners v ids hids hv i hi hrefs)
    · rw [update_of_ne hd]
      exact h d
  | report id row =>
    refine (h d).mono (fun i _ => ?_) (hrefs d)
    show (update s.worlds id _ i).tables.attempts = _
    by_cases hi : i = id
    · rw [hi, update_self]
      rfl
    · rw [update_of_ne hi]

theorem tied_of_reaches (h : (machine site).Reaches (Apart site own) s) :
    ∀ c, Tied site own s.worlds (s.callers c) := by
  induction h with
  | start hstart =>
    intro c
    rw [hstart.2.1 c]
    exact ⟨nofun, nofun, nofun⟩
  | step hreach hok hstep ih => exact Tied.step ih (inv_of_reaches hreach) hok hstep

end Steps

/-! ## §6 — the result -/

section Destroys

variable {site : Site} {s s' : State} {c : Nat} {pc : PC} {o : Outcome}

theorem destroys_checked {x : Target} (h : x ∈ pc.destroys o) : pc.checked = pc.locked := by
  unfold PC.destroys at h
  split at h
  all_goals first | rfl | cases h

theorem hits_of_page {x : Worker} {keys : List Text} {t : Target}
    (hkeys : keys.all (fun key => hasPrefix key (replicaPrefix x)) = true)
    (ht : t ∈ keys.map Target.object) : Hits x t := by
  obtain ⟨key, hkey, rfl⟩ := List.mem_map.mp ht
  exact List.all_eq_true.mp hkeys key hkey

/-- A caller destroys what it aims at, or the volume it collects. -/
theorem aims_of_destroys {x : Worker} {t : Target} (hstep : callStep site s c pc o = some s')
    (ht : t ∈ pc.destroys o) (hit : Hits x t) :
    (∃ id ∈ pc.locked, pc.aims id t) ∨
      ∃ volumeID locked, pc = .collect volumeID locked ∧ t = .volume volumeID := by
  unfold PC.destroys at ht
  split at ht
  -- a copy of the row, a list of an attempt, or the collected volume names it
  all_goals
    first
    | cases List.mem_singleton.mp ht
      first
      | exact .inl ⟨_, mem_singleton_self _, rfl, .inl ⟨_, rfl, hit.1, rfl⟩⟩
      | exact .inl ⟨_, mem_singleton_self _, rfl, _, rfl, hit.1, rfl⟩
      | exact .inl ⟨_, mem_singleton_self _, rfl, .inr (by simp [DestroyPC.listed])⟩
      | exact .inr ⟨_, _, rfl, rfl⟩
    | cases ht
    | skip
  · next id w b failed keys page =>
    by_cases hkeys : keys.all (fun key => hasPrefix key (replicaPrefix w)) = true
    · exact .inl ⟨id, mem_singleton_self _, rfl, .inl ⟨w, rfl, hits_of_page hkeys ht⟩⟩
    · simp only [callStep, destroyStep, if_neg hkeys] at hstep
      cases hstep
  · next id w pc keys page =>
    simp only [callStep] at hstep
    split at hstep
    · next hkeys => exact .inl ⟨id, mem_singleton_self _, rfl, .inl (hits_of_page hkeys ht)⟩
    · cases hstep

end Destroys

/-- **What a hold protects.** In every run of calls and reports on a fleet in which each machine,
volume and object is on record for one worker only: no step destroys the machine or the volume on
record for a held worker or an object under its replica prefix, and a held worker stays held until
the statement of its release. -/
theorem hold_protects (site : Site) (own : Target → Text) {s s' : State} {a : Action}
    (hreach : (machine site).Reaches (Apart site own) s) (hok : Apart site own s a)
    (hstep : (machine site).step s a = some s') :
    (∀ t ∈ destroys s a, ∀ id ∈ site.ids, ∀ x, s.row id = some x → x.evidenceHeld = true →
      ¬ Hits x t) ∧
    ∀ id x, s.row id = some x → x.evidenceHeld = true →
      (∃ x', s'.row id = some x' ∧ x'.evidenceHeld = true) ∨
        ∃ c o destroy, a = .step c o ∧ s.callers c = .releaseClear id destroy := by
  have h := inv_of_reaches hreach
  have htied := tied_of_reaches hreach
  constructor
  · intro t ht id hid x hx hheld hit
    cases a with
    | step c o =>
      have hact : callStep site s c (s.callers c) o = some s' := (filter_eq_some_iff.mp hstep).1
      -- the caller has this worker locked, and so has found it free
      have hlocked : id ∈ (s.callers c).locked := by
        rcases aims_of_destroys hact ht hit with ⟨i, hi, haims⟩ | ⟨v, locked, hpc, rfl⟩
        · rwa [← hok.owned id x hx t hit, (htied c).aims i t haims]
        · have hv : trimSpace v ≠ [] := fun hblank =>
            hit.1 (hit.2 ▸ hok.named id x hx (hit.2.symm ▸ hblank))
          have hrefs : references (s.worlds id) v = true := by
            show (s.row id).any _ = true
            simp [hx, hit.2]
          rw [hpc]
          exact (htied c).owners v locked (by rw [hpc]; rfl) hv id hid hrefs
      have hfree := h.free c id (destroys_checked ht ▸ hlocked)
      cases hfree.symm.trans ((held_some hx).trans hheld)
    | _ => cases ht
  · intro id x hx hheld
    refine (step_keeps_hold (step_move hstep) ((held_some hx).trans hheld)).imp_left fun hkept => ?_
    cases hrow : s'.row id with
    | none =>
      have hnone : held (s'.worlds id) = false := by
        show (s'.row id).any _ = false
        rw [hrow]
        rfl
      cases hkept.symm.trans hnone
    | some x' => exact ⟨x', rfl, (held_some hrow).symm.trans hkept⟩

/-- What a worker `b` with machine `k` has on record is its own, everything else belongs to `a`. -/
def twoOwners : Target → Text
  | .machine id => if id = text "k" then text "b" else text "a"
  | .volume _ => []
  | .object key => if hasPrefix key (text "soak/b/") then text "b" else text "a"

/-- A machine is destroyed while another worker is held. -/
theorem hold_protects_destroyed :
    let site : Site := ⟨⟨[], id, id⟩, [text "a", text "b"], true, fun _ => false⟩
    ∃ own, ∃ s s' : State, (machine site).Reaches (Apart site own) s ∧
      (machine site).step s (.step 1 (.call (.provider none))) = some s' ∧
      destroys s (.step 1 (.call (.provider none))) = [.machine (text "k")] ∧
      (∃ x, s.row (text "a") = some x ∧ x.evidenceHeld = true) ∧
      ∀ t ∈ destroys s (.step 1 (.call (.provider none))), ∀ id ∈ site.ids, ∀ x,
        s.row id = some x → x.evidenceHeld = true → ¬ Hits x t := by
  intro site
  let row := fun (name machineID : Text) (held : Bool) =>
    ({ name, status := .running, source := text "main", gitSHA := [], litestreamSHA := []
       profileName := [], region := [], flyMachineID := machineID, evidenceHeld := held } : Worker)
  let rows : Text → Option Worker := fun id =>
    if id = text "a" then some (row (text "a") (text "m") true)
    else if id = text "b" then some (row (text "b") (text "k") false)
    else none
  let start : State :=
    { worlds := fun id => { tables := ⟨rows id, [], none⟩ }
      locks := fun _ => none
      callers := fun _ => .idle }
  have hdisjoint : ∀ key, hasPrefix key (text "soak/a/") = true →
      hasPrefix key (text "soak/b/") = true → False := by
    intro key ha hb
    have ha : text "soak/a/" <+: key := isPrefixOf_iff_prefix.mp ha
    have hb : text "soak/b/" <+: key := isPrefixOf_iff_prefix.mp hb
    have hprefix := prefix_or_prefix_of_prefix ha hb
    exact absurd hprefix (by decide)
  have hapart : ∀ (s : State) (a : Action), s.row = rows → (∀ c, (s.callers c).collects = none) →
      (∀ c machines volumes, a ≠ .step c (.inventory machines volumes)) →
        Apart site twoOwners s a := by
    intro s a hrows hnone hinventory
    refine ⟨fun id x hx t hit => ?_, fun id x hx _ => ?_, fun c machines volumes ha =>
      absurd ha (hinventory c machines volumes), fun s' _ c v ids hids => ?_⟩
    · have hx : rows id = some x := hrows ▸ hx
      by_cases ha : id = text "a"
      · obtain rfl : row (text "a") (text "m") true = x := by
          rw [ha] at hx
          exact some.inj hx
        rw [ha]
        cases t with
        | machine i => rw [← hit.2]; rfl
        | volume i => exact absurd hit.2.symm hit.1
        | object key => exact if_neg fun hb => hdisjoint key hit hb
      · by_cases hb : id = text "b"
        · obtain rfl : row (text "b") (text "k") false = x := by
            rw [hb] at hx
            exact some.inj hx
          rw [hb]
          cases t with
          | machine i => rw [← hit.2]; rfl
          | volume i => exact absurd hit.2.symm hit.1
          | object key => exact if_pos hit
        · simp [rows, ha, hb] at hx
    · have hx : rows id = some x := hrows ▸ hx
      grind
    · rw [hnone c] at hids
      cases hids
  have hstart : (machine site).Reaches (Apart site twoOwners) start :=
    .start ⟨fun _ => rfl, fun _ => rfl, by decide⟩
  let waiting := start.setCaller 1 (.waiting (text "b") .destroy)
  let locked : State :=
    { waiting.setCaller 1 (.destroy (text "b") .read) with
      locks := update waiting.locks (text "b") (some 1) }
  let s := (locked.setWorld (text "b") (locked.worlds (text "b"))).setCaller 1
    (.destroy (text "b") (.machine (row (text "b") (text "k") false)))
  have hcallers : ∀ (pc : PC) (s : State), pc.collects = none →
      (∀ c, (s.callers c).collects = none) →
      ∀ c, ((s.setCaller 1 pc).callers c).collects = none := by
    intro pc s hpc hs c
    show (update s.callers 1 pc c).collects = none
    by_cases hc : c = 1
    · rw [hc, update_self, hpc]
    · rw [update_of_ne hc, hs c]
  have hwaiting : (machine site).Reaches (Apart site twoOwners) waiting :=
    .step (a := .call 1 (text "b") .destroy) hstart (hapart _ _ rfl (fun _ => rfl) nofun) rfl
  have hlocked : (machine site).Reaches (Apart site twoOwners) locked :=
    .step (a := .lock 1) hwaiting (hapart _ _ rfl (hcallers _ _ rfl fun _ => rfl) nofun) rfl
  have hreach : (machine site).Reaches (Apart site twoOwners) s :=
    .step (a := .step 1 (.call (.run (.sql .ok)))) hlocked
      (hapart _ _ rfl (hcallers _ _ rfl (hcallers _ _ rfl fun _ => rfl)) nofun) rfl
  have hok : Apart site twoOwners s (.step 1 (.call (.provider none))) := by
    refine hapart _ _ ?_ (hcallers _ _ rfl (hcallers _ _ rfl (hcallers _ _ rfl fun _ => rfl))) nofun
    funext i
    show (update start.worlds (text "b") (start.worlds (text "b")) i).tables.worker = rows i
    rw [update_eq_self]
  exact ⟨twoOwners, s, _, hreach, rfl, rfl, ⟨_, rfl, rfl⟩,
    (hold_protects site twoOwners hreach hok rfl).1⟩

/-- **Held evidence is destroyed.** The destroy of a worker without a volume clears the replica of a
held worker of the same name; and a volume that a resume stores in a row while it is collected is
destroyed though the worker was held before. -/
theorem held_evidence_destroyed :
    let site : Site := ⟨⟨[], id, id⟩, [text "a", text "b"], true, fun _ => false⟩
    (∃ s, (machine site).Reachable s ∧ (s.callers 0).locked = [] ∧
      ∃ x ∈ s.row (text "a"), x.evidenceHeld = true ∧
        ∃ a, ((machine site).step s a).isSome = true ∧ ∃ t ∈ destroys s a, Hits x t ∧
          t = .object (text "soak/n/v/0/1.ltx")) ∧
    ∃ s, (machine site).Reachable s ∧ (s.callers 0).locked = [] ∧
      ∃ x ∈ s.row (text "a"), x.evidenceHeld = true ∧
        ∃ a, ((machine site).step s a).isSome = true ∧ ∃ t ∈ destroys s a, Hits x t ∧
          t = .volume (text "v") := by
  intro site
  let row := fun (status : Gate.WorkerStatus) (machineID volumeID : Text) =>
    ({ name := text "n", status, source := text "main", gitSHA := text "g"
       litestreamSHA := text "l", profileName := text "p", region := text "ord"
       flyMachineID := machineID, flyVolumeID := volumeID, profile := some (text "f") } : Worker)
  let start := fun (a b : Worker) =>
    ({ worlds := fun id =>
        if id = text "a" then { tables := ⟨some a, [], none⟩ }
        else if id = text "b" then { tables := ⟨some b, [], none⟩ }
        else { tables := ⟨none, [], none⟩ }
       locks := fun _ => none
       callers := fun _ => .idle } : State)
  have hstart : ∀ a b, UniqueMachines site (start a b) → (machine site).Reachable (start a b) :=
    fun _ _ hunique => .start ⟨fun _ => rfl, fun _ => rfl, hunique⟩
  let req : WorkerRequest :=
    ⟨text "n", text "main", text "g", text "l", text "p", text "i", text "ord", 10, some (text "f")⟩
  let run := fun c o => Action.step c (.call (.run o))
  let provider := fun c e => Action.step c (.call (.provider e))
  let hold : List Action := [.call 0 (text "a") .hold, .lock 0, run 0 (.sql .ok), run 0 (.sql .ok),
    run 0 (.sql .ok)]
  constructor
  · let a : Action := .step 1 (.page [text "soak/n/v/0/1.ltx"] .last)
    have hrun : ∃ s, (machine site).Reachable s ∧ ((s.callers 0).locked = [] ∧
        ∃ x ∈ s.row (text "a"), x.evidenceHeld = true ∧
          (((machine site).step s a).isSome = true ∧ ∃ t ∈ destroys s a, Hits x t ∧
            t = .object (text "soak/n/v/0/1.ltx"))) :=
      Machine.exists_reaches_of_run
        (hstart (row .running (text "m") (text "v")) (row .failed [] []) (by decide))
        (hold ++ [.call 1 (text "b") .destroy, .lock 1, run 1 (.sql .ok), run 1 (.sql .ok)])
        (by decide)
    obtain ⟨s, hreach, hidle, x, hx, hheld, hhit⟩ := hrun
    exact ⟨s, hreach, hidle, x, hx, hheld, a, hhit⟩
  · let a := provider 1 none
    have hrun : ∃ s, (machine site).Reachable s ∧ ((s.callers 0).locked = [] ∧
        ∃ x ∈ s.row (text "a"), x.evidenceHeld = true ∧
          (((machine site).step s a).isSome = true ∧ ∃ t ∈ destroys s a, Hits x t ∧
            t = .volume (text "v"))) :=
      Machine.exists_reaches_of_run
        (hstart (row .dormant (text "m") []) (row .running [] []) (by decide))
        ([.volume 1 (text "v") true, run 1 (.sql .ok), run 1 (.sql .ok),
          .call 0 (text "a") (.change (.resume req true)), .lock 0, run 0 (.sql .ok),
          .step 0 (.call (.mounts (.ok [text "v"]))), run 0 (.sql .ok),
          provider 0 (some (.api 500 false)), run 0 (.sql (.failed false)),
          provider 0 (some (.api 500 false))] ++ hold)
        (by decide)
    obtain ⟨s, hreach, hidle, x, hx, hheld, hhit⟩ := hrun
    exact ⟨s, hreach, hidle, x, hx, hheld, a, hhit⟩

end LitestreamSoak.Orchestrator.EvidenceHold
