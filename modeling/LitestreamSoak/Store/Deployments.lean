import LitestreamSoak.Lib.Procedure
import LitestreamSoak.Lib.Table
import LitestreamSoak.Lib.Text

/-!
# Store.Deployments — the deployments table and its pending rollouts

`deployments.go`: a ready record (`UpsertReadyDeploymentContext`), the list of rollouts that are
still to be done (`ListRolloutPendingDeployments`), the mark that one is done
(`ClearRolloutPending`) and the latest ready deployment of a source.

A record either inserts a row or takes over the newest row with the same source and the same three
commits. It then sets that row's flag **and** raises its generation, so that whoever was rolling out
the row before holds an older generation than the row.
-/

namespace LitestreamSoak.Store.Deployments

open Lib

/-! ## §1 — the table -/

variable {row : Deployment} {t : DeploymentTable}

inductive DeploymentStatus where
  | building
  | ready
  | failed
deriving DecidableEq

structure Deployment where
  id : Nat
  gitSHA : Text
  litestreamSHA : Text
  workloadSHA : Text
  imageRef : Text
  source : Text
  repository : Text
  status : DeploymentStatus
  startedAt : Int
  rolloutPending : Bool
  pendingGeneration : Nat
deriving DecidableEq

abbrev DeploymentTable := Table Deployment.id

-- the order of the times that computes, whatever other one is in scope
local instance (priority := 2000) timeOrder : Preorder Int := Int.instLinearOrder.toPreorder

/-- `ORDER BY started_at DESC, id DESC LIMIT 1`. -/
def newest (rows : List Deployment) : Option Deployment :=
  rows.argmax fun row => toLex (row.startedAt, row.id)

/-- `GetLatestReadyDeployment`; without a source, of all sources. -/
def getLatestReadyDeployment (t : DeploymentTable) (source : Text) : Option Deployment :=
  newest (t.rows.filter fun row => row.status = .ready && (source = [] || row.source = source))

theorem mem_of_newest {rows : List Deployment} (h : newest rows = some row) :
    row ∈ rows := List.argmax_mem h

theorem getLatestReadyDeployment_spec {source : Text}
    (h : getLatestReadyDeployment t source = some row) :
    row ∈ t ∧ row.status = .ready ∧ (source = [] ∨ row.source = source) := by
  have hmem := List.mem_filter.mp (mem_of_newest h)
  have hpasses := hmem.2
  simp only [Bool.and_eq_true, decide_eq_true_eq, Bool.or_eq_true] at hpasses
  exact ⟨hmem.1, hpasses⟩

def listRolloutPendingDeployments (t : DeploymentTable) : List Deployment :=
  t.rows.filter fun row => row.status = .ready && row.rolloutPending

theorem mem_listRolloutPendingDeployments :
    row ∈ listRolloutPendingDeployments t ↔
      row ∈ t ∧ row.status = .ready ∧ row.rolloutPending = true := by
  grind [listRolloutPendingDeployments, Table.mem_rows]

def clearRolloutPending (t : DeploymentTable) (id generation : Nat) : DeploymentTable :=
  t.update
    (fun row =>
      if row.id = id ∧ row.pendingGeneration = generation then { row with rolloutPending := false }
      else row)
    fun row => by split <;> rfl

/-! ## §2 — ready records -/

variable {dep : ReadyDeployment}

inductive UpsertError where
  /-- The rows of a source name two repositories. -/
  | conflictingRepositories (source repository candidate : Text)
  | boundToRepository (source bound repository : Text)
  | existingWithoutBinding (source : Text)
deriving DecidableEq

/-- `TRIM` of SQL, which takes spaces only. -/
def sqlTrim (s : Text) : Text := (s.dropWhile (· = ' ')).rdropWhile (· = ' ')

/-- The loop of `deploymentSourceRepository` over the distinct repositories of a source. -/
def bindRepository (source : Text) : Text → List Text → Except UpsertError Text
  | repository, [] => .ok repository
  | repository, candidate :: rest =>
    let candidate := trimSpace candidate
    if repository ≠ [] ∧ equalFold repository candidate = false then
      .error (.conflictingRepositories source repository candidate)
    else bindRepository source candidate rest

def deploymentSourceRepository (t : DeploymentTable) (source : Text) : Except UpsertError Text :=
  let rows := t.rows.filter fun row => row.source = source && sqlTrim row.repository != []
  bindRepository source [] (rows.map Deployment.repository).dedup

def resolveRepository (t : DeploymentTable) (source repository : Text) :
    Except UpsertError Text := do
  let repository := trimSpace repository
  let bound ← deploymentSourceRepository t source
  if bound ≠ [] then
    if repository ≠ [] ∧ equalFold repository bound = false then
      .error (.boundToRepository source bound repository)
    else .ok bound
  else if repository ≠ [] ∧ t.rows.any fun row => row.source = source then
    .error (.existingWithoutBinding source)
  else .ok repository

structure ReadyDeployment where
  gitSHA : Text
  litestreamSHA : Text
  workloadSHA : Text
  imageRef : Text
  source : Text
  repository : Text
deriving DecidableEq

def existingDeployment (t : DeploymentTable) (dep : ReadyDeployment) : Option Deployment :=
  newest (t.rows.filter fun row => row.source = dep.source && row.gitSHA = dep.gitSHA &&
    row.litestreamSHA = dep.litestreamSHA && row.workloadSHA = dep.workloadSHA)

theorem existingDeployment_spec
    (h : existingDeployment t dep = some row) :
    row ∈ t ∧ row.source = dep.source ∧ row.gitSHA = dep.gitSHA ∧
      row.litestreamSHA = dep.litestreamSHA := by
  have hmem := List.mem_filter.mp (mem_of_newest h)
  have hpasses := hmem.2
  simp only [Bool.and_eq_true, decide_eq_true_eq] at hpasses
  exact ⟨hmem.1, hpasses.1.1.1, hpasses.1.1.2, hpasses.1.2⟩

def recordExisting (t : DeploymentTable) (id : Nat) (imageRef repository : Text) :
    DeploymentTable :=
  t.updateAt id
    (fun row =>
      { row with
        status := .ready, imageRef := imageRef, repository := repository
        rolloutPending := true, pendingGeneration := row.pendingGeneration + 1 })
    fun _ => rfl

def recordNew (t : DeploymentTable) (now : Int) (dep : ReadyDeployment) (repository : Text) :
    DeploymentTable :=
  t.append
    (fun id =>
      { id := id, gitSHA := dep.gitSHA, litestreamSHA := dep.litestreamSHA
        workloadSHA := dep.workloadSHA, imageRef := dep.imageRef, source := dep.source
        repository := repository, status := .ready, startedAt := now
        rolloutPending := true, pendingGeneration := 1 })
    fun _ => rfl

/-- `UpsertReadyDeploymentContext`: the new table, and the row and generation of the record. -/
def upsertReadyDeployment (t : DeploymentTable) (now : Int) (dep : ReadyDeployment) :
    Except UpsertError (DeploymentTable × Nat × Nat) := do
  let repository ← resolveRepository t dep.source dep.repository
  match existingDeployment t dep with
  | some row =>
    .ok (recordExisting t row.id dep.imageRef repository, row.id, row.pendingGeneration + 1)
  | none => .ok (recordNew t now dep repository, t.maxKey + 1, 1)

/-! ## §3 — what the statements do to a row -/

structure Recorded (t t' : DeploymentTable) (dep : ReadyDeployment) (new : Deployment) : Prop where
  mem : new ∈ t'
  others : ∀ row, row.id ≠ new.id → (row ∈ t' ↔ row ∈ t)
  raised : ∀ row ∈ t, row.id = new.id → new.pendingGeneration = row.pendingGeneration + 1
  pending : new.rolloutPending = true
  ready : new.status = .ready
  source : new.source = dep.source
  gitSHA : new.gitSHA = dep.gitSHA
  litestreamSHA : new.litestreamSHA = dep.litestreamSHA
  imageRef : new.imageRef = dep.imageRef

theorem recorded_existing
    (h : existingDeployment t dep = some row) (repository : Text) :
    Recorded t (recordExisting t row.id dep.imageRef repository) dep
      { row with
        status := .ready, imageRef := dep.imageRef, repository := repository
        rolloutPending := true, pendingGeneration := row.pendingGeneration + 1 } := by
  obtain ⟨hmem, hsource, hgit, hlitestream⟩ := existingDeployment_spec h
  refine ⟨?_, fun other hne => ?_, fun other hother hid => ?_, rfl, rfl, hsource, hgit,
    hlitestream, rfl⟩
  · rw [recordExisting, Table.mem_updateAt]
    exact .inr ⟨row, hmem, rfl, rfl⟩
  · grind [recordExisting, Table.mem_updateAt]
  · rw [t.eq_of_key_eq hother hmem hid]

theorem recorded_new (t : DeploymentTable) (now : Int) (dep : ReadyDeployment) (repository : Text) :
    ∃ new, Recorded t (recordNew t now dep repository) dep new ∧ new.id = t.maxKey + 1 ∧
      new.pendingGeneration = 1 := by
  refine ⟨_, ⟨(Table.mem_append ..).mpr (.inr rfl), fun row hne => ?_, fun row hrow hid => ?_,
    rfl, rfl, rfl, rfl, rfl, rfl⟩, rfl, rfl⟩
  · grind [recordNew, Table.mem_append]
  · have hle := t.key_le_maxKey hrow
    have hid : row.id = t.maxKey + 1 := hid
    omega

/-- **A record writes one row.** It is pending, at the generation that the record returns. -/
theorem upsertReadyDeployment_spec {t' : DeploymentTable} {now : Int}
    {id generation : Nat} (h : upsertReadyDeployment t now dep = .ok (t', id, generation)) :
    ∃ new, Recorded t t' dep new ∧ new.id = id ∧ new.pendingGeneration = generation ∧
      generation ≠ 0 := by
  obtain ⟨repository, -, h⟩ := exists_of_bind_eq_ok h
  split at h
  · grind [recorded_existing]
  · cases h
    obtain ⟨new, hnew, hid, hgeneration⟩ := recorded_new t now dep repository
    exact ⟨new, hnew, hid, hgeneration, Nat.one_ne_zero⟩

theorem mem_clearRolloutPending {id generation : Nat} :
    row ∈ clearRolloutPending t id generation ↔
      (row ∈ t ∧ ¬ (row.id = id ∧ row.pendingGeneration = generation)) ∨
      ∃ old ∈ t, old.id = id ∧ old.pendingGeneration = generation ∧
        row = { old with rolloutPending := false } := by
  rw [clearRolloutPending, Table.mem_update]
  constructor
  · grind
  · grind

end LitestreamSoak.Store.Deployments
