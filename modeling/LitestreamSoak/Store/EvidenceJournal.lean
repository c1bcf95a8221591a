import LitestreamSoak.Lib.Machine
import LitestreamSoak.Store.EvidenceTables

/-!
# Store — the evidence journal and its maintenance

The journal `evidence_runtime` with the two profile tables beside it, and what changes them:

* `RecordRuntimeEvidence` — one transaction that inserts a report and normalises it.
* `CompactRuntimeEvidence` — reads the cursor, the record ids and the incident owners, each in a
  statement of its own, and then normalises the rows up to the largest id it saw, one transaction
  per batch. Reports are recorded between any two of these.
* `PruneArchivedEvidenceBefore` — lists the deployments whose evidence may go and deletes their
  rows in batches of sixteen, each batch asking again whether the deployment may be pruned.

The last two are called in turn by one maintenance loop (`Maintenance`), which an error, a
cancelled context or a crash takes back to the start (`stop`); a transaction that fails changes
nothing. A row also carries two values the schema has no column for: the report as it was posted,
and whether `normalizeRuntimeEvidence` has been over it.
-/

namespace LitestreamSoak.Store.Evidence

open Lib List

variable {Digest : Type}

/-! ## §1 — the database -/

/-- A row of `evidence_runtime`; the columns `source` and `deployment_id` are those of the
identity. `reported` and `normalized` are for the statements only. -/
structure RuntimeRow where
  id : Nat
  identity : Identity
  runtime : RuntimeJSON
  attributed : Bool
  receivedAt : Int
  reported : RuntimeJSON
  normalized : Bool
deriving DecidableEq

structure Deployment where
  id : Int
  source : Text
  startedAt : Int
deriving DecidableEq

structure RunArchive where
  deploymentID : Int
  workerID : Text
deriving DecidableEq

structure DB (c : Codec Digest) where
  runtime : Table RuntimeRow.id
  records : RecordTable c.sha256
  incidents : IncidentTable Digest
  lastRuntimeID : Nat
  deployments : List Deployment
  archives : List RunArchive

/-! ## §2 — `RecordRuntimeEvidence` -/

/-- `canNormalize`: an object with one of the two members. The decoder into a struct ignores the
case of a member name. -/
def canNormalize : RuntimeJSON → Bool
  | .object fields =>
    decide (∃ field ∈ fields.keys,
      equalFold field.name.toList (text "profile_incidents") = true ∨
        equalFold field.name.toList (text "profile_records") = true)
  | _ => false

variable [DecidableEq Digest] {c : Codec Digest}

/-- What `RecordRuntimeEvidence` does with a report under the id its row gets. -/
def normalizeReported (db : DB c) (runtimeID : Nat) (identity : Identity) (raw : RuntimeJSON)
    (attributed : Bool) : Work c × RuntimeJSON :=
  let w : Work c := ⟨db.incidents, db.records, none⟩
  if canNormalize raw then normalizeRuntimeEvidence runtimeID identity attributed raw w
  else (w, raw)

def recordRuntimeEvidence (db : DB c) (identity : Identity) (raw : RuntimeJSON)
    (attributed : Bool) (receivedAt : Int) : DB c :=
  let out := normalizeReported db (db.runtime.maxKey + 1) identity raw attributed
  { db with
    runtime := db.runtime.append
      (fun id => ⟨id, identity, out.2, attributed, receivedAt, raw, true⟩) fun _ => rfl
    records := out.1.records
    incidents := out.1.incidents }

/-! ## §3 — `CompactRuntimeEvidence` -/

/-- `UPDATE evidence_runtime SET runtime_json=? WHERE id=?`. -/
def updateRuntime (t : Table RuntimeRow.id) (id : Nat) (compact : RuntimeJSON) :
    Table RuntimeRow.id :=
  t.update (fun row => if row.id = id then { row with runtime := compact, normalized := true }
    else row) fun row => by split <;> rfl

/-- The rows of one batch: `id>? AND id<=? ORDER BY id LIMIT ?`. -/
def compactionBatch (db : DB c) (maxID batchSize : Nat) : List RuntimeRow :=
  (db.runtime.rows.filter fun row => db.lastRuntimeID < row.id ∧ row.id ≤ maxID).take batchSize

def normalizeBatch : List RuntimeRow → Table RuntimeRow.id → Work c →
    Table RuntimeRow.id × Work c
  | [], t, w => (t, w)
  | item :: batch, t, w =>
    let out := normalizeRuntimeEvidence item.id item.identity item.attributed item.runtime w
    normalizeBatch batch (updateRuntime t item.id out.2) out.1

/-- The whole transaction: the rows, then the uses they add, then the cursor. The maps live on
for the next batch. -/
def compactBatch (db : DB c) (caches : Caches Digest) (batch : List RuntimeRow) :
    DB c × Caches Digest :=
  let fresh := { caches with recordUses := fun _ => 0 }
  let out := normalizeBatch batch db.runtime ⟨db.incidents, db.records, some fresh⟩
  let caches := out.2.caches.getD fresh
  ({ db with
     runtime := out.1
     records := out.2.records.addUses fun id => caches.recordUses id
     incidents := out.2.incidents
     lastRuntimeID := (batch.getLast?.map RuntimeRow.id).getD db.lastRuntimeID },
   caches)

/-! ## §4 — `PruneArchivedEvidenceBefore` -/

/-- `ORDER BY recent.started_at DESC,recent.id DESC LIMIT 2` among the deployments of a source. -/
def newestTwo (deployments : List Deployment) (source : Text) : List Deployment :=
  ((deployments.filter fun d => d.source = source).insertionSort fun a b =>
    b.startedAt < a.startedAt ∨ b.startedAt = a.startedAt ∧ b.id ≤ a.id).take 2

/-- `archivedEvidenceDeployment`, the condition on one deployment. -/
def archivedEvidenceDeployment (db : DB c) (cutoff : Int) (d : Deployment) : Prop :=
  (∀ recent ∈ newestTwo db.deployments d.source, recent.id ≠ d.id) ∧
  (∃ archive ∈ db.archives, archive.deploymentID = d.id ∧ archive.workerID = []) ∧
  ∀ newer ∈ db.runtime.rows, newer.identity.deploymentID = d.id → newer.receivedAt < cutoff

instance (db : DB c) (cutoff : Int) (d : Deployment) :
    Decidable (archivedEvidenceDeployment db cutoff d) :=
  inferInstanceAs (Decidable (_ ∧ _ ∧ _))

/-- `archivedEvidenceDeployments`: the deployments a prune goes through. -/
def archivedEvidenceDeployments (db : DB c) (cutoff : Int) : List Deployment :=
  (db.deployments.filter fun d => archivedEvidenceDeployment db cutoff d).insertionSort
    fun a b => a.id ≤ b.id

/-- `archivedEvidenceDeploymentStillEligible`, asked by every batch. -/
def archivedEvidenceDeploymentStillEligible (db : DB c) (cutoff : Int) (id : Int) : Prop :=
  ∃ d ∈ db.deployments, d.id = id ∧ archivedEvidenceDeployment db cutoff d

instance (db : DB c) (cutoff id : Int) :
    Decidable (archivedEvidenceDeploymentStillEligible db cutoff id) :=
  inferInstanceAs (Decidable (∃ d ∈ db.deployments, _ ∧ _))

def evidencePruneBatchSize : Nat := 16

def pruneBatch (db : DB c) (cutoff : Int) (deployment : Deployment) : List RuntimeRow :=
  (db.runtime.rows.filter fun row =>
    (row.identity.source = deployment.source ∨ row.identity.source = []) ∧
      row.identity.deploymentID = deployment.id ∧ row.receivedAt < cutoff ∧
      archivedEvidenceDeploymentStillEligible db cutoff deployment.id).take evidencePruneBatchSize

/-- The references a prune reads from a row; `none` is a decoding error. -/
def RuntimeJSON.decodeRefs : RuntimeJSON → Option (List Int)
  | .null => some []
  | .text _ => none
  | .object fields =>
    match fields.lookup profileRecordRefsKey with
    | none => some []
    | some encoded => encoded.decodeIDs

/-- The transaction's loop over the batch: the uses of each reference, the incidents the row owns,
the row. -/
def pruneRows : List RuntimeRow → DB c → Option (DB c)
  | [], db => some db
  | item :: batch, db =>
    item.runtime.decodeRefs.bind fun refs =>
      pruneRows batch { db with
        records := db.records.addUses fun id => -(refs.count (id : Int) : Int)
        incidents := db.incidents.deleteExcept fun runtimeID => runtimeID ≠ item.id
        runtime := db.runtime.filter fun row => row.id ≠ item.id }

/-- The whole transaction, with the records no row refers to any longer deleted at its end. -/
def pruneBatchRows (db : DB c) (batch : List RuntimeRow) : Option (DB c) :=
  (pruneRows batch db).map fun db => { db with records := db.records.deleteUnused }

/-! ## §5 — the machine -/

inductive Maintenance (Digest : Type) where
  | idle
  | started (maxID batchSize : Nat)
  | recordsLoaded (maxID batchSize : Nat) (recordIDs : Digest → Option Nat)
  | compacting (maxID batchSize : Nat) (caches : Caches Digest)
  | batchRead (maxID batchSize : Nat) (caches : Caches Digest) (batch : List RuntimeRow)
  | pruning (cutoff : Int) (deployments : List Deployment)

structure State (c : Codec Digest) where
  db : DB c
  maintenance : Maintenance Digest

inductive Action where
  | record (identity : Identity) (raw : RuntimeJSON) (attributed : Bool) (receivedAt : Int)
  | beginCompact (batchSize : Nat)
  | loadRecords
  | loadIncidents
  | readBatch
  | commitBatch
  | beginPrune (cutoff : Int)
  | commitPrune
  | stop
  | setDeployments (deployments : List Deployment) (archives : List RunArchive)

def compactStep (s : State c) : Action → Option (State c)
  | .beginCompact batchSize =>
    match s.maintenance with
    | .idle =>
      if batchSize < 1 ∨ s.db.runtime.maxKey ≤ s.db.lastRuntimeID then some s
      else some { s with maintenance := .started s.db.runtime.maxKey batchSize }
    | _ => none
  | .loadRecords =>
    match s.maintenance with
    | .started maxID batchSize =>
      some ⟨s.db, .recordsLoaded maxID batchSize fun digest =>
        (s.db.records.rows.find? fun row => row.digest = digest).map RecordRow.id⟩
    | _ => none
  | .loadIncidents =>
    match s.maintenance with
    | .recordsLoaded maxID batchSize recordIDs =>
      some ⟨s.db, .compacting maxID batchSize ⟨s.db.incidents.owner, recordIDs, fun _ => 0⟩⟩
    | _ => none
  | .readBatch =>
    match s.maintenance with
    | .compacting maxID batchSize caches =>
      if maxID ≤ s.db.lastRuntimeID ∨ compactionBatch s.db maxID batchSize = [] then
        some { s with maintenance := .idle }
      else
        some ⟨s.db, .batchRead maxID batchSize caches (compactionBatch s.db maxID batchSize)⟩
    | _ => none
  | .commitBatch =>
    match s.maintenance with
    | .batchRead maxID batchSize caches batch =>
      let out := compactBatch s.db caches batch
      some ⟨out.1, if batch.length < batchSize then .idle else .compacting maxID batchSize out.2⟩
    | _ => none
  | _ => none

def pruneStep (s : State c) : Action → Option (State c)
  | .beginPrune cutoff =>
    match s.maintenance with
    | .idle =>
      some { s with maintenance := .pruning cutoff (archivedEvidenceDeployments s.db cutoff) }
    | _ => none
  | .commitPrune =>
    match s.maintenance with
    | .pruning _ [] => some { s with maintenance := .idle }
    | .pruning cutoff (deployment :: rest) =>
      if pruneBatch s.db cutoff deployment = [] then
        some { s with maintenance := .pruning cutoff rest }
      else
        match pruneBatchRows s.db (pruneBatch s.db cutoff deployment) with
        -- a row that does not decode: the transaction is rolled back and the prune ends
        | none => some { s with maintenance := .idle }
        | some db => some { s with db := db }
    | _ => none
  | _ => none

def step (s : State c) : Action → Option (State c)
  | .record identity raw attributed receivedAt =>
    some { s with db := recordRuntimeEvidence s.db identity raw attributed receivedAt }
  | .stop => some { s with maintenance := .idle }
  | .setDeployments deployments archives =>
    some { s with db := { s.db with deployments := deployments, archives := archives } }
  | .beginPrune cutoff => pruneStep s (.beginPrune cutoff)
  | .commitPrune => pruneStep s .commitPrune
  | a => compactStep s a

/-- A journal written before reports were normalised: rows hold their reports, no report of that
time uses the reserved member, and the profile tables are empty. -/
structure Start (s : State c) : Prop where
  idle : s.maintenance = .idle
  records : s.db.records = RecordTable.empty c.sha256
  incidents : s.db.incidents = IncidentTable.empty
  raw : ∀ row ∈ s.db.runtime, row.normalized = false ∧ row.runtime = row.reported
  refs : ∀ row ∈ s.db.runtime, ∀ fields, row.runtime = .object fields →
    fields.lookup profileRecordRefsKey = none

def machine (c : Codec Digest) : Machine (State c) Action := ⟨Start, step⟩

/-! ## §6 — what a step does -/

variable {s s' : State c} {a : Action} {t : Table RuntimeRow.id} {batch : List RuntimeRow}

def Maintenance.Plain : Maintenance Digest → Prop
  | .idle | .started _ _ | .pruning _ _ => True
  | _ => False

inductive Effect (s : State c) : Action → State c → Prop where
  | record (identity : Identity) (raw : RuntimeJSON) (attributed : Bool) (receivedAt : Int) :
    Effect s (.record identity raw attributed receivedAt)
      { s with db := recordRuntimeEvidence s.db identity raw attributed receivedAt }
  | setDeployments (deployments : List Deployment) (archives : List RunArchive) :
    Effect s (.setDeployments deployments archives)
      { s with db := { s.db with deployments := deployments, archives := archives } }
  | stay (a : Action) : Effect s a s
  | goto (a : Action) {m : Maintenance Digest} (hm : m.Plain) :
    Effect s a { s with maintenance := m }
  | loadRecords (maxID batchSize : Nat) :
    Effect s .loadRecords ⟨s.db, .recordsLoaded maxID batchSize fun digest =>
      (s.db.records.rows.find? fun row => row.digest = digest).map RecordRow.id⟩
  | loadIncidents {maxID batchSize : Nat} {recordIDs : Digest → Option Nat}
      (hm : s.maintenance = .recordsLoaded maxID batchSize recordIDs) :
    Effect s .loadIncidents
      ⟨s.db, .compacting maxID batchSize ⟨s.db.incidents.owner, recordIDs, fun _ => 0⟩⟩
  | readBatch {maxID batchSize : Nat} {caches : Caches Digest}
      (hm : s.maintenance = .compacting maxID batchSize caches) :
    Effect s .readBatch
      ⟨s.db, .batchRead maxID batchSize caches (compactionBatch s.db maxID batchSize)⟩
  | commitBatch {maxID batchSize : Nat} {caches : Caches Digest} {batch : List RuntimeRow}
      (hm : s.maintenance = .batchRead maxID batchSize caches batch)
      {m : Maintenance Digest}
      (hnext : m = .idle ∨ m = .compacting maxID batchSize (compactBatch s.db caches batch).2) :
    Effect s .commitBatch ⟨(compactBatch s.db caches batch).1, m⟩
  | commitPrune {cutoff : Int} {deployment : Deployment} {rest : List Deployment}
      (hm : s.maintenance = .pruning cutoff (deployment :: rest)) {db : DB c}
      (hprune : pruneBatchRows s.db (pruneBatch s.db cutoff deployment) = some db) :
    Effect s .commitPrune { s with db := db }

theorem compactStep_effect (h : compactStep s a = some s') : Effect s a s' := by
  cases a with
  | beginCompact batchSize =>
    simp only [compactStep] at h
    split at h
    · split at h
      · cases h; exact .stay _
      · cases h; exact .goto _ trivial
    · cases h
  | loadRecords =>
    simp only [compactStep] at h
    split at h
    · cases h; exact .loadRecords _ _
    · cases h
  | loadIncidents =>
    simp only [compactStep] at h
    split at h
    · next hm => cases h; exact .loadIncidents hm
    · cases h
  | readBatch =>
    simp only [compactStep] at h
    split at h
    · next hm =>
      split at h
      · cases h; exact .goto _ trivial
      · cases h; exact .readBatch hm
    · cases h
  | commitBatch =>
    simp only [compactStep] at h
    split at h
    · next hm =>
      cases h
      refine .commitBatch hm ?_
      split
      · exact .inl rfl
      · exact .inr rfl
    · cases h
  | _ => cases h

theorem pruneStep_effect (h : pruneStep s a = some s') : Effect s a s' := by
  cases a with
  | beginPrune cutoff =>
    simp only [pruneStep] at h
    split at h
    · cases h; exact .goto _ trivial
    · cases h
  | commitPrune =>
    simp only [pruneStep] at h
    split at h
    · cases h; exact .goto _ trivial
    · next hm =>
      split at h
      · cases h; exact .goto _ trivial
      · split at h
        · cases h; exact .goto _ trivial
        · next hprune => cases h; exact .commitPrune hm hprune
    · cases h
  | _ => cases h

/-- **Every step is one of these.** -/
theorem step_effect (h : step s a = some s') : Effect s a s' := by
  cases a with
  | record identity raw attributed receivedAt => cases h; exact .record ..
  | stop => cases h; exact .goto _ trivial
  | setDeployments deployments archives => cases h; exact .setDeployments ..
  | beginPrune cutoff => exact pruneStep_effect h
  | commitPrune => exact pruneStep_effect h
  | _ => exact compactStep_effect h

structure BatchOf (t : Table RuntimeRow.id) (batch : List RuntimeRow) : Prop where
  stored : ∀ item ∈ batch, item ∈ t
  ascending : batch.Pairwise fun a b => a.id < b.id

theorem BatchOf.of_sublist
    (h : batch.Sublist t.rows) : BatchOf t batch :=
  ⟨fun _ hitem => h.subset hitem, t.ascending.sublist h⟩

omit [DecidableEq Digest] in
theorem batchOf_compactionBatch (db : DB c) (maxID batchSize : Nat) :
    BatchOf db.runtime (compactionBatch db maxID batchSize) :=
  .of_sublist ((take_sublist _ _).trans filter_sublist)

omit [DecidableEq Digest] in
theorem batchOf_pruneBatch (db : DB c) (cutoff : Int) (deployment : Deployment) :
    BatchOf db.runtime (pruneBatch db cutoff deployment) :=
  .of_sublist ((take_sublist _ _).trans filter_sublist)

theorem BatchOf.updateRuntime {item : RuntimeRow} (h : BatchOf t (item :: batch))
    (compact : RuntimeJSON) : BatchOf (Evidence.updateRuntime t item.id compact) batch := by
  have hasc := pairwise_cons.mp h.ascending
  refine ⟨fun other hother => ?_, hasc.2⟩
  grind [Table.mem_update, BatchOf.stored, updateRuntime]

theorem BatchOf.delete {item : RuntimeRow}
    (h : BatchOf t (item :: batch)) : BatchOf (t.filter fun row => row.id ≠ item.id) batch := by
  have hasc := pairwise_cons.mp h.ascending
  refine ⟨fun other hother => ?_, hasc.2⟩
  grind [Table.mem_filter, BatchOf.stored]

theorem BatchOf.record {db : DB c} (h : BatchOf db.runtime batch)
    (identity : Identity) (raw : RuntimeJSON) (attributed : Bool) (receivedAt : Int) :
    BatchOf (recordRuntimeEvidence db identity raw attributed receivedAt).runtime batch :=
  ⟨fun item hitem => (Table.mem_append _ _ _).mpr (.inl (h.stored item hitem)), h.ascending⟩

end LitestreamSoak.Store.Evidence
