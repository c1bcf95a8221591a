import LitestreamSoak.Lib.Machine

/-!
# Worker.Outbox — the evidence outbox

`persistRunEvidence` and `flushRunEvidence` of `churn_reporting.go` as one machine. A persist holds
`persistMu` from its first operation to its return, so one is under way at a time; a flush holds
`uploadMu` and takes `persistMu` only to remove what it has delivered. Every file operation answers
on its own and may fail; the process may be killed and the machine may lose power between any two.

The state of the directory is what the process sees (`dir`) and what it has been since the last
successful directory sync (`older`): a power loss leaves one of these, with a temporary file
possibly shorter. The machine also keeps which event ids a persist has acknowledged and which were
delivered.

An event id stands for the file name, the hash of worker, run and workload event id.
-/

namespace LitestreamSoak.Worker.Outbox

open Lib

variable {κ : Type} [DecidableEq κ]

/-! ## §1 — the directory -/

/-- The two file names of an event: `<hash>.json.tmp` and `<hash>.json`. -/
inductive Kind where
  | tmp
  | json
deriving DecidableEq

structure Entry (κ : Type) where
  id : κ
  kind : Kind
  size : Nat
deriving DecidableEq

abbrev Dir (κ : Type) := List (Entry κ)

def Dir.has (d : Dir κ) (id : κ) (kind : Kind) : Bool := d.any fun e => e.id = id ∧ e.kind = kind

def Dir.without (d : Dir κ) (id : κ) (kind : Kind) : Dir κ :=
  d.filter fun e => ¬ (e.id = id ∧ e.kind = kind)

def Dir.used (d : Dir κ) : Nat := (d.map Entry.size).sum

/-- `os.Rename` of the temporary file, which replaces an earlier record of the event. -/
def Dir.rename (d : Dir κ) (id : κ) : Option (Dir κ) :=
  (d.find? fun e => e.id = id ∧ e.kind = .tmp).map fun e =>
    (d.without id .tmp).without id .json ++ [⟨id, .json, e.size⟩]

/-- What a power loss may leave of a directory: the same names, temporary files maybe shorter. -/
def Remnant (d p : Dir κ) : Prop :=
  d.Forall₂ (fun e e' => e.id = e'.id ∧ e.kind = e'.kind ∧
    (e.size = e'.size ∨ e.kind = .tmp ∧ e.size ≤ e'.size)) p

/-! ## §2 — the state -/

def evidenceOutboxMaxEvents : Nat := 1024

def evidenceOutboxMaxBytes : Nat := 16777216

inductive PersistPC (κ : Type) where
  | idle
  /-- `os.MkdirAll` and `json.Marshal`; the body has `n` bytes. -/
  | prepare (id : κ) (n : Nat)
  /-- `os.ReadDir`, the sizes, and the capacity check. -/
  | readDir (id : κ) (n : Nat)
  | create (id : κ) (n : Nat)
  | write (id : κ) (n : Nat)
  /-- The write, the sync and the close are all made, whatever the earlier ones answered. -/
  | sync (id : κ) (failed : Bool)
  | close (id : κ) (failed : Bool)
  | rename (id : κ)
  | syncDir (id : κ)
deriving DecidableEq

def PersistPC.file : PersistPC κ → Option κ
  | .idle | .prepare _ _ | .readDir _ _ | .create _ _ => none
  | .write id _ | .sync id _ | .close id _ | .rename id | .syncDir id => some id

inductive FlushPC (κ : Type) where
  | idle
  | list
  | next (todo : List κ)
  | post (id : κ) (todo : List κ)
  | lock (id : κ) (todo : List κ)
  | remove (id : κ) (todo : List κ)
  | syncDir (id : κ) (todo : List κ) (failed : Bool)
deriving DecidableEq

def FlushPC.locked : FlushPC κ → Bool
  | .remove _ _ | .syncDir _ _ _ => true
  | _ => false

structure State (κ : Type) where
  dir : Dir κ := []
  /-- What the directory has been since it was last synced. -/
  older : List (Dir κ) := []
  persist : PersistPC κ := .idle
  flush : FlushPC κ := .idle
  acknowledged : List κ := []
  delivered : List κ := []
deriving DecidableEq

def State.change (s : State κ) (d : Dir κ) : State κ :=
  { s with dir := d, older := s.dir :: s.older }

def State.durable (s : State κ) : State κ := { s with older := [] }

/-! ## §3 — steps -/

/-- What an operation answers. `partly` is an error after part of the work: bytes written, or a
directory that was synced and then could not be closed. -/
inductive Answer where
  | ok
  | partly (k : Nat)
  | failed
deriving DecidableEq

def Answer.written : Answer → Nat → Nat
  | .ok, n => n
  | .partly k, n => min k n
  | .failed, _ => 0

def persistStep (s : State κ) (r : Answer) : Option (State κ) :=
  match s.persist with
  | .idle => none
  | .prepare id n =>
    if r = .ok then some { s with persist := .readDir id n } else some { s with persist := .idle }
  | .readDir id n =>
    if r ≠ .ok then some { s with persist := .idle }
    else if s.dir.length ≥ evidenceOutboxMaxEvents ∨ s.dir.used + n > evidenceOutboxMaxBytes then
      some { s with persist := .idle }
    else some { s with persist := .create id n }
  | .create id n =>
    -- `O_EXCL`: an existing file is an error
    if r ≠ .ok ∨ s.dir.has id .tmp then some { s with persist := .idle }
    else some { s.change (s.dir ++ [⟨id, .tmp, 0⟩]) with persist := .write id n }
  | .write id n =>
    some { s.change (s.dir.without id .tmp ++ [⟨id, .tmp, r.written n⟩]) with
      persist := .sync id (r ≠ .ok) }
  | .sync id failed => some { s with persist := .close id (failed || r ≠ .ok) }
  | .close id failed =>
    if failed || r ≠ .ok then some { s with persist := .idle }
    else some { s with persist := .rename id }
  | .rename id =>
    if r ≠ .ok then some { s with persist := .idle }
    else
      match s.dir.rename id with
      | none => some { s with persist := .idle }
      | some d => some { s.change d with persist := .syncDir id }
  | .syncDir id =>
    match r with
    | .ok => some { s.durable with persist := .idle, acknowledged := id :: s.acknowledged }
    | .partly _ => some { s.durable with persist := .idle }
    | .failed => some { s with persist := .idle }

def flushStep (s : State κ) (r : Answer) : Option (State κ) :=
  match s.flush with
  | .idle => none
  | .list =>
    if r ≠ .ok then some { s with flush := .idle }
    else some { s with flush := .next ((s.dir.filter fun e => e.kind = .json).map Entry.id) }
  | .next [] => some { s with flush := .idle }
  | .next (id :: todo) =>
    if r ≠ .ok ∨ !s.dir.has id .json then some { s with flush := .idle }
    else some { s with flush := .post id todo }
  | .post id todo =>
    if r ≠ .ok then some { s with flush := .idle }
    else some { s with flush := .lock id todo, delivered := id :: s.delivered }
  | .lock id todo =>
    if s.persist = .idle then some { s with flush := .remove id todo } else none
  | .remove id todo =>
    if r ≠ .ok ∨ !s.dir.has id .json then some { s with flush := .syncDir id todo true }
    else some { s.change (s.dir.without id .json) with flush := .syncDir id todo false }
  | .syncDir _ todo failed =>
    let s' := if r = .failed then s else s.durable
    if failed || r ≠ .ok then some { s' with flush := .idle }
    else some { s' with flush := .next todo }

inductive Action (κ : Type) where
  /-- A persist of an event with a body of `n` bytes gets `persistMu`. -/
  | persist (id : κ) (n : Nat)
  | persistStep (r : Answer)
  | flush
  | flushStep (r : Answer)
  | kill
  /-- Power is lost and the disk holds `d`. -/
  | powerLoss (d : Dir κ)

instance (d p : Dir κ) : Decidable (Remnant d p) := inferInstanceAs (Decidable (List.Forall₂ _ _ _))

def step (s : State κ) : Action κ → Option (State κ)
  | .persist id n =>
    if s.persist = .idle ∧ s.flush.locked = false then some { s with persist := .prepare id n }
    else none
  | .persistStep r => persistStep s r
  | .flush => if s.flush = .idle then some { s with flush := .list } else none
  | .flushStep r => flushStep s r
  | .kill => some { s with persist := .idle, flush := .idle }
  | .powerLoss d =>
    if ∃ p ∈ s.dir :: s.older, Remnant d p then
      some { s with dir := d, older := [], persist := .idle, flush := .idle }
    else none

def machine (κ : Type) [DecidableEq κ] : Machine (State κ) (Action κ) where
  start s := s = {}
  step := step

end LitestreamSoak.Worker.Outbox
