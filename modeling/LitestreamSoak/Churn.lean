import LitestreamSoak.Lib.Machine
import LitestreamSoak.Lib.Text

/-!
# Churn — a workload that checks itself

Workers apply the operations of one generator as transactions, in any order, and some of them fail.
`Validate` asks for a joint condition on the tables (receipts for the done jobs and no others, an
attempt for each job that was claimed) that no operation maintains for itself.
-/

namespace LitestreamSoak.Churn

open Lib

/-! ## §1 — the generator -/

structure Config where
  slots : Int
  hotPercent : Int
  workers : Int
  rate : Int
  payloadSize : Int
  seed : UInt64

def Config.validate (c : Config) : Bool :=
  !(c.slots < 1 || 1000000 < c.slots || c.hotPercent < 0 || 100 < c.hotPercent || c.workers < 1 ||
    64 < c.workers || c.rate < 1 || 100000 < c.rate || c.payloadSize < 1 || 65536 < c.payloadSize)

inductive Mode where
  | queue
  | cache

inductive Op where
  | enqueue | claim | retry | complete | expire | delete | upsert | evict
deriving DecidableEq

structure Operation where
  name : Op
  key : Int
  tick : Int

def Mode.ops : Mode → List Op
  | .queue => [.enqueue, .claim, .retry, .claim, .complete, .delete, .enqueue, .expire, .delete]
  | .cache => [.upsert, .upsert, .evict]

def toInt64 (n : UInt64) : Int := if n.toNat < 2 ^ 63 then n.toNat else n.toNat - 2 ^ 64

/-- The generator; every key it chooses is a slot. -/
def operation (mode : Mode) (cfg : Config) (n : UInt64) : Operation :=
  let size := UInt64.ofNat mode.ops.length
  let group := n / size
  let h := (group + cfg.seed) * 6364136223846793005 + 1442695040888963407
  let slots := if ((h % 100).toNat : Int) < cfg.hotPercent then max 1 (cfg.slots / 10)
    else cfg.slots
  { name := mode.ops.getD (n % size).toNat .enqueue
    key := ((h >>> 16) % UInt64.ofNat slots.toNat).toNat
    tick := toInt64 n }

/-- **Every key is a slot.** -/
theorem operation_key (mode : Mode) {cfg : Config} (hcfg : cfg.validate = true) (n : UInt64) :
    0 ≤ (operation mode cfg n).key ∧ (operation mode cfg n).key < cfg.slots := by
  simp only [Config.validate, Bool.not_eq_true', Bool.or_eq_false_iff,
    decide_eq_false_iff_not] at hcfg
  have hmod : ∀ (h : UInt64) (slots : Int), 1 ≤ slots → slots ≤ cfg.slots →
      (((h >>> 16) % UInt64.ofNat slots.toNat).toNat : Int) < cfg.slots := by
    intro h slots hpos hle
    rw [UInt64.toNat_mod, UInt64.toNat_ofNat',
      Nat.mod_eq_of_lt (show slots.toNat < 2 ^ 64 by omega)]
    have hlt := Nat.mod_lt (h >>> 16).toNat (y := slots.toNat) (by omega)
    omega
  grind [operation]

/-! ## §2 — the tables -/

structure Rows (α : Type) where
  ids : Finset Int
  row : Int → α

variable {α : Type}

def Rows.set (t : Rows α) (id : Int) (row : α) : Rows α :=
  ⟨insert id t.ids, Function.update t.row id row⟩

/-- `UPDATE ... WHERE id = ? AND ...`. -/
def Rows.update (t : Rows α) (id : Int) (cond : α → Bool) (f : α → α) : Rows α :=
  if id ∈ t.ids ∧ cond (t.row id) = true then t.set id (f (t.row id)) else t

inductive JobState where
  | ready | claimed | done | expired
deriving DecidableEq

structure Job where
  state : JobState
  attempts : Nat
  payload : Text

structure Entry where
  value : Text
  expires : Int

structure DB where
  jobs : Rows Job
  receipts : Finset Int
  cache : Rows Entry

def DB.empty : DB := ⟨⟨∅, fun _ => ⟨.ready, 0, []⟩⟩, ∅, ⟨∅, fun _ => ⟨[], 0⟩⟩⟩

/-- One transaction, `none` where the mode does not know the operation. -/
def apply (mode : Mode) (op : Operation) (size : Nat) (db : DB) : Option DB :=
  let key := op.key
  match mode, op.name with
  | .queue, .enqueue =>
    some (if key ∈ db.jobs.ids then db
      else { db with jobs := db.jobs.set key ⟨.ready, 0, List.replicate size 'q'⟩ })
  | .queue, .claim =>
    some { db with jobs := db.jobs.update key (·.state = .ready) fun job =>
      { job with state := .claimed, attempts := job.attempts + 1 } }
  | .queue, .retry =>
    some { db with jobs := db.jobs.update key (·.state = .claimed) ({ · with state := .ready }) }
  | .queue, .complete =>
    let jobs := db.jobs.update key (·.state = .claimed) ({ · with state := .done })
    let db := { db with jobs }
    some (if key ∈ jobs.ids ∧ (jobs.row key).state = .done then
      { db with receipts := insert key db.receipts } else db)
  | .queue, .expire =>
    let open_ (job : Job) : Bool := job.state = .ready || job.state = .claimed
    some { db with jobs := db.jobs.update key open_ ({ · with state := .expired }) }
  | .queue, .delete =>
    let closed := (db.jobs.row key).state = .done ∨ (db.jobs.row key).state = .expired
    let jobs := { db.jobs with ids := db.jobs.ids.erase key }
    some (if key ∈ db.jobs.ids ∧ closed then { db with jobs, receipts := db.receipts.erase key }
      else db)
  | .cache, .upsert =>
    let value := (toString op.tick).toList ++ ':' :: List.replicate size 'c'
    some { db with cache := db.cache.set key ⟨value, op.tick + 8⟩ }
  | .cache, .evict =>
    let ids := db.cache.ids.filter fun id => op.tick < (db.cache.row id).expires
    some { db with cache := { db.cache with ids } }
  | _, _ => none

/-- The number of rows that the query of `Validate` counts. -/
def violations (mode : Mode) (slots : Int) (db : DB) : Nat :=
  match mode with
  | .queue =>
    (db.jobs.ids.filter fun id => id < 0 ∨ slots ≤ id ∨
      (((db.jobs.row id).state = .claimed ∨ (db.jobs.row id).state = .done) ∧
        (db.jobs.row id).attempts = 0)).card +
    (db.receipts.filter fun id => id ∉ db.jobs.ids ∨ (db.jobs.row id).state ≠ .done).card +
    (db.jobs.ids.filter fun id => (db.jobs.row id).state = .done ∧ id ∉ db.receipts).card
  | .cache => (db.cache.ids.filter fun id => id < 0 ∨ slots ≤ id ∨ (db.cache.row id).expires < 0 ∨
      (db.cache.row id).value = []).card

def validate (mode : Mode) (slots : Int) (db : DB) : Bool := violations mode slots db = 0

/-- Operation `n` of the generator, applied by some worker; a transaction that is not committed
leaves the tables as they were. -/
structure Action where
  n : UInt64
  committed : Bool

def machine (mode : Mode) (cfg : Config) : Machine DB Action where
  start db := db = DB.empty
  step db a :=
    (apply mode (operation mode cfg a.n) cfg.payloadSize.toNat db).map fun db' =>
      if a.committed then db' else db

/-! ## §3 — the condition, key by key -/

/-- The condition, key by key: an operation touches the rows of its key only. -/
def QueueOK (slots : Int) (db : DB) : Prop :=
  ∀ id, (id ∈ db.receipts ↔ id ∈ db.jobs.ids ∧ (db.jobs.row id).state = .done) ∧
    (id ∈ db.jobs.ids → 0 ≤ id ∧ id < slots ∧
      ((db.jobs.row id).state = .claimed ∨ (db.jobs.row id).state = .done →
        (db.jobs.row id).attempts ≠ 0))

def CacheOK (slots : Int) (db : DB) : Prop :=
  ∀ id ∈ db.cache.ids, 0 ≤ id ∧ id < slots ∧ 0 ≤ (db.cache.row id).expires ∧
    (db.cache.row id).value ≠ []

def OK (slots : Int) : Mode → DB → Prop
  | .queue => QueueOK slots
  | .cache => CacheOK slots

variable {mode : Mode} {slots : Int} {size : Nat} {op : Operation} {db db' : DB}

theorem OK.validate (h : OK slots mode db) : validate mode slots db = true := by
  simp only [Churn.validate, decide_eq_true_eq]
  cases mode with
  | queue =>
    simp only [violations, Nat.add_eq_zero_iff, Finset.card_eq_zero, Finset.filter_eq_empty_iff]
    refine ⟨⟨fun id hid hbad => ?_, fun id hid hbad => ?_⟩, fun id hid hbad => ?_⟩
    · obtain ⟨hlow, hhigh, hattempts⟩ := (h id).2 hid
      grind
    · obtain ⟨hjob, hdone⟩ := (h id).1.mp hid
      exact hbad.elim (absurd hjob) (absurd hdone)
    · exact hbad.2 ((h id).1.mpr ⟨hid, hbad.1⟩)
  | cache =>
    simp only [violations, Finset.card_eq_zero, Finset.filter_eq_empty_iff]
    intro id hid hbad
    obtain ⟨hlow, hhigh, hexpires, hvalue⟩ := h id hid
    rcases hbad with hneg | hlarge | hpast | hempty
    · omega
    · omega
    · omega
    · exact hvalue hempty

theorem queueOK_apply (hkey : 0 ≤ op.key ∧ op.key < slots) (h : QueueOK slots db)
    (happly : apply .queue op size db = some db') : QueueOK slots db' := by
  intro id
  have hid := h id
  unfold apply Rows.update Rows.set at happly
  cases hname : op.name with
  | upsert | evict => simp only [hname, reduceCtorEq] at happly
  | expire =>
    simp only [hname] at happly
    cases happly
    by_cases hother : id = op.key
    · subst hother
      -- a job that is done is not open
      split_ifs with hopen
      · grind
      · exact hid
    · split_ifs <;> simp_all
  | _ =>
    simp only [hname] at happly
    cases happly
    by_cases hother : id = op.key
    · subst hother
      split_ifs <;> simp_all
    · split_ifs <;> simp_all

theorem cacheOK_apply (hkey : 0 ≤ op.key ∧ op.key < slots) (htick : 0 ≤ op.tick)
    (h : CacheOK slots db) (happly : apply .cache op size db = some db') : CacheOK slots db' := by
  intro id hid
  unfold apply Rows.set at happly
  cases hname : op.name with
  | upsert =>
    simp only [hname] at happly
    cases happly
    by_cases hother : id = op.key
    · grind [List.append_ne_nil_of_right_ne_nil]
    · simp only [Function.update_of_ne hother]
      exact h id (Finset.mem_of_mem_insert_of_ne hid hother)
  | evict =>
    simp only [hname] at happly
    cases happly
    exact h id (Finset.mem_filter.mp hid).1
  | _ => simp only [hname, reduceCtorEq] at happly

theorem toInt64_nonneg {n : UInt64} (h : n.toNat < 2 ^ 62) : 0 ≤ toInt64 n := by
  rw [toInt64, if_pos (by omega)]
  exact Int.natCast_nonneg _

/-- **The workload keeps its own invariant.** For every valid configuration, whichever operations of
the generator are applied, in whichever order, and whichever of them fail, `Validate` succeeds in
every state that is committed; and every key the generator chooses is a slot. -/
theorem churn_validates (mode : Mode) (cfg : Config) (hcfg : cfg.validate = true) :
    (∀ n, 0 ≤ (operation mode cfg n).key ∧ (operation mode cfg n).key < cfg.slots) ∧
      ∀ db, (machine mode cfg).Reaches (fun _ a => a.n.toNat < 2 ^ 62) db →
        validate mode cfg.slots db = true := by
  refine ⟨operation_key mode hcfg, fun db hreach => OK.validate ?_⟩
  refine hreach.invariant ?_ ?_
  · rintro _ rfl
    cases mode with
    | queue => exact fun id => by simp [DB.empty]
    | cache => exact fun id hid => absurd hid (Finset.notMem_empty id)
  · intro db a db' h hn hstep
    obtain ⟨applied, happly, rfl⟩ := Option.map_eq_some_iff.mp hstep
    split
    · cases mode with
      | queue => exact queueOK_apply (operation_key .queue hcfg a.n) h happly
      | cache => exact cacheOK_apply (operation_key .cache hcfg a.n) (toInt64_nonneg hn) h happly
    · exact h

theorem churn_validates_claimed :
    let cfg : Config := ⟨1, 0, 1, 1, 1, 0⟩
    ∃ db, (machine .queue cfg).Reaches (fun _ a => a.n.toNat < 2 ^ 62) db ∧
      (db.jobs.row 0).state = .claimed ∧ validate .queue cfg.slots db = true := by
  intro cfg
  have hrun : ∃ db, (machine .queue cfg).Reaches (fun _ a => a.n.toNat < 2 ^ 62) db ∧
      (db.jobs.row 0).state = .claimed :=
    Machine.exists_reaches_of_run (.start rfl) [⟨0, true⟩, ⟨1, true⟩, ⟨2, false⟩]
      (by decide +kernel)
  obtain ⟨db, hreach, hclaimed⟩ := hrun
  exact ⟨db, hreach, hclaimed, (churn_validates .queue cfg (by decide)).2 db hreach⟩

end LitestreamSoak.Churn
