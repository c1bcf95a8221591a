import LitestreamSoak.Worker.Boundary

/-!
# Worker — the verification boundary is exact

* **`PCOK`** says per place of the verifier what it may rely on. From the request of the boundary
  sync to the return the whole load is paused and none of its transactions is open (`Quiet`): the
  reservation taken before the request drained the writer that a pause may have frozen.
* **`PCOK.frame`** is what a step of the load or of Litestream leaves of that: a paused load changes
  neither the content nor who may hold the lock.
* **`boundary_exact`** is the result: the txids of a boundary, its snapshot, and the quiet of the
  load around it.
-/

namespace LitestreamSoak.Worker.Boundary

open Lib List Option

variable {Db : Type} {cfg : Config}

/-! ## §1 — positions -/

theorem stateAt_of_mem {positions : List (Position Db)} {p : Position Db}
    (hsorted : positions.Pairwise fun p q => q.txid < p.txid) (hp : p ∈ positions) :
    stateAt positions p.txid = some p.content := by
  induction hsorted with
  | nil => cases hp
  | cons hnewest _ ih => grind [stateAt]

/-! ## §2 — the invariant -/

variable {s : State Db}

def AllPaused (cfg : Config) (s : State Db) : Prop := ∀ i < cfg.pausers, s.paused i = true

def Drained (s : State Db) : Prop := ∀ i, s.lock ≠ some (.load i)

def Quiet (cfg : Config) (s : State Db) : Prop := AllPaused cfg s ∧ Drained s

def Covered (s : State Db) (synced : SyncResponse) : Prop :=
  ∃ p ∈ s.positions, p.txid = synced.txid ∧ p.loads = s.loads

def Caller.OK : Caller → Prop
  | .cycle => True
  | .reservation txid _ => 0 < txid

def Replicated (txid : Nat) (synced : SyncResponse) : Prop :=
  txid ≤ synced.txid ∧ synced.txid ≤ synced.replicatedTXID

def PCOK (cfg : Config) (s : State Db) : PC Db → Prop
  | .idle | .failing | .failed | .leaving _ => True
  | .unwinding caller _ => caller.OK
  | .pausing caller i => caller.OK ∧ ∀ j < i, s.paused j = true
  | .held => AllPaused cfg s
  | .opening txid | .acquiring txid _ => 0 < txid ∧ AllPaused cfg s
  | .resuming txid _ _ | .waiting txid _ => 0 < txid
  | .releasing txid => 0 < txid ∧ AllPaused cfg s ∧ s.lock = some .verifier
  | .requesting txid => 0 < txid ∧ Quiet cfg s
  | .syncing txid since => 0 < txid ∧ Quiet cfg s ∧ s.loads = since
  | .reacquiring txid synced | .comparing txid synced => 0 < txid ∧ Quiet cfg s ∧ Covered s synced
  | .reading txid synced => 0 < txid ∧ Quiet cfg s ∧ Covered s synced ∧ Replicated txid synced
  | .returning txid synced boundary => 0 < txid ∧ Quiet cfg s ∧ Covered s synced ∧
      Replicated txid synced ∧ boundary = ⟨s.db, synced.txid⟩

structure Inv (cfg : Config) (s : State Db) : Prop where
  /-- a position that covers every commit of the load has the current content -/
  current : ∀ p ∈ s.positions, p.loads ≤ s.loads ∧ (p.loads = s.loads → p.content = s.db)
  sorted : s.positions.Pairwise fun p q => q.txid < p.txid
  pc : PCOK cfg s s.pc

def PastSync : PC Db → Prop
  | .syncing _ _ | .reacquiring _ _ | .comparing _ _ | .reading _ _ | .returning _ _ _ => True
  | _ => False

theorem PCOK.quiet {pc : PC Db} (h : PCOK cfg s pc) (hpast : PastSync pc) : Quiet cfg s := by
  cases pc <;> first | exact hpast.elim | exact h.2.1

/-! ## §3 — the load and Litestream -/

variable {s' : State Db}

/-- What the others leave of the state: while the load is paused its content stays and nobody of it
takes the lock; the verifier's lock is its own. -/
structure Frame (cfg : Config) (s s' : State Db) : Prop where
  paused : s'.paused = s.paused
  pc : s'.pc = s.pc
  content : AllPaused cfg s → s'.loads = s.loads ∧ s'.db = s.db
  drained : AllPaused cfg s → Drained s → Drained s'
  lock : s.lock = some .verifier → s'.lock = some .verifier
  positions : s.positions ⊆ s'.positions

theorem Frame.quiet (h : Frame cfg s s') (hquiet : Quiet cfg s) : Quiet cfg s' :=
  ⟨fun i hi => (congrFun h.paused i).trans (hquiet.1 i hi), h.drained hquiet.1 hquiet.2⟩

theorem Frame.covered (h : Frame cfg s s') (hpaused : AllPaused cfg s)
    {synced : SyncResponse} (hcovered : Covered s synced) : Covered s' synced := by
  obtain ⟨p, hp, htxid, hloads⟩ := hcovered
  exact ⟨p, h.positions hp, htxid, hloads.trans (h.content hpaused).1.symm⟩

theorem PCOK.frame {pc : PC Db} (h : PCOK cfg s pc) (hframe : Frame cfg s s') : PCOK cfg s' pc := by
  have hpaused : AllPaused cfg s → AllPaused cfg s' := by
    intro hall i hi
    rw [hframe.paused]
    exact hall i hi
  cases pc with
  | idle => trivial
  | failing => trivial
  | failed => trivial
  | leaving i => trivial
  | unwinding caller i => exact h
  | pausing caller i =>
    refine ⟨h.1, fun j hj => ?_⟩
    rw [hframe.paused]
    exact h.2 j hj
  | held => exact hpaused h
  | opening txid => exact ⟨h.1, hpaused h.2⟩
  | acquiring txid attempt => exact ⟨h.1, hpaused h.2⟩
  | resuming txid attempt i => exact h
  | waiting txid attempt => exact h
  | releasing txid => exact ⟨h.1, hpaused h.2.1, hframe.lock h.2.2⟩
  | requesting txid => exact ⟨h.1, hframe.quiet h.2⟩
  | syncing txid since =>
    obtain ⟨hpos, hquiet, hsince⟩ := h
    exact ⟨hpos, hframe.quiet hquiet, (hframe.content hquiet.1).1.trans hsince⟩
  | reading txid synced =>
    obtain ⟨hpos, hquiet, hcovered, hreplicated⟩ := h
    exact ⟨hpos, hframe.quiet hquiet, hframe.covered hquiet.1 hcovered, hreplicated⟩
  | returning txid synced boundary =>
    obtain ⟨hpos, hquiet, hcovered, hreplicated, hboundary⟩ := h
    refine ⟨hpos, hframe.quiet hquiet, hframe.covered hquiet.1 hcovered, hreplicated, ?_⟩
    rw [hboundary, (hframe.content hquiet.1).2]
  | _ =>
    obtain ⟨hpos, hquiet, hcovered⟩ := h
    exact ⟨hpos, hframe.quiet hquiet, hframe.covered hquiet.1 hcovered⟩

theorem loadStep_frame {i : Nat} {a : LoadAction Db} (hi : i < cfg.pausers)
    (hrunning : s.paused i = false) (hstep : loadStep s i a = some s') : Frame cfg s s' := by
  have hnot : ¬ AllPaused cfg s := by
    intro hall
    cases hrunning.symm.trans (hall i hi)
  have hlock : s.lock ≠ some .verifier := by
    cases a <;> simp only [loadStep] at hstep <;> split at hstep <;> simp_all
  have hrest : s'.paused = s.paused ∧ s'.pc = s.pc ∧ s'.positions = s.positions := by
    cases a <;> simp only [loadStep] at hstep <;> split at hstep <;> cases hstep <;> simp
  obtain ⟨hpaused, hpc, hpositions⟩ := hrest
  exact
    { paused := hpaused
      pc := hpc
      content := fun hall => (hnot hall).elim
      drained := fun hall => (hnot hall).elim
      lock := fun h => (hlock h).elim
      positions := by rw [hpositions]; exact List.Subset.refl _ }

theorem litestreamStep_frame {a : LitestreamAction}
    (hstep : litestreamStep s a = some s') : Frame cfg s s' := by
  have hlock : s.lock = some .verifier → s'.lock = some .verifier := by
    cases a <;> simp only [litestreamStep] at hstep <;> split at hstep <;> cases hstep <;> simp_all
  have hdrained : Drained s → Drained s' := by
    cases a <;> simp only [litestreamStep] at hstep <;> split at hstep <;> cases hstep <;>
      simp_all [Drained]
  have hrest : s'.paused = s.paused ∧ s'.pc = s.pc ∧ s'.loads = s.loads ∧ s'.db = s.db ∧
      s.positions ⊆ s'.positions := by
    cases a <;> simp only [litestreamStep] at hstep <;> split at hstep <;> cases hstep <;> simp
  obtain ⟨hpaused, hpc, hloads, hdb, hpositions⟩ := hrest
  exact ⟨hpaused, hpc, fun _ => ⟨hloads, hdb⟩, fun _ => hdrained, hlock, hpositions⟩

/-! ## §4 — the verifier -/

theorem Inv.of_pc (h : Inv cfg s) (hdb : s'.db = s.db) (hloads : s'.loads = s.loads)
    (hpositions : s'.positions = s.positions) (hpc : PCOK cfg s' s'.pc) : Inv cfg s' := by
  refine ⟨?_, ?_, hpc⟩
  · rw [hpositions, hloads, hdb]
    exact h.current
  · rw [hpositions]
    exact h.sorted

theorem pausingFrom_ok {caller : Caller} {i : Nat} (hcaller : caller.OK)
    (hpaused : ∀ j < i, s.paused j = true) : PCOK cfg s (pausingFrom cfg caller i) := by
  unfold pausingFrom
  split
  · exact ⟨hcaller, hpaused⟩
  · next hdone =>
    have hall : AllPaused cfg s := fun j hj => hpaused j (by omega)
    cases caller with
    | cycle => exact hall
    | reservation txid attempt => exact ⟨hcaller, hall⟩

theorem acquireStep_spec {result : Acquire} {next : PC Db} {again : Option (PC Db)}
    (hstep : acquireStep s result next again = some s') :
    s' = { s with lock := some .verifier, pc := next } ∨ s' = s ∨
      ∃ lock, (Drained s → ∀ i, lock ≠ some (.load i)) ∧
        s' = { s with lock, pc := again.getD .failing } := by
  have hmissed : ∀ result : Acquire, missed s result (again.getD .failing) = s' →
      ∃ lock, (Drained s → ∀ i, lock ≠ some (.load i)) ∧
        s' = { s with lock, pc := again.getD .failing } := by
    rintro result rfl
    unfold missed takeLock
    split
    · split
      · exact ⟨some .verifier, by simp, rfl⟩
      · exact ⟨s.lock, id, rfl⟩
    · exact ⟨s.lock, id, rfl⟩
  cases result with
  | begun => grind [acquireStep]
  | busy => exact .inr (.inl (some.inj hstep).symm)
  | _ => exact .inr (.inr (hmissed _ (some.inj hstep)))

theorem dropLock_spec (s : State Db) :
    ∃ lock, dropLock s = { s with lock } ∧ (s.lock = some .verifier → lock = none) ∧
      (Drained s → ∀ i, lock ≠ some (.load i)) := by
  unfold dropLock
  split
  · exact ⟨none, rfl, fun _ => rfl, by simp⟩
  · next hlock => exact ⟨s.lock, rfl, fun h => (hlock h).elim, id⟩

/-- The verifier keeps the invariant. -/
theorem verifierStep_inv {a : VerifierAction} (h : Inv cfg s)
    (hstep : verifierStep cfg s s.pc a = some s') : Inv cfg s' := by
  have hok := h.pc
  generalize hpc : s.pc = pc at hok hstep
  unfold verifierStep at hstep
  split at hstep
  · -- `pauseLoad` begins
    cases hstep
    exact h.of_pc rfl rfl rfl (pausingFrom_ok trivial nofun)
  · next caller i =>
    cases hstep
    refine h.of_pc rfl rfl rfl (pausingFrom_ok hok.1 fun j hj => ?_)
    show Function.update s.paused i true j = true
    by_cases hji : j = i
    · rw [hji, Function.update_self]
    · rw [Function.update_of_ne hji]
      exact hok.2 j (by omega)
  · cases hstep
    exact h.of_pc rfl rfl rfl hok.1
  · next caller i =>
    cases hstep
    refine h.of_pc rfl rfl rfl ?_
    show PCOK cfg _ (if i = 0 then caller.notPaused else .unwinding caller (i - 1))
    split
    · cases caller <;> trivial
    · exact hok
  · next txid =>
    cases hstep
    refine h.of_pc rfl rfl rfl ?_
    show PCOK cfg _ (if txid = 0 then .failed else .opening txid)
    split
    · trivial
    · next hne => exact ⟨Nat.pos_of_ne_zero hne, hok⟩
  · next txid ok =>
    cases hstep
    refine h.of_pc rfl rfl rfl ?_
    show PCOK cfg _ (if ok = true then .acquiring txid 1 else .failed)
    split
    · exact hok
    · trivial
  · next txid attempt result ctxDone =>
    -- the first reservation: a blocked attempt may go on to resume the load
    rcases acquireStep_spec hstep with rfl | rfl | ⟨lock, -, rfl⟩
    · exact h.of_pc rfl rfl rfl ⟨hok.1, hok.2, rfl⟩
    · exact h
    · grind [Inv.of_pc, PCOK]
  · next txid attempt i =>
    cases hstep
    grind [Inv.of_pc, PCOK, setPaused]
  · next txid attempt ctxDone =>
    cases hstep
    refine h.of_pc rfl rfl rfl ?_
    show PCOK cfg _ (if ctxDone = true then .failing
      else pausingFrom cfg (.reservation txid attempt) 0)
    split
    · trivial
    · exact pausingFrom_ok hok nofun
  · next txid =>
    -- the reservation is given up: the lock is free and no paused writer can take it
    cases hstep
    obtain ⟨lock, hdrop, hfree, -⟩ := dropLock_spec s
    rw [hdrop]
    refine h.of_pc rfl rfl rfl ⟨hok.1, hok.2.1, fun i hi => ?_⟩
    cases (hfree hok.2.2).symm.trans hi
  · cases hstep
    exact h.of_pc rfl rfl rfl trivial
  · cases hstep
    exact h.of_pc rfl rfl rfl ⟨hok.1, hok.2, rfl⟩
  · next txid since synced =>
    split at hstep
    · next hany =>
      cases hstep
      obtain ⟨p, hp, hnamed⟩ := List.any_eq_true.mp hany
      have hnamed : p.txid = synced.txid ∧ since ≤ p.loads := by simpa using hnamed
      have hle := (h.current p hp).1
      have hsince := hok.2.2
      exact h.of_pc rfl rfl rfl ⟨hok.1, hok.2.1, p, hp, hnamed.1, by show p.loads = s.loads; omega⟩
    · cases hstep
  · cases hstep
    exact h.of_pc rfl rfl rfl trivial
  · next txid synced result ctxDone =>
    -- the second reservation is tried once, the load stays paused
    rcases acquireStep_spec hstep with rfl | rfl | ⟨lock, -, rfl⟩
    · exact h.of_pc rfl rfl rfl ⟨hok.1, ⟨hok.2.1.1, nofun⟩, hok.2.2⟩
    · exact h
    · exact h.of_pc rfl rfl rfl trivial
  · next txid synced =>
    cases hstep
    refine h.of_pc rfl rfl rfl ?_
    show PCOK cfg _ (if synced.txid < txid then .failing
      else if synced.replicatedTXID < synced.txid then .failing else .reading txid synced)
    split
    · trivial
    · split
      · trivial
      · exact ⟨hok.1, hok.2.1, hok.2.2, by omega, by omega⟩
  · cases hstep
    exact h.of_pc rfl rfl rfl ⟨hok.1, hok.2.1, hok.2.2.1, hok.2.2.2, rfl⟩
  · cases hstep
    exact h.of_pc rfl rfl rfl trivial
  · cases hstep
    obtain ⟨lock, hdrop, -, -⟩ := dropLock_spec s
    rw [hdrop]
    exact h.of_pc rfl rfl rfl hok.2.1.1
  · cases hstep
    obtain ⟨lock, hdrop, -, -⟩ := dropLock_spec s
    rw [hdrop]
    exact h.of_pc rfl rfl rfl trivial
  · grind [Inv.of_pc, PCOK]
  · grind [Inv.of_pc, PCOK]
  · next i =>
    cases hstep
    grind [Inv.of_pc, PCOK, setPaused]
  · cases hstep

theorem verifierStep_past {a : VerifierAction} (hpast : PastSync s.pc)
    (hstep : verifierStep cfg s s.pc a = some s') :
    s'.paused = s.paused ∧ s'.loads = s.loads ∧ s'.db = s.db := by
  generalize s.pc = pc at hpast hstep
  cases pc with
  | syncing txid since =>
    cases a <;> simp only [verifierStep, reduceCtorEq] at hstep
    next synced =>
      cases synced with
      | none =>
        cases hstep
        exact ⟨rfl, rfl, rfl⟩
      | some synced => grind
  | reacquiring txid synced =>
    cases a <;> simp only [verifierStep, reduceCtorEq] at hstep
    rcases acquireStep_spec hstep with rfl | rfl | ⟨lock, -, rfl⟩ <;> exact ⟨rfl, rfl, rfl⟩
  | comparing txid synced =>
    cases a <;> simp only [verifierStep, reduceCtorEq] at hstep
    cases hstep
    exact ⟨rfl, rfl, rfl⟩
  | reading txid synced =>
    cases a <;> simp only [verifierStep, reduceCtorEq] at hstep
    next ok =>
      cases ok <;> obtain rfl := some.inj hstep <;> exact ⟨rfl, rfl, rfl⟩
  | returning txid synced boundary =>
    cases a <;> simp only [verifierStep, reduceCtorEq] at hstep
    obtain ⟨lock, hdrop, -, -⟩ := dropLock_spec s
    rw [hdrop] at hstep
    cases hstep
    exact ⟨rfl, rfl, rfl⟩
  | _ => exact hpast.elim

/-! ## §5 — runs -/

theorem loadStep_recorded {i : Nat} {a : LoadAction Db}
    (hstep : loadStep s i a = some s') :
    s'.positions = s.positions ∧ (s'.loads = s.loads ∧ s'.db = s.db ∨ s'.loads = s.loads + 1) := by
  cases a <;> simp only [loadStep] at hstep <;> split at hstep <;> cases hstep <;> simp

/-- Every step keeps the invariant. -/
theorem step_inv {a : Action Db} (h : Inv cfg s) (hstep : step cfg s a = some s') : Inv cfg s' := by
  cases a with
  | verifier a => exact verifierStep_inv h hstep
  | load i a =>
    simp only [step, ite_none_right_eq_some] at hstep
    obtain ⟨⟨hi, hrunning⟩, hstep⟩ := hstep
    have hframe := loadStep_frame hi hrunning hstep
    obtain ⟨hpositions, hcontent⟩ := loadStep_recorded hstep
    refine ⟨fun p hp => ?_, hpositions ▸ h.sorted, hframe.pc ▸ h.pc.frame hframe⟩
    rw [hpositions] at hp
    obtain ⟨hle, heq⟩ := h.current p hp
    rcases hcontent with ⟨hloads, hdb⟩ | hloads
    · rw [hloads, hdb]
      exact ⟨hle, heq⟩
    · -- a commit leaves every recorded position behind
      exact ⟨by omega, fun hsame => absurd hsame (by omega)⟩
  | litestream a =>
    have hframe : Frame cfg s s' := litestreamStep_frame hstep
    have hpc : PCOK cfg s' s'.pc := hframe.pc ▸ h.pc.frame hframe
    cases a with
    | record txid =>
      simp only [step, litestreamStep, ite_none_right_eq_some, some.injEq] at hstep
      obtain ⟨hnewest, rfl⟩ := hstep
      refine ⟨fun p hp => ?_, pairwise_cons.mpr ⟨hnewest, h.sorted⟩, hpc⟩
      rcases mem_cons.mp hp with rfl | hp
      · exact ⟨Nat.le_refl _, fun _ => rfl⟩
      · exact h.current p hp
    | _ =>
      simp only [step, litestreamStep, ite_none_right_eq_some, some.injEq] at hstep
      obtain ⟨-, rfl⟩ := hstep
      exact ⟨h.current, h.sorted, hpc⟩

/-- The invariant holds along every run. -/
theorem inv_of_reachable {db : Db} (h : (machine cfg db).Reachable s) : Inv cfg s := by
  refine h.invariant ?_ ?_
  · rintro s rfl
    exact ⟨nofun, List.Pairwise.nil, trivial⟩
  · intro s a s' hs _ hstep
    exact step_inv hs hstep

theorem step_past {a : Action Db} (h : Inv cfg s) (hpast : PastSync s.pc)
    (hstep : step cfg s a = some s') :
    s'.loads = s.loads ∧ s'.db = s.db ∧ AllPaused cfg s' := by
  have hquiet := h.pc.quiet hpast
  have hkeep : s'.paused = s.paused ∧ s'.loads = s.loads ∧ s'.db = s.db := by
    cases a with
    | verifier a => exact verifierStep_past hpast hstep
    | load i a =>
      simp only [step, ite_none_right_eq_some] at hstep
      obtain ⟨⟨hi, hrunning⟩, -⟩ := hstep
      cases hrunning.symm.trans (hquiet.1 i hi)
    | litestream a =>
      have hframe : Frame cfg s s' := litestreamStep_frame hstep
      exact ⟨hframe.paused, hframe.content hquiet.1⟩
  obtain ⟨hpaused, hloads, hdb⟩ := hkeep
  refine ⟨hloads, hdb, fun i hi => ?_⟩
  rw [hpaused]
  exact hquiet.1 i hi

/-! ## §6 — the result -/

/-- **The verification boundary is exact.** In every run: a boundary that is returned lies between
the requested txid, which is positive, and the replicated one, and its snapshot is the content at
its txid; and from the request of its sync to the return the load is paused with no transaction
open, no step commits for it and none resumes a part of it. -/
theorem boundary_exact (cfg : Config) (db : Db) {s : State Db}
    (hreach : (machine cfg db).Reachable s) :
    (∀ txid synced boundary, s.pc = .returning txid synced boundary →
      0 < txid ∧ txid ≤ boundary.txid ∧ boundary.txid ≤ synced.replicatedTXID ∧
        stateAt s.positions boundary.txid = some boundary.logicalSnapshot) ∧
    (PastSync s.pc → Quiet cfg s ∧ ∀ a s', (machine cfg db).step s a = some s' →
      s'.loads = s.loads ∧ s'.db = s.db ∧ AllPaused cfg s') := by
  have hinv := inv_of_reachable hreach
  refine ⟨fun txid synced boundary hreturning => ?_, fun hpast => ?_⟩
  · have hok := hinv.pc
    rw [hreturning] at hok
    obtain ⟨hpos, -, ⟨p, hp, htxid, hloads⟩, ⟨hle, hreplicated⟩, rfl⟩ := hok
    refine ⟨hpos, hle, hreplicated, ?_⟩
    show stateAt s.positions synced.txid = some s.db
    rw [← htxid, stateAt_of_mem hinv.sorted hp, (hinv.current p hp).2 hloads]
  · exact ⟨hinv.pc.quiet hpast, fun a s' hstep => step_past hinv hpast hstep⟩

/-- A writer is frozen inside a transaction, is resumed, commits 7 and is paused again; the boundary
that follows has the content 7 at the txid of its sync. -/
theorem boundary_exact_frozen :
    ∃ s : State Nat, (machine ⟨1, 3⟩ 0).Reachable s ∧ s.pc = .returning 1 ⟨4, 4⟩ ⟨7, 4⟩ ∧
      stateAt s.positions 4 = some 7 := by
  have hrun : ∃ s : State Nat, (machine ⟨1, 3⟩ 0).Reachable s ∧
      s.pc = .returning 1 ⟨4, 4⟩ ⟨7, 4⟩ :=
    Machine.exists_reaches_of_run (.start rfl)
      [.load 0 .begin, .verifier .pauseLoad, .verifier (.pause true), .verifier (.capture 1),
        .verifier (.open true), .verifier (.acquire .deadline false), .verifier .resume,
        .load 0 (.commit 7), .verifier (.wait false), .verifier (.pause true),
        .verifier (.acquire .begun false), .verifier (.release true), .verifier .request,
        .litestream (.record 4), .verifier (.reply (some ⟨4, 4⟩)),
        .verifier (.acquire .begun false), .verifier .compare, .verifier (.read true)]
      (by decide)
  obtain ⟨s, hreach, hreturning⟩ := hrun
  exact ⟨s, hreach, hreturning, ((boundary_exact ⟨1, 3⟩ 0 hreach).1 _ _ _ hreturning).2.2.2⟩

end LitestreamSoak.Worker.Boundary
