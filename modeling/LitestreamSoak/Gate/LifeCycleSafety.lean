import LitestreamSoak.Gate.LifeCycle

/-!
# Gate.LifeCycleSafety — a gate only goes forward

* **§1** — what a step may do to a gate (`GateStep`), and what is left of a gate after any number of
  steps (`Later`).
* **§2** — the snapshot of the evaluation loop. Only the loop writes a status or a ready time, and
  it has one gate at a time, so the gates it has not come to are still what was listed (`Listed`),
  and the one it is at is what was listed but for the marks it has made (`SidesInv`).
* **§3** — the step lemma of the loop, and of everything else.
* **§4** — `gate_life_cycle`.
-/

namespace LitestreamSoak.Gate.LifeCycle

open Lib Gate.Ownership List

variable {metered : List Text} {s s' : State}

/-! ## §1 — one step on a gate, and many -/

variable {g b c a : RCGate}

/-- The moves of a gate's status. -/
inductive StatusMove : RCGateStatus → RCGateStatus → Prop
  | tail : StatusMove .running .tail
  | completed : StatusMove .running .completed
  | aborted : StatusMove .running .aborted
  | tailCompleted : StatusMove .tail .completed

theorem StatusMove.not_closed {a b : RCGateStatus} (h : StatusMove a b) :
    a ≠ .completed ∧ a ≠ .aborted := by
  cases h <;> decide

/-- Both sides were ready before the deadline and the expiry. -/
def ReadyInTime (g : RCGate) : Prop :=
  ∃ c b, g.candidateReadyAt = some c ∧ g.baselineReadyAt = some b ∧
    c < g.provisionDeadline ∧ c < g.expiresAt ∧ b < g.provisionDeadline ∧ b < g.expiresAt

/-- How a step may change a gate. -/
structure GateStep (g g' : RCGate) : Prop where
  id : g'.id = g.id
  status : g'.status = g.status ∨ StatusMove g.status g'.status
  paired : g'.pairedReadyAt = g.pairedReadyAt ∨ ReadyInTime g
  candidatePin : g.candidateImageRef ≠ [] →
    g'.candidateImageRef = g.candidateImageRef ∧ g'.candidateGitSHA = g.candidateGitSHA
  baselinePin : g.baselineImageRef ≠ [] →
    g'.baselineImageRef = g.baselineImageRef ∧ g'.baselineGitSHA = g.baselineGitSHA

theorem GateStep.refl (g : RCGate) : GateStep g g :=
  ⟨rfl, .inl rfl, .inl rfl, fun _ => ⟨rfl, rfl⟩, fun _ => ⟨rfl, rfl⟩⟩

/-- What a run keeps of a gate. -/
structure Later (g g' : RCGate) : Prop where
  id : g'.id = g.id
  closed : g.closed = true → g'.status = g.status
  candidatePin : g.candidateImageRef ≠ [] →
    g'.candidateImageRef = g.candidateImageRef ∧ g'.candidateGitSHA = g.candidateGitSHA
  baselinePin : g.baselineImageRef ≠ [] →
    g'.baselineImageRef = g.baselineImageRef ∧ g'.baselineGitSHA = g.baselineGitSHA

theorem GateStep.later {g' : RCGate} (h : GateStep g g') : Later g g' := by
  refine ⟨h.id, fun hclosed => ?_, h.candidatePin, h.baselinePin⟩
  rcases h.status with hsame | hmove
  · exact hsame
  · rw [RCGate.closed, Bool.or_eq_true, decide_eq_true_eq, decide_eq_true_eq] at hclosed
    rcases hclosed with hcompleted | haborted
    · exact absurd hcompleted hmove.not_closed.1
    · exact absurd haborted hmove.not_closed.2

theorem Later.trans (h : Later a b) (h' : Later b c) : Later a c := by
  refine ⟨h'.id.trans h.id, fun hclosed => ?_, fun hpin => ?_, fun hpin => ?_⟩
  · have hstatus := h.closed hclosed
    rw [RCGate.closed, ← hstatus] at hclosed
    exact (h'.closed hclosed).trans hstatus
  · obtain ⟨himage, hgit⟩ := h.candidatePin hpin
    grind [Later.candidatePin]
  · obtain ⟨himage, hgit⟩ := h.baselinePin hpin
    grind [Later.baselinePin]

/-! ## §2 — the snapshot of the loop -/

variable {row : RCGate} {gates' gates : GateTable} {latest : Option Time} {row' gate : RCGate}
  {paired : Bool} {todo : List Text} {r : Round}

/-- The row is as the snapshot says, but for its pins and its ready times. -/
structure Reads (row h : RCGate) : Prop where
  id : row.id = h.id
  status : row.status = h.status
  candidateSource : row.candidateSource = h.candidateSource
  baselineSource : row.baselineSource = h.baselineSource
  provisionDeadline : row.provisionDeadline = h.provisionDeadline
  expiresAt : row.expiresAt = h.expiresAt
  pairedReadyAt : row.pairedReadyAt = h.pairedReadyAt

/-- The ready times are those of the snapshot too. -/
structure ReadsAll (row h : RCGate) : Prop extends Reads row h where
  candidateReadyAt : row.candidateReadyAt = h.candidateReadyAt
  baselineReadyAt : row.baselineReadyAt = h.baselineReadyAt

theorem ReadsAll.refl (g : RCGate) : ReadsAll g g := ⟨⟨rfl, rfl, rfl, rfl, rfl, rfl, rfl⟩, rfl, rfl⟩

theorem Reads.trans (h : Reads a b) (h' : Reads b c) : Reads a c :=
  ⟨h.id.trans h'.id, h.status.trans h'.status, h.candidateSource.trans h'.candidateSource,
    h.baselineSource.trans h'.baselineSource, h.provisionDeadline.trans h'.provisionDeadline,
    h.expiresAt.trans h'.expiresAt, h.pairedReadyAt.trans h'.pairedReadyAt⟩

theorem ReadsAll.trans (h : ReadsAll a b) (h' : ReadsAll b c) : ReadsAll a c :=
  ⟨h.toReads.trans h'.toReads, h.candidateReadyAt.trans h'.candidateReadyAt,
    h.baselineReadyAt.trans h'.baselineReadyAt⟩

theorem ReadsAll.readyAtFor {h : RCGate} (hreads : ReadsAll row h) (source : Text) :
    readyAtFor row source = readyAtFor h source := by
  unfold LifeCycle.readyAtFor
  rw [hreads.candidateSource, hreads.baselineSource, hreads.candidateReadyAt,
    hreads.baselineReadyAt]

theorem Reads.sources {h : RCGate} (hreads : Reads row h) : row.sources = h.sources := by
  rw [RCGate.sources, RCGate.sources, hreads.candidateSource, hreads.baselineSource]

/-- The gates of a round, as they were read. -/
structure Listed (gates : GateTable) (rest : List RCGate) : Prop where
  distinct : rest.Pairwise fun a b => a.id ≠ b.id
  fresh : ∀ h ∈ rest, ∃ row ∈ gates, ReadsAll row h

/-- What an evaluation knows of the sides it has looked at. -/
structure SidesInv (row gate : RCGate) (todo : List Text) (latest : Option Time) (paired : Bool) :
    Prop where
  distinct : todo.Nodup
  mem : ∀ source ∈ todo, source ∈ gate.sources
  fresh : ∀ source ∈ todo, readyAtFor row source = readyAtFor gate source
  /-- The others are ready, none later than `latest`. -/
  ready : paired = true → ∀ source ∈ gate.sources, source ∉ todo →
    ∃ t l, readyAtFor row source = some t ∧ latest = some l ∧ t ≤ l

structure Others (gates : GateTable) (r : Round) : Prop where
  listed : Listed gates r.rest
  apart : ∀ h ∈ r.rest, h.id ≠ r.gate.id

/-- What the evaluation has read is still so where it will write. -/
def EvalInv (gates : GateTable) : EvalPC → Prop
  | .idle => True
  | .next _ rest => Listed gates rest
  | .sides r todo latest paired =>
    Others gates r ∧ r.gate.status = .running ∧
      ∃ row ∈ gates, Reads row r.gate ∧ SidesInv row r.gate todo latest paired
  | .markSide r source todo latest paired =>
    Others gates r ∧ r.gate.status = .running ∧ readyAtFor r.gate source = none ∧
      ∃ row ∈ gates, Reads row r.gate ∧ SidesInv row r.gate (source :: todo) latest paired
  | .markPaired r _ => Others gates r ∧ ∃ row ∈ gates, Reads row r.gate ∧ ReadyInTime row
  | .expire r => Others gates r ∧ ∃ row ∈ gates, row.id = r.gate.id ∧ row.status = r.gate.status
  | .teardown r status =>
    Others gates r ∧ StatusMove r.gate.status status ∧
      ∃ row ∈ gates, row.id = r.gate.id ∧ row.status = r.gate.status

def Kept (gates gates' : GateTable) : Prop := ∀ row ∈ gates, ∃ row' ∈ gates', ReadsAll row' row

theorem Listed.kept {rest : List RCGate} (h : Listed gates rest)
    (hkept : Kept gates gates') : Listed gates' rest := by
  refine ⟨h.distinct, fun g hg => ?_⟩
  obtain ⟨row, hrow, hreads⟩ := h.fresh g hg
  obtain ⟨row', hrow', hreads'⟩ := hkept row hrow
  exact ⟨row', hrow', hreads'.trans hreads⟩

theorem SidesInv.kept (h : SidesInv row gate todo latest paired) (hreads : ReadsAll row' row) :
    SidesInv row' gate todo latest paired := by
  refine ⟨h.distinct, h.mem, fun source hsource => ?_, fun hpaired source hmem hdone => ?_⟩
  · rw [hreads.readyAtFor]
    exact h.fresh source hsource
  · rw [hreads.readyAtFor]
    exact h.ready hpaired source hmem hdone

theorem ReadyInTime.kept (h : ReadyInTime row) (hreads : ReadsAll row' row) : ReadyInTime row' := by
  unfold ReadyInTime
  rw [hreads.candidateReadyAt, hreads.baselineReadyAt, hreads.provisionDeadline, hreads.expiresAt]
  exact h

theorem EvalInv.kept {pc : EvalPC} (h : EvalInv gates pc)
    (hkept : Kept gates gates') : EvalInv gates' pc := by
  have hothers : ∀ r, Others gates r → Others gates' r :=
    fun r hr => ⟨hr.listed.kept hkept, hr.apart⟩
  cases pc with
  | idle => trivial
  | next now rest => exact Listed.kept h hkept
  | sides r todo latest paired =>
    obtain ⟨hr, hstatus, row, hrow, hreads, hsides⟩ := h
    obtain ⟨row', hrow', hreads'⟩ := hkept row hrow
    exact ⟨hothers r hr, hstatus, row', hrow', hreads'.toReads.trans hreads, hsides.kept hreads'⟩
  | markSide r source todo latest paired =>
    obtain ⟨hr, hstatus, hnone, row, hrow, hreads, hsides⟩ := h
    obtain ⟨row', hrow', hreads'⟩ := hkept row hrow
    exact ⟨hothers r hr, hstatus, hnone, row', hrow', hreads'.toReads.trans hreads,
      hsides.kept hreads'⟩
  | markPaired r latest =>
    obtain ⟨hr, row, hrow, hreads, hready⟩ := h
    obtain ⟨row', hrow', hreads'⟩ := hkept row hrow
    exact ⟨hothers r hr, row', hrow', hreads'.toReads.trans hreads, hready.kept hreads'⟩
  | expire r =>
    obtain ⟨hr, row, hrow, hid, hstatus⟩ := h
    obtain ⟨row', hrow', hreads'⟩ := hkept row hrow
    exact ⟨hothers r hr, row', hrow', hreads'.id.trans hid, hreads'.status.trans hstatus⟩
  | teardown r status =>
    obtain ⟨hr, hmove, row, hrow, hid, hstatus⟩ := h
    obtain ⟨row', hrow', hreads'⟩ := hkept row hrow
    exact ⟨hothers r hr, hmove, row', hrow', hreads'.id.trans hid, hreads'.status.trans hstatus⟩

theorem Others.updateAt (h : Others gates r) (f : RCGate → RCGate)
    (hf : ∀ g, (f g).id = g.id) : Others (gates.updateAt r.gate.id f hf) r := by
  refine ⟨⟨h.listed.distinct, fun g hg => ?_⟩, h.apart⟩
  obtain ⟨row, hrow, hreads⟩ := h.listed.fresh g hg
  have hne : row.id ≠ r.gate.id := by
    rw [hreads.id]
    exact h.apart g hg
  exact ⟨row, (Table.mem_updateAt ..).mpr (.inl ⟨hrow, hne⟩), hreads⟩

/-! ## §3 — one step of the loop -/

variable {source : Text} {now : Time}

theorem le_later (latest : Option Time) (t : Time) :
    ∃ l, later latest t = some l ∧ t ≤ l ∧ ∀ l', latest = some l' → l' ≤ l := by
  cases latest with
  | none => exact ⟨t, rfl, le_refl t, nofun⟩
  | some l =>
    by_cases hlt : l < t
    · grind [later]
    · refine ⟨l, if_neg hlt, not_lt.mp hlt, fun l' hl' => ?_⟩
      cases hl'
      exact le_refl l

theorem SidesInv.next
    {latest' : Option Time} {paired' : Bool}
    (h : SidesInv row gate (source :: todo) latest paired)
    (hsame : ∀ other, other ≠ source → readyAtFor row' other = readyAtFor row other)
    (hgrows : ∀ l, latest = some l → ∃ l', latest' = some l' ∧ l ≤ l')
    (hready : paired' = true → paired = true ∧
      ∃ t l, readyAtFor row' source = some t ∧ latest' = some l ∧ t ≤ l) :
    SidesInv row' gate todo latest' paired' := by
  have hnot : source ∉ todo := (nodup_cons.mp h.distinct).1
  refine ⟨(nodup_cons.mp h.distinct).2, fun other hother => ?_, fun other hother => ?_,
    fun hpaired other hmem hdone => ?_⟩
  · exact h.mem other (mem_cons_of_mem _ hother)
  · have hne : other ≠ source := fun heq => hnot (heq ▸ hother)
    rw [hsame other hne]
    exact h.fresh other (mem_cons_of_mem _ hother)
  · obtain ⟨hpaired, hsource⟩ := hready hpaired
    by_cases hne : other = source
    · rw [hne]
      exact hsource
    · have hdone : other ∉ source :: todo := by
        intro hin
        rcases mem_cons.mp hin with heq | hin
        · exact hne heq
        · exact hdone hin
      obtain ⟨t, l, ht, hl, hle⟩ := h.ready hpaired other hmem hdone
      obtain ⟨l', hl', hle'⟩ := hgrows l hl
      exact ⟨t, l', by rw [hsame other hne]; exact ht, hl', le_trans hle hle'⟩

theorem readyAtFor_candidate (g : RCGate) : readyAtFor g g.candidateSource = g.candidateReadyAt :=
  if_pos rfl

theorem readyAtFor_baseline (h : g.candidateSource ≠ g.baselineSource) :
    readyAtFor g g.baselineSource = g.baselineReadyAt := by
  unfold readyAtFor
  rw [if_neg (Ne.symm h), if_pos rfl]

theorem SidesInv.readyInTime {l : Time}
    (h : SidesInv row gate [] (some l) true) (hreads : Reads row gate)
    (hsources : row.candidateSource ≠ row.baselineSource)
    (hl : l < gate.provisionDeadline ∧ l < gate.expiresAt) : ReadyInTime row := by
  obtain ⟨c, lc, hc, hlc, hcle⟩ := h.ready rfl row.candidateSource
    (by rw [← hreads.sources]; exact mem_cons_self) not_mem_nil
  obtain ⟨b, lb, hb, hlb, hble⟩ := h.ready rfl row.baselineSource
    (by rw [← hreads.sources]; exact mem_cons_of_mem _ mem_cons_self) not_mem_nil
  cases hlc
  cases hlb
  rw [readyAtFor_candidate] at hc
  rw [readyAtFor_baseline hsources] at hb
  unfold ReadyInTime
  rw [hreads.provisionDeadline, hreads.expiresAt]
  exact ⟨c, b, hc, hb, lt_of_le_of_lt hcle hl.1, lt_of_le_of_lt hcle hl.2,
    lt_of_le_of_lt hble hl.1, lt_of_le_of_lt hble hl.2⟩

theorem evalInv_take {rest : List RCGate}
    (hsources : ∀ g ∈ gates, g.candidateSource ≠ g.baselineSource)
    (h : Listed gates (gate :: rest)) :
    EvalInv gates (.expire ⟨now, gate, rest⟩) ∧
      (gate.status = .running → EvalInv gates
        (.sides ⟨now, gate, rest⟩ gate.sources none true)) := by
  obtain ⟨hapart, hdistinct⟩ := pairwise_cons.mp h.distinct
  have hothers : Others gates ⟨now, gate, rest⟩ :=
    ⟨⟨hdistinct, fun g hg => h.fresh g (mem_cons_of_mem _ hg)⟩,
      fun g hg => Ne.symm (hapart g hg)⟩
  obtain ⟨row, hrow, hreads⟩ := h.fresh gate mem_cons_self
  refine ⟨⟨hothers, row, hrow, hreads.id, hreads.status⟩, fun hrunning => ?_⟩
  refine ⟨hothers, hrunning, row, hrow, hreads.toReads, ?_, fun _ hsource => hsource,
    fun source _ => hreads.readyAtFor source, fun _ source hsource hdone => absurd hsource hdone⟩
  have hne := hsources row hrow
  rw [hreads.candidateSource, hreads.baselineSource] at hne
  simp [RCGate.sources, hne]

theorem evalInv_afterSides
    (hsources : ∀ g ∈ gates, g.candidateSource ≠ g.baselineSource)
    (h : EvalInv gates (.sides r [] latest paired)) :
    EvalInv gates (.afterSides r latest paired) := by
  obtain ⟨hothers, hrunning, row, hrow, hreads, hsides⟩ := h
  have hlate : EvalInv gates
      (if r.gate.provisionDeadline ≤ r.now ∨ r.gate.expiresAt ≤ r.now then .teardown r .aborted
        else .next r.now r.rest) := by
    split
    · exact ⟨hothers, by rw [hrunning]; exact .aborted, row, hrow, hreads.id, hreads.status⟩
    · exact hothers.listed
  unfold EvalPC.afterSides
  cases paired with
  | false => exact hlate
  -- late, or both sides ready in time
  | true => grind [SidesInv.readyInTime, EvalInv]

theorem evalInv_afterPairing (h : EvalInv gates (.expire r)) : EvalInv gates (.afterPairing r) := by
  obtain ⟨hothers, hrow⟩ := h
  unfold EvalPC.afterPairing
  split
  · next hrunning =>
    split
    · refine ⟨hothers, ?_, hrow⟩
      rw [hrunning]
      cases r.gate.tail with
      | true => exact .tail
      | false => exact .completed
    · exact hothers.listed
  · next htail _ =>
    split
    · exact ⟨hothers, by rw [htail]; exact .tailCompleted, hrow⟩
    · exact hothers.listed
  · exact hothers.listed

theorem evalInv_side

    (h : EvalInv gates (.sides r (source :: todo) latest paired)) :
    (∀ t, readyAtFor r.gate source = some t →
      EvalInv gates (.sides r todo (later latest t) paired)) ∧
    EvalInv gates (.sides r todo latest false) ∧
    (readyAtFor r.gate source = none → EvalInv gates (.markSide r source todo latest paired)) := by
  obtain ⟨hothers, hrunning, row, hrow, hreads, hsides⟩ := h
  refine ⟨fun t ht => ?_, ?_, fun hnone => ?_⟩
  · obtain ⟨l, hl, hle, hgrows⟩ := le_later latest t
    refine ⟨hothers, hrunning, row, hrow, hreads, hsides.next (fun _ _ => rfl) ?_ ?_⟩
    · exact fun l' hl' => ⟨l, hl, hgrows l' hl'⟩
    · refine fun hpaired => ⟨hpaired, t, l, ?_, hl, hle⟩
      rw [hsides.fresh source mem_cons_self]
      exact ht
  · exact ⟨hothers, hrunning, row, hrow, hreads,
      hsides.next (fun _ _ => rfl) (fun l hl => ⟨l, hl, le_refl l⟩) nofun⟩
  · exact ⟨hothers, hrunning, hnone, row, hrow, hreads, hsides⟩

inductive EvalEffect (s : State) : State → Prop
  | move (pc : EvalPC)
      (hpc : (∀ g ∈ s.gates, g.candidateSource ≠ g.baselineSource) → EvalInv s.gates s.eval →
        EvalInv s.gates pc) :
      EvalEffect s { s with eval := pc }
  | markSide (r : Round) (source : Text) (todo : List Text) (latest : Option Time) (paired : Bool)
      (hpc : s.eval = .markSide r source todo latest paired) :
      EvalEffect s { s with
        gates := markRCGateSideReady s.gates r.gate.id source r.now
        eval := .sides r todo (later latest r.now) paired }
  | markPaired (r : Round) (latest : Time) (hpc : s.eval = .markPaired r latest) :
      EvalEffect s { s with
        gates := markRCGatePairedReady s.gates r.gate.id latest
        eval := .expire { r with gate := { r.gate with pairedReadyAt := some latest } } }
  | close (r : Round) (status : RCGateStatus) (completedAt : Option Time)
      (hpc : s.eval = .teardown r status) :
      EvalEffect s { s with
        gates := updateRCGateStatus s.gates r.gate.id status completedAt
        eval := .next r.now r.rest }

theorem evalStep_effect {answer : Answer} (hstep : evalStep s answer = some s') :
    EvalEffect s s' := by
  unfold evalStep at hstep
  cases hpc : s.eval with
  | idle => simp only [hpc] at hstep; cases hstep
  | next now rest =>
    cases rest with
    | nil => simp only [hpc] at hstep; cases hstep; exact .move _ fun _ _ => trivial
    | cons gate rest =>
      simp only [hpc] at hstep
      split at hstep
      · cases hstep
        exact .move _ fun _ _ => trivial
      · split at hstep
        · next hrunning =>
          cases hstep
          refine .move _ fun hsources h => ?_
          rw [hpc] at h
          exact (evalInv_take hsources h).2 hrunning.1
        · cases hstep
          refine .move _ fun hsources h => ?_
          rw [hpc] at h
          exact (evalInv_take hsources h).1
  | sides r todo latest paired =>
    cases todo with
    | nil =>
      simp only [hpc] at hstep
      cases hstep
      exact .move _ fun hsources h => evalInv_afterSides hsources (hpc ▸ h)
    | cons source todo =>
      simp only [hpc] at hstep
      cases hready : readyAtFor r.gate source with
      | some t =>
        simp only [hready] at hstep
        cases hstep
        exact .move _ fun _ h => (evalInv_side (hpc ▸ h)).1 t hready
      | none =>
        simp only [hready] at hstep
        split at hstep <;> cases hstep
        · refine .move _ fun _ h => ?_
          rw [hpc] at h
          exact h.1.listed
        · exact .move _ fun _ h => (evalInv_side (hpc ▸ h)).2.1
        · exact .move _ fun _ h => (evalInv_side (hpc ▸ h)).2.2 hready
  | markSide r source todo latest paired =>
    simp only [hpc] at hstep
    split at hstep <;> cases hstep
    · exact .markSide r source todo latest paired hpc
    · refine .move _ fun _ h => ?_
      rw [hpc] at h
      exact h.1.listed
  | markPaired r latest =>
    simp only [hpc] at hstep
    split at hstep <;> cases hstep
    · exact .markPaired r latest hpc
    · refine .move _ fun _ h => ?_
      rw [hpc] at h
      exact h.1.listed
  | expire r =>
    simp only [hpc] at hstep
    cases hstep
    exact .move _ fun _ h => evalInv_afterPairing (hpc ▸ h)
  | teardown r status =>
    simp only [hpc] at hstep
    split at hstep <;> cases hstep
    · exact .close r status _ hpc
    · refine .move _ fun _ h => ?_
      rw [hpc] at h
      exact h.1.listed

/-! ## §4 — every step goes forward -/

structure Inv (s : State) : Prop where
  sources : ∀ g ∈ s.gates, g.candidateSource ≠ g.baselineSource
  eval : EvalInv s.gates s.eval

theorem reads_setReady (g : RCGate) (source : Text) (time : Time) :
    Reads (setReady g source time) g ∧ GateStep g (setReady g source time) := by
  unfold setReady
  split
  · exact ⟨⟨rfl, rfl, rfl, rfl, rfl, rfl, rfl⟩, rfl, .inl rfl, .inl rfl, fun _ => ⟨rfl, rfl⟩,
      fun _ => ⟨rfl, rfl⟩⟩
  · split
    · exact ⟨⟨rfl, rfl, rfl, rfl, rfl, rfl, rfl⟩, rfl, .inl rfl, .inl rfl, fun _ => ⟨rfl, rfl⟩,
        fun _ => ⟨rfl, rfl⟩⟩
    · exact ⟨(ReadsAll.refl g).toReads, .refl g⟩

theorem readyAtFor_setReady (hsource : source ∈ g.sources)
    (time : Time) (x : Text) :
    readyAtFor (setReady g source time) x =
      if x = source then some ((readyAtFor g source).getD time) else readyAtFor g x := by
  -- the candidate's side first, and the baseline's only where the two differ
  grind [RCGate.sources, setReady, readyAtFor]

theorem reads_setBuild (g : RCGate) (source imageRef gitSHA : Text) :
    ReadsAll (setBuild g source imageRef gitSHA) g ∧
      GateStep g (setBuild g source imageRef gitSHA) := by
  have hkept : ReadsAll g g ∧ GateStep g g := ⟨.refl g, .refl g⟩
  unfold setBuild
  split
  · exact hkept
  · split
    · split
      · next hempty =>
        exact ⟨⟨⟨rfl, rfl, rfl, rfl, rfl, rfl, rfl⟩, rfl, rfl⟩, rfl, .inl rfl, .inl rfl,
          fun hpin => absurd hempty hpin, fun _ => ⟨rfl, rfl⟩⟩
      · exact hkept
    · split
      · split
        · next hempty =>
          exact ⟨⟨⟨rfl, rfl, rfl, rfl, rfl, rfl, rfl⟩, rfl, rfl⟩, rfl, .inl rfl, .inl rfl,
            fun _ => ⟨rfl, rfl⟩, fun hpin => absurd hempty hpin⟩
        · exact hkept
      · exact hkept

theorem sources_updateAt
    (h : ∀ g ∈ gates, g.candidateSource ≠ g.baselineSource) (id : Nat) (f : RCGate → RCGate)
    (hf : ∀ g, (f g).id = g.id)
    (hsame : ∀ g, (f g).candidateSource = g.candidateSource ∧
      (f g).baselineSource = g.baselineSource) :
    ∀ g ∈ gates.updateAt id f hf, g.candidateSource ≠ g.baselineSource := by
  grind [Table.mem_updateAt]

theorem gateStep_updateAt (id : Nat) (f : RCGate → RCGate)
    (hf : ∀ g, (f g).id = g.id) (hstep : ∀ g ∈ gates, g.id = id → GateStep g (f g)) :
    ∀ g ∈ gates, ∃ g' ∈ gates.updateAt id f hf, GateStep g g' := by
  intro g hg
  obtain ⟨g', hg', hcases⟩ := gates.exists_mem_updateAt id f hf hg
  rcases hcases with ⟨-, rfl⟩ | ⟨hid, rfl⟩
  · exact ⟨g', hg', .refl g'⟩
  · exact ⟨f g, hg', hstep g hg hid⟩

/-- A step keeps the invariant and moves every gate forward. -/
structure Forward (s s' : State) : Prop where
  inv : Inv s'
  gates : ∀ g ∈ s.gates, ∃ g' ∈ s'.gates, GateStep g g'
  begun : ∀ g' ∈ s'.gates, (∃ g ∈ s.gates, g.id = g'.id) ∨
    g'.status = .running ∧ g'.pairedReadyAt = none

theorem Forward.updateAt {id : Nat} {f : RCGate → RCGate} (hf : ∀ g, (f g).id = g.id)
    (hgates : s'.gates = s.gates.updateAt id f hf) (hinv : Inv s)
    (hsame : ∀ g, (f g).candidateSource = g.candidateSource ∧
      (f g).baselineSource = g.baselineSource)
    (heval : EvalInv s'.gates s'.eval) (hstep : ∀ g ∈ s.gates, g.id = id → GateStep g (f g)) :
    Forward s s' := by
  refine ⟨⟨?_, heval⟩, ?_, fun g' hg' => .inl ?_⟩
  · rw [hgates]
    exact sources_updateAt hinv.sources id f hf hsame
  · rw [hgates]
    exact gateStep_updateAt id f hf hstep
  · grind [Table.mem_updateAt]

theorem Forward.move (hgates : s'.gates = s.gates) (hinv : Inv s)
    (heval : EvalInv s.gates s'.eval) : Forward s s' := by
  refine ⟨⟨?_, ?_⟩, ?_, ?_⟩
  · rw [hgates]
    exact hinv.sources
  · rw [hgates]
    exact heval
  · rw [hgates]
    exact fun g hg => ⟨g, hg, .refl g⟩
  · rw [hgates]
    exact fun g hg => .inl ⟨g, hg, rfl⟩

/-- **One operation of the loop.** -/
theorem forward_evalEffect (h : Inv s) (heffect : EvalEffect s s') : Forward s s' := by
  have heval := h.eval
  cases heffect with
  | move pc hpc => exact .move rfl h (hpc h.sources heval)
  | markSide r source todo latest paired hpc =>
    rw [hpc] at heval
    obtain ⟨hothers, hrunning, hnone, row, hrow, hreads, hsides⟩ := heval
    have hsource : source ∈ row.sources := by
      rw [hreads.sources]
      exact hsides.mem source mem_cons_self
    have hid : ∀ g, (setReady g source r.now).id = g.id :=
      fun g => (reads_setReady g source r.now).1.id
    refine .updateAt hid rfl h (fun g => ?_) ⟨hothers.updateAt _ hid, hrunning,
      setReady row source r.now,
      (Table.mem_updateAt _ _ _ hid).mpr (.inr ⟨row, hrow, hreads.id, rfl⟩),
      (reads_setReady row source r.now).1.trans hreads, ?_⟩ fun g _ _ => ?_
    · grind [setReady]
    · obtain ⟨l, hl, hle, hgrows⟩ := le_later latest r.now
      refine hsides.next (fun other hne => ?_) (fun l' hl' => ⟨l, hl, hgrows l' hl'⟩)
        fun hpaired => ⟨hpaired, r.now, l, ?_, hl, hle⟩
      · rw [readyAtFor_setReady hsource, if_neg hne]
      · rw [readyAtFor_setReady hsource, if_pos rfl, hsides.fresh source mem_cons_self, hnone]
        rfl
    · exact (reads_setReady g source r.now).2
  | markPaired r latest hpc =>
    rw [hpc] at heval
    obtain ⟨hothers, row, hrow, hreads, hready⟩ := heval
    have hid : ∀ g, (setPaired g latest).id = g.id := fun _ => rfl
    have hrest := hothers.updateAt _ hid
    refine .updateAt hid rfl h (fun g => ⟨rfl, rfl⟩) ⟨⟨hrest.listed, hrest.apart⟩,
      setPaired row latest, (Table.mem_updateAt _ _ _ hid).mpr (.inr ⟨row, hrow, hreads.id, rfl⟩),
        hreads.id,
      hreads.status⟩ fun g hg hgid => ?_
    -- the gate of the table with this key is the one that is ready
    rw [s.gates.eq_of_key_eq hg hrow (hgid.trans hreads.id.symm)]
    exact ⟨rfl, .inl rfl, .inr hready, fun _ => ⟨rfl, rfl⟩, fun _ => ⟨rfl, rfl⟩⟩
  | close r status completedAt hpc =>
    rw [hpc] at heval
    obtain ⟨hothers, hmove, row, hrow, hid, hstatus⟩ := heval
    have hkey : ∀ g, (setStatusAt g status completedAt).id = g.id := fun _ => rfl
    refine .updateAt hkey rfl h (fun g => ⟨rfl, rfl⟩) (hothers.updateAt _ hkey).listed
      fun g hg hgid => ?_
    rw [s.gates.eq_of_key_eq hg hrow (hgid.trans hid.symm)]
    exact ⟨rfl, .inr (hstatus ▸ hmove), .inl rfl, fun _ => ⟨rfl, rfl⟩, fun _ => ⟨rfl, rfl⟩⟩

theorem listed_activeRCGates (gates : GateTable) : Listed gates (activeRCGates gates) := by
  have hperm := perm_insertionSort (fun a b : RCGate => a.startedAt ≤ b.startedAt)
    (gates.rows.filter fun g => !g.closed)
  refine ⟨?_, fun g hg => ?_⟩
  · have hdistinct : (gates.rows.filter fun g => !g.closed).Pairwise fun a b => a.id ≠ b.id :=
      (gates.ascending.filter _).imp fun hlt => Nat.ne_of_lt hlt
    exact (hperm.pairwise_iff fun hne => Ne.symm hne).mpr hdistinct
  · have hmem := mem_filter.mp (hperm.mem_iff.mp hg)
    exact ⟨g, hmem.1, .refl g⟩

theorem sources_ne {request : RCGateRequest}
    (h : newRCGate metered request now = .ok gate) :
    gate.candidateSource ≠ gate.baselineSource := by
  obtain ⟨parts, hparts, rfl⟩ := newRCGate_spec h
  have hof := partsOf_validateRequest hparts
  have hfrom := builtFrom_gate parts request now (gateResources metered (parts.gate request now))
  rw [hfrom.candidateSource, hfrom.baselineSource]
  intro heq
  have hthree := congrArg (take 3) heq
  rcases hof.laneVariant_cases.2 with hnil | ⟨hnol9, hkind⟩
  · rw [hnil] at hthree
    cases hkind : parts.kind with
    | rc =>
      rw [hkind] at hthree
      have hthree : text "rc-" = text "rcb" := hthree
      exact absurd hthree (by decide)
    | upgrade =>
      rw [hkind] at hthree
      have hthree : text "up-" = text "upb" := hthree
      exact absurd hthree (by decide)
  · rw [hnol9, hkind] at hthree
    have hthree : text "up-" = text "upb" := hthree
    exact absurd hthree (by decide)

theorem kept_createRCGate
    (h : createRCGate gates gate = some gates') :
    Kept gates gates' ∧ ∀ g ∈ gates', g ∈ gates ∨ g = { gate.readBack with id := g.id } := by
  unfold createRCGate at h
  split at h
  · cases h
  · cases h
    refine ⟨fun row hrow => ⟨row, (Table.mem_append ..).mpr (.inl hrow), .refl row⟩, fun g hg => ?_⟩
    rcases (Table.mem_append ..).mp hg with hold | rfl
    · exact .inl hold
    · exact .inr rfl

theorem forward_register (h : Inv s) {request : RCGateRequest}
    (hnew : newRCGate metered request now = .ok gate)
    (hcreate : createRCGate s.gates gate = some gates) : Forward s { s with gates } := by
  obtain ⟨hkept, hrows⟩ := kept_createRCGate hcreate
  obtain ⟨parts, -, hgate⟩ := newRCGate_spec hnew
  refine ⟨⟨fun g hg => ?_, h.eval.kept hkept⟩, fun g hg => ?_, fun g hg => ?_⟩
  · rcases hrows g hg with hold | hnewGate
    · exact h.sources g hold
    · have hne := sources_ne hnew
      rw [hnewGate]
      exact hne
  · unfold createRCGate at hcreate
    split at hcreate <;> cases hcreate
    exact ⟨g, (Table.mem_append ..).mpr (.inl hg), .refl g⟩
  · rcases hrows g hg with hold | hnewGate
    · exact .inl ⟨g, hold, rfl⟩
    · rw [hnewGate, hgate]
      exact .inr ⟨rfl, rfl⟩

theorem forward_pinStep {c : Nat} {ok : Bool} (h : Inv s) (hstep : pinStep s c ok = some s') :
    Forward s s' := by
  unfold pinStep at hstep
  split at hstep
  · next id source imageRef gitSHA _ =>
    cases ok with
    | false => cases hstep; exact .move rfl h h.eval
    | true =>
      cases hstep
      have hid : ∀ g, (setBuild g source imageRef gitSHA).id = g.id :=
        fun g => (reads_setBuild g source imageRef gitSHA).1.id
      refine .updateAt hid rfl h (fun g => ?_) (h.eval.kept fun row hrow => ?_) fun g _ _ => ?_
      · grind [setBuild]
      · obtain ⟨row', hrow', hcases⟩ := s.gates.exists_mem_updateAt id _ hid hrow
        refine ⟨row', hrow', ?_⟩
        rcases hcases with ⟨-, rfl⟩ | ⟨-, rfl⟩
        · exact .refl row'
        · exact (reads_setBuild row source imageRef gitSHA).1
      · exact (reads_setBuild g source imageRef gitSHA).2
  · cases hstep
    exact .move rfl h h.eval
  · cases hstep

/-- Every step keeps the invariant and moves the gates forward. -/
theorem forward_step {a : Action} (h : Inv s) (hstep : step metered s a = some s') :
    Forward s s' := by
  cases a with
  | register request now =>
    simp only [step] at hstep
    split at hstep
    · cases hstep
    · next gate hnew =>
      obtain ⟨gates, hcreate, rfl⟩ := Option.map_eq_some_iff.mp hstep
      exact forward_register h hnew hcreate
  | evaluate now =>
    simp only [step] at hstep
    split at hstep <;> cases hstep
    exact .move rfl h (listed_activeRCGates s.gates)
  | eval answer => exact forward_evalEffect h (evalStep_effect hstep)
  | pin c source gitSHA litestreamSHA imageRef now =>
    simp only [step] at hstep
    split at hstep <;> cases hstep <;> exact .move rfl h h.eval
  | pinNext c ok => exact forward_pinStep h hstep
  | crash => cases hstep; exact .move rfl h trivial

/-- The invariant holds along every run. -/
theorem inv_reachable (hs : (machine metered).Reachable s) : Inv s := by
  induction hs with
  | @start s hempty =>
    obtain rfl : s = {} := hempty
    exact ⟨fun g hg => absurd hg (Table.not_mem_empty g), trivial⟩
  | step _ _ hstep ih => exact (forward_step ih hstep).inv

/-- **Runs** from a state with the invariant: by induction on the actions taken. -/
theorem later_run {as : List Action} (h : Inv s)
    (hrun : (machine metered).run (fun _ _ => True) s as = some s') :
    ∀ g ∈ s.gates, ∃ g' ∈ s'.gates, Later g g' := by
  induction as generalizing s with
  | nil =>
    cases hrun
    exact fun g hg => ⟨g, hg, (GateStep.refl g).later⟩
  | cons a as ih =>
    rw [Machine.run, if_pos trivial] at hrun
    obtain ⟨mid, hmid, hrest⟩ := Option.bind_eq_some_iff.mp hrun
    have hforward := forward_step h hmid
    intro g hg
    obtain ⟨g', hg', hstep⟩ := hforward.gates g hg
    obtain ⟨g'', hg'', hlater⟩ := ih hforward.inv hrest g' hg'
    exact ⟨g'', hg'', hstep.later.trans hlater⟩

/-! ## §5 — the life cycle -/

theorem checkRCGateProvisioning_ok
    {profile imageRef litestreamSHA : Text} (hgate : isGateSource source = true)
    (h : checkRCGateProvisioning metered gates source profile imageRef litestreamSHA now = .ok ()) :
    ∃ g ∈ gates, source ∈ g.sources ∧ g.closed = false ∧
      (∃ deadline, rcGateProfileWindow metered g profile = some deadline ∧ now < deadline) ∧
      (g.pinnedBuildFor source).1 ≠ [] ∧ trimSpace imageRef = (g.pinnedBuildFor source).1 ∧
      equalFold (trimSpace litestreamSHA) (g.litestreamSHAFor source) = true ∧
      (g.pairedReadyAt ≠ none ∨ now < g.provisionDeadline) := by
  unfold checkRCGateProvisioning at h
  rw [if_neg (by rw [hgate]; decide)] at h
  split at h
  · cases h
  · next g hactive =>
    split at h
    · cases h
    · next hpermitted =>
      dsimp only at h
      split at h
      · cases h
      · next hpinned =>
        push Not at hpinned
        obtain ⟨hset, himage, hlitestream⟩ := hpinned
        obtain ⟨hmem, hopen⟩ := mem_filter.mp (mem_of_getLast? hactive)
        rw [Bool.and_eq_true, Bool.not_eq_true'] at hopen
        rw [Bool.not_eq_false, rcGateProfilePermitted] at hpermitted
        split at hpermitted
        · cases hpermitted
        · next deadline hwindow =>
          simp only [Bool.and_eq_true, Bool.or_eq_true, decide_eq_true_eq] at hpermitted
          refine ⟨g, hmem, ?_, hopen.1, ⟨deadline, hwindow, hpermitted.1⟩, hset, himage, ?_, ?_⟩
          · -- a build is pinned for this very name
            grind [RCGate.pinnedBuildFor, RCGate.sources]
          · exact Bool.not_eq_false _ ▸ hlitestream
          · exact hpermitted.2.imp_left fun hsome => Option.isSome_iff_ne_none.mp hsome

/-- **The life cycle of a gate is monotone and its pins are final**, for every interleaving of the
evaluation loop with registrations, pins and crashes.

* In one step a status only moves from running to tail, completed or aborted, or from tail to
  completed, and a gate gets its paired time only when both its recorded ready times are before the
  launch deadline and the expiry. New gates are running and not paired.
* After any number of steps a closed gate has the status it was closed with, and a side that was
  pinned has the same image and commit.
* Provisioning accepts a gate source only for an open gate that has it, before the deadline of the
  profile, with the pinned image and Litestream commit, and either paired or before the launch
  deadline. -/
theorem gate_life_cycle (metered : List Text) (s : State) (hs : (machine metered).Reachable s) :
    (∀ a s', step metered s a = some s' →
      (∀ g ∈ s.gates, ∃ g' ∈ s'.gates, g'.id = g.id ∧
        (g'.status = g.status ∨ StatusMove g.status g'.status) ∧
        (g'.pairedReadyAt = g.pairedReadyAt ∨ ReadyInTime g)) ∧
      ∀ g' ∈ s'.gates, (∃ g ∈ s.gates, g.id = g'.id) ∨
        g'.status = .running ∧ g'.pairedReadyAt = none) ∧
    (∀ as s', (machine metered).run (fun _ _ => True) s as = some s' →
      ∀ g ∈ s.gates, ∃ g' ∈ s'.gates, g'.id = g.id ∧
        (g.closed = true → g'.status = g.status) ∧
        (g.candidateImageRef ≠ [] →
          g'.candidateImageRef = g.candidateImageRef ∧ g'.candidateGitSHA = g.candidateGitSHA) ∧
        (g.baselineImageRef ≠ [] →
          g'.baselineImageRef = g.baselineImageRef ∧ g'.baselineGitSHA = g.baselineGitSHA)) ∧
    (∀ source profile imageRef litestreamSHA now, isGateSource source = true →
      checkRCGateProvisioning metered s.gates source profile imageRef litestreamSHA now = .ok () →
      ∃ g ∈ s.gates, source ∈ g.sources ∧ g.closed = false ∧
        (∃ deadline, rcGateProfileWindow metered g profile = some deadline ∧ now < deadline) ∧
        (g.pinnedBuildFor source).1 ≠ [] ∧ trimSpace imageRef = (g.pinnedBuildFor source).1 ∧
        equalFold (trimSpace litestreamSHA) (g.litestreamSHAFor source) = true ∧
        (g.pairedReadyAt ≠ none ∨ now < g.provisionDeadline)) := by
  have hinv := inv_reachable hs
  refine ⟨fun a s' hstep => ?_, fun as s' hrun g hg => ?_, ?_⟩
  · have hforward := forward_step hinv hstep
    refine ⟨fun g hg => ?_, hforward.begun⟩
    obtain ⟨g', hg', hgate⟩ := hforward.gates g hg
    exact ⟨g', hg', hgate.id, hgate.status, hgate.paired⟩
  · obtain ⟨g', hg', hlater⟩ := later_run hinv hrun g hg
    exact ⟨g', hg', hlater.id, hlater.closed, hlater.candidatePin, hlater.baselinePin⟩
  · intro source profile imageRef litestreamSHA now hgate hok
    exact checkRCGateProvisioning_ok hgate hok

/-- A gate is registered and its candidate side pinned; its stress worker may then be
provisioned. -/
theorem gate_life_cycle_pinned :
    ∃ s, (machine []).Reachable s ∧ ∃ g ∈ s.gates, g.closed = false ∧
      (g.pinnedBuildFor (text "rc-aaaaaaaa")).1 = text "worker:1" := by
  have hstart : (machine []).Reachable {} := .start rfl
  obtain ⟨s, hs, hok⟩ := Machine.exists_reaches_of_run hstart
    [.register (rcRequest "72h") 0,
      .pin 0 (text "rc-aaaaaaaa") (text "0123abc") (replicate 40 'a') (text "worker:1") 60,
      .pinNext 0 true, .pinNext 0 true]
    (P := fun s => checkRCGateProvisioning [] s.gates (text "rc-aaaaaaaa") gateStressProfile
      (text "worker:1") (replicate 40 'a') 120 = .ok ()) (by decide +kernel)
  obtain ⟨g, hg, -, hopen, -, -, himage, -⟩ :=
    (gate_life_cycle [] s hs).2.2 _ _ _ _ _ (by decide +kernel) hok
  refine ⟨s, hs, g, hg, hopen, ?_⟩
  rw [← himage]
  decide

end LitestreamSoak.Gate.LifeCycle
