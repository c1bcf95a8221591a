import LitestreamSoak.Lib.GreedyCover
import LitestreamSoak.Worker.LTXCoverageExact

/-!
# Worker.RestorePlan — which files a restore reads

`selectRestorePlanCandidates` of `debug_snapshot.go`: the plan starts with the latest base snapshot
that does not go past the target and then adds, again and again, the file that leads farthest. The
two scans over the listing (`latestBaseSnapshot`, `bestRestorePlanNextCandidate`) are the same loop
with other tests.

* **§1–§2** — the scans and the loop, which ends because the txid it stands at rises.
* **§3** — chains of files, as lists and as walks.
* **§4** — **`restore_plan_minimal`**: the plan is a chain, it reaches the target where any chain
  does, and after the base snapshot none is shorter.
* **§5** — **`coverage_restores`**: what the coverage check has to find for the plan to be complete.
-/

namespace LitestreamSoak.Worker.LTX

open Lib List

/-! ## §1 — the scans -/

variable {targetTXID : UInt64} {candidates : List RestorePlanCandidate} {t : UInt64}
  {f : RestorePlanCandidate}

def latestBaseSnapshot (candidates : List RestorePlanCandidate) (targetTXID : UInt64) :
    Option RestorePlanCandidate :=
  bestOf
    (fun candidate =>
      !(candidate.level ≠ 9 || candidate.minTXID > 1 || candidate.maxTXID > targetTXID))
    (fun candidate best => candidate.maxTXID > best.maxTXID)
    candidates

def bestRestorePlanNextCandidate (candidates : List RestorePlanCandidate)
    (currentTXID targetTXID : UInt64) : Option RestorePlanCandidate :=
  let nextTXID := currentTXID + 1
  bestOf
    (fun candidate =>
      !(candidate.minTXID > nextTXID || candidate.maxTXID ≤ currentTXID ||
        candidate.maxTXID > targetTXID))
    (fun candidate best =>
      candidate.maxTXID > best.maxTXID ||
      (candidate.maxTXID == best.maxTXID && candidate.level > best.level) ||
      (candidate.maxTXID == best.maxTXID && candidate.level == best.level &&
        candidate.minTXID < best.minTXID))
    candidates

/-- A file that a plan at `t` can go on with. -/
def Hop (targetTXID t : UInt64) (f : RestorePlanCandidate) : Prop :=
  f.minTXID.toNat ≤ t.toNat + 1 ∧ t < f.maxTXID ∧ f.maxTXID ≤ targetTXID

theorem latestBaseSnapshot_eq_some
    {b : RestorePlanCandidate} (h : latestBaseSnapshot candidates targetTXID = some b) :
    b ∈ candidates ∧ b.minTXID ≤ 1 ∧ b.maxTXID ≤ targetTXID := by
  obtain ⟨hmem, heligible, -⟩ := bestOf_eq_some RestorePlanCandidate.maxTXID
    (fun c b hbetter => (of_decide_eq_true hbetter).le)
    (fun c b hkeep => not_lt.mp (of_decide_eq_false hkeep)) h
  grind

theorem next_eligible_iff (hlt : t < targetTXID)
    (f : RestorePlanCandidate) :
    (!(f.minTXID > t + 1 || f.maxTXID ≤ t || f.maxTXID > targetTXID)) = true ↔
      Hop targetTXID t f := by
  have hlt' := UInt64.lt_iff_toNat_lt.mp hlt
  have hbound := targetTXID.toNat_lt
  have hsucc : (t + 1).toNat = t.toNat + 1 := by
    rw [UInt64.toNat_add]
    exact Nat.mod_eq_of_lt (show t.toNat + 1 < _ by omega)
  grind [UInt64.lt_iff_toNat_lt, Hop]

theorem bestRestorePlanNextCandidate_eq_some (hlt : t < targetTXID)
    (h : bestRestorePlanNextCandidate candidates t targetTXID = some f) :
    f ∈ candidates ∧ Hop targetTXID t f ∧
      ∀ g ∈ candidates, Hop targetTXID t g → g.maxTXID ≤ f.maxTXID := by
  obtain ⟨hmem, heligible, hbest⟩ := bestOf_eq_some RestorePlanCandidate.maxTXID
    (fun c b hbetter => by
      simp only [Bool.or_eq_true, Bool.and_eq_true, decide_eq_true_eq, beq_iff_eq] at hbetter
      rcases hbetter with (hmax | hlevel) | hmin
      · exact hmax.le
      · exact hlevel.1.ge
      · exact hmin.1.1.ge)
    (fun c b hkeep => by
      simp only [Bool.or_eq_false_iff, decide_eq_false_iff_not] at hkeep
      exact not_lt.mp hkeep.1.1) h
  refine ⟨hmem, (next_eligible_iff hlt f).mp heligible, fun g hg hhop => ?_⟩
  exact hbest g hg ((next_eligible_iff hlt g).mpr hhop)

theorem bestRestorePlanNextCandidate_eq_none (hlt : t < targetTXID)
    (h : bestRestorePlanNextCandidate candidates t targetTXID = none) :
    ∀ g ∈ candidates, ¬ Hop targetTXID t g := by
  intro g hg hhop
  have heligible := (next_eligible_iff hlt g).mpr hhop
  rw [bestOf_eq_none h g hg] at heligible
  exact absurd heligible Bool.false_ne_true

/-! ## §2 — the loop -/

theorem remaining_lt (hlt : t < targetTXID)
    (h : bestRestorePlanNextCandidate candidates t targetTXID = some f) :
    targetTXID.toNat - f.maxTXID.toNat < targetTXID.toNat - t.toNat := by
  obtain ⟨-, ⟨-, hrise, -⟩, -⟩ := bestRestorePlanNextCandidate_eq_some hlt h
  rw [UInt64.lt_iff_toNat_lt] at hlt hrise
  omega

/-- The loop of `selectRestorePlanCandidates` from `currentTXID` on. -/
def selectFrom (candidates : List RestorePlanCandidate) (targetTXID currentTXID : UInt64) :
    List RestorePlanCandidate :=
  if hlt : currentTXID < targetTXID then
    match hnext : bestRestorePlanNextCandidate candidates currentTXID targetTXID with
    | none => []
    | some next =>
      have := remaining_lt hlt hnext
      next :: selectFrom candidates targetTXID next.maxTXID
  else []
termination_by targetTXID.toNat - currentTXID.toNat

def selectRestorePlanCandidates (candidates : List RestorePlanCandidate) (targetTXID : UInt64) :
    List RestorePlanCandidate :=
  if targetTXID = 0 then []
  else
    match latestBaseSnapshot candidates targetTXID with
    | some snapshot => snapshot :: selectFrom candidates targetTXID snapshot.maxTXID
    | none => selectFrom candidates targetTXID 0

def restorePlanComplete (selected : List RestorePlanCandidate) (targetTXID : UInt64) : Bool :=
  if selected.length = 0 ∨ targetTXID = 0 then false
  else
    match selected.getLast? with
    | none => false
    | some last => last.maxTXID ≥ targetTXID

theorem walk_selectFrom (candidates : List RestorePlanCandidate) (targetTXID t : UInt64) :
    Walk RestorePlanCandidate.maxTXID
      (fun t => bestRestorePlanNextCandidate candidates t targetTXID) targetTXID t
      (selectFrom candidates targetTXID t) := by
  induction t using selectFrom.induct candidates targetTXID with
  | case1 t hlt hnext =>
    rw [selectFrom, dif_pos hlt]
    split
    · exact .stuck hlt hnext
    · next next hsome =>
      rw [hnext] at hsome
      exact nomatch hsome
  | case2 t hlt next hnext _ ih =>
    rw [selectFrom, dif_pos hlt]
    split
    · next hnone =>
      rw [hnext] at hnone
      exact nomatch hnone
    · next next' hsome =>
      obtain rfl := Option.some.inj (hnext.symm.trans hsome)
      exact .hop hlt hnext ih
  | case3 t hge =>
    rw [selectFrom, dif_neg hge]
    exact .there (not_lt.mp hge)

theorem selectRestorePlanCandidates_eq (candidates : List RestorePlanCandidate)
    (hpos : 0 < targetTXID) :
    selectRestorePlanCandidates candidates targetTXID =
      (latestBaseSnapshot candidates targetTXID).toList ++
        selectFrom candidates targetTXID
          (endOf RestorePlanCandidate.maxTXID 0
            (latestBaseSnapshot candidates targetTXID).toList) := by
  unfold selectRestorePlanCandidates
  rw [if_neg (ne_of_gt hpos)]
  cases latestBaseSnapshot candidates targetTXID <;> rfl

theorem mem_selectFrom (hf : f ∈ selectFrom candidates targetTXID t) : f ∈ candidates := by
  have hwalk := walk_selectFrom candidates targetTXID t
  generalize selectFrom candidates targetTXID t = l at hwalk hf
  induction hwalk with
  | there _ => exact nomatch hf
  | stuck _ _ => exact nomatch hf
  | hop hlt hnext _ ih =>
    rcases mem_cons.mp hf with rfl | hf
    · exact (bestRestorePlanNextCandidate_eq_some hlt hnext).1
    · exact ih hf

/-! ## §3 — chains -/

variable {l : List RestorePlanCandidate}

/-- Files that a restore to the target can read one after the other. -/
structure RestoreChain (targetTXID : UInt64) (l : List RestorePlanCandidate) : Prop where
  begins : ∀ f ∈ l.head?, f.minTXID ≤ 1
  joined : l.IsChain fun f g => g.minTXID.toNat ≤ f.maxTXID.toNat + 1
  rising : l.IsChain fun f g => f.maxTXID < g.maxTXID
  bounded : ∀ f ∈ l, f.maxTXID ≤ targetTXID

def EndsAt (l : List RestorePlanCandidate) (targetTXID : UInt64) : Prop :=
  ∃ f ∈ l.getLast?, f.maxTXID = targetTXID

theorem restoreChain_cons :
    RestoreChain targetTXID (f :: l) ↔ f.minTXID ≤ 1 ∧ f.maxTXID ≤ targetTXID ∧
      Follows RestorePlanCandidate.maxTXID (Hop targetTXID) f.maxTXID l := by
  have htail : ∀ f : RestorePlanCandidate,
      ((f :: l).IsChain (fun f g => g.minTXID.toNat ≤ f.maxTXID.toNat + 1) ∧
        (f :: l).IsChain (fun f g => f.maxTXID < g.maxTXID) ∧
        ∀ g ∈ l, g.maxTXID ≤ targetTXID) ↔
        Follows RestorePlanCandidate.maxTXID (Hop targetTXID) f.maxTXID l := by
    induction l with
    | nil => intro f; simp [Follows]
    | cons g l ih => grind [Follows, Hop]
  constructor
  · intro h
    rw [← htail]
    exact ⟨h.begins f rfl, h.bounded f mem_cons_self, h.joined, h.rising,
      fun g hg => h.bounded g (mem_cons_of_mem f hg)⟩
  · rintro ⟨hbegin, hbound, hfollows⟩
    rw [← htail] at hfollows
    refine ⟨fun g hg => ?_, hfollows.1, hfollows.2.1, forall_mem_cons.mpr
      ⟨hbound, hfollows.2.2⟩⟩
    obtain rfl := Option.some.inj hg
    exact hbegin

theorem restoreChain_nil (targetTXID : UInt64) : RestoreChain targetTXID [] :=
  ⟨nofun, .nil, .nil, nofun⟩

theorem restoreChain_of_follows
    (h : Follows RestorePlanCandidate.maxTXID (Hop targetTXID) 0 l) :
    RestoreChain targetTXID l := by
  cases l with
  | nil => exact restoreChain_nil targetTXID
  | cons f l =>
    refine restoreChain_cons.mpr ⟨?_, h.1.2.2, h.2⟩
    exact UInt64.le_iff_toNat_le.mpr h.1.1

theorem exists_follows_of_restoreChain
    (h : RestoreChain targetTXID l) :
    ∃ m, Follows RestorePlanCandidate.maxTXID (Hop targetTXID) 0 m ∧ m.length ≤ l.length ∧
      (∀ f ∈ m, f ∈ l) ∧
      endOf RestorePlanCandidate.maxTXID 0 m = endOf RestorePlanCandidate.maxTXID 0 l := by
  cases l with
  | nil => exact ⟨[], trivial, Nat.le_refl _, fun f hf => hf, rfl⟩
  | cons f l =>
    obtain ⟨hbegin, hbound, hfollows⟩ := restoreChain_cons.mp h
    rcases eq_or_ne f.maxTXID 0 with hzero | hpos
    · grind [endOf]
    · refine ⟨f :: l, ⟨⟨?_, ?_, hbound⟩, hfollows⟩, Nat.le_refl _, fun g hg => hg, rfl⟩
      · exact UInt64.le_iff_toNat_le.mp hbegin
      · exact UInt64.pos_iff_ne_zero.mpr hpos

theorem endsAt_iff (hpos : 0 < targetTXID)
    (l : List RestorePlanCandidate) :
    EndsAt l targetTXID ↔ endOf RestorePlanCandidate.maxTXID 0 l = targetTXID := by
  grind [endOf_eq_getLast, EndsAt]

theorem restorePlanComplete_iff (hpos : 0 < targetTXID) (hbound : ∀ f ∈ l, f.maxTXID ≤ targetTXID) :
    restorePlanComplete l targetTXID = true ↔ EndsAt l targetTXID := by
  unfold restorePlanComplete EndsAt
  cases hlast : l.getLast? with
  | none => simp
  | some f => grind

/-! ## §4 — the plan -/

theorem selectFrom_reaches {t' : UInt64}
    {m : List RestorePlanCandidate}
    (hm : Follows RestorePlanCandidate.maxTXID (Hop targetTXID) t m)
    (hmem : ∀ g ∈ m, g ∈ candidates) (hle : t ≤ t') (hle' : t' ≤ targetTXID)
    (hend : endOf RestorePlanCandidate.maxTXID t m = targetTXID) :
    endOf RestorePlanCandidate.maxTXID t' (selectFrom candidates targetTXID t') = targetTXID ∧
      (selectFrom candidates targetTXID t').length ≤ m.length := by
  refine (walk_selectFrom candidates targetTXID t').reaches ?_ (fun t f hhop => hhop.2.2)
    (fun t f hlt hnext => (bestRestorePlanNextCandidate_eq_some hlt hnext).2)
    (fun t hlt hnext => bestRestorePlanNextCandidate_eq_none hlt hnext) hm hmem hle hle' hend
  grind [UInt64.le_iff_toNat_le, Hop]

theorem selectFrom_follows (candidates : List RestorePlanCandidate) (targetTXID t : UInt64) :
    Follows RestorePlanCandidate.maxTXID (Hop targetTXID) t
      (selectFrom candidates targetTXID t) :=
  (walk_selectFrom candidates targetTXID t).follows fun _ _ hlt hnext =>
    (bestRestorePlanNextCandidate_eq_some hlt hnext).2.1

theorem base_end_le (candidates : List RestorePlanCandidate) (targetTXID : UInt64) :
    endOf RestorePlanCandidate.maxTXID 0 (latestBaseSnapshot candidates targetTXID).toList ≤
      targetTXID := by
  cases hbase : latestBaseSnapshot candidates targetTXID with
  | none => exact UInt64.zero_le
  | some b => exact (latestBaseSnapshot_eq_some hbase).2.2

theorem select_chain (candidates : List RestorePlanCandidate)
    (hpos : 0 < targetTXID) :
    RestoreChain targetTXID (selectRestorePlanCandidates candidates targetTXID) := by
  rw [selectRestorePlanCandidates_eq candidates hpos]
  cases hbase : latestBaseSnapshot candidates targetTXID with
  | none => exact restoreChain_of_follows (selectFrom_follows candidates targetTXID 0)
  | some b =>
    obtain ⟨-, hmin, hmax⟩ := latestBaseSnapshot_eq_some hbase
    exact restoreChain_cons.mpr ⟨hmin, hmax, selectFrom_follows candidates targetTXID b.maxTXID⟩

theorem mem_of_mem_select
    (hpos : 0 < targetTXID)
    (hf : f ∈ selectRestorePlanCandidates candidates targetTXID) : f ∈ candidates := by
  rw [selectRestorePlanCandidates_eq candidates hpos, mem_append, Option.mem_toList] at hf
  rcases hf with hf | hf
  · exact (latestBaseSnapshot_eq_some hf).1
  · exact mem_selectFrom hf

theorem select_endsAt
    (hpos : 0 < targetTXID) (hmem : ∀ f ∈ l, f ∈ candidates) (hchain : RestoreChain targetTXID l)
    (hend : EndsAt l targetTXID) :
    EndsAt (selectRestorePlanCandidates candidates targetTXID) targetTXID := by
  obtain ⟨m, hm, -, hsub, hendm⟩ := exists_follows_of_restoreChain hchain
  rw [endsAt_iff hpos, ← hendm] at hend
  rw [endsAt_iff hpos, selectRestorePlanCandidates_eq candidates hpos, endOf_append]
  exact (selectFrom_reaches hm (fun g hg => hmem g (hsub g hg)) UInt64.zero_le
    (base_end_le candidates targetTXID) hend).1

theorem select_shortest
    (hpos : 0 < targetTXID) (hmem : ∀ f ∈ l, f ∈ candidates)
    (hchain : RestoreChain targetTXID ((latestBaseSnapshot candidates targetTXID).toList ++ l))
    (hend : EndsAt ((latestBaseSnapshot candidates targetTXID).toList ++ l) targetTXID) :
    (selectRestorePlanCandidates candidates targetTXID).length ≤
      ((latestBaseSnapshot candidates targetTXID).toList ++ l).length := by
  rw [selectRestorePlanCandidates_eq candidates hpos, length_append, length_append]
  apply Nat.add_le_add_left
  rw [endsAt_iff hpos, endOf_append] at hend
  have hbound := base_end_le candidates targetTXID
  cases hbase : latestBaseSnapshot candidates targetTXID with
  | none => grind [exists_follows_of_restoreChain, selectFrom_reaches, endOf]
  | some b =>
    rw [hbase] at hchain hend hbound
    obtain ⟨-, -, hfollows⟩ := restoreChain_cons.mp hchain
    exact (selectFrom_reaches hfollows hmem le_rfl hbound hend).2

/-- **The greedy plan is a chain, complete and minimal.** It begins with the base snapshot, it
reaches the target exactly where some chain of listed files does, and then no chain that begins with
the same base snapshot and ends at the target has fewer files. -/
theorem restore_plan_minimal (candidates : List RestorePlanCandidate) (targetTXID : UInt64)
    (hpos : 0 < targetTXID) :
    ((∀ f ∈ selectRestorePlanCandidates candidates targetTXID, f ∈ candidates) ∧
      (latestBaseSnapshot candidates targetTXID).toList <+:
        selectRestorePlanCandidates candidates targetTXID ∧
      RestoreChain targetTXID (selectRestorePlanCandidates candidates targetTXID)) ∧
    (restorePlanComplete (selectRestorePlanCandidates candidates targetTXID) targetTXID = true ↔
      ∃ l, (∀ f ∈ l, f ∈ candidates) ∧ RestoreChain targetTXID l ∧ EndsAt l targetTXID) ∧
    (restorePlanComplete (selectRestorePlanCandidates candidates targetTXID) targetTXID = true →
      ∀ l, (∀ f ∈ l, f ∈ candidates) →
        RestoreChain targetTXID ((latestBaseSnapshot candidates targetTXID).toList ++ l) →
        EndsAt ((latestBaseSnapshot candidates targetTXID).toList ++ l) targetTXID →
        (selectRestorePlanCandidates candidates targetTXID).length ≤
          ((latestBaseSnapshot candidates targetTXID).toList ++ l).length) := by
  have hchain := select_chain candidates hpos
  have hsub : ∀ f ∈ selectRestorePlanCandidates candidates targetTXID, f ∈ candidates :=
    fun f hf => mem_of_mem_select hpos hf
  refine ⟨⟨hsub, ?_, hchain⟩, ?_, fun _ l hmem => select_shortest hpos hmem⟩
  · rw [selectRestorePlanCandidates_eq candidates hpos]
    exact prefix_append _ _
  · rw [restorePlanComplete_iff hpos hchain.bounded]
    constructor
    · intro hend
      exact ⟨_, hsub, hchain, hend⟩
    · rintro ⟨l, hmem, hl, hend⟩
      exact select_endsAt hpos hmem hl hend

/-- Two joined files and a snapshot past the target: the plan to 10 is complete. -/
theorem restore_plan_minimal_joined :
    (0 : UInt64) < 10 ∧
      restorePlanComplete
        (selectRestorePlanCandidates
          [⟨0, 6, 10, 0, []⟩, ⟨9, 1, 12, 0, []⟩, ⟨1, 1, 5, 0, []⟩] 10) 10 = true := by
  refine ⟨by decide, (restore_plan_minimal _ 10 (by decide)).2.1.mpr
    ⟨[⟨1, 1, 5, 0, []⟩, ⟨0, 6, 10, 0, []⟩], by decide, ⟨?_, by decide, by decide, by decide⟩, ?_⟩⟩
  · rintro f ⟨⟩
    decide
  · exact ⟨_, rfl, rfl⟩

/-! ## §5 — a listing without holes -/

/-- A snapshot from the first txid on that the L0–L8 files join, and the last txid of these. -/
structure Leads (candidates : List RestorePlanCandidate) (b : RestorePlanCandidate)
    (targetTXID : UInt64) : Prop where
  mem : b ∈ candidates
  snapshot : b.level = 9 ∧ b.minTXID ≤ 1 ∧ b.maxTXID ≤ targetTXID
  joined : ∃ f ∈ candidates, Counted f ∧ f.minTXID.toNat ≤ b.maxTXID.toNat + 1
  reached : ∃ f ∈ candidates, Counted f ∧ f.maxTXID = targetTXID
  last : ∀ f ∈ candidates, Counted f → f.maxTXID ≤ targetTXID

theorem Leads.exists_hop {b : RestorePlanCandidate} (h : Leads candidates b targetTXID)
    (hholes : (computeLTXCoverage candidates).holes = []) (hbt : b.maxTXID ≤ t)
    (hlt : t < targetTXID) : ∃ g ∈ candidates, Hop targetTXID t g := by
  obtain ⟨hne, hnext⟩ := succ_le_of_lt hlt
  have hsucc := lt_succ_of_ne_max hne
  by_contra hnone
  -- with no file to go on with, the next txid would be in a hole
  have hmissing : Missing candidates (t + 1) := by
    refine ⟨?_, ?_, fun f hf hcounted hin => hnone ⟨f, hf, ?_, ?_, h.last f hf hcounted⟩⟩
    · grind [Leads.joined, UInt64.le_iff_toNat_le]
    · obtain ⟨f, hf, hcounted, rfl⟩ := h.reached
      exact ⟨f, hf, hcounted, hnext⟩
    · exact hsucc ▸ UInt64.le_iff_toNat_le.mp hin.1
    · grind
  have habove : b.maxTXID ≤ t + 1 := by
    rw [UInt64.le_iff_toNat_le] at hbt ⊢
    omega
  have hhole := (covered_coverage candidates (t + 1)).1.mpr
    ⟨hmissing, fun _ => ⟨b, h.mem, h.snapshot.1, habove⟩⟩
  rw [hholes] at hhole
  exact not_covered_nil _ hhole

theorem selectFrom_arrives (hle : t ≤ targetTXID)
    (hhop : ∀ t', t ≤ t' → t' < targetTXID → ∃ g ∈ candidates, Hop targetTXID t' g) :
    endOf RestorePlanCandidate.maxTXID t (selectFrom candidates targetTXID t) = targetTXID := by
  have hwalk := walk_selectFrom candidates targetTXID t
  generalize selectFrom candidates targetTXID t = l at hwalk
  induction hwalk with
  | there hge => exact le_antisymm hle hge
  | stuck hlt hnone => grind [bestRestorePlanNextCandidate_eq_none]
  | hop hlt hnext _ ih =>
    obtain ⟨-, ⟨-, hrise, hbound⟩, -⟩ := bestRestorePlanNextCandidate_eq_some hlt hnext
    exact ih hbound fun t' ht' => hhop t' (hrise.le.trans ht')

/-- **A listing without holes can be restored.** Where the coverage of a listing has no hole and its
L0–L8 files join a snapshot from the first txid on, the plan to the last txid of these files is
complete. A gap between the snapshot and the first of the files is no hole. -/
theorem coverage_restores (candidates : List RestorePlanCandidate) (b : RestorePlanCandidate)
    (targetTXID : UInt64) (hpos : 0 < targetTXID) (hleads : Leads candidates b targetTXID)
    (hholes : (computeLTXCoverage candidates).holes = []) :
    restorePlanComplete (selectRestorePlanCandidates candidates targetTXID) targetTXID = true := by
  obtain ⟨-, hmin, hmax⟩ := hleads.snapshot
  have hend := selectFrom_arrives hmax fun t hbt hlt => hleads.exists_hop hholes hbt hlt
  have hchain : RestoreChain targetTXID (b :: selectFrom candidates targetTXID b.maxTXID) :=
    restoreChain_cons.mpr ⟨hmin, hmax, selectFrom_follows candidates targetTXID b.maxTXID⟩
  rw [restorePlanComplete_iff hpos (select_chain candidates hpos).bounded]
  exact select_endsAt hpos (forall_mem_cons.mpr ⟨hleads.mem, fun f hf => mem_selectFrom hf⟩) hchain
    ((endsAt_iff hpos _).mpr hend)

/-- A snapshot of the first five txids, and a file of the next five. -/
theorem coverage_restores_joined : restorePlanComplete (selectRestorePlanCandidates
    [⟨0, 6, 10, 0, []⟩, ⟨9, 1, 5, 0, []⟩] 10) 10 = true := by
  have hfile : Counted ⟨0, 6, 10, 0, []⟩ := ⟨by decide, by decide, by decide⟩
  have hlast : ∀ f ∈ [(⟨0, 6, 10, 0, []⟩ : RestorePlanCandidate), ⟨9, 1, 5, 0, []⟩],
      f.maxTXID ≤ 10 := by decide
  refine coverage_restores _ ⟨9, 1, 5, 0, []⟩ 10 (by decide) ⟨by decide, by decide,
    ⟨_, mem_cons_self, hfile, by decide⟩, ⟨_, mem_cons_self, hfile, rfl⟩,
    fun f hf _ => hlast f hf⟩ ?_
  simp [computeLTXCoverage, scan, sweep, ltxSnapshotLevel, ltxCoverageMaxLevel]

end LitestreamSoak.Worker.LTX
