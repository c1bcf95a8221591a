import LitestreamSoak.Worker.LTXCoverage

/-!
# Worker — LTX coverage is exact

The sweep's holes before they are split at the floor are `gaps`, a function of the sorted ranges
alone. `covered_gaps` says which txids they contain, by induction on the sorted list; splitting at
the floor (`holesOf`, `retainedOf`) cuts each gap in two. What the first loop collects is related to
the listing by `mem_ranges_scan` and `floor_scan`, and the result is stated about the listing only.
-/

namespace LitestreamSoak.Worker.LTX

open Lib List

/-! ## §1 — one step of a txid -/

variable {t x : UInt64}

/-- Below the largest txid a successor does not wrap. -/
theorem lt_succ_of_ne_max (h : t ≠ maxUint64) : (t + 1).toNat = t.toNat + 1 := by
  have hne : t.toNat ≠ 18446744073709551615 := fun heq => h (UInt64.toNat_inj.mp heq)
  have hlt := t.toNat_lt
  rw [UInt64.toNat_add]
  show (t.toNat + 1) % 18446744073709551616 = _
  omega

/-- The hole between two files has the txids between them. -/
theorem contains_gap {m : UInt64} (ht : t ≠ maxUint64) (hm : t + 1 < m) :
    (⟨t + 1, m - 1⟩ : TxidRange).Contains x ↔ t < x ∧ x < m := by
  have hsucc := lt_succ_of_ne_max ht
  have hm' : (t + 1).toNat < m.toNat := UInt64.lt_iff_toNat_lt.mp hm
  have hpred : (m - 1).toNat = m.toNat - 1 :=
    UInt64.toNat_sub_of_le m 1 (UInt64.le_iff_toNat_le.mpr (show 1 ≤ m.toNat by omega))
  show t + 1 ≤ x ∧ x ≤ m - 1 ↔ t < x ∧ x < m
  rw [UInt64.le_iff_toNat_le, UInt64.le_iff_toNat_le, UInt64.lt_iff_toNat_lt,
    UInt64.lt_iff_toNat_lt, hsucc, hpred]
  omega

theorem succ_le_of_lt (h : t < x) : t ≠ maxUint64 ∧ t + 1 ≤ x := by
  have hlt := UInt64.lt_iff_toNat_lt.mp h
  have hbound := x.toNat_lt
  have hne : t ≠ maxUint64 := by
    intro heq
    rw [heq] at hlt
    have : maxUint64.toNat = 18446744073709551615 := rfl
    omega
  refine ⟨hne, ?_⟩
  rw [UInt64.le_iff_toNat_le, lt_succ_of_ne_max hne]
  omega

/-! ## §2 — gaps -/

variable {l : List TxidRange}

/-- What the sweep adds, with no floor: the holes behind `coveredTo`. -/
def gaps (coveredTo : UInt64) : List TxidRange → List TxidRange
  | [] => []
  | next :: rest =>
    if coveredTo = maxUint64 then []
    else
      (if next.min > coveredTo + 1 then [⟨coveredTo + 1, next.min - 1⟩] else []) ++
        gaps (max coveredTo next.max) rest

/-- Ranges by ascending start, none of them empty. -/
def SortedRanges (l : List TxidRange) : Prop :=
  l.Pairwise (fun a b => a.min ≤ b.min) ∧ ∀ r ∈ l, r.min ≤ r.max

theorem SortedRanges.tail {r : TxidRange} (h : SortedRanges (r :: l)) :
    SortedRanges l :=
  ⟨(pairwise_cons.mp h.1).2, fun s hs => h.2 s (by simp [hs])⟩

/-- **What the sweep finds.** A txid is in a gap if it is above what is covered, below the end of
some file to come, and in none of these files. -/
theorem covered_gaps (h : SortedRanges l) (t x : UInt64) :
    Covered (gaps t l) x ↔ t < x ∧ (∃ r ∈ l, x ≤ r.max) ∧ ∀ r ∈ l, ¬ r.Contains x := by
  induction l generalizing t with
  | nil => exact ⟨fun hx => absurd hx (not_covered_nil x), fun ⟨_, ⟨r, hr, _⟩, _⟩ => nomatch hr⟩
  | cons next rest ih =>
    have hfirst : ∀ r ∈ rest, next.min ≤ r.min := (pairwise_cons.mp h.1).1
    have hnext : next.min ≤ next.max := h.2 next (by simp)
    unfold gaps
    split
    · next ht =>
      refine iff_of_false (not_covered_nil x) fun hx => ?_
      exact (succ_le_of_lt hx.1).1 ht
    · next ht =>
      rw [covered_append, ih h.tail]
      constructor
      · rintro (hgap | ⟨hmax, ⟨r, hr, hxr⟩, hnone⟩)
        · -- before `next`, hence before every later file
          split at hgap
          · next hm =>
            obtain ⟨htx, hxm⟩ := (contains_gap ht hm).mp
              ((covered_cons.mp hgap).resolve_right (not_covered_nil x))
            grind [Range.Contains]
          · exact absurd hgap (not_covered_nil x)
        · grind [Range.Contains]
      · rintro ⟨htx, ⟨r, hr, hxr⟩, hnone⟩
        rcases lt_or_ge x next.min with hxn | hnx
        · left
          have hm : next.min > t + 1 := lt_of_le_of_lt (succ_le_of_lt htx).2 hxn
          rw [if_pos hm]
          exact covered_cons.mpr (.inl ((contains_gap ht hm).mpr ⟨htx, hxn⟩))
        · -- past `next`, so the file that ends later is one of the rest
          right
          have hpast : next.max < x := by
            by_contra hle
            exact hnone next (by simp) ⟨hnx, not_lt.mp hle⟩
          grind

/-- A gap begins behind what is covered. -/
theorem lt_min_of_mem_gaps {o : TxidRange} (ho : o ∈ gaps t l) : t < o.min := by
  induction l generalizing t with
  | nil => exact nomatch ho
  -- a gap begins behind `t`, which does not move back
  | cons next rest ih => grind [gaps, UInt64.lt_iff_toNat_lt, lt_succ_of_ne_max]

/-- The gaps come in order and apart. -/
theorem ascending_gaps (h : SortedRanges l) (t : UInt64) : Ascending (gaps t l) := by
  induction l generalizing t with
  | nil => exact ascending_nil
  | cons next rest ih =>
    unfold gaps
    split
    · exact ascending_nil
    · next ht =>
      split
      · next hm =>
        -- the gap holds the txid after `t`
        have hin := (contains_gap ht hm (x := t + 1)).mpr ⟨by
          rw [UInt64.lt_iff_toNat_lt, lt_succ_of_ne_max ht]
          omega, hm⟩
        have hend : ∀ x, (⟨t + 1, next.min - 1⟩ : TxidRange).Contains x → x < next.min :=
          fun x hx => ((contains_gap ht hm).mp hx).2
        refine Ascending.append (ascending_cons.mpr ⟨hin.2, nofun, ascending_nil⟩) (ih h.tail _) ?_
        intro r hr o ho
        rw [mem_singleton.mp hr]
        calc next.min - 1 < next.min := hend _ ⟨hin.2, le_rfl⟩
          _ ≤ next.max := h.2 next (by simp)
          _ ≤ max t next.max := le_max_right _ _
          _ < o.min := lt_min_of_mem_gaps ho
      · exact ih h.tail _

/-! ## §3 — the floor -/

variable {hole : TxidRange} {c : LTXCoverage}

/-- The part of a hole at or above the floor. -/
def holesOf (c : LTXCoverage) (hole : TxidRange) : List TxidRange :=
  if !c.floorKnown || hole.min ≥ c.floor then [hole]
  else if hole.max < c.floor then [] else [⟨c.floor, hole.max⟩]

/-- The part of a hole below the floor. -/
def retainedOf (c : LTXCoverage) (hole : TxidRange) : List TxidRange :=
  if !c.floorKnown || hole.min ≥ c.floor then []
  else if hole.max < c.floor then [hole] else [⟨hole.min, c.floor - 1⟩]

/-- A hole is cut in two at the floor. -/
theorem addHole_eq (c : LTXCoverage) (hole : TxidRange) :
    c.addHole hole = { c with
      holes := c.holes ++ holesOf c hole, retained := c.retained ++ retainedOf c hole } := by
  unfold LTXCoverage.addHole holesOf retainedOf
  split
  · simp
  · split <;> simp

/-- The sweep is the gaps, each cut at the floor; the floor stays as it was found. -/
theorem sweep_fst (c : LTXCoverage) (t : UInt64) (l : List TxidRange) :
    (sweep c t l).1 = { c with
      holes := c.holes ++ (gaps t l).flatMap (holesOf c)
      retained := c.retained ++ (gaps t l).flatMap (retainedOf c) } := by
  induction l generalizing c t with
  | nil => simp [sweep, gaps]
  | cons next rest ih =>
    unfold sweep gaps
    split
    · simp
    · dsimp only
      rw [ih]
      split
      · rw [addHole_eq]
        -- the floor does not change, so later holes are split alike
        have hholes : ∀ c' : LTXCoverage, c'.floor = c.floor → c'.floorKnown = c.floorKnown →
            holesOf c' = holesOf c ∧ retainedOf c' = retainedOf c := by
          intro c' hfloor hknown
          constructor <;> funext hole
          · unfold holesOf
            rw [hfloor, hknown]
          · unfold retainedOf
            rw [hfloor, hknown]
        grind
      · simp only [nil_append]

theorem lt_floor_iff {f : UInt64} (hf : ∃ y : UInt64, y < f) : x ≤ f - 1 ↔ x < f := by
  grind

/-- The txids reported missing in a hole. -/
theorem covered_holesOf :
    Covered (holesOf c hole) x ↔ hole.Contains x ∧ (c.floorKnown = true → c.floor ≤ x) := by
  unfold holesOf
  split
  · next hall =>
    rw [covered_cons, or_iff_left (not_covered_nil x)]
    refine (and_iff_left_of_imp fun hx hknown => ?_).symm
    simp only [hknown, Bool.not_true, Bool.false_or, decide_eq_true_eq] at hall
    exact le_trans hall hx.1
  · next hbelow =>
    simp only [Bool.or_eq_true, Bool.not_eq_true', decide_eq_true_eq, not_or, not_le,
      Bool.not_eq_false] at hbelow
    split
    · next hmax =>
      refine iff_of_false (not_covered_nil x) fun ⟨hx, hfloor⟩ => ?_
      exact absurd (le_trans (hfloor hbelow.1) hx.2) (not_le_of_gt hmax)
    · rw [covered_cons, or_iff_left (not_covered_nil x)]
      constructor
      · intro hx
        exact ⟨⟨le_trans hbelow.2.le hx.1, hx.2⟩, fun _ => hx.1⟩
      · rintro ⟨hx, hfloor⟩
        exact ⟨hfloor hbelow.1, hx.2⟩

/-- The txids of a hole that retention explains. -/
theorem covered_retainedOf :
    Covered (retainedOf c hole) x ↔ hole.Contains x ∧ c.floorKnown = true ∧ x < c.floor := by
  unfold retainedOf
  split
  · grind [Covered, Range.Contains]
  · next hbelow =>
    simp only [Bool.or_eq_true, Bool.not_eq_true', decide_eq_true_eq, not_or, not_le,
      Bool.not_eq_false] at hbelow
    split
    · next hmax =>
      rw [covered_cons, or_iff_left (not_covered_nil x)]
      exact (and_iff_left_of_imp fun hx => ⟨hbelow.1, lt_of_le_of_lt hx.2 hmax⟩).symm
    · next hmax =>
      rw [covered_cons, or_iff_left (not_covered_nil x)]
      show hole.min ≤ x ∧ x ≤ c.floor - 1 ↔ _
      rw [lt_floor_iff ⟨_, hbelow.2⟩]
      constructor
      · rintro ⟨hmin, hlt⟩
        exact ⟨⟨hmin, le_trans hlt.le (not_lt.mp hmax)⟩, hbelow.1, hlt⟩
      · rintro ⟨hx, -, hlt⟩
        exact ⟨hx.1, hlt⟩

/-- A part of a hole lies in the hole. -/
theorem holesOf_within (hne : hole.min ≤ hole.max) :
    Ascending (holesOf c hole) ∧
      ∀ o ∈ holesOf c hole, hole.min ≤ o.min ∧ o.max ≤ hole.max := by
  unfold holesOf
  split
  · refine ⟨ascending_cons.mpr ⟨hne, nofun, ascending_nil⟩, fun o ho => ?_⟩
    rw [mem_singleton.mp ho]
    exact ⟨le_rfl, le_rfl⟩
  · next hbelow =>
    simp only [Bool.or_eq_true, Bool.not_eq_true', decide_eq_true_eq, not_or, not_le] at hbelow
    split
    · exact ⟨ascending_nil, nofun⟩
    · next hmax =>
      refine ⟨ascending_cons.mpr ⟨not_lt.mp hmax, nofun, ascending_nil⟩, fun o ho => ?_⟩
      rw [mem_singleton.mp ho]
      exact ⟨hbelow.2.le, le_rfl⟩

theorem retainedOf_within (hne : hole.min ≤ hole.max) :
    Ascending (retainedOf c hole) ∧
      ∀ o ∈ retainedOf c hole, hole.min ≤ o.min ∧ o.max ≤ hole.max := by
  unfold retainedOf
  split
  · exact ⟨ascending_nil, nofun⟩
  · next hbelow =>
    simp only [Bool.or_eq_true, Bool.not_eq_true', decide_eq_true_eq, not_or, not_le] at hbelow
    split
    · refine ⟨ascending_cons.mpr ⟨hne, nofun, ascending_nil⟩, fun o ho => ?_⟩
      rw [mem_singleton.mp ho]
      exact ⟨le_rfl, le_rfl⟩
    · next hmax =>
      have hfloor : ∃ y : UInt64, y < c.floor := ⟨_, hbelow.2⟩
      refine ⟨ascending_cons.mpr ⟨(lt_floor_iff hfloor).mpr hbelow.2, nofun, ascending_nil⟩,
        fun o ho => ?_⟩
      grind

/-! ## §4 — the first loop -/

/-- The files the check looks at: L0 to L8, with a range that is not inverted. -/
def Counted (candidate : RestorePlanCandidate) : Prop :=
  0 ≤ candidate.level ∧ candidate.level ≤ 8 ∧ candidate.minTXID ≤ candidate.maxTXID

/-- The scan collects the files of levels 0 to 8. -/
theorem mem_ranges_scan (candidates : List RestorePlanCandidate)
    (acc : LTXCoverage × List TxidRange) (r : TxidRange) :
    r ∈ (candidates.foldl scan acc).2 ↔
      r ∈ acc.2 ∨ ∃ f ∈ candidates, Counted f ∧ r = ⟨f.minTXID, f.maxTXID⟩ := by
  induction candidates generalizing acc with
  | nil => simp
  | cons f rest ih =>
    rw [foldl_cons, ih]
    have hscan : r ∈ (scan acc f).2 ↔
        r ∈ acc.2 ∨ (Counted f ∧ r = ⟨f.minTXID, f.maxTXID⟩) := by
      unfold scan
      dsimp only
      split
      -- a file is skipped exactly where it is not counted
      · grind [ltxCoverageMaxLevel, Counted]
      · grind [ltxCoverageMaxLevel, Counted]
    rw [hscan]
    simp only [mem_cons, exists_eq_or_imp]
    exact or_assoc

/-- The floor is the lowest start of an L9 file, if there is one. -/
theorem floor_scan (candidates : List RestorePlanCandidate) (acc : LTXCoverage × List TxidRange)
    (x : UInt64) :
    ((candidates.foldl scan acc).1.floorKnown = true ↔
      acc.1.floorKnown = true ∨ ∃ f ∈ candidates, f.level = 9) ∧
    ((candidates.foldl scan acc).1.floorKnown = true ∧ (candidates.foldl scan acc).1.floor ≤ x ↔
      (acc.1.floorKnown = true ∧ acc.1.floor ≤ x) ∨
        ∃ f ∈ candidates, f.level = 9 ∧ f.maxTXID ≤ x) := by
  induction candidates generalizing acc with
  | nil => simp
  | cons f rest ih =>
    rw [foldl_cons, (ih _).2, (ih _).1]
    simp only [mem_cons, exists_eq_or_imp, ← or_assoc]
    have hscan : (scan acc f).1 =
        if f.level = ltxSnapshotLevel ∧ (acc.1.floorKnown = false ∨ f.maxTXID < acc.1.floor)
        then { acc.1 with floor := f.maxTXID, floorKnown := true } else acc.1 := by
      unfold scan
      dsimp only
      split <;> rfl
    rw [hscan]
    split
    · next hlower =>
      -- a first L9 file, or one that ends below the others
      have hlevel : f.level = 9 := hlower.1
      refine ⟨or_congr_left (by simp [hlevel]), or_congr_left ?_⟩
      grind
    · next hkeep =>
      constructor
      · refine or_congr_left (or_iff_left_of_imp fun hlevel => ?_).symm
        by_contra hunknown
        exact hkeep ⟨hlevel, .inl (Bool.not_eq_true _ ▸ hunknown)⟩
      · refine or_congr_left (or_iff_left_of_imp fun ⟨hlevel, hle⟩ => ?_).symm
        have hkeep' : ¬ (acc.1.floorKnown = false ∨ f.maxTXID < acc.1.floor) := fun h =>
          hkeep ⟨hlevel, h⟩
        rw [not_or, not_lt, Bool.not_eq_false] at hkeep'
        exact ⟨hkeep'.1, le_trans hkeep'.2 hle⟩

theorem scan_lists (candidates : List RestorePlanCandidate) (acc : LTXCoverage × List TxidRange) :
    (candidates.foldl scan acc).1.holes = acc.1.holes ∧
      (candidates.foldl scan acc).1.retained = acc.1.retained := by
  induction candidates generalizing acc with
  | nil => exact ⟨rfl, rfl⟩
  | cons f rest ih =>
    rw [foldl_cons, (ih _).1, (ih _).2]
    unfold scan
    dsimp only
    split <;> split <;> exact ⟨rfl, rfl⟩

/-! ## §5 — the coverage of a listing -/

/-- A txid between the smallest `min` and the largest `max` of the counted files that none of them
contains. -/
def Missing (candidates : List RestorePlanCandidate) (x : UInt64) : Prop :=
  (∃ f ∈ candidates, Counted f ∧ f.minTXID ≤ x) ∧ (∃ f ∈ candidates, Counted f ∧ x ≤ f.maxTXID) ∧
    ∀ f ∈ candidates, Counted f → ¬ (f.minTXID ≤ x ∧ x ≤ f.maxTXID)

def HasSnapshot (candidates : List RestorePlanCandidate) : Prop := ∃ f ∈ candidates, f.level = 9

/-- The txid is at or above the smallest end of an L9 file. -/
def AboveFloor (candidates : List RestorePlanCandidate) (x : UInt64) : Prop :=
  ∃ f ∈ candidates, f.level = 9 ∧ f.maxTXID ≤ x

/-- The ranges of the files, as the sweep gets them. -/
def sortedFiles (candidates : List RestorePlanCandidate) : List TxidRange :=
  (candidates.foldl scan ({}, [])).2.mergeSort fun a b => a.min ≤ b.min

theorem exists_sortedFiles (candidates : List RestorePlanCandidate) (P : TxidRange → Prop) :
    (∃ r ∈ sortedFiles candidates, P r) ↔
      ∃ f ∈ candidates, Counted f ∧ P ⟨f.minTXID, f.maxTXID⟩ := by
  have hmem := mem_ranges_scan candidates ({}, [])
  constructor
  · rintro ⟨r, hr, hP⟩
    obtain ⟨f, hf, hcounted, rfl⟩ := ((hmem r).mp (mem_mergeSort.mp hr)).resolve_left nofun
    exact ⟨f, hf, hcounted, hP⟩
  · rintro ⟨f, hf, hcounted, hP⟩
    exact ⟨_, mem_mergeSort.mpr ((hmem _).mpr (.inr ⟨f, hf, hcounted, rfl⟩)), hP⟩

theorem sorted_sortedFiles (candidates : List RestorePlanCandidate) :
    SortedRanges (sortedFiles candidates) := by
  constructor
  -- by the order of the sort, which is total
  · grind [pairwise_mergeSort, sortedFiles]
  · by_contra hinverted
    push Not at hinverted
    obtain ⟨f, -, hcounted, hlt⟩ := (exists_sortedFiles candidates fun r => r.max < r.min).mp
      hinverted
    exact absurd hcounted.2.2 (not_le_of_gt hlt)

/-- Missing, said of the sorted ranges. -/
theorem missing_iff (candidates : List RestorePlanCandidate) (x : UInt64) :
    Missing candidates x ↔ (∃ r ∈ sortedFiles candidates, r.min ≤ x) ∧
      (∃ r ∈ sortedFiles candidates, x ≤ r.max) ∧
      ∀ r ∈ sortedFiles candidates, ¬ r.Contains x := by
  have hnone := not_congr (exists_sortedFiles candidates fun r => r.Contains x)
  push Not at hnone
  rw [exists_sortedFiles, exists_sortedFiles, hnone]
  rfl

/-- The gaps are the missing txids. -/
theorem covered_gaps_iff_missing {candidates : List RestorePlanCandidate} {first : TxidRange}
    {rest : List TxidRange} (hlist : sortedFiles candidates = first :: rest) (x : UInt64) :
    Covered (gaps first.max rest) x ↔ Missing candidates x := by
  have hsorted := sorted_sortedFiles candidates
  rw [hlist] at hsorted
  rw [missing_iff, hlist, covered_gaps hsorted.tail]
  simp only [mem_cons, exists_eq_or_imp, forall_eq_or_imp]
  constructor
  · rintro ⟨hlt, hend, hnone⟩
    have hle := le_trans (hsorted.2 first (by simp)) hlt.le
    exact ⟨.inl hle, .inr hend, fun hx => absurd hx.2 (not_le_of_gt hlt), hnone⟩
  · rintro ⟨hbegin, hend, hfirst, hnone⟩
    have hle : first.min ≤ x := by
      rcases hbegin with hle | ⟨r, hr, hle⟩
      · exact hle
      · exact le_trans ((pairwise_cons.mp hsorted.1).1 r hr) hle
    grind [Range.Contains]

/-- The coverage: the missing txids in order, cut at the floor. -/
theorem computeLTXCoverage_eq (candidates : List RestorePlanCandidate) :
    ∃ (l : List TxidRange) (c : LTXCoverage), c = (candidates.foldl scan ({}, [])).1 ∧
      Ascending l ∧ (∀ x, Covered l x ↔ Missing candidates x) ∧
      (computeLTXCoverage candidates).floorKnown = c.floorKnown ∧
      (computeLTXCoverage candidates).holes = l.flatMap (holesOf c) ∧
      (computeLTXCoverage candidates).retained = l.flatMap (retainedOf c) := by
  have hlists := scan_lists candidates ({}, [])
  unfold computeLTXCoverage
  dsimp only
  rw [← sortedFiles]
  cases hlist : sortedFiles candidates with
  | nil =>
    refine ⟨[], _, rfl, ascending_nil, fun x => ?_, rfl, hlists.1, hlists.2⟩
    rw [missing_iff, hlist]
    exact iff_of_false (not_covered_nil x) fun ⟨⟨r, hr, _⟩, _⟩ => nomatch hr
  | cons first rest =>
    have hsorted := sorted_sortedFiles candidates
    rw [hlist] at hsorted
    refine ⟨gaps first.max rest, _, rfl, ascending_gaps hsorted.tail _,
      covered_gaps_iff_missing hlist, ?_⟩
    dsimp only
    rw [sweep_fst]
    refine ⟨rfl, ?_, ?_⟩
    · show (candidates.foldl scan ({}, [])).1.holes ++ _ = _
      rw [hlists.1]
      rfl
    · show (candidates.foldl scan ({}, [])).1.retained ++ _ = _
      rw [hlists.2]
      rfl

/-- A floor is known where there is a snapshot. -/
theorem floorKnown_iff (candidates : List RestorePlanCandidate) :
    (computeLTXCoverage candidates).floorKnown = true ↔ HasSnapshot candidates := by
  obtain ⟨l, c, rfl, -, -, hknown, -⟩ := computeLTXCoverage_eq candidates
  rw [hknown, (floor_scan candidates _ 0).1]
  exact or_iff_right nofun

/-- **Holes and retained ranges**, txid by txid. -/
theorem covered_coverage (candidates : List RestorePlanCandidate) (x : UInt64) :
    (Covered (computeLTXCoverage candidates).holes x ↔
      Missing candidates x ∧ (HasSnapshot candidates → AboveFloor candidates x)) ∧
    (Covered (computeLTXCoverage candidates).retained x ↔
      Missing candidates x ∧ HasSnapshot candidates ∧ ¬ AboveFloor candidates x) := by
  have hknown := floorKnown_iff candidates
  obtain ⟨l, c, rfl, -, hcov, hknown', hholes, hretained⟩ := computeLTXCoverage_eq candidates
  rw [hknown'] at hknown
  have habove := (floor_scan candidates ({}, []) x).2
  rw [or_iff_right (fun h => nomatch h.1)] at habove
  rw [hholes, hretained, covered_flatMap, covered_flatMap, ← hcov]
  simp only [covered_holesOf, covered_retainedOf]
  constructor
  · constructor
    · rintro ⟨r, hr, hx, hfloor⟩
      exact ⟨⟨r, hr, hx⟩, fun hsnap => habove.mp ⟨hknown.mpr hsnap, hfloor (hknown.mpr hsnap)⟩⟩
    · rintro ⟨⟨r, hr, hx⟩, hfloor⟩
      exact ⟨r, hr, hx, fun h => (habove.mpr (hfloor (hknown.mp h))).2⟩
  · grind [Covered, AboveFloor]

theorem ascending_holes (candidates : List RestorePlanCandidate) :
    Ascending (computeLTXCoverage candidates).holes := by
  obtain ⟨l, c, -, hasc, -, -, hholes, -⟩ := computeLTXCoverage_eq candidates
  rw [hholes]
  exact hasc.flatMap (fun r hr => (holesOf_within (hasc.nonempty r hr)).1)
    fun r hr => (holesOf_within (hasc.nonempty r hr)).2

theorem ascending_retained (candidates : List RestorePlanCandidate) :
    Ascending (computeLTXCoverage candidates).retained := by
  obtain ⟨l, c, -, hasc, -, -, -, hretained⟩ := computeLTXCoverage_eq candidates
  rw [hretained]
  exact hasc.flatMap (fun r hr => (retainedOf_within (hasc.nonempty r hr)).1)
    fun r hr => (retainedOf_within (hasc.nonempty r hr)).2

/-- No txid is in both lists. -/
theorem ascending_coverage (candidates : List RestorePlanCandidate) :
    Ascending ((computeLTXCoverage candidates).retained ++
      (computeLTXCoverage candidates).holes) := by
  have hholes := ascending_holes candidates
  have hretained := ascending_retained candidates
  refine hretained.append hholes fun r hr o ho => ?_
  have hend := (covered_coverage candidates r.max).2.mp ⟨r, hr, hretained.nonempty r hr, le_rfl⟩
  have hbegin := (covered_coverage candidates o.min).1.mp ⟨o, ho, le_rfl, hholes.nonempty o ho⟩
  by_contra hge
  obtain ⟨f, hf, hlevel, hmax⟩ := hbegin.2 hend.2.1
  exact hend.2.2 ⟨f, hf, hlevel, le_trans hmax (not_lt.mp hge)⟩

theorem covered_retained_append_holes (candidates : List RestorePlanCandidate) (x : UInt64) :
    Covered ((computeLTXCoverage candidates).retained ++ (computeLTXCoverage candidates).holes) x ↔
      Missing candidates x := by
  rw [covered_append, (covered_coverage candidates x).1, (covered_coverage candidates x).2]
  tauto

/-! ## §6 — the check -/

variable {second first : ReplicaLTXListing}

/-- The listing was read to its end without an error (`listReplicaLTX` sets `complete` only
without one) and has files. -/
def Whole (listing : ReplicaLTXListing) : Prop :=
  listing.err = [] ∧ listing.complete = true ∧ listing.candidates ≠ []

/-- A listing has no problem exactly if it is whole. -/
theorem ltxListingProblem_eq_nil (listing : ReplicaLTXListing) :
    ltxListingProblem listing = [] ↔ Whole listing := by
  unfold ltxListingProblem Whole
  split
  · next herr => exact iff_of_false herr fun h => herr h.1
  · next herr =>
    rw [not_not] at herr
    rw [herr]
    split
    · next hpart =>
      rw [Bool.not_eq_true'] at hpart
      simp [hpart, text]
    · next hall =>
      split
      · next hnone => simp [hnone, text]
      · next hsome => simpa [hsome] using hall

/-- Two whole listings with a hole are compared. -/
theorem runLTXCoverageCheck_of_whole (hfirst : Whole first)
    (hsecond : Whole second) (hholes : (computeLTXCoverage first.candidates).holes ≠ []) :
    runLTXCoverageCheck first second =
      { first := computeLTXCoverage first.candidates
        second := computeLTXCoverage second.candidates
        relisted := true
        confirmed := inter (computeLTXCoverage first.candidates).holes
          (computeLTXCoverage second.candidates).holes } := by
  unfold runLTXCoverageCheck
  simp only [(ltxListingProblem_eq_nil first).mpr hfirst,
    (ltxListingProblem_eq_nil second).mpr hsecond, ne_eq, not_true_eq_false, if_false,
      if_neg hholes]
  rfl

/-- In all other cases nothing is confirmed. -/
theorem confirmed_eq_nil
    (h : ¬ (Whole first ∧ Whole second ∧ (computeLTXCoverage first.candidates).holes ≠ [])) :
    (runLTXCoverageCheck first second).confirmed = [] := by
  unfold runLTXCoverageCheck
  dsimp only
  split
  · rfl
  · next hfirst =>
    rw [not_not, ltxListingProblem_eq_nil] at hfirst
    split
    · rfl
    · next hholes =>
      split
      · rfl
      · grind [ltxListingProblem_eq_nil]

/-- A non-empty list of ranges has a txid. -/
theorem exists_covered_iff (h : Ascending l) : (∃ x, Covered l x) ↔ l ≠ [] := by
  constructor
  · rintro ⟨x, r, hr, -⟩ hnil
    rw [hnil] at hr
    exact nomatch hr
  · intro hne
    obtain ⟨r, hr⟩ := exists_mem_of_ne_nil l hne
    exact ⟨r.min, r, hr, le_rfl, h.nonempty r hr⟩

/-- A txid is confirmed missing if both listings miss it. -/
theorem confirmed_exact (hfirst : Whole first)
    (hsecond : Whole second) :
    Ascending (runLTXCoverageCheck first second).confirmed ∧
      ∀ x, Covered (runLTXCoverageCheck first second).confirmed x ↔
        Covered (computeLTXCoverage first.candidates).holes x ∧
          Covered (computeLTXCoverage second.candidates).holes x := by
  by_cases hholes : (computeLTXCoverage first.candidates).holes = []
  · grind [confirmed_eq_nil, ascending_nil, not_covered_nil]
  · grind [runLTXCoverageCheck_of_whole, ascending_inter, ascending_holes, covered_inter]

/-- When the check fails. -/
theorem failed_iff (o : LTXCoverageOutcome) :
    (ltxCoverageResult o).status = .failed ↔
      o.err = [] ∧ o.confirmed ≠ [] ∧ o.first.floorKnown = true ∧ o.second.floorKnown = true := by
  unfold ltxCoverageResult LTXCoverageOutcome.floorUnknown
  cases o.first.floorKnown <;> cases o.second.floorKnown <;> cases o.confirmed <;>
    by_cases herr : o.err = [] <;> simp [herr]

/-- **The coverage of a listing is exact, and so is the check.** The retained ranges and then the
holes are in ascending order without overlap and contain the missing txids; the holes contain those
at or above the smallest L9 end, or all where there is no L9 file. The check fails on a pair of
listings that are whole, have an L9 file each and share a missing txid above both floors, and then
the confirmed ranges contain the shared ones. -/
theorem ltx_coverage_exact :
    (∀ candidates : List RestorePlanCandidate,
      Ascending ((computeLTXCoverage candidates).retained ++
        (computeLTXCoverage candidates).holes) ∧
      (∀ x, Covered ((computeLTXCoverage candidates).retained ++
        (computeLTXCoverage candidates).holes) x ↔ Missing candidates x) ∧
      ∀ x, Covered (computeLTXCoverage candidates).holes x ↔
        Missing candidates x ∧ (HasSnapshot candidates → AboveFloor candidates x)) ∧
    ∀ first second : ReplicaLTXListing,
      ((ltxCoverageResult (runLTXCoverageCheck first second)).status = .failed ↔
        Whole first ∧ Whole second ∧ HasSnapshot first.candidates ∧
          HasSnapshot second.candidates ∧
          ∃ x, Covered (computeLTXCoverage first.candidates).holes x ∧
            Covered (computeLTXCoverage second.candidates).holes x) ∧
      (Whole first ∧ Whole second →
        Ascending (runLTXCoverageCheck first second).confirmed ∧
        ∀ x, Covered (runLTXCoverageCheck first second).confirmed x ↔
          Covered (computeLTXCoverage first.candidates).holes x ∧
            Covered (computeLTXCoverage second.candidates).holes x) := by
  refine ⟨fun candidates => ⟨ascending_coverage candidates,
    covered_retained_append_holes candidates, fun x => (covered_coverage candidates x).1⟩,
    fun first second => ⟨?_, fun h => confirmed_exact h.1 h.2⟩⟩
  rw [failed_iff, ← floorKnown_iff, ← floorKnown_iff]
  constructor
  · rintro ⟨-, hconfirmed, hknown⟩
    by_cases hrun : Whole first ∧ Whole second ∧ (computeLTXCoverage first.candidates).holes ≠ []
    · have hexact := confirmed_exact hrun.1 hrun.2.1
      obtain ⟨x, hx⟩ := (exists_covered_iff hexact.1).mpr hconfirmed
      rw [runLTXCoverageCheck_of_whole hrun.1 hrun.2.1 hrun.2.2] at hknown
      exact ⟨hrun.1, hrun.2.1, hknown.1, hknown.2, x, (hexact.2 x).mp hx⟩
    · exact absurd (confirmed_eq_nil hrun) hconfirmed
  · rintro ⟨hfirst, hsecond, hknown, hknown', x, hx⟩
    have hexact := confirmed_exact hfirst hsecond
    have hconfirmed := (exists_covered_iff hexact.1).mp ⟨x, (hexact.2 x).mpr hx⟩
    have hholes := (exists_covered_iff (ascending_holes first.candidates)).mp ⟨x, hx.1⟩
    refine ⟨?_, hconfirmed, ?_⟩
    · rw [runLTXCoverageCheck_of_whole hfirst hsecond hholes]
    · rw [runLTXCoverageCheck_of_whole hfirst hsecond hholes]
      exact ⟨hknown, hknown'⟩

end LitestreamSoak.Worker.LTX
