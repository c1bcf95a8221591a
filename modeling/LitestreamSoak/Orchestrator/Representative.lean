import LitestreamSoak.Orchestrator.Reliability

/-!
# Orchestrator — the incidents a summary shows

`selectRepresentativeIncidents` cuts a list of incidents down to `limit`. It orders them by time and
marks positions in three passes that share one budget: the earliest unexpected incident of each
kind, then the newest incidents, then whatever the budget still allows, unexpected ones first.
-/

namespace LitestreamSoak.Orchestrator.Representative

open Lib Orchestrator.Reliability List

/-! ## §1 — the passes -/

def reliabilityRecentIncidents : Nat := 10

def ordered (incidents : List RunIncident) : List RunIncident :=
  incidents.insertionSort fun a b => a.time ≤ b.time

/-- The passes, over one set of positions. -/
def keepFirstOfKind (limit : Nat) :
    List (RunIncident × Nat) → List Text → Finset Nat → Finset Nat
  | [], _, keep => keep
  | (incident, i) :: rest, kinds, keep =>
    if limit ≤ keep.card then keep
    else if limit - reliabilityRecentIncidents ≤ keep.card then keep
    else if incident.classification = .unexpected ∧ incident.kind ∉ kinds then
      keepFirstOfKind limit rest (incident.kind :: kinds) (insert i keep)
    else keepFirstOfKind limit rest kinds keep

def keepRecent (limit : Nat) : List Nat → Nat → Finset Nat → Finset Nat
  | [], _, keep => keep
  | i :: rest, recent, keep =>
    if recent < reliabilityRecentIncidents ∧ keep.card < limit then
      if i ∈ keep then keepRecent limit rest recent keep
      else keepRecent limit rest (recent + 1) (insert i keep)
    else keep

def keepFill (limit : Nat) (wanted : Nat → Bool) : List Nat → Finset Nat → Finset Nat
  | [], keep => keep
  | i :: rest, keep =>
    if keep.card < limit then keepFill limit wanted rest (if wanted i then insert i keep else keep)
    else keep

def isUnexpected (incidents : List RunIncident) (i : Nat) : Bool :=
  incidents[i]?.any fun incident => incident.classification = .unexpected

def kept (incidents : List RunIncident) (limit : Nat) : Finset Nat :=
  -- the last two passes go from the newest incident to the oldest
  let newest := (range incidents.length).reverse
  let keep := keepFirstOfKind limit incidents.zipIdx [] ∅
  let keep := keepRecent limit newest 0 keep
  [true, false].foldl (fun keep unexpected =>
    keepFill limit (fun i => isUnexpected incidents i == unexpected) newest keep) keep

def pick (incidents : List RunIncident) (keep : Finset Nat) : List RunIncident :=
  (incidents.zipIdx.filter fun p => p.2 ∈ keep).map Prod.fst

def selectRepresentativeIncidents (incidents : List RunIncident) (limit : Nat) :
    List RunIncident :=
  pick (ordered incidents) (kept (ordered incidents) limit)

/-! ## §2 — what a pass does -/

variable {limit i : Nat} {is : List Nat} {keep out : Finset Nat}

/-- A pass over the positions `is` marks some of them and keeps to the budget. -/
structure Fills (limit : Nat) (is : List Nat) (keep out : Finset Nat) : Prop where
  grows : keep ⊆ out
  from_list : ∀ i ∈ out, i ∈ keep ∨ i ∈ is
  budget : keep.card ≤ limit → out.card ≤ limit

theorem Fills.refl (limit : Nat) (is : List Nat) (keep : Finset Nat) : Fills limit is keep keep :=
  ⟨Finset.Subset.refl _, fun _ hi => .inl hi, id⟩

theorem Fills.skip (h : Fills limit is keep out) : Fills limit (i :: is) keep out :=
  ⟨h.grows, fun j hj => (h.from_list j hj).imp_right (mem_cons_of_mem _), h.budget⟩

theorem Fills.mark (h : Fills limit is (insert i keep) out) (hroom : keep.card < limit) :
    Fills limit (i :: is) keep out := by
  refine ⟨fun j hj => h.grows (Finset.mem_insert_of_mem hj), fun j hj => ?_, fun _ => ?_⟩
  · rcases h.from_list j hj with hmem | his
    · grind
    · exact .inr (mem_cons_of_mem _ his)
  · apply h.budget
    have hcard := Finset.card_insert_le i keep
    omega

theorem Fills.trans {mid : Finset Nat} (h : Fills limit is keep mid)
    (h' : Fills limit is mid out) : Fills limit is keep out := by
  refine ⟨h.grows.trans h'.grows, fun i hi => ?_, fun hcard => h'.budget (h.budget hcard)⟩
  exact (h'.from_list i hi).elim (h.from_list i) .inr

theorem fills_keepFirstOfKind (limit : Nat) (l : List (RunIncident × Nat)) (kinds : List Text)
    (keep : Finset Nat) : Fills (limit - reliabilityRecentIncidents) (l.map Prod.snd) keep
      (keepFirstOfKind limit l kinds keep) := by
  induction l generalizing kinds keep with
  | nil => exact .refl _ _ _
  | cons p rest ih =>
    unfold keepFirstOfKind
    split_ifs with hfull hshare hnew
    · exact .refl _ _ _
    · exact .refl _ _ _
    · exact (ih _ _).mark (Nat.lt_of_not_le hshare)
    · exact (ih _ _).skip

theorem fills_keepRecent (limit : Nat) (is : List Nat) (recent : Nat) (keep : Finset Nat) :
    Fills limit is keep (keepRecent limit is recent keep) := by
  induction is generalizing recent keep with
  | nil => exact .refl _ _ _
  | cons i rest ih =>
    unfold keepRecent
    split_ifs with hroom hmem
    · exact (ih _ _).skip
    · exact (ih _ _).mark hroom.2
    · exact .refl _ _ _

theorem fills_keepFill (limit : Nat) (wanted : Nat → Bool) (is : List Nat) (keep : Finset Nat) :
    Fills limit is keep (keepFill limit wanted is keep) := by
  induction is generalizing keep with
  | nil => exact .refl _ _ _
  | cons i rest ih =>
    unfold keepFill
    split_ifs with hroom hwanted
    · exact (ih _).mark hroom
    · exact (ih _).skip
    · exact .refl _ _ _

theorem mem_keepRecent {recent n : Nat} (hn : recent + n = reliabilityRecentIncidents)
    (hroom : keep.card + n ≤ limit) (hi : i ∈ is.take n) :
    i ∈ keepRecent limit is recent keep := by
  induction is generalizing recent n keep with
  | nil =>
    rw [take_nil] at hi
    cases hi
  | cons j rest ih =>
    cases n with
    | zero => cases hi
    | succ n =>
      have hrest : i = j ∨ i ∈ rest.take n := mem_cons.mp hi
      unfold keepRecent
      rw [if_pos (by omega)]
      split_ifs with hmem
      · rcases hrest with rfl | hrest
        · exact (fills_keepRecent _ _ _ _).grows hmem
        · -- a position that is already marked does not count as a recent one
          exact ih hn hroom (take_subset_take_left rest (Nat.le_succ n) hrest)
      · rcases hrest with rfl | hrest
        · exact (fills_keepRecent _ _ _ _).grows (Finset.mem_insert_self _ _)
        · have hcard := Finset.card_insert_le j keep
          exact ih (by omega) (by omega) hrest

theorem mem_keepFill {wanted : Nat → Bool} (hi : i ∈ is) (hwanted : wanted i = true)
    (hroom : (keepFill limit wanted is keep).card < limit) :
    i ∈ keepFill limit wanted is keep := by
  induction is generalizing keep with
  | nil => cases hi
  | cons j rest ih =>
    unfold keepFill at hroom ⊢
    split_ifs at hroom ⊢ with hmore hj
    · rcases mem_cons.mp hi with rfl | hrest
      · exact (fills_keepFill _ _ _ _).grows (Finset.mem_insert_self _ _)
      · exact ih hrest hroom
    · grind
    · exact absurd hroom hmore

/-- The positions of the earliest unexpected incident of each kind that is not in `kinds`, in time
order. -/
def earliestOfKinds : List (RunIncident × Nat) → List Text → List Nat
  | [], _ => []
  | (incident, i) :: rest, kinds =>
    if incident.classification = .unexpected ∧ incident.kind ∉ kinds then
      i :: earliestOfKinds rest (incident.kind :: kinds)
    else earliestOfKinds rest kinds

theorem mem_keepFirstOfKind {l : List (RunIncident × Nat)} {kinds : List Text} {n : Nat}
    (hroom : keep.card + n ≤ limit - reliabilityRecentIncidents)
    (hi : i ∈ (earliestOfKinds l kinds).take n) : i ∈ keepFirstOfKind limit l kinds keep := by
  induction l generalizing kinds n keep with
  | nil =>
    rw [earliestOfKinds, take_nil] at hi
    cases hi
  | cons p rest ih =>
    cases n with
    | zero => cases hi
    | succ n =>
      unfold earliestOfKinds at hi
      unfold keepFirstOfKind
      rw [if_neg (by omega), if_neg (by omega)]
      split_ifs at hi ⊢ with hnew
      · rcases mem_cons.mp hi with rfl | hrest
        · exact (fills_keepFirstOfKind _ _ _ _).grows (Finset.mem_insert_self _ _)
        · have hcard := Finset.card_insert_le p.2 keep
          exact ih (by omega) hrest
      · exact ih hroom hi

/-! ## §3 — the selection -/

variable {incidents : List RunIncident}

theorem pick_sublist (incidents : List RunIncident) (keep : Finset Nat) :
    (pick incidents keep).Sublist incidents := by
  grind [filter_sublist, zipIdx_map_fst, pick]

/-- More positions pick more incidents. -/
theorem pick_sublist_pick (h : keep ⊆ out) :
    (pick incidents keep).Sublist (pick incidents out) := by
  refine Sublist.map _ (monotone_filter_right _ fun p hp => ?_)
  rw [decide_eq_true_eq] at hp ⊢
  exact h hp

/-- Where all positions from `n` on are kept, the incidents from there on end the selection. -/
theorem drop_suffix_pick {n : Nat} (h : ∀ i < incidents.length, n ≤ i → i ∈ keep) :
    incidents.drop n <:+ pick incidents keep := by
  have hkeep : ∀ p ∈ incidents.zipIdx.drop n, decide (p.2 ∈ keep) = true := by
    rintro ⟨incident, i⟩ hp
    obtain ⟨k, hk⟩ := mem_iff_getElem?.mp hp
    rw [getElem?_drop, getElem?_zipIdx, Option.map_eq_some_iff] at hk
    obtain ⟨_, hget, hpair⟩ := hk
    have hi : i = n + k := (congrArg Prod.snd hpair).symm.trans (Nat.zero_add _)
    exact decide_eq_true (hi ▸ h _ (List.getElem?_eq_some_iff.mp hget).1 (Nat.le_add_right n k))
  have hsuffix := ((drop_suffix n incidents.zipIdx).filter fun p => p.2 ∈ keep).map Prod.fst
  rwa [filter_eq_self.mpr hkeep, map_drop, zipIdx_map_fst] at hsuffix

theorem length_pick (h : ∀ i ∈ keep, i < incidents.length) :
    (pick incidents keep).length = keep.card := by
  have hset : ((range incidents.length).filter fun i => i ∈ keep).toFinset = keep := by
    ext i
    simpa using h i
  have hnodup := (nodup_range (n := incidents.length)).filter fun i => decide (i ∈ keep)
  rw [← congrArg Finset.card hset, toFinset_card_of_nodup hnodup, pick, length_map,
    ← countP_eq_length_filter, ← countP_eq_length_filter, range_eq_range',
    ← zipIdx_map_snd 0 incidents, countP_map]
  rfl

/-- The passes fill the budget exactly, with the share of each in it. -/
theorem kept_spec (hlimit : reliabilityRecentIncidents ≤ limit) (hlong : limit < incidents.length) :
    (kept incidents limit).card = limit ∧ (∀ i ∈ kept incidents limit, i < incidents.length) ∧
      keepFirstOfKind limit incidents.zipIdx [] ∅ ⊆ kept incidents limit ∧
      ∀ i < incidents.length, incidents.length ≤ i + reliabilityRecentIncidents →
        i ∈ kept incidents limit := by
  have hfirst := fills_keepFirstOfKind limit incidents.zipIdx [] ∅
  generalize hk₁ : keepFirstOfKind limit incidents.zipIdx [] ∅ = k₁ at hfirst
  generalize hnewest : (range incidents.length).reverse = newest
  have hmem : ∀ i, i ∈ newest ↔ i < incidents.length := by simp [← hnewest]
  have hrecent := fills_keepRecent limit newest 0 k₁
  generalize hk₂ : keepRecent limit newest 0 k₁ = k₂ at hrecent
  have hunexpected :=
    fills_keepFill limit (fun i => isUnexpected incidents i == true) newest k₂
  generalize hk₃ : keepFill limit (fun i => isUnexpected incidents i == true) newest k₂ = k₃
    at hunexpected
  have hothers := fills_keepFill limit (fun i => isUnexpected incidents i == false) newest k₃
  have hkept : kept incidents limit =
      keepFill limit (fun i => isUnexpected incidents i == false) newest k₃ := by
    rw [← hk₃, ← hk₂, ← hk₁, ← hnewest]
    rfl
  rw [← hkept] at hothers
  have hrest := hunexpected.trans hothers
  have hshare : k₁.card ≤ limit - reliabilityRecentIncidents := hfirst.budget (Nat.zero_le _)
  refine ⟨?_, fun i hi => ?_, (hrecent.trans hrest).grows, fun i hi hnew => hrest.grows ?_⟩
  · apply Nat.le_antisymm ((hrecent.trans hrest).budget (by omega))
    by_contra hroom
    have hroom : (kept incidents limit).card < limit := by omega
    -- with room left the last two passes have marked every position
    have hall : Finset.range incidents.length ⊆ kept incidents limit := by
      intro i hi
      have hi : i ∈ newest := (hmem i).mpr (Finset.mem_range.mp hi)
      cases hkind : isUnexpected incidents i with
      | true =>
        apply hothers.grows
        rw [← hk₃]
        refine mem_keepFill hi (by simp [hkind]) ?_
        rw [hk₃]
        exact lt_of_le_of_lt (Finset.card_le_card hothers.grows) hroom
      | false =>
        rw [hkept] at hroom ⊢
        exact mem_keepFill hi (by simp [hkind]) hroom
    have hcard := Finset.card_le_card hall
    rw [Finset.card_range] at hcard
    omega
  · rcases (hrecent.trans hrest).from_list i hi with hmem₁ | hlist
    · have hpos := (hfirst.from_list i hmem₁).resolve_left (Finset.notMem_empty i)
      rw [zipIdx_map_snd] at hpos
      simpa using hpos
    · exact (hmem i).mp hlist
  · rw [← hk₂]
    refine mem_keepRecent (n := reliabilityRecentIncidents) (Nat.zero_add _) (by omega) ?_
    grind [take_reverse, range_eq_range']

instance totalTime : Std.Total fun a b : RunIncident => a.time ≤ b.time :=
  ⟨fun a b => le_total a.time b.time⟩

instance transTime : IsTrans RunIncident fun a b => a.time ≤ b.time :=
  ⟨fun _ _ _ => le_trans⟩

theorem filter_ordered (incidents : List RunIncident) (time : Int) :
    (ordered incidents).filter (·.time = time) = incidents.filter (·.time = time) := by
  have hsame : (incidents.filter (·.time = time)).Pairwise fun a b => a.time ≤ b.time := by
    refine pairwise_of_forall_mem_list fun a ha b hb => ?_
    simp only [mem_filter, decide_eq_true_eq] at ha hb
    exact le_of_eq (ha.2.trans hb.2.symm)
  have hsub := (sublist_insertionSort hsame filter_sublist).filter (·.time = time)
  rw [filter_filter] at hsub
  simp only [Bool.and_self] at hsub
  have hperm := (perm_insertionSort (fun a b : RunIncident => a.time ≤ b.time) incidents).filter
    (·.time = time)
  exact (hsub.eq_of_length hperm.length_eq.symm).symm

/-- **The selection.** From more incidents than the limit exactly `limit` are selected. They are a
sub-list of the incidents in stable time order, which the ten newest end and which holds the
earliest unexpected incident of each of the first `limit - 10` unexpected kinds; both stand there
by one choice of positions. -/
theorem selectRepresentativeIncidents_spec (incidents : List RunIncident) (limit : Nat)
    (hlimit : 10 ≤ limit) (hlong : limit < incidents.length) :
    let sorted := ordered incidents
    let selected := selectRepresentativeIncidents incidents limit
    sorted.Perm incidents ∧ sorted.Pairwise (·.time ≤ ·.time) ∧
      (∀ time, sorted.filter (·.time = time) = incidents.filter (·.time = time)) ∧
      selected.length = limit ∧ selected.Sublist sorted ∧
      sorted.drop (sorted.length - 10) <:+ selected ∧
      (pick sorted ((earliestOfKinds sorted.zipIdx []).take (limit - 10)).toFinset).Sublist
        selected ∧
      ∃ keep : Finset Nat, selected = pick sorted keep ∧
        (∀ i < sorted.length, sorted.length ≤ i + 10 → i ∈ keep) ∧
        ∀ i ∈ (earliestOfKinds sorted.zipIdx []).take (limit - 10), i ∈ keep := by
  intro sorted selected
  have hlength : limit < sorted.length := by
    rw [show sorted.length = incidents.length from length_insertionSort _ _]
    exact hlong
  obtain ⟨hcard, hbound, hfirst, hnewest⟩ := kept_spec hlimit hlength
  have hearliest : ∀ i ∈ (earliestOfKinds sorted.zipIdx []).take (limit - 10),
      i ∈ kept sorted limit := by
    intro i hi
    refine hfirst (mem_keepFirstOfKind ?_ hi)
    rw [Finset.card_empty, Nat.zero_add]
    rfl
  refine ⟨perm_insertionSort _ _, pairwise_insertionSort _ _, filter_ordered _,
    (length_pick hbound).trans hcard, pick_sublist _ _,
    drop_suffix_pick fun i hi hn => hnewest i hi ?_,
    pick_sublist_pick fun i hi => hearliest i (mem_toFinset.mp hi),
    kept sorted limit, rfl, hnewest, hearliest⟩
  show sorted.length ≤ i + 10
  omega

/-- Of fourteen incidents twelve are selected: the ten newest and the earliest of the two kinds,
not the maintenance before and not the second of a kind. -/
theorem selectRepresentativeIncidents_fourteen :
    let incidents := (range 14).map fun n =>
      (⟨.event n, n, if n = 2 then text "stall" else text "crash",
        if n = 1 then .maintenance else .unexpected, true⟩ : RunIncident)
    (selectRepresentativeIncidents incidents 12).length = 12 ∧
      ((selectRepresentativeIncidents incidents 12).map (·.time)) =
        0 :: 2 :: (range' 4 10).map (↑) := by
  intro incidents
  have hspec := selectRepresentativeIncidents_spec incidents 12 (by decide) (by decide)
  exact ⟨hspec.2.2.2.1, by decide⟩

end LitestreamSoak.Orchestrator.Representative
