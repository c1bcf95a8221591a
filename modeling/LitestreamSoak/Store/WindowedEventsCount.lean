import LitestreamSoak.Lib.Keyed
import LitestreamSoak.Store.WindowedEvents

/-!
# Store — a line read again is counted once, while its row is near

Rows of one kind are more than a window apart (`Shape.spaced`): a line opens a row only where no
row is in its window, and a row that moves with a line moves away from the rows before it and
stays out of the window of the rows behind. So the row that remembers a line is the one the line
finds again, as long as it is in the line's window at all (`record_shape`). A row moves on with
every line it takes in, though, and after enough of them it has left the window of its first
lines: these find nothing when they are read again, and are counted a second time.

The count is exact if and only if that does not happen (`platform_lines_counted_iff`).
-/

namespace LitestreamSoak.Store.WindowedEvents

open Lib List

variable {Details Digest : Type} {c : EventCodec Details Digest}

/-! ## §1 — the rows of a kind -/

variable {t : EventTable Details Digest} {kind : EventKind} {createdAt window : Int}
  {row : Event Details Digest}

def rowKeys (kind : EventKind) (row : Event Details Digest) : List (OccurrenceKey Digest) :=
  if row.kind = kind then row.keys else []

def allKeys (kind : EventKind) (t : EventTable Details Digest) : List (OccurrenceKey Digest) :=
  t.rows.flatMap (rowKeys kind)

theorem mem_allKeys
    {key : OccurrenceKey Digest} :
    key ∈ allKeys kind t ↔ ∃ row ∈ t, row.kind = kind ∧ key ∈ row.keys := by
  rw [allKeys, mem_flatMap]
  constructor
  · intro ⟨row, hrow, hkey⟩
    unfold rowKeys at hkey
    split at hkey
    · next hkind => exact ⟨row, hrow, hkind, hkey⟩
    · exact absurd hkey not_mem_nil
  · intro ⟨row, hrow, hkind, hkey⟩
    exact ⟨row, hrow, by rwa [rowKeys, if_pos hkind]⟩

structure Shape (window : Int) (kind : EventKind) (t : EventTable Details Digest) : Prop where
  spaced : ∀ a ∈ t, ∀ b ∈ t, a.kind = kind → b.kind = kind → a.id ≠ b.id →
    a.createdAt + window < b.createdAt ∨ b.createdAt + window < a.createdAt
  counted : ∀ row ∈ t, row.kind = kind → row.keys ≠ [] ∧ row.occurrences = row.keys.length
  latest : ∀ row ∈ t, row.kind = kind → ∀ key ∈ row.keys, key.time ≤ row.createdAt

theorem newestInWindow_some

    (h : newestInWindow t kind createdAt window = some row) :
    row ∈ t ∧ row.kind = kind ∧
      (createdAt - window ≤ row.createdAt ∧ row.createdAt ≤ createdAt + window) ∧
      ∀ other ∈ t, other.kind = kind → createdAt - window ≤ other.createdAt →
        other.createdAt ≤ createdAt + window → other.createdAt ≤ row.createdAt := by
  obtain ⟨hmem, hselected⟩ := mem_filter.mp (argmax_mem h)
  obtain ⟨hkind, hlow, hhigh⟩ := of_decide_eq_true hselected
  refine ⟨hmem, hkind, ⟨hlow, hhigh⟩, fun other hother hk hl hh => ?_⟩
  exact le_of_mem_argmax
    (mem_filter.mpr ⟨hother, decide_eq_true ⟨hk, hl, hh⟩⟩) h

theorem newestInWindow_none (h : newestInWindow t kind createdAt window = none) (hrow : row ∈ t)
    (hkind : row.kind = kind) :
    row.createdAt < createdAt - window ∨ createdAt + window < row.createdAt := by
  have hempty : windowRows t kind createdAt window = [] := argmax_eq_none.mp h
  by_contra hin
  have hmem : row ∈ windowRows t kind createdAt window :=
    mem_filter.mpr ⟨hrow, decide_eq_true ⟨hkind, by omega, by omega⟩⟩
  rw [hempty] at hmem
  exact absurd hmem not_mem_nil

/-! ## §2 — one line -/

theorem Shape.insertEvent
    (h : Shape window kind t) (details : Details)
    (key : OccurrenceKey Digest) (hkey : key.time = createdAt)
    (hnone : newestInWindow t kind createdAt window = none) :
    Shape window kind (WindowedEvents.insertEvent t kind details createdAt [key]) ∧
    allKeys kind (WindowedEvents.insertEvent t kind details createdAt [key]) =
      allKeys kind t ++ [key] := by
  have hmem : ∀ {row}, row ∈ WindowedEvents.insertEvent t kind details createdAt [key] →
      row ∈ t ∨ row = ⟨t.maxKey + 1, kind, details, createdAt, 1, [key]⟩ := fun hrow =>
    (Table.mem_append t _ _).mp hrow
  refine ⟨⟨?_, ?_, ?_⟩, ?_⟩
  · intro a ha b hb hka hkb hne
    rcases hmem ha with ha | rfl
    · rcases hmem hb with hb | rfl
      · exact h.spaced a ha b hb hka hkb hne
      · rcases newestInWindow_none hnone ha hka with hlow | hhigh
        · left; show a.createdAt + window < createdAt; omega
        · right; exact hhigh
    · rcases hmem hb with hb | rfl
      · rcases newestInWindow_none hnone hb hkb with hlow | hhigh
        · right; show b.createdAt + window < createdAt; omega
        · left; exact hhigh
      · exact absurd rfl hne
  · grind [Shape.counted]
  · intro row hrow hkind k hk
    rcases hmem hrow with hrow | rfl
    · exact h.latest row hrow hkind k hk
    · rw [mem_singleton.mp hk]
      exact hkey.le
  · show (t.rows ++ [_]).flatMap (rowKeys kind) = _
    rw [flatMap_append, flatMap_singleton, rowKeys, if_pos rfl]
    rfl

section CountInto

variable (row : Event Details Digest) (details : Details) (createdAt : Int)
  (keys : List (OccurrenceKey Digest))

@[simp] theorem countInto_kind : (countInto row details createdAt keys).kind = row.kind := by
  unfold countInto; split <;> rfl

@[simp] theorem countInto_keys : (countInto row details createdAt keys).keys = keys := by
  unfold countInto; split <;> rfl

@[simp] theorem countInto_occurrences :
    (countInto row details createdAt keys).occurrences = row.occurrences + 1 := by
  unfold countInto; split <;> rfl

theorem countInto_createdAt :
    (countInto row details createdAt keys).createdAt = max row.createdAt createdAt := by
  grind [countInto]

end CountInto

variable {existing : Event Details Digest}

theorem mem_mergeEvent
    (hexisting : existing ∈ t) {details : Details}
    {keys : List (OccurrenceKey Digest)}
    (hrow : row ∈ mergeEvent t existing.id details createdAt keys) :
    row ∈ t ∧ row.id ≠ existing.id ∨ row = countInto existing details createdAt keys := by
  obtain ⟨old, hold, rfl⟩ := (Table.mem_update t _ _).mp hrow
  grind [Table.eq_of_key_eq]

theorem Shape.mergeEvent
    (h : Shape window kind t) (details : Details)
    (key : OccurrenceKey Digest) (hkey : key.time = createdAt)
    (hsome : newestInWindow t kind createdAt window = some existing) :
    Shape window kind
      (WindowedEvents.mergeEvent t existing.id details createdAt (existing.keys ++ [key])) ∧
    (allKeys kind
      (WindowedEvents.mergeEvent t existing.id details createdAt (existing.keys ++ [key]))).Perm
      (key :: allKeys kind t) := by
  obtain ⟨hin, hkind, ⟨hlow, hhigh⟩, hnewest⟩ := newestInWindow_some hsome
  -- the other rows keep their distance from the row as it moves to the line
  have hapart : ∀ other ∈ t, other.kind = kind → other.id ≠ existing.id →
      other.createdAt + window < max existing.createdAt createdAt ∨
        max existing.createdAt createdAt + window < other.createdAt := by
    intro other hother hk hne
    have hspaced := h.spaced other hother existing hin hk hkind hne
    have hlate := hnewest other hother hk
    omega
  refine ⟨⟨?_, ?_, ?_⟩, ?_⟩
  · intro a ha b hb hka hkb hne
    rcases mem_mergeEvent hin ha with ⟨ha, hida⟩ | rfl
    · rcases mem_mergeEvent hin hb with ⟨hb, hidb⟩ | rfl
      · exact h.spaced a ha b hb hka hkb hne
      · rw [countInto_createdAt]
        exact hapart a ha hka hida
    · grind [mem_mergeEvent, countInto_createdAt]
  · intro row hrow hk
    rcases mem_mergeEvent hin hrow with ⟨hrow, _⟩ | rfl
    · exact h.counted row hrow hk
    · rw [countInto_keys, countInto_occurrences, (h.counted existing hin hkind).2]
      simp
  · intro row hrow hk k hmem
    rcases mem_mergeEvent hin hrow with ⟨hrow, _⟩ | rfl
    · exact h.latest row hrow hk k hmem
    · rw [countInto_keys] at hmem
      rw [countInto_createdAt]
      rcases mem_append.mp hmem with hmem | hmem
      · exact le_max_of_le_left (h.latest existing hin hkind k hmem)
      · rw [mem_singleton.mp hmem, hkey]
        exact le_max_right _ _
  · refine perm_flatMap_replace (rowKeys kind)
      (fun row => countInto row details createdAt (existing.keys ++ [key])) ?_ hin ?_
    · exact pairwise_map.mpr (t.ascending.imp fun hlt => Nat.ne_of_lt hlt)
    · rw [rowKeys, rowKeys, countInto_kind, countInto_keys, if_pos hkind, if_pos hkind]

/-! ## §3 — one delivery -/

section Record

variable [DecidableEq Digest] {window : Int} {kind : EventKind} {t : EventTable Details Digest}
variable {d : Delivery c}

def Delivery.key (d : Delivery c) : OccurrenceKey Digest :=
  eventOccurrenceKey c d.line.timestamp d.line.details

def InWindow (window : Int) (t : EventTable Details Digest) (d : Delivery c) : Prop :=
  ∀ row ∈ t.rows, row.kind = d.kind → seenEventOccurrence row.keys d.key = true →
    row.createdAt ≤ d.line.timestamp + window

instance (window : Int) (t : EventTable Details Digest) (d : Delivery c) :
    Decidable (InWindow window t d) :=
  inferInstanceAs (Decidable (∀ row ∈ t.rows, _ → _ → _))

theorem record_eq (hwindow : 0 < window) (h : Shape window kind t)
    (hkind : d.kind = kind) :
    record window t d =
      match newestInWindow t kind d.line.timestamp window with
      | some existing =>
        if seenEventOccurrence existing.keys d.key then t
        else mergeEvent t existing.id d.line.details d.line.timestamp (existing.keys ++ [d.key])
      | none => insertEvent t kind d.line.details d.line.timestamp [d.key] := by
  unfold record recordWindowedEventAt
  rw [if_neg (Int.not_le.mpr hwindow), d.line.plain, hkind]
  cases hsome : newestInWindow t kind d.line.timestamp window with
  | none => rfl
  | some existing =>
    obtain ⟨hin, hk, _⟩ := newestInWindow_some hsome
    have hseeded : seededKeys c existing = existing.keys := by
      rw [seededKeys, if_neg]
      simpa using (h.counted existing hin hk).1
    dsimp only
    rw [hseeded, Bool.or_self]
    by_cases hseen : seenEventOccurrence existing.keys d.key = true
    · rw [if_pos hseen]
      exact congrArg Prod.fst (if_pos hseen)
    · rw [if_neg hseen]
      exact congrArg Prod.fst (if_neg hseen)

theorem Shape.le_of_seen (h : Shape window kind t) {row : Event Details Digest} (hrow : row ∈ t)
    (hkind : row.kind = kind) (hseen : seenEventOccurrence row.keys d.key = true) :
    d.line.timestamp ≤ row.createdAt := by
  obtain ⟨key, hkey, hsame⟩ := any_eq_true.mp hseen
  have htime : key.time = d.line.timestamp := congrArg Prod.fst (of_decide_eq_true hsame)
  rw [← htime]
  exact h.latest row hrow hkind key hkey

/-- **One line delivered.** Either a row in the window remembers it and nothing changes, or it is
counted, and the rows that remember it, if any, have left its window. -/
theorem record_shape (hwindow : 0 < window) (h : Shape window kind t)
    (hkind : d.kind = kind) :
    (record window t d = t ∧ ∃ row ∈ t, row.kind = kind ∧
      row.createdAt ≤ d.line.timestamp + window ∧ seenEventOccurrence row.keys d.key = true) ∨
    (Shape window kind (record window t d) ∧
      (allKeys kind (record window t d)).Perm (d.key :: allKeys kind t) ∧
      ∀ row ∈ t, row.kind = kind → seenEventOccurrence row.keys d.key = true →
        d.line.timestamp + window < row.createdAt) := by
  rw [record_eq hwindow h hkind]
  split
  · next existing hsome =>
    obtain ⟨hin, hk, ⟨_, hhigh⟩, hnewest⟩ := newestInWindow_some hsome
    split
    · next hseen => exact .inl ⟨rfl, existing, hin, hk, hhigh, hseen⟩
    · next hseen =>
      obtain ⟨hshape, hperm⟩ := h.mergeEvent d.line.details d.key rfl hsome
      refine .inr ⟨hshape, hperm, fun row hrow hk' hseen' => ?_⟩
      -- a second row in the window would be within a window of the newest one
      have hne : row.id ≠ existing.id := by
        intro hid
        rw [t.eq_of_key_eq hrow hin hid] at hseen'
        exact hseen hseen'
      have hle := h.le_of_seen hrow hk' hseen'
      have hlate := hnewest row hrow hk'
      have hspaced := h.spaced row hrow existing hin hk' hk hne
      omega
  · next hnone =>
    obtain ⟨hshape, hkeys⟩ := h.insertEvent d.line.details d.key rfl hnone
    refine .inr ⟨hshape, ?_, fun row hrow hk' hseen' => ?_⟩
    · exact (List.Perm.of_eq hkeys).trans (perm_append_singleton _ _)
    · have hle := h.le_of_seen hrow hk' hseen'
      have hout := newestInWindow_none hnone hrow hk'
      omega

end Record

/-! ## §4 — the counts -/

def lines [DecidableEq Details] (kind : EventKind) (ds : List (Delivery c)) :
    Finset (Int × Details) :=
  ((ds.filter fun d => d.kind = kind).map fun d => (d.line.timestamp, d.line.details)).toFinset

/-- **Exact counts.** The rows of a kind have counted each of `lines` once, and those that name a
restore output once as such. -/
structure Counted (c : EventCodec Details Digest) (kind : EventKind)
    (t : EventTable Details Digest) (lines : Finset (Int × Details)) : Prop where
  occurrences : (t.rows.map fun row => if row.kind = kind then row.occurrences else 0).sum =
    lines.card
  restoreOutput : (t.rows.map fun row =>
    if row.kind = kind then restoreOutputOccurrences row.keys else 0).sum =
      (lines.filter fun line => c.restoreOutput line.2).card

structure Tracks (c : EventCodec Details Digest) (window : Int) (kind : EventKind)
    (t : EventTable Details Digest) (lines : Finset (Int × Details)) : Prop where
  shape : Shape window kind t
  nodup : (allKeys kind t).Nodup
  keys : ∀ key, key ∈ allKeys kind t ↔
    ∃ line ∈ lines, key = eventOccurrenceKey c line.1 line.2

theorem length_allKeys
    (h : Shape window kind t) :
    (allKeys kind t).length =
      (t.rows.map fun row => if row.kind = kind then row.occurrences else 0).sum := by
  rw [allKeys, length_flatMap]
  refine congrArg sum (map_congr_left fun row hrow => ?_)
  rw [rowKeys]
  split
  · next hkind => exact (h.counted row hrow hkind).2.symm
  · rfl

theorem countP_allKeys (kind : EventKind) (t : EventTable Details Digest) :
    (allKeys kind t).countP OccurrenceKey.restoreOutput =
      (t.rows.map fun row =>
        if row.kind = kind then restoreOutputOccurrences row.keys else 0).sum := by
  rw [allKeys, countP_flatMap]
  refine congrArg sum (map_congr_left fun row _ => ?_)
  show (rowKeys kind row).countP _ = _
  rw [rowKeys]
  split <;> rfl

theorem eventOccurrenceKey_injective (hdigest : Function.Injective c.digest) :
    Function.Injective fun line : Int × Details => eventOccurrenceKey c line.1 line.2 := by
  intro a b hab
  obtain ⟨htime, hd, _⟩ := OccurrenceKey.mk.inj hab
  exact Prod.ext htime (hdigest hd)

section Counts

variable [DecidableEq Details] [DecidableEq Digest] (hdigest : Function.Injective c.digest)
  {window : Int} {kind : EventKind} {t : EventTable Details Digest}
  {ls : Finset (Int × Details)}

include hdigest

omit [DecidableEq Details] in
theorem Tracks.toCounted (h : Tracks c window kind t ls) : Counted c kind t ls := by
  have hset : (allKeys kind t).toFinset =
      ls.image fun line => eventOccurrenceKey c line.1 line.2 := by
    ext key
    rw [mem_toFinset, h.keys, Finset.mem_image]
    constructor
    · intro ⟨line, hline, heq⟩; exact ⟨line, hline, heq.symm⟩
    · intro ⟨line, hline, heq⟩; exact ⟨line, hline, heq.symm⟩
  refine ⟨?_, ?_⟩
  · rw [← length_allKeys h.shape, ← toFinset_card_of_nodup h.nodup, hset,
      Finset.card_image_of_injective _ (eventOccurrenceKey_injective hdigest)]
  · have hfilter : ((allKeys kind t).filter OccurrenceKey.restoreOutput).toFinset =
        (ls.filter fun line => c.restoreOutput line.2).image fun line =>
          eventOccurrenceKey c line.1 line.2 := by
      rw [toFinset_filter, hset, Finset.filter_image]
      rfl
    rw [← countP_allKeys, countP_eq_length_filter,
      ← toFinset_card_of_nodup (h.nodup.filter _), hfilter,
      Finset.card_image_of_injective _ (eventOccurrenceKey_injective hdigest)]

omit [DecidableEq Details] in
theorem Tracks.seen_iff (h : Tracks c window kind t ls) {row : Event Details Digest}
    (hrow : row ∈ t) (hkind : row.kind = kind) (d : Delivery c) :
    seenEventOccurrence row.keys d.key = true ↔ d.key ∈ row.keys := by
  constructor
  · intro hseen
    obtain ⟨key, hkey, hsame⟩ := any_eq_true.mp hseen
    obtain ⟨line, _, rfl⟩ := (h.keys key).mp (mem_allKeys.mpr ⟨row, hrow, hkind, hkey⟩)
    obtain ⟨htime, hd⟩ := Prod.mk.inj (of_decide_eq_true hsame)
    have hline : line = (d.line.timestamp, d.line.details) := Prod.ext htime (hdigest hd)
    rw [hline] at hkey
    exact hkey
  · intro hkey
    exact any_eq_true.mpr ⟨d.key, hkey, decide_eq_true rfl⟩

end Counts

theorem Tracks.eq_of_key
    {ls : Finset (Int × Details)} (h : Tracks c window kind t ls) {a b : Event Details Digest}
    (ha : a ∈ t) (hb : b ∈ t) (hka : a.kind = kind) (hkb : b.kind = kind)
    {key : OccurrenceKey Digest} (hkeya : key ∈ a.keys) (hkeyb : key ∈ b.keys) : a = b := by
  have hpairwise := (nodup_flatMap.mp h.nodup).2
  have : Std.Symm (Function.onFun List.Disjoint (rowKeys kind) : Event Details Digest → _ → Prop) :=
    ⟨fun _ _ hd => hd.symm⟩
  by_contra hne
  have hdisjoint := hpairwise.forall ha hb hne
  refine hdisjoint (a := key) ?_ ?_
  · rwa [rowKeys, if_pos hka]
  · rwa [rowKeys, if_pos hkb]

section Step

variable [DecidableEq Details] [DecidableEq Digest] (hdigest : Function.Injective c.digest)
  {window : Int} (hwindow : 0 < window) {kind : EventKind} {t : EventTable Details Digest}
  {ls : Finset (Int × Details)}

include hdigest

omit [DecidableEq Details] [DecidableEq Digest] in
theorem Tracks.key_mem_iff (h : Tracks c window kind t ls) (d : Delivery c) :
    d.key ∈ allKeys kind t ↔ (d.line.timestamp, d.line.details) ∈ ls := by
  grind [Tracks.keys, Delivery.key, eventOccurrenceKey]

include hwindow

/-- **A line whose rows are near** is remembered once, new or not. -/
theorem Tracks.record_near (h : Tracks c window kind t ls) {d : Delivery c} (hkind : d.kind = kind)
    (hin : InWindow window t d) :
    Tracks c window kind (record window t d)
      (insert (d.line.timestamp, d.line.details) ls) := by
  rcases record_shape hwindow h.shape hkind with ⟨heq, row, hrow, hk, _, hseen⟩ |
    ⟨hshape, hperm, hout⟩
  · have hkey := (h.seen_iff hdigest hrow hk d).mp hseen
    have hline := (h.key_mem_iff hdigest d).mp (mem_allKeys.mpr ⟨row, hrow, hk, hkey⟩)
    rw [heq, Finset.insert_eq_of_mem hline]
    exact h
  · have hnew : d.key ∉ allKeys kind t := by
      intro hmem
      obtain ⟨row, hrow, hk, hkey⟩ := mem_allKeys.mp hmem
      have hseen := (h.seen_iff hdigest hrow hk d).mpr hkey
      have hnear := hin row hrow (hk.trans hkind.symm) hseen
      have hfar := hout row hrow hk hseen
      omega
    refine ⟨hshape, hperm.nodup_iff.mpr (nodup_cons.mpr ⟨hnew, h.nodup⟩), fun key => ?_⟩
    rw [hperm.mem_iff, mem_cons, h.keys]
    constructor
    · intro hkey
      rcases hkey with rfl | ⟨line, hline, heq⟩
      · exact ⟨_, Finset.mem_insert_self _ _, rfl⟩
      · exact ⟨line, Finset.mem_insert_of_mem hline, heq⟩
    · grind [Delivery.key]

/-- **A line whose row has left its window** is counted a second time. -/
theorem Tracks.not_counted (h : Tracks c window kind t ls) {d : Delivery c} (hkind : d.kind = kind)
    (hout : ¬ InWindow window t d) :
    ¬ Counted c kind (record window t d) (insert (d.line.timestamp, d.line.details) ls) := by
  unfold InWindow at hout
  push Not at hout
  obtain ⟨row, hrow, hk, hseen, hfar⟩ := hout
  have hk := hk.trans hkind
  have hkey := (h.seen_iff hdigest hrow hk d).mp hseen
  have hline := (h.key_mem_iff hdigest d).mp (mem_allKeys.mpr ⟨row, hrow, hk, hkey⟩)
  rw [Finset.insert_eq_of_mem hline]
  intro hcounted
  rcases record_shape hwindow h.shape hkind with ⟨_, near, hnear, hk', hle, hseen'⟩ |
    ⟨hshape, hperm, _⟩
  · -- the row in the window that remembers it would be this one
    have hkey' := (h.seen_iff hdigest hnear hk' d).mp hseen'
    rw [h.eq_of_key hnear hrow hk' hk hkey' hkey] at hle
    omega
  · have hlength := hperm.length_eq
    rw [length_allKeys hshape, hcounted.occurrences, length_cons, length_allKeys h.shape,
      (h.toCounted hdigest).occurrences] at hlength
    omega

end Step

/-! ## §5 — every sequence of batches -/

structure SameRows (kind : EventKind) (t t' : EventTable Details Digest) : Prop where
  rows : ∀ row, row.kind = kind → row ∈ t' → row ∈ t
  keys : allKeys kind t' = allKeys kind t

theorem SameRows.tracks {t' : EventTable Details Digest}
    {ls : Finset (Int × Details)} (hsame : SameRows kind t t') (h : Tracks c window kind t ls) :
    Tracks c window kind t' ls := by
  refine ⟨⟨?_, ?_, ?_⟩, hsame.keys ▸ h.nodup, hsame.keys ▸ h.keys⟩
  · intro a ha b hb hka hkb
    exact h.shape.spaced a (hsame.rows a hka ha) b (hsame.rows b hkb hb) hka hkb
  · intro row hrow hk
    exact h.shape.counted row (hsame.rows row hk hrow) hk
  · intro row hrow hk
    exact h.shape.latest row (hsame.rows row hk hrow) hk

theorem sameRows_insertEvent {other : EventKind} (hne : other ≠ kind)
    (t : EventTable Details Digest) (details : Details) (createdAt : Int)
    (keys : List (OccurrenceKey Digest)) :
    SameRows kind t (insertEvent t other details createdAt keys) := by
  refine ⟨fun row hk hrow => ?_, ?_⟩
  · rcases (Table.mem_append t _ _).mp hrow with hrow | rfl
    · exact hrow
    · exact absurd hk hne
  · show (t.rows ++ [_]).flatMap (rowKeys kind) = _
    rw [flatMap_append, flatMap_singleton, rowKeys, if_neg hne, append_nil]
    rfl

theorem sameRows_mergeEvent (hexisting : existing ∈ t) (hne : existing.kind ≠ kind)
    (details : Details) (createdAt : Int) (keys : List (OccurrenceKey Digest)) :
    SameRows kind t (mergeEvent t existing.id details createdAt keys) := by
  refine ⟨fun row hk hrow => ?_, ?_⟩
  · rcases mem_mergeEvent hexisting hrow with ⟨hrow, _⟩ | rfl
    · exact hrow
    · rw [countInto_kind] at hk
      exact absurd hk hne
  · show (t.rows.map _).flatMap (rowKeys kind) = _
    rw [flatMap_map]
    refine flatMap_congr fun row hrow => ?_
    split
    · next hid =>
      have heq : row = existing := t.eq_of_key_eq hrow hexisting hid
      rw [heq, rowKeys, rowKeys, countInto_kind, if_neg hne, if_neg hne]
    · rfl

section Run

variable [DecidableEq Digest]

variable {d : Delivery c} {kind : EventKind}

theorem sameRows_record (window : Int) (t : EventTable Details Digest) (hne : d.kind ≠ kind) :
    SameRows kind t (record window t d) := by
  unfold record recordWindowedEventAt
  split
  · exact sameRows_insertEvent hne t _ _ _
  · dsimp only
    split
    · next existing hsome =>
      obtain ⟨hin, hk, _⟩ := newestInWindow_some hsome
      split
      · exact ⟨fun _ _ hrow => hrow, rfl⟩
      · exact sameRows_mergeEvent hin (hk ▸ hne) _ _ _
    · exact sameRows_insertEvent hne t _ _ _

variable [DecidableEq Details]

omit [DecidableEq Digest] in
theorem lines_concat_self (ds : List (Delivery c))
    (hkind : d.kind = kind) :
    lines kind (ds ++ [d]) = insert (d.line.timestamp, d.line.details) (lines kind ds) := by
  rw [lines, filter_append, map_append, toFinset_append,
    filter_singleton, decide_eq_true hkind, cond_true, Finset.union_comm]
  rfl

omit [DecidableEq Digest] in
theorem lines_concat_of_ne (ds : List (Delivery c))
    (hkind : d.kind ≠ kind) : lines kind (ds ++ [d]) = lines kind ds := by
  rw [lines, filter_append, filter_singleton, decide_eq_false hkind, cond_false,
    append_nil]
  rfl

/-- Every line of a kind finds the rows that remember it in its window. -/
def StaysInWindow (window : Int) (kind : EventKind) (t : EventTable Details Digest)
    (ds : List (Delivery c)) : Prop :=
  ∀ before d, before ++ [d] <+: ds → d.kind = kind →
    InWindow window (before.foldl (record window) t) d

omit [DecidableEq Details] in
theorem staysInWindow_nil (window : Int) (kind : EventKind) (t : EventTable Details Digest) :
    StaysInWindow window kind t ([] : List (Delivery c)) := by
  intro before d hbefore
  exact absurd (prefix_nil.mp hbefore) (by simp)

variable {t : EventTable Details Digest} {window : Int}

omit [DecidableEq Details] in
theorem staysInWindow_concat
    {ds : List (Delivery c)} :
    StaysInWindow window kind t (ds ++ [d]) ↔ StaysInWindow window kind t ds ∧
      (d.kind = kind → InWindow window (ds.foldl (record window) t) d) := by
  constructor
  · grind [StaysInWindow]
  · intro ⟨hds, hd⟩ before d' hbefore
    rcases prefix_concat_iff.mp hbefore with heq | hbefore
    · obtain ⟨rfl, hlast⟩ := append_inj' heq rfl
      cases hlast
      exact hd
    · exact hds before d' hbefore

/-- **Every run of deliveries** whose lines find their rows remembers each line once. -/
theorem tracks_run (hdigest : Function.Injective c.digest) (hwindow : 0 < window)
    (hfree : ∀ row ∈ t, row.kind ≠ kind) (ds : List (Delivery c))
    (hin : StaysInWindow window kind t ds) :
    Tracks c window kind (ds.foldl (record window) t) (lines kind ds) := by
  induction ds using reverseRecOn with
  | nil =>
    have hkeys : allKeys kind t = [] := by
      refine flatMap_eq_nil_iff.mpr fun row hrow => if_neg (hfree row hrow)
    refine ⟨⟨?_, ?_, ?_⟩, hkeys ▸ nodup_nil, fun key => ?_⟩
    · intro a ha b hb hka
      exact absurd hka (hfree a ha)
    · intro row hrow hk
      exact absurd hk (hfree row hrow)
    · intro row hrow hk
      exact absurd hk (hfree row hrow)
    · rw [foldl_nil, hkeys]
      simp [lines]
  | append_singleton ds d ih =>
    obtain ⟨hds, hd⟩ := staysInWindow_concat.mp hin
    have htracks := ih hds
    rw [foldl_append, foldl_cons, foldl_nil]
    by_cases hkind : d.kind = kind
    · rw [lines_concat_self ds hkind]
      exact htracks.record_near hdigest hwindow hkind (hd hkind)
    · rw [lines_concat_of_ne ds hkind]
      exact (sameRows_record window _ hkind).tracks htracks

theorem staysInWindow_of_counted (hdigest : Function.Injective c.digest)
    (hwindow : 0 < window)
    (hfree : ∀ row ∈ t, row.kind ≠ kind) (ds : List (Delivery c))
    (hcounted : ∀ before, before <+: ds →
      Counted c kind (before.foldl (record window) t) (lines kind before)) :
    StaysInWindow window kind t ds := by
  induction ds using reverseRecOn with
  | nil => exact staysInWindow_nil _ _ _
  | append_singleton ds d ih =>
    have hds := ih fun before hbefore => hcounted before (hbefore.trans (prefix_append _ _))
    refine staysInWindow_concat.mpr ⟨hds, fun hkind => ?_⟩
    -- the first line that misses its row is counted again
    by_contra hout
    have hlast := hcounted (ds ++ [d]) (prefix_refl _)
    rw [lines_concat_self ds hkind, foldl_append] at hlast
    exact (tracks_run hdigest hwindow hfree ds hds).not_counted hdigest hwindow hkind hout hlast

/-- **Lines read again are counted once exactly when they find their rows.** For every sequence of
batches of a platform log: the counts of a kind are exact after every line if and only if no line
is delivered again once the row that remembers it is more than the window past it. -/
theorem platform_lines_counted_iff (c : EventCodec Details Digest)
    (hdigest : Function.Injective c.digest) (window : Int) (hwindow : 0 < window)
    (classify : LogLine c → Option (Text × Text)) (kind : EventKind)
    (t : EventTable Details Digest) (hfree : ∀ row ∈ t, row.kind ≠ kind)
    (batches : List (LogBatch c)) :
    ((∀ before, before <+: deliveries classify batches →
        Counted c kind (before.foldl (record window) t) (lines kind before)) ↔
      StaysInWindow window kind t (deliveries classify batches)) ∧
    (StaysInWindow window kind t (deliveries classify batches) →
      Counted c kind (batches.foldl (syncAppPlatformLogs classify window) t)
        (lines kind (deliveries classify batches))) := by
  refine ⟨⟨fun hcounted => ?_, fun hin before hbefore => ?_⟩, fun hin => ?_⟩
  · exact staysInWindow_of_counted hdigest hwindow hfree _ hcounted
  · refine (tracks_run hdigest hwindow hfree before ?_).toCounted hdigest
    exact fun earlier d hearlier => hin earlier d (hearlier.trans hbefore)
  · rw [foldl_syncAppPlatformLogs]
    exact (tracks_run hdigest hwindow hfree _ hin).toCounted hdigest

end Run

/-! ## §6 — a row that moved on -/

def plainEvents : EventCodec Text Text := ⟨id, fun _ => false, id⟩

def crashLine (minute : Int) (details : String) : LogLine plainEvents :=
  ⟨minute, text "m1", details.toList, rfl⟩

def crashBatch (lines : List (LogLine plainEvents)) : LogBatch plainEvents :=
  ⟨lines, fun _ => some (text "w1")⟩

def classifyRestart (_ : LogLine plainEvents) : Option (Text × Text) :=
  some (text "platform_restart", text "Fly platform event: machine restarted")

def restartKind : EventKind :=
  ⟨text "w1", text "platform_restart", text "Fly platform event: machine restarted"⟩

def shortTail : List (LogBatch plainEvents) :=
  [crashBatch [crashLine 0 "a", crashLine 6 "b"], crashBatch [crashLine 6 "b", crashLine 0 "a"]]

def longTail : List (LogBatch plainEvents) :=
  [crashBatch [crashLine 0 "a", crashLine 6 "b", crashLine 12 "c"],
    crashBatch [crashLine 0 "a", crashLine 6 "b", crashLine 12 "c"]]

/-- Two lines six minutes apart, read again in a window of ten, are counted once each. -/
theorem platform_lines_counted_shortTail :
    Counted plainEvents restartKind
      (shortTail.foldl (syncAppPlatformLogs classifyRestart 10) (Table.empty _))
      (lines restartKind (deliveries classifyRestart shortTail)) := by
  refine (platform_lines_counted_iff plainEvents Function.injective_id 10 (by decide)
    classifyRestart restartKind (Table.empty _)
    (fun row hrow => absurd hrow (Table.not_mem_empty _)) shortTail).2 ?_
  -- the four deliveries, one at a time
  show StaysInWindow 10 restartKind _
    ([] ++ [⟨restartKind, crashLine 0 "a"⟩] ++ [⟨restartKind, crashLine 6 "b"⟩] ++
      [⟨restartKind, crashLine 0 "a"⟩] ++ [⟨restartKind, crashLine 6 "b"⟩])
  simp only [staysInWindow_concat]
  refine ⟨⟨⟨⟨staysInWindow_nil _ _ _, fun _ => ?_⟩, fun _ => ?_⟩, fun _ => ?_⟩, fun _ => ?_⟩
  all_goals decide +kernel

/-- The long tail makes one row, which ends at the last of its lines. The first is twelve minutes
behind it: read again, it opens a second row. -/
theorem platform_line_counted_again :
    ¬ Counted plainEvents restartKind
      (longTail.foldl (syncAppPlatformLogs classifyRestart 10) (Table.empty _))
      (lines restartKind (deliveries classifyRestart longTail)) := by
  intro hcounted
  exact absurd hcounted.occurrences (by decide +kernel)

end LitestreamSoak.Store.WindowedEvents
