import LitestreamSoak.Lib.HighWater
import LitestreamSoak.Lib.Keyed
import LitestreamSoak.Store.CostMeter

/-!
# Store — the cost meter counts what was used

The deltas of a counter add up to its usage: over its lifetimes, the highest value of each. A value
on record is the highest reading of the lifetime on record (`Metered`), so that a report adds what
it rises above it; the hourly rows hold the deltas, in whatever hour and source.
-/

namespace LitestreamSoak.Store.CostMeter

open Lib List

/-! ## §1 — one counter -/

/-- One counter of a report: an entry of a map, or one of the two plain ones. -/
inductive Counter where
  | map (field : Field) (key : Text)
  | evidenceObjectUploads
  | evidenceUploadPayloadBytes

def Counter.ofLitestream : Counter → Bool
  | map field _ => field.ofLitestream
  | _ => false

def ObjectStoreCounters.value (c : ObjectStoreCounters) : Counter → UInt64
  | .map field key => lookupCounter (c.maps field) key
  | .evidenceObjectUploads => c.evidenceObjectUploads
  | .evidenceUploadPayloadBytes => c.evidenceUploadPayloadBytes

def CostMeterTotals.value (t : CostMeterTotals) : Counter → UInt64
  | .map field key => lookupCounter (t.maps field) key
  | .evidenceObjectUploads => t.evidenceObjectUploads
  | .evidenceUploadPayloadBytes => t.evidenceUploadPayloadBytes

def CounterLifetime.base (lifetime : CounterLifetime) (previous : UInt64) : UInt64 :=
  if lifetime = .restarted then 0 else previous

/-- **What a value adds.** `delta` and `next` are what rises above a base and the higher of the
two. -/
structure Advanced (base value delta next : UInt64) : Prop where
  delta : delta.toNat + base.toNat = max base.toNat value.toNat
  next : next.toNat = max base.toNat value.toNat

/-- One value: what it adds, what is kept. -/
theorem advanceCounter_spec {previous : UInt64} {lifetime : CounterLifetime}
    (h : lifetime = .unknown → previous = 0) (current : UInt64) :
    Advanced (lifetime.base previous) current (advanceCounter previous current lifetime).1
      (advanceCounter previous current lifetime).2 := by
  unfold advanceCounter CounterLifetime.base
  split
  · exact ⟨by simp, by simp⟩
  split
  · next hle =>
    have hnat : previous.toNat ≤ current.toNat := hle
    refine ⟨?_, (max_eq_right hnat).symm⟩
    grind [UInt64.toNat_sub_of_le]
  · next hle =>
    have hnat : current.toNat ≤ previous.toNat := (Nat.lt_of_not_le hle).le
    split
    · next hunknown =>
      rw [h hunknown] at hle
      exact absurd (UInt64.zero_le) hle
    · refine ⟨?_, (max_eq_left hnat).symm⟩
      show (0 : UInt64).toNat + previous.toNat = _
      rw [max_eq_left hnat]
      exact Nat.zero_add _

theorem lookupCounter_insert (m : Option CounterMap) (key key' : Text) (value : UInt64) :
    lookupCounter (insertCounter m key value) key' =
      if key' = key then value else lookupCounter m key' := by
  show ((m.getD ∅).insert key value |>.lookup key').getD 0 = _
  split
  · next h => rw [h, AList.lookup_insert, Option.getD_some]
  · next h =>
    rw [AList.lookup_insert_ne h]
    cases m <;> rfl

/-- **A loop over a map.** A step that reads and changes only what is kept for its own key leaves,
for each key, the change of its only entry. -/
theorem foldl_entries {σ β : Type} {step : σ → (Sigma fun _ : Text => UInt64) → σ}
    {look : σ → Text → β} (change : β → (Sigma fun _ : Text => UInt64) → β)
    (hsame : ∀ s entry, look (step s entry) entry.1 = change (look s entry.1) entry)
    (hother : ∀ s entry key, key ≠ entry.1 → look (step s entry) key = look s key)
    {entries : List (Sigma fun _ : Text => UInt64)} (hnodup : entries.NodupKeys) (s : σ)
    (key : Text) :
    look (entries.foldl step s) key =
      ((entries.dlookup key).map fun value => change (look s key) ⟨key, value⟩).getD
        (look s key) := by
  induction entries generalizing s with
  | nil => rfl
  | cons entry entries ih =>
    obtain ⟨hnew, hrest⟩ := nodupKeys_cons.mp hnodup
    rw [foldl_cons, ih hrest]
    by_cases hkey : key = entry.1
    · subst hkey
      rw [dlookup_eq_none.mpr hnew, dlookup_cons_eq]
      exact hsame s entry
    · rw [dlookup_cons_ne _ _ (fun h => hkey h), hother s entry key hkey]

theorem lookupCounter_eq (m : Option CounterMap) (key : Text) :
    lookupCounter m key = ((m.getD ∅).entries.dlookup key).getD 0 := by
  cases m <;> rfl

theorem base_base (lifetime : CounterLifetime) (previous : UInt64) :
    lifetime.base (lifetime.base previous) = lifetime.base previous := by
  unfold CounterLifetime.base
  split <;> rfl

theorem advanceEntry_eq (previous : Option CounterMap) (lifetime : CounterLifetime)
    (s : Option CounterMap × Option CounterMap) (entry : Sigma fun _ : Text => UInt64) :
    advanceEntry previous lifetime s entry =
      let advanced := advanceCounter (lifetime.base
        (lookupCounter previous entry.1)) entry.2 lifetime
      (if advanced.1 = 0 then s.1 else insertCounter s.1 entry.1 advanced.1,
        insertCounter s.2 entry.1 advanced.2) := rfl

theorem lookup_advanceCounterMap (previous current : Option CounterMap)
    (lifetime : CounterLifetime) (key : Text) :
    (lookupCounter (advanceCounterMap previous current lifetime).1 key,
      lookupCounter (advanceCounterMap previous current lifetime).2 key) =
    (((current.getD ∅).entries.dlookup key).map fun value =>
      advanceCounter (lifetime.base (lookupCounter previous key)) value lifetime).getD
        (0, lifetime.base (lookupCounter previous key)) := by
  let look (s : Option CounterMap × Option CounterMap) (key : Text) : UInt64 × UInt64 :=
    (lookupCounter s.1 key, lookupCounter s.2 key)
  let change (old : UInt64 × UInt64) (entry : Sigma fun _ : Text => UInt64) : UInt64 × UInt64 :=
    let advanced := advanceCounter (lifetime.base (lookupCounter previous entry.1)) entry.2 lifetime
    (if advanced.1 = 0 then old.1 else advanced.1, advanced.2)
  have hsame : ∀ s entry, look (advanceEntry previous lifetime s entry) entry.1 =
      change (look s entry.1) entry := by
    intro s entry
    rw [advanceEntry_eq]
    show (lookupCounter (if _ then _ else _) _, lookupCounter (insertCounter _ _ _) _) = _
    rw [lookupCounter_insert, if_pos rfl, apply_ite (lookupCounter · entry.1),
      lookupCounter_insert, if_pos rfl]
  have hother : ∀ s entry key, key ≠ entry.1 →
      look (advanceEntry previous lifetime s entry) key = look s key := by
    intro s entry key hkey
    rw [advanceEntry_eq]
    show (lookupCounter (if _ then _ else _) _, lookupCounter (insertCounter _ _ _) _) = _
    rw [lookupCounter_insert, if_neg hkey, apply_ite (lookupCounter · key),
      lookupCounter_insert, if_neg hkey, ite_self]
  have hstart : look (none, if lifetime = .restarted then none else previous) key =
      (0, lifetime.base (lookupCounter previous key)) := by
    unfold CounterLifetime.base
    refine Prod.ext rfl ?_
    show lookupCounter (if _ then _ else _) key = _
    split <;> rfl
  have hloop := foldl_entries change hsame hother (current.getD ∅).nodupKeys
    (none, if lifetime = .restarted then none else previous) key
  rw [hstart] at hloop
  refine Eq.trans hloop ?_
  cases (current.getD ∅).entries.dlookup key with
  | none => rfl
  | some value =>
    -- a delta that is not filed is zero
    refine Prod.ext ?_ rfl
    show (if _ then _ else _) = _
    split
    · next hzero => exact hzero.symm
    · rfl

/-- **A map against the one on record**, key by key. -/
theorem advanceCounterMap_spec {previous current : Option CounterMap} {lifetime : CounterLifetime}
    {key : Text} (h : lifetime = .unknown → lookupCounter previous key = 0) :
    Advanced (lifetime.base (lookupCounter previous key)) (lookupCounter current key)
      (lookupCounter (advanceCounterMap previous current lifetime).1 key)
      (lookupCounter (advanceCounterMap previous current lifetime).2 key) := by
  have hlookup := lookup_advanceCounterMap previous current lifetime key
  rw [Prod.ext_iff] at hlookup
  dsimp only at hlookup
  rw [hlookup.1, hlookup.2, lookupCounter_eq current]
  cases (current.getD ∅).entries.dlookup key with
  | none => exact ⟨by simp, by simp⟩
  | some value => grind [CounterLifetime.base, advanceCounter_spec, base_base]

theorem lookup_addCounterMap (dst src : Option CounterMap) (key : Text) :
    lookupCounter (addCounterMap dst src) key = lookupCounter dst key + lookupCounter src key := by
  let step (dst : Option CounterMap) (entry : Sigma fun _ : Text => UInt64) : Option CounterMap :=
    if entry.2 = 0 then dst
    else insertCounter dst entry.1 (lookupCounter dst entry.1 + entry.2)
  have hsame : ∀ dst entry, lookupCounter (step dst entry) entry.1 =
      lookupCounter dst entry.1 + entry.2 := by
    intro dst entry
    show lookupCounter (if _ then _ else _) _ = _
    split
    · next hzero => rw [hzero, UInt64.add_zero]
    · rw [lookupCounter_insert, if_pos rfl]
  have hother : ∀ dst entry key, key ≠ entry.1 →
      lookupCounter (step dst entry) key = lookupCounter dst key := by
    intro dst entry key hkey
    show lookupCounter (if _ then _ else _) _ = _
    split
    · rfl
    · rw [lookupCounter_insert, if_neg hkey]
  have hloop := foldl_entries (fun old entry => old + entry.2) hsame hother
    (src.getD ∅).nodupKeys dst key
  rw [lookupCounter_eq src]
  refine Eq.trans hloop ?_
  cases (src.getD ∅).entries.dlookup key <;> simp

/-! ## §2 — one report -/

section Report

variable {previous : Option ObjectStoreCounters} {current : ObjectStoreCounters} {c : Counter}

/-- How the worker's counters relate to those on record. -/
def workerLifetime (previous : Option ObjectStoreCounters) (current : ObjectStoreCounters) :
    CounterLifetime :=
  classifyCounterLifetime (previous.getD {}).objectStoreCounterEpoch
    current.objectStoreCounterEpoch

/-- What is on record of Litestream's counters, which a restarted worker loses. -/
def kept (previous : Option ObjectStoreCounters) (current : ObjectStoreCounters) :
    ObjectStoreCounters :=
  if workerLifetime previous current = .restarted then (previous.getD {}).clearLitestream
  else previous.getD {}

theorem costMeterDelta_eq (h : current.objectStoreCounterEpoch ≠ []) :
    costMeterDelta previous current =
      workerDelta (previous.getD {}) current (workerLifetime previous current)
        (litestreamDelta (kept previous current) current) :=
  if_neg h

/-- One report, counter by counter. -/
theorem costMeterDelta_worker (hepoch : current.objectStoreCounterEpoch ≠ [])
    (hc : c.ofLitestream = false)
    (h : workerLifetime previous current = .unknown → (previous.getD {}).value c = 0) :
    Advanced ((workerLifetime previous current).base ((previous.getD {}).value c))
      (current.value c) ((costMeterDelta previous current).1.value c)
      ((costMeterDelta previous current).2.value c) := by
  rw [costMeterDelta_eq hepoch]
  cases c with
  | map field key =>
    have hfield : ¬ field.ofLitestream = true := by simpa [Counter.ofLitestream] using hc
    show Advanced _ _ (lookupCounter (if _ then _ else _) key)
      (lookupCounter (if _ then _ else _) key)
    rw [if_neg hfield, if_neg hfield]
    exact advanceCounterMap_spec h
  | _ => exact advanceCounter_spec h _

/-- How Litestream's counters relate to those on record. -/
def litestreamLifetime (previous : Option ObjectStoreCounters) (current : ObjectStoreCounters) :
    CounterLifetime :=
  classifyCounterLifetime (kept previous current).litestreamCounterEpoch
    current.litestreamCounterEpoch

/-- A report with Litestream's counters advances them. -/
theorem costMeterDelta_litestream (hepoch : current.objectStoreCounterEpoch ≠ [])
    (hhas : current.hasLitestream = true) (hc : c.ofLitestream = true)
    (h : litestreamLifetime previous current = .unknown → (kept previous current).value c = 0) :
    Advanced ((litestreamLifetime previous current).base ((kept previous current).value c))
      (current.value c) ((costMeterDelta previous current).1.value c)
      ((costMeterDelta previous current).2.value c) := by
  rw [costMeterDelta_eq hepoch]
  cases c with
  | map field key =>
    have hfield : field.ofLitestream = true := hc
    show Advanced _ _ (lookupCounter (if _ then _ else _) key)
      (lookupCounter (if _ then _ else _) key)
    unfold litestreamDelta
    rw [if_pos hfield, if_pos hfield, if_pos hhas]
    show Advanced _ _ (lookupCounter (if _ then _ else _) key)
      (lookupCounter (if _ then _ else _) key)
    rw [if_pos hfield, if_pos hfield]
    exact advanceCounterMap_spec h
  | _ => cases hc

/-- A report without Litestream's counters leaves them as they are. -/
theorem costMeterDelta_silent (hepoch : current.objectStoreCounterEpoch ≠ [])
    (hhas : current.hasLitestream = false) (hc : c.ofLitestream = true) :
    (costMeterDelta previous current).1.value c = 0 ∧
      (costMeterDelta previous current).2.value c = (kept previous current).value c := by
  rw [costMeterDelta_eq hepoch]
  cases c with
  | map field key =>
    have hfield : field.ofLitestream = true := hc
    show lookupCounter (if _ then _ else _) key = _ ∧ lookupCounter (if _ then _ else _) key = _
    unfold litestreamDelta
    rw [if_pos hfield, if_pos hfield, if_neg (by simp [hhas])]
    exact ⟨rfl, rfl⟩
  | _ => cases hc

theorem costMeterDelta_epochs (previous : Option ObjectStoreCounters)
    (hepoch : current.objectStoreCounterEpoch ≠ [])
    (hlitestream : current.hasLitestream = true → current.litestreamCounterEpoch ≠ []) :
    (costMeterDelta previous current).2.objectStoreCounterEpoch =
        current.objectStoreCounterEpoch ∧
      (costMeterDelta previous current).2.litestreamCounterEpoch =
        if current.hasLitestream then current.litestreamCounterEpoch
        else (kept previous current).litestreamCounterEpoch := by
  rw [costMeterDelta_eq hepoch]
  refine ⟨rfl, ?_⟩
  show (litestreamDelta _ _).2.litestreamCounterEpoch = _
  unfold litestreamDelta
  split
  · next hhas => exact if_neg (hlitestream hhas)
  · rfl

end Report

/-! ## §3 — the reports of a worker -/

namespace Report

abbrev epoch (r : Report) : Text := r.counters.objectStoreCounterEpoch

abbrev litestreamEpoch (r : Report) : Text := r.counters.litestreamCounterEpoch

abbrev hasLitestream (r : Report) : Bool := r.counters.hasLitestream

def value (r : Report) (c : Counter) : Nat := (r.counters.value c).toNat

end Report

/-- The readings of a counter, each with the lifetime it belongs to. -/
def readings (c : Counter) (rs : List Report) : List (Text × Nat) :=
  if c.ofLitestream then
    (rs.filter (·.hasLitestream)).map fun r => (r.litestreamEpoch, r.value c)
  else rs.map fun r => (r.epoch, r.value c)

/-- **What is known of the lifetimes** behind a sequence of reports: each has an epoch of its own
that does not recur, its reports come together, and a Litestream process does not outlive its
worker. -/
structure Lifetimes (rs : List Report) : Prop where
  epoch : ∀ r ∈ rs, r.epoch ≠ []
  contiguous : Contiguous (rs.map (·.epoch))
  litestreamEpoch : ∀ r ∈ rs, r.hasLitestream = true → r.litestreamEpoch ≠ []
  litestreamContiguous : Contiguous ((rs.filter (·.hasLitestream)).map (·.litestreamEpoch))
  nested : ∀ r ∈ rs, ∀ r' ∈ rs, r.hasLitestream = true → r'.hasLitestream = true →
    r.litestreamEpoch = r'.litestreamEpoch → r.epoch = r'.epoch

/-- The Litestream counters on record, for a worker of the given epoch: those of its last Litestream
process, or none where it has reported none. -/
def LitestreamMetered (rs : List Report) (epoch : Text) (s : ObjectStoreCounters) : Prop :=
  (s.litestreamCounterEpoch = [] ∧ (∀ c : Counter, c.ofLitestream = true → s.value c = 0) ∧
    ∀ r ∈ rs, r.hasLitestream = true → r.epoch ≠ epoch) ∨
  (s.litestreamCounterEpoch ≠ [] ∧
    ((rs.filter (·.hasLitestream)).map (·.litestreamEpoch)).getLast? =
      some s.litestreamCounterEpoch ∧
    ∀ c : Counter, c.ofLitestream = true →
      (s.value c).toNat = highest (readings c rs) s.litestreamCounterEpoch)

/-- **The counters on record** are the highest readings of the lifetimes on record. -/
structure Metered (rs : List Report) (s : ObjectStoreCounters) : Prop where
  epoch : s.objectStoreCounterEpoch = ((rs.map (·.epoch)).getLast?).getD []
  worker : ∀ c : Counter, c.ofLitestream = false →
    (s.value c).toNat = highest (readings c rs) s.objectStoreCounterEpoch
  litestream : LitestreamMetered rs s.objectStoreCounterEpoch s

section Step

variable {rs : List Report} {r : Report} {c : Counter} {previous : Option ObjectStoreCounters}

theorem litestreamEpochs_concat (rs : List Report) (r : Report) :
    ((rs ++ [r]).filter (·.hasLitestream)).map (·.litestreamEpoch) =
      (rs.filter (·.hasLitestream)).map (·.litestreamEpoch) ++
        if r.hasLitestream then [r.litestreamEpoch] else [] := by
  rw [filter_append, map_append]
  cases hhas : r.hasLitestream <;> simp [hhas]

theorem Lifetimes.of_concat (h : Lifetimes (rs ++ [r])) : Lifetimes rs where
  epoch x hx := h.epoch x (mem_append_left _ hx)
  contiguous := by
    have hall := h.contiguous
    rw [map_append] at hall
    exact hall.of_concat
  litestreamEpoch x hx := h.litestreamEpoch x (mem_append_left _ hx)
  litestreamContiguous := by
    have hall := h.litestreamContiguous
    rw [litestreamEpochs_concat] at hall
    split at hall
    · exact hall.of_concat
    · rwa [append_nil] at hall
  nested x hx y hy := h.nested x (mem_append_left _ hx) y (mem_append_left _ hy)

/-- The lifetime in which a report reads the counter, if it reads it. -/
def lifetimeOf (c : Counter) (r : Report) : Option Text :=
  if c.ofLitestream then if r.hasLitestream then some r.litestreamEpoch else none else some r.epoch

theorem readings_concat (c : Counter) (rs : List Report) (r : Report) :
    readings c (rs ++ [r]) = readings c rs ++ ((lifetimeOf c r).map (·, r.value c)).toList := by
  grind [readings, lifetimeOf]

/-- **One reading above the highest so far.** -/
theorem usage_of_advanced {readings : List (Text × Nat)} {e : Text}
    {base value delta next : UInt64} (hbase : base.toNat = highest readings e)
    (h : Advanced base value delta next) :
    usage (readings ++ [(e, value.toNat)]) = usage readings + delta.toNat ∧
      next.toNat = highest (readings ++ [(e, value.toNat)]) e := by
  grind [usage_concat, Advanced.delta, Advanced.next, highest_concat]

theorem toNat_eq_zero {n : UInt64} (h : n.toNat = 0) : n = 0 := UInt64.toNat_inj.mp h

theorem highest_worker_new (hc : c.ofLitestream = false) {e : Text}
    (he : e ∉ rs.map (·.epoch)) : highest (readings c rs) e = 0 := by
  refine highest_of_notMem ?_
  rw [readings, if_neg (by simp [hc]), map_map]
  exact he

theorem Metered.epoch_cases {s : ObjectStoreCounters} (hl : Lifetimes (rs ++ [r]))
    (h : Metered rs s) :
    (s.objectStoreCounterEpoch = [] ∧ rs = []) ∨
      s.objectStoreCounterEpoch ≠ [] ∧
        (s.objectStoreCounterEpoch = r.epoch ∨
          s.objectStoreCounterEpoch ≠ r.epoch ∧ r.epoch ∉ rs.map (·.epoch)) := by
  cases hlast : (rs.map (·.epoch)).getLast? with
  | none =>
    have hempty : rs = [] := by simpa using hlast
    exact .inl ⟨by rw [h.epoch, hlast]; rfl, hempty⟩
  | some e =>
    have hepoch : s.objectStoreCounterEpoch = e := by rw [h.epoch, hlast]; rfl
    refine .inr ⟨?_, ?_⟩
    · grind [Lifetimes.epoch]
    · by_cases hsame : s.objectStoreCounterEpoch = r.epoch
      · exact .inl hsame
      · refine .inr ⟨hsame, fun hmem => hsame ?_⟩
        have hcontiguous := hl.contiguous
        rw [map_append] at hcontiguous
        exact hepoch.trans (Option.some.inj (hlast.symm.trans (hcontiguous.getLast_of_mem hmem)))

theorem workerLifetime_of {previous : Option ObjectStoreCounters} {current : ObjectStoreCounters}
    (hcurrent : current.objectStoreCounterEpoch ≠ []) :
    workerLifetime previous current =
      if (previous.getD {}).objectStoreCounterEpoch = [] then .unknown
      else if (previous.getD {}).objectStoreCounterEpoch = current.objectStoreCounterEpoch then
        .continued
      else .restarted := by
  simp [workerLifetime, classifyCounterLifetime, hcurrent]

theorem worker_base (hl : Lifetimes (rs ++ [r])) (h : Metered rs (previous.getD {}))
    (hc : c.ofLitestream = false) :
    (workerLifetime previous r.counters = .unknown → (previous.getD {}).value c = 0) ∧
      ((workerLifetime previous r.counters).base ((previous.getD {}).value c)).toNat =
        highest (readings c rs) r.epoch := by
  have hr : r.epoch ≠ [] := hl.epoch r (by simp)
  have hvalue := h.worker c hc
  rw [workerLifetime_of hr]
  rcases h.epoch_cases hl with ⟨hempty, hfirst⟩ | ⟨hne, hsame | ⟨hother, hnew⟩⟩
  · -- the first report of all
    have hnone : ∀ e, highest (readings c rs) e = 0 := by
      intro e
      exact highest_worker_new hc (by simp [hfirst])
    rw [hnone] at hvalue
    rw [if_pos hempty, hnone]
    exact ⟨fun _ => toNat_eq_zero hvalue, hvalue⟩
  · rw [if_neg hne, if_pos hsame, ← hsame]
    exact ⟨nofun, hvalue⟩
  · rw [if_neg hne, if_neg hother, highest_worker_new hc hnew]
    exact ⟨nofun, rfl⟩

theorem kept_litestream (hl : Lifetimes (rs ++ [r])) (h : Metered rs (previous.getD {})) :
    LitestreamMetered rs r.epoch (kept previous r.counters) := by
  have hr : r.epoch ≠ [] := hl.epoch r (by simp)
  unfold kept
  rw [workerLifetime_of hr]
  rcases h.epoch_cases hl with ⟨hempty, hfirst⟩ | ⟨hne, hsame | ⟨hother, hnew⟩⟩
  · rw [if_pos hempty, if_neg nofun]
    subst hfirst
    rcases h.litestream with ⟨hnone, hzero, -⟩ | ⟨-, hlast, -⟩
    · exact .inl ⟨hnone, hzero, nofun⟩
    · cases hlast
  · rw [if_neg hne, if_pos hsame, if_neg nofun, ← hsame]
    exact h.litestream
  · rw [if_neg hne, if_neg hother, if_pos rfl]
    refine .inl ⟨rfl, ?_, ?_⟩
    · intro c hc
      cases c with
      | map field key =>
        have hfield : field.ofLitestream = true := hc
        show lookupCounter (if _ then _ else _) key = 0
        rw [if_pos hfield]
        rfl
      | _ => cases hc
    · intro x hx _ hxr
      exact hnew (hxr ▸ mem_map_of_mem hx)

theorem highest_litestream_new (hc : c.ofLitestream = true) {e : Text}
    (he : e ∉ (rs.filter (·.hasLitestream)).map (·.litestreamEpoch)) :
    highest (readings c rs) e = 0 := by
  refine highest_of_notMem ?_
  rw [readings, if_pos hc, map_map]
  exact he

theorem litestream_base (hl : Lifetimes (rs ++ [r])) (h : Metered rs (previous.getD {}))
    (hhas : r.hasLitestream = true) (hc : c.ofLitestream = true) :
    (litestreamLifetime previous r.counters = .unknown → (kept previous r.counters).value c = 0) ∧
      ((litestreamLifetime previous r.counters).base ((kept previous r.counters).value c)).toNat =
        highest (readings c rs) r.litestreamEpoch := by
  have hr : r.counters.litestreamCounterEpoch ≠ [] := hl.litestreamEpoch r (by simp) hhas
  have hcontiguous := hl.litestreamContiguous
  rw [litestreamEpochs_concat, if_pos hhas] at hcontiguous
  rcases kept_litestream hl h with ⟨hnone, hzero, hworker⟩ | ⟨hsome, hlast, hvalue⟩
  · -- none on record: an earlier report of the same process would be one of this worker
    have hnew : r.litestreamEpoch ∉ (rs.filter (·.hasLitestream)).map (·.litestreamEpoch) := by
      intro hmem
      obtain ⟨x, hx, hxr⟩ := mem_map.mp hmem
      obtain ⟨hx, hxhas⟩ := mem_filter.mp hx
      exact hworker x hx hxhas
        (hl.nested x (mem_append_left _ hx) r (by simp) hxhas hhas hxr)
    rw [hzero c hc, highest_litestream_new hc hnew]
    unfold CounterLifetime.base
    rw [ite_self]
    exact ⟨fun _ => rfl, rfl⟩
  · have hlifetime : litestreamLifetime previous r.counters =
        if (kept previous r.counters).litestreamCounterEpoch = r.litestreamEpoch then .continued
        else .restarted := by
      simp [litestreamLifetime, classifyCounterLifetime, hsome, hr]
    rw [hlifetime]
    split
    · next hsame =>
      rw [← hsame]
      exact ⟨nofun, hvalue c hc⟩
    · next hother =>
      have hnew : r.litestreamEpoch ∉ (rs.filter (·.hasLitestream)).map (·.litestreamEpoch) := by
        intro hmem
        exact hother (Option.some.inj (hlast.symm.trans (hcontiguous.getLast_of_mem hmem)))
      rw [highest_litestream_new hc hnew]
      exact ⟨nofun, rfl⟩

theorem Advanced.le {base value delta next : UInt64} (h : Advanced base value delta next) :
    delta.toNat ≤ value.toNat := by
  have := h.delta
  omega

theorem advanced_of_lifetime {e : Text} (hl : Lifetimes (rs ++ [r]))
    (h : Metered rs (previous.getD {})) (he : lifetimeOf c r = some e) :
    ∃ base : UInt64, base.toNat = highest (readings c rs) e ∧
      Advanced base (r.counters.value c) ((costMeterDelta previous r.counters).1.value c)
        ((costMeterDelta previous r.counters).2.value c) := by
  have hepoch := hl.epoch r (by simp)
  unfold lifetimeOf at he
  cases hc : c.ofLitestream with
  | false =>
    rw [if_neg (by simp [hc])] at he
    cases he
    obtain ⟨hunknown, hbase⟩ := worker_base hl h hc
    exact ⟨_, hbase, costMeterDelta_worker hepoch hc hunknown⟩
  | true =>
    rw [if_pos hc] at he
    split at he <;> cases he
    next hhas =>
    obtain ⟨hunknown, hbase⟩ := litestream_base hl h hhas hc
    exact ⟨_, hbase, costMeterDelta_litestream hepoch hhas hc hunknown⟩

theorem silent_of_lifetime (hl : Lifetimes (rs ++ [r])) (he : lifetimeOf c r = none) :
    (costMeterDelta previous r.counters).1.value c = 0 ∧
      (costMeterDelta previous r.counters).2.value c = (kept previous r.counters).value c := by
  unfold lifetimeOf at he
  split at he
  · grind [costMeterDelta_silent, Lifetimes.epoch]
  · cases he

/-- **One report accepted** adds its deltas to the usage and leaves the highest reading of the
lifetime on record; no delta exceeds the value reported. -/
theorem record_usage (hl : Lifetimes (rs ++ [r])) (h : Metered rs (previous.getD {}))
    (c : Counter) :
    usage (readings c (rs ++ [r])) =
        usage (readings c rs) + ((costMeterDelta previous r.counters).1.value c).toNat ∧
      ((costMeterDelta previous r.counters).1.value c).toNat ≤ r.value c ∧
      ∀ e ∈ lifetimeOf c r, ((costMeterDelta previous r.counters).2.value c).toNat =
        highest (readings c (rs ++ [r])) e := by
  rw [readings_concat]
  cases he : lifetimeOf c r with
  | none =>
    rw [(silent_of_lifetime hl he).1]
    exact ⟨congrArg usage (append_nil _), Nat.zero_le _, nofun⟩
  | some e =>
    obtain ⟨base, hbase, hadvanced⟩ := advanced_of_lifetime hl h he
    obtain ⟨husage, hnext⟩ := usage_of_advanced hbase hadvanced
    exact ⟨husage, hadvanced.le, fun _ he => Option.some.inj he ▸ hnext⟩

/-- **One report accepted** leaves the highest readings on record. -/
theorem Metered.record (hl : Lifetimes (rs ++ [r])) (h : Metered rs (previous.getD {})) :
    Metered (rs ++ [r]) (costMeterDelta previous r.counters).2 := by
  have hr : r.counters.objectStoreCounterEpoch ≠ [] := hl.epoch r (by simp)
  have hrl : r.counters.hasLitestream = true → r.counters.litestreamCounterEpoch ≠ [] :=
    hl.litestreamEpoch r (by simp)
  obtain ⟨hepoch, hlitestream⟩ := costMeterDelta_epochs previous hr hrl
  refine ⟨?_, ?_, ?_⟩
  · rw [hepoch, map_append, map_singleton, getLast?_concat]
    rfl
  · intro c hc
    rw [hepoch]
    exact (record_usage hl h c).2.2 _ (if_neg (by simp [hc]))
  · rw [hepoch]
    cases hhas : r.hasLitestream with
    | true =>
      rw [if_pos hhas] at hlitestream
      refine .inr ⟨?_, ?_, ?_⟩
      · rw [hlitestream]
        exact hrl hhas
      · rw [hlitestream, litestreamEpochs_concat, if_pos hhas, getLast?_concat]
      · intro c hc
        rw [hlitestream]
        refine (record_usage hl h c).2.2 _ ?_
        rw [lifetimeOf, if_pos hc, if_pos hhas]
        rfl
    | false =>
      rw [if_neg (by simp [hhas])] at hlitestream
      have hsilent : ∀ c : Counter, c.ofLitestream = true → lifetimeOf c r = none := by
        intro c hc
        rw [lifetimeOf, if_pos hc, if_neg (by simp [hhas])]
      -- what is on record is what was kept
      rcases kept_litestream hl h with ⟨hnone, hzero, hworker⟩ | ⟨hsome, hlast, hvalue⟩
      · refine .inl ⟨hlitestream.trans hnone, ?_, ?_⟩
        · intro c hc
          rw [(silent_of_lifetime hl (hsilent c hc)).2]
          exact hzero c hc
        · grind
      · refine .inr ⟨hlitestream ▸ hsome, ?_, ?_⟩
        · rw [litestreamEpochs_concat, if_neg (by simp [hhas]), append_nil, hlitestream]
          exact hlast
        · intro c hc
          rw [(silent_of_lifetime hl (hsilent c hc)).2, hlitestream, readings_concat, hsilent c hc]
          exact (hvalue c hc).trans (by rw [Option.map_none, Option.toList_none, append_nil])

theorem Lifetimes.repeat_last (h : Lifetimes (rs ++ [r])) : Lifetimes (rs ++ [r] ++ [r]) := by
  have hmem : ∀ x ∈ rs ++ [r] ++ [r], x ∈ rs ++ [r] := by
    intro x hx
    rcases mem_append.mp hx with hx | hx
    · exact hx
    · exact mem_append_right _ hx
  refine ⟨fun x hx => h.epoch x (hmem x hx), ?_, fun x hx => h.litestreamEpoch x (hmem x hx), ?_,
    fun x hx y hy => h.nested x (hmem x hx) y (hmem y hy)⟩
  · have hcontiguous := h.contiguous
    rw [map_append] at hcontiguous
    rw [map_append, map_append]
    exact hcontiguous.repeat_last
  · have hcontiguous := h.litestreamContiguous
    rw [litestreamEpochs_concat] at hcontiguous
    rw [litestreamEpochs_concat, litestreamEpochs_concat]
    split
    · next hhas =>
      rw [if_pos hhas] at hcontiguous
      exact hcontiguous.repeat_last
    · next hhas =>
      rw [if_neg hhas] at hcontiguous
      rwa [append_nil]

/-- **A report that comes again** adds nothing to the usage. -/
theorem usage_repeat (c : Counter) :
    usage (readings c (rs ++ [r] ++ [r])) = usage (readings c (rs ++ [r])) := by
  rw [readings_concat, readings_concat]
  cases lifetimeOf c r with
  | none => exact congrArg usage (append_nil _)
  | some e =>
    have husage := usage_concat (readings c rs ++ [(e, r.value c)]) (e, r.value c)
    have hhighest := highest_concat (readings c rs) (e, r.value c) e
    rw [if_pos rfl] at hhighest
    dsimp only at husage hhighest
    show usage (readings c rs ++ [(e, r.value c)] ++ [(e, r.value c)]) =
      usage (readings c rs ++ [(e, r.value c)])
    omega

end Step

/-! ## §4 — the hourly rows -/

/-- What the hourly buckets have of a counter. -/
def hourlyTotal (c : Counter) (hourly : List Bucket) : Nat :=
  (hourly.map fun b => (b.totals.value c).toNat).sum

theorem value_add (t other : CostMeterTotals) (c : Counter) :
    (t.add other).value c = t.value c + other.value c := by
  cases c with
  | map field key => exact lookup_addCounterMap _ _ _
  | _ => rfl

theorem value_of_isZero {t : CostMeterTotals} (h : t.isZero = true) (c : Counter) :
    t.value c = 0 := by
  simp only [CostMeterTotals.isZero, Bool.and_eq_true, all_eq_true, decide_eq_true_eq] at h
  cases c with
  | map field key =>
    have hempty := h.1.1.1 field (by cases field <;> decide)
    have hnone : key ∉ (t.maps field).getD ∅ := by
      rw [AList.mem_keys, List.isEmpty_iff.mp hempty]
      exact not_mem_nil
    show lookupCounter (t.maps field) key = 0
    rw [lookupCounter_eq]
    show (((t.maps field).getD ∅).lookup key).getD 0 = 0
    rw [AList.lookup_eq_none.mpr hnone]
    rfl
  | evidenceObjectUploads => exact h.1.1.2
  | evidenceUploadPayloadBytes => exact h.1.2

theorem toNat_add_of_lt {a b : UInt64} (h : a.toNat + b.toNat < 2 ^ 64) :
    (a + b).toNat = a.toNat + b.toNat := by
  rw [UInt64.toNat_add, Nat.mod_eq_of_lt h]

section Hourly

variable {hourly : List Bucket} {c : Counter} {report : List (Text × CostMeterTotals)}

theorem le_hourlyTotal {b : Bucket} (hb : b ∈ hourly) :
    (b.totals.value c).toNat ≤ hourlyTotal c hourly :=
  single_le_sum (by simp) _ (mem_map_of_mem hb)

theorem storedBucket_cases (hourly : List Bucket) (start : Int) (source : Text) :
    (storedBucket hourly start source).bucketStart = start ∧
      (storedBucket hourly start source ∈ hourly ∨
        (∀ b ∈ hourly, b.bucketStart ≠ start) ∧
          ∀ c, (storedBucket hourly start source).totals.value c = 0) := by
  unfold storedBucket
  cases hfind : hourly.find? fun b => b.bucketStart = start with
  | none => exact ⟨rfl, .inr ⟨by simpa using hfind, fun c => by cases c <;> rfl⟩⟩
  | some old =>
    exact ⟨by simpa using find?_some hfind, .inl (mem_of_find?_eq_some hfind)⟩

theorem upsertBucket_total (hnodup : (hourly.map (·.bucketStart)).Nodup) {old new : Bucket}
    (hold : old ∈ hourly ∨ (∀ b ∈ hourly, b.bucketStart ≠ old.bucketStart) ∧
      old.totals.value c = 0)
    (hstart : new.bucketStart = old.bucketStart) :
    hourlyTotal c (upsertBucket hourly new) + (old.totals.value c).toNat =
      hourlyTotal c hourly + (new.totals.value c).toNat := by
  unfold upsertBucket
  rw [hstart]
  rcases hold with hmem | ⟨hnone, hzero⟩
  · rw [if_pos (any_eq_true.mpr ⟨old, hmem, by simp⟩)]
    exact sum_replace (fun b => (b.totals.value c).toNat) (fun _ => new) hnodup hmem
  · rw [if_neg (by simpa using hnone), hzero]
    simp [hourlyTotal]

theorem upsertBucket_nodup (hnodup : (hourly.map (·.bucketStart)).Nodup) (new : Bucket) :
    ((upsertBucket hourly new).map (·.bucketStart)).Nodup := by
  grind [upsertBucket]

/-- **The delta of a report** is added to the hourly rows. -/
theorem recordBucket_total (hnodup : (hourly.map (·.bucketStart)).Nodup) (r : Report)
    {delta : CostMeterTotals} (hfit : hourlyTotal c hourly + (delta.value c).toNat < 2 ^ 64) :
    hourlyTotal c (recordBucket hourly r delta) =
      hourlyTotal c hourly + (delta.value c).toNat := by
  have hpeak : CostMeterTotals.value
      { delta with peakDiskUsedBytes := r.dataDiskUsedBytes } c = delta.value c := by
    cases c <;> rfl
  unfold recordBucket
  dsimp only
  obtain ⟨hstart, hold⟩ := storedBucket_cases hourly (truncateHour r.observedAt) r.source
  generalize storedBucket hourly (truncateHour r.observedAt) r.source = old at hstart hold
  rw [← hstart] at hold
  split
  · split
    · have hrow : old ∈ hourly ∨ (∀ b ∈ hourly, b.bucketStart ≠ old.bucketStart) ∧
          old.totals.value c = 0 := hold.imp_right fun hnone => ⟨hnone.1, hnone.2 c⟩
      have htotal : hourlyTotal c (upsertBucket hourly (old.addReport r
          { delta with peakDiskUsedBytes := r.dataDiskUsedBytes })) + _ = _ :=
        upsertBucket_total hnodup hrow rfl
      have hle : (old.totals.value c).toNat ≤ hourlyTotal c hourly := by
        rcases hold with hmem | ⟨-, hzero⟩
        · exact le_hourlyTotal hmem
        · rw [hzero c]
          exact Nat.zero_le _
      grind [value_add, toNat_add_of_lt, Bucket.addReport]
    · -- a row that is not written back has nothing to add
      next hsame =>
      simp only [Bool.or_eq_true, not_or, Bool.not_eq_true, Bool.not_eq_false'] at hsame
      rw [value_of_isZero hsame.1.1.1]
      rfl
  · next hzero =>
    simp only [Bool.or_eq_true, not_or, Bool.not_eq_true, Bool.not_eq_false'] at hzero
    rw [← hpeak, value_of_isZero hzero.1]
    rfl

theorem recordBucket_nodup (hnodup : (hourly.map (·.bucketStart)).Nodup) (r : Report)
    (delta : CostMeterTotals) : ((recordBucket hourly r delta).map (·.bucketStart)).Nodup := by
  grind [recordBucket, upsertBucket_nodup]

/-- What a report over sources has of a counter. -/
def reportTotal (c : Counter) (report : List (Text × CostMeterTotals)) : Nat :=
  (report.map fun entry => (entry.2.value c).toNat).sum

theorem addToSource_nodup
    (hnodup : (report.map Prod.fst).Nodup) (b : Bucket) :
    ((addToSource report b).map Prod.fst).Nodup := by
  unfold addToSource
  split
  · grind
  · grind

theorem addToSource_total
    (hnodup : (report.map Prod.fst).Nodup) {b : Bucket}
    (hfit : reportTotal c report + (b.totals.value c).toNat < 2 ^ 64) :
    reportTotal c (addToSource report b) = reportTotal c report + (b.totals.value c).toNat := by
  unfold addToSource
  split
  · next hany =>
    obtain ⟨entry, hentry, hkey⟩ := any_eq_true.mp hany
    have hkey : entry.1 = b.source := by simpa using hkey
    have hle : (entry.2.value c).toNat ≤ reportTotal c report :=
      single_le_sum (by simp) _
        (mem_map_of_mem (f := fun entry => (entry.2.value c).toNat) hentry)
    have hsum := sum_replace (fun entry : Text × CostMeterTotals => (entry.2.value c).toNat)
      (fun entry => (entry.1, entry.2.add b.totals)) hnodup hentry
    grind [value_add, toNat_add_of_lt, reportTotal]
  · have hzero : CostMeterTotals.value {} c = 0 := by cases c <;> rfl
    simp [reportTotal, value_add, hzero]

theorem foldl_addToSource_total {rows : List Bucket}
    (hnodup : (report.map Prod.fst).Nodup)
    (hfit : reportTotal c report + hourlyTotal c rows < 2 ^ 64) :
    reportTotal c (rows.foldl addToSource report) =
      reportTotal c report + hourlyTotal c rows := by
  induction rows generalizing report with
  | nil => rfl
  | cons b rows ih =>
    have hcons : hourlyTotal c (b :: rows) = (b.totals.value c).toNat + hourlyTotal c rows := rfl
    have hadd := addToSource_total (c := c) (b := b) hnodup (by omega)
    rw [foldl_cons, ih (addToSource_nodup hnodup b) (by omega)]
    omega

/-- **The report by source**, over all hours and sources, has the total of the hourly rows. -/
theorem costMeter_total {t : Tables} {since : Int}
    (hsince : ∀ b ∈ t.hourly, truncateHour since ≤ b.bucketStart)
    (hfit : hourlyTotal c t.hourly < 2 ^ 64) :
    reportTotal c (costMeter t [] since none) = hourlyTotal c t.hourly := by
  have hall : (t.hourly.filter fun b => truncateHour since ≤ b.bucketStart &&
      ((none : Option Int).all fun stop => b.bucketStart < costMeterWindowEnd stop) &&
      (([] : Text) = [] || b.source = [])) = t.hourly := by
    rw [filter_eq_self]
    intro b hb
    simpa using hsince b hb
  have hsorted : hourlyTotal c (t.hourly.insertionSort fun a b => a.bucketStart ≤ b.bucketStart) =
      hourlyTotal c t.hourly :=
    ((perm_insertionSort _ t.hourly).map _).sum_eq
  unfold costMeter
  dsimp only
  rw [hall]
  refine (((perm_insertionSort _ _).map _).sum_eq).trans ?_
  show reportTotal c (foldl addToSource [] _) = _
  grind [foldl_addToSource_total, reportTotal]

end Hourly

/-! ## §5 — a sequence of calls -/

variable {r : Report}

/-- What the deltas of a run add up to. -/
def Run.total (s : Run) (c : Counter) : Nat := (s.deltas.map fun δ => (δ.value c).toNat).sum

def Run.onRecord (s : Run) : Option ObjectStoreCounters := s.tables.state.map (·.counters)

theorem run_concat (reports : List Report) (r : Report) :
    run (reports ++ [r]) = (run reports).record r := by
  rw [run, foldl_append]
  rfl

theorem record_total (s : Run) (r : Report) (c : Counter) :
    (s.record r).total c = s.total c + ((recordCostMeter s.tables r).2.value c).toNat := by
  grind [Run.total, Run.record]

theorem recordCostMeter_stale {t : Tables} (h : t.stale r = true) :
    recordCostMeter t r = (t, {}) := if_pos h

theorem recordCostMeter_accepted {t : Tables} (h : t.stale r = false) :
    recordCostMeter t r =
      ({ state := some ⟨r.source, r.observedAt,
            (costMeterDelta (t.state.map (·.counters)) r.counters).2⟩
         hourly := recordBucket t.hourly r
            (costMeterDelta (t.state.map (·.counters)) r.counters).1 },
        (costMeterDelta (t.state.map (·.counters)) r.counters).1) :=
  if_neg (by simp [h])

theorem value_empty (c : Counter) : CostMeterTotals.value {} c = 0 := by cases c <;> rfl

/-- The record is that of the accepted reports, and the deltas are their usage. -/
structure RunOK (s : Run) : Prop where
  observedAt : s.tables.state.map (·.observedAt) = s.accepted.getLast?.map (·.observedAt)
  metered : Metered s.accepted (s.onRecord.getD {})
  total : ∀ c, s.total c = usage (readings c s.accepted)

theorem RunOK.start : RunOK {} where
  observedAt := rfl
  metered :=
    { epoch := rfl
      worker := fun c hc => by cases c <;> simp [readings, hc] <;> rfl
      litestream := .inl ⟨rfl, fun c _ => by cases c <;> rfl, fun _ h => absurd h not_mem_nil⟩ }
  total c := by cases hc : c.ofLitestream <;> simp [readings, hc] <;> rfl

/-- **One call**: no delta exceeds the value reported, and the run stays metered. -/
theorem RunOK.record {s : Run} (h : RunOK s)
    (hl : Lifetimes (s.record r).accepted) :
    RunOK (s.record r) ∧
      ∀ c, ((recordCostMeter s.tables r).2.value c).toNat ≤ r.value c := by
  cases hstale : s.tables.stale r with
  | true =>
    have haccepted : (s.record r).accepted = s.accepted := if_pos hstale
    have htables : (s.record r).tables = s.tables := by
      show (recordCostMeter s.tables r).1 = _
      rw [recordCostMeter_stale hstale]
    refine ⟨⟨?_, ?_, ?_⟩, ?_⟩
    · rw [haccepted, htables]
      exact h.observedAt
    · rw [haccepted, Run.onRecord, htables]
      exact h.metered
    · intro c
      rw [record_total, haccepted, recordCostMeter_stale hstale, value_empty]
      exact h.total c
    · intro c
      rw [recordCostMeter_stale hstale, value_empty]
      exact Nat.zero_le _
  | false =>
    have haccepted : (s.record r).accepted = s.accepted ++ [r] := if_neg (by simp [hstale])
    rw [haccepted] at hl
    have hrecord := recordCostMeter_accepted hstale
    refine ⟨⟨?_, ?_, ?_⟩, ?_⟩
    · grind [Run.record]
    · rw [haccepted]
      show Metered _ ((((recordCostMeter s.tables r).1).state.map _).getD {})
      rw [hrecord]
      exact h.metered.record hl
    · intro c
      rw [record_total, haccepted, h.total c, hrecord]
      exact (record_usage hl h.metered c).1.symm
    · intro c
      rw [hrecord]
      exact (record_usage hl h.metered c).2.1

/-- Every run keeps the record, and no delta exceeds its report. -/
theorem run_ok {reports : List Report} (hl : Lifetimes (run reports).accepted) :
    RunOK (run reports) ∧
      List.Forall₂ (fun r δ => ∀ c, (CostMeterTotals.value δ c).toNat ≤ Report.value r c) reports
        (run reports).deltas := by
  induction reports using reverseRecOn with
  | nil => exact ⟨.start, .nil⟩
  | append_singleton reports r ih =>
    rw [run_concat] at hl ⊢
    -- the earlier reports have the same lifetimes
    have hearlier : Lifetimes (run reports).accepted := by
      cases hstale : (run reports).tables.stale r with
      | true => rwa [show ((run reports).record r).accepted = _ from if_pos hstale] at hl
      | false =>
        rw [show ((run reports).record r).accepted = _ from if_neg (by simp [hstale])] at hl
        exact hl.of_concat
    obtain ⟨hok, hdeltas⟩ := ih hearlier
    obtain ⟨hnext, hle⟩ := hok.record hl
    exact ⟨hnext, rel_append hdeltas (.cons hle .nil)⟩

/-- **The hourly rows** hold the deltas. -/
theorem run_hourly {reports : List Report} (hfit : ∀ c, (run reports).total c < 2 ^ 64) :
    ((run reports).tables.hourly.map (·.bucketStart)).Nodup ∧
      ∀ c, hourlyTotal c (run reports).tables.hourly = (run reports).total c := by
  induction reports using reverseRecOn with
  | nil => exact ⟨.nil, fun _ => rfl⟩
  | append_singleton reports r ih =>
    rw [run_concat] at hfit ⊢
    obtain ⟨hnodup, htotal⟩ := ih fun c => by
      have := hfit c
      rw [record_total] at this
      omega
    cases hstale : (run reports).tables.stale r with
    | true =>
      have htables : ((run reports).record r).tables = (run reports).tables := by
        show (recordCostMeter _ r).1 = _
        rw [recordCostMeter_stale hstale]
      rw [htables]
      refine ⟨hnodup, fun c => ?_⟩
      rw [record_total, recordCostMeter_stale hstale, value_empty]
      exact htotal c
    | false =>
      have hrecord := recordCostMeter_accepted hstale
      have hhourly : ((run reports).record r).tables.hourly =
          recordBucket (run reports).tables.hourly r
            (recordCostMeter (run reports).tables r).2 := by
        show (recordCostMeter _ r).1.hourly = _
        rw [hrecord]
      rw [hhourly]
      refine ⟨recordBucket_nodup hnodup r _, fun c => ?_⟩
      have := hfit c
      rw [record_total] at this
      rw [record_total, recordBucket_total hnodup r (by rw [htotal]; exact this), htotal]

theorem RunOK.replay {s : Run} {last : Report} (h : RunOK s) (hl : Lifetimes s.accepted)
    (hlast : s.accepted.getLast? = some last) :
    s.tables.stale last = false ∧ ∀ c, (recordCostMeter s.tables last).2.value c = 0 := by
  obtain ⟨earlier, hearlier⟩ := getLast?_eq_some_iff.mp hlast
  have hstale : s.tables.stale last = false := by
    have hobserved := h.observedAt
    rw [hlast] at hobserved
    obtain ⟨state, hstate, hsame⟩ := Option.map_eq_some_iff.mp hobserved
    simp [Tables.stale, hstate, hsame]
  refine ⟨hstale, fun c => toNat_eq_zero ?_⟩
  have hmetered := h.metered
  rw [hearlier] at hmetered hl
  have husage := (record_usage hl.repeat_last hmetered c).1
  rw [usage_repeat] at husage
  rw [recordCostMeter_accepted hstale]
  show ((costMeterDelta s.onRecord last.counters).1.value c).toNat = 0
  omega

/-- **Metering conserves usage.** Over any sequence of calls for a worker, for every counter: the
deltas recorded add up to the highest readings of its lifetimes, no delta exceeds the value it was
read from, the last report accepted adds nothing when it comes again, and the hourly rows, over all
hours and sources, hold the deltas. -/
theorem cost_meter_conserves (reports : List Report) (hl : Lifetimes (run reports).accepted)
    (hfit : ∀ c, usage (readings c (run reports).accepted) < 2 ^ 64) :
    (∀ c, (run reports).total c = usage (readings c (run reports).accepted)) ∧
      List.Forall₂ (fun r δ => ∀ c, (CostMeterTotals.value δ c).toNat ≤ Report.value r c) reports
        (run reports).deltas ∧
      (∀ last ∈ (run reports).accepted.getLast?, ∀ c,
        (recordCostMeter (run reports).tables last).2.value c = 0 ∧
          hourlyTotal c (recordCostMeter (run reports).tables last).1.hourly =
            hourlyTotal c (run reports).tables.hourly) ∧
      (∀ c, hourlyTotal c (run reports).tables.hourly = (run reports).total c) ∧
      ∀ since : Int, (∀ b ∈ (run reports).tables.hourly, truncateHour since ≤ b.bucketStart) →
        ∀ c, reportTotal c (costMeter (run reports).tables [] since none) =
          (run reports).total c := by
  obtain ⟨hok, hle⟩ := run_ok hl
  have hfits : ∀ c, (run reports).total c < 2 ^ 64 := fun c => hok.total c ▸ hfit c
  obtain ⟨hnodup, hhourly⟩ := run_hourly hfits
  refine ⟨hok.total, hle, ?_, hhourly, ?_⟩
  · intro last hlast c
    obtain ⟨hstale, hzero⟩ := hok.replay hl hlast
    refine ⟨hzero c, ?_⟩
    have hrecord := recordCostMeter_accepted hstale
    have hdelta : (costMeterDelta (run reports).onRecord last.counters).1.value c = 0 := by
      have := hzero c
      rwa [hrecord] at this
    have hsum : hourlyTotal c (run reports).tables.hourly +
        ((costMeterDelta (run reports).onRecord last.counters).1.value c).toNat < 2 ^ 64 := by
      rw [hdelta, hhourly]
      exact hfits c
    rw [hrecord]
    refine (recordBucket_total hnodup last hsum).trans ?_
    rw [hdelta]
    rfl
  · intro since hsince c
    rw [costMeter_total hsince (by rw [hhourly]; exact hfits c), hhourly]

def putReport (observedAt : Int) (epoch litestreamEpoch : Text) (requests : UInt64)
    (operations : Option UInt64) : Report where
  observedAt := observedAt
  source := text "main"
  counters :=
    { objectStoreCounterEpoch := epoch
      litestreamCounterEpoch := litestreamEpoch
      maps := fun
        | .replicaRequests => some (AList.singleton (text "PUT") requests)
        | .litestreamObjectOperations => operations.map (AList.singleton (text "PUT"))
        | _ => none }

/-- Two workers and three Litestream processes, with a value that falls and a report that is
late. -/
def putReports : List Report :=
  [putReport 1 (text "w1") (text "l1") 5 (some 3), putReport 2 (text "w1") (text "l2") 4 (some 2),
    putReport 1 (text "w1") (text "l1") 9 (some 9), putReport 3 (text "w2") (text "l3") 7 none,
    putReport 4 (text "w2") (text "l3") 8 (some 1)]

theorem putReports_accepted : (run putReports).accepted =
    [putReport 1 (text "w1") (text "l1") 5 (some 3), putReport 2 (text "w1") (text "l2") 4 (some 2),
      putReport 3 (text "w2") (text "l3") 7 none, putReport 4 (text "w2") (text "l3") 8 (some 1)] :=
  rfl

theorem putReports_lifetimes : Lifetimes (run putReports).accepted := by
  rw [putReports_accepted]
  exact ⟨by decide, by decide, by decide, by decide, by decide⟩

theorem putReport_value {key : Text} (hkey : key ≠ text "PUT") (t : Int) (w l : Text) (n : UInt64)
    (m : Option UInt64) (field : Field) : (putReport t w l n m).value (.map field key) = 0 := by
  have hnone : ∀ v : UInt64, lookupCounter (some (AList.singleton (text "PUT") v)) key = 0 := by
    intro v
    show lookupCounter (insertCounter none (text "PUT") v) key = 0
    rw [lookupCounter_insert, if_neg hkey]
    rfl
  show (lookupCounter ((putReport t w l n m).counters.maps field) key).toNat = 0
  cases field with
  | replicaRequests => exact congrArg UInt64.toNat (hnone n)
  | litestreamObjectOperations =>
    cases m with
    | none => rfl
    | some v => exact congrArg UInt64.toNat (hnone v)
  | _ => rfl

theorem putReports_fit (c : Counter) : usage (readings c (run putReports).accepted) < 2 ^ 64 := by
  rw [putReports_accepted]
  cases c with
  | map field key =>
    by_cases hkey : key = text "PUT"
    · subst hkey
      cases field <;> decide
    · -- a key that no report has
      have hlitestream : [putReport 1 (text "w1") (text "l1") 5 (some 3),
          putReport 2 (text "w1") (text "l2") 4 (some 2),
            putReport 3 (text "w2") (text "l3") 7 none,
          putReport 4 (text "w2") (text "l3") 8 (some 1)].filter (·.hasLitestream) =
          [putReport 1 (text "w1") (text "l1") 5 (some 3),
            putReport 2 (text "w1") (text "l2") 4 (some 2),
            putReport 4 (text "w2") (text "l3") 8 (some 1)] := rfl
      unfold readings
      rw [hlitestream]
      simp only [map, putReport_value hkey]
      split <;> decide
  | _ => decide

/-- The counter of the two workers comes to 5 and 8, the one of the three processes to 3, 2 and
1. -/
theorem cost_meter_conserves_restarts :
    (run putReports).total (.map .replicaRequests (text "PUT")) = 13 ∧
      hourlyTotal (.map .litestreamObjectOperations (text "PUT")) (run putReports).tables.hourly =
        6 := by
  obtain ⟨htotal, -, -, hhourly, -⟩ :=
    cost_meter_conserves putReports putReports_lifetimes putReports_fit
  rw [hhourly, htotal, htotal, putReports_accepted]
  exact ⟨by decide, by decide⟩

end LitestreamSoak.Store.CostMeter
