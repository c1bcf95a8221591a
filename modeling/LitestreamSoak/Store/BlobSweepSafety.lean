import LitestreamSoak.Store.BlobSweep

/-!
# Store — the blob sweep leaves no dangling reference

One invariant relates the tables, the cache, the pins and everything in flight:

* **`Inv.refs`, `Inv.ids`, `Inv.bodies`** — the promise itself (`State.Sound`).
* **`Inv.procs`** — what a process has at hand is in the table, and while a sweep runs a writer
  with a hold has pinned every reference it has collected.
* **`Inv.marks`** — in a column the sweep has scanned every reference is *covered*: pinned, marked
  by a scan, or (later) no candidate.
* **`Inv.cache`** — once the sweep has cleared the cache every cached id is covered, or a process
  has cached it and is about to pin it.

A batch deletes nothing that is covered, so the invariant survives it as long as no writer without
a hold is exposed. `sound_of_careful` is the result; `dangling_reference_after_sweep` is what
happens otherwise.
-/

namespace LitestreamSoak.Store.BlobSweep

open Lib List

/-! ## §1 — how references move between the columns -/

namespace Tables

variable {ref : Ref} {t : Tables} {c : Column}

theorem mem_refs_of_append {α : Type} {rows : List α} {column : α → Snapshot} {new : α}
    (h : ref ∈ ((rows ++ [new]).map column).flatMap Snapshot.refs) :
    ref ∈ (rows.map column).flatMap Snapshot.refs ∨ ref ∈ (column new).refs := by
  grind

theorem mem_refs_of_filter {α : Type} {rows : List α} {column : α → Snapshot} {p : α → Bool}
    (h : ref ∈ ((rows.filter p).map column).flatMap Snapshot.refs) :
    ref ∈ (rows.map column).flatMap Snapshot.refs := by
  grind

/-- The trigger copies the event's references, and no others. -/
theorem refs_journalEvent {event : Event}
    (h : ref ∈ (t.journalEvent event).refs c) :
    ref ∈ t.refs c ∨ (c = .evidenceEvents ∧ ref ∈ event.details.refs) := by
  unfold journalEvent at h
  split at h
  · exact .inl h
  · cases c with
    | evidenceEvents => exact (mem_refs_of_append h).imp_right fun href => ⟨rfl, href⟩
    | _ => exact .inl h

theorem mem_refs_of_map {α : Type} {rows : List α} {column : α → Snapshot} {f : α → α}
    {written : Snapshot} (hf : ∀ row, f row = row ∨ column (f row) = written)
    (h : ref ∈ ((rows.map f).map column).flatMap Snapshot.refs) :
    ref ∈ (rows.map column).flatMap Snapshot.refs ∨ ref ∈ written.refs := by
  grind

/-- A write adds the references of its snapshot at most. -/
theorem refs_write {w : Write}
    (h : ref ∈ (t.write w).refs c) : ref ∈ t.refs c ∨ ref ∈ w.snapshot.refs := by
  cases w with
  | worker id s =>
    cases c with
    | workers =>
      refine mem_refs_of_map (fun w => ?_) h
      split
      · exact .inr rfl
      · exact .inl rfl
    | _ => exact .inl h
  | newEvent id workerID createdAt s =>
    rcases refs_journalEvent h with hevents | ⟨_, hcopy⟩
    · cases c with
      | events => exact mem_refs_of_append hevents
      | _ => exact .inl hevents
    · exact .inr hcopy
  | eventDetails id createdAt s =>
    simp only [write] at h
    split at h
    · exact .inl h
    · rcases refs_journalEvent h with hevents | ⟨_, hcopy⟩
      · cases c with
        | events =>
          refine mem_refs_of_map (fun e => ?_) hevents
          split
          · exact .inr rfl
          · exact .inl rfl
        | _ => exact .inl hevents
      · exact .inr hcopy
  | verification id s =>
    cases c with
    | evidenceVerifications =>
      refine mem_refs_of_map (fun v => ?_) h
      split
      · exact .inr rfl
      · exact .inl rfl
    | _ => exact .inl h
  | journal journalID s =>
    cases c with
    | evidenceEvents =>
      refine mem_refs_of_map (fun row => ?_) h
      split
      · exact .inr rfl
      · exact .inl rfl
    | _ => exact .inl h

theorem refs_foldl_write {writes : List Write}
    (h : ref ∈ (writes.foldl write t).refs c) :
    ref ∈ t.refs c ∨ ∃ w ∈ writes, ref ∈ w.snapshot.refs := by
  induction writes generalizing t with
  | nil => exact .inl h
  | cons w writes ih =>
    rcases ih h with hfirst | ⟨w', hw', href⟩
    · rcases refs_write hfirst with hold | href
      · exact .inl hold
      · exact .inr ⟨w, by simp, href⟩
    · exact .inr ⟨w', by simp [hw'], href⟩

theorem mem_refs_of_row {snapshot : Snapshot}
    (h : snapshot ∈ t.snapshots c) (href : ref ∈ snapshot.refs) : ref ∈ t.refs c :=
  mem_flatMap.mpr ⟨snapshot, h, href⟩

/-- A statement without a hold copies references between columns. -/
theorem refs_execute {statement : Statement}
    (h : ref ∈ (t.execute statement).refs c) :
    ref ∈ t.refs c ∨ (c = .evidenceVerifications ∧ ref ∈ t.refs .workers) ∨
      (c = .evidenceEvents ∧ ref ∈ t.refs .events ∧ ∃ id, statement = .touchEvent id) := by
  cases statement with
  | recordVerification id workerID =>
    cases c with
    | evidenceVerifications =>
      rcases mem_refs_of_append h with hold | hcopy
      · exact .inl hold
      · cases hfind : t.workers.find? fun w => w.id = workerID with
        | none => rw [hfind] at hcopy; cases hcopy
        | some w => grind [Tables.snapshots, Tables.refs]
    | _ => exact .inl h
  | touchEvent id =>
    simp only [execute] at h
    split at h
    · next event hfind =>
      grind [Tables.snapshots, mem_map_of_mem, Tables.refs_journalEvent, Tables.refs]
    · exact .inl h
  | createWorker id =>
    cases c with
    | workers =>
      rcases mem_refs_of_append h with hold | hnew
      · exact .inl (mem_refs_of_filter hold)
      · cases hnew
    | _ => exact .inl h
  | deleteWorker id =>
    cases c with
    | workers => exact .inl (mem_refs_of_filter h)
    | events => exact .inl (mem_refs_of_filter h)
    | _ => exact .inl h
  | pruneEvents ids =>
    cases c with
    | events => exact .inl (mem_refs_of_filter h)
    | _ => exact .inl h
  | pruneEvidence verifications events =>
    cases c with
    | workers => exact .inl h
    | events => exact .inl h
    | _ => exact .inl (mem_refs_of_filter h)

end Tables

/-! ## §2 — the invariant -/

/-- The sweep has scanned the column. -/
def Sweeper.Scanned : Sweeper → Column → Prop
  | .scanning _ todo _, c => c ∉ todo
  | .deleting _ _, _ => True
  | _, _ => False

/-- The sweep will not delete the blob: marked, or no candidate. -/
def Sweeper.Spares : Sweeper → Nat → Prop
  | .scanning _ _ marked, id => id ∈ marked
  | .deleting candidates _, id => id ∉ candidates
  | _, _ => False

def Sweeper.cleared : Sweeper → Bool
  | .deleting _ cleared => cleared
  | _ => false

def Proc.Caching : Proc → Nat → Prop
  | .writer _ _ _ (.cached id), id' => id = id'
  | _, _ => False

section

variable {Digest : Type} {sha256 : Item → Digest}

namespace State

/-- The blob is safe from the sweep under way. -/
def Covered (s : State sha256) (id : Nat) : Prop := id ∈ s.pinned ∨ s.sweeper.Spares id

def Cached (s : State sha256) (id : Nat) : Prop :=
  (∃ digest, s.ids digest = some id) ∨ s.bodies id ≠ none

/-- What a process may rely on. -/
def ProcOK (s : State sha256) : Proc → Prop
  | .idle => True
  | .writer locked todo done stage =>
    (locked = true → ∀ ref ∈ done, s.Valid ref ∧ (s.pinning = true → ref.id ∈ s.pinned)) ∧
    match stage with
    | .hit id => locked = true → ∀ item ∈ todo.head?, s.Valid ⟨id, item⟩
    | .inserted id => ∀ item ∈ todo.head?, s.Valid ⟨id, item⟩
    | .cached id => ∀ item ∈ todo.head?, s.Valid ⟨id, item⟩
    | _ => True
  | .reader todo loaded =>
    ∀ ref, ref ∈ todo ∨ ref ∈ loaded →
      s.Valid ref ∧ (s.sweeper.cleared = true → s.Covered ref.id)

end State

variable {s s' : State sha256} {id : Nat}

structure Inv (s : State sha256) : Prop extends s.Sound where
  procs : ∀ proc ∈ s.procs, s.ProcOK proc
  pinning : s.pinning = true ↔ s.sweeper ≠ .idle
  todo : ∀ maxID todo marked, s.sweeper = .scanning maxID todo marked →
    todo <:+ profileBlobReferenceColumns
  marks : ∀ c, s.sweeper.Scanned c → ∀ ref ∈ s.tables.refs c, s.Covered ref.id
  cache : s.sweeper.cleared = true → ∀ id, s.Cached id →
    s.Covered id ∨ ∃ proc ∈ s.procs, proc.Caching id

theorem Inv.of_started (h : s.Started) : Inv s where
  refs := h.refs
  ids := fun digest id hid => by rw [h.ids] at hid; cases hid
  bodies := fun id item hid => by rw [h.bodies] at hid; cases hid
  procs := fun proc hproc => by rw [h.procs proc hproc]; exact trivial
  pinning := by rw [h.pinning, h.sweeper]; simp
  todo := fun maxID todo marked hs => by rw [h.sweeper] at hs; cases hs
  marks := fun c hc => by rw [h.sweeper] at hc; exact hc.elim
  cache := fun hcleared => by rw [h.sweeper] at hcleared; cases hcleared

/-- `s'` comes after `s` in the same phase of the sweep, with nothing deleted or unpinned. -/
structure Grows (s s' : State sha256) : Prop where
  blobs : s.blobs.Extends s'.blobs
  pinning : s'.pinning = s.pinning
  pinned : ∀ id ∈ s.pinned, id ∈ s'.pinned
  sweeper : s'.sweeper = s.sweeper

theorem Grows.valid (h : Grows s s') {ref : Ref} (hv : s.Valid ref) :
    s'.Valid ref := h.blobs _ _ hv

theorem Grows.covered (h : Grows s s') (hc : s.Covered id) :
    s'.Covered id := hc.imp (h.pinned id) fun hs => by rw [h.sweeper]; exact hs

theorem Grows.procOK (h : Grows s s') {proc : Proc} (hok : s.ProcOK proc) : s'.ProcOK proc := by
  cases proc with
  | idle => exact trivial
  | writer locked todo done stage =>
    refine ⟨fun hlocked ref href => ?_, ?_⟩
    · obtain ⟨hvalid, hpinned⟩ := hok.1 hlocked ref href
      exact ⟨h.valid hvalid, fun hp => h.pinned _ (hpinned (h.pinning ▸ hp))⟩
    · cases stage with
      | next => exact trivial
      | miss => exact trivial
      | hit id => exact fun hlocked item hitem => h.valid (hok.2 hlocked item hitem)
      | _ => exact fun item hitem => h.valid (hok.2 item hitem)
  | reader todo loaded => grind [Grows.valid, Grows.covered, Grows.sweeper, State.ProcOK]

/-- A row with this digest, in terms of its body. -/
theorem digest_row_iff {t : BlobTable sha256} {digest : Digest} :
    (∃ row ∈ t.rows, row.id = id ∧ row.digest = digest) ↔
      ∃ item, t.body id = some item ∧ sha256 item = digest := by
  grind [BlobTable.body_of_mem, BlobTable.digest_eq, BlobTable.exists_of_body]

/-! ## §3 — steps of one process -/

variable {old new : Proc} {p : Nat} {digest : Option Digest} {id' : Nat} {body : Item}
  {evict : Bool}

/-- **The frame rule.** A step of process `p` that leaves the sweep in its phase and deletes
nothing: it is enough to look at what it adds to the tables and the cache, and at `p` itself. -/
theorem Inv.of_grows {s₁ : State sha256} (hinv : Inv s) (hgrow : Grows s s₁)
    (hold : s.procs[p]? = some old) (hprocs : s₁.procs = s.procs)
    (hrefs : ∀ c, ∀ ref ∈ s₁.tables.refs c,
      ref ∈ s.tables.refs c ∨ (s₁.Valid ref ∧ (s₁.sweeper.Scanned c → s₁.Covered ref.id)))
    (hids : ∀ digest id, s₁.ids digest = some id →
      s.ids digest = some id ∨ ∃ item, s₁.Valid ⟨id, item⟩ ∧ sha256 item = digest)
    (hbodies : ∀ id item, s₁.bodies id = some item →
      s.bodies id = some item ∨ s₁.Valid ⟨id, item⟩)
    (hcached : s₁.sweeper.cleared = true → ∀ id, s₁.Cached id →
      s.Cached id ∨ s₁.Covered id ∨ new.Caching id) (hnew : s₁.ProcOK new)
    (hcaching : ∀ id, old.Caching id → new.Caching id ∨
      (s₁.sweeper.cleared = true → s₁.Covered id)) : Inv (s₁.setProc p new) := by
  have hlt : p < s.procs.length := (List.getElem?_eq_some_iff.mp hold).1
  have hmem : new ∈ s₁.procs.set p new := by
    rw [hprocs]
    exact mem_of_getElem? (i := p) (getElem?_set_self hlt)
  refine ⟨⟨fun c ref href => ?_, fun digest id hid => ?_, fun id item hid => ?_⟩,
    fun proc hproc => ?_, ?_, ?_, fun c hc ref href => ?_, fun hcleared id hid => ?_⟩
  · rcases hrefs c ref href with hbefore | hadded
    · exact hgrow.valid (hinv.refs c ref hbefore)
    · exact hadded.1
  · rw [digest_row_iff]
    rcases hids digest id hid with hbefore | ⟨item, hvalid, hdigest⟩
    · obtain ⟨item, hbody, hdigest⟩ := digest_row_iff.mp (hinv.ids digest id hbefore)
      exact ⟨item, hgrow.blobs _ _ hbody, hdigest⟩
    · exact ⟨item, hvalid, hdigest⟩
  · rcases hbodies id item hid with hbefore | hvalid
    · exact hgrow.blobs _ _ (hinv.bodies id item hbefore)
    · exact hvalid
  · have hproc : proc ∈ s₁.procs.set p new := hproc
    rcases mem_or_eq_of_mem_set hproc with hother | rfl
    · rw [hprocs] at hother
      exact hgrow.procOK (hinv.procs proc hother)
    · exact hnew
  · show s₁.pinning = true ↔ s₁.sweeper ≠ .idle
    rw [hgrow.pinning, hgrow.sweeper]
    exact hinv.pinning
  · show ∀ maxID todo marked, s₁.sweeper = _ → _
    rw [hgrow.sweeper]
    exact hinv.todo
  · rcases hrefs c ref href with hbefore | hadded
    · have hc : s₁.sweeper.Scanned c := hc
      rw [hgrow.sweeper] at hc
      exact hgrow.covered (hinv.marks c hc ref hbefore)
    · exact hadded.2 hc
  · rcases hcached hcleared id hid with hbefore | hcovered | hcaches
    · have hcleared : s₁.sweeper.cleared = true := hcleared
      rcases hinv.cache (hgrow.sweeper ▸ hcleared) id hbefore with hcovered | ⟨proc, hproc, hcaches⟩
      · exact .inl (hgrow.covered hcovered)
      · -- the process that is about to pin the id is another one, or `p` itself
        obtain ⟨q, hq, hget⟩ := getElem_of_mem hproc
        by_cases hqp : q = p
        · obtain rfl : proc = old := by
            rw [← hqp, getElem?_eq_getElem hq, hget] at hold
            exact Option.some.inj hold
          rcases hcaching id hcaches with hstill | hcovered
          · exact .inr ⟨new, hmem, hstill⟩
          · exact .inl (hcovered hcleared)
        · refine .inr ⟨proc, ?_, hcaches⟩
          show proc ∈ s₁.procs.set p new
          rw [hprocs]
          refine mem_of_getElem? (i := q) ?_
          rw [getElem?_set_ne (Ne.symm hqp), getElem?_eq_getElem hq, hget]
    · exact .inl hcovered
    · exact .inr ⟨new, hmem, hcaches⟩

/-- A process that moves on, and changes nothing else. -/
theorem Inv.of_proc (hinv : Inv s)
    (hold : s.procs[p]? = some old) (hnew : s.ProcOK new)
    (hcaching : ∀ id, old.Caching id → new.Caching id) : Inv (s.setProc p new) :=
  hinv.of_grows ⟨.refl _, rfl, fun _ h => h, rfl⟩ hold rfl (fun _ _ h => .inl h)
    (fun _ _ h => .inl h) (fun _ _ h => .inl h) (fun _ _ h => .inl h) hnew
    fun id h => .inl (hcaching id h)

theorem Inv.proc (hinv : Inv s) {proc : Proc}
    (h : s.procs[p]? = some proc) : s.ProcOK proc :=
  hinv.procs proc (mem_of_getElem? h)

variable [DecidableEq Digest]

theorem inv_beginWriter (hinv : Inv s) {locked : Bool}
    {items : List Item} (h : step sha256 s (.beginWriter p locked items) = some s') : Inv s' := by
  simp only [step] at h
  split at h
  · next hp =>
    cases h
    exact hinv.of_proc hp ⟨fun _ ref href => (not_mem_nil href).elim, trivial⟩ fun _ hc => hc.elim
  · cases h

/-- A cached id is that of the item, as digests are injective. -/
theorem inv_lookup (hsha : Function.Injective sha256) (hinv : Inv s)
    (h : step sha256 s (.lookup p) = some s') : Inv s' := by
  simp only [step] at h
  split at h
  · next locked item todo done hp =>
    split at h
    · next id hid =>
      cases h
      refine hinv.of_proc hp ⟨(hinv.proc hp).1, fun _ item' hitem' => ?_⟩ fun _ hc => hc.elim
      obtain ⟨item'', hbody, hdigest⟩ := digest_row_iff.mp (hinv.ids _ _ hid)
      obtain rfl : item = item' := by simpa using hitem'
      rw [hsha hdigest] at hbody
      exact hbody
    · cases h
      exact hinv.of_proc hp ⟨(hinv.proc hp).1, trivial⟩ fun _ hc => hc.elim
  · cases h

/-- The id an insert returns is in the table. -/
theorem inv_insert (hsha : Function.Injective sha256) (hinv : Inv s)
    (h : step sha256 s (.insert p) = some s') : Inv s' := by
  simp only [step] at h
  split at h
  · next locked item todo done hp =>
    cases h
    have hgrow : Grows s { s with blobs := (s.blobs.insert item).1 } :=
      ⟨s.blobs.extends_insert item, rfl, fun _ hid => hid, rfl⟩
    refine hinv.of_grows hgrow hp rfl (fun _ _ h => .inl h) (fun _ _ h => .inl h)
      (fun _ _ h => .inl h) (fun _ _ h => .inl h) ?_ fun _ hc => hc.elim
    refine ⟨(hgrow.procOK (hinv.proc hp)).1, fun item' hitem' => ?_⟩
    obtain rfl : item = item' := by simpa using hitem'
    exact BlobTable.body_insert hsha s.blobs item
  · cases h

/-- The cache has what it had, and the new entry. -/
theorem addID_cases {ids : Digest → Option Nat}
    {digest' : Digest} (h : State.addID ids digest id digest' = some id') :
    ids digest' = some id' ∨ (digest = some digest' ∧ id' = id) := by
  cases digest with
  | none => exact .inl h
  | some digest =>
    by_cases heq : digest' = digest
    · rw [heq] at h ⊢
      exact .inr ⟨rfl, by simpa [State.addID] using h.symm⟩
    · exact .inl (by simpa [State.addID, Function.update_of_ne heq] using h)

omit [DecidableEq Digest] in
theorem addBody_cases {bodies : Nat → Option Item}
    {body' : Item} (h : State.addBody bodies id body id' = some body') :
    bodies id' = some body' ∨ (id' = id ∧ body' = body) := by
  unfold State.addBody at h
  split at h
  · grind
  · exact .inl h

theorem cacheStore_ids {digest' : Digest}
    (h : (s.cacheStore digest id body evict).ids digest' = some id') :
    s.ids digest' = some id' ∨ (digest = some digest' ∧ id' = id) := by
  cases evict with
  | false => exact addID_cases h
  | true => exact (addID_cases h).imp_left fun hnone => by cases hnone

theorem cacheStore_bodies {body' : Item}
    (h : (s.cacheStore digest id body evict).bodies id' = some body') :
    s.bodies id' = some body' ∨ (id' = id ∧ body' = body) := by
  cases evict with
  | false => exact addBody_cases h
  | true =>
    have h : State.addBody s.clearCache.bodies id body id' = some body' := h
    exact (addBody_cases h).imp_left fun hnone => by cases hnone

theorem cacheStore_cached (h : (s.cacheStore digest id body evict).Cached id') :
    s.Cached id' ∨ id' = id := by
  rcases h with ⟨digest', hids⟩ | hbodies
  · rcases cacheStore_ids hids with hold | ⟨_, heq⟩
    · exact .inl (.inl ⟨digest', hold⟩)
    · exact .inr heq
  · obtain ⟨body', hbody'⟩ := Option.ne_none_iff_exists'.mp hbodies
    grind [cacheStore_bodies, State.Cached]

theorem grows_cacheStore (s : State sha256) (digest : Option Digest) (id : Nat) (body : Item)
    (evict : Bool) : Grows s (s.cacheStore digest id body evict) := by
  cases evict <;> exact ⟨.refl _, rfl, fun _ h => h, rfl⟩

theorem cacheStore_procs (s : State sha256) (digest : Option Digest) (id : Nat) (body : Item)
    (evict : Bool) : (s.cacheStore digest id body evict).procs = s.procs := by
  cases evict <;> rfl

theorem cacheStore_tables (s : State sha256) (digest : Option Digest) (id : Nat) (body : Item)
    (evict : Bool) : (s.cacheStore digest id body evict).tables = s.tables := by
  cases evict <;> rfl

/-- What is cached while a sweep runs is covered, or about to be pinned. -/
theorem Inv.of_cacheStore (hinv : Inv s)
    (hold : s.procs[p]? = some old)
    (hvalid : s.Valid ⟨id, body⟩) (hdigest : ∀ d ∈ digest, sha256 body = d)
    (hnew : s.ProcOK new) (hcaching : ∀ id', ¬ old.Caching id')
    (hpin : s.sweeper.cleared = true → s.Covered id ∨ new.Caching id) :
    Inv ((s.cacheStore digest id body evict).setProc p new) := by
  have hgrow := grows_cacheStore s digest id body evict
  refine hinv.of_grows hgrow hold (cacheStore_procs s digest id body evict) ?_ ?_ ?_ ?_
    (hgrow.procOK hnew) fun id' h => (hcaching id' h).elim
  · intro c ref href
    rw [cacheStore_tables] at href
    exact .inl href
  · intro digest' id' hids
    rcases cacheStore_ids hids with hbefore | ⟨hd, rfl⟩
    · exact .inl hbefore
    · exact .inr ⟨body, hgrow.valid hvalid, hdigest digest' hd⟩
  · intro id' body' hbodies
    rcases cacheStore_bodies hbodies with hbefore | ⟨rfl, rfl⟩
    · exact .inl hbefore
    · exact .inr (hgrow.valid hvalid)
  · intro hcleared id' hcached
    rcases cacheStore_cached hcached with hbefore | rfl
    · exact .inl hbefore
    · rw [hgrow.sweeper] at hcleared
      exact .inr ((hpin hcleared).imp_left hgrow.covered)

theorem inv_cache (hinv : Inv s) (h : step sha256 s (.cache p evict) = some s') : Inv s' := by
  simp only [step] at h
  split at h
  · next locked item todo done id hp =>
    cases h
    have hok := hinv.proc hp
    exact hinv.of_cacheStore hp (hok.2 item (by simp)) (fun d hd => by simpa using hd) hok
      (fun _ hc => hc.elim) fun _ => .inr rfl
  · cases h

theorem inv_cacheBody (hinv : Inv s)
    (h : step sha256 s (.cacheBody p evict) = some s') : Inv s' := by
  simp only [step] at h
  split at h
  · next todo ref hp =>
    cases h
    have hok := hinv.proc hp
    obtain ⟨hvalid, hcovered⟩ := hok ref (.inr (by simp))
    refine hinv.of_cacheStore hp hvalid (fun d hd => by cases hd) ?_ (fun _ hc => hc.elim)
      fun hcleared => .inl (hcovered hcleared)
    intro ref' href'
    exact hok ref' (href'.imp_right fun hnone => by cases hnone)
  · cases h

omit [DecidableEq Digest] in
theorem grows_pinID (s : State sha256) (id : Nat) : Grows s (s.pinID id) := by
  unfold State.pinID
  split
  · exact ⟨.refl _, rfl, fun _ h => mem_cons_of_mem _ h, rfl⟩
  · exact ⟨.refl _, rfl, fun _ h => h, rfl⟩

omit [DecidableEq Digest] in
theorem mem_pinned_pinID (id : Nat) (h : s.pinning = true) : id ∈ (s.pinID id).pinned := by
  simp [State.pinID, h]

omit [DecidableEq Digest] in
theorem pinID_frame (s : State sha256) (id : Nat) :
    (s.pinID id).tables = s.tables ∧ (s.pinID id).ids = s.ids ∧
      (s.pinID id).bodies = s.bodies ∧ (s.pinID id).procs = s.procs := by
  unfold State.pinID
  split <;> exact ⟨rfl, rfl, rfl, rfl⟩

omit [DecidableEq Digest] in
/-- A pin covers the id the process has at hand. -/
theorem Inv.of_pinID (hinv : Inv s) {locked : Bool} {item : Item}
    {todo : List Item} {done : List Ref} {stage : Stage}
    (hold : s.procs[p]? = some (.writer locked (item :: todo) done stage))
    (hvalid : locked = true → s.Valid ⟨id, item⟩)
    (hcaching : ∀ id', (Proc.writer locked (item :: todo) done stage).Caching id' → id' = id) :
    Inv ((s.pinID id).setProc p (.writer locked todo (done ++ [⟨id, item⟩]) .next)) := by
  have hgrow := grows_pinID s id
  obtain ⟨htables, hids, hbodies, hprocs⟩ := pinID_frame s id
  have hdone := (hgrow.procOK (hinv.proc hold)).1
  refine hinv.of_grows hgrow hold hprocs (fun c ref href => .inl (htables ▸ href))
    (fun d i h => .inl (hids ▸ h)) (fun i b h => .inl (hbodies ▸ h)) ?_ ⟨?_, trivial⟩ ?_
  · intro _ id' hcached
    simp only [State.Cached, hids, hbodies] at hcached
    exact .inl hcached
  · grind [State.Valid, State.pinID]
  · intro id' hc
    rw [hcaching id' hc]
    refine .inr fun hcleared => .inl (mem_pinned_pinID id (hinv.pinning.mpr ?_))
    rw [hgrow.sweeper] at hcleared
    intro hidle
    rw [hidle] at hcleared
    cases hcleared

theorem inv_pin (hinv : Inv s) (h : step sha256 s (.pin p) = some s') : Inv s' := by
  simp only [step] at h
  split at h
  · next locked item todo done id hp =>
    cases h
    exact hinv.of_pinID hp (fun hlocked => (hinv.proc hp).2 hlocked item (by simp))
      fun _ hc => hc.elim
  · next locked item todo done id hp =>
    cases h
    exact hinv.of_pinID hp (fun _ => (hinv.proc hp).2 item (by simp)) fun _ hc => hc.symm
  · cases h

theorem inv_beginReader (hinv : Inv s) {c : Column} {row : Nat}
    (h : step sha256 s (.beginReader p c row) = some s') : Inv s' := by
  simp only [step] at h
  split at h
  · next snapshot hp hrow =>
    cases h
    refine hinv.of_proc hp (fun ref href => ?_) fun _ hc => hc.elim
    have hmem : ref ∈ s.tables.refs c :=
      Tables.mem_refs_of_row (mem_of_getElem? hrow) (href.resolve_right fun hn => by cases hn)
    refine ⟨hinv.refs c ref hmem, fun hcleared => hinv.marks c ?_ ref hmem⟩
    -- the cache is only cleared once every column has been scanned
    cases hs : s.sweeper with
    | deleting candidates cleared => exact trivial
    | _ => rw [hs] at hcleared; cases hcleared
  · cases h

/-- A reader holds the lock, so what it read is still there. -/
theorem inv_load (hinv : Inv s) (h : step sha256 s (.load p) = some s') : Inv s' := by
  simp only [step] at h
  split at h
  · next ref todo hp =>
    have hok := hinv.proc hp
    have hrest : ∀ ref' ∈ todo, s.Valid ref' ∧ (s.sweeper.cleared = true → s.Covered ref'.id) :=
      fun ref' href' => hok ref' (.inl (mem_cons_of_mem _ href'))
    split at h
    · cases h
      exact hinv.of_proc hp (fun ref' href' => hrest ref'
        (href'.resolve_right fun hn => by cases hn))
        fun _ hc => hc.elim
    · split at h
      · next body hbody =>
        cases h
        refine hinv.of_proc hp (fun ref' href' => ?_) fun _ hc => hc.elim
        rcases href' with hin | hloaded
        · exact hrest ref' hin
        · obtain rfl : ⟨ref.id, body⟩ = ref' := by simpa using hloaded
          exact ⟨hbody, (hok ref (.inl (by simp))).2⟩
      · cases h
        exact hinv.of_proc hp trivial fun _ hc => hc.elim
  · cases h

theorem inv_leave (hinv : Inv s) (h : step sha256 s (.leave p) = some s') : Inv s' := by
  simp only [step] at h
  split at h
  · next proc hp =>
    split at h
    · next hleave =>
      cases h
      refine hinv.of_proc hp trivial fun id hc => ?_
      cases proc with
      | writer locked todo done stage =>
        cases stage with
        | cached id => cases hleave
        | _ => exact hc
      | _ => exact hc
    · cases h
  · cases h

/-- A writer commits references it has pinned. -/
theorem inv_commit (hinv : Inv s) {writes : List Write}
    (h : step sha256 s (.commit p writes) = some s') : Inv s' := by
  simp only [step] at h
  split at h
  · next done hp =>
    split at h
    · next hwrites =>
      cases h
      have hdone := (hinv.proc hp).1 rfl
      have hgrow : Grows s { s with tables := writes.foldl Tables.write s.tables } :=
        ⟨.refl _, rfl, fun _ h => h, rfl⟩
      refine hinv.of_grows hgrow hp rfl ?_ (fun _ _ h => .inl h) (fun _ _ h => .inl h)
        (fun _ _ h => .inl h) trivial fun _ hc => hc.elim
      intro c ref href
      rcases Tables.refs_foldl_write href with hbefore | ⟨w, hw, href⟩
      · exact .inl hbefore
      · have hmem : ref ∈ done := by
          have hall := all_eq_true.mp (all_eq_true.mp hwrites w hw) ref href
          exact of_decide_eq_true hall
        obtain ⟨hvalid, hpinned⟩ := hdone ref hmem
        refine .inr ⟨hvalid, fun hscanned => .inl (hpinned (hinv.pinning.mpr ?_))⟩
        intro hidle
        have hscanned : s.sweeper.Scanned c := hscanned
        rw [hidle] at hscanned
        exact hscanned
    · cases h
  · cases h

/-! ## §4 — statements without a hold -/

/-- The scan reads the workers before their journal, and the events last, after theirs. -/
theorem suffix_cases {todo : List Column} (h : todo <:+ profileBlobReferenceColumns) :
    (.evidenceVerifications ∉ todo → .workers ∉ todo) ∧
      (.evidenceEvents ∉ todo → .events ∈ todo → todo = [.events]) := by
  unfold profileBlobReferenceColumns at h
  rcases suffix_cons_iff.mp h with rfl | h
  · decide
  rcases suffix_cons_iff.mp h with rfl | h
  · decide
  rcases suffix_cons_iff.mp h with rfl | h
  · decide
  rcases suffix_cons_iff.mp h with rfl | h
  · decide
  · rw [suffix_nil.mp h]
    decide

omit [DecidableEq Digest] in
/-- What a statement copies into a scanned column is covered there. -/
theorem covered_execute (hinv : Inv s) {statement : Statement}
    (hcareful : Careful s (.execute statement)) {c : Column} {ref : Ref}
    (hscanned : s.sweeper.Scanned c) (href : ref ∈ (s.tables.execute statement).refs c) :
    s.Covered ref.id := by
  rcases Tables.refs_execute href with hold | ⟨rfl, hworker⟩ | ⟨rfl, hevent, id, rfl⟩
  · exact hinv.marks c hscanned ref hold
  · refine hinv.marks .workers ?_ ref hworker
    cases hs : s.sweeper with
    | deleting candidates cleared => exact trivial
    | scanning maxID todo marked =>
      rw [hs] at hscanned
      exact (suffix_cases (hinv.todo maxID todo marked hs)).1 hscanned
    | _ => rw [hs] at hscanned; exact hscanned
  · cases hs : s.sweeper with
    | deleting candidates cleared =>
      exact hinv.marks .events (by rw [hs]; exact trivial) ref hevent
    | scanning maxID todo marked =>
      rw [hs] at hscanned
      by_cases hevents : .events ∈ todo
      · -- between the two scans: this is what the condition is about
        have htodo := (suffix_cases (hinv.todo maxID todo marked hs)).2 hscanned hevents
        have hbetween : marked ∈ s.sweeper.betweenScans := by rw [hs, htodo]; rfl
        rcases hcareful marked hbetween ref href with hold | hmarked | hpinned
        · exact hinv.marks .evidenceEvents (by rw [hs]; exact hscanned) ref hold
        · exact .inr (by rw [hs]; exact hmarked)
        · exact .inl hpinned
      · exact hinv.marks .events (by rw [hs]; exact hevents) ref hevent
    | _ => rw [hs] at hscanned; exact hscanned.elim

theorem inv_execute (hinv : Inv s) {statement : Statement}
    (hcareful : Careful s (.execute statement))
    (h : step sha256 s (.execute statement) = some s') : Inv s' := by
  cases h
  refine ⟨⟨fun c ref href => ?_, hinv.ids, hinv.bodies⟩, hinv.procs, hinv.pinning, hinv.todo,
    fun c hscanned ref href => covered_execute hinv hcareful hscanned href, hinv.cache⟩
  rcases Tables.refs_execute href with hold | ⟨_, hworker⟩ | ⟨_, hevent, _⟩
  · exact hinv.refs c ref hold
  · exact hinv.refs .workers ref hworker
  · exact hinv.refs .events ref hevent

/-! ## §5 — the sweep -/

omit [DecidableEq Digest] in
/-- Under the exclusive lock nobody has a hold. -/
theorem unlocked_holds (h : s.unlocked = true) {proc : Proc}
    (hproc : proc ∈ s.procs) : proc.holds = false := by
  simpa using all_eq_true.mp h proc hproc

omit [DecidableEq Digest] in
theorem procOK_of_unlocked (hinv : Inv s) (hunlocked : s.unlocked = true)
    (hblobs : s'.blobs = s.blobs) {proc : Proc} (hproc : proc ∈ s.procs) : s'.ProcOK proc := by
  have hok := hinv.procs proc hproc
  have hholds := unlocked_holds hunlocked hproc
  cases proc with
  | idle => exact trivial
  | reader todo loaded => cases hholds
  | writer locked todo done stage =>
    obtain rfl : locked = false := hholds
    refine ⟨fun hlocked => (Bool.false_ne_true hlocked).elim, ?_⟩
    cases stage with
    | hit id => exact fun hlocked => (Bool.false_ne_true hlocked).elim
    | inserted id =>
      intro item hitem
      have hvalid : s.Valid ⟨id, item⟩ := hok.2 item hitem
      rw [State.Valid, hblobs]
      exact hvalid
    | cached id =>
      intro item hitem
      have hvalid : s.Valid ⟨id, item⟩ := hok.2 item hitem
      rw [State.Valid, hblobs]
      exact hvalid
    | _ => exact trivial

omit [DecidableEq Digest] in
/-- Under the exclusive lock pinning starts or ends, with no sweep under way. -/
theorem Inv.of_unlocked (hinv : Inv s) (hunlocked : s.unlocked = true) {pinning : Bool}
    {pinned : List Nat} {sweeper : Sweeper} (hpinning : pinning = true ↔ sweeper ≠ .idle)
    (hcleared : sweeper.cleared = false) (hscanned : ∀ c, ¬ sweeper.Scanned c)
    (htodo : ∀ maxID todo marked, sweeper ≠ .scanning maxID todo marked) :
    Inv { s with pinning, pinned, sweeper } := by
  refine ⟨⟨hinv.refs, hinv.ids, hinv.bodies⟩, fun proc hproc => ?_, hpinning,
    fun maxID todo marked hs => absurd hs (htodo maxID todo marked),
    fun c hc => absurd hc (hscanned c),
    fun hc => absurd (hc.symm.trans hcleared) (by simp)⟩
  refine procOK_of_unlocked hinv hunlocked ?_ hproc
  rfl

/-- Pinning starts when no writer is under way. -/
theorem inv_startPinning (hinv : Inv s) (h : step sha256 s .startPinning = some s') : Inv s' := by
  simp only [step] at h
  split at h
  · split at h
    · next hunlocked =>
      cases h
      exact hinv.of_unlocked hunlocked (by simp) rfl (fun _ => id) nofun
    · cases h
  · cases h

theorem inv_finishSweep (hinv : Inv s) (h : step sha256 s .finishSweep = some s') : Inv s' := by
  simp only [step] at h
  split at h
  · cases h
  · split at h
    · next hunlocked =>
      cases h
      exact hinv.of_unlocked hunlocked (by simp) rfl (fun _ => id) nofun
    · cases h

omit [DecidableEq Digest] in
/-- The sweep moves on before it has cleared the cache. -/
theorem Inv.of_sweeper (hinv : Inv s) {sweeper : Sweeper} (hcleared : sweeper.cleared = false)
    (hold : s.sweeper ≠ .idle) (hnew : sweeper ≠ .idle)
    (htodo : ∀ maxID todo marked, sweeper = .scanning maxID todo marked →
      todo <:+ profileBlobReferenceColumns)
    (hmarks : ∀ c, sweeper.Scanned c → ∀ ref ∈ s.tables.refs c,
      ref.id ∈ s.pinned ∨ sweeper.Spares ref.id) : Inv { s with sweeper } := by
  have hnot : ¬ sweeper.cleared = true := by rw [hcleared]; exact Bool.false_ne_true
  refine ⟨⟨hinv.refs, hinv.ids, hinv.bodies⟩, fun proc hproc => ?_,
    iff_of_true (hinv.pinning.mpr hold) hnew, htodo, hmarks, fun hc => absurd hc hnot⟩
  have hok := hinv.procs proc hproc
  cases proc with
  | idle => exact trivial
  | writer locked todo done stage => exact hok
  | reader todo loaded => exact fun ref href => ⟨(hok ref href).1, fun hc => absurd hc hnot⟩

theorem inv_readMaxID (hinv : Inv s) (h : step sha256 s .readMaxID = some s') : Inv s' := by
  simp only [step] at h
  split at h
  · next hs =>
    cases h
    refine hinv.of_sweeper rfl (by simp [hs]) nofun (fun maxID todo marked heq => ?_) fun c hc => ?_
    · cases heq
      exact suffix_refl _
    · exact absurd (by cases c <;> decide) hc
  · cases h

/-- A scan marks every reference of its column. -/
theorem inv_scan (hinv : Inv s) (h : step sha256 s .scan = some s') : Inv s' := by
  simp only [step] at h
  split at h
  · next maxID c todo marked hs =>
    cases h
    refine hinv.of_sweeper rfl (by simp [hs]) nofun (fun maxID' todo' marked' heq => ?_)
      fun c' hc' ref href => ?_
    · cases heq
      exact (suffix_cons c todo).trans (hinv.todo maxID (c :: todo) marked hs)
    · by_cases hc : c' = c
      · -- the column just scanned
        subst hc
        exact .inr (mem_append_right _ (mem_map_of_mem href))
      · have hbefore : s.sweeper.Scanned c' := by
          rw [hs]
          exact fun hmem => (mem_cons.mp hmem).elim hc hc'
        refine (hinv.marks c' hbefore ref href).imp_right fun hmarked => ?_
        rw [hs] at hmarked
        exact mem_append_left _ hmarked
  · cases h

/-- No marked or younger blob becomes a candidate. -/
theorem inv_listCandidates (hinv : Inv s)
    (h : step sha256 s .listCandidates = some s') : Inv s' := by
  simp only [step] at h
  split at h
  · next maxID marked hs =>
    cases h
    refine hinv.of_sweeper rfl (by simp [hs]) nofun nofun fun c _ ref href => ?_
    refine (hinv.marks c (by rw [hs]; exact not_mem_nil) ref href).imp_right fun hmarked => ?_
    rw [hs] at hmarked
    intro hcandidate
    have hfree := (mem_filter.mp hcandidate).2
    exact (by simpa using hfree : ref.id ≤ maxID ∧ ref.id ∉ marked).2 hmarked
  · cases h

omit [DecidableEq Digest] in
/-- A covered blob survives the batch. -/
theorem body_deleteBatch {candidates : List Nat} {cleared : Bool}
    (hs : s.sweeper = .deleting candidates cleared) {ref : Ref} (hvalid : s.Valid ref)
    (hcovered : s.Covered ref.id) :
    (s.blobs.deleteExcept fun id =>
      id ∉ candidates.take profileBlobDeleteBatch || id ∈ s.pinned).body ref.id =
        some ref.item := by
  refine BlobTable.body_deleteExcept _ _ hvalid ?_
  rw [Int.toNat_natCast]
  rcases hcovered with hpinned | hspared
  · simp [hpinned]
  · rw [hs] at hspared
    have hfree : ref.id ∉ candidates.take profileBlobDeleteBatch :=
      fun hmem => hspared (mem_of_mem_take hmem)
    simp [hfree]

omit [DecidableEq Digest] in
/-- Once the cache was cleared it holds covered ids. -/
theorem covered_of_cached (hinv : Inv s) (hunlocked : s.unlocked = true)
    (hcareful : ∀ proc ∈ s.procs, proc.exposed = false) (hcleared : s.sweeper.cleared = true)
    (hcached : s.Cached id) : s.Covered id := by
  rcases hinv.cache hcleared id hcached with hcovered | ⟨proc, hproc, hcaching⟩
  · exact hcovered
  · -- a process about to pin would hold the lock or be exposed
    exfalso
    have hholds := unlocked_holds hunlocked hproc
    have hexposed := hcareful proc hproc
    cases proc with
    | writer locked todo done stage =>
      cases stage with
      | cached id =>
        obtain rfl : locked = false := hholds
        cases hexposed
      | _ => exact hcaching
    | _ => exact hcaching

omit [DecidableEq Digest] in
theorem procOK_of_not_exposed {proc : Proc} (hholds : proc.holds = false)
    (hexposed : proc.exposed = false) : s'.ProcOK proc := by
  cases proc with
  | idle => exact trivial
  | reader todo loaded => cases hholds
  | writer locked todo done stage =>
    obtain rfl : locked = false := hholds
    refine ⟨fun hlocked => (Bool.false_ne_true hlocked).elim, ?_⟩
    cases stage with
    | next => exact trivial
    | miss => exact trivial
    | hit id => exact fun hlocked => (Bool.false_ne_true hlocked).elim
    | _ => cases hexposed

omit [DecidableEq Digest] in
/-- **A batch.** From a state with a cache that is empty or covered, deleting a batch (or failing
to) keeps the invariant. -/
theorem Inv.of_deleteBatch {s₀ : State sha256} (hinv : Inv s) {candidates : List Nat}
    {cleared : Bool} (hs : s.sweeper = .deleting candidates cleared)
    (hunlocked : s.unlocked = true) (hcareful : ∀ proc ∈ s.procs, proc.exposed = false)
    (hcache : s₀ = s ∧ cleared = true ∨ s₀ = s.clearCache) {blobs : BlobTable sha256}
    {rest : List Nat} (hrest : ∀ id ∈ rest, id ∈ candidates)
    (hblobs : ∀ ref, s.Valid ref → s.Covered ref.id → blobs.body ref.id = some ref.item) :
    Inv { s₀ with blobs := blobs, sweeper := .deleting rest true } := by
  have hpinning := hinv.pinning
  have hmarks := hinv.marks
  rw [hs] at hpinning hmarks
  have hcovered : ∀ id, s.Covered id → id ∈ s.pinned ∨ id ∉ rest := by
    intro id hcovered
    rw [State.Covered, hs] at hcovered
    exact hcovered.imp_right fun hspared hid => hspared (hrest id hid)
  have hprocs : ∀ (s' : State sha256), ∀ proc ∈ s.procs, s'.ProcOK proc := fun s' proc hproc =>
    procOK_of_not_exposed (unlocked_holds hunlocked hproc) (hcareful proc hproc)
  rcases hcache with ⟨rfl, rfl⟩ | rfl
  · -- the cache was cleared before an earlier batch
    have hcached : ∀ id, s₀.Cached id → s₀.Covered id := fun id hid =>
      covered_of_cached hinv hunlocked hcareful (by rw [hs]; rfl) hid
    refine ⟨⟨fun c ref href => ?_, fun digest id hid => ?_, fun id item hid => ?_⟩, hprocs _, ?_,
      fun _ _ _ h => ?_, fun c _ ref href => ?_,
        fun _ id hid => .inl (hcovered id (hcached id hid))⟩
    · exact hblobs ref (hinv.refs c ref href) (hinv.marks c (by rw [hs]; exact trivial) ref href)
    · obtain ⟨item, hbody, hdigest⟩ := digest_row_iff.mp (hinv.ids digest id hid)
      exact digest_row_iff.mpr
        ⟨item, hblobs ⟨id, item⟩ hbody (hcached id (.inl ⟨digest, hid⟩)), hdigest⟩
    · exact hblobs ⟨id, item⟩ (hinv.bodies id item hid)
        (hcached id (.inr (by rw [hid]; simp)))
    · simpa using hpinning
    · cases h
    · exact hcovered ref.id (hinv.marks c (by rw [hs]; exact trivial) ref href)
  · -- it is empty now
    refine ⟨⟨fun c ref href => ?_, fun digest id hid => ?_, fun id item hid => ?_⟩, hprocs _, ?_,
      fun _ _ _ h => ?_, fun c _ ref href => ?_, fun _ id hid => ?_⟩
    · exact hblobs ref (hinv.refs c ref href) (hinv.marks c (by rw [hs]; exact trivial) ref href)
    · cases hid
    · cases hid
    · simpa [State.clearCache] using hpinning
    · cases h
    · exact hcovered ref.id (hinv.marks c (by rw [hs]; exact trivial) ref href)
    · rcases hid with ⟨digest, hid⟩ | hid
      · cases hid
      · exact absurd rfl hid

/-- A batch deletes no blob that is referred to, cached or in use. -/
theorem inv_deleteBatch (hinv : Inv s) {committed : Bool}
    (hcareful : Careful s (.deleteBatch committed))
    (h : step sha256 s (.deleteBatch committed) = some s') : Inv s' := by
  simp only [step] at h
  split at h
  · next candidates cleared hs =>
    split at h
    · next hguard =>
      have hunlocked : s.unlocked = true := (Bool.and_eq_true_iff.mp hguard).1
      have hcache : (if cleared then s else s.clearCache) = s ∧ cleared = true ∨
          (if cleared then s else s.clearCache) = s.clearCache := by
        cases cleared
        · exact .inr rfl
        · exact .inl ⟨rfl, rfl⟩
      have hframe : (if cleared then s else s.clearCache).blobs = s.blobs ∧
          (if cleared then s else s.clearCache).pinned = s.pinned := by
        cases cleared <;> exact ⟨rfl, rfl⟩
      generalize (if cleared then s else s.clearCache) = s₀ at h hcache hframe
      split at h
      · cases h
        refine hinv.of_deleteBatch hs hunlocked hcareful hcache
          (fun id hid => mem_of_mem_drop hid) fun ref hvalid hcovered => ?_
        rw [hframe.1, hframe.2]
        exact body_deleteBatch hs hvalid hcovered
      · cases h
        refine hinv.of_deleteBatch hs hunlocked hcareful hcache
          (fun id hid => absurd hid not_mem_nil) fun ref hvalid _ => ?_
        rw [hframe.1]
        exact hvalid
    · cases h
  · cases h

/-! ## §6 — every interleaving -/

/-- One step of any process, or of the sweep. -/
theorem inv_step (hsha : Function.Injective sha256) {a : Action}
    (hinv : Inv s) (hcareful : Careful s a) (h : step sha256 s a = some s') : Inv s' := by
  cases a with
  | beginWriter p locked items => exact inv_beginWriter hinv h
  | lookup p => exact inv_lookup hsha hinv h
  | insert p => exact inv_insert hsha hinv h
  | cache p evict => exact inv_cache hinv h
  | pin p => exact inv_pin hinv h
  | commit p writes => exact inv_commit hinv h
  | beginReader p c row => exact inv_beginReader hinv h
  | load p => exact inv_load hinv h
  | cacheBody p evict => exact inv_cacheBody hinv h
  | leave p => exact inv_leave hinv h
  | execute statement => exact inv_execute hinv hcareful h
  | startPinning => exact inv_startPinning hinv h
  | readMaxID => exact inv_readMaxID hinv h
  | scan => exact inv_scan hinv h
  | listCandidates => exact inv_listCandidates hinv h
  | deleteBatch committed => exact inv_deleteBatch hinv hcareful h
  | finishSweep => exact inv_finishSweep hinv h

/-- **The sweep leaves no dangling reference**, in any state reached by an interleaving all of
whose steps are careful. -/
theorem sound_of_careful (hsha : Function.Injective sha256) {s : State sha256}
    (h : (sweep sha256).Reaches Careful s) : s.Sound := by
  have hinv : Inv s := h.invariant (fun _ hs => Inv.of_started hs)
    fun _ _ _ hinv hcareful hstep => inv_step hsha hinv hcareful hstep
  exact hinv.toSound

end

/-! Runs on a database with two blobs, where items are their own digests: the first one is not
referenced, the second one by an event whose journal row has been pruned. -/

def oldItem : Item := .text "old" ∅

def usedItem : Item := .text "used" ∅

def startState : State (id : Item → Item) where
  tables := ⟨[], [], [], [⟨1, "w", 0, ⟨0, [⟨2, usedItem⟩]⟩⟩]⟩
  blobs := (((BlobTable.empty id).insert oldItem).1.insert usedItem).1
  ids := fun _ => none
  bodies := fun _ => none
  pinning := false
  pinned := []
  procs := [.idle]
  sweeper := .idle

theorem startState_started : startState.Started :=
  ⟨fun c => by cases c <;> decide, fun _ => rfl, fun _ => rfl, rfl, by decide, rfl⟩

def markPhase : List Action :=
  [.startPinning, .readMaxID, .scan, .scan, .scan, .scan, .listCandidates]

/-- A careful run: a writer stores the unreferenced item again while the sweep marks, and the
batch spares it. -/
theorem sound_of_careful_spared : ∃ s, (sweep (id : Item → Item)).Reaches Careful s ∧
    (s.sweeper = .deleting [] true ∧ s.blobs.rows.map Blob.id = [1, 2]) ∧ s.Sound := by
  have hrun : ∃ s, (sweep (id : Item → Item)).Reaches Careful s ∧
      (s.sweeper = .deleting [] true ∧ s.blobs.rows.map Blob.id = [1, 2]) :=
    Machine.exists_reaches_of_run (.start startState_started)
      (markPhase ++ [.beginWriter 0 true [oldItem], .lookup 0, .insert 0, .cache 0 false, .pin 0,
        .commit 0 [.newEvent 2 "w" 1 ⟨0, [⟨1, oldItem⟩]⟩], .deleteBatch true]) (by decide)
  obtain ⟨s, hreach, hend⟩ := hrun
  exact ⟨s, hreach, hend, sound_of_careful Function.injective_id hreach⟩

/-- **Both parts of the condition are needed.** A `RecordUniqueEventAt` whose first compaction has
got an id from its `INSERT` puts it in the cache after a batch has deleted the row, and its own
`RecordEventAt` then stores the dangling id. And an update of an event copies its reference into
the journal between the two scans; when the event goes before the second one, the reference in the
journal dangles. -/
theorem dangling_reference_after_sweep :
    (∃ s, (sweep (id : Item → Item)).Reachable s ∧
      s.ids oldItem = some 1 ∧ ⟨1, oldItem⟩ ∈ s.tables.refs .events ∧ s.blobs.body 1 = none) ∧
    ∃ s, (sweep (id : Item → Item)).Reachable s ∧
      ⟨2, usedItem⟩ ∈ s.tables.refs .evidenceEvents ∧ s.blobs.body 2 = none := by
  constructor
  · exact Machine.exists_reaches_of_run (.start startState_started)
      (markPhase ++ [.beginWriter 0 false [oldItem], .lookup 0, .insert 0, .deleteBatch true,
        .cache 0 false, .pin 0, .leave 0, .beginWriter 0 true [oldItem], .lookup 0, .pin 0,
        .commit 0 [.newEvent 2 "w" 1 ⟨0, [⟨1, oldItem⟩]⟩]]) (by decide)
  · exact Machine.exists_reaches_of_run (.start startState_started)
      [.startPinning, .readMaxID, .scan, .scan, .scan, .execute (.touchEvent 1),
        .execute (.pruneEvents [1]), .scan, .listCandidates, .deleteBatch true] (by decide)

end LitestreamSoak.Store.BlobSweep
