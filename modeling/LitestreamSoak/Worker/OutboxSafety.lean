import LitestreamSoak.Worker.Outbox

/-!
# Worker.OutboxSafety — acknowledged evidence is kept, failed evidence is not cleaned up

* **§1** — what the file operations do to the names and to the bytes of the directory.
* **§2** — `Inv`: acknowledged events are delivered or in every directory a power loss may leave,
  and all of these are within the limits. It holds in every run.
* **§3** — `Tidy`: the directory holds acknowledged records and the files of the persist under way,
  nothing else. It holds where no persist ends early with its file left behind (`Clean`); without
  that, **`failed_persist_blocks_itself`**.
-/

namespace LitestreamSoak.Worker.Outbox

open Lib List

variable {κ : Type}

/-! ## §1 — the directory -/

variable {d p : Dir κ} {e : Entry κ} {kind : Kind} {id : κ}

theorem Dir.used_cons (e : Entry κ) (d : Dir κ) : Dir.used (e :: d) = e.size + d.used := by
  simp [Dir.used]

theorem Dir.used_append (d d' : Dir κ) : Dir.used (d ++ d') = d.used + d'.used := by
  rw [Dir.used, map_append, sum_append]
  rfl

theorem Dir.used_singleton (e : Entry κ) : Dir.used [e] = e.size := by
  simp [Dir.used]

theorem Remnant.length_eq (h : Remnant d p) : d.length = p.length :=
  List.Forall₂.length_eq h

theorem Remnant.used_le (h : Remnant d p) : d.used ≤ p.used := by
  unfold Remnant at h
  induction h with
  | nil => exact Nat.le_refl _
  | @cons e e' d p he _ ih =>
    rw [Dir.used_cons, Dir.used_cons]
    rcases he.2.2 with hsize | hsize <;> omega

theorem Remnant.mem (h : Remnant d p) (he : e ∈ d) : ∃ e' ∈ p, e'.id = e.id ∧ e'.kind = e.kind := by
  unfold Remnant at h
  induction h with
  | nil => exact nomatch he
  | cons hnames _ ih => grind

variable [DecidableEq κ]

theorem Dir.has_iff : d.has id kind = true ↔ ∃ e ∈ d, e.id = id ∧ e.kind = kind := by
  simp only [Dir.has, any_eq_true, decide_eq_true_eq]

theorem Dir.mem_without : e ∈ d.without id kind ↔ e ∈ d ∧ ¬ (e.id = id ∧ e.kind = kind) := by
  simp only [Dir.without, mem_filter, decide_eq_true_eq]

theorem Dir.has_append_left {d' : Dir κ} (h : d.has id kind = true) :
    Dir.has (d ++ d') id kind = true := by
  obtain ⟨e, he, hid⟩ := Dir.has_iff.mp h
  exact Dir.has_iff.mpr ⟨e, mem_append_left d' he, hid⟩

theorem Dir.has_append_singleton (e : Entry κ) :
    Dir.has (d ++ [e]) e.id e.kind = true :=
  Dir.has_iff.mpr ⟨e, by simp, rfl, rfl⟩

theorem Dir.has_without {id' : κ} {kind' : Kind} (h : d.has id kind = true)
    (hne : ¬ (id = id' ∧ kind = kind')) : (d.without id' kind').has id kind = true := by
  grind [Dir.has, Dir.without]

theorem Dir.length_without_le (d : Dir κ) (id : κ) (kind : Kind) :
    (d.without id kind).length ≤ d.length :=
  length_filter_le _ _

theorem Dir.used_without_le (d : Dir κ) (id : κ) (kind : Kind) :
    (d.without id kind).used ≤ d.used := by
  induction d with
  | nil => exact Nat.le_refl _
  -- an entry counts in both or in the larger one only
  | cons e d ih => grind [Dir.used_cons, Dir.without]

theorem Dir.without_room (he : e ∈ d) :
    (d.without e.id e.kind).length + 1 ≤ d.length ∧
      (d.without e.id e.kind).used + e.size ≤ d.used := by
  obtain ⟨before, after, rfl⟩ := append_of_mem he
  have hsplit : Dir.without (before ++ e :: after) e.id e.kind =
      Dir.without before e.id e.kind ++ Dir.without after e.id e.kind := by
    rw [Dir.without, filter_append, filter_cons_of_neg (by simp)]
    rfl
  grind [Dir.length_without_le, Dir.used_without_le, Dir.used_append, Dir.used_cons]

/-- What a rename leaves: the record instead of the temporary file, and all other names. -/
structure Renamed (d d' : Dir κ) (id : κ) : Prop where
  length_le : d'.length ≤ d.length
  used_le : d'.used ≤ d.used
  record : d'.has id .json = true
  kept : ∀ id', d.has id' .json = true → d'.has id' .json = true
  mem : ∀ e ∈ d', e.id = id ∧ e.kind = .json ∨ e ∈ d ∧ e.id ≠ id

theorem Dir.renamed {d' : Dir κ} (h : d.rename id = some d') : Renamed d d' id := by
  obtain ⟨e, hfind, rfl⟩ := Option.map_eq_some_iff.mp h
  have hmem := mem_of_find?_eq_some hfind
  have htmp : e.id = id ∧ e.kind = .tmp := by simpa using find?_some hfind
  obtain ⟨hlength, hused⟩ := Dir.without_room hmem
  rw [htmp.1, htmp.2] at hlength hused
  have hlength' := Dir.length_without_le (d.without id .tmp) id .json
  have hused' := Dir.used_without_le (d.without id .tmp) id .json
  refine ⟨?_, ?_, Dir.has_append_singleton _, fun id' hid' => ?_, fun f hf => ?_⟩
  · rw [length_append, length_singleton]
    omega
  · grind [Dir.used_append, Dir.used_singleton]
  · grind [Dir.has, Dir.without]
  · rcases mem_append.mp hf with hf | hf
    · obtain ⟨hf, hjson⟩ := Dir.mem_without.mp hf
      obtain ⟨hf, htmp⟩ := Dir.mem_without.mp hf
      refine .inr ⟨hf, fun hid => ?_⟩
      -- a file of the event is a temporary file or a record
      cases hkind : f.kind with
      | tmp => exact htmp ⟨hid, hkind⟩
      | json => exact hjson ⟨hid, hkind⟩
    · rw [mem_singleton.mp hf]
      exact .inl ⟨rfl, rfl⟩

theorem Remnant.has (h : Remnant d p) (hp : p.has id kind = true) : d.has id kind = true := by
  unfold Remnant at h
  induction h with
  | nil => exact hp
  | @cons e e' d p hnames _ ih => grind [Dir.has]

/-! ## §2 — every run -/

variable {s : State κ} {r : Answer} {s' : State κ}

/-- The outbox is within its limits. -/
def Bounded (d : Dir κ) : Prop :=
  d.length ≤ evidenceOutboxMaxEvents ∧ d.used ≤ evidenceOutboxMaxBytes

/-- What a persist in progress relies on. -/
def PersistPC.Holds : PersistPC κ → Dir κ → Prop
  | .create _ n, d => d.length + 1 ≤ evidenceOutboxMaxEvents ∧ d.used + n ≤ evidenceOutboxMaxBytes
  | .write id n, d => d.has id .tmp = true ∧ d.used + n ≤ evidenceOutboxMaxBytes
  | .syncDir id, d => d.has id .json = true
  | _, _ => True

def FlushPC.posted : FlushPC κ → Option κ
  | .lock id _ | .remove id _ | .syncDir id _ _ => some id
  | _ => none

/-- Acknowledged events are kept or delivered, in the directory and in what a crash may leave. -/
structure Inv (s : State κ) : Prop where
  kept : ∀ id ∈ s.acknowledged, id ∈ s.delivered ∨ ∀ p ∈ s.dir :: s.older, p.has id .json = true
  bounded : ∀ p ∈ s.dir :: s.older, Bounded p
  persist : s.persist.Holds s.dir
  flush : ∀ id ∈ s.flush.posted, id ∈ s.delivered
  exclusive : s.flush.locked = true → s.persist = .idle

theorem Inv.kept_change (h : Inv s)
    (hd : ∀ id, s.dir.has id .json = true → id ∈ s.delivered ∨ d.has id .json = true) :
    ∀ id ∈ s.acknowledged, id ∈ s.delivered ∨
      ∀ p ∈ d :: s.dir :: s.older, p.has id .json = true := by
  intro id hid
  rcases h.kept id hid with hdel | hall
  · exact .inl hdel
  · grind

theorem Inv.durable (h : Inv s) : Inv s.durable where
  kept id hid := (h.kept id hid).imp_right fun hall p hp =>
    hall p (by rw [mem_singleton.mp hp]; exact mem_cons_self)
  bounded p hp := h.bounded p (by rw [mem_singleton.mp hp]; exact mem_cons_self)
  persist := h.persist
  flush := h.flush
  exclusive := h.exclusive

theorem Inv.to_pc (h : Inv s) {pc : PersistPC κ} (hpc : pc.Holds s.dir)
    (hlock : s.flush.locked = true → pc = .idle) : Inv { s with persist := pc } where
  kept := h.kept
  bounded := h.bounded
  persist := hpc
  flush := h.flush
  exclusive := hlock

theorem Answer.written_le (r : Answer) (n : Nat) : r.written n ≤ n := by
  cases r with
  | ok => exact Nat.le_refl n
  | partly k => exact Nat.min_le_right k n
  | failed => exact Nat.zero_le n

/-- A persist keeps the invariant. -/
theorem inv_persistStep (h : Inv s) (hstep : persistStep s r = some s') : Inv s' := by
  have hidle : Inv { s with persist := .idle } := h.to_pc trivial fun _ => rfl
  -- a persist is under way, so the flush does not hold the lock
  have hunlocked {pc : PersistPC κ} (hlocked : s.flush.locked = true) : pc = .idle := by
    simp only [persistStep, h.exclusive hlocked] at hstep
    cases hstep
  have hpersist := h.persist
  unfold persistStep at hstep
  cases hpc : s.persist with
  | idle => simp only [hpc] at hstep; cases hstep
  | prepare id n =>
    simp only [hpc] at hstep
    split at hstep <;> cases hstep
    · exact h.to_pc trivial hunlocked
    · exact hidle
  | readDir id n =>
    simp only [hpc] at hstep
    split at hstep
    · cases hstep; exact hidle
    · split at hstep
      · cases hstep; exact hidle
      · next hroom =>
        cases hstep
        rw [not_or] at hroom
        refine h.to_pc ?_ hunlocked
        show s.dir.length + 1 ≤ _ ∧ s.dir.used + n ≤ _
        omega
  | create id n =>
    simp only [hpc] at hstep
    rw [hpc] at hpersist
    split at hstep <;> cases hstep
    · exact hidle
    · refine ⟨h.kept_change fun id' hid' => .inr (Dir.has_append_left hid'),
        forall_mem_cons.mpr ⟨⟨?_, ?_⟩, h.bounded⟩, ⟨Dir.has_append_singleton _, ?_⟩, h.flush,
        hunlocked⟩
      · show (s.dir ++ [_]).length ≤ _
        rw [length_append]
        exact hpersist.1
      · show Dir.used (s.dir ++ [_]) ≤ _
        rw [Dir.used_append, Dir.used_singleton]
        exact Nat.le_trans (Nat.add_le_add_left (Nat.zero_le n) _) hpersist.2
      · show Dir.used (s.dir ++ [_]) + n ≤ _
        rw [Dir.used_append, Dir.used_singleton]
        exact hpersist.2
  | write id n =>
    simp only [hpc] at hstep
    rw [hpc] at hpersist
    have hle := r.written_le n
    cases hstep
    obtain ⟨e, he, rfl, hkind⟩ := Dir.has_iff.mp hpersist.1
    obtain ⟨hlength, hused⟩ := Dir.without_room he
    rw [hkind] at hlength hused
    have hroom := hpersist.2
    refine ⟨h.kept_change fun id' hid' => .inr (Dir.has_append_left (Dir.has_without hid' nofun)),
      forall_mem_cons.mpr ⟨⟨?_, ?_⟩, h.bounded⟩, trivial, h.flush, hunlocked⟩
    · show (s.dir.without e.id .tmp ++ [_]).length ≤ _
      rw [length_append]
      exact Nat.le_trans hlength (h.bounded s.dir mem_cons_self).1
    · show Dir.used (s.dir.without e.id .tmp ++ [_]) ≤ _
      grind [Dir.used_append, Dir.used_singleton]
  | sync id failed =>
    simp only [hpc] at hstep
    cases hstep
    exact h.to_pc trivial hunlocked
  | close id failed =>
    simp only [hpc] at hstep
    split at hstep <;> cases hstep
    · exact hidle
    · exact h.to_pc trivial hunlocked
  | rename id =>
    simp only [hpc] at hstep
    split at hstep
    · cases hstep; exact hidle
    · split at hstep
      · cases hstep; exact hidle
      · next d hd =>
        cases hstep
        have hren := Dir.renamed hd
        have hroom := h.bounded s.dir mem_cons_self
        exact ⟨h.kept_change fun id' hid' => .inr (hren.kept id' hid'),
          forall_mem_cons.mpr ⟨⟨Nat.le_trans hren.length_le hroom.1,
            Nat.le_trans hren.used_le hroom.2⟩, h.bounded⟩, hren.record, h.flush, hunlocked⟩
  | syncDir id =>
    simp only [hpc] at hstep
    rw [hpc] at hpersist
    cases r with
    | ok =>
      cases hstep
      have hdur := hidle.durable
      refine { hdur with kept := fun id' hid' => ?_ }
      rcases mem_cons.mp hid' with rfl | hid'
      · refine .inr fun p hp => ?_
        rw [mem_singleton.mp hp]
        exact hpersist
      · exact hdur.kept id' hid'
    | partly k => cases hstep; exact hidle.durable
    | failed => cases hstep; exact hidle

theorem Inv.to_flush (h : Inv s) {pc : FlushPC κ}
    (hpc : ∀ id ∈ pc.posted, id ∈ s.delivered) (hlock : pc.locked = true → s.persist = .idle) :
    Inv { s with flush := pc } where
  kept := h.kept
  bounded := h.bounded
  persist := h.persist
  flush := hpc
  exclusive := hlock

/-- A flush keeps the invariant. -/
theorem inv_flushStep (h : Inv s) (hstep : flushStep s r = some s') : Inv s' := by
  have hidle : Inv { s with flush := .idle } := h.to_flush nofun nofun
  have hflush := h.flush
  have hexclusive := h.exclusive
  unfold flushStep at hstep
  cases hpc : s.flush with
  | idle => simp only [hpc] at hstep; cases hstep
  | list =>
    simp only [hpc] at hstep
    split at hstep <;> cases hstep
    · exact hidle
    · exact h.to_flush nofun nofun
  | next todo =>
    cases todo with
    | nil =>
      simp only [hpc] at hstep
      cases hstep
      exact hidle
    | cons id todo =>
      simp only [hpc] at hstep
      split at hstep <;> cases hstep
      · exact hidle
      · exact h.to_flush nofun nofun
  | post id todo =>
    simp only [hpc] at hstep
    split at hstep <;> cases hstep
    · exact hidle
    · refine ⟨fun id' hid' => ?_, h.bounded, h.persist, fun id' hid' => ?_, nofun⟩
      · exact (h.kept id' hid').imp_left fun hdel => mem_cons_of_mem id hdel
      · obtain rfl := Option.some.inj hid'
        exact mem_cons_self
  | lock id todo =>
    simp only [hpc] at hstep
    rw [hpc] at hflush
    split at hstep
    · next hfree => cases hstep; exact h.to_flush hflush fun _ => hfree
    · cases hstep
  | remove id todo =>
    simp only [hpc] at hstep
    rw [hpc] at hflush hexclusive
    split at hstep <;> cases hstep
    · exact h.to_flush hflush fun _ => hexclusive rfl
    · have hroom := h.bounded s.dir mem_cons_self
      refine ⟨h.kept_change fun id' hid' => ?_, forall_mem_cons.mpr
        ⟨⟨Nat.le_trans (Dir.length_without_le _ _ _) hroom.1,
          Nat.le_trans (Dir.used_without_le _ _ _) hroom.2⟩, h.bounded⟩, ?_, hflush,
        fun _ => hexclusive rfl⟩
      · -- only the record that was just delivered goes
        rcases eq_or_ne id' id with rfl | hne
        · exact .inl (hflush id' rfl)
        · exact .inr (Dir.has_without hid' fun h => hne h.1)
      · show s.persist.Holds _
        rw [hexclusive rfl]
        trivial
  | syncDir id todo failed =>
    simp only [hpc] at hstep
    have hsynced : Inv (if r = .failed then s else s.durable) := by
      split
      · exact h
      · exact h.durable
    split at hstep <;> cases hstep
    · exact hsynced.to_flush nofun nofun
    · exact hsynced.to_flush nofun nofun

/-- Every step keeps the invariant. -/
theorem inv_step {a : Action κ} (h : Inv s) (hstep : step s a = some s') : Inv s' := by
  cases a with
  | persist id n =>
    simp only [step] at hstep
    split at hstep
    · next hfree =>
      cases hstep
      refine h.to_pc trivial fun hlocked => ?_
      rw [hfree.2] at hlocked
      exact absurd hlocked Bool.false_ne_true
    · cases hstep
  | persistStep r => exact inv_persistStep h hstep
  | flush =>
    simp only [step] at hstep
    split at hstep
    · cases hstep
      exact h.to_flush nofun nofun
    · cases hstep
  | flushStep r => exact inv_flushStep h hstep
  | kill =>
    cases hstep
    have hidle : Inv { s with persist := .idle } := h.to_pc trivial fun _ => rfl
    exact hidle.to_flush nofun nofun
  | powerLoss d =>
    simp only [step] at hstep
    split at hstep
    · next hleft =>
      cases hstep
      obtain ⟨p, hp, hrem⟩ := hleft
      have hroom := h.bounded p hp
      refine ⟨fun id hid => (h.kept id hid).imp_right fun hall q hq => ?_, fun q hq => ?_, trivial,
        nofun, nofun⟩
      · rw [mem_singleton.mp hq]
        exact hrem.has (hall p hp)
      · rw [mem_singleton.mp hq]
        exact ⟨hrem.length_eq ▸ hroom.1, Nat.le_trans hrem.used_le hroom.2⟩
    · cases hstep

/-- The invariant holds along every run. -/
theorem inv_reaches {ok : State κ → Action κ → Prop} (hs : (machine κ).Reaches ok s) : Inv s := by
  induction hs with
  | @start s hempty =>
    obtain rfl : s = {} := hempty
    refine ⟨nofun, fun p hp => ?_, trivial, nofun, nofun⟩
    rw [mem_singleton.mp hp]
    exact ⟨Nat.zero_le _, Nat.zero_le _⟩
  | step _ _ hstep ih => exact inv_step ih hstep

/-! ## §3 — runs without files left behind -/

/-- **No persist ends with its file left behind.** Once a persist has created its temporary file its
operations succeed and the process is not killed; a power loss then leaves neither the temporary
file nor a record of the event, unless an earlier persist of it was acknowledged. -/
def Clean (s : State κ) : Action κ → Prop
  | .persistStep r => s.persist.file = none ∨ r = .ok
  | .kill => s.persist.file = none
  | .powerLoss d => ∀ id ∈ s.persist.file,
      d.has id .tmp = false ∧ (d.has id .json = true → id ∈ s.acknowledged)
  | _ => True

instance (s : State κ) : ∀ a, Decidable (Clean s a)
  | .persist _ _ => inferInstanceAs (Decidable True)
  | .persistStep r => inferInstanceAs (Decidable (s.persist.file = none ∨ r = .ok))
  | .flush => inferInstanceAs (Decidable True)
  | .flushStep _ => inferInstanceAs (Decidable True)
  | .kill => inferInstanceAs (Decidable (s.persist.file = none))
  | .powerLoss d => inferInstanceAs (Decidable (∀ id ∈ s.persist.file,
      d.has id .tmp = false ∧ (d.has id .json = true → id ∈ s.acknowledged)))

def Acknowledged (s : State κ) (e : Entry κ) : Prop := e.kind = .json ∧ e.id ∈ s.acknowledged

def PersistPC.temp : PersistPC κ → Option κ
  | .write id _ | .sync id _ | .close id _ | .rename id => some id
  | _ => none

def PersistPC.failed : PersistPC κ → Bool
  | .sync _ failed | .close _ failed => failed
  | _ => false

/-- Every file is an acknowledged event or the one being written. -/
structure Tidy (s : State κ) : Prop where
  entries : ∀ p ∈ s.dir :: s.older, ∀ e ∈ p, Acknowledged s e ∨ s.persist.file = some e.id
  temp : ∀ id ∈ s.persist.temp, s.dir.has id .tmp = true
  /-- The rename has taken the temporary file away. -/
  renamed : ∀ id, s.persist = .syncDir id → ∀ e ∈ s.dir, e.id = id → e.kind = .json
  whole : s.persist.failed = false

theorem Tidy.mono (h : Tidy s) (hpersist : s'.persist = s.persist)
    (hacknowledged : s'.acknowledged = s.acknowledged)
    (hentries : ∀ p ∈ s'.dir :: s'.older, ∃ q ∈ s.dir :: s.older, ∀ e ∈ p, e ∈ q)
    (hdir : ∀ e ∈ s'.dir, e ∈ s.dir)
    (htemp : ∀ id, s.dir.has id .tmp = true → s'.dir.has id .tmp = true) : Tidy s' where
  entries p hp e he := by
    obtain ⟨q, hq, hsub⟩ := hentries p hp
    unfold Acknowledged
    rw [hpersist, hacknowledged]
    exact h.entries q hq e (hsub e he)
  temp id hid := htemp id (h.temp id (hpersist ▸ hid))
  renamed id hid e he := h.renamed id (hpersist ▸ hid) e (hdir e he)
  whole := hpersist ▸ h.whole

theorem Tidy.acknowledged (h : Tidy s) (hfile : s.persist.file = none) :
    ∀ p ∈ s.dir :: s.older, ∀ e ∈ p, Acknowledged s e := by
  grind [Tidy.entries]

theorem Tidy.to_pc (h : Tidy s) (hfile : s.persist.file = none) {pc : PersistPC κ}
    (hpc : pc.file = none) : Tidy { s with persist := pc } where
  entries p hp e he := .inl (h.acknowledged hfile p hp e he)
  temp id hid := by
    have htemp : pc.temp = none := by cases pc <;> first | rfl | cases hpc
    rw [htemp] at hid
    exact nomatch hid
  renamed id hid := by
    obtain rfl : pc = .syncDir id := hid
    exact nomatch hpc
  whole := by cases pc <;> first | rfl | cases hpc

theorem tidy_persistStep (h : Tidy s)
    (hclean : s.persist.file = none ∨ r = .ok) (hstep : persistStep s r = some s') : Tidy s' := by
  have hentries := h.entries
  have htemp := h.temp
  have hwhole := h.whole
  unfold persistStep at hstep
  cases hpc : s.persist with
  | idle => simp only [hpc] at hstep; cases hstep
  | prepare id n =>
    have hfile : s.persist.file = none := by rw [hpc]; rfl
    simp only [hpc] at hstep
    split at hstep <;> cases hstep <;> exact h.to_pc hfile rfl
  | readDir id n =>
    have hfile : s.persist.file = none := by rw [hpc]; rfl
    simp only [hpc] at hstep
    split at hstep
    · cases hstep; exact h.to_pc hfile rfl
    · split at hstep <;> cases hstep <;> exact h.to_pc hfile rfl
  | create id n =>
    have hfile : s.persist.file = none := by rw [hpc]; rfl
    simp only [hpc] at hstep
    split at hstep <;> cases hstep
    · exact h.to_pc hfile rfl
    · have hacked := h.acknowledged hfile
      refine ⟨forall_mem_cons.mpr ⟨fun e he => ?_, fun p hp e he => .inl (hacked p hp e he)⟩,
        fun id' hid' => ?_, nofun, rfl⟩
      · grind [Acknowledged, State.change, PersistPC.file]
      · obtain rfl := Option.some.inj hid'
        exact Dir.has_append_singleton _
  | write id n =>
    obtain rfl : r = .ok := hclean.resolve_left (by rw [hpc]; nofun)
    rw [hpc] at hentries
    simp only [hpc] at hstep
    cases hstep
    refine ⟨forall_mem_cons.mpr ⟨fun e he => ?_, hentries⟩, fun id' hid' => ?_, nofun, rfl⟩
    · grind [Acknowledged, State.change, Dir.without, PersistPC.file]
    · obtain rfl := Option.some.inj hid'
      exact Dir.has_append_singleton _
  | sync id failed =>
    obtain rfl : r = .ok := hclean.resolve_left (by rw [hpc]; nofun)
    rw [hpc] at hentries htemp hwhole
    simp only [hpc] at hstep
    cases hstep
    exact ⟨hentries, htemp, nofun, by simpa [PersistPC.failed] using hwhole⟩
  | close id failed =>
    obtain rfl : r = .ok := hclean.resolve_left (by rw [hpc]; nofun)
    rw [hpc] at hentries htemp hwhole
    obtain rfl : failed = false := hwhole
    simp only [hpc] at hstep
    cases hstep
    exact ⟨hentries, htemp, nofun, rfl⟩
  | rename id =>
    obtain rfl : r = .ok := hclean.resolve_left (by rw [hpc]; nofun)
    rw [hpc] at hentries htemp
    simp only [hpc, ne_eq, not_true_eq_false, if_false] at hstep
    cases hd : s.dir.rename id with
    | none =>
      -- the temporary file is there
      obtain ⟨e, he, hid⟩ := Dir.has_iff.mp (htemp id rfl)
      have hnone := find?_eq_none.mp (Option.map_eq_none_iff.mp hd) e he
      exact absurd (decide_eq_true hid) hnone
    | some d =>
      simp only [hd] at hstep
      cases hstep
      have hren := Dir.renamed hd
      refine ⟨forall_mem_cons.mpr ⟨fun e he => ?_, hentries⟩, nofun, fun id' hid' e he heid => ?_,
        rfl⟩
      · rcases hren.mem e he with ⟨rfl, -⟩ | ⟨hold, -⟩
        · exact .inr rfl
        · exact hentries s.dir mem_cons_self e hold
      · cases hid'
        rcases hren.mem e he with ⟨-, hjson⟩ | ⟨-, hne⟩
        · exact hjson
        · exact absurd heid hne
  | syncDir id =>
    obtain rfl : r = .ok := hclean.resolve_left (by rw [hpc]; nofun)
    have hrenamed := h.renamed id hpc
    rw [hpc] at hentries
    simp only [hpc] at hstep
    cases hstep
    refine ⟨fun p hp e he => .inl ?_, nofun, nofun, rfl⟩
    rw [mem_singleton.mp hp] at he
    rcases hentries s.dir mem_cons_self e he with hacked | hid
    · exact ⟨hacked.1, mem_cons_of_mem id hacked.2⟩
    · obtain rfl := Option.some.inj hid
      exact ⟨hrenamed e he rfl, mem_cons_self⟩

theorem Tidy.to_flush (h : Tidy s) {pc : FlushPC κ} {delivered : List κ} :
    Tidy { s with flush := pc, delivered := delivered } :=
  h.mono rfl rfl (fun p hp => ⟨p, hp, fun _ he => he⟩) (fun _ he => he) fun _ hid => hid

theorem Tidy.durable (h : Tidy s) : Tidy s.durable :=
  h.mono rfl rfl (fun p hp => ⟨p, by rw [mem_singleton.mp hp]; simp [State.durable],
    fun _ he => he⟩) (fun _ he => he) fun _ hid => hid

theorem tidy_flushStep (h : Tidy s) (hstep : flushStep s r = some s') : Tidy s' := by
  unfold flushStep at hstep
  cases hpc : s.flush with
  | idle => simp only [hpc] at hstep; cases hstep
  | list | post id todo =>
    simp only [hpc] at hstep
    split at hstep <;> cases hstep <;> exact h.to_flush
  | next todo => grind [Tidy.to_flush]
  | lock id todo =>
    simp only [hpc] at hstep
    split at hstep <;> cases hstep
    exact h.to_flush
  | remove id todo =>
    simp only [hpc] at hstep
    split at hstep <;> cases hstep
    · exact h.to_flush
    · refine h.mono rfl rfl (forall_mem_cons.mpr ⟨⟨s.dir, mem_cons_self, fun e he => ?_⟩,
        fun p hp => ⟨p, hp, fun _ he => he⟩⟩) (fun e he => ?_) fun id' hid' => ?_
      · exact (Dir.mem_without.mp he).1
      · exact (Dir.mem_without.mp he).1
      · exact Dir.has_without hid' nofun
  | syncDir id todo failed =>
    simp only [hpc] at hstep
    have hsynced : Tidy (if r = .failed then s else s.durable) := by
      split
      · exact h
      · exact h.durable
    split at hstep <;> cases hstep <;> exact hsynced.to_flush

theorem tidy_step {a : Action κ} (h : Tidy s) (hclean : Clean s a)
    (hstep : step s a = some s') : Tidy s' := by
  cases a with
  | persist id n =>
    simp only [step] at hstep
    split at hstep
    · next hfree =>
      cases hstep
      exact h.to_pc (by rw [hfree.1]; rfl) rfl
    · cases hstep
  | persistStep r => exact tidy_persistStep h hclean hstep
  | flush =>
    simp only [step] at hstep
    split at hstep <;> cases hstep
    exact h.to_flush
  | flushStep r => exact tidy_flushStep h hstep
  | kill =>
    cases hstep
    have hidle : Tidy { s with persist := .idle } := h.to_pc hclean rfl
    exact hidle.to_flush
  | powerLoss d =>
    simp only [step] at hstep
    split at hstep
    · next hleft =>
      cases hstep
      obtain ⟨p, hp, hrem⟩ := hleft
      refine ⟨fun q hq e he => .inl ?_, nofun, nofun, rfl⟩
      rw [mem_singleton.mp hq] at he
      obtain ⟨e', he', hid, hkind⟩ := hrem.mem he
      rcases h.entries p hp e' he' with hacked | hfile
      · exact ⟨hkind ▸ hacked.1, hid ▸ hacked.2⟩
      · -- a file of the persist that was cut off
        rw [hid] at hfile
        obtain ⟨htmp, hjson⟩ := hclean e.id hfile
        cases hk : e.kind with
        | tmp =>
          rw [Dir.has_iff.mpr ⟨e, he, rfl, hk⟩] at htmp
          exact nomatch htmp
        | json => exact ⟨hk, hjson (Dir.has_iff.mpr ⟨e, he, rfl, hk⟩)⟩
    · cases hstep

/-- In a `Clean` run every file is accounted for. -/
theorem tidy_reaches (hs : (machine κ).Reaches Clean s) : Tidy s := by
  induction hs with
  | @start s hempty =>
    obtain rfl : s = {} := hempty
    refine ⟨fun p hp e he => ?_, nofun, nofun, rfl⟩
    rw [mem_singleton.mp hp] at he
    exact nomatch he
  | step _ hclean hstep ih => exact tidy_step ih hclean hstep

/-- **The outbox keeps what it acknowledged.** In every run an acknowledged event is delivered or in
the outbox, which is within its limits. In a run in which no persist leaves its file behind, every
file is an acknowledged record or belongs to the persist under way, and a persist that comes to
create its temporary file finds none. -/
theorem outbox_loses_nothing (s : State κ) :
    ((machine κ).Reachable s →
      (∀ id ∈ s.acknowledged, id ∈ s.delivered ∨ s.dir.has id .json = true) ∧
      s.dir.length ≤ 1024 ∧ s.dir.used ≤ 16 * 2 ^ 20) ∧
    ((machine κ).Reaches Clean s →
      (∀ e ∈ s.dir, Acknowledged s e ∨ s.persist.file = some e.id) ∧
      ∀ id n, s.persist = .create id n → s.dir.has id .tmp = false) := by
  constructor
  · intro hs
    have hinv := inv_reaches hs
    refine ⟨fun id hid => (hinv.kept id hid).imp_right fun hall => hall _ mem_cons_self, ?_⟩
    exact hinv.bounded s.dir mem_cons_self
  · intro hs
    have htidy := tidy_reaches hs
    refine ⟨htidy.entries s.dir mem_cons_self, fun id n hpc => ?_⟩
    by_contra hexists
    obtain ⟨e, he, -, htmp⟩ := Dir.has_iff.mp (Bool.not_eq_false _ ▸ hexists)
    have hacked := htidy.acknowledged (by rw [hpc]; rfl) s.dir mem_cons_self e he
    rw [hacked.1] at htmp
    exact nomatch htmp

/-- A persist that goes through, with a flush that fails to deliver and a power loss after it. -/
theorem outbox_loses_nothing_pending :
    ∃ s : State Nat, (machine Nat).Reachable s ∧ (machine Nat).Reaches Clean s ∧
      s.acknowledged = [7] ∧ s.dir.has 7 .json = true ∧
      ∀ e ∈ s.dir, Acknowledged s e ∨ s.persist.file = some e.id := by
  have hstart : (machine Nat).Reaches Clean {} := .start rfl
  obtain ⟨s, hs, hacked, hdelivered⟩ := Machine.exists_reaches_of_run hstart
    [.persist 7 100, .persistStep .ok, .persistStep .ok, .persistStep .ok, .persistStep .ok,
      .persistStep .ok, .persistStep .ok, .persistStep .ok, .persistStep .ok, .flush,
      .flushStep .ok, .flushStep .ok, .flushStep .failed, .powerLoss [⟨7, .json, 100⟩]]
    (P := fun s => s.acknowledged = [7] ∧ s.delivered = []) (by decide +kernel)
  have hreach := hs.reachable
  have hthm := outbox_loses_nothing s
  refine ⟨s, hreach, hs, hacked, ?_, (hthm.2 hs).1⟩
  have hkept := (hthm.1 hreach).1 7 (by rw [hacked]; exact mem_cons_self)
  rw [hdelivered] at hkept
  exact hkept.resolve_left nofun

/-- A failed write leaves the temporary file behind: it uses an entry of the outbox that no flush
frees, and every later persist of the same event fails to create it. -/
theorem failed_persist_blocks_itself :
    ∃ s : State Nat, (machine Nat).Reachable s ∧ s.acknowledged = [] ∧ s.dir = [⟨7, .tmp, 0⟩] ∧
      s.persist = .create 7 100 ∧
      ∀ r s', step s (.persistStep r) = some s' →
        s'.persist = .idle ∧ s'.acknowledged = [] ∧ s'.dir = [⟨7, .tmp, 0⟩] := by
  have hstart : (machine Nat).Reachable {} := .start rfl
  obtain ⟨s, hs, hacked, hdir, hpc⟩ := Machine.exists_reaches_of_run hstart
    [.persist 7 100, .persistStep .ok, .persistStep .ok, .persistStep .ok, .persistStep .failed,
      .persistStep .ok, .persistStep .ok, .flush, .flushStep .ok, .flushStep .ok,
      .persist 7 100, .persistStep .ok, .persistStep .ok]
    (P := fun s => s.acknowledged = [] ∧ s.dir = [⟨7, .tmp, 0⟩] ∧ s.persist = .create 7 100)
    (by decide +kernel)
  refine ⟨s, hs, hacked, hdir, hpc, fun r s' hstep => ?_⟩
  simp only [step, persistStep, hpc] at hstep
  rw [if_pos (.inr (by rw [hdir]; decide))] at hstep
  cases hstep
  exact ⟨rfl, hacked, hdir⟩

end LitestreamSoak.Worker.Outbox
