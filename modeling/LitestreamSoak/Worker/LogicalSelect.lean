import LitestreamSoak.Lib.Procedure
import LitestreamSoak.Worker.Logical

/-!
# Worker.LogicalSelect — what the read of a table selects

The read of a table hands SQLite one statement, a text it puts together from the column names. Such
a text is that of a `Select`, and `Answers` is what SQLite documents for it. From the two follows
what the read gets to see of the rows that are stored.
-/

namespace LitestreamSoak.Worker.Logical

open Lib List

/-! ## §1 — equal values -/

/-- The same value with the same type; the two zeros are one value. -/
def Value.Same : Value → Value → Prop
  | .real x, .real y => x = y ∨ isZero x = true ∧ isZero y = true
  | v, w => v = w

def Value.norm : Value → Value
  | .real bits => .real (if isZero bits then 0 else bits)
  | v => v

theorem norm_eq_iff_same (v w : Value) : v.norm = w.norm ↔ v.Same w := by
  cases v with
  | real x =>
    cases w with
    | real y =>
      simp only [Value.norm, Value.Same, Value.real.injEq]
      -- the two zeros of a float are one value
      grind [isZero]
    | _ => simp [Value.norm, Value.Same]
  | _ => cases w <;> simp [Value.norm, Value.Same]

def Scanned.Same : Scanned → Scanned → Prop
  | .value v, .value w => v.Same w
  | .other a, .other b => a = b
  | _, _ => False

def SameRow : List Scanned → List Scanned → Prop := List.Forall₂ Scanned.Same

def Scanned.norm : Scanned → Scanned
  | .value v => .value v.norm
  | s => s

theorem sameRow_iff {x y : List Scanned} :
    SameRow x y ↔ x.map Scanned.norm = y.map Scanned.norm := by
  have hcell : ∀ a b : Scanned, a.norm = b.norm ↔ a.Same b := by
    intro a b
    cases a <;> cases b <;> simp [Scanned.norm, Scanned.Same, norm_eq_iff_same]
  rw [← forall₂_eq_eq_eq, forall₂_map_left_iff, forall₂_map_right_iff]
  simp only [hcell]
  rfl

theorem sameRows_iff {l l' : List (List Scanned)} :
    List.Forall₂ SameRow l l' ↔ l.map (·.map Scanned.norm) = l'.map (·.map Scanned.norm) := by
  rw [← forall₂_eq_eq_eq, forall₂_map_left_iff, forall₂_map_right_iff]
  simp only [← sameRow_iff]

theorem forall₂_of_map_eq {α κ : Type} {f : α → κ} {R : α → α → Prop} {l s : List α}
    (h : l.map f = s.map f) (hR : ∀ a ∈ l, ∀ b ∈ s, f a = f b → R a b) : List.Forall₂ R l s := by
  induction l generalizing s with
  | nil =>
    cases s with
    | nil => exact .nil
    | cons b s => cases h
  | cons a l ih =>
    cases s with
    | nil => cases h
    | cons b s =>
      obtain ⟨hhead, htail⟩ := cons.inj h
      refine .cons (hR a mem_cons_self b mem_cons_self hhead) (ih htail ?_)
      exact fun x hx y hy => hR x (mem_cons_of_mem a hx) y (mem_cons_of_mem b hy)

/-! ## §2 — SELECT and ORDER BY -/

/-- The place of the name that `typeof` gives among the five: blob, integer, null, real, text. -/
def Value.typeofKey : Value → Int
  | .blob _ => 0
  | .integer _ => 1
  | .null => 2
  | .real _ => 3
  | .text _ => 4

/-- How `COLLATE BINARY` sorts the values of one type: numbers by size, the rest byte by byte. -/
def Value.binaryKey : Value → List Int
  | .null => []
  | .integer v => [v.toInt]
  | .real bits => [if bits.toNat < 2 ^ 63 then (bits.toNat : Int) else 2 ^ 63 - bits.toNat]
  | .text s => s.1.map fun b => (b.toNat : Int)
  | .blob b => b.1.map fun b => (b.toNat : Int)

inductive Expr where
  /-- `+"x"`: the value as it is stored, whatever type the column declares -/
  | plain (column : Bytes)
  | rowID (rowName : Bytes)

inductive Term where
  | typeof (name : Bytes)
  | binary (name : Bytes)
  /-- `"x"`: under the collation of the column -/
  | column (name : Bytes)
  | rowID (rowName : Bytes)

structure Select where
  expressions : List Expr
  table : Bytes
  ordering : List Term

def Expr.text : Expr → Bytes
  | .plain column => lit "+" ++ logicalIdentifier column
  | .rowID rowName => rowName

def Term.text : Term → Bytes
  | .typeof name => lit "typeof(" ++ (Expr.plain name).text ++ lit ")"
  | .binary name => (Expr.plain name).text ++ lit " COLLATE BINARY"
  | .column name => logicalIdentifier name
  | .rowID rowName => rowName

def Select.text (q : Select) : Bytes :=
  lit "SELECT " ++ (lit ",").intercalate (q.expressions.map Expr.text) ++ lit " FROM " ++
    logicalIdentifier q.table ++ lit " ORDER BY " ++
      (lit ",").intercalate (q.ordering.map Term.text)

/-- A name of the rowid is that of a column, if a column has it. -/
def rowIDValue (c : Contents) (row : StoredRow) (rowName : Bytes) : Value :=
  ((c.columns.zip row.values).find? fun x => lower x.1.name = rowName).elim (.integer row.rowID)
    Prod.snd

def Expr.eval (c : Contents) (row : StoredRow) : Expr → Value
  | .plain column => columnValue c.columns row column
  | .rowID rowName => rowIDValue c row rowName

def Term.key (c : Contents) (row : StoredRow) : Term → List Int
  | .typeof name => [(columnValue c.columns row name).typeofKey]
  | .binary name => (columnValue c.columns row name).binaryKey
  | .column name => c.collate name (columnValue c.columns row name)
  | .rowID rowName => (rowIDValue c row rowName).binaryKey

def Select.row (q : Select) (c : Contents) (row : StoredRow) : List Scanned :=
  q.expressions.map fun e => .value (e.eval c row)

def Select.key (q : Select) (c : Contents) (row : StoredRow) : List (List Int) :=
  q.ordering.map (·.key c row)

/-- **SELECT … ORDER BY as documented**: every row of the table once, sorted by the terms one after
the other, and of each row the values of the expressions. Rows the terms do not tell apart come in
any order. -/
def Answers (c : Contents) (q : Select) (rows : List (List Scanned)) : Prop :=
  ∃ l : List StoredRow, l.Perm c.rows ∧ l.Pairwise (fun a b => q.key c a ≤ q.key c b) ∧
    rows = l.map (q.row c)

/-! ## §3 — the rows of a table in order -/

variable {c : Contents} {row : StoredRow} {rowName name : Bytes}

/-- A name of the rowid that no column has taken. -/
def Contents.rowIDName (c : Contents) : Option Bytes :=
  if c.withoutRowID then none
  else [lit "rowid", lit "_rowid_", lit "oid"].find? fun n =>
    !(c.columns.map (lower ·.name)).contains n

def Contents.visible (c : Contents) (row : StoredRow) : List Scanned :=
  row.values.map .value ++ if c.rowIDName.isSome then [.value (.integer row.rowID)] else []

def Contents.order (c : Contents) (row : StoredRow) : List (List Int) :=
  if c.withoutRowID then c.key.map fun k => c.collate k.name (columnValue c.columns row k.name)
  else if c.rowIDName.isSome then [[row.rowID.toInt]]
  else row.values.flatMap fun v => [[v.typeofKey], v.binaryKey]

/-- **The rows of a table in order**: by primary key in a table without rowid, by rowid where it has
a name left, by all their values otherwise. -/
def Contents.inOrder (c : Contents) : List (List Scanned) :=
  (c.rows.insertionSort fun a b => c.order a ≤ c.order b).map c.visible

def readSelect (c : Contents) (name : Bytes) : Select where
  expressions := c.columns.map (.plain ·.name) ++ c.rowIDName.toList.map .rowID
  table := name
  ordering :=
    if c.withoutRowID then c.key.map (.column ·.name)
    else
      match c.rowIDName with
      | some rowName => [.rowID rowName]
      | none => c.columns.flatMap fun k => [.typeof k.name, .binary k.name]

theorem map_columnValue {columns : List Column} {values : List Value}
    (hnames : (columns.map Column.name).Nodup) (hwidth : values.length = columns.length) :
    columns.map (fun k =>
      ((columns.zip values).find? fun x => x.1.name = k.name).elim .null Prod.snd) = values := by
  induction columns generalizing values with
  | nil => rw [length_eq_zero_iff.mp hwidth]; rfl
  | cons k columns ih =>
    cases values with
    | nil => cases hwidth
    | cons v values =>
      rw [map_cons, nodup_cons] at hnames
      rw [map_cons, zip_cons_cons, find?_cons_of_pos (by simp)]
      refine congrArg (v :: ·) (Eq.trans (map_congr_left fun k' hk' => ?_)
        (ih hnames.2 (Nat.succ.inj hwidth)))
      have hne : k.name ≠ k'.name := fun h => hnames.1 (h ▸ mem_map_of_mem hk')
      rw [find?_cons_of_neg (by simpa using hne)]

theorem columnValues_eq (hrow : row ∈ c.rows) :
    c.columns.map (fun k => columnValue c.columns row k.name) = row.values :=
  map_columnValue c.names_unique (c.width row hrow)

theorem rowIDValue_eq (h : c.rowIDName = some rowName) (row : StoredRow) :
    rowIDValue c row rowName = .integer row.rowID := by
  unfold Contents.rowIDName at h
  split at h
  · cases h
  · have hfree : rowName ∉ c.columns.map (lower ·.name) := by simpa using find?_some h
    rw [rowIDValue, find?_eq_none.mpr fun x hx => ?_]
    · rfl
    · have hx := (of_mem_zip hx).1
      simpa using fun hname : lower x.1.name = rowName => hfree (hname ▸ mem_map_of_mem hx)

/-- **The statement reads every visible column, and the rowid.** -/
theorem readSelect_row (hrow : row ∈ c.rows) : (readSelect c name).row c row = c.visible row := by
  unfold Select.row readSelect Contents.visible
  rw [map_append, map_map]
  congr 1
  · conv_rhs => rw [← columnValues_eq hrow, map_map]
    rfl
  · cases h : c.rowIDName with
    | none => rfl
    | some rowName => grind [rowIDValue_eq, Expr.eval]

theorem readSelect_key (hrow : row ∈ c.rows) : (readSelect c name).key c row = c.order row := by
  unfold Select.key readSelect Contents.order
  dsimp only
  split
  · rw [map_map]
    rfl
  · cases h : c.rowIDName with
    | some rowName =>
      show [(rowIDValue c row rowName).binaryKey] = _
      rw [rowIDValue_eq h]
      rfl
    | none =>
      rw [if_neg (by simp), map_flatMap]
      conv_rhs => rw [← columnValues_eq hrow, flatMap_map]
      rfl

theorem same_of_keys {v w : Value} (htype : v.typeofKey = w.typeofKey)
    (hkey : v.binaryKey = w.binaryKey) : v.Same w := by
  have hbytes : ∀ {x y : Bytes}, x.map (fun b => (b.toNat : Int)) =
    y.map (fun b => (b.toNat : Int)) →
      x = y := fun h => (map_injective_iff.mpr fun a b hab => UInt8.toNat_inj.mp
        (by simpa using hab)) h
  cases v <;> cases w
  case null.null => rfl
  case integer.integer x y => exact congrArg Value.integer (Int64.toInt_inj.mp (cons.inj hkey).1)
  case text.text x y => exact congrArg Value.text (Subtype.ext (hbytes hkey))
  case blob.blob x y => exact congrArg Value.blob (Subtype.ext (hbytes hkey))
  case real.real x y =>
    -- equal magnitudes of unequal sign are the two zeros
    have hsize := (cons.inj hkey).1
    by_cases hxy : x = y
    · exact .inl hxy
    · have hne : x.toNat ≠ y.toNat := fun h => hxy (UInt64.toNat_inj.mp h)
      have hzero : ∀ z : UInt64, z.toNat = 0 ∨ z.toNat = 2 ^ 63 → isZero z = true := by
        intro z hz
        rw [isZero, Bool.or_eq_true, decide_eq_true_eq, decide_eq_true_eq, ← UInt64.toNat_inj,
          ← UInt64.toNat_inj]
        exact hz
      refine .inr ⟨hzero x ?_, hzero y ?_⟩ <;> split at hsize <;> split at hsize <;> omega
  all_goals exact absurd htype (by simp [Value.typeofKey])

theorem sameRow_of_order_eq {a b : StoredRow} (ha : a ∈ c.rows) (hb : b ∈ c.rows)
    (h : c.order a = c.order b) : SameRow (c.visible a) (c.visible b) := by
  unfold Contents.order at h
  split at h
  · next hkey =>
    obtain rfl := inj_on_of_nodup_map (c.keys_unique hkey) ha hb h
    exact sameRow_iff.mpr rfl
  · next hrowid =>
    split at h
    · have hid : a.rowID = b.rowID := Int64.toInt_inj.mp (cons.inj (cons.inj h).1).1
      obtain rfl := inj_on_of_nodup_map (c.rowIDs_unique (by simpa using hrowid)) ha hb hid
      exact sameRow_iff.mpr rfl
    · next hname =>
      unfold Contents.visible
      rw [if_neg hname, if_neg hname, append_nil, append_nil, SameRow, forall₂_map_left_iff,
        forall₂_map_right_iff]
      have hwidth := (c.width a ha).trans (c.width b hb).symm
      generalize a.values = vs at *
      generalize b.values = ws at *
      induction vs generalizing ws with
      | nil => rw [length_eq_zero_iff.mp hwidth.symm]; exact .nil
      | cons v vs ih =>
        cases ws with
        | nil => cases hwidth
        | cons w ws =>
          rw [flatMap_cons, flatMap_cons] at h
          obtain ⟨htype, h⟩ := cons.inj h
          obtain ⟨hkey, h⟩ := cons.inj h
          exact .cons (same_of_keys (cons.inj htype).1 hkey) (ih ws h (Nat.succ.inj hwidth))

/-- **What the read gets to see.** -/
theorem answers_inOrder {rows : List (List Scanned)} (h : Answers c (readSelect c name) rows) :
    List.Forall₂ SameRow rows c.inOrder := by
  obtain ⟨l, hperm, hsorted, rfl⟩ := h
  have : Std.Total fun a b : StoredRow => c.order a ≤ c.order b := ⟨fun a b => le_total _ _⟩
  have : IsTrans StoredRow fun a b => c.order a ≤ c.order b := ⟨fun a b d => le_trans⟩
  have hinsert := perm_insertionSort (fun a b => c.order a ≤ c.order b) c.rows
  have hmem : ∀ a ∈ l, a ∈ c.rows := fun a ha => hperm.subset ha
  have hrows : l.map ((readSelect c name).row c) = l.map c.visible :=
    map_congr_left fun a ha => readSelect_row (hmem a ha)
  have hsorted : l.Pairwise fun a b => c.order a ≤ c.order b :=
    hsorted.imp_of_mem fun ha hb hle => by
      rwa [readSelect_key (hmem _ ha), readSelect_key (hmem _ hb)] at hle
  -- both lists are sorted by `order`, so they have the same keys at each place
  have hkeys : l.map c.order =
      (c.rows.insertionSort fun a b => c.order a ≤ c.order b).map c.order :=
    ((hperm.trans hinsert.symm).map c.order).eq_of_pairwise' (pairwise_map.mpr hsorted)
      (pairwise_map.mpr (pairwise_insertionSort _ c.rows))
  rw [hrows, Contents.inOrder, forall₂_map_left_iff, forall₂_map_right_iff]
  refine forall₂_of_map_eq hkeys fun a ha b hb hab => ?_
  exact sameRow_of_order_eq (hmem a ha) (hinsert.subset hb) hab

/-! ## §4 — the text of the statement -/

/-- The map from places to quoted names that the scan of the columns fills. -/
structure Keyed (columns : List Column) (primaryKey : List (Int × Bytes)) : Prop where
  nodup : (primaryKey.map Prod.fst).Nodup
  sound : ∀ e ∈ primaryKey, ∃ k ∈ columns, 0 < k.pk ∧ e = (k.pk, logicalIdentifier k.name)
  complete : ∀ k ∈ columns, 0 < k.pk → k.pk ∈ primaryKey.map Prod.fst

theorem Keyed.add {columns : List Column} {primaryKey : List (Int × Bytes)}
    (h : Keyed columns primaryKey) (k : Column) :
    Keyed (columns ++ [k])
      (if k.pk > 0 then (k.pk, logicalIdentifier k.name) :: primaryKey.filter (fun e => e.1 ≠ k.pk)
        else primaryKey) := by
  have hold : ∀ e ∈ primaryKey,
      ∃ k' ∈ columns ++ [k], 0 < k'.pk ∧ e = (k'.pk, logicalIdentifier k'.name) := by
    intro e he
    obtain ⟨k', hk', hpos, rfl⟩ := h.sound e he
    exact ⟨k', mem_append_left _ hk', hpos, rfl⟩
  split
  · next hpos =>
    refine ⟨?_, ?_, ?_⟩
    · rw [map_cons, nodup_cons]
      refine ⟨by simp, h.nodup.sublist (filter_sublist.map _)⟩
    · grind
    · intro k' hk' hpos'
      by_cases hsame : k'.pk = k.pk
      · simp [hsame]
      · rcases mem_append.mp hk' with hk' | hk'
        · obtain ⟨e, he, heq⟩ := List.mem_map.mp (h.complete k' hk' hpos')
          grind
        · rw [mem_singleton.mp hk'] at hsame
          exact absurd rfl hsame
  · next hpos =>
    refine ⟨h.nodup, hold, fun k' hk' hpos' => ?_⟩
    grind [Keyed.complete]

theorem scanColumns_eq_ok {done columns : List Column} {s s' : ColumnScan}
    (hkeyed : Keyed done s.primaryKey) (h : scanColumns columns s = .ok s') :
    s'.expressions = s.expressions ++ columns.map (fun k => (Expr.plain k.name).text) ∧
    s'.ordering = s.ordering ++
      columns.flatMap (fun k => [(Term.typeof k.name).text, (Term.binary k.name).text]) ∧
    (∀ n, n ∈ s'.columnNames ↔ n ∈ s.columnNames ∨ n ∈ columns.map (lower ·.name)) ∧
    Keyed (done ++ columns) s'.primaryKey := by
  induction columns generalizing done s with
  | nil =>
    cases h
    simpa using hkeyed
  | cons k columns ih =>
    unfold scanColumns at h
    dsimp only at h
    split at h
    · cases h
    split at h
    · cases h
    obtain ⟨hexpressions, hordering, hnames, hkeys⟩ := ih (hkeyed.add k) h
    rw [hexpressions, hordering]
    refine ⟨by simp [Expr.text], by simp [Expr.text, Term.text], fun n => ?_, by simpa using hkeys⟩
    rw [hnames n, mem_cons, map_cons, mem_cons]
    tauto

theorem place_iff (i : Nat) (k : Column) : c.key[i]? = some k ↔ k ∈ c.columns ∧ k.pk = i + 1 := by
  grind [Contents.key_columns, Contents.place]

/-- The places 1, 2, … of the map give the columns of the key in its order. -/
theorem Keyed.ordering {primaryKey : List (Int × Bytes)} (h : Keyed c.columns primaryKey) :
    (List.range primaryKey.length).map (fun i : Nat =>
      ((primaryKey.find? fun e => e.1 = (i : Int) + 1).map Prod.snd).getD []) =
      c.key.map fun k => logicalIdentifier k.name := by
  have hplaces : (primaryKey.map Prod.fst).Perm
      ((List.range c.key.length).map fun i : Nat => (i : Int) + 1) := by
    refine (perm_ext_iff_of_nodup h.nodup (Nodup.map (fun a b hab => by simpa using hab)
      nodup_range)).mpr fun x => ?_
    simp only [List.mem_map, mem_range]
    constructor
    · rintro ⟨e, he, rfl⟩
      obtain ⟨k, hk, hpos, rfl⟩ := h.sound e he
      have hi := (place_iff (c := c) (k.pk - 1).toNat k).mpr ⟨hk, by omega⟩
      exact ⟨_, (List.getElem?_eq_some_iff.mp hi).1, by show _ = k.pk; omega⟩
    · rintro ⟨i, hi, rfl⟩
      obtain ⟨hk, hpk⟩ := (place_iff i _).mp (getElem?_eq_getElem hi)
      rw [← hpk, ← List.mem_map]
      exact h.complete _ hk (by omega)
  have hlength : primaryKey.length = c.key.length := by simpa using hplaces.length_eq
  refine List.ext_getElem (by simpa using hlength) fun i hi hi' => ?_
  rw [length_map] at hi'
  rw [getElem_map, getElem_range, getElem_map]
  have hmem : (i : Int) + 1 ∈ primaryKey.map Prod.fst :=
    hplaces.symm.subset (List.mem_map.mpr ⟨i, mem_range.mpr hi', rfl⟩)
  obtain ⟨e, he, heq⟩ := List.mem_map.mp hmem
  cases hfind : primaryKey.find? fun e => e.1 = (i : Int) + 1 with
  | none => exact absurd heq (by simpa using find?_eq_none.mp hfind e he)
  | some found =>
    obtain ⟨k, hk, -, rfl⟩ := h.sound found (mem_of_find?_eq_some hfind)
    have hpk : k.pk = (i : Int) + 1 := by simpa using find?_some hfind
    have hget := (place_iff i k).mpr ⟨hk, hpk⟩
    rw [getElem?_eq_getElem hi'] at hget
    rw [Option.some.inj hget]
    rfl

/-- **The answers of SQLite to the queries of the read**, as documented: the two pragmas describe
the table, and the rows are those of the statement in the order it asks for. -/
structure Documented (db : Database) : Prop where
  xinfo : ∀ name, (db.tableXInfo name).err = none →
    (db.tableXInfo name).rows = (db.contents name).columns
  list : ∀ name kind withoutRowID, db.tableList name = some (kind, withoutRowID) →
    withoutRowID = (db.contents name).withoutRowID
  select : ∀ name, (db.select (readSelect (db.contents name) name).text).err = none →
    Answers (db.contents name) (readSelect (db.contents name) name)
      (db.select (readSelect (db.contents name) name).text).rows

theorem err_of_finish {α : Type} {q : Query α} {u : Unit} (h : q.finish = .ok u) :
    q.err = none := by
  unfold Query.finish at h
  split at h
  · cases h
  · assumption

/-- The text is that of `readSelect`: every visible column and the rowid, if a column has not taken
each of its names. -/
theorem selectStatement_eq_ok {db : Database} {fts5Module : Bytes → Bool} {statement : Bytes}
    (hdb : Documented db) (h : selectStatement fts5Module db name = .ok statement) :
    statement = (readSelect (db.contents name) name).text := by
  obtain ⟨s, hscan, h⟩ := exists_of_bind_eq_ok h
  obtain ⟨_, hfinish, h⟩ := exists_of_bind_eq_ok h
  obtain ⟨⟨kind, withoutRowID⟩, hlist, h⟩ := exists_of_bind_eq_ok h
  obtain ⟨_, -, h⟩ := exists_of_bind_eq_ok h
  rw [hdb.xinfo name (err_of_finish hfinish)] at hscan
  have hkeyed : Keyed [] ({} : ColumnScan).primaryKey :=
    ⟨nodup_nil, forall_mem_nil _, forall_mem_nil _⟩
  obtain ⟨hexpressions, hordering, hnames, hkeys⟩ := scanColumns_eq_ok hkeyed hscan
  have hwithout : withoutRowID = (db.contents name).withoutRowID := by
    cases htable : db.tableList name with
    | none => rw [htable] at hlist; cases hlist
    | some found =>
      rw [htable] at hlist
      cases hlist
      exact hdb.list name _ _ htable
  generalize db.contents name = c at *
  subst hwithout
  have hname : c.withoutRowID = false → c.rowIDName =
      [lit "rowid", lit "_rowid_", lit "oid"].find? (· ∉ s.columnNames) := by
    intro hrowid
    rw [Contents.rowIDName, if_neg (by simp [hrowid])]
    congr 1
    funext n
    have hn : n ∈ s.columnNames ↔ n ∈ c.columns.map (lower ·.name) := by simpa using hnames n
    rw [decide_not, decide_eq_decide.mpr hn, List.contains_eq_mem]
  unfold Select.text readSelect
  dsimp only
  cases hwithout : c.withoutRowID with
  | true =>
    have hnone : c.rowIDName = none := by rw [Contents.rowIDName, if_pos hwithout]
    rw [if_pos hwithout, hkeys.ordering, hexpressions] at h
    rw [← Except.ok.inj h, hnone, if_pos rfl]
    simp only [Option.toList_none, map_nil, append_nil, map_map]
    rfl
  | false =>
    rw [if_neg (by simp [hwithout]), ← hname hwithout, hexpressions, hordering] at h
    rw [if_neg (by simp), map_append, map_map]
    cases hfree : c.rowIDName with
    | some rowName =>
      rw [hfree] at h
      rw [← Except.ok.inj h]
      rfl
    | none =>
      rw [hfree] at h
      rw [← Except.ok.inj h]
      simp only [Option.toList_none, map_nil, append_nil, map_flatMap]
      rfl

end LitestreamSoak.Worker.Logical
