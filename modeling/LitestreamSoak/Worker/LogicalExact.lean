import LitestreamSoak.Worker.LogicalSelect

/-!
# Worker.LogicalExact — the comparison accepts equal databases only

What a successful read of a database returns is a function of its content (`schemaPreimage`,
`contentTable`): the limits and the error paths only decide whether there is a result. The rest is
that the two encodings read back.
-/

namespace LitestreamSoak.Worker.Logical

open Lib List

/-! ## §1 — row encoding -/

def Value.plainCode : Value → Bytes
  | .null => lit "n"
  | .integer v => lit "i" ++ bigEndian v.toUInt64
  | .real bits => lit "r" ++ bigEndian bits
  | .text s => lit "t" ++ bigEndian (UInt64.ofNat s.1.length) ++ s.1
  | .blob b => lit "b" ++ bigEndian (UInt64.ofNat b.1.length) ++ b.1

theorem code_eq_plainCode_norm (v : Value) : v.code = v.norm.plainCode := by
  cases v <;> rfl

theorem selfDelimiting_sized :
    SelfDelimiting fun s : Sized => bigEndian (UInt64.ofNat s.1.length) ++ s.1 := by
  refine selfDelimiting_of_size (fun a b s t h => ?_) Subtype.val_injective
  obtain ⟨hlen, hst⟩ := selfDelimiting_bigEndian _ _ s t h
  grind [UInt64.toNat_ofNat']

theorem selfDelimiting_plainCode : SelfDelimiting Value.plainCode := by
  have hcancel : ∀ {tag : UInt8} {s t : Bytes}, [tag] ++ s = [tag] ++ t → s = t := fun h =>
    append_cancel_left h
  intro v w s t h
  cases v <;> cases w <;> simp only [Value.plainCode, append_assoc] at h
  case null.null => exact ⟨rfl, hcancel h⟩
  case integer.integer x y =>
    obtain ⟨hxy, hst⟩ := selfDelimiting_bigEndian _ _ _ _ (hcancel h)
    exact ⟨congrArg Value.integer (congrArg Int64.ofUInt64 hxy), hst⟩
  case real.real x y =>
    obtain ⟨hxy, hst⟩ := selfDelimiting_bigEndian _ _ _ _ (hcancel h)
    exact ⟨by rw [hxy], hst⟩
  case text.text x y =>
    have hxy := hcancel h
    rw [← append_assoc, ← append_assoc] at hxy
    obtain ⟨hxy, hst⟩ := selfDelimiting_sized x y s t hxy
    exact ⟨by rw [hxy], hst⟩
  case blob.blob x y =>
    have hxy := hcancel h
    rw [← append_assoc, ← append_assoc] at hxy
    obtain ⟨hxy, hst⟩ := selfDelimiting_sized x y s t hxy
    exact ⟨by rw [hxy], hst⟩
  all_goals exact absurd (cons.inj h).1 (by decide)

theorem plainCode_ne_nil (v : Value) : v.plainCode ≠ [] := by
  cases v <;> exact cons_ne_nil _ _

def rowCode (row : List Scanned) : Bytes :=
  row.flatMap fun
    | .value v => v.code
    | .other _ => []

theorem encodeLogicalRow_eq_ok {row : List Scanned} {e : Bytes}
    (h : encodeLogicalRow row = .ok e) :
    e = rowCode row ∧ ∃ vs : List Value, row = vs.map .value := by
  induction row generalizing e with
  | nil =>
    cases h
    exact ⟨rfl, [], rfl⟩
  | cons c rest ih =>
    cases c with
    | other goType => cases h
    | value v =>
      obtain ⟨encoded, hrest, he⟩ := exists_of_bind_eq_ok h
      obtain ⟨rfl, vs, rfl⟩ := ih hrest
      cases he
      exact ⟨rfl, v :: vs, rfl⟩

theorem rowCode_map_value (vs : List Value) :
    rowCode (vs.map .value) = (vs.map Value.norm).flatMap Value.plainCode := by
  rw [rowCode, flatMap_map, flatMap_map]
  simp only [code_eq_plainCode_norm]

/-- **A row encoding gives back the row**, whatever its width. -/
theorem rowCode_eq_iff {x y : List Scanned} (hx : ∃ vs : List Value, x = vs.map .value)
    (hy : ∃ vs : List Value, y = vs.map .value) : rowCode x = rowCode y ↔ SameRow x y := by
  obtain ⟨vs, rfl⟩ := hx
  obtain ⟨ws, rfl⟩ := hy
  rw [rowCode_map_value, rowCode_map_value]
  have hsame : SameRow (vs.map .value) (ws.map .value) ↔ vs.map Value.norm = ws.map Value.norm := by
    rw [← forall₂_eq_eq_eq, SameRow]
    simp only [forall₂_map_left_iff, forall₂_map_right_iff, norm_eq_iff_same]
    rfl
  rw [hsame]
  constructor
  · exact selfDelimiting_plainCode.flatMap_inj plainCode_ne_nil
  · intro h
    rw [h]

theorem encodeLogicalRow_inj {x y : List Scanned} {e e' : Bytes}
    (hx : encodeLogicalRow x = .ok e) (hy : encodeLogicalRow y = .ok e') :
    e = e' ↔ SameRow x y := by
  obtain ⟨rfl, hvs⟩ := encodeLogicalRow_eq_ok hx
  obtain ⟨rfl, hws⟩ := encodeLogicalRow_eq_ok hy
  exact rowCode_eq_iff hvs hws

/-! ## §2 — the schema preimage -/

def keptObjects (db : Database) : List SchemaObject :=
  db.schema.rows.filter fun o => o.table ≠ restoreMarkerTable

def SchemaObject.columns (o : SchemaObject) : Bytes × Bytes × Bytes × Bytes :=
  (o.kind, o.name, o.table, o.statement)

def schemaPreimage (db : Database) : Bytes :=
  pragmaBytes db ++ (keptObjects db).flatMap SchemaObject.code

theorem selfDelimiting_sizedString : SelfDelimiting sizedString := by
  refine selfDelimiting_of_size (fun a b s t h => ?_) Function.injective_id
  exact selfDelimiting_of_mark (notMem_decimalBytes (b := 58) (by decide))
    decimalBytes_injective a.length b.length s t h

theorem selfDelimiting_columns :
    SelfDelimiting fun c : Bytes × Bytes × Bytes × Bytes =>
      sizedString c.1 ++ (sizedString c.2.1 ++ (sizedString c.2.2.1 ++ sizedString c.2.2.2)) :=
  selfDelimiting_sizedString.prod <| selfDelimiting_sizedString.prod <|
    selfDelimiting_sizedString.prod selfDelimiting_sizedString

theorem selfDelimiting_pragma : SelfDelimiting fun x : Int => decimalIntBytes x ++ lit ";" :=
  selfDelimiting_of_mark (notMem_decimalIntBytes (b := 59) (by decide)) decimalIntBytes_injective

/-- **The schema preimage gives back the pragmas and the objects.** -/
theorem schemaPreimage_inj (s r : Database) :
    schemaPreimage s = schemaPreimage r ↔
      s.userVersion = r.userVersion ∧ s.applicationID = r.applicationID ∧
        (keptObjects s).map SchemaObject.columns = (keptObjects r).map SchemaObject.columns := by
  have hobjects : ∀ l : List SchemaObject, l.flatMap SchemaObject.code =
      (l.map SchemaObject.columns).flatMap fun c =>
        sizedString c.1 ++ (sizedString c.2.1 ++ (sizedString c.2.2.1 ++ sizedString c.2.2.2)) := by
    intro l
    rw [flatMap_map]
    refine congrArg (fun f => l.flatMap f) (funext fun o => ?_)
    simp only [SchemaObject.code, SchemaObject.columns, append_assoc]
  unfold schemaPreimage pragmaBytes
  rw [hobjects, hobjects]
  constructor
  · intro h
    simp only [append_assoc] at h
    have h := append_cancel_left h
    rw [← append_assoc, ← append_assoc (decimalIntBytes r.userVersion)] at h
    obtain ⟨huser, h⟩ := selfDelimiting_pragma _ _ _ _ h
    have h := append_cancel_left h
    rw [← append_assoc, ← append_assoc (decimalIntBytes r.applicationID)] at h
    obtain ⟨happ, h⟩ := selfDelimiting_pragma _ _ _ _ h
    refine ⟨huser, happ, selfDelimiting_columns.flatMap_inj (fun c hnil => ?_) h⟩
    -- a colon follows the length, so no code is empty
    have hcolon : (58 : UInt8) ∈ sizedString c.1 := by simp [sizedString, lit, ascii]
    rw [(append_eq_nil_iff.mp hnil).1] at hcolon
    cases hcolon
  · rintro ⟨huser, happ, hcolumns⟩
    rw [huser, happ, hcolumns]

def tableNames (db : Database) : List Bytes :=
  ((keptObjects db).filter fun o => o.kind = lit "table").map SchemaObject.name

theorem tableNames_congr {s r : Database}
    (h : (keptObjects s).map SchemaObject.columns = (keptObjects r).map SchemaObject.columns) :
    tableNames s = tableNames r := by
  have hcolumns : ∀ db : Database, tableNames db =
      (((keptObjects db).map SchemaObject.columns).filter fun c => c.1 = lit "table").map
        fun c => c.2.1 := by
    intro db
    rw [filter_map, map_map]
    rfl
  rw [hcolumns, hcolumns, h]

theorem scanSchema_eq_ok {l : List SchemaObject} {s s' : SchemaScan}
    (h : scanSchema l s = .ok s') :
    s'.written = s.written ++
        (l.filter fun o => o.table ≠ restoreMarkerTable).flatMap SchemaObject.code ∧
      s'.tables = s.tables ++
        ((l.filter fun o => o.table ≠ restoreMarkerTable).filter fun o =>
          o.kind = lit "table").map SchemaObject.name := by
  induction l generalizing s with
  | nil =>
    cases h
    simp
  | cons o rest ih =>
    unfold scanSchema at h
    dsimp only at h
    split at h
    · next hmarker =>
      rw [filter_cons_of_neg (by simp [hmarker])]
      exact ih h
    · next hmarker =>
      rw [filter_cons_of_pos (by simp [hmarker])]
      split at h
      · cases h
      split at h
      · cases h
      split at h
      · cases h
      obtain ⟨hwritten, htables⟩ := ih h
      rw [hwritten, htables]
      refine ⟨by rw [flatMap_cons, append_assoc], ?_⟩
      dsimp only
      split
      · next hkind => rw [filter_cons_of_pos (by simp [hkind])]; simp
      · next hkind => rw [filter_cons_of_neg (by simp [hkind])]

/-! ## §3 — what a read returns -/

section Content

variable (sha256 : Bytes → Digest) (fts5Module : Bytes → Bool)
variable {limits : LogicalLimits} {db : Database}

def recognized (db : Database) (name : Bytes) : Bool :=
  match recognizedSeq db name with
  | .ok b => b
  | .error _ => false

def rowsOf (db : Database) (name : Bytes) : List (List Scanned) :=
  match selectStatement fts5Module db name with
  | .ok statement => (db.select statement).rows
  | .error _ => []

def rowDigests (rows : List (List Scanned)) : Bytes :=
  rows.flatMap fun row => (sha256 (rowCode row)).toList

def contentTable (db : Database) (name : Bytes) : LogicalTable :=
  if recognized db name then { name }
  else
    { name
      rows := (rowsOf fts5Module db name).length
      digest := sha256 (rowDigests sha256 (rowsOf fts5Module db name)) }

structure Readable (db : Database) (name : Bytes) : Prop where
  statement : recognizedSeq db name = .ok (recognized db name)
  rows : recognized db name = false →
    ∀ row ∈ rowsOf fts5Module db name, ∃ vs : List Value, row = vs.map .value
  select : recognized db name = false → ∃ statement,
    selectStatement fts5Module db name = .ok statement ∧ (db.select statement).err = none

variable {sha256 fts5Module}

theorem readRows_eq_ok {rows : List (List Scanned)} {limits' : LogicalLimits}
    {written written' : Bytes} {count count' : Int}
    (h : readRows sha256 rows limits written count = .ok (limits', written', count')) :
    written' = written ++ rowDigests sha256 rows ∧ count' = count + rows.length ∧
      ∀ row ∈ rows, ∃ vs : List Value, row = vs.map .value := by
  induction rows generalizing limits written count with
  | nil =>
    cases h
    simp [rowDigests]
  | cons row rest ih =>
    unfold readRows at h
    split at h
    · cases h
    obtain ⟨encoded, hencoded, h⟩ := exists_of_bind_eq_ok h
    obtain ⟨rfl, hrow⟩ := encodeLogicalRow_eq_ok hencoded
    dsimp only at h
    split at h
    · cases h
    obtain ⟨hwritten, hcount, hrest⟩ := ih h
    refine ⟨?_, ?_, forall_mem_cons.mpr ⟨hrow, hrest⟩⟩
    · rw [hwritten, rowDigests, rowDigests, flatMap_cons, append_assoc]
    · rw [hcount, length_cons]
      omega

theorem readLogicalTable_eq_ok {name : Bytes} {limits' : LogicalLimits}
    {table : LogicalTable}
    (h : readLogicalTable sha256 fts5Module db name limits = .ok (table, limits')) :
    table = contentTable sha256 fts5Module db name ∧ Readable fts5Module db name := by
  obtain ⟨b, hseq, h⟩ := exists_of_bind_eq_ok h
  have hb : recognized db name = b := by rw [recognized, hseq]
  cases b with
  | true =>
    obtain ⟨invalid, -, h⟩ := exists_of_bind_eq_ok h
    split at h
    · cases h
    · cases h
      have htrue : recognized db name ≠ false := by rw [hb]; decide
      exact ⟨by rw [contentTable, if_pos hb], by rw [hseq, hb], (absurd · htrue), (absurd · htrue)⟩
  | false =>
    obtain ⟨statement, hstatement, h⟩ := exists_of_bind_eq_ok h
    obtain ⟨⟨limits, written, rows⟩, hread, h⟩ := exists_of_bind_eq_ok h
    obtain ⟨_, hfinish, h⟩ := exists_of_bind_eq_ok h
    cases h
    have hrows : rowsOf fts5Module db name = (db.select statement).rows := by
      rw [rowsOf, hstatement]
    obtain ⟨hwritten, hcount, hvalues⟩ := readRows_eq_ok hread
    refine ⟨?_, by rw [hseq, hb], fun _ => by rwa [hrows], fun _ =>
      ⟨statement, hstatement, err_of_finish hfinish⟩⟩
    rw [contentTable, if_neg (by rw [hb]; decide), hrows, hwritten, hcount, nil_append,
      Int.zero_add]

/-- The rows a read hashes are those of the table, in order. -/
theorem Readable.rowsOf_same {name : Bytes} (h : Readable fts5Module db name) (hdb : Documented db)
    (hseq : recognized db name = false) :
    List.Forall₂ SameRow (rowsOf fts5Module db name) (db.contents name).inOrder := by
  obtain ⟨statement, hstatement, herr⟩ := h.select hseq
  grind [rowsOf, selectStatement_eq_ok, answers_inOrder, Documented.select]

theorem readTables_eq_ok {names : List Bytes}
    {tables : List LogicalTable}
    (h : readTables sha256 fts5Module db names limits = .ok tables) :
    tables = names.map (contentTable sha256 fts5Module db) ∧
      ∀ name ∈ names, Readable fts5Module db name := by
  induction names generalizing limits tables with
  | nil =>
    cases h
    exact ⟨rfl, nofun⟩
  | cons name rest ih =>
    unfold readTables at h
    split at h
    · cases h
    · next table limits' htable =>
      obtain ⟨tables', hrest, h⟩ := exists_of_bind_eq_ok h
      obtain ⟨rfl, hreadable⟩ := readLogicalTable_eq_ok htable
      obtain ⟨rfl, hall⟩ := ih hrest
      cases h
      exact ⟨rfl, forall_mem_cons.mpr ⟨hreadable, hall⟩⟩

/-- **A read that returns, returns the digests of the content.** -/
theorem readLogicalSnapshot_eq_ok
    {snapshot : LogicalSnapshot}
    (h : readLogicalSnapshot sha256 fts5Module db limits = .ok snapshot) :
    snapshot =
        { schema := sha256 (schemaPreimage db)
          tables := (tableNames db).map (contentTable sha256 fts5Module db) } ∧
      ∀ name ∈ tableNames db, Readable fts5Module db name := by
  obtain ⟨scan, hscan, h⟩ := exists_of_bind_eq_ok h
  obtain ⟨_, -, h⟩ := exists_of_bind_eq_ok h
  obtain ⟨tables, htables, h⟩ := exists_of_bind_eq_ok h
  obtain ⟨hwritten, hnames⟩ := scanSchema_eq_ok hscan
  obtain ⟨rfl, hreadable⟩ := readTables_eq_ok htables
  rw [nil_append] at hnames
  rw [hnames] at h hreadable
  obtain ⟨_, -, h⟩ := exists_of_bind_eq_ok h
  cases h
  refine ⟨?_, hreadable⟩
  rw [hwritten]
  rfl

end Content

/-! ## §4 — tables of equal schemas -/

theorem find?_filter_of_imp {α : Type} {p q : α → Bool} {l : List α}
    (h : ∀ a ∈ l, p a = true → q a = true) : (l.filter q).find? p = l.find? p := by
  induction l with
  | nil => rfl
  | cons a l ih => grind

theorem tableStatement_eq_ok {db : Database} {name statement : Bytes}
    (hname : name ≠ restoreMarkerTable) (h : db.tableStatement name = .ok statement) :
    ((keptObjects db).map SchemaObject.columns).find?
        (fun c => c.1 = lit "table" ∧ c.2.1 = name) =
      some (lit "table", name, name, statement) := by
  unfold Database.tableStatement at h
  have hkept : db.schema.rows.find? (fun o => o.kind = lit "table" ∧ o.name = name) =
      (keptObjects db).find? fun o => o.kind = lit "table" ∧ o.name = name := by
    refine (find?_filter_of_imp fun o ho hp => decide_eq_true ?_).symm
    have hp := of_decide_eq_true hp
    rw [db.table_name o ho hp.1, hp.2]
    exact hname
  rw [hkept] at h
  rw [find?_map]
  cases hfind : (keptObjects db).find? fun o => o.kind = lit "table" ∧ o.name = name with
  | none =>
    rw [hfind] at h
    cases h
  | some o =>
    rw [hfind] at h
    have hp : o.kind = lit "table" ∧ o.name = name := by simpa using find?_some hfind
    have hmem := (mem_filter.mp (mem_of_find?_eq_some hfind)).1
    cases hsql : o.sql with
    | none =>
      simp only [hsql] at h
      cases h
    | some st => grind [SchemaObject.columns, SchemaObject.statement, Database.table_name]

theorem recognized_congr {s r : Database} {name : Bytes}
    (h : (keptObjects s).map SchemaObject.columns = (keptObjects r).map SchemaObject.columns)
    (hs : recognizedSeq s name = .ok (recognized s name))
    (hr : recognizedSeq r name = .ok (recognized r name)) :
    recognized s name = recognized r name := by
  unfold recognizedSeq at hs hr
  split at hs
  · next hname =>
    rw [if_pos hname] at hr
    obtain ⟨st, hst, hs⟩ := exists_of_bind_eq_ok hs
    obtain ⟨st', hst', hr⟩ := exists_of_bind_eq_ok hr
    have hmarker : name ≠ restoreMarkerTable := by rw [hname]; decide
    have hfind := tableStatement_eq_ok hmarker hst
    rw [h, tableStatement_eq_ok hmarker hst'] at hfind
    obtain rfl : st' = st := by simpa using hfind
    exact Except.ok.inj (hs.symm.trans hr)
  · next hname =>
    rw [if_neg hname] at hr
    exact Except.ok.inj (hs.symm.trans hr)

section Comparison

variable {sha256 : Bytes → Digest} {fts5Module : Bytes → Bool}

theorem selfDelimiting_digest : SelfDelimiting (Vector.toList : Digest → List UInt8) :=
  selfDelimiting_of_length (n := 32) (fun d => by simp) fun _ _ h => Vector.toList_inj.mp h

theorem rowDigests_eq_iff {rows rows' : List (List Scanned)}
    (hrows : ∀ row ∈ rows, ∃ vs : List Value, row = vs.map .value)
    (hrows' : ∀ row ∈ rows', ∃ vs : List Value, row = vs.map .value)
    (hsha : ∀ x ∈ rows, ∀ y ∈ rows', sha256 (rowCode x) = sha256 (rowCode y) →
      rowCode x = rowCode y) :
    rowDigests sha256 rows = rowDigests sha256 rows' ↔ List.Forall₂ SameRow rows rows' := by
  have hdigests : ∀ l : List (List Scanned), rowDigests sha256 l =
      (l.map fun row => sha256 (rowCode row)).flatMap Vector.toList := fun l =>
    (flatMap_map ..).symm
  rw [hdigests, hdigests]
  constructor
  · intro h
    have hmap := selfDelimiting_digest.flatMap_inj
      (fun d hnil => absurd (congrArg length hnil) (by simp)) h
    grind [forall₂_of_map_eq, rowCode_eq_iff]
  · intro h
    congr 1
    clear hsha hdigests
    induction h with
    | nil => rfl
    | cons hrow _ ih =>
      rw [forall_mem_cons] at hrows hrows'
      rw [map_cons, map_cons, (rowCode_eq_iff hrows.1 hrows'.1).mpr hrow,
        ih hrows.2 hrows'.2]

variable (sha256 fts5Module)

def hashed (db : Database) : List Bytes :=
  schemaPreimage db :: (tableNames db).flatMap fun name =>
    if recognized db name then []
    else
      rowDigests sha256 (rowsOf fts5Module db name) :: (rowsOf fts5Module db name).map rowCode

/-- **Equal content.** The pragmas, the objects without those of the marker table in order, and for
each table that is not recognised as bookkeeping its rows in order, every visible column with its
type and the rowid where it can be read. -/
structure SameContent (source restored : Database) : Prop where
  userVersion : source.userVersion = restored.userVersion
  applicationID : source.applicationID = restored.applicationID
  objects : (keptObjects source).map SchemaObject.columns =
    (keptObjects restored).map SchemaObject.columns
  rows : ∀ name ∈ tableNames source, recognized source name = false →
    List.Forall₂ SameRow (source.contents name).inOrder (restored.contents name).inOrder

variable {sha256 fts5Module}

theorem mem_hashed {db : Database} {name : Bytes} (hname : name ∈ tableNames db)
    (hseq : recognized db name = false) {x : Bytes}
    (hx : x = rowDigests sha256 (rowsOf fts5Module db name) ∨
      ∃ row ∈ rowsOf fts5Module db name, rowCode row = x) :
    x ∈ hashed sha256 fts5Module db := by
  grind [hashed]

theorem contentTable_eq_iff {source restored : Database} {name : Bytes}
    (hs : Readable fts5Module source name) (hr : Readable fts5Module restored name)
    (hseq : recognized source name = recognized restored name)
    (hname : name ∈ tableNames source) (hname' : name ∈ tableNames restored)
    (hsha : Set.InjOn sha256
      {x | x ∈ hashed sha256 fts5Module source ∨ x ∈ hashed sha256 fts5Module restored}) :
    contentTable sha256 fts5Module source name = contentTable sha256 fts5Module restored name ↔
      (recognized source name = false →
        List.Forall₂ SameRow (rowsOf fts5Module source name)
          (rowsOf fts5Module restored name)) := by
  unfold contentTable
  cases hb : recognized source name with
  | true =>
    rw [← hseq, hb]
    exact iff_of_true rfl nofun
  | false =>
    have hb' : recognized restored name = false := by rw [← hseq, hb]
    have hcodes : ∀ x ∈ rowsOf fts5Module source name, ∀ y ∈ rowsOf fts5Module restored name,
        sha256 (rowCode x) = sha256 (rowCode y) → rowCode x = rowCode y := fun x hx y hy =>
      hsha (.inl (mem_hashed hname hb (.inr ⟨x, hx, rfl⟩)))
        (.inr (mem_hashed hname' hb' (.inr ⟨y, hy, rfl⟩)))
    have hrows := rowDigests_eq_iff (hs.rows hb) (hr.rows hb') hcodes
    rw [hb', if_neg (by decide), if_neg (by decide), ← hrows]
    constructor
    · intro h _
      exact hsha (.inl (mem_hashed hname hb (.inl rfl))) (.inr (mem_hashed hname' hb' (.inl rfl)))
        (congrArg LogicalTable.digest h)
    · intro h
      rw [h rfl, (hrows.mp (h rfl)).length_eq]

theorem compareTables_eq_ok {source restored : List LogicalTable} :
    compareTables source restored = .ok () ↔ source <+: restored := by
  induction source generalizing restored with
  | nil => exact iff_of_true rfl nil_prefix
  | cons expected source ih =>
    cases restored with
    | nil => exact iff_of_false nofun (by simp)
    | cons actual restored => grind [compareTables]

theorem compareLogicalSnapshots_eq_ok {source restored : LogicalSnapshot} :
    compareLogicalSnapshots source restored = .ok () ↔
      source.schema = restored.schema ∧ source.tables <+: restored.tables := by
  grind [compareLogicalSnapshots, compareTables_eq_ok]

/-- **The comparison is exact.** Two databases are read; among the byte strings the two reads hash
no two have one digest, and SQLite answers the queries of the read as documented. Then the snapshots
are accepted exactly when the databases have the same content: the row encoding and the schema
preimage give back what they encode. -/
theorem logical_comparison_exact (sha256 : Bytes → Digest) (fts5Module : Bytes → Bool)
    (source restored : Database) (hdoc : Documented source) (hdoc' : Documented restored)
    (limits limits' : LogicalLimits) (sourceSnapshot restoredSnapshot : LogicalSnapshot)
    (hsource : readLogicalSnapshot sha256 fts5Module source limits = .ok sourceSnapshot)
    (hrestored : readLogicalSnapshot sha256 fts5Module restored limits' = .ok restoredSnapshot)
    (hsha : Set.InjOn sha256
      {x | x ∈ hashed sha256 fts5Module source ∨ x ∈ hashed sha256 fts5Module restored}) :
    (compareLogicalSnapshots sourceSnapshot restoredSnapshot = .ok () ↔
      SameContent source restored) ∧
    (∀ (x y : List Scanned) (e e' : Bytes), encodeLogicalRow x = .ok e →
      encodeLogicalRow y = .ok e' → (e = e' ↔ SameRow x y)) ∧
    ∀ s r : Database, schemaPreimage s = schemaPreimage r ↔
      s.userVersion = r.userVersion ∧ s.applicationID = r.applicationID ∧
        (keptObjects s).map SchemaObject.columns = (keptObjects r).map SchemaObject.columns := by
  refine ⟨?_, fun x y e e' hx hy => encodeLogicalRow_inj hx hy, schemaPreimage_inj⟩
  obtain ⟨rfl, hs⟩ := readLogicalSnapshot_eq_ok hsource
  obtain ⟨rfl, hr⟩ := readLogicalSnapshot_eq_ok hrestored
  have hschema : sha256 (schemaPreimage source) = sha256 (schemaPreimage restored) ↔
      schemaPreimage source = schemaPreimage restored :=
    ⟨fun h => hsha (.inl mem_cons_self) (.inr mem_cons_self) h, fun h => by rw [h]⟩
  -- with one schema the two table lists have the same names, so nothing is left out
  have htables : ∀ hobjects : (keptObjects source).map SchemaObject.columns =
      (keptObjects restored).map SchemaObject.columns,
      ((tableNames source).map (contentTable sha256 fts5Module source) <+:
        (tableNames restored).map (contentTable sha256 fts5Module restored)) ↔
      ∀ name ∈ tableNames source, recognized source name = false →
        List.Forall₂ SameRow (source.contents name).inOrder (restored.contents name).inOrder := by
    intro hobjects
    have hnames := tableNames_congr hobjects
    have hbegins : (tableNames source).map (contentTable sha256 fts5Module source) <+:
        (tableNames restored).map (contentTable sha256 fts5Module restored) ↔
        ∀ name ∈ tableNames source, contentTable sha256 fts5Module source name =
          contentTable sha256 fts5Module restored name := by
      rw [← hnames, ← map_inj_left]
      exact ⟨fun h => h.eq_of_length (by simp), fun h => h ▸ prefix_rfl⟩
    rw [hbegins]
    refine forall₂_congr fun name hname => ?_
    have hname' : name ∈ tableNames restored := hnames ▸ hname
    have hs := hs name hname
    have hr := hr name hname'
    have hseq := recognized_congr hobjects hs.statement hr.statement
    rw [contentTable_eq_iff hs hr hseq hname hname' hsha]
    refine imp_congr_right fun hb => ?_
    rw [sameRows_iff, sameRows_iff, sameRows_iff.mp (hs.rowsOf_same hdoc hb),
      sameRows_iff.mp (hr.rowsOf_same hdoc' (hseq ▸ hb))]
  rw [compareLogicalSnapshots_eq_ok, hschema, schemaPreimage_inj]
  constructor
  · rintro ⟨⟨huser, happ, hobjects⟩, hbegins⟩
    exact ⟨huser, happ, hobjects, (htables hobjects).mp hbegins⟩
  · intro h
    exact ⟨⟨h.userVersion, h.applicationID, h.objects⟩, (htables h.objects).mpr h.rows⟩

end Comparison

/-- A table of two rows, the later one stored first. -/
def twoRows (bits : UInt64) : Contents where
  columns := [⟨lit "x", 0⟩]
  key := []
  withoutRowID := false
  collate _ v := v.binaryKey
  rows := [⟨2, [.real bits]⟩, ⟨1, [.null]⟩]
  names_unique := by decide
  place := by simp; omega
  key_columns := nil_subset _
  width := by simp
  rowIDs_unique := by simp
  keys_unique := nofun

def twoRowsDatabase (bits : UInt64) : Database where
  userVersion := 0
  applicationID := 0
  schema := { rows := [⟨lit "table", lit "t", lit "t", some (lit "CREATE TABLE t (x)")⟩] }
  table_name := by decide
  tableXInfo _ := { rows := [⟨lit "x", 0⟩] }
  tableList _ := some (lit "table", false)
  contents _ := twoRows bits
  invalidSeq := .ok 0
  select statement :=
    if statement = lit "SELECT +\"x\",rowid FROM \"t\" ORDER BY rowid" then
      { rows := [[.value .null, .value (.integer 1)], [.value (.real bits), .value (.integer 2)]] }
    else { rows := [], err := some noRows }
  checkFTSSearch := .ok ()

theorem documented_twoRows (bits : UInt64) : Documented (twoRowsDatabase bits) where
  xinfo _ _ := rfl
  list _ _ _ h := by cases h; rfl
  select name herr := by
    unfold twoRowsDatabase at herr ⊢
    dsimp only at herr ⊢
    split at herr
    · next h =>
      rw [if_pos h]
      refine ⟨[⟨1, [.null]⟩, ⟨2, [.real bits]⟩], .swap .., pairwise_pair.mpr ?_, rfl⟩
      show ([[1]] : List (List Int)) ≤ [[2]]
      decide
    · cases herr

def smallHash (b : Bytes) : Digest := Vector.replicate 32 (b.foldl (fun h x => 31 * h + x) 7)

/-- The two zeros are one value: both databases are read and accepted as equal. -/
theorem logical_comparison_exact_zeros :
    ∃ a b, readLogicalSnapshot smallHash (fun _ => false) (twoRowsDatabase 0) ⟨10, 1000, 10⟩ =
      .ok a ∧
      readLogicalSnapshot smallHash (fun _ => false) (twoRowsDatabase 0x8000000000000000)
        ⟨10, 1000, 10⟩ = .ok b ∧
      compareLogicalSnapshots a b = .ok () := by
  have hsha : ∀ x ∈ hashed smallHash (fun _ => false) (twoRowsDatabase 0) ++
      hashed smallHash (fun _ => false) (twoRowsDatabase 0x8000000000000000),
      ∀ y ∈ hashed smallHash (fun _ => false) (twoRowsDatabase 0) ++
        hashed smallHash (fun _ => false) (twoRowsDatabase 0x8000000000000000),
      smallHash x = smallHash y → x = y := by decide +kernel
  refine ⟨_, _, rfl, rfl, (logical_comparison_exact smallHash (fun _ => false) (twoRowsDatabase 0)
    (twoRowsDatabase 0x8000000000000000) (documented_twoRows _) (documented_twoRows _)
    ⟨10, 1000, 10⟩ ⟨10, 1000, 10⟩ _ _ rfl rfl ?_).1.mpr ⟨rfl, rfl, rfl, fun name _ _ => ?_⟩⟩
  · intro x hx y hy h
    exact hsha x (mem_append.mpr hx) y (mem_append.mpr hy) h
  · exact .cons (.cons rfl (.cons rfl .nil)) (.cons (.cons (.inr ⟨rfl, rfl⟩) (.cons rfl .nil)) .nil)

end LitestreamSoak.Worker.Logical
