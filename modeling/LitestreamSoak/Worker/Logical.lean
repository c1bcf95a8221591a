import LitestreamSoak.Lib.SelfDelimiting
import LitestreamSoak.Lib.Text

/-!
# Worker.Logical — the logical snapshot of a database

`logical.go`: a database is read inside one transaction into a digest of its schema and, for each
table, a row count and a digest of its rows; a restored copy is judged by comparing the two
snapshots. The module has the whole read with its limits and error paths, the row encoding and the
comparison.

A `Database` is the contents of its tables and what SQLite answers to the queries of the read. The
limit on the size of one value is SQLite's (`SQLITE_LIMIT_LENGTH`), so a value over it is a query
that ends with an error. SHA-256 and the pattern for FTS5 declarations are parameters.
-/

namespace LitestreamSoak.Worker.Logical

open Lib

abbrev Bytes := List UInt8

def lit (s : String) : Bytes := ascii s.toList

abbrev Digest := Vector UInt8 32

/-! ## §1 — values -/

/-- A string or byte slice of a length that an `int` can hold. -/
abbrev Sized := { b : Bytes // b.length < 2 ^ 63 }

inductive Value where
  | null
  | integer (v : Int64)
  | real (bits : UInt64)
  | text (s : Sized)
  | blob (b : Sized)
deriving DecidableEq

/-- What `rows.Scan` leaves in an `any`: a value of one of the five storage classes, or something of
another Go type. -/
inductive Scanned where
  | value (v : Value)
  | other (goType : Text)
deriving DecidableEq

def isZero (bits : UInt64) : Bool := bits = 0 || bits = 0x8000000000000000

structure LogicalTable where
  name : Bytes
  rows : Int := 0
  digest : Digest := Vector.replicate 32 0
deriving DecidableEq

structure LogicalSnapshot where
  schema : Digest
  tables : List LogicalTable := []
deriving DecidableEq

structure LogicalLimits where
  rows : Int
  bytes : Int
  objects : Int
deriving DecidableEq

inductive LogicalError where
  | sqlite (message : Text)
  | objectNameLimit
  | schemaByteLimit
  | objectLimit (limit : Int)
  | table (name : Bytes) (err : LogicalError)
  | unsupportedBookkeeping
  | columnNameLimit
  | columnLimit
  | rowLimit
  | byteLimit
  | unsupportedValue (goType : Text)
  | unsupportedObject (kind name : Bytes)
  | schemaMismatch (source restored : Digest)
  | tableMissing (name : Bytes)
  | tableMismatch (expected actual : LogicalTable)

/-- The bytes `encodeLogicalRow` appends for a value. -/
def Value.code : Value → Bytes
  | .null => lit "n"
  | .integer v => lit "i" ++ bigEndian v.toUInt64
  | .real bits => lit "r" ++ bigEndian (if isZero bits then 0 else bits)
  | .text s => lit "t" ++ bigEndian (UInt64.ofNat s.1.length) ++ s.1
  | .blob b => lit "b" ++ bigEndian (UInt64.ofNat b.1.length) ++ b.1

def encodeLogicalRow : List Scanned → Except LogicalError Bytes
  | [] => .ok []
  | .value v :: rest => do
    let encoded ← encodeLogicalRow rest
    return v.code ++ encoded
  | .other goType :: _ => .error (.unsupportedValue goType)

/-! ## §2 — the database -/

structure SchemaObject where
  kind : Bytes
  name : Bytes
  table : Bytes
  sql : Option Bytes
deriving DecidableEq

structure Column where
  name : Bytes
  pk : Int
deriving DecidableEq

structure StoredRow where
  rowID : Int64 := 0
  /-- The values of the visible columns, in the order of their declaration. -/
  values : List Value
deriving DecidableEq

def columnValue (columns : List Column) (row : StoredRow) (name : Bytes) : Value :=
  ((columns.zip row.values).find? fun c => c.1.name = name).elim .null Prod.snd

/-- **A table as it is stored**: its visible columns, those of its primary key in the order of the
key, and its rows in no order. A collation is given by the keys it sorts values by. -/
structure Contents where
  columns : List Column
  key : List Column
  withoutRowID : Bool
  collate : Bytes → Value → List Int
  rows : List StoredRow
  names_unique : (columns.map Column.name).Nodup
  /-- `pk` is the place of a column in the primary key, from 1 on. -/
  place : ∀ c ∈ columns, ∀ i : Nat, c.pk = i + 1 ↔ key[i]? = some c
  key_columns : key ⊆ columns
  width : ∀ row ∈ rows, row.values.length = columns.length
  rowIDs_unique : withoutRowID = false → (rows.map StoredRow.rowID).Nodup
  keys_unique : withoutRowID = true →
    (rows.map fun row => key.map fun c => collate c.name (columnValue columns row c.name)).Nodup

structure Query (α : Type) where
  rows : List α
  err : Option LogicalError := none

structure Database where
  userVersion : Int
  applicationID : Int
  /-- `sqlite_schema` in the order of type and name. -/
  schema : Query SchemaObject
  /-- The `tbl_name` of a table is its name. -/
  table_name : ∀ o ∈ schema.rows, o.kind = lit "table" → o.table = o.name
  /-- The visible columns of a table (`hidden != 1`) in the order of their declaration. -/
  tableXInfo : Bytes → Query Column
  tableList : Bytes → Option (Bytes × Bool)
  contents : Bytes → Contents
  /-- How many rows of `_litestream_seq` are not the one row Litestream writes. -/
  invalidSeq : Except LogicalError Nat
  select : Bytes → Query (List Scanned)
  checkFTSSearch : Except LogicalError Unit

def noRows : LogicalError := .sqlite (text "sql: no rows in result set")

def scanNull : LogicalError := .sqlite (text "converting NULL to string is unsupported")

def Query.finish {α : Type} (q : Query α) : Except LogicalError Unit :=
  match q.err with
  | some e => .error e
  | none => .ok ()

/-- `SELECT sql FROM sqlite_schema WHERE type='table' AND name=?`. -/
def Database.tableStatement (db : Database) (name : Bytes) : Except LogicalError Bytes :=
  match db.schema.rows.find? fun o => o.kind = lit "table" ∧ o.name = name with
  | none => .error noRows
  | some o => o.sql.elim (.error scanNull) .ok

/-! ## §3 — one table -/

def restoreMarkerTable : Bytes := lit "_soak_restore_marker"

def litestreamSeq : Bytes := lit "_litestream_seq"

def logicalIdentifier (name : Bytes) : Bytes :=
  lit "\"" ++ name.flatMap (fun b => if b = 34 then [34, 34] else [b]) ++ lit "\""

/-- `strings.ToLower` on UTF-8. Of the characters beyond ASCII only the two whose lower case is an
ASCII letter are changed (U+0130 and U+212A): the result is compared with ASCII texts only. -/
def lower : Bytes → Bytes
  | 0xC4 :: 0xB0 :: rest => 105 :: lower rest
  | 0xE2 :: 0x84 :: 0xAA :: rest => 107 :: lower rest
  | b :: rest => (if 65 ≤ b ∧ b ≤ 90 then b + 32 else b) :: lower rest
  | [] => []

/-- Every white space character as a blank. -/
def plainSpaces : Bytes → Bytes
  | 0xC2 :: 0x85 :: rest => 32 :: plainSpaces rest
  | 0xC2 :: 0xA0 :: rest => 32 :: plainSpaces rest
  | 0xE1 :: 0x9A :: 0x80 :: rest => 32 :: plainSpaces rest
  | 0xE2 :: 0x81 :: 0x9F :: rest => 32 :: plainSpaces rest
  | 0xE3 :: 0x80 :: 0x80 :: rest => 32 :: plainSpaces rest
  | 0xE2 :: 0x80 :: b :: rest =>
    -- U+2000 to U+200A, U+2028, U+2029 and U+202F
    if 0x80 ≤ b ∧ b ≤ 0x8A ∨ b = 0xA8 ∨ b = 0xA9 ∨ b = 0xAF then 32 :: plainSpaces rest
    else 0xE2 :: 0x80 :: b :: plainSpaces rest
  | b :: rest => (if b ∈ [9, 10, 11, 12, 13] then 32 else b) :: plainSpaces rest
  | [] => []

/-- `strings.Fields` of a text with plain spaces, with the field read so far. -/
def fieldsFrom (current : Bytes) : Bytes → List Bytes
  | [] => if current = [] then [] else [current]
  | b :: rest =>
    if b = 32 then
      if current = [] then fieldsFrom [] rest else current :: fieldsFrom [] rest
    else fieldsFrom (current ++ [b]) rest

/-- `strings.ToLower(strings.Join(strings.Fields(statement), " "))`. -/
def normalizeStatement (statement : Bytes) : Bytes :=
  lower ((lit " ").intercalate (fieldsFrom [] (plainSpaces statement)))

def seqStatement : Bytes :=
  lit "create table _litestream_seq (id integer primary key, seq integer)"

/-- The table is Litestream's bookkeeping, whose contents are not compared. -/
def recognizedSeq (db : Database) (name : Bytes) : Except LogicalError Bool :=
  if name = litestreamSeq then do
    let statement ← db.tableStatement name
    return normalizeStatement statement = seqStatement
  else return false

structure ColumnScan where
  expressions : List Bytes := []
  ordering : List Bytes := []
  primaryKey : List (Int × Bytes) := []
  columnNames : List Bytes := []

def scanColumns : List Column → ColumnScan → Except LogicalError ColumnScan
  | [], s => .ok s
  | c :: rest, s =>
    if c.name.length > 1024 then .error .columnNameLimit
    else
      let expression := lit "+" ++ logicalIdentifier c.name
      let s : ColumnScan :=
        { expressions := s.expressions ++ [expression]
          ordering := s.ordering ++
            [lit "typeof(" ++ expression ++ lit ")", expression ++ lit " COLLATE BINARY"]
          primaryKey :=
            if c.pk > 0 then
              (c.pk, logicalIdentifier c.name) :: s.primaryKey.filter (fun e => e.1 ≠ c.pk)
            else s.primaryKey
          columnNames := lower c.name :: s.columnNames }
      if s.expressions.length > 256 then .error .columnLimit else scanColumns rest s

section Reads

variable (sha256 : Bytes → Digest) (fts5Module : Bytes → Bool)

def validateShadow (db : Database) (name : Bytes) : List Bytes → Except LogicalError Unit
  | [] => .error (.unsupportedObject (lit "shadow") name)
  | suffix :: rest =>
    if !suffix.isSuffixOf name then validateShadow db name rest
    else
      let parent := name.take (name.length - suffix.length)
      match db.tableList parent, db.schema.rows.find? fun o => o.name = parent with
      | some (kind, _), some o =>
        if kind = lit "virtual" then
          match o.sql with
          | none => .error scanNull
          | some statement =>
            if fts5Module statement then .ok () else validateShadow db name rest
        else validateShadow db name rest
      | _, _ => validateShadow db name rest

def validateLogicalObject (db : Database) (name kind : Bytes) : Except LogicalError Unit :=
  if kind = lit "table" then .ok ()
  else if kind = lit "virtual" then do
    let statement ← db.tableStatement name
    if fts5Module statement then .ok () else .error (.unsupportedObject kind name)
  else if kind = lit "shadow" then
    validateShadow fts5Module db name
      [lit "_data", lit "_idx", lit "_content", lit "_docsize", lit "_config"]
  else .error (.unsupportedObject kind name)

def selectStatement (db : Database) (name : Bytes) : Except LogicalError Bytes := do
  let s ← scanColumns (db.tableXInfo name).rows {}
  (db.tableXInfo name).finish
  let (kind, withoutRowID) ← (db.tableList name).elim (.error noRows) .ok
  validateLogicalObject fts5Module db name kind
  let (expressions, ordering) :=
    if withoutRowID then
      (s.expressions, (List.range s.primaryKey.length).map fun i : Nat =>
        ((s.primaryKey.find? fun e => e.1 = (i : Int) + 1).map Prod.snd).getD [])
    else
      match [lit "rowid", lit "_rowid_", lit "oid"].find? fun rowID => rowID ∉ s.columnNames with
      | some rowID => (s.expressions ++ [rowID], [rowID])
      | none => (s.expressions, s.ordering)
  return lit "SELECT " ++ (lit ",").intercalate expressions ++ lit " FROM " ++
    logicalIdentifier name ++ lit " ORDER BY " ++ (lit ",").intercalate ordering

def readRows : List (List Scanned) → LogicalLimits → Bytes → Int →
    Except LogicalError (LogicalLimits × Bytes × Int)
  | [], limits, written, count => .ok (limits, written, count)
  | values :: rest, limits, written, count =>
    if limits.rows ≤ 0 then .error .rowLimit
    else do
      let encoded ← encodeLogicalRow values
      let limits := { limits with rows := limits.rows - 1, bytes := limits.bytes - encoded.length }
      if limits.bytes < 0 then .error .byteLimit
      else readRows rest limits (written ++ (sha256 encoded).toList) (count + 1)

def readLogicalTable (db : Database) (name : Bytes) (limits : LogicalLimits) :
    Except LogicalError (LogicalTable × LogicalLimits) := do
  if ← recognizedSeq db name then
    let invalid ← db.invalidSeq
    if invalid ≠ 0 then .error .unsupportedBookkeeping else return ({ name }, limits)
  else
    let statement ← selectStatement fts5Module db name
    let (limits, written, rows) ← readRows sha256 (db.select statement).rows limits [] 0
    (db.select statement).finish
    return ({ name, rows, digest := sha256 written }, limits)

/-! ## §4 — the snapshot and its comparison -/

structure SchemaScan where
  limits : LogicalLimits
  objects : Int := 0
  written : Bytes
  tables : List Bytes := []

def sizedString (value : Bytes) : Bytes := decimalBytes value.length ++ lit ":" ++ value

def SchemaObject.statement (o : SchemaObject) : Bytes := o.sql.getD []

def SchemaObject.code (o : SchemaObject) : Bytes :=
  sizedString o.kind ++ sizedString o.name ++ sizedString o.table ++ sizedString o.statement

def scanSchema : List SchemaObject → SchemaScan → Except LogicalError SchemaScan
  | [], s => .ok s
  | o :: rest, s =>
    if o.table = restoreMarkerTable then scanSchema rest s
    else
      let objects := s.objects + 1
      if o.name.length > 1024 then .error .objectNameLimit
      else
        let bytes := s.limits.bytes -
          (o.kind.length + o.name.length + o.table.length + o.statement.length)
        if bytes < 0 then .error .schemaByteLimit
        else if objects > s.limits.objects then .error (.objectLimit s.limits.objects)
        else
          scanSchema rest
            { limits := { s.limits with bytes := bytes }
              objects := objects
              written := s.written ++ o.code
              tables := if o.kind = lit "table" then s.tables ++ [o.name] else s.tables }

def pragmaBytes (db : Database) : Bytes :=
  lit "user_version:" ++ decimalIntBytes db.userVersion ++ lit ";" ++
    lit "application_id:" ++ decimalIntBytes db.applicationID ++ lit ";"

/-- The tables one after the other, with the limits left by the earlier ones. -/
def readTables (db : Database) : List Bytes → LogicalLimits →
    Except LogicalError (List LogicalTable)
  | [], _ => .ok []
  | name :: rest, limits =>
    match readLogicalTable sha256 fts5Module db name limits with
    | .error e => .error (.table name e)
    | .ok (table, limits) => do
      let tables ← readTables db rest limits
      return table :: tables

def readLogicalSnapshotMode (db : Database) (limits : LogicalLimits) (schemaOnly : Bool) :
    Except LogicalError LogicalSnapshot := do
  let scan ← scanSchema db.schema.rows { limits := limits, written := pragmaBytes db }
  db.schema.finish
  if schemaOnly then return { schema := sha256 scan.written }
  else
    let tables ← readTables sha256 fts5Module db scan.tables scan.limits
    let ftsObjects := tables.countP fun t =>
      t.name ∈ [lit "fts_search", lit "fts_documents", lit "fts_progress"]
    (if ftsObjects = 3 then db.checkFTSSearch else .ok ())
    return { schema := sha256 scan.written, tables := tables }

def readLogicalSnapshot (db : Database) (limits : LogicalLimits) :
    Except LogicalError LogicalSnapshot :=
  readLogicalSnapshotMode sha256 fts5Module db limits false

end Reads

/-- The loop of `compareLogicalSnapshots` over the tables of the source. -/
def compareTables : List LogicalTable → List LogicalTable → Except LogicalError Unit
  | [], _ => .ok ()
  | expected :: _, [] => .error (.tableMissing expected.name)
  | expected :: source, actual :: restored =>
    if expected ≠ actual then .error (.tableMismatch expected actual)
    else compareTables source restored

def compareLogicalSnapshots (source restored : LogicalSnapshot) : Except LogicalError Unit :=
  if source.schema ≠ restored.schema then
    .error (.schemaMismatch source.schema restored.schema)
  else compareTables source.tables restored.tables

end LitestreamSoak.Worker.Logical
