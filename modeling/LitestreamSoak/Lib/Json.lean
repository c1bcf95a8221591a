import LitestreamSoak.Lib.Utf8

/-!
# Lib — records as JSON objects

How a record with optional members is written to a JSON object and read back. A member that is
empty is not written, and a member that is not there is read as empty; a string is written as its
text, so the bytes in it that encode no character do not come back.

The document is the value itself, not its characters: printing a value and parsing it again is
taken to be exact. A reader is `none` when a member has the wrong type.
-/

namespace LitestreamSoak.Lib.Json

open Lib.Utf8

inductive Value where
  | text (s : Text)
  | number (n : Int)
  | object (members : List (Text × Value))

abbrev Members := List (Text × Value)

/-- The members of a record, with `omitempty`: an empty value is `none` and is not written. -/
def record (fields : List (String × Option Value)) : Members :=
  fields.filterMap fun (name, value) => value.map fun v => (text name, v)

def Members.get (members : Members) (name : String) : Option Value := members.lookup (text name)

/-! ## §1 — the members of a record -/

def ofText (s : Text) : Option Value := if s = [] then none else some (.text s)

def ofBytes (b : Bytes) : Option Value := if b = [] then none else some (.text (toValid b))

def ofNumber (n : Int) : Option Value := if n = 0 then none else some (.number n)

def toText : Option Value → Option Text
  | none => some []
  | some (.text s) => some s
  | some _ => none

def toBytes (value : Option Value) : Option Bytes := (toText value).map encode

def toNumber : Option Value → Option Int
  | none => some 0
  | some (.number n) => some n
  | some _ => none

def toRecord {α : Type} (read : Members → Option α) : Option Value → Option (Option α)
  | none => some none
  | some (.object members) => (read members).map some
  | some _ => none

/-! ## §2 — reading back -/

@[simp] theorem get_record_self (name : String) (value : Option Value)
    (rest : List (String × Option Value)) :
    (record ((name, value) :: rest)).get name = value.or ((record rest).get name) := by
  cases value with
  | none => rfl
  | some v => simp [Members.get, record]

@[simp] theorem get_record_of_ne {name other : String} (h : other ≠ name) (value : Option Value)
    (rest : List (String × Option Value)) :
    (record ((other, value) :: rest)).get name = (record rest).get name := by
  cases value with
  | none => rfl
  | some v =>
    have hne : (text name == text other) = false := by
      rw [beq_eq_false_iff_ne]
      exact fun heq => h (String.toList_injective heq).symm
    show List.lookup (text name) ((text other, v) :: record rest) = _
    rw [List.lookup_cons, hne]
    rfl

@[simp] theorem get_record_nil (name : String) : (record []).get name = none := rfl

@[simp] theorem toText_ofText (s : Text) : toText (ofText s) = some s := by
  unfold ofText
  split <;> simp_all [toText]

@[simp] theorem toNumber_ofNumber (n : Int) : toNumber (ofNumber n) = some n := by
  unfold ofNumber
  split <;> simp_all [toNumber]

/-- **A string comes back as the text it is read as**. -/
@[simp] theorem toBytes_ofBytes (b : Bytes) : toBytes (ofBytes b) = some (encode (toValid b)) := by
  unfold ofBytes
  split
  · next h =>
    rw [h]
    rfl
  · rfl

@[simp] theorem toRecord_object {α : Type} (read : Members → Option α) (members : Members) :
    toRecord read (some (.object members)) = (read members).map some := rfl

end LitestreamSoak.Lib.Json
