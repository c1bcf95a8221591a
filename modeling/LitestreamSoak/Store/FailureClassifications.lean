import LitestreamSoak.Reporting.Classification
import LitestreamSoak.Lib.Json

/-!
# Store — the classification column of a verification

`encodeFailureClassification` and `decodeFailureClassification` of
`internal/model/verifications.go`. The column holds the JSON of the classification, or nothing; a
reader drops a classification that is not valid.

`readBack` is the two in a row, what any reader gets of a classification that was stored.
-/

namespace LitestreamSoak.Store.FailureClassifications

open Lib Lib.Utf8 Lib.Json Reporting

/-! ## §1 — the column -/

def ObjectStoreFailure.members (failure : ObjectStoreFailure) : Members :=
  record
    [("operation", ofText failure.operation), ("http_status", ofNumber failure.httpStatus),
      ("api_code", ofText failure.apiCode), ("request_id", ofText failure.requestID),
      ("bucket", ofText failure.bucket), ("prefix", ofText failure.objectPrefix),
      ("redacted_prefix", ofText failure.redactedPrefix), ("phase", ofText failure.phase)]

def RestoreFailure.members (failure : RestoreFailure) : Members :=
  record [("phase", ofText failure.phase)]

def FailureClassification.members (c : FailureClassification) : Members :=
  record
    [("stage", ofText c.stage), ("signature", ofBytes c.signature),
      ("object_store",
        c.objectStore.map fun failure => .object (ObjectStoreFailure.members failure)),
      ("restore", c.restore.map fun failure => .object (RestoreFailure.members failure)),
      ("restore_mode", ofText c.restoreMode)]

def encodeFailureClassification (c : Option FailureClassification) : Option Value :=
  c.map fun c => .object (FailureClassification.members c)

def readObjectStoreFailure (m : Members) : Option ObjectStoreFailure := do
  let operation ← toText (m.get "operation")
  let httpStatus ← toNumber (m.get "http_status")
  let apiCode ← toText (m.get "api_code")
  let requestID ← toText (m.get "request_id")
  let bucket ← toText (m.get "bucket")
  let objectPrefix ← toText (m.get "prefix")
  let redactedPrefix ← toText (m.get "redacted_prefix")
  let phase ← toText (m.get "phase")
  return { operation, httpStatus, apiCode, requestID, bucket, objectPrefix, redactedPrefix, phase }

def readRestoreFailure (m : Members) : Option RestoreFailure := do
  let phase ← toText (m.get "phase")
  return { phase }

def readFailureClassification (m : Members) : Option FailureClassification := do
  let stage ← toText (m.get "stage")
  let signature ← toBytes (m.get "signature")
  let objectStore ← toRecord readObjectStoreFailure (m.get "object_store")
  let restore ← toRecord readRestoreFailure (m.get "restore")
  let restoreMode ← toText (m.get "restore_mode")
  return { stage, signature, objectStore, restore, restoreMode }

/-- `decodeFailureClassification`; the outer `none` is a document that is no classification. -/
def decodeFailureClassification (column : Option Value) : Option (Option FailureClassification) :=
  (toRecord readFailureClassification column).map fun c =>
    c.filter FailureClassification.valid

def readBack (c : FailureClassification) : Option FailureClassification :=
  (decodeFailureClassification (encodeFailureClassification (some c))).join

/-! ## §2 — the round trip -/

theorem readObjectStoreFailure_members (failure : ObjectStoreFailure) :
    readObjectStoreFailure (ObjectStoreFailure.members failure) = some failure := by
  simp [readObjectStoreFailure, ObjectStoreFailure.members]

theorem readRestoreFailure_members (failure : RestoreFailure) :
    readRestoreFailure (RestoreFailure.members failure) = some failure := by
  simp [readRestoreFailure, RestoreFailure.members]

theorem toRecord_map_object {α : Type} {read : Members → Option α} {write : α → Members}
    (hread : ∀ a, read (write a) = some a) (value : Option α) :
    toRecord read (value.map fun a => .object (write a)) = some value := by
  cases value with
  | none => rfl
  | some a =>
    show (read (write a)).map some = _
    rw [hread]
    rfl

def asText (c : FailureClassification) : FailureClassification :=
  { c with signature := encode (toValid c.signature) }

theorem readFailureClassification_members (c : FailureClassification) :
    readFailureClassification (FailureClassification.members c) = some (asText c) := by
  have hstore := toRecord_map_object readObjectStoreFailure_members c.objectStore
  have hrestore := toRecord_map_object readRestoreFailure_members c.restore
  simp [readFailureClassification, FailureClassification.members, hstore, hrestore, asText]

/-- **What is read back** is the classification with a signature that is a text, if that is
valid. -/
theorem readBack_eq (c : FailureClassification) :
    readBack c = if (asText c).valid then some (asText c) else none := by
  rw [readBack, encodeFailureClassification, decodeFailureClassification, Option.map_some,
    toRecord_object, readFailureClassification_members, Option.map_some, Option.map_some,
    Option.filter_some]
  exact Option.join_some

/-- **A classification survives the column** exactly when it is valid and its signature is a
text. -/
theorem readBack_eq_self_iff {c : FailureClassification} :
    readBack c = some c ↔ c.valid ∧ ∃ s, encode s = c.signature := by
  have hsame : asText c = c ↔ ∃ s, encode s = c.signature := by
    rw [← encode_toValid_iff]
    constructor
    · exact fun h => congrArg FailureClassification.signature h
    · intro h
      rw [asText, h]
  rw [readBack_eq, ← hsame]
  constructor
  · grind
  · rintro ⟨hvalid, heq⟩
    rw [heq, if_pos hvalid]

end LitestreamSoak.Store.FailureClassifications
