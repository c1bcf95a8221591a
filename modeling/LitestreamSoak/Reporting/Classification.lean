import LitestreamSoak.Reporting.Messages

/-!
# Reporting — failure classifications

`internal/reporting/classification.go`: what a failed verification's message is taken for. A
classification has a stage and a signature and, for failures of the object store and of a restore,
a part with the details; `FailureClassification.valid` says which of these go together.

Every function that ends in `RestoredComparisonLocked` can panic, which is `none` here.
-/

namespace LitestreamSoak.Reporting

open Lib Lib.Utf8

/-! ## §1 — classifications -/

structure ObjectStoreFailure where
  operation : Text := []
  httpStatus : Int := 0
  apiCode : Text := []
  requestID : Text := []
  bucket : Text := []
  objectPrefix : Text := []
  redactedPrefix : Text := []
  phase : Text := []
deriving DecidableEq

structure RestoreFailure where
  phase : Text := []
deriving DecidableEq

/-- `FailureClassification`. The signature can be a piece of a message that was cut inside a
character; everything else is a text. -/
structure FailureClassification where
  stage : Text
  signature : Bytes
  objectStore : Option ObjectStoreFailure := none
  restore : Option RestoreFailure := none
  restoreMode : Text := []
deriving DecidableEq

def stageSync : Text := text "sync"
def stageRestore : Text := text "restore"
def stageDiskCapacity : Text := text "disk_capacity"
def stageHarnessCapacity : Text := text "harness_capacity"
def stageHarnessLock : Text := text "harness_lock"

def diskCapacityFull : Text := text "disk_capacity_full"
def soakFixtureDiskExhausted : Text := text "soak_fixture_disk_exhausted"

/-- `FailureClassification.Valid` of a classification that is there. -/
def FailureClassification.valid (c : FailureClassification) : Bool :=
  let stage := trimSpace c.stage
  let signature := trimBytes c.signature
  if stage = [] || signature = [] || stage ≠ c.stage || signature ≠ c.signature then false
  else if c.objectStore.isSome && stage ≠ stageSync && stage ≠ stageRestore then false
  else if c.restore.isSome && stage ≠ stageRestore then false
  else if signature = encode diskCapacityFull || signature = encode soakFixtureDiskExhausted then
    stage = stageDiskCapacity && c.objectStore.isNone && c.restore.isNone
  else stage ≠ stageDiskCapacity

/-! ## §2 — the stage of a failure -/

def walResetFailurePrefix : Text := text "wal reset "

def isDiskCapacityFailure (lower : Text) : Bool :=
  containsAny lower ["no space left on device", "database or disk is full", "disk is full",
    "enospc", "sqlite_full"]

/-- `InferFailureStage`. Its last two cases are one: an empty check type gives an empty stage. -/
def inferFailureStage (checkType errorMessage : Text) : Text :=
  let lower := toLower errorMessage
  if isDiskCapacityFailure lower then stageDiskCapacity
  else if hasPrefix lower walResetFailurePrefix && trimSpace checkType ≠ [] then
    trimSpace checkType
  else if containsAny lower
      ["wait for sync", "sync request", "decode sync response", "litestream.sock"] then stageSync
  else if containsAny lower
      ["no matching backup files available", "transaction not available", "restore failed",
        "check_type=restore", "get ltx time bounds", "restore plan", "calc restore",
        "read page header", "open ltx file", "no such key", "missing ltx"] then stageRestore
  else if containsAny lower
      ["integrity check", "check_type=integrity_check", "wrong # of entries in index"] then
    text "integrity_check"
  else if containsAny lower ["validation failed"] then text "validation"
  else if containsAny lower ["decode", "unexpected eof", "checksum mismatch"] then stageRestore
  else trimSpace checkType

def inferRestorePhase (lower : Text) : Text :=
  if containsAny lower ["get ltx time bounds", "time bounds"] then text "TimeBounds"
  else if containsAny lower ["calc restore plan", "restore plan"] then text "CalcRestorePlan"
  else if containsAny lower ["getobject", "object fetch", "download"] then text "ObjectFetch"
  else if containsAny lower ["read page header", "decode", "unexpected eof"] then text "Decode"
  else if containsAny lower ["integrity", "wrong # of entries in index"] then text "IntegrityCheck"
  else if containsAny lower ["restore"] then text "Restore"
  else []

/-! ## §3 — failures of the object store -/

def redactObjectPrefix (path : Text) : Text :=
  let path := trim ['/'] (trimSpace path)
  if path = [] then []
  else
    let parts := path.splitOn '/'
    if parts.length ≤ 2 then path
    else parts.headD [] ++ text "/.../" ++ parts.getLastD []

def ObjectStoreFailure.applyKeyValue (failure : ObjectStoreFailure) (key raw : Text) :
    ObjectStoreFailure :=
  let value := trim ['"', '\''] (trimSpace raw)
  if key = text "operation" then
    { failure with operation := firstNonEmpty [value, failure.operation] }
  else if key = text "http_status" then
    if (atoi value).2 && failure.httpStatus = 0 then { failure with httpStatus := (atoi value).1 }
    else failure
  else if key = text "api_code" then
    { failure with apiCode := firstNonEmpty [value, failure.apiCode] }
  else if key = text "request_id" then
    { failure with requestID := firstNonEmpty [value, failure.requestID] }
  else if key = text "bucket" then
    { failure with bucket := firstNonEmpty [value, failure.bucket] }
  else if key = text "prefix" then
    let path := firstNonEmpty [trim ['/'] value, failure.objectPrefix]
    { failure with objectPrefix := path, redactedPrefix := redactObjectPrefix path }
  else if key = text "phase" then
    { failure with phase := firstNonEmpty [value, failure.phase] }
  else failure

def applyObjectStoreKeyValues (failure : ObjectStoreFailure) (errorMessage : Text) :
    ObjectStoreFailure :=
  (keyValues none 0 errorMessage).foldl
    (fun failure (key, value) => failure.applyKeyValue key value)
    failure

def ObjectStoreFailure.nameOperation (failure : ObjectStoreFailure) (lower : Text) :
    ObjectStoreFailure :=
  if failure.operation ≠ [] then failure
  else if containsAny lower ["listobjectsv2"] then
    { failure with operation := text "ListObjectsV2" }
  else if containsAny lower ["getobject"] then { failure with operation := text "GetObject" }
  else failure

/-- The status of a response; its number is not checked to fit. -/
def ObjectStoreFailure.readStatus (failure : ObjectStoreFailure) (errorMessage : Text) :
    ObjectStoreFailure :=
  let found := httpStatusPattern errorMessage
  if found = [] then failure else { failure with httpStatus := (atoi found).1 }

def ObjectStoreFailure.readURL (failure : ObjectStoreFailure) (errorMessage : Text) :
    ObjectStoreFailure :=
  match s3URLPattern errorMessage with
  | none => failure
  | some (bucket, path) =>
    { failure with
      bucket := bucket, objectPrefix := trim ['/'] path
      redactedPrefix := redactObjectPrefix (trim ['/'] path) }

def parseObjectStoreFailure (errorMessage : Text) : Option ObjectStoreFailure :=
  let lower := toLower errorMessage
  if !containsAny lower ["operation error s3", "listobjectsv2", "getobject", "requestcanceled",
      "accessdenied", "nosuchbucket", "slowdown"] then none
  else
    let failure : ObjectStoreFailure :=
      { operation := s3OperationPattern errorMessage, apiCode := apiCodePattern errorMessage
        requestID := requestIDPattern errorMessage, phase := inferRestorePhase lower }
    let failure := applyObjectStoreKeyValues failure errorMessage
    let failure := failure.nameOperation lower
    let failure := failure.readStatus errorMessage
    let failure := failure.readURL errorMessage
    if failure.operation = [] && failure.httpStatus = 0 && failure.apiCode = [] &&
        failure.requestID = [] then none
    else some failure

/-! ## §4 — the signature of a failure -/

def signatureStagePrefix (stage : Text) : Text :=
  if stage = stageSync then stageSync else stageRestore

def isS3TransportFailure (lower : Text) : Bool :=
  containsAny lower ["replica sync", "replica_sync"] &&
    containsAny lower ["unexpected eof", "statuscode: 0", "retry quota exceeded",
      "context deadline exceeded"]

def restoreTargetUnavailable : Text := text "restore_target_unavailable"

def restoreReplanFailureSignature (lower : Text) : Text :=
  if containsAny lower ["restore plan retries exhausted"] then
    text "restore_plan_retries_exhausted"
  else if containsAny lower ["no matching backup files available", "transaction not available"] ||
      hasSuffix (trim (text " .\"'") lower) (text "cannot recalculate restore plan") then
    restoreTargetUnavailable
  else if containsAny lower ["cannot recalculate restore plan"] then
    text "restore_plan_recalculation_failed"
  else []

/-- The cases of `inferFailureSignature` that give a signature a name. -/
def namedSignature (stage lower : Text) : Option Text :=
  if isDiskCapacityFailure lower then some diskCapacityFull
  else if hasPrefix lower (walResetFailurePrefix ++ text "restore failed") then
    some (text "walreset_restore_failed")
  else if hasPrefix lower (walResetFailurePrefix ++ text "integrity failed") then
    some (text "walreset_integrity_failed")
  else if hasPrefix lower (walResetFailurePrefix ++ text "logical mismatch") then
    some (text "walreset_logical_mismatch")
  else if stage = stageSync && isS3TransportFailure lower then some (text "s3_transport")
  else if containsAny lower ["latest restore behind boundary"] then
    some (text "latest_restore_behind_boundary")
  else if containsAny lower ["wait for db sync executor"] then
    some (text "litestream_db_sync_executor_timeout")
  else if containsAny lower ["litestream.sock"] && containsAny lower ["too many open files"] then
    some (text "litestream_sync_fd_exhausted")
  else if containsAny lower ["litestream.sock"] &&
      containsAny lower ["connect: connection refused"] then
    some (text "litestream_sync_socket_refused")
  else if containsAny lower ["wait for sync"] &&
      containsAny lower ["context deadline exceeded", "client.timeout exceeded"] then
    some (text "litestream_sync_timeout")
  else if restoreReplanFailureSignature lower ≠ [] then some (restoreReplanFailureSignature lower)
  else if containsAny lower ["wrong # of entries in index"] then some (text "sqlite_index_mismatch")
  else if containsAny lower
      ["open ltx file: file does not exist", "no such key", "missing ltx"] then
    some (signatureStagePrefix stage ++ text "_missing_ltx")
  else if containsAny lower
      ["read page header", "decode", "unexpected eof", "checksum mismatch"] then
    some (signatureStagePrefix stage ++ text "_decode_error")
  else if containsAny lower ["restore plan", "calc restore"] then
    some (signatureStagePrefix stage ++ text "_plan_failed")
  else if containsAny lower ["ltx coverage hole"] then some (text "ltx_coverage_hole")
  else if containsAny lower ["vfs snapshot drift"] then some (text "vfs_snapshot_drift")
  else if containsAny lower ["vfs read mismatch"] then some (text "vfs_read_mismatch")
  else if containsAny lower ["ltx continuity"] then some (text "ltx_continuity")
  else if containsAny lower ["validation failed"] then some (text "validation_failed")
  else none

/-- `inferFailureSignature`: a failure without a name is known by its message. -/
def inferFailureSignature (stage lower original : Text) : Bytes :=
  ((namedSignature stage lower).map encode).getD (firstMeaningfulLine original)

def objectStoreSignature (stage : Text) (failure : ObjectStoreFailure) : Text :=
  let start := signatureStagePrefix stage
  let operation := toLower failure.operation
  let apiCode := toLower failure.apiCode
  if apiCode = text "nosuchbucket" ||
      (operation = text "listobjectsv2" && failure.httpStatus = 404) then
    start ++ text "_s3_bucket_missing"
  else if apiCode = text "slowdown" || failure.httpStatus = 503 then start ++ text "_s3_slowdown"
  else if operation = text "listobjectsv2" &&
      (failure.httpStatus = 408 || apiCode = text "requestcanceled") then
    start ++ text "_s3_list_request_canceled"
  else if operation = text "getobject" &&
      (failure.httpStatus = 408 || apiCode = text "requestcanceled") then
    start ++ text "_s3_get_request_canceled"
  else if failure.httpStatus = 403 || apiCode = text "accessdenied" then
    start ++ text "_s3_access_denied"
  else if operation = text "listobjectsv2" then start ++ text "_s3_list_failed"
  else if operation = text "getobject" then start ++ text "_s3_get_failed"
  else start ++ text "_s3_failed"

/-! ## §5 — classifying -/

def failureStage (checkType message : Text) : Text :=
  let stage := inferFailureStage checkType message
  if (parseObjectStoreFailure message).isSome && stage ≠ stageSync && stage ≠ stageRestore then
    stageRestore
  else stage

def storeFailureSignature (stage message : Text) (failure : ObjectStoreFailure) : Bytes :=
  let lower := toLower message
  if stage = stageSync && isS3TransportFailure lower then encode (text "s3_transport")
  else if objectStoreSignature stage failure ≠ [] then encode (objectStoreSignature stage failure)
  else inferFailureSignature stage lower message

/-- `ClassifyVerificationFailure` from `ParseObjectStoreFailure` on. -/
def classifyMessage (checkType message : Text) : FailureClassification :=
  let lower := toLower message
  let stage := failureStage checkType message
  let objectStore := (parseObjectStoreFailure message).map fun failure =>
    { failure with phase := firstNonEmpty [failure.phase, inferRestorePhase lower] }
  { stage := stage
    signature :=
      match objectStore with
      | some failure => storeFailureSignature stage message failure
      | none => inferFailureSignature stage lower message
    objectStore := objectStore
    restore := if stage = stageRestore then some { phase := inferRestorePhase lower } else none }

def restoredComparisonLockedSignature : Text := text "restored_comparison_locked"

def classifyVerificationFailure (checkType errorMessage : Text) : Option FailureClassification :=
  let message := classifiedMessage errorMessage
  if isDiskCapacityFailure (toLower message) then
    some { stage := stageDiskCapacity, signature := encode diskCapacityFull }
  else (restoredComparisonLocked message).map fun locked =>
    if locked then
      { stage := stageHarnessLock, signature := encode restoredComparisonLockedSignature }
    else classifyMessage checkType message

/-! ## §6 — many-database profiles -/

/-- The fields of `RuntimePayload` the classifier reads; times in nanoseconds, none for zero. -/
structure DiskTelemetry where
  snapshotCollectedAt : Option Int := none
  dataDiskUsedBytes : Nat := 0
  dbSizeBytes : Int := 0
  walSizeBytes : Int := 0
  dbTotalSizeBytes : Int := 0
  walTotalSizeBytes : Int := 0
deriving DecidableEq

def isManyDBProfile (profileName : Text) : Bool :=
  let profileName := trimSpace profileName
  profileName = text "sentinel-manydb" || hasPrefix profileName (text "many-dbs-")

def sumSourceDataBytes (dbBytes walBytes : Int) : Option Int :=
  if dbBytes < 0 || walBytes < 0 || dbBytes > 2 ^ 63 - 1 - walBytes then none
  else some (dbBytes + walBytes)

def soakSourceDataBytes (runtime : DiskTelemetry) : Option Int :=
  if runtime.dbTotalSizeBytes ≠ 0 || runtime.walTotalSizeBytes ≠ 0 then
    sumSourceDataBytes runtime.dbTotalSizeBytes runtime.walTotalSizeBytes
  else sumSourceDataBytes runtime.dbSizeBytes runtime.walSizeBytes

def diskTelemetryMaxAge : Int := 60000000000

/-- `soakFixtureExhaustedDisk`: fresh telemetry shows 95 percent of the disk taken by source
data. -/
def soakFixtureExhaustedDisk (runtime : DiskTelemetry) (observedAt : Option Int) : Bool :=
  match observedAt, runtime.snapshotCollectedAt with
  | some observed, some collected =>
    if runtime.dataDiskUsedBytes = 0 then false
    else if observed - collected < -diskTelemetryMaxAge ||
        observed - collected > diskTelemetryMaxAge then false
    else
      match soakSourceDataBytes runtime with
      | none => false
      | some sourceBytes =>
        sourceBytes ≠ 0 && sourceBytes ≤ runtime.dataDiskUsedBytes &&
          sourceBytes * 100 ≥ 95 * (runtime.dataDiskUsedBytes : Int)
  | _, _ => false

/-- The end of `ClassifyVerificationFailureWithRuntime`. The parts of a classification that is
turned into one of the disk stay. -/
def diskCapacityOverride (errorMessage profileName : Text) (runtime : DiskTelemetry)
    (observedAt : Option Int) (c : FailureClassification) : FailureClassification :=
  if !isManyDBProfile profileName then c
  else if c.signature ≠ encode diskCapacityFull &&
      !containsAny (toLower errorMessage) ["disk full"] then c
  else { c with
    stage := stageDiskCapacity
    signature :=
      if soakFixtureExhaustedDisk runtime observedAt then encode soakFixtureDiskExhausted
      else encode diskCapacityFull }

def classifyVerificationFailureWithRuntime (checkType errorMessage profileName : Text)
    (runtime : DiskTelemetry) (observedAt : Option Int) : Option FailureClassification :=
  (classifyVerificationFailure checkType errorMessage).map
    (diskCapacityOverride errorMessage profileName runtime observedAt)

/-! ## §7 — failures that say nothing about the build -/

def restoreValidate : Text := text "restore_validate"

def restoreOutputDiskFull (errorMessage : Text) : Bool :=
  restoreOutputDiskFullPath errorMessage &&
    (inferFailureStage restoreValidate errorMessage = stageRestore ||
      containsAny (toLower errorMessage) ["restore failed"])

def pinnedRestoreTargetUnavailable (restoreMode errorMessage : Text) : Option Bool :=
  if equalFold (trimSpace restoreMode) (text "latest") then some false
  else if !pinnedRestoreTargetLostPattern errorMessage then some false
  else (classifyVerificationFailure restoreValidate errorMessage).map fun c =>
    c.stage = stageRestore && c.signature = encode restoreTargetUnavailable

def requestCanceled (c : FailureClassification) : Bool :=
  c.stage = stageRestore && c.objectStore.any fun failure =>
    (c.signature = encode (text "restore_s3_list_request_canceled") ||
      c.signature = encode (text "restore_s3_get_request_canceled")) &&
    failure.httpStatus = 408 && equalFold (trimSpace failure.apiCode) (text "RequestCanceled")

def restoreRequestCanceled (errorMessage : Text) : Option Bool :=
  (classifyVerificationFailure restoreValidate errorMessage).map requestCanceled

def harnessCapacityClassification (restoreMode : Text) : FailureClassification :=
  { stage := stageHarnessCapacity, signature := encode (text "harness_capacity_inconclusive")
    restoreMode := restoreMode }

def restoredComparisonLockedClassification (restoreMode : Text) : FailureClassification :=
  { stage := stageHarnessLock, signature := encode restoredComparisonLockedSignature
    restoreMode := restoreMode }

end LitestreamSoak.Reporting
