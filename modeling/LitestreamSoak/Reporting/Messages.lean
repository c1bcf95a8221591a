import LitestreamSoak.Lib.Utf8

/-!
# Reporting — reading error messages

The text tests and patterns of `internal/reporting/classification.go`. Messages arrive in JSON, so
a message is a text; the classifier also cuts messages at byte offsets, and what is left of such a
cut is a string of bytes that may end, or begin, inside a character.

A pattern is written as the scan that finds its leftmost match. None of the patterns can match one
place in two ways: every repetition in them is over characters that cannot start what follows it,
so the longest run is the only one to try.
-/

namespace LitestreamSoak.Reporting

open Lib Lib.Utf8

/-! ## §1 — helpers of the `strings` package -/

def containsAny (s : Text) (parts : List String) : Bool :=
  parts.any fun part => containsText s (text part)

def hasSuffix (s ending : Text) : Bool := ending.isSuffixOf s

def trim (cutset s : Text) : Text :=
  (s.dropWhile (cutset.contains ·)).rdropWhile (cutset.contains ·)

def firstNonEmpty (values : List Text) : Text := ((values.map trimSpace).find? (· ≠ [])).getD []

/-- `strconv.Atoi`: the value and whether the text is a number that fits. A number that does not
fit still gives the end of the range it passed. -/
def atoi (s : Text) : Int × Bool :=
  let digits := if s.head? = some '-' || s.head? = some '+' then s.tail else s
  if digits = [] || !digits.all Char.isDigit then (0, false)
  else
    let n : Int := decimal digits
    if s.head? = some '-' then if n ≤ 2 ^ 63 then (-n, true) else (-(2 ^ 63), false)
    else if n < 2 ^ 63 then (n, true) else (2 ^ 63 - 1, false)

/-! ## §2 — scanning for patterns -/

def patternSpace (c : Char) : Bool := ['\t', '\n', '\x0c', '\r', ' '].contains c

/-- `\w` of a pattern, for the word boundaries. -/
def wordChar (c : Char) : Bool := c.isAlphanum || c = '_'

/-- Simple case folding onto the lower-case letters, as `(?i)` matches them. -/
def foldChar (c : Char) : Char :=
  if c = '\u212a' then 'k' else if c = '\u017f' then 's' else c.toLower

def alphanumFold (c : Char) : Bool := (foldChar c).isAlphanum

/-- What follows a literal, given in lower case, that the text starts with up to case. -/
def afterLiteral (literal s : Text) : Option Text :=
  if literal.isPrefixOf (s.map foldChar) then some (s.drop literal.length) else none

def places : Option Char → Text → List (Option Char × Text)
  | before, [] => [(before, [])]
  | before, c :: s => (before, c :: s) :: places (some c) s

def wordBoundary (before after : Option Char) : Bool := before.any wordChar ≠ after.any wordChar

/-- `(?i)literal\s*(run)closing`, with `\s+` when `spaced`: the trimmed run of the first match. -/
def runAfter (literal : Text) (spaced : Bool) (inRun : Char → Bool) (closing s : Text) : Text :=
  let found := s.tails.findSome? fun rest => (afterLiteral literal rest).bind fun rest =>
    let (spaces, rest) := rest.span patternSpace
    let (run, rest) := rest.span inRun
    if (spaced && spaces = []) || run = [] || !hasPrefix rest closing then none else some run
  trimSpace (found.getD [])

def s3OperationPattern : Text → Text := runAfter (text "operation error s3:") false alphanumFold []

def httpStatusPattern : Text → Text := runAfter (text "statuscode:") false Char.isDigit []

def apiCodePattern : Text → Text := runAfter (text "api error") true alphanumFold [':']

def requestIDPattern : Text → Text :=
  runAfter (text "requestid:") false (fun c => c ≠ ',' && !patternSpace c) []

/-- `s3://([^/\s]+)/([^"'\s]+)`: the two runs. -/
def s3URLPattern (s : Text) : Option (Text × Text) :=
  s.tails.findSome? fun rest =>
    if !hasPrefix rest (text "s3://") then none
    else
      let (bucket, rest) := (rest.drop 5).span fun c => c ≠ '/' && !patternSpace c
      let path := rest.tail.takeWhile fun c => c ≠ '"' && c ≠ '\'' && !patternSpace c
      if bucket = [] || rest.head? ≠ some '/' || path = [] then none else some (bucket, path)

/-- `(?i)restore target (txid|timestamp) \S+ is no longer available`. -/
def pinnedRestoreTargetLostPattern (s : Text) : Bool :=
  s.tails.any fun rest =>
    [text "restore target txid ", text "restore target timestamp "].any fun literal =>
      (afterLiteral literal rest).any fun rest =>
        let (target, rest) := rest.span fun c => !patternSpace c
        target ≠ [] && (afterLiteral (text " is no longer available") rest).isSome

/-- The ends of the restore output's file names, `\.restored(?:\.pre)?(?:\.tmp)?(?:-wal|…)?`. -/
def restoreOutputEndings : List Text :=
  ["", ".pre"].flatMap fun pre => ["", ".tmp"].flatMap fun tmp =>
    ["", "-wal", "-shm", "-journal"].map fun side =>
      text ".restored" ++ text pre ++ text tmp ++ text side

/-- `restoreOutputDiskFullPattern`. The path holds no colon, so it is the whole run up to the one
before the message. -/
def restoreOutputDiskFullPath (s : Text) : Bool :=
  s.tails.any fun rest =>
    ["write ", "open ", "create ", "rename ", "sync ", "truncate "].any fun verb =>
      (afterLiteral (text verb) rest).any fun rest =>
        let (path, rest) := rest.span fun c => c ≠ ':' && !patternSpace c
        restoreOutputEndings.any (hasSuffix (path.map foldChar)) &&
          (afterLiteral (text ": no space left on device") rest).isSome

def sqliteLockPattern (s : Text) : Bool :=
  (places none s).any fun (before, rest) =>
    ["database is locked", "database table is locked"].any
        (fun literal => (afterLiteral (text literal) rest).isSome) ||
      (wordBoundary before rest.head? &&
        ["sqlite_busy", "sqlite_locked"].any fun literal =>
          (afterLiteral (text literal) rest).any fun after =>
            wordBoundary (rest.take literal.length).getLast? after.head?)

def keyValueText (s : Text) : Text :=
  let quoted (q : Char) : Option Text :=
    if s.head? ≠ some q then none
    else
      let (body, rest) := s.tail.span (· ≠ q)
      if body = [] || rest = [] then none else some (q :: body ++ [q])
  ((quoted '"').or (quoted '\'')).getD (s.takeWhile fun c => c ≠ ',' && !patternSpace c)

def keyValueKeys : List String :=
  ["operation", "http_status", "api_code", "request_id", "bucket", "prefix", "phase"]

/-- `keyValuePattern` at one place: the key in lower case, the value and the length of both. -/
def keyValueAt (before : Option Char) (s : Text) : Option (Text × Text × Nat) :=
  if !wordBoundary before s.head? then none
  else keyValueKeys.findSome? fun key => (afterLiteral (text key ++ ['=']) s).bind fun rest =>
    let value := keyValueText rest
    if value = [] then none else some (text key, value, (text key).length + 1 + value.length)

/-- The successive matches of `keyValuePattern`; `skip` characters belong to the last one. -/
def keyValues : Option Char → Nat → Text → List (Text × Text)
  | _, _, [] => []
  | _, skip + 1, c :: s => keyValues (some c) skip s
  | before, 0, c :: s =>
    match keyValueAt before (c :: s) with
    | some (key, value, length) => (key, value) :: keyValues (some c) (length - 1) s
    | none => keyValues (some c) 0 s

/-! ## §3 — the lines of restore output -/

/-- What `RestoreErrorOutput` keeps while it goes through the lines. -/
structure ErrorBlock where
  lines : List Text := []
  finalBlock : Bool := false

def ErrorBlock.add (block : ErrorBlock) (raw : Text) : ErrorBlock :=
  let continuation := hasPrefix raw [' '] || hasPrefix raw ['\t']
  let line := trimSpace raw
  let lower := toLower line
  if line = [] then block
  else if containsAny lower ["level=debug", "level=info", "level=warn"] then block
  else
    let startsError := hasPrefix lower (text "error:") || containsAny lower ["level=error"]
    let lines :=
      if startsError || (!block.finalBlock && !continuation) then [] else block.lines
    { lines := lines ++ [if continuation && lines ≠ [] then text "  " ++ line else line]
      finalBlock := block.finalBlock || startsError }

def restoreErrorOutput (output : Text) : Text :=
  ['\n'].intercalate ((output.splitOn '\n').foldl ErrorBlock.add {}).lines

def classifiedMessage (errorMessage : Text) : Text :=
  if containsText errorMessage ['\n'] && containsAny (toLower errorMessage) ["level="] then
    restoreErrorOutput errorMessage
  else errorMessage

def meaningfulLine (msg : Text) : Option Text :=
  ((msg.splitOn '\n').map trimSpace).find? (· ≠ [])

/-- `firstMeaningfulLine`: cut after 120 bytes, wherever that falls. -/
def firstMeaningfulLine (msg : Text) : Bytes :=
  match meaningfulLine msg with
  | some line => if 120 < (encode line).length then (encode line).take 120 else encode line
  | none => encode (text "unknown_failure")

/-! ## §4 — comparisons that met a lock -/

/-- The number of bytes of a character in lower case: the capitals whose small letter is encoded
in another number of bytes. -/
def lowerSize (c : Char) : Nat :=
  if ['\u023a', '\u023e'].contains c then 3
  else if ['\u0130', '\u212a'].contains c then 1
  else if ['\u1e9e', '\u2126', '\u212b', '\u2c62', '\u2c64', '\u2c6d', '\u2c6e', '\u2c6f', '\u2c70',
      '\u2c7e', '\u2c7f', '\ua78d', '\ua7aa', '\ua7ab', '\ua7ac', '\ua7ad', '\ua7ae', '\ua7b0',
      '\ua7b1', '\ua7b2', '\ua7c5'].contains c then 2
  else c.utf8Size

def restoredComparisonMarker : Text := text "restored comparison:"

def lastIndex (s part : Text) : Option Nat :=
  (List.range (s.length + 1)).reverse.find? fun i => part.isPrefixOf (s.drop i)

def restoredComparisonEnd (errorMessage : Text) : Option Nat :=
  (lastIndex (toLower errorMessage) restoredComparisonMarker).map fun i =>
    ((errorMessage.take i).map lowerSize).sum + restoredComparisonMarker.length

/-- The message has a byte at every offset its lower case has a marker before. -/
def comparisonOffsetFits (errorMessage : Text) : Bool :=
  (restoredComparisonEnd errorMessage).all (· ≤ (encode errorMessage).length)

/-- `RestoredComparisonLocked`; `none` is the panic of a slice that starts behind the end. The
offset is taken from the message in lower case and used in the message itself. -/
def restoredComparisonLocked (errorMessage : Text) : Option Bool :=
  if !comparisonOffsetFits errorMessage then none
  else some <| (restoredComparisonEnd errorMessage).any fun start =>
    let detail := toLower (toValid ((encode errorMessage).drop start))
    !containsAny detail ["mismatch", "missing"] && sqliteLockPattern detail

end LitestreamSoak.Reporting
