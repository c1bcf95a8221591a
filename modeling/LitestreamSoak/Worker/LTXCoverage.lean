import LitestreamSoak.Lib.Ranges
import LitestreamSoak.Lib.Text

/-!
# Worker — LTX coverage

`internal/worker/ltx_coverage.go`: the txids between the first and the last of the L0–L8 files of a
listing that no such file covers. The ranges are sorted and swept once; what lies below the oldest
L9 file is kept apart, since retention may have trimmed it. A hole counts only if a second listing
shows it too.

Txids are `UInt64`, as in the source: the sweep adds and subtracts one, and stops at the largest.
The sort is not stable in the source; ranges with one `min` are taken in the order of the listing
here, which the result does not depend on (`LTXCoverageExact` gives it in terms of the set of
files). The summary text, the steps and the times of a result are left out.
-/

namespace LitestreamSoak.Worker.LTX

open Lib

/-! ## §1 — listings -/

/-- `restorePlanCandidate`: an LTX file of the replica. -/
structure RestorePlanCandidate where
  level : Int
  minTXID : UInt64
  maxTXID : UInt64
  sizeBytes : Int := 0
  createdAt : Text := []
deriving DecidableEq

structure ReplicaLTXListing where
  candidates : List RestorePlanCandidate
  complete : Bool
  err : Text := []
deriving DecidableEq

abbrev TxidRange := Range UInt64

def ltxCoverageMaxLevel : Int := 8

def ltxSnapshotLevel : Int := 9

def maxUint64 : UInt64 := 18446744073709551615

structure LTXCoverage where
  files : Nat := 0
  window : TxidRange := ⟨0, 0⟩
  floor : UInt64 := 0
  floorKnown : Bool := false
  holes : List TxidRange := []
  retained : List TxidRange := []
deriving DecidableEq

/-! ## §2 — the sweep -/

def LTXCoverage.addHole (c : LTXCoverage) (hole : TxidRange) : LTXCoverage :=
  if !c.floorKnown || hole.min ≥ c.floor then { c with holes := c.holes ++ [hole] }
  else if hole.max < c.floor then { c with retained := c.retained ++ [hole] }
  else { c with
    retained := c.retained ++ [⟨hole.min, c.floor - 1⟩]
    holes := c.holes ++ [⟨c.floor, hole.max⟩] }

/-- The body of the first loop of `computeLTXCoverage`. -/
def scan (acc : LTXCoverage × List TxidRange) (candidate : RestorePlanCandidate) :
    LTXCoverage × List TxidRange :=
  let c := acc.1
  let c :=
    if candidate.level = ltxSnapshotLevel ∧ (c.floorKnown = false ∨ candidate.maxTXID < c.floor)
    then { c with floor := candidate.maxTXID, floorKnown := true }
    else c
  if candidate.level < 0 ∨ candidate.level > ltxCoverageMaxLevel ∨
      candidate.minTXID > candidate.maxTXID then (c, acc.2)
  else (c, acc.2 ++ [⟨candidate.minTXID, candidate.maxTXID⟩])

def sweep (c : LTXCoverage) (coveredTo : UInt64) : List TxidRange → LTXCoverage × UInt64
  | [] => (c, coveredTo)
  | next :: rest =>
    if coveredTo = maxUint64 then (c, coveredTo)
    else
      let c := if next.min > coveredTo + 1 then c.addHole ⟨coveredTo + 1, next.min - 1⟩ else c
      sweep c (max coveredTo next.max) rest

def computeLTXCoverage (candidates : List RestorePlanCandidate) : LTXCoverage :=
  let (c, ranges) := candidates.foldl scan ({}, [])
  let c := { c with files := ranges.length }
  match ranges.mergeSort fun a b => a.min ≤ b.min with
  | [] => c
  | first :: rest =>
    let (c, coveredTo) := sweep c first.max rest
    { c with window := ⟨first.min, coveredTo⟩ }

/-! ## §3 — the check -/

def intersectTXIDRanges (a b : List TxidRange) : List TxidRange := inter a b

structure LTXCoverageOutcome where
  first : LTXCoverage := {}
  second : LTXCoverage := {}
  relisted : Bool := false
  confirmed : List TxidRange := []
  err : Text := []
deriving DecidableEq

def ltxListingProblem (listing : ReplicaLTXListing) : Text :=
  if listing.err ≠ [] then listing.err
  else if !listing.complete then text "listing incomplete"
  else if listing.candidates = [] then text "no ltx entries parsed"
  else []

/-- `runLTXCoverageCheck`, with what the two calls of `list` return. -/
def runLTXCoverageCheck (first second : ReplicaLTXListing) : LTXCoverageOutcome :=
  let problem := ltxListingProblem first
  if problem ≠ [] then { err := text "first listing: " ++ problem }
  else
    let outcome : LTXCoverageOutcome := { first := computeLTXCoverage first.candidates }
    if outcome.first.holes = [] then outcome
    else
      let problem := ltxListingProblem second
      if problem ≠ [] then { outcome with err := text "relisting: " ++ problem }
      else
        let coverage := computeLTXCoverage second.candidates
        { outcome with
          relisted := true
          second := coverage
          confirmed := intersectTXIDRanges outcome.first.holes coverage.holes }

def LTXCoverageOutcome.floorUnknown (o : LTXCoverageOutcome) : Bool :=
  !o.confirmed.isEmpty && (!o.first.floorKnown || !o.second.floorKnown)

/-- `formatTXID`: nothing for 0, else 16 hexadecimal digits. -/
def formatTXID (x : UInt64) : Text :=
  if x = 0 then []
  else
    let digits := Nat.toDigits 16 x.toNat
    List.replicate (16 - digits.length) '0' ++ digits

def LTXCoverageOutcome.holeError (o : LTXCoverageOutcome) : Text :=
  match o.confirmed with
  | [] => []
  | first :: _ =>
    text "ltx coverage hole: L0-L8 union missing txids " ++ formatTXID first.min ++ text "-" ++
      formatTXID first.max ++ text " (" ++ Nat.toDigits 10 o.confirmed.length ++ text " holes)"

inductive Status where
  | passed
  | failed
  | aborted
deriving DecidableEq

structure VerificationResult where
  status : Status
  passed : Bool := false
  errorMessage : Text := []
  summary : Text
  signature : Text := []
deriving DecidableEq

def ltxCoverageResult (o : LTXCoverageOutcome) : VerificationResult :=
  if o.floorUnknown then
    let message :=
      text "ltx coverage check skipped: no L9 snapshot bounds retention: " ++ o.holeError
    { status := .aborted, errorMessage := message
      summary := text "verification inconclusive: " ++ message
      signature := text "ltx_coverage_floor_unknown" }
  else if o.err ≠ [] then
    let message := text "ltx coverage check skipped: replica level report incomplete: " ++ o.err
    { status := .aborted, errorMessage := message
      summary := text "verification inconclusive: " ++ message
      signature := text "replica_level_report_incomplete" }
  else if o.confirmed ≠ [] then
    { status := .failed, errorMessage := o.holeError, summary := text "ltx coverage check failed" }
  else { status := .passed, passed := true, summary := text "ltx coverage check passed" }

end LitestreamSoak.Worker.LTX
