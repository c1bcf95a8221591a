import LitestreamSoak.Lib.Text

/-!
# Orchestrator — which pull-request answers are accepted

An answer has to be fresh and one JSON value in which no object has two members of one name. But the
decoder matches names by folding letters, so members of two names may set one field, and the age of
an answer is multiplied in 64 bits (`unsound_accepted`).
-/

namespace LitestreamSoak.Orchestrator.PullRequestState

open Lib List Option

/-! ## §1 — JSON -/

inductive Value where
  | null
  | bool (b : Bool)
  /-- A number, as an `int` where it is one. -/
  | number (n : Option Int)
  | string (s : Text)
  | array (items : List Value)
  | object (members : List (Text × Value))

mutual

def scanJSONValue : Value → Bool
  | .object members => (members.map Prod.fst).Nodup && scanMembers members
  | .array items => scanItems items
  | _ => true

def scanItems : List Value → Bool
  | [] => true
  | v :: items => scanJSONValue v && scanItems items

def scanMembers : List (Text × Value) → Bool
  | [] => true
  | (_, v) :: members => scanJSONValue v && scanMembers members

end

inductive Field where
  | number | state | merged | labels | base | repo | fullName | name
deriving DecidableEq

def Field.json : Field → Text
  | number => text "number"
  | state => text "state"
  | merged => text "merged"
  | labels => text "labels"
  | base => text "base"
  | repo => text "repo"
  | fullName => text "full_name"
  | name => text "name"

/-- What is decoded into a struct: an object, or `null`, which leaves it as it is. -/
def Value.members : Value → Option (List (Text × Value))
  | .object members => some members
  | .null => some []
  | _ => none

/-- The values that the members of an object give to a field. -/
def Value.sets (v : Value) (f : Field) : List Value :=
  ((v.members.getD []).filter fun m => equalFold m.1 f.json).map Prod.snd

def decodeField {α : Type} (f : Field) (decode : α → Value → Option α) (old : α) (v : Value) :
    Option α :=
  if v.members.isNone then none else (v.sets f).foldlM decode old

def decodeNumber (old : Int) : Value → Option Int
  | .number n => n
  | .null => some old
  | _ => none

def decodeString (old : Text) : Value → Option Text
  | .string s => some s
  | .null => some old
  | _ => none

def decodeMerged (_ : Option Bool) : Value → Option (Option Bool)
  | .bool b => some (some b)
  | .null => some none
  | _ => none

def decodeLabels (_ : Option (List Text)) : Value → Option (Option (List Text))
  | .array items => (items.mapM (decodeField .name decodeString [])).map some
  | .null => some none
  | _ => none

/-- `githubPullRequestState`; a label is its name. -/
structure State where
  number : Int
  state : Text
  merged : Option Bool
  labels : Option (List Text)
  fullName : Text
deriving DecidableEq

def decode (v : Value) : Option State := do
  let number ← decodeField .number decodeNumber 0 v
  let state ← decodeField .state decodeString [] v
  let merged ← decodeField .merged decodeMerged none v
  let labels ← decodeField .labels decodeLabels none v
  let fullName ← decodeField .base (decodeField .repo (decodeField .fullName decodeString)) [] v
  return ⟨number, state, merged, labels, fullName⟩

/-! ## §2 — an answer -/

structure Response where
  sameURL : Bool
  status : Nat
  /-- The Date header, where it parses. -/
  date : Option Int
  age : Text
  /-- The size of the body, where it can be read. -/
  size : Option Nat
  /-- The values the body is a sequence of, where it is one. -/
  body : Option (List Value)

def second : Int := 1000000000

def defaultPRStateMaxResponseAge : Int := 300 * second

def maxPRStateResponseBytes : Nat := 1048576

/-- `strconv.ParseInt(s, 10, 64)`. -/
def parseInt (s : Text) : Option Int :=
  let (sign, digits) : Int × Text :=
    match s with
    | '-' :: digits => (-1, digits)
    | '+' :: digits => (1, digits)
    | digits => (1, digits)
  let n := sign * (digits.foldl (fun n c => 10 * n + (c.toNat - 48)) 0 : Nat)
  if digits ≠ [] ∧ digits.all Char.isDigit ∧ -2 ^ 63 ≤ n ∧ n < 2 ^ 63 then some n else none

/-- The test of the Age header; the product is one of 64 bits. -/
def validAge (age : Text) : Bool :=
  trimSpace age = [] || (parseInt (trimSpace age)).any fun seconds =>
    0 ≤ seconds && (seconds * second).bmod (2 ^ 64) ≤ defaultPRStateMaxResponseAge

def validateResponseFreshness (now : Int) (r : Response) : Bool :=
  (r.date.any fun date => !(date < now - defaultPRStateMaxResponseAge) &&
    !(now + defaultPRStateMaxResponseAge < date)) && validAge r.age

def splitGitHubRepository (repository : Text) : Bool :=
  let owner := repository.takeWhile (· ≠ '/')
  let name := (repository.dropWhile (· ≠ '/')).tail
  repository.count '/' = 1 && trimSpace owner = owner && trimSpace name = name && owner ≠ [] &&
    name ≠ []

def validateGitHubPullRequestState (s : State) (repository : Text) (prNumber : Int) : Bool :=
  s.number = prNumber && equalFold (trimSpace s.fullName) repository &&
    (s.state = text "open" || s.state = text "closed") &&
    (s.merged.any fun merged => !(s.state = text "open" && merged)) &&
    s.labels.any fun labels => labels.all fun label => trimSpace label ≠ []

def fetchPullRequestState (now : Int) (repository : Text) (prNumber : Int) (r : Response) :
    Option State :=
  if !(splitGitHubRepository repository && r.sameURL && r.status = 200 &&
      validateResponseFreshness now r && r.size.any (· ≤ maxPRStateResponseBytes)) then none
  else
    match r.body with
    | some [v] =>
      if scanJSONValue v then
        (decode v).filter (validateGitHubPullRequestState · repository prNumber)
      else none
    | _ => none

def Value.items : Value → List Value
  | .array items => items
  | _ => []

/-- The fields of the decoded state, each with the object that is to set it. -/
def places (v : Value) : List (Field × Value) :=
  [Field.number, .state, .merged, .labels, .base].map (·, v) ++ (v.sets .base).map (.repo, ·) ++
    ((v.sets .base).flatMap (·.sets .repo)).map (.fullName, ·) ++
    ((v.sets .labels).flatMap Value.items).map (.name, ·)

/-- The Age header is absent, or a number of seconds that is not above the limit. -/
def AgeWithin (age : Text) : Prop :=
  trimSpace age = [] ∨ ∃ seconds ∈ parseInt (trimSpace age), 0 ≤ seconds ∧ seconds ≤ 300

/-- **A fresh and unambiguous answer.** -/
structure Sound (now : Int) (r : Response) : Prop where
  date : ∃ date ∈ r.date, now - defaultPRStateMaxResponseAge ≤ date ∧
    date ≤ now + defaultPRStateMaxResponseAge
  age : AgeWithin r.age
  single : ∃ v, r.body = some [v] ∧ ∀ p ∈ places v, (p.2.sets p.1).length = 1

/-! ## §3 — what is accepted -/

variable {v : Value} {f : Field}

theorem scanItems_iff {items : List Value} :
    scanItems items = true ↔ ∀ v ∈ items, scanJSONValue v = true := by
  induction items with
  | nil => simp [scanItems]
  | cons v items ih => simp [scanItems, ih]

theorem scanMembers_iff {members : List (Text × Value)} :
    scanMembers members = true ↔ ∀ m ∈ members, scanJSONValue m.2 = true := by
  induction members with
  | nil => simp [scanMembers]
  | cons m members ih => rw [scanMembers, Bool.and_eq_true, ih, forall_mem_cons]

theorem scan_members (h : scanJSONValue v = true) :
    ((v.members.getD []).map Prod.fst).Nodup ∧
      ∀ m ∈ v.members.getD [], scanJSONValue m.2 = true := by
  cases v with
  | object members =>
    rw [scanJSONValue, Bool.and_eq_true, decide_eq_true_eq, scanMembers_iff] at h
    exact h
  | _ => simp [Value.members]

theorem scan_sets (h : scanJSONValue v = true) {x : Value} (hx : x ∈ v.sets f) :
    scanJSONValue x = true := by
  obtain ⟨m, hm, rfl⟩ := List.mem_map.mp hx
  exact (scan_members h).2 m (mem_filter.mp hm).1

theorem scan_places (h : scanJSONValue v = true) : ∀ p ∈ places v, scanJSONValue p.2 = true := by
  simp only [places, mem_append, List.mem_map, mem_flatMap]
  rintro p (((⟨f, -, rfl⟩ | ⟨x, hx, rfl⟩) | ⟨y, ⟨x, hx, hy⟩, rfl⟩) | ⟨y, ⟨x, hx, hy⟩, rfl⟩)
  · exact h
  · exact scan_sets h hx
  · exact scan_sets (scan_sets h hx) hy
  · have hitems := scan_sets h hx
    cases x with
    | array items => exact scanItems_iff.mp hitems y hy
    | _ => cases hy

/-- No two members of the object have different names that set the field. -/
def NoRivals (f : Field) (v : Value) : Prop :=
  ∀ m ∈ v.members.getD [], ∀ m' ∈ v.members.getD [], equalFold m.1 f.json = true →
    equalFold m'.1 f.json = true → m.1 = m'.1

theorem length_sets_le_iff (hscan : scanJSONValue v = true) (f : Field) :
    (v.sets f).length ≤ 1 ↔ NoRivals f v := by
  have hnodup : (((v.members.getD []).filter fun m => equalFold m.1 f.json).map Prod.fst).Nodup :=
    (scan_members hscan).1.sublist (filter_sublist.map _)
  have hrivals : NoRivals f v ↔ ∀ m ∈ (v.members.getD []).filter fun m => equalFold m.1 f.json,
      ∀ m' ∈ (v.members.getD []).filter fun m => equalFold m.1 f.json, m.1 = m'.1 := by
    simp only [NoRivals, mem_filter]
    exact ⟨fun h m hm m' hm' => h m hm.1 m' hm'.1 hm.2 hm'.2,
      fun h m hm m' hm' hf hf' => h m ⟨hm, hf⟩ m' ⟨hm', hf'⟩⟩
  rw [hrivals, Value.sets, length_map]
  cases hl : (v.members.getD []).filter fun m => equalFold m.1 f.json with
  | nil => simp
  | cons x rest =>
    cases rest with
    | nil => simp
    | cons y rest => grind

section Decode

variable {α : Type} {decode : α → Value → Option α} {old x : α}

theorem sets_ne_nil (h : decodeField f decode old v = some x) (hne : x ≠ old) : v.sets f ≠ [] := by
  grind [decodeField]

theorem decode_of_mem (h : decodeField f decode old v = some x) (hle : (v.sets f).length ≤ 1)
    {y : Value} (hy : y ∈ v.sets f) : decode old y = some x := by
  obtain ⟨z, hz⟩ := length_eq_one_iff.mp (le_antisymm hle (length_pos_of_mem hy))
  rw [hz, List.mem_singleton] at hy
  unfold decodeField at h
  split at h
  · cases h
  · rw [hz, hy.symm] at h
    simpa using h

end Decode

variable {s : State} {repository : Text} {prNumber now : Int}

theorem exists_of_mapM {α β : Type} {g : α → Option β} {l : List α} {ys : List β}
    (h : l.mapM g = some ys) {x : α} (hx : x ∈ l) : ∃ y ∈ ys, g x = some y := by
  induction l generalizing ys with
  | nil => cases hx
  | cons a l ih => grind [bind_eq_some_iff]

theorem set_of_valid (hdecode : PullRequestState.decode v = some s)
    (hvalid : validateGitHubPullRequestState s repository prNumber = true)
    (hrepository : repository ≠ []) (hnumber : prNumber = 0 → v.sets .number ≠ [])
    (hle : ∀ p ∈ places v, (p.2.sets p.1).length ≤ 1) :
    ∀ p ∈ places v, p.2.sets p.1 ≠ [] := by
  simp only [validateGitHubPullRequestState, Bool.and_eq_true, decide_eq_true_eq,
    Bool.or_eq_true, Option.any_eq_true] at hvalid
  obtain ⟨⟨⟨⟨hnum, hfull⟩, hstate⟩, merged, hmerged, -⟩, labels, hlabels, hnames⟩ := hvalid
  simp only [PullRequestState.decode, bind_eq_bind, bind_eq_some_iff, Option.pure_def,
    some.injEq] at hdecode
  obtain ⟨number, hn, state, hst, merged', hm, labels', hl, fullName, hf, rfl⟩ := hdecode
  obtain rfl : number = prNumber := hnum
  obtain rfl : merged' = some merged := hmerged
  obtain rfl : labels' = some labels := hlabels
  have hfull : fullName ≠ [] := by
    rintro rfl
    simp [equalFold, trimSpace] at hfull
    exact hrepository hfull
  have hbase := hle (.base, v) (by simp [places])
  simp only [places, mem_append, List.mem_map, mem_flatMap] at hle ⊢
  rintro p (((⟨f, hmem, rfl⟩ | ⟨x, hx, rfl⟩) | ⟨y, ⟨x, hx, hy⟩, rfl⟩) | ⟨y, ⟨x, hx, hy⟩, rfl⟩)
  · grind [sets_ne_nil]
  · exact sets_ne_nil (decode_of_mem hf hbase hx) hfull
  · have hrepo := decode_of_mem hf hbase hx
    exact sets_ne_nil (decode_of_mem hrepo (hle _ (.inl (.inl (.inr ⟨x, hx, rfl⟩)))) hy) hfull
  · have hlist := decode_of_mem hl (hle _ (.inl (.inl (.inl ⟨.labels, by simp, rfl⟩)))) hx
    cases x with
    | array items =>
      obtain ⟨names, hnames', hsome⟩ := map_eq_some_iff.mp hlist
      obtain ⟨name, hname, hdecoded⟩ := exists_of_mapM hnames' hy
      cases hsome
      refine sets_ne_nil hdecoded ?_
      rintro rfl
      exact absurd (List.all_eq_true.mp hnames _ hname) (by decide)
    | _ => cases hy

/-! ## §4 — the result -/

theorem fetch_cases {r : Response} (h : fetchPullRequestState now repository prNumber r = some s) :
    repository ≠ [] ∧ validateResponseFreshness now r = true ∧
      ∃ v, r.body = some [v] ∧ scanJSONValue v = true ∧ decode v = some s ∧
        validateGitHubPullRequestState s repository prNumber = true := by
  unfold fetchPullRequestState at h
  split at h
  · cases h
  · next hadmitted =>
    simp only [Bool.not_eq_true', Bool.not_eq_false, Bool.and_eq_true] at hadmitted
    obtain ⟨⟨⟨⟨hrepository, -⟩, -⟩, hfresh⟩, -⟩ := hadmitted
    refine ⟨?_, hfresh, ?_⟩
    · rintro rfl
      simp [splitGitHubRepository] at hrepository
    · split at h
      · next v hbody =>
        split at h
        · next hscan =>
          obtain ⟨hdecode, hvalid⟩ := filter_eq_some_iff.mp h
          exact ⟨v, hbody, hscan, hdecode, hvalid⟩
        · cases h
      · cases h

theorem ageWithin_iff {age : Text} (h : validAge age = true) :
    AgeWithin age ↔ ∀ seconds ∈ parseInt (trimSpace age), seconds * second < 2 ^ 63 := by
  simp only [validAge, Bool.or_eq_true, decide_eq_true_eq, Option.any_eq_true,
    Bool.and_eq_true] at h
  unfold AgeWithin
  rcases h with hempty | ⟨seconds, hseconds, hpositive, hlimit⟩
  · rw [hempty]
    simp [parseInt]
  · have hne : trimSpace age ≠ [] := by
      intro hempty
      rw [hempty] at hseconds
      cases hseconds
    rw [hseconds]
    simp only [hne, false_or, Option.mem_def, some.injEq, forall_eq', exists_eq_left']
    grind [defaultPRStateMaxResponseAge, second]

/-- **When an accepted answer is fresh and unambiguous.** Exactly if its Age header is one of less
than 2^63 nanoseconds and in no object that is decoded two names set one field. A missing number
reads as zero, so a request for number zero needs the member as well. -/
theorem accepted_sound_iff {now : Int} {repository : Text} {prNumber : Int} {r : Response}
    {s : State}
    (h : fetchPullRequestState now repository prNumber r = some s) :
    Sound now r ↔
      (∀ seconds ∈ parseInt (trimSpace r.age), seconds * second < 2 ^ 63) ∧
      ∀ v, r.body = some [v] → (∀ p ∈ places v, NoRivals p.1 p.2) ∧
        (prNumber = 0 → v.sets .number ≠ []) := by
  obtain ⟨hrepository, hfresh, v, hbody, hscan, hdecode, hvalid⟩ := fetch_cases h
  simp only [validateResponseFreshness, Bool.and_eq_true, Option.any_eq_true, Bool.not_eq_true',
    decide_eq_false_iff_not, not_lt] at hfresh
  obtain ⟨⟨date, hdate, hwithin⟩, hage⟩ := hfresh
  rw [← ageWithin_iff hage]
  have hrivals : ∀ p ∈ places v, (p.2.sets p.1).length ≤ 1 ↔ NoRivals p.1 p.2 := fun p hp =>
    length_sets_le_iff (scan_places hscan p hp) p.1
  constructor
  · rintro ⟨-, hage, v', hv', hone⟩
    refine ⟨hage, fun w hw => ?_⟩
    obtain rfl : v = w := by simpa using hbody.symm.trans hw
    obtain rfl : v = v' := by simpa using hbody.symm.trans hv'
    refine ⟨fun p hp => (hrivals p hp).mp (hone p hp).le, fun _ hnone => ?_⟩
    simpa [hnone] using hone (.number, v) (by simp [places])
  · rintro ⟨hage, hbodies⟩
    obtain ⟨hunique, hnumber⟩ := hbodies v hbody
    have hle : ∀ p ∈ places v, (p.2.sets p.1).length ≤ 1 := fun p hp =>
      (hrivals p hp).mpr (hunique p hp)
    refine ⟨⟨date, hdate, hwithin⟩, hage, v, hbody, fun p hp => ?_⟩
    have hset := set_of_valid hdecode hvalid hrepository hnumber hle p hp
    exact le_antisymm (hle p hp) (length_pos_of_ne_nil hset)

/-- An answer for number 1 of `o/n`, with further members. -/
def answer (age : Text) (further : List (Text × Value)) : Response where
  sameURL := true
  status := 200
  date := some 0
  age := age
  size := some 0
  body := some [.object ([(text "number", .number (some 1)), (text "state", .string (text "open")),
    (text "merged", .bool false), (text "labels",
      .array [.object [(text "name", .string (text "l"))]]),
    (text "base", .object [(text "repo", .object [(text "full_name", .string (text "o/n"))])])] ++
    further)]

/-- An open pull request, answered from a cache five minutes old. -/
theorem accepted_sound_iff_plain : Sound 0 (answer (text "300") []) := by
  have hfetch : (fetchPullRequestState 0 (text "o/n") 1 (answer (text "300") [])).isSome =
      true := by
    decide
  obtain ⟨s, hs⟩ := isSome_iff_exists.mp hfetch
  refine (accepted_sound_iff hs).mpr ⟨by decide, fun v hv => ?_⟩
  cases hv
  refine ⟨?_, nofun⟩
  unfold NoRivals
  decide

/-- A second state under another spelling takes over, and an age of 584 years is accepted. -/
theorem unsound_accepted :
    (∃ s, fetchPullRequestState 0 (text "o/n") 1
        (answer [] [(text "State", .string (text "closed"))]) = some s ∧ s.state = text "closed") ∧
      ¬ Sound 0 (answer [] [(text "State", .string (text "closed"))]) ∧
      (∃ s, fetchPullRequestState 0 (text "o/n") 1 (answer (text "18446744074") []) = some s) ∧
      ¬ Sound 0 (answer (text "18446744074") []) := by
  refine ⟨⟨_, rfl, rfl⟩, ?_, ⟨_, rfl⟩, ?_⟩
  · rintro ⟨-, -, v, hv, hone⟩
    cases hv
    exact absurd (hone (.state, _) (mem_cons_of_mem _ mem_cons_self)) (by decide)
  · rintro ⟨-, hage, -⟩
    unfold AgeWithin at hage
    revert hage
    decide

end LitestreamSoak.Orchestrator.PullRequestState
