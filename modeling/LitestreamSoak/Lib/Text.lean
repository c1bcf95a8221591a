import Mathlib

/-!
# Lib — text

Texts are lists of characters, so that the functions of a `strings` package are list functions
and can be evaluated and reasoned about alike. Patterns are Mathlib's regular expressions; this
module adds the abbreviations a pattern is written with (a character class, a literal, an
optional part, a bounded repetition) and, for each, which texts it matches. A pattern anchored at
both ends is `RegularExpression.rmatch`.
-/

namespace LitestreamSoak.Lib

open List

abbrev Text := List Char

instance textLawfulBEq : LawfulBEq Text := inferInstanceAs (LawfulBEq (List Char))

abbrev text (s : String) : Text := s.toList

/-! ## §1 — trimming, letter case and search -/

/-- The characters `unicode.IsSpace` accepts. -/
def isSpace (c : Char) : Bool :=
  c ∈ ['\t', '\n', '\x0b', '\x0c', '\r', ' ', '\u0085', '\u00a0', '\u1680', '\u2028', '\u2029',
    '\u202f', '\u205f', '\u3000'] || ('\u2000' ≤ c && c ≤ '\u200a')

def trimSpace (s : Text) : Text := (s.dropWhile isSpace).rdropWhile isSpace

/-- The lower case of a character. Of the characters beyond ASCII only the two whose lower case is
an ASCII letter are changed: no pattern searched for here has a letter beyond ASCII. -/
def lowerChar (c : Char) : Char :=
  if c = '\u0130' then 'i' else if c = '\u212a' then 'k' else c.toLower

def toLower (s : Text) : Text := s.map lowerChar

/-- Equality up to simple case folding: besides the ASCII capitals, the Kelvin sign and the long s
fold to ASCII letters. -/
def equalFold (a b : Text) : Bool :=
  let fold (c : Char) : Char :=
    if c = '\u212a' then 'k' else if c = '\u017f' then 's' else c.toLower
  a.map fold = b.map fold

def hasPrefix (s start : Text) : Bool := start.isPrefixOf s

def containsText (s part : Text) : Bool := s.tails.any part.isPrefixOf

def firstNonEmpty (values : List Text) : Text :=
  (values.find? fun value => trimSpace value ≠ []).getD []

theorem trimSpace_of_forall {s : Text} (h : ∀ c ∈ s, isSpace c = false) : trimSpace s = s := by
  have hdrop : s.dropWhile isSpace = s := by
    cases s with
    | nil => rfl
    | cons c rest => exact dropWhile_cons_of_neg (by simp [h c])
  rw [trimSpace, hdrop, rdropWhile_eq_self_iff]
  intro hne
  simp [h _ (getLast_mem hne)]

/-- **A text is trimmed** when it neither begins nor ends with a space. -/
theorem trimSpace_eq_self_iff {s : Text} :
    trimSpace s = s ↔ (∀ c ∈ s.head?, isSpace c = false) ∧ ∀ c ∈ s.getLast?, isSpace c = false := by
  have hfirst : s.dropWhile isSpace = s ↔ ∀ c ∈ s.head?, isSpace c = false := by
    cases s with
    | nil => simp
    | cons c rest => rw [dropWhile_eq_self_iff]; simp
  have hlast : s.rdropWhile isSpace = s ↔ ∀ c ∈ s.getLast?, isSpace c = false := by
    rw [rdropWhile_eq_self_iff]
    cases s using reverseRecOn with
    | nil => simp
    | append_singleton rest c => simp
  rw [← hfirst, ← hlast]
  constructor
  · intro h
    -- neither end can have lost a character
    have hdrop : s.dropWhile isSpace = s := by
      apply (dropWhile_suffix isSpace).sublist.antisymm
      rw [trimSpace] at h
      exact h ▸ ( rdropWhile_prefix isSpace _).sublist.trans (by rw [h])
    exact ⟨hdrop, by rwa [trimSpace, hdrop] at h⟩
  · rintro ⟨hdrop, hrdrop⟩
    rw [trimSpace, hdrop, hrdrop]

/-- **Trimming** leaves a trimmed text. -/
theorem trimSpace_trimSpace (s : Text) : trimSpace (trimSpace s) = trimSpace s := by
  rw [trimSpace_eq_self_iff]
  constructor
  · intro c hc
    -- the first character is the first one that is no space
    obtain ⟨rest, hrest⟩ := rdropWhile_prefix isSpace (s.dropWhile isSpace)
    have hhead : c ∈ (s.dropWhile isSpace).head? := by
      have hc : (rdropWhile isSpace (s.dropWhile isSpace)).head? = some c := hc
      rw [← hrest, head?_append, hc]
      rfl
    have hnot := head?_dropWhile_not isSpace s
    rw [Option.mem_def.mp hhead] at hnot
    simpa using hnot
  · intro c hc
    have hne : trimSpace s ≠ [] := by
      intro hnil
      rw [hnil] at hc
      cases hc
    have hlast := rdropWhile_last_not isSpace (s.dropWhile isSpace) hne
    rw [getLast?_eq_some_getLast hne] at hc
    obtain rfl := Option.some.inj hc
    exact Bool.eq_false_iff.mpr hlast

/-! ## §2 — patterns -/

section Patterns

variable {α : Type} {x cs : List α}

open RegularExpression

def oneOf (cs : List α) : RegularExpression α := (cs.map char).sum

def literal (w : List α) : RegularExpression α := (w.map char).prod

def optionally (r : RegularExpression α) : RegularExpression α := 1 + r

def atMost (r : RegularExpression α) : Nat → RegularExpression α
  | 0 => 1
  | n + 1 => 1 + r * atMost r n

theorem mem_char {c : α} : x ∈ (char c).matches' ↔ x = [c] := Iff.rfl

theorem mem_mul {r r' : RegularExpression α} :
    x ∈ (r * r').matches' ↔ ∃ a ∈ r.matches', ∃ b ∈ r'.matches', a ++ b = x := by
  rw [matches'_mul, Language.mem_mul]

theorem mem_optionally {r : RegularExpression α} :
    x ∈ (optionally r).matches' ↔ x = [] ∨ x ∈ r.matches' := by
  rw [optionally, matches'_add, Language.mem_add, matches'_epsilon, Language.mem_one]

theorem mem_literal {w : List α} : x ∈ (literal w).matches' ↔ x = w := by
  induction w generalizing x with
  | nil => exact Iff.rfl
  | cons c w ih =>
    have hprod : literal (c :: w) = char c * literal w := by simp [literal]
    rw [hprod, mem_mul]
    constructor
    · rintro ⟨a, ha, b, hb, rfl⟩
      rw [mem_char.mp ha, ih.mp hb]
      rfl
    · rintro rfl
      exact ⟨[c], mem_char.mpr rfl, w, ih.mpr rfl, rfl⟩

theorem mem_oneOf : x ∈ (oneOf cs).matches' ↔ ∃ c ∈ cs, x = [c] := by
  induction cs with
  | nil =>
    show x ∈ (0 : Language α) ↔ _
    simp [Language.notMem_zero]
  | cons c cs ih => grind [oneOf, matches'_add, Language.mem_add, mem_char]

/-- **Repetition of a class**, exactly `n` times. -/
theorem mem_oneOf_pow {n : Nat} : x ∈ (oneOf cs ^ n).matches' ↔ x.length = n ∧ ∀ c ∈ x, c ∈ cs := by
  induction n generalizing x with
  | zero =>
    show x ∈ (1 : Language α) ↔ _
    rw [Language.mem_one]
    constructor
    · rintro rfl
      simp
    · exact fun h => length_eq_zero_iff.mp h.1
  | succ n ih =>
    show x ∈ (oneOf cs ^ n * oneOf cs).matches' ↔ _
    rw [mem_mul]
    constructor
    · rintro ⟨a, ha, b, hb, rfl⟩
      obtain ⟨hlen, hall⟩ := ih.mp ha
      obtain ⟨c, hc, rfl⟩ := mem_oneOf.mp hb
      grind
    · rintro ⟨hlen, hall⟩
      -- the last character is the last repetition
      have hne : x ≠ [] := ne_nil_of_length_eq_add_one hlen
      refine ⟨x.dropLast, ih.mpr ⟨by simp [hlen], fun d hd => hall d (mem_of_mem_dropLast hd)⟩,
        [x.getLast hne], mem_oneOf.mpr ⟨_, hall _ (getLast_mem hne), rfl⟩,
        dropLast_append_getLast hne⟩

/-- **Repetition of a class**, at most `n` times. -/
theorem mem_atMost_oneOf {n : Nat} :
    x ∈ (atMost (oneOf cs) n).matches' ↔ x.length ≤ n ∧ ∀ c ∈ x, c ∈ cs := by
  induction n generalizing x with
  | zero =>
    show x ∈ (1 : Language α) ↔ _
    rw [Language.mem_one]
    constructor
    · rintro rfl
      simp
    · exact fun h => length_eq_zero_iff.mp (Nat.le_zero.mp h.1)
  | succ n ih =>
    show x ∈ (optionally (oneOf cs * atMost (oneOf cs) n)).matches' ↔ _
    rw [mem_optionally, mem_mul]
    constructor
    · rintro (rfl | ⟨a, ha, b, hb, rfl⟩)
      · simp
      · obtain ⟨c, hc, rfl⟩ := mem_oneOf.mp ha
        obtain ⟨hlen, hall⟩ := ih.mp hb
        exact ⟨by simp [hlen], by simpa using ⟨hc, hall⟩⟩
    · rintro ⟨hlen, hall⟩
      cases x with
      | nil => exact Or.inl rfl
      | cons c x =>
        have hall' := forall_mem_cons.mp hall
        exact Or.inr ⟨[c], mem_oneOf.mpr ⟨c, hall'.1, rfl⟩, x,
          ih.mpr ⟨by simpa using hlen, hall'.2⟩, rfl⟩

end Patterns

/-! ## §3 — durations -/

def decimal (digits : Text) : Nat := digits.foldl (fun n c => 10 * n + (c.toNat - '0'.toNat)) 0

/-- The units of `time.ParseDuration`, in nanoseconds. -/
def durationUnit (name : Text) : Option Nat :=
  [(text "ns", 1), (text "us", 1000), (text "\u00b5s", 1000), (text "\u03bcs", 1000),
    (text "ms", 1000000), (text "s", 1000000000), (text "m", 60000000000),
    (text "h", 3600000000000)].lookup name

/-- The sum of the `1h30m` parts; each part takes at least one character, so the length of the text
is fuel enough. A fraction is rounded down. -/
def durationParts : Nat → Text → Option Nat
  | _, [] => some 0
  | 0, _ => none
  | fuel + 1, s =>
    let (whole, s) := s.span Char.isDigit
    let (fraction, s) := if s.head? = some '.' then s.tail.span Char.isDigit else ([], s)
    let (name, rest) := s.span fun c => c ≠ '.' && !c.isDigit
    if whole = [] && fraction = [] then none
    else (durationUnit name).bind fun unit => (durationParts fuel rest).map fun more =>
      decimal whole * unit + decimal fraction * unit / 10 ^ fraction.length + more

/-- `time.ParseDuration`: nanoseconds, in the range of an `int64`. -/
def parseDuration (s : Text) : Option Int :=
  let negative := s.head? = some '-'
  let s := if negative || s.head? = some '+' then s.tail else s
  if s = text "0" then some 0
  else if s = [] then none
  else (durationParts s.length s).bind fun d =>
    if negative then if d ≤ 2 ^ 63 then some (-(d : Int)) else none
    else if d < 2 ^ 63 then some d else none

end LitestreamSoak.Lib
