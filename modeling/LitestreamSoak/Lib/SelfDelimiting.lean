import Mathlib

/-!
# Lib — codes that say where they end

A code is **self-delimiting** when what is written after it can be told from it: `enc a ++ s` gives
back `a` and `s`. Such codes can be written one after the other without separators, so a list of
them reads back too (`SelfDelimiting.flatMap_inj`). The building blocks are codes of one length,
codes with an end mark, and a length followed by what has that length; the scalars here are decimal
numbers and 64-bit words in big-endian order.

No code is decoded here: two equal texts came from equal values is all a comparison of texts needs.
-/

namespace LitestreamSoak.Lib

open List

variable {α γ β : Type}

def SelfDelimiting (enc : α → List β) : Prop :=
  ∀ a b s t, enc a ++ s = enc b ++ t → a = b ∧ s = t

/-! ## §1 — building blocks -/

variable {enc : α → List β}

theorem selfDelimiting_of_length {n : Nat} (hlen : ∀ a, (enc a).length = n)
    (hinj : Function.Injective enc) : SelfDelimiting enc := by
  intro a b s t h
  obtain ⟨hcode, hrest⟩ := append_inj h ((hlen a).trans (hlen b).symm)
  exact ⟨hinj hcode, hrest⟩

theorem selfDelimiting_of_mark {mark : β} (hmark : ∀ a, mark ∉ enc a)
    (hinj : Function.Injective enc) : SelfDelimiting fun a => enc a ++ [mark] := by
  -- the first mark is at the same place in both texts
  have hsplit : ∀ l m s t : List β, mark ∉ l → mark ∉ m → l ++ mark :: s = m ++ mark :: t →
      l = m ∧ s = t := by
    intro l
    induction l with
    | nil =>
      intro m s t _ hm h
      cases m with
      | nil => exact ⟨rfl, (cons.inj h).2⟩
      | cons c m => grind
    | cons c l ih =>
      intro m s t hl hm h
      cases m with
      | nil => grind
      | cons d m => grind
  intro a b s t h
  rw [append_assoc, append_assoc] at h
  obtain ⟨hcode, hrest⟩ := hsplit _ _ s t (hmark a) (hmark b) h
  exact ⟨hinj hcode, hrest⟩

theorem selfDelimiting_of_size {size : α → List β} {body : α → List β}
    (hsize : ∀ a b s t, size a ++ s = size b ++ t → (body a).length = (body b).length ∧ s = t)
    (hinj : Function.Injective body) : SelfDelimiting fun a => size a ++ body a := by
  intro a b s t h
  rw [append_assoc, append_assoc] at h
  obtain ⟨hlen, hrest⟩ := hsize a b _ _ h
  obtain ⟨hbody, hst⟩ := append_inj hrest hlen
  exact ⟨hinj hbody, hst⟩

theorem SelfDelimiting.prod {enc' : γ → List β} (h : SelfDelimiting enc)
    (h' : SelfDelimiting enc') : SelfDelimiting fun p : α × γ => enc p.1 ++ enc' p.2 := by
  rintro ⟨a, c⟩ ⟨b, d⟩ s t hst
  rw [append_assoc, append_assoc] at hst
  obtain ⟨hab, hrest⟩ := h a b _ _ hst
  obtain ⟨hcd, hst⟩ := h' c d s t hrest
  exact ⟨Prod.ext hab hcd, hst⟩

/-- **A sequence of codes reads back.** No code is empty, so the sequences have one length. -/
theorem SelfDelimiting.flatMap_inj (h : SelfDelimiting enc)
    (hne : ∀ a, enc a ≠ []) {l m : List α} (hlm : l.flatMap enc = m.flatMap enc) : l = m := by
  induction l generalizing m with
  | nil =>
    cases m with
    | nil => rfl
    | cons b m =>
      rw [flatMap_cons] at hlm
      exact absurd (append_eq_nil_iff.mp hlm.symm).1 (hne b)
  | cons a l ih =>
    cases m with
    | nil =>
      rw [flatMap_cons] at hlm
      exact absurd (append_eq_nil_iff.mp hlm).1 (hne a)
    | cons b m =>
      rw [flatMap_cons, flatMap_cons] at hlm
      obtain ⟨hab, hrest⟩ := h a b _ _ hlm
      rw [hab, ih hrest]

/-! ## §2 — scalars -/

variable {b : UInt8}

def ascii (l : List Char) : List UInt8 := l.map fun c => UInt8.ofNat c.toNat

def decimalBytes (n : Nat) : List UInt8 := ascii (Nat.toDigits 10 n)

def decimalIntBytes : Int → List UInt8
  | .ofNat n => decimalBytes n
  | .negSucc n => ascii ['-'] ++ decimalBytes (n + 1)

def bigEndian (x : UInt64) : List UInt8 :=
  [(x >>> 56).toUInt8, (x >>> 48).toUInt8, (x >>> 40).toUInt8, (x >>> 32).toUInt8,
    (x >>> 24).toUInt8, (x >>> 16).toUInt8, (x >>> 8).toUInt8, x.toUInt8]

theorem isDigit_toNat {c : Char} (h : c.isDigit = true) : 48 ≤ c.toNat ∧ c.toNat ≤ 57 := by
  simp only [Char.isDigit, Bool.and_eq_true, decide_eq_true_eq, ge_iff_le, UInt32.le_iff_toNat_le]
    at h
  exact h

theorem mem_decimalBytes {n : Nat} (h : b ∈ decimalBytes n) : 48 ≤ b.toNat ∧ b.toNat ≤ 57 := by
  obtain ⟨c, hc, rfl⟩ := mem_map.mp h
  have hdigit := isDigit_toNat (Nat.isDigit_of_mem_toDigits (by omega) (by omega) hc)
  rw [UInt8.toNat_ofNat']
  omega

theorem map_decimalBytes (n : Nat) :
    (decimalBytes n).map (fun b => Char.ofNat b.toNat) = Nat.toDigits 10 n := by
  rw [decimalBytes, ascii, map_map]
  refine (map_congr_left fun c hc => ?_).trans (map_id _)
  have hdigit := isDigit_toNat (Nat.isDigit_of_mem_toDigits (by omega) (by omega) hc)
  show Char.ofNat (UInt8.ofNat c.toNat).toNat = c
  rw [UInt8.toNat_ofNat', Nat.mod_eq_of_lt (by omega), Char.ofNat_toNat]

theorem decimalBytes_injective : Function.Injective decimalBytes := by
  intro m n h
  have hdigits : Nat.toDigits 10 m = Nat.toDigits 10 n := by
    rw [← map_decimalBytes, h, map_decimalBytes]
  rw [← Nat.ofDigitChars_toDigits (by omega : 1 < 10) (by omega) (n := m), hdigits,
    Nat.ofDigitChars_toDigits (by omega) (by omega)]

theorem notMem_decimalBytes (h : 57 < b.toNat) (n : Nat) : b ∉ decimalBytes n := by
  intro hmem
  have hdigit := (mem_decimalBytes hmem).2
  omega

theorem decimalIntBytes_injective : Function.Injective decimalIntBytes := by
  -- a number without a sign does not begin with one
  have hsign : ∀ m n : Nat, decimalBytes m ≠ ascii ['-'] ++ decimalBytes n := by
    intro m n h
    have hmem : (45 : UInt8) ∈ decimalBytes m := h ▸ mem_cons_self
    exact absurd (mem_decimalBytes hmem).1 (by decide)
  intro x y h
  cases x with
  | ofNat m =>
    cases y with
    | ofNat n => rw [decimalBytes_injective h]
    | negSucc n => exact absurd h (hsign m (n + 1))
  | negSucc m =>
    cases y with
    | ofNat n => exact absurd h.symm (hsign n (m + 1))
    | negSucc n =>
      have hmn := decimalBytes_injective (append_cancel_left h)
      rw [Nat.succ.inj hmn]

theorem notMem_decimalIntBytes (h : 57 < b.toNat) (x : Int) : b ∉ decimalIntBytes x := by
  cases x with
  | ofNat n => exact notMem_decimalBytes h n
  | negSucc n =>
    rw [decimalIntBytes, mem_append, not_or]
    refine ⟨fun hmem => ?_, notMem_decimalBytes h (n + 1)⟩
    rw [mem_singleton.mp hmem] at h
    exact absurd h (by decide)

theorem bigEndian_injective : Function.Injective bigEndian := by
  intro x y h
  simp only [bigEndian, cons.injEq, and_true, ← UInt8.toNat_inj, UInt64.toNat_toUInt8,
    UInt64.toNat_shiftRight, Nat.shiftRight_eq_div_pow, UInt64.reduceToNat, Nat.reduceMod,
    Nat.reducePow] at h
  have hx := x.toNat_lt
  have hy := y.toNat_lt
  apply UInt64.toNat_inj.mp
  omega

theorem length_bigEndian (x : UInt64) : (bigEndian x).length = 8 := rfl

theorem selfDelimiting_bigEndian : SelfDelimiting bigEndian :=
  selfDelimiting_of_length length_bigEndian bigEndian_injective

end LitestreamSoak.Lib
