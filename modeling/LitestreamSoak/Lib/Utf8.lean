import LitestreamSoak.Lib.Text

/-!
# Lib — byte strings read as UTF-8

A string is a list of bytes and need not be the encoding of a text. Reading it rune by rune gives
a character wherever an encoding starts and a single invalid byte elsewhere. Two things are built
on that reading: trimming, which never takes an invalid byte for a space, and the text that
remains when every invalid byte is replaced by U+FFFD, which is what a format that only carries
texts makes of the string.
-/

namespace LitestreamSoak.Lib.Utf8

open List

abbrev Bytes := List UInt8

def encode (s : Text) : Bytes := s.flatMap String.utf8EncodeChar

def decodeRune (b : Bytes) : Option Char := b.toByteArray.utf8DecodeChar? 0

/-- What one step of a loop over the runes of a string reads. -/
inductive Rune where
  | char (c : Char)
  | invalid (b : UInt8)
  deriving DecidableEq

/-- The runes that follow `skip` more bytes of the character being read. -/
def runesFrom : Nat → Bytes → List Rune
  | _, [] => []
  | skip + 1, _ :: rest => runesFrom skip rest
  | 0, b :: rest =>
    match decodeRune (b :: rest) with
    | some c => .char c :: runesFrom (c.utf8Size - 1) rest
    | none => .invalid b :: runesFrom 0 rest

def runes (b : Bytes) : List Rune := runesFrom 0 b

def Rune.bytes : Rune → Bytes
  | .char c => String.utf8EncodeChar c
  | .invalid b => [b]

def Rune.toChar : Rune → Char
  | .char c => c
  | .invalid _ => '\ufffd'

def toValid (b : Bytes) : Text := (runes b).map Rune.toChar

def Rune.isSpace : Rune → Bool
  | .char c => Lib.isSpace c
  | .invalid _ => false

def trimBytes (b : Bytes) : Bytes :=
  (((runes b).dropWhile Rune.isSpace).rdropWhile Rune.isSpace).flatMap Rune.bytes

/-! ## §1 — reading back what was encoded -/

theorem encode_append (s t : Text) : encode (s ++ t) = encode s ++ encode t := flatMap_append

theorem encode_cons (c : Char) (s : Text) :
    encode (c :: s) = String.utf8EncodeChar c ++ encode s := rfl

theorem decodeRune_encodeChar_append (c : Char) (b : Bytes) :
    decodeRune (String.utf8EncodeChar c ++ b) = some c := by
  rw [decodeRune, toByteArray_append]
  exact ByteArray.utf8DecodeChar?_utf8EncodeChar_append

theorem runesFrom_append (skipped rest : Bytes) :
    runesFrom skipped.length (skipped ++ rest) = runesFrom 0 rest := by
  induction skipped with
  | nil => rfl
  | cons b skipped ih => exact ih

theorem runes_encodeChar_append (c : Char) (b : Bytes) :
    runes (String.utf8EncodeChar c ++ b) = .char c :: runes b := by
  have hread := decodeRune_encodeChar_append c b
  have hlength := String.length_utf8EncodeChar c
  -- an encoding has a first byte, and the loop skips the others
  cases hbytes : String.utf8EncodeChar c with
  | nil =>
    rw [hbytes] at hlength
    exact absurd hlength.symm (Nat.ne_of_gt c.utf8Size_pos)
  | cons first more => grind [runesFrom, runesFrom_append, runes]

/-- **An encoded text is read back**, whatever bytes follow it. -/
theorem runes_encode_append (s : Text) (b : Bytes) :
    runes (encode s ++ b) = s.map Rune.char ++ runes b := by
  induction s with
  | nil => rfl
  | cons c s ih =>
    rw [encode_cons, append_assoc, runes_encodeChar_append, ih]
    rfl

theorem runes_encode (s : Text) : runes (encode s) = s.map Rune.char := by
  have h := runes_encode_append s []
  rwa [append_nil, show runes [] = [] from rfl, append_nil] at h

@[simp] theorem toValid_encode (s : Text) : toValid (encode s) = s := by
  rw [toValid, runes_encode, map_map]
  exact map_id s

theorem encode_injective : Function.Injective encode := fun s t h => by
  rw [← toValid_encode s, h, toValid_encode]

/-- **Replacing invalid bytes changes nothing** exactly when there are none. -/
theorem encode_toValid_iff {b : Bytes} : encode (toValid b) = b ↔ ∃ s, encode s = b := by
  constructor
  · intro h
    exact ⟨toValid b, h⟩
  · rintro ⟨s, rfl⟩
    rw [toValid_encode]

/-- **Encodings start alike** only when the texts do. -/
theorem encode_prefix_iff {s t : Text} : encode s <+: encode t ↔ s <+: t := by
  constructor
  · rintro ⟨b, hb⟩
    -- both sides are read rune by rune, and all of them are characters
    have hrunes : s.map Rune.char ++ runes b = t.map Rune.char := by
      rw [← runes_encode_append, hb, runes_encode]
    have hstart : s.map Rune.char <+: t.map Rune.char := ⟨runes b, hrunes⟩
    exact (prefix_map_iff_of_injective fun _ _ h => Rune.char.inj h).mp hstart
  · rintro ⟨rest, rfl⟩
    rw [encode_append]
    exact prefix_append ..

theorem encode_eq_nil_iff {s : Text} : encode s = [] ↔ s = [] := by
  constructor
  · intro h
    exact encode_injective h
  · rintro rfl
    rfl

/-! ## §2 — trimming -/

theorem flatMap_bytes_map_char (s : Text) : (s.map Rune.char).flatMap Rune.bytes = encode s := by
  rw [flatMap_map]
  rfl

theorem dropWhile_map_char (s : Text) :
    (s.map Rune.char).dropWhile Rune.isSpace = (s.dropWhile Lib.isSpace).map Rune.char :=
  dropWhile_map ..

/-- **Trimming an encoded text** trims the text. -/
theorem trimBytes_encode (s : Text) : trimBytes (encode s) = encode (trimSpace s) := by
  rw [trimBytes, runes_encode, dropWhile_map_char, rdropWhile, ← map_reverse,
    dropWhile_map_char, ← map_reverse, flatMap_bytes_map_char]
  rfl

end LitestreamSoak.Lib.Utf8
