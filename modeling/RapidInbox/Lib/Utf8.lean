import Mathlib.Algebra.Ring.Nat
import Mathlib.Data.List.Basic

/-!
# UTF-8 over byte lists

Encoding and strict decoding (no overlong forms, no surrogates, nothing above U+10FFFF) between
lists of characters and lists of bytes, on top of the core library's one-character codec.
-/

namespace Utf8

/-- The UTF-8 bytes of a text. -/
def encode (cs : List Char) : List UInt8 :=
  cs.flatMap String.utf8EncodeChar

/-- Number of bytes `encode` produces. -/
def size (cs : List Char) : Nat :=
  (cs.map Char.utf8Size).sum

/-- Strict decoding of at most `fuel` characters. -/
def decodeAux : Nat → List UInt8 → Option (List Char)
  | _, [] => some []
  | 0, _ :: _ => none
  | fuel + 1, b :: bs =>
    match ByteArray.utf8DecodeChar? (b :: bs).toByteArray 0 with
    | none => none
    | some c => (decodeAux fuel ((b :: bs).drop c.utf8Size)).map (c :: ·)

/-- Strict decoding; `none` when the bytes are not valid UTF-8. -/
def decode? (bs : List UInt8) : Option (List Char) :=
  decodeAux bs.length bs

@[simp] theorem encode_cons (c : Char) (cs : List Char) :
    encode (c :: cs) = String.utf8EncodeChar c ++ encode cs := rfl

@[simp] theorem encode_append (cs ds : List Char) : encode (cs ++ ds) = encode cs ++ encode ds := by
  simp [encode]

theorem length_encode (cs : List Char) : (encode cs).length = size cs := by
  induction cs with
  | nil => rfl
  | cons c cs ih => simp [size, ih] at *

/-- Every character takes at least one byte. -/
theorem length_le_length_encode (cs : List Char) : cs.length ≤ (encode cs).length := by
  induction cs with
  | nil => simp
  | cons c cs ih =>
    have := c.utf8Size_pos
    simp only [encode_cons, List.length_cons, List.length_append, String.length_utf8EncodeChar]
    omega

/-- One character is decoded off the front of its own encoding. -/
theorem decodeChar_encode_append (c : Char) (bs : List UInt8) :
    ByteArray.utf8DecodeChar? (String.utf8EncodeChar c ++ bs).toByteArray 0 = some c := by
  rw [List.toByteArray_append]
  exact ByteArray.utf8DecodeChar?_utf8EncodeChar_append

theorem decodeAux_encode (cs : List Char) (fuel : Nat) (hf : cs.length ≤ fuel) :
    decodeAux fuel (encode cs) = some cs := by
  induction cs generalizing fuel with
  | nil => cases fuel <;> rfl
  | cons c cs ih =>
    obtain ⟨fuel, rfl⟩ : ∃ n, fuel = n + 1 := ⟨fuel - 1, by simp at hf; omega⟩
    have hne : encode (c :: cs) ≠ [] := by simp
    obtain ⟨b, bs, hbs⟩ := List.exists_cons_of_ne_nil hne
    have hdec := decodeChar_encode_append c (encode cs)
    rw [← encode_cons, hbs] at hdec
    have hdrop : (encode (c :: cs)).drop c.utf8Size = encode cs := by
      rw [encode_cons, ← String.length_utf8EncodeChar c, List.drop_left]
    rw [hbs] at hdrop ⊢
    simp only [decodeAux, hdec, hdrop, ih fuel (by simpa using hf), Option.map_some]

/-- Decoding inverts encoding. -/
@[simp] theorem decode?_encode (cs : List Char) : decode? (encode cs) = some cs := by
  exact decodeAux_encode cs _ (length_le_length_encode cs)

end Utf8
