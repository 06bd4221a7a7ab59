import Mathlib.Data.List.Basic

/-!
# Base 64

Bytes as digits below 64, three bytes to four digits, over an arbitrary alphabet.
-/

namespace Base64

/-- The digits of a byte string; the last digit of an incomplete group is filled up with zero bits. -/
def digits : List UInt8 → List Nat
  | [] => []
  | [a] => [a.toNat / 4, a.toNat % 4 * 16]
  | [a, b] => [a.toNat / 4, a.toNat % 4 * 16 + b.toNat / 16, b.toNat % 16 * 4]
  | a :: b :: c :: rest =>
    a.toNat / 4 :: (a.toNat % 4 * 16 + b.toNat / 16) :: (b.toNat % 16 * 4 + c.toNat / 64) ::
      c.toNat % 64 :: digits rest

/-- The bytes that digits stand for; bits that fill no byte are dropped. -/
def bytes : List Nat → List UInt8
  | p :: q :: r :: s :: rest =>
    UInt8.ofNat (p * 4 + q / 16) :: UInt8.ofNat (q % 16 * 16 + r / 4) ::
      UInt8.ofNat (r % 4 * 64 + s) :: bytes rest
  | [p, q, r] => [UInt8.ofNat (p * 4 + q / 16), UInt8.ofNat (q % 16 * 16 + r / 4)]
  | [p, q] => [UInt8.ofNat (p * 4 + q / 16)]
  | _ => []

/-- How many letters are missing from the last group. -/
def padding (bs : List UInt8) : Nat := (3 - bs.length % 3) % 3

/-- The text of a byte string, with or without padding. -/
def encode {α : Type} (letter : Nat → α) (pad : α) (padded : Bool) (bs : List UInt8) : List α :=
  (digits bs).map letter ++ if padded then List.replicate (padding bs) pad else []

theorem lt_of_mem_digits {bs : List UInt8} {d : Nat} (h : d ∈ digits bs) : d < 64 := by
  induction bs using digits.induct with
  | case1 => cases h
  | case2 a =>
    have ha := a.toNat_lt
    simp only [digits, List.mem_cons, List.not_mem_nil, or_false] at h
    omega
  | case3 a b =>
    have ha := a.toNat_lt
    have hb := b.toNat_lt
    simp only [digits, List.mem_cons, List.not_mem_nil, or_false] at h
    omega
  | case4 a b c rest ih =>
    have ha := a.toNat_lt
    have hb := b.toNat_lt
    have hc := c.toNat_lt
    simp only [digits, List.mem_cons] at h
    rcases h with h | h | h | h | h
    · omega
    · omega
    · omega
    · omega
    · exact ih h

/-- The digits of a byte string stand for it. -/
@[simp] theorem bytes_digits (bs : List UInt8) : bytes (digits bs) = bs := by
  have hbyte {a : UInt8} {n : Nat} (h : n = a.toNat) : UInt8.ofNat n = a := by
    rw [h, UInt8.ofNat_toNat]
  induction bs using digits.induct with
  | case1 => rfl
  | case2 a =>
    rw [digits, bytes, hbyte (a := a) (by omega)]
  | case3 a b =>
    have hb := b.toNat_lt
    rw [digits, bytes, hbyte (a := a) (by omega), hbyte (a := b) (by omega)]
  | case4 a b c rest ih =>
    have hb := b.toNat_lt
    have hc := c.toNat_lt
    rw [digits, bytes, hbyte (a := a) (by omega), hbyte (a := b) (by omega), hbyte (a := c) (by omega),
      ih]

end Base64
