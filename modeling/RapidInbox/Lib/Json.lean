import RapidInbox.Lib.Utf8

/-!
# JSON values and their compact text

A JSON tree over an arbitrary type of strings, and the compact writer that a program gets by
concatenating bytes: strings are escaped byte by byte, so that a string's own bytes from `0x80` on
reach the output unchanged.
-/

/-- A JSON value whose strings have type `σ`; numbers are integers. -/
inductive Json (σ : Type) where
  | null
  | bool (b : Bool)
  | num (n : Int)
  | str (s : σ)
  | arr (xs : List (Json σ))
  | obj (fields : List (σ × Json σ))

namespace Json

/-- ASCII text as bytes. -/
def ascii (s : List Char) : List UInt8 := s.map fun c => UInt8.ofNat c.toNat

/-- A lower-case hexadecimal digit. -/
def hexDigit (n : UInt8) : UInt8 :=
  if n < 10 then 48 + n else 87 + n

/-- One byte of a string literal. -/
def escapeByte (b : UInt8) : List UInt8 :=
  if b = 0x22 then [0x5C, 0x22]
  else if b = 0x5C then [0x5C, 0x5C]
  else if b = 0x08 then [0x5C, 0x62]
  else if b = 0x0C then [0x5C, 0x66]
  else if b = 0x0A then [0x5C, 0x6E]
  else if b = 0x0D then [0x5C, 0x72]
  else if b = 0x09 then [0x5C, 0x74]
  else if b < 0x20 then [0x5C, 0x75, 0x30, 0x30, hexDigit (b / 16), hexDigit (b % 16)]
  else [b]

/-- The body of a string literal. -/
def escape (s : List UInt8) : List UInt8 := s.flatMap escapeByte

/-- A string literal with its quotes. -/
def quote (s : List UInt8) : List UInt8 := 0x22 :: escape s ++ [0x22]

/-- Decimal digits of a number below `10 ^ fuel`, most significant first. -/
def decimalAux : Nat → Nat → List UInt8
  | 0, _ => []
  | fuel + 1, n =>
    if n < 10 then [48 + UInt8.ofNat n]
    else decimalAux fuel (n / 10) ++ [48 + UInt8.ofNat (n % 10)]

/-- Decimal digits of a number, most significant first. -/
def decimal (n : Nat) : List UInt8 := decimalAux (n + 1) n

/-- Decimal text of an integer. -/
def integer : Int → List UInt8
  | .ofNat n => decimal n
  | .negSucc n => 0x2D :: decimal (n + 1)

mutual

/-- The compact text of a value. -/
def render : Json (List UInt8) → List UInt8
  | .null => [0x6E, 0x75, 0x6C, 0x6C]
  | .bool true => [0x74, 0x72, 0x75, 0x65]
  | .bool false => [0x66, 0x61, 0x6C, 0x73, 0x65]
  | .num n => integer n
  | .str s => quote s
  | .arr xs => 0x5B :: renderElems xs
  | .obj fields => 0x7B :: renderFields fields

/-- Array elements with their commas and the closing bracket. -/
def renderElems : List (Json (List UInt8)) → List UInt8
  | [] => [0x5D]
  | [x] => render x ++ [0x5D]
  | x :: y :: xs => render x ++ 0x2C :: renderElems (y :: xs)

/-- Object members with their commas and the closing brace. -/
def renderFields : List (List UInt8 × Json (List UInt8)) → List UInt8
  | [] => [0x7D]
  | [(key, x)] => quote key ++ 0x3A :: render x ++ [0x7D]
  | (key, x) :: field :: fields =>
    quote key ++ 0x3A :: render x ++ 0x2C :: renderFields (field :: fields)

end

end Json
