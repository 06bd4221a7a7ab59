import Mathlib.Data.List.Basic
import RapidInbox.Lib.PyJson

/-!
# The JSON reader of Python

`json.loads` of a text that has been decoded from UTF-8 and so has no surrogates; the strings it reads
may have some.  The fuel of each reader is the text that is left.
-/

namespace CodePoint

/-- The code point with a number, where it is in range. -/
def ofNat (n : Nat) : CodePoint := Fin.ofNat 0x110000 n

def isHigh (n : Nat) : Bool := 0xD800 ≤ n && n ≤ 0xDBFF

def isLow (n : Nat) : Bool := 0xDC00 ≤ n && n ≤ 0xDFFF

/-- The number that a high and a low surrogate stand for. -/
def join (high low : Nat) : Nat := 0x10000 + (high - 0xD800) * 0x400 + (low - 0xDC00)

end CodePoint

namespace PyDict

/-- `d[key] = value`; a key keeps its place. -/
def set : PyDict → PyStr → PyJson → PyDict
  | [], key, value => [(key, value)]
  | field :: d, key, value =>
    if field.1 = key then (key, value) :: d else field :: set d key value

end PyDict

namespace PyJson

open CodePoint PyStr

def isSpace (c : Char) : Bool := c = ' ' || c = '\t' || c = '\n' || c = '\r'

def skipSpace (cs : List Char) : List Char := cs.dropWhile isSpace

/-! ## Strings -/

def hexValue? (c : Char) : Option Nat :=
  if '0' ≤ c ∧ c ≤ '9' then some (c.toNat - 48)
  else if 'a' ≤ c ∧ c ≤ 'f' then some (c.toNat - 87)
  else if 'A' ≤ c ∧ c ≤ 'F' then some (c.toNat - 55)
  else none

/-- Four hexadecimal digits. -/
def readUnit? : List Char → Option (Nat × List Char)
  | a :: b :: c :: d :: rest => do
      let a ← hexValue? a
      let b ← hexValue? b
      let c ← hexValue? c
      let d ← hexValue? d
      some (a * 4096 + b * 256 + c * 16 + d, rest)
  | _ => none

/-- `\uXXXX` with a low surrogate. -/
def readLow? : List Char → Option (Nat × List Char)
  | '\\' :: 'u' :: cs => (readUnit? cs).filter fun unit => isLow unit.1
  | _ => none

/-- What follows `\u`; a high surrogate is joined with a low one behind it. -/
def readUnicode? (cs : List Char) : Option (CodePoint × List Char) :=
  (readUnit? cs).map fun (unit, cs) =>
    match if isHigh unit then readLow? cs else none with
    | some (low, cs) => (ofNat (join unit low), cs)
    | none => (ofNat unit, cs)

/-- What follows a backslash. -/
def readEscape? : List Char → Option (CodePoint × List Char)
  | [] => none
  | e :: cs =>
    if e = 'u' then readUnicode? cs
    else if e = '"' ∨ e = '\\' ∨ e = '/' then some (ofChar e, cs)
    else if e = 'b' then some (ofNat 0x08, cs)
    else if e = 'f' then some (ofNat 0x0C, cs)
    else if e = 'n' then some (ofNat 0x0A, cs)
    else if e = 'r' then some (ofNat 0x0D, cs)
    else if e = 't' then some (ofNat 0x09, cs)
    else none

/-- A character of a string; control characters are refused. -/
def readChar? : List Char → Option (CodePoint × List Char)
  | [] => none
  | c :: cs =>
    if c = '\\' then readEscape? cs
    else if c.toNat < 0x20 then none
    else some (ofChar c, cs)

/-- `scanstring`: the rest of a string behind its quote. -/
def scanString : Nat → List Char → Option (PyStr × List Char)
  | 0, _ => none
  | fuel + 1, cs =>
    if cs.head? = some '"' then some ([], cs.tail)
    else do
      let (c, cs) ← readChar? cs
      let (s, rest) ← scanString fuel cs
      some (c :: s, rest)

/-! ## Numbers and constants -/

/-- The digits before the point; a zero stands alone. -/
def readInteger? : List Char → Option (List Char × List Char)
  | [] => none
  | c :: cs =>
    if c = '0' then some (['0'], cs)
    else if c.isDigit then some (c :: cs.takeWhile Char.isDigit, cs.dropWhile Char.isDigit)
    else none

/-- A point with digits behind it. -/
def readFraction : List Char → List Char × List Char
  | '.' :: cs =>
    if cs.head?.any Char.isDigit then ('.' :: cs.takeWhile Char.isDigit, cs.dropWhile Char.isDigit)
    else ([], '.' :: cs)
  | cs => ([], cs)

def readSign : List Char → List Char × List Char
  | '+' :: cs => (['+'], cs)
  | '-' :: cs => (['-'], cs)
  | cs => ([], cs)

/-- An `e` with digits behind it. -/
def readExponent : List Char → List Char × List Char
  | [] => ([], [])
  | e :: cs =>
    let (sign, digits) := readSign cs
    if (e = 'e' ∨ e = 'E') ∧ digits.head?.any Char.isDigit then
      (e :: sign ++ digits.takeWhile Char.isDigit, digits.dropWhile Char.isDigit)
    else ([], e :: cs)

/-- A number without its sign, read as an integer or kept as a text. -/
def readUnsigned? (negative : Bool) (cs : List Char) : Option (PyJson × List Char) :=
  (readInteger? cs).map fun (digits, rest) =>
    let (fraction, rest) := readFraction rest
    let (exponent, rest) := readExponent rest
    if fraction = [] ∧ exponent = [] then
      let n : Int := Nat.ofDigitChars 10 digits 0
      (.int (if negative then -n else n), rest)
    else (.float ((if negative then ['-'] else []) ++ digits ++ fraction ++ exponent), rest)

def readNumber? : List Char → Option (PyJson × List Char)
  | '-' :: cs => readUnsigned? true cs
  | cs => readUnsigned? false cs

/-- The words that stand for a value. -/
def constants : List (List Char × PyJson) :=
  [("null".toList, .null), ("true".toList, .bool true), ("false".toList, .bool false),
    ("NaN".toList, .float "NaN".toList), ("Infinity".toList, .float "Infinity".toList),
    ("-Infinity".toList, .float "-Infinity".toList)]

/-- A constant or a number. -/
def readAtom? (cs : List Char) : Option (PyJson × List Char) :=
  match constants.find? fun constant => constant.1.isPrefixOf cs with
  | some (word, value) => some (value, cs.drop word.length)
  | none => readNumber? cs

/-! ## Values -/

mutual

/-- `scan_once` -/
def readValue : Nat → List Char → Option (PyJson × List Char)
  | 0, _ => none
  | _ + 1, [] => none
  | fuel + 1, c :: cs =>
    if c = '"' then (scanString (cs.length + 1) cs).map fun (s, rest) => (.str s, rest)
    else if c = '\x7b' then
      if (skipSpace cs).head? = some '\x7d' then some (.dict [], (skipSpace cs).tail)
      else (readFields fuel [] (skipSpace cs)).map fun (d, rest) => (.dict d, rest)
    else if c = '[' then
      if (skipSpace cs).head? = some ']' then some (.list [], (skipSpace cs).tail)
      else (readElems fuel (skipSpace cs)).map fun (xs, rest) => (.list xs, rest)
    else readAtom? (c :: cs)

/-- The elements of an array with the closing bracket. -/
def readElems : Nat → List Char → Option (List PyJson × List Char)
  | 0, _ => none
  | fuel + 1, cs => do
      let (x, rest) ← readValue fuel cs
      match skipSpace rest with
      | ']' :: rest => some ([x], rest)
      | ',' :: rest => do
          let (xs, rest) ← readElems fuel (skipSpace rest)
          some (x :: xs, rest)
      | _ => none

/-- The members of an object with the closing brace. -/
def readFields : Nat → PyDict → List Char → Option (PyDict × List Char)
  | 0, _, _ => none
  | _ + 1, _, [] => none
  | fuel + 1, d, c :: cs => do
      if c ≠ '"' then none
      else
        let (key, rest) ← scanString (cs.length + 1) cs
        match skipSpace rest with
        | ':' :: rest => do
            let (x, rest) ← readValue fuel (skipSpace rest)
            match skipSpace rest with
            | '\x7d' :: rest => some (d.set key x, rest)
            | ',' :: rest => readFields fuel (d.set key x) (skipSpace rest)
            | _ => none
        | _ => none

end

/-- `json.loads`; a byte-order mark is refused. -/
def loads (text : List Char) : Option PyJson :=
  if text.head? = some '\uFEFF' then none
  else do
    let (value, rest) ← readValue (text.length + 1) (skipSpace text)
    if skipSpace rest = [] then some value else none

end PyJson
