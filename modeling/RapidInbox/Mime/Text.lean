import RapidInbox.Ingest.Manifest
import RapidInbox.Ingest.LineReader
import Mathlib.Data.List.DropRight

/-!
# Text utilities of the MIME parser

`cpp/ingestd/src/mime_parser.cpp`: trimming, line endings, the transfer decoders, character sets and
encoded words.  Strings are bytes.  The C++ loops that walk over the lines of a string are recursions
over `splitLines`, which yields the same lines in the same order with the same `has_newline`.
-/

namespace RapidInbox

namespace Mime

/-- A string literal. -/
def ascii (s : String) : Bytes := Json.ascii s.toList

/-- `ascii_space` -/
def asciiSpace (ch : UInt8) : Bool := ch == 0x20 || (0x09 ≤ ch && ch ≤ 0x0D)

/-- Space or tab. -/
def isLwsp (ch : UInt8) : Bool := ch == 0x20 || ch == 0x09

def trim (value : Bytes) : Bytes := (value.dropWhile asciiSpace).rdropWhile asciiSpace

def trimTrailingLwsp (value : Bytes) : Bytes := value.rdropWhile isLwsp

/-- `std::tolower` in the C locale. -/
def toLower (ch : UInt8) : UInt8 := if 0x41 ≤ ch && ch ≤ 0x5A then ch + 32 else ch

def lowerAscii (value : Bytes) : Bytes := value.map toLower

def startsWithIgnoreCase (value start : Bytes) : Bool :=
  start.length ≤ value.length && lowerAscii (value.take start.length) == lowerAscii start

/-! ## Lines -/

def normalizeLineEndings : Bytes → Bytes
  | [] => []
  | [ch] => [if ch = carriageReturn then lineFeed else ch]
  | ch :: next :: rest =>
    if ch = carriageReturn then
      if next = lineFeed then lineFeed :: normalizeLineEndings rest
      else lineFeed :: normalizeLineEndings (next :: rest)
    else ch :: normalizeLineEndings (next :: rest)

/-- The lines of a string, each with whether a newline ends it; the last one has none. -/
def splitLines : Bytes → List (Bytes × Bool)
  | [] => [([], false)]
  | ch :: rest =>
    if ch = lineFeed then ([], true) :: splitLines rest
    else
      match splitLines rest with
      | [] => []
      | (line, hasNewline) :: lines => (ch :: line, hasNewline) :: lines

/-- A line with its newline. -/
def lineText (line : Bytes × Bool) : Bytes := line.1 ++ if line.2 then [lineFeed] else []

/-- The string with these lines. -/
def joinLines (lines : List (Bytes × Bool)) : Bytes := lines.flatMap lineText

/-! ## Transfer encodings -/

def base64Value (ch : UInt8) : Option UInt32 :=
  if 0x41 ≤ ch && ch ≤ 0x5A then some (ch - 0x41).toUInt32
  else if 0x61 ≤ ch && ch ≤ 0x7A then some (ch - 0x61 + 26).toUInt32
  else if 0x30 ≤ ch && ch ≤ 0x39 then some (ch - 0x30 + 52).toUInt32
  else if ch = 0x2B then some 62
  else if ch = 0x2F then some 63
  else none

/-- The loop of `decode_base64`.  `buffer` is never masked and keeps its low 32 bits. -/
def decodeBase64From (buffer : UInt32) (bits : Int) : Bytes → Bytes
  | [] => []
  | ch :: rest =>
    if asciiSpace ch then decodeBase64From buffer bits rest
    else if ch = 0x3D then []
    else
      match base64Value ch with
      | none => decodeBase64From buffer bits rest
      | some decoded =>
        let buffer := (buffer <<< 6) ||| decoded
        let bits := bits + 6
        if 0 ≤ bits then
          (buffer >>> UInt32.ofNat bits.toNat).toUInt8 :: decodeBase64From buffer (bits - 8) rest
        else decodeBase64From buffer bits rest

def decodeBase64 (value : Bytes) : Bytes := decodeBase64From 0 (-8) value

def hexValue (ch : UInt8) : Option UInt8 :=
  if 0x30 ≤ ch && ch ≤ 0x39 then some (ch - 0x30)
  else if 0x61 ≤ ch && ch ≤ 0x66 then some (ch - 0x61 + 10)
  else if 0x41 ≤ ch && ch ≤ 0x46 then some (ch - 0x41 + 10)
  else none

/-- What follows an `=` of quoted-printable text: a soft line break or an escaped byte, with the
    number of bytes it takes; `none` for an `=` that stands for itself. -/
def quotedPrintableEscape : Bytes → Option (Option UInt8 × Nat)
  | [] => none
  | a :: rest =>
    if a = lineFeed then some (none, 1)
    else
      match rest with
      | [] => none
      | b :: _ =>
        if a = carriageReturn ∧ b = lineFeed then some (none, 2)
        else
          match hexValue a, hexValue b with
          | some high, some low => some (some ((high <<< 4) ||| low), 2)
          | _, _ => none

/-- The loop of `decode_quoted_printable`; `skip` bytes belong to the escape before. -/
def decodeQuotedPrintableFrom : Nat → Bytes → Bytes
  | _, [] => []
  | skip + 1, _ :: rest => decodeQuotedPrintableFrom skip rest
  | 0, ch :: rest =>
    if ch ≠ 0x3D then ch :: decodeQuotedPrintableFrom 0 rest
    else
      match quotedPrintableEscape rest with
      | none => ch :: decodeQuotedPrintableFrom 0 rest
      | some (byte, skip) => byte.toList ++ decodeQuotedPrintableFrom skip rest

def decodeQuotedPrintable (value : Bytes) : Bytes := decodeQuotedPrintableFrom 0 value

/-! ## Character sets -/

end Mime

/-- What the parser takes from libraries. -/
structure MimePlatform where
  /-- `iconv` to UTF-8 from a named character set; `none` where it cannot be opened or fails. -/
  iconv : Bytes → Bytes → Option Bytes
  /-- `U8_NEXT_OR_FFFD` of ICU: the code point a non-empty text begins with and how many bytes it
      takes beyond the first. -/
  nextOrFffd : UInt8 → Bytes → Char × Nat
  sha256Hex : Bytes → Text
  /-- `make_prefixed_id("att_")` of the n-th call. -/
  attachmentId : Nat → Text

namespace Mime

def normalizedCharsetName (charset : Bytes) : Bytes :=
  let lowered := lowerAscii (trim charset)
  if lowered = [] ∨ lowered = ascii "utf8" ∨ lowered = ascii "utf-8" ∨ lowered = ascii "us-ascii" ∨
      lowered = ascii "ascii" then ascii "UTF-8"
  else if lowered = ascii "iso-8859-1" ∨ lowered = ascii "latin1" ∨ lowered = ascii "latin-1" ∨
      lowered = ascii "iso8859-1" then ascii "ISO-8859-1"
  else if lowered = ascii "windows-1252" ∨ lowered = ascii "cp1252" then ascii "windows-1252"
  else if lowered = ascii "gbk" ∨ lowered = ascii "cp936" then ascii "GBK"
  else if lowered = ascii "gb2312" then ascii "GB18030"
  else trim charset

def decodeCharset (P : MimePlatform) (bytes charset : Bytes) : Bytes :=
  if bytes = [] ∨ 2 ^ 31 - 1 < bytes.length then bytes
  else if normalizedCharsetName charset = ascii "UTF-8" then bytes
  else (P.iconv (normalizedCharsetName charset) bytes).getD bytes

/-! ## Encoded words -/

/-- The bytes before the first `?=` and those behind it. -/
def splitWordEnd : Bytes → Option (Bytes × Bytes)
  | [] => none
  | [_] => none
  | a :: b :: rest =>
    if a = 0x3F ∧ b = 0x3D then some ([], rest)
    else (splitWordEnd (b :: rest)).map fun (word, after) => (a :: word, after)

/-- `decode_rfc2047_word_at`: the text of the encoded word that begins here and what follows it. -/
def decodeWordAt (P : MimePlatform) : Bytes → Option (Bytes × Bytes)
  | a :: b :: rest =>
    if a = 0x3D ∧ b = 0x3F then do
      let (charset, rest) ← Lines.split? 0x3F rest
      let (encoding, rest) ← Lines.split? 0x3F rest
      let (encoded, rest) ← splitWordEnd rest
      if lowerAscii encoding = ascii "b" then
        some (decodeCharset P (decodeBase64 encoded) charset, rest)
      else if lowerAscii encoding = ascii "q" then
        let spaced := encoded.map fun ch => if ch = 0x5F then 0x20 else ch
        some (decodeCharset P (decodeQuotedPrintable spaced) charset, rest)
      else none
    else none
  | _ => none

/-- The loop of `decode_rfc2047_words`, with fuel for the bytes left: white space between two words
    is dropped. -/
def decodeWordsFrom (P : MimePlatform) : Nat → Bytes → Bytes
  | 0, _ => []
  | _, [] => []
  | fuel + 1, ch :: rest =>
    match decodeWordAt P (ch :: rest) with
    | none => ch :: decodeWordsFrom P fuel rest
    | some (word, after) =>
      let next := after.dropWhile asciiSpace
      if (decodeWordAt P next).isSome then word ++ decodeWordsFrom P fuel next
      else word ++ decodeWordsFrom P fuel after

/-- `decode_rfc2047_words` -/
def decodeWords (P : MimePlatform) (value : Bytes) : Bytes := decodeWordsFrom P value.length value

end Mime
end RapidInbox
