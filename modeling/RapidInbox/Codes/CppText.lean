import RapidInbox.Codes.Candidate
import RapidInbox.Mime.Parser

/-!
# The text of a mail in C++

`verification_code.cpp:30-486`: white space, HTML, and the tokens that are blanked out before codes are
looked for.  The loops that blank parts of a string in place are one loop with a parameter.
-/

namespace RapidInbox
namespace CppCode

open Mime (asciiSpace trim toLower lowerAscii ascii)

def asciiDigit (ch : UInt8) : Bool := 0x30 ≤ ch && ch ≤ 0x39

/-- `std::isalnum` in the C locale. -/
def asciiAlnum (ch : UInt8) : Bool :=
  asciiDigit ch || (0x41 ≤ ch && ch ≤ 0x5A) || (0x61 ≤ ch && ch ≤ 0x7A)

/-- The bytes of a literal. -/
def utf8 (s : String) : Bytes := Utf8.encode s.toList

/-! ## White space -/

/-- The loop is that of the preview: a run of spaces is one, and none stands at the ends. -/
def normalizeWhitespace (source : Bytes) : Bytes := Mime.collapseSpaces false false source

/-- The loop of `normalize_body_text`.  The line feed behind a carriage return is skipped there; as a
    line end of its own it sets the flags to what they are already. -/
def normalizeBodyFrom (normalized : Bytes) (pendingSpace pendingNewline : Bool) : Bytes → Bytes
  | [] => normalized
  | ch :: rest =>
    if ch = 0x0D ∨ ch = 0x0A then normalizeBodyFrom normalized false (!normalized.isEmpty) rest
    else if ch = 0x20 ∨ ch = 0x09 ∨ ch = 0x0C ∨ ch = 0x0B then
      normalizeBodyFrom normalized (!normalized.isEmpty) pendingNewline rest
    else if pendingNewline then
      let ended := normalized.isEmpty || normalized.getLast? == some 0x0A
      normalizeBodyFrom ((if ended then normalized else normalized ++ [0x0A]) ++ [ch]) false false rest
    else if pendingSpace then normalizeBodyFrom (normalized ++ [0x20, ch]) false false rest
    else normalizeBodyFrom (normalized ++ [ch]) false false rest

def normalizeBodyText (source : Bytes) : Bytes := trim (normalizeBodyFrom [] false false source)

/-! ## HTML -/

/-- `append_utf8`; a surrogate and what is no code point add nothing. -/
def appendUtf8 (codepoint : Nat) : Bytes :=
  if codepoint.isValidChar then Utf8.encode [Char.ofNat codepoint] else []

def decimalValue? (ch : UInt8) : Option Nat := if asciiDigit ch then some (ch - 0x30).toNat else none

def hexValue? (ch : UInt8) : Option Nat := (Mime.hexValue ch).map UInt8.toNat

/-- The digits of a numeric entity up to its semicolon: the code point, unless it overflows an `int`,
    and the number of bytes. -/
def entityDigits (base : Nat) (digit? : UInt8 → Option Nat) :
    Nat → Bool → Bytes → Option (Nat × Nat)
  | _, _, [] => none
  | codepoint, hasDigit, ch :: rest =>
    if ch = 0x3B then if hasDigit then some (codepoint, 1) else none
    else
      match digit? ch with
      | none => none
      | some digit =>
        if (2 ^ 31 - 1 - digit) / base < codepoint then none
        else
          (entityDigits base digit? (codepoint * base + digit) true rest).map fun found =>
            (found.1, found.2 + 1)

/-- A numeric entity at the beginning of a text: its code point and its length. -/
def numericEntity? (text : Bytes) : Option (Nat × Nat) :=
  if text.take 2 ≠ ascii "&#" ∨ text.length ≤ 3 then none
  else if 4 < text.length ∧ (text[2]? = some 0x78 ∨ text[2]? = some 0x58) then
    (entityDigits 16 hexValue? 0 false (text.drop 3)).map fun found => (found.1, found.2 + 3)
  else (entityDigits 10 decimalValue? 0 false (text.drop 2)).map fun found => (found.1, found.2 + 2)

/-- The second loop of `decode_basic_html_entities`; `skip` bytes belong to the entity before. -/
def decodeNumericEntities : Nat → Bytes → Bytes
  | _, [] => []
  | skip + 1, _ :: rest => decodeNumericEntities skip rest
  | 0, ch :: rest =>
    match numericEntity? (ch :: rest) with
    | some (codepoint, width) => appendUtf8 codepoint ++ decodeNumericEntities (width - 1) rest
    | none => ch :: decodeNumericEntities 0 rest

def decodeBasicHtmlEntities (value : Bytes) : Bytes :=
  decodeNumericEntities 0 (Mime.replaceAll (Mime.decodeBasicHtmlEntities value) (ascii "&mdash;") [0x2D])

def tagNameMatches (tag wanted : Bytes) : Bool :=
  let name := (if tag.head? = some 0x2F then tag.drop 1 else tag).dropWhile asciiSpace
  wanted.length ≤ name.length && lowerAscii (name.take wanted.length) == wanted &&
    match name[wanted.length]? with
    | none => true
    | some next => asciiSpace next || next == 0x3E || next == 0x2F

def blockTags : List Bytes :=
  ["p", "div", "h1", "h2", "h3", "h4", "h5", "h6", "li", "ul", "ol", "tr", "td", "th", "table", "br",
    "hr", "blockquote", "article", "section"].map ascii

def isBlockTag (tag : Bytes) : Bool := blockTags.any (tagNameMatches tag)

/-- The loop of `html_to_text`; `skip` bytes belong to the tag before. -/
def htmlToTextFrom : Nat → Bytes → Bytes
  | _, [] => []
  | skip + 1, _ :: rest => htmlToTextFrom skip rest
  | 0, ch :: rest =>
    if ch ≠ 0x3C then ch :: htmlToTextFrom 0 rest
    else
      match Lines.split? 0x3E rest with
      | none => [0x20]
      | some (tag, after) =>
        let script := tagNameMatches tag (ascii "script")
        if script || tagNameMatches tag (ascii "style") then
          let closeTag := if script then ascii "</script>" else ascii "</style>"
          match Search.find? closeTag (lowerAscii after) with
          | none => []
          | some close =>
            0x20 :: htmlToTextFrom (tag.length + 1 + close + closeTag.length) rest
        else
          (if isBlockTag tag then 0x0A else 0x20) :: htmlToTextFrom (tag.length + 1) rest

def htmlToText (source : Bytes) : Bytes := decodeBasicHtmlEntities (htmlToTextFrom 0 source)

/-! ## Blanking -/

/-- A loop that writes blanks over what `width?` finds, given the byte before.  `keep` bytes behind it
    are not looked at, where the loop sets its index to the end and then adds one. -/
def blankFrom (width? : Option UInt8 → Bytes → Option Nat) (keep : Nat) :
    Nat → Nat → Option UInt8 → Bytes → Bytes
  | _, _, _, [] => []
  | blanks + 1, kept, _, ch :: rest => 0x20 :: blankFrom width? keep blanks kept (some ch) rest
  | 0, kept + 1, _, ch :: rest => ch :: blankFrom width? keep 0 kept (some ch) rest
  | 0, 0, before, ch :: rest =>
    match width? before (ch :: rest) with
    | some width => 0x20 :: blankFrom width? keep (width - 1) keep (some ch) rest
    | none => ch :: blankFrom width? keep 0 0 (some ch) rest

def blank (width? : Option UInt8 → Bytes → Option Nat) (keep : Nat) (value : Bytes) : Bytes :=
  blankFrom width? keep 0 0 none value

/-- The bytes up to the next white space. -/
def token (text : Bytes) : Bytes := text.takeWhile fun ch => !asciiSpace ch

def urlWidth? (_ : Option UInt8) (text : Bytes) : Option Nat :=
  if (ascii "http://").isPrefixOf (lowerAscii text) ∨ (ascii "https://").isPrefixOf (lowerAscii text) then
    some (token text).length
  else none

def blankUrls : Bytes → Bytes := blank urlWidth? 0

def currencyMarkers : List Bytes := ["$", "¥", "￥", "€", "£"].map utf8

def currencyMarkerAt (text : Bytes) : Option Nat :=
  (currencyMarkers.find? (·.isPrefixOf text)).map List.length

/-- A marker, spaces, and digits with commas and points. -/
def currencyWidth? (_ : Option UInt8) (text : Bytes) : Option Nat :=
  (currencyMarkerAt text).bind fun markerWidth =>
    let spaces := ((text.drop markerWidth).takeWhile asciiSpace).length
    let amount := (text.drop (markerWidth + spaces)).takeWhile fun ch =>
      asciiDigit ch || ch == 0x2C || ch == 0x2E
    if amount.any asciiDigit then some (markerWidth + spaces + amount.length) else none

def blankCurrencyValues : Bytes → Bytes := blank currencyWidth? 1

def dateSeparator (ch : UInt8) : Bool := ch == 0x2D || ch == 0x2F

/-- `parse_four_digit_year`, and the code's bounds. -/
def isYear (value : Bytes) : Bool :=
  let year := value.foldl (fun year ch => year * 10 + (ch - 0x30).toNat) 0
  value.length == 4 && value.all asciiDigit && decide (1900 ≤ year) && decide (year ≤ 2099)

/-- `consume_date_component`: one or two digits. -/
def dateComponent (text : Bytes) : Nat := ((text.take 2).takeWhile asciiDigit).length

def dateWidth? (before : Option UInt8) (text : Bytes) : Option Nat :=
  let month := dateComponent (text.drop 5)
  let day := dateComponent (text.drop (6 + month))
  if before.any asciiAlnum ∨ text.length ≤ 7 ∨ isYear (text.take 4) = false then none
  else if text[4]?.any dateSeparator = false ∨ month = 0 then none
  else if text[5 + month]?.any dateSeparator = false ∨ day = 0 then none
  else if text[6 + month + day]?.any asciiAlnum then none
  else some (6 + month + day)

def blankDateValues : Bytes → Bytes := blank dateWidth? 1

/-- An `@`, and a point behind it. -/
def tokenHasEmailShape (token : Bytes) : Bool :=
  (token.dropWhile (· != 0x40)).contains 0x2E

def tokenHasCurrencyMarker (token : Bytes) : Bool := Search.containsAny currencyMarkers token

/-- At the beginning of a token that is an address or has a currency sign. -/
def tokenWidth? (before : Option UInt8) (text : Bytes) : Option Nat :=
  if before.all asciiSpace && !(token text).isEmpty &&
      (tokenHasEmailShape (token text) || tokenHasCurrencyMarker (token text)) then
    some (token text).length
  else none

/-- At the beginning of nine digits or more. -/
def longDigitsWidth? (before : Option UInt8) (text : Bytes) : Option Nat :=
  let run := text.takeWhile asciiDigit
  if before.any asciiDigit ∨ run.length < 9 then none else some run.length

def stripIrrelevantTokens (text : Bytes) : Bytes :=
  normalizeBodyText (blank longDigitsWidth? 0 (blank tokenWidth? 0
    (blankDateValues (blankCurrencyValues (blankUrls text)))))

end CppCode
end RapidInbox
