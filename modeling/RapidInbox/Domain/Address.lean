import Mathlib.Data.Char
import Mathlib.Data.List.Infix
import Mathlib.Data.List.Lex
import RapidInbox.Lib.Utf8

/-!
# Mailbox addresses

`cpp/ingestd/src/domain_matcher.cpp` and `app/smtp/matcher.py` both split a mailbox address into a
local part and a normalised ASCII domain.  Texts are lists of characters: an address that is not
valid UTF-8 is refused by both (`utf8_to_uchars`, `str.encode`), so bytes are decoded before they
reach this module and lengths are counted in UTF-8 bytes.

ICU, libunistring and Python's `unicodedata` are outside the repository; what the code asks of them
is the structure `UnicodeOps`, with one value for each language.
-/

namespace RapidInbox

/-- Text that has been decoded from UTF-8. -/
abbrev Text := List Char

instance : LawfulBEq Text := inferInstance

/-- What the code takes from a Unicode library. -/
structure UnicodeOps where
  /-- Full lower-casing of a text (`u8_tolower`, `str.lower`); used on non-ASCII texts only. -/
  toLower : Text → Text
  /-- A non-ASCII code point the local part may not hold: white space, control, format,
      surrogate, private use or unassigned. -/
  forbidden : Char → Bool
  /-- `uidna_IDNToASCII` and the `idna` codec; `none` when the conversion fails. -/
  idnToAscii : Text → Option Text

/-- A library that knows ASCII only: every other code point is forbidden. -/
def UnicodeOps.asciiOnly : UnicodeOps := ⟨id, fun _ => true, fun _ => none⟩

def kMaximumLocalPartBytes : Nat := 64
def kMaximumDomainBytes : Nat := 253
def kMaximumMailboxBytes : Nat := 254

def isAsciiChar (c : Char) : Bool := c.val < 128

/-- `is_ascii_domain`. -/
def isAsciiDomain (t : Text) : Bool := t.all isAsciiChar

/-- White space as `str.strip` and `kUtf8PythonWhitespace` list it. -/
def isPythonWhitespace (c : Char) : Bool :=
  let n := c.toNat
  (0x09 ≤ n && n ≤ 0x0D) || (0x1C ≤ n && n ≤ 0x20) || n == 0x85 || n == 0xA0 || n == 0x1680 ||
    (0x2000 ≤ n && n ≤ 0x200A) || n == 0x2028 || n == 0x2029 || n == 0x202F || n == 0x205F ||
    n == 0x3000

/-- `strip_unicode_whitespace`. -/
def stripUnicodeWhitespace (t : Text) : Text :=
  ((t.dropWhile isPythonWhitespace).reverse.dropWhile isPythonWhitespace).reverse

theorem stripUnicodeWhitespace_eq_self {t : Text} (h : ∀ c ∈ t, isPythonWhitespace c = false) :
    stripUnicodeWhitespace t = t := by
  have hdrop (l : Text) (hl : ∀ c ∈ l, isPythonWhitespace c = false) :
      l.dropWhile isPythonWhitespace = l := by
    cases l with
    | nil => rfl
    | cons c l => exact List.dropWhile_cons_of_neg (by simp [hl c List.mem_cons_self])
  rw [stripUnicodeWhitespace, hdrop t h, hdrop t.reverse fun c hc => h c (List.mem_reverse.mp hc),
    List.reverse_reverse]

/-- Drop every trailing dot. -/
def rstripDots (t : Text) : Text := (t.reverse.dropWhile (· == '.')).reverse

/-- ASCII lower-casing of one character. -/
def asciiLowerChar (c : Char) : Char :=
  if 'A' ≤ c ∧ c ≤ 'Z' then Char.ofNat (c.toNat + 32) else c

/-- `ascii_lower_in_place`. -/
def asciiLower (t : Text) : Text := t.map asciiLowerChar

/-- Lower-casing as both languages do it: ASCII texts need no library. -/
def lowerText (U : UnicodeOps) (t : Text) : Text :=
  if isAsciiDomain t then asciiLower t else U.toLower t

/-- `map_idna_dot_separators`: the three ideographic full stops. -/
def mapIdnaDotSeparators (t : Text) : Text :=
  t.map fun c => if c.toNat == 0x3002 || c.toNat == 0xFF0E || c.toNat == 0xFF61 then '.' else c

/-- A label that is empty or has a hyphen at an edge is refused. -/
def labelEdgesOk (label : Text) : Bool :=
  !label.isEmpty && label.head? != some '-' && label.getLast? != some '-'

/-- `validate_raw_domain_label_edges`. -/
def validateRawDomainLabelEdges (t : Text) : Bool :=
  ((mapIdnaDotSeparators t).splitOn '.').all labelEdgesOk

/-- ASCII letters, digits and the hyphen. -/
def isLabelChar (c : Char) : Bool :=
  ('a' ≤ c && c ≤ 'z') || ('A' ≤ c && c ≤ 'Z') || ('0' ≤ c && c ≤ '9') || c == '-'

/-- One label of `validate_ascii_domain_labels`. -/
def labelOk (label : Text) : Bool :=
  labelEdgesOk label && label.length ≤ 63 && label.all isLabelChar

/-- `validate_ascii_domain_labels`, `_validate_ascii_domain`. -/
def validateAsciiDomainLabels (t : Text) : Bool :=
  t.length ≤ kMaximumDomainBytes && (t.splitOn '.').all labelOk

/-- The last step of both `normalize_domain`s: lower-case and validate an ASCII domain. -/
def finishDomain (t : Text) : Option Text :=
  let lowered := asciiLower t
  if isAsciiDomain t && validateAsciiDomainLabels lowered then some lowered else none

/-- `normalize_domain` of `domain_matcher.cpp`. -/
def normalizeDomainCpp (U : UnicodeOps) (domain : Text) : Option Text :=
  let domain := rstripDots (stripUnicodeWhitespace domain)
  if domain.isEmpty then none
  else if domain = ['*'] then some domain
  else if domain.contains '\x00' then none
  else if !validateRawDomainLabelEdges domain then none
  else if isAsciiDomain domain then finishDomain domain
  else (U.idnToAscii (U.toLower domain)).bind finishDomain

/-- `normalize_domain` of `app/smtp/matcher.py`, which lower-cases before it looks at labels. -/
def normalizeDomainPy (U : UnicodeOps) (domain : Text) : Option Text :=
  let normalized := lowerText U (rstripDots (stripUnicodeWhitespace domain))
  if normalized = ['*'] then some normalized
  else if normalized.isEmpty then none
  else if !validateRawDomainLabelEdges normalized then none
  else if isAsciiDomain normalized then finishDomain normalized
  else (U.idnToAscii normalized).bind finishDomain

/-- What the two matchers need of their language. -/
structure AddressOps where
  unicode : UnicodeOps
  normalizeDomain : Text → Option Text

/-- The address code of the C++ daemon over its Unicode library. -/
def cppAddressOps (U : UnicodeOps) : AddressOps := ⟨U, normalizeDomainCpp U⟩

/-- The address code of the Python service over its Unicode library. -/
def pyAddressOps (U : UnicodeOps) : AddressOps := ⟨U, normalizeDomainPy U⟩

/-- `is_ascii_atext`, `_ASCII_ATEXT`. -/
def isAsciiAtext (c : Char) : Bool :=
  ('A' ≤ c && c ≤ 'Z') || ('a' ≤ c && c ≤ 'z') || ('0' ≤ c && c ≤ '9') ||
    "!#$%&'*+-/=?^_`\x7b|\x7d~".toList.contains c

/-- The scan of `valid_local_part`; `previousDot` is the state between two characters. -/
def localPartScan (U : UnicodeOps) (allowSmtputf8 : Bool) : Bool → Text → Bool
  | _, [] => true
  | previousDot, c :: cs =>
    if !isAsciiChar c then
      allowSmtputf8 && !U.forbidden c && localPartScan U allowSmtputf8 false cs
    else if c = '.' then
      !previousDot && localPartScan U allowSmtputf8 true cs
    else
      isAsciiAtext c && localPartScan U allowSmtputf8 false cs

/-- `valid_local_part`, `_valid_local_part`.  The C++ code asks ICU about every code point of a
    non-ASCII text; an ASCII character that passes the scan is never one ICU refuses. -/
def validLocalPart (U : UnicodeOps) (localPart : Text) (allowSmtputf8 : Bool) : Bool :=
  !localPart.isEmpty && Utf8.size localPart ≤ kMaximumLocalPartBytes &&
    localPart.head? != some '.' && localPart.getLast? != some '.' &&
    localPartScan U allowSmtputf8 false localPart

structure ParsedMailboxAddress where
  localPart : Text
  domainAscii : Text
  deriving DecidableEq, Repr

/-- `parse_mailbox_address` (`domain_matcher.cpp:446-478`, `matcher.py:59-90`). -/
def parseMailboxAddress (A : AddressOps) (address : Text) (allowSmtputf8 : Bool) :
    Option ParsedMailboxAddress :=
  if address.isEmpty || kMaximumMailboxBytes < Utf8.size address then none
  else if address.count '@' ≠ 1 then none
  else
    let localPart := address.takeWhile (· != '@')
    let rawDomain := (address.dropWhile (· != '@')).tail
    if !validLocalPart A.unicode localPart allowSmtputf8 || rawDomain.isEmpty ||
        rawDomain.getLast? == some '.' || stripUnicodeWhitespace rawDomain != rawDomain ||
        (!allowSmtputf8 && !isAsciiDomain rawDomain) then none
    else
      match A.normalizeDomain rawDomain with
      | none => none
      | some domainAscii =>
        if domainAscii = ['*'] ∨ kMaximumDomainBytes < Utf8.size domainAscii ∨
            kMaximumMailboxBytes < Utf8.size localPart + 1 + Utf8.size domainAscii then none
        else some ⟨localPart, domainAscii⟩

/-- The `plus_addressing_mode` column. -/
inductive PlusMode where
  | keep
  | strip
  deriving DecidableEq, Repr

/-- `canonicalize_local_part`; `none` is the exception for an invalid result. -/
def canonicalizeLocalPart (A : AddressOps) (mode : PlusMode) (caseSensitive : Bool)
    (localPart : Text) : Option Text :=
  let stripped :=
    match mode with
    | .strip => localPart.takeWhile (· != '+')
    | .keep => localPart
  let canonical := if caseSensitive then stripped else lowerText A.unicode stripped
  if validLocalPart A.unicode canonical true then some canonical else none

end RapidInbox
