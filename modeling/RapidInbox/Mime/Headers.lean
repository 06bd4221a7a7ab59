import RapidInbox.Mime.Text

/-!
# Headers of an entity

`mime_parser.cpp:110-341`: where the headers end, folded lines, and values with parameters.
-/

namespace RapidInbox
namespace Mime

/-- `HeaderBlock::ordered` -/
abbrev HeaderBlock := List (Bytes × Bytes)

/-- The loop of `split_header_body`: everything before the first blank line and behind it. -/
def splitAtBlankLine : List (Bytes × Bool) → Bytes × Bytes
  | [] => ([], [])
  | line :: lines =>
    if trim line.1 = [] then ([], joinLines lines)
    else
      let (header, body) := splitAtBlankLine lines
      (lineText line ++ header, body)

def splitHeaderBody (message : Bytes) : Bytes × Bytes := splitAtBlankLine (splitLines message)

/-- `trim(name), trim(value)` at the first colon of a line. -/
def headerField (line : Bytes) : Option (Bytes × Bytes) :=
  (Lines.split? 0x3A line).map fun (name, value) => (trim name, trim value)

/-- The loop of `parse_headers`; `current` is the field that a folded line would continue. -/
def headerFields (current : Option (Bytes × Bytes)) : List (Bytes × Bool) → HeaderBlock
  | [] => current.toList
  | (line, _) :: lines =>
    match line, current with
    | [], current => current.toList
    | ch :: text, some field =>
      if isLwsp ch then
        let unfolded := trim (ch :: text)
        if unfolded = [] then headerFields (some field) lines
        else headerFields (some (field.1, field.2 ++ 0x20 :: unfolded)) lines
      else field :: headerFields (headerField (ch :: text)) lines
    | ch :: text, none => headerFields (headerField (ch :: text)) lines

def parseHeaders (headerBlock : Bytes) : HeaderBlock := headerFields none (splitLines headerBlock)

def headerValue (headers : HeaderBlock) (name : Bytes) : Option Bytes :=
  (headers.find? fun h => lowerAscii h.1 = lowerAscii name).map Prod.snd

def decodedHeaderValue (P : MimePlatform) (headers : HeaderBlock) (name : Bytes) : Option Bytes :=
  (headerValue headers name).map (decodeWords P)

/-! ## Parameters -/

structure ParameterizedHeader where
  value : Bytes
  params : List (Bytes × Bytes)
  deriving DecidableEq, Repr

/-- Put a byte in front of the first segment. -/
def consFirst (ch : UInt8) : List Bytes → List Bytes
  | [] => [[ch]]
  | segment :: segments => (ch :: segment) :: segments

/-- The loop of `split_parameter_segments`: cut at the semicolons outside quotes. -/
def rawSegments (quoted escaped : Bool) : Bytes → List Bytes
  | [] => [[]]
  | ch :: rest =>
    if escaped then consFirst ch (rawSegments quoted false rest)
    else if quoted && ch = 0x5C then consFirst ch (rawSegments quoted true rest)
    else if ch = 0x22 then consFirst ch (rawSegments (!quoted) false rest)
    else if !quoted && ch = 0x3B then [] :: rawSegments quoted false rest
    else consFirst ch (rawSegments quoted false rest)

def splitParameterSegments (value : Bytes) : List Bytes := (rawSegments false false value).map trim

/-- The loop of `unquote_parameter` between the quotes. -/
def unescape (escaped : Bool) : Bytes → Bytes
  | [] => if escaped then [0x5C] else []
  | ch :: rest =>
    if escaped then ch :: unescape false rest
    else if ch = 0x5C then unescape true rest
    else ch :: unescape false rest

def unquoteParameter (value : Bytes) : Bytes :=
  let trimmed := trim value
  if trimmed.length < 2 ∨ trimmed.head? ≠ some 0x22 ∨ trimmed.getLast? ≠ some 0x22 then trimmed
  else unescape false (trimmed.drop 1).dropLast

/-- One segment behind the first: a key and a decoded value, or nothing. -/
def parseParameter (P : MimePlatform) (segment : Bytes) : Option (Bytes × Bytes) := do
  let (key, value) ← Lines.split? 0x3D segment
  let key := lowerAscii (trim key)
  if key = [] then none else some (key, decodeWords P (unquoteParameter value))

def parseParameterizedHeader (P : MimePlatform) (rawValue : Bytes) : ParameterizedHeader :=
  match splitParameterSegments rawValue with
  | [] => ⟨[], []⟩
  | value :: segments => ⟨lowerAscii (trim value), segments.filterMap (parseParameter P)⟩

def parameterValue (header : ParameterizedHeader) (name : Bytes) : Option Bytes :=
  (header.params.find? fun p => p.1 = lowerAscii name).map Prod.snd

def contentTypeFor (P : MimePlatform) (headers : HeaderBlock) : ParameterizedHeader :=
  let parsed := parseParameterizedHeader P
    ((headerValue headers (ascii "Content-Type")).getD (ascii "text/plain"))
  if parsed.value = [] then { parsed with value := ascii "text/plain" } else parsed

def contentDispositionFor (P : MimePlatform) (headers : HeaderBlock) : Option ParameterizedHeader :=
  match headerValue headers (ascii "Content-Disposition") with
  | none => none
  | some rawValue =>
    let parsed := parseParameterizedHeader P rawValue
    if parsed.value = [] then none else some parsed

/-- A parameter that is there and not empty. -/
def nonemptyParameter (header : ParameterizedHeader) (name : Bytes) : Option Bytes :=
  (parameterValue header name).filter fun value => value ≠ []

def partFilename (contentType : ParameterizedHeader) (disposition : Option ParameterizedHeader) :
    Option Bytes :=
  (disposition.bind fun d => nonemptyParameter d (ascii "filename")).or
    (nonemptyParameter contentType (ascii "name"))

def decodeTransferBody (body : Bytes) (headers : HeaderBlock) : Bytes :=
  let encoding := lowerAscii (trim ((headerValue headers (ascii "Content-Transfer-Encoding")).getD []))
  if encoding = ascii "base64" then decodeBase64 body
  else if encoding = ascii "quoted-printable" then decodeQuotedPrintable body
  else body

end Mime
end RapidInbox
