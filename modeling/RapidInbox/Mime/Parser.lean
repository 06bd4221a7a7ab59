import RapidInbox.Mime.Headers

/-!
# The MIME parser

`mime_parser.cpp:343-706, 956-963`: names for attachments without one, the parts of a multipart body,
the columns taken from the top-level headers, the preview, and the recursion over the entities.
-/

namespace RapidInbox
namespace Mime

/-! ## Attachment names -/

def extensionForContentType (contentType : Bytes) : Bytes :=
  let lowered := lowerAscii contentType
  if lowered = ascii "image/png" then ascii ".png"
  else if lowered = ascii "image/jpeg" ∨ lowered = ascii "image/jpg" then ascii ".jpg"
  else if lowered = ascii "image/gif" then ascii ".gif"
  else if lowered = ascii "image/webp" then ascii ".webp"
  else if lowered = ascii "image/svg+xml" then ascii ".svg"
  else if lowered = ascii "text/plain" then ascii ".txt"
  else if lowered = ascii "text/html" then ascii ".html"
  else if lowered = ascii "application/pdf" then ascii ".pdf"
  else []

/-- Each run of bytes that are not safe becomes one dash. -/
def dashUnsafe (previousWasSeparator : Bool) : Bytes → Bytes
  | [] => []
  | ch :: rest =>
    if isSafeFilenameChar ch then ch :: dashUnsafe false rest
    else if previousWasSeparator then dashUnsafe true rest
    else 0x2D :: dashUnsafe true rest

/-- One of `._-`. -/
def isNameSeparator (ch : UInt8) : Bool := ch == 0x2E || ch == 0x5F || ch == 0x2D

def normalizeSynthesizedName (value : Option Bytes) : Bytes :=
  match value with
  | none => []
  | some value =>
    let trimmed := trim value
    let inner :=
      if 2 ≤ trimmed.length ∧ trimmed.head? = some 0x3C ∧ trimmed.getLast? = some 0x3E then
        (trimmed.drop 1).dropLast
      else trimmed
    ((dashUnsafe false inner).dropWhile isNameSeparator).rdropWhile isNameSeparator

def synthesizedAttachmentFilename (partIndex : Nat) (contentType : Bytes) (contentId : Option Bytes) :
    Bytes :=
  let baseName := normalizeSynthesizedName contentId
  let baseName := if baseName = [] then ascii "inline-" ++ Json.decimal partIndex else baseName
  baseName ++ extensionForContentType contentType

/-! ## Multipart bodies -/

/-- The loop of `split_multipart_body` before the first delimiter (`none`) and inside a part
    (`some current`); the result is absent when no delimiter was seen. -/
def collectParts (boundary : Bytes) (current : Option Bytes) :
    List (Bytes × Bool) → Option (List Bytes)
  | [] => current.map fun part => [part]
  | line :: lines =>
    let delimiterLine := trimTrailingLwsp line.1
    let marker := ascii "--" ++ boundary
    if delimiterLine = marker ++ ascii "--" then some current.toList
    else if delimiterLine = marker then
      some (current.toList ++ (collectParts boundary (some []) lines).getD [])
    else collectParts boundary (current.map (· ++ lineText line)) lines

/-- The text of a `ParseFailure`. -/
def invalidBoundary : Bytes := ascii "invalid multipart boundary"

def splitMultipartBody (body boundary : Bytes) : Except Bytes (List Bytes) :=
  match collectParts boundary none (splitLines body) with
  | none => .error invalidBoundary
  | some parts => .ok parts

/-! ## Top-level headers -/

/-- An empty string is no value. -/
def nonempty (value : Bytes) : Option Bytes := if value = [] then none else some value

/-- The bytes before the last `<` and those behind it. -/
def splitLastAngle (value : Bytes) : Option (Bytes × Bytes) :=
  (Lines.split? 0x3C value.reverse).map fun (after, before) => (before.reverse, after.reverse)

/-- `parse_address_header`: the name and the address. -/
def parseAddressHeader (P : MimePlatform) (rawValue : Bytes) : Option Bytes × Option Bytes :=
  let decoded := decodeWords P rawValue
  match (splitLastAngle decoded).bind fun (before, after) =>
      (Lines.split? 0x3E after).map fun (addr, _) => (before, addr) with
  | some (before, addr) =>
    let name := trim before
    let name :=
      if 2 ≤ name.length ∧ name.head? = some 0x22 ∧ name.getLast? = some 0x22 then
        unquoteParameter name
      else name
    (nonempty name, nonempty (trim addr))
  | none =>
    let trimmed := trim decoded
    if 0x40 ∈ trimmed then (none, some trimmed) else (nonempty trimmed, none)

/-- A decoded header that is there and not empty. -/
def topLevelValue (P : MimePlatform) (headers : HeaderBlock) (name : String) : Option Bytes :=
  (decodedHeaderValue P headers (ascii name)).filter fun value => value ≠ []

def assignTopLevelHeaders (P : MimePlatform) (headers : HeaderBlock) (mail : ParsedMail) : ParsedMail :=
  let address := (headerValue headers (ascii "From")).map (parseAddressHeader P)
  { mail with
    headers := headers.map fun h => (h.1, decodeWords P h.2)
    messageIdHeader := (topLevelValue P headers "Message-ID").or mail.messageIdHeader
    subject := (topLevelValue P headers "Subject").or mail.subject
    replyTo := (topLevelValue P headers "Reply-To").or mail.replyTo
    dateHeader := (topLevelValue P headers "Date").or mail.dateHeader
    fromName := (address.map Prod.fst).getD mail.fromName
    fromAddr := (address.map Prod.snd).getD mail.fromAddr }

/-! ## The preview -/

/-- `replace_all` of a non-empty needle; `skip` bytes belong to the last match. -/
def replaceAllFrom (needle replacement : Bytes) : Nat → Bytes → Bytes
  | _, [] => []
  | skip + 1, _ :: rest => replaceAllFrom needle replacement skip rest
  | 0, ch :: rest =>
    if needle.isPrefixOf (ch :: rest) then
      replacement ++ replaceAllFrom needle replacement (needle.length - 1) rest
    else ch :: replaceAllFrom needle replacement 0 rest

def replaceAll (value needle replacement : Bytes) : Bytes := replaceAllFrom needle replacement 0 value

def decodeBasicHtmlEntities (value : Bytes) : Bytes :=
  [("&nbsp;", " "), ("&amp;", "&"), ("&lt;", "<"), ("&gt;", ">"), ("&quot;", "\""), ("&#39;", "'"),
    ("&apos;", "'")].foldl (fun text entity => replaceAll text (ascii entity.1) (ascii entity.2)) value

/-- The loop of `strip_html_tags`. -/
def dropTags (inTag : Bool) : Bytes → Bytes
  | [] => []
  | ch :: rest =>
    if ch = 0x3C then 0x20 :: dropTags true rest
    else if ch = 0x3E then 0x20 :: dropTags false rest
    else if inTag then dropTags true rest
    else ch :: dropTags false rest

def stripHtmlTags (html : Bytes) : Bytes := decodeBasicHtmlEntities (dropTags false html)

def kPreviewMaxBytes : Nat := 200

/-- The loop of `bounded_valid_utf8_preview`, with fuel for the bytes left. -/
def previewFrom (P : MimePlatform) : Nat → Nat → Bytes → Bytes
  | 0, _, _ => []
  | _, _, [] => []
  | fuel + 1, room, ch :: rest =>
    let (codePoint, more) := P.nextOrFffd ch rest
    let encoded := Utf8.encode [codePoint]
    if room < encoded.length then []
    else encoded ++ previewFrom P fuel (room - encoded.length) (rest.drop more)

def boundedValidUtf8Preview (P : MimePlatform) (value : Bytes) : Bytes :=
  let bytes := value.take (2 ^ 31 - 1)
  previewFrom P bytes.length kPreviewMaxBytes bytes

/-- Each run of white space becomes one space; none at the ends. -/
def collapseSpaces (started inWhitespace : Bool) : Bytes → Bytes
  | [] => []
  | ch :: rest =>
    if asciiSpace ch then collapseSpaces started (started || inWhitespace) rest
    else if inWhitespace then 0x20 :: ch :: collapseSpaces true false rest
    else ch :: collapseSpaces true false rest

/-- A byte before which a space is dropped: one of `.,;:!?)]}`. -/
def closesWord (ch : UInt8) : Bool := ch ∈ ascii ".,;:!?)]\x7d"

/-- No space before punctuation. -/
def polish : Bytes → Bytes
  | 0x20 :: ch :: rest => if closesWord ch then ch :: polish rest else 0x20 :: polish (ch :: rest)
  | ch :: rest => ch :: polish rest
  | [] => []

def buildPreview (P : MimePlatform) (mail : ParsedMail) : Option Bytes :=
  let source :=
    if mail.hasText ∧ mail.textBody ≠ [] then mail.textBody
    else if mail.hasHtml ∧ mail.htmlBody ≠ [] then stripHtmlTags mail.htmlBody
    else []
  let collapsed := collapseSpaces false false source
  if collapsed = [] then none else some (boundedValidUtf8Preview P (polish collapsed))

/-! ## Entities -/

structure ParseContext where
  mail : ParsedMail
  nextPartIndex : Nat

/-- What stops the parser: a `ParseFailure`, or the model's fuel. -/
inductive ParseStop where
  | failure (message : Bytes)
  | outOfFuel
  deriving DecidableEq, Repr

def newAttachment (P : MimePlatform) (mail : ParsedMail) (partIndex : Nat) (headers : HeaderBlock)
    (contentType : ParameterizedHeader) (disposition : Option ParameterizedHeader)
    (filename : Option Bytes) (content : Bytes) : ParsedAttachment :=
  let contentId := decodedHeaderValue P headers (ascii "Content-ID")
  let attachmentFilename :=
    filename.getD (synthesizedAttachmentFilename partIndex contentType.value contentId)
  { attachmentId := P.attachmentId mail.attachments.length
    partIndex := partIndex
    filename := some attachmentFilename
    safeFilename := safeFilename attachmentFilename
    contentType := contentType.value
    contentDisposition := disposition.map ParameterizedHeader.value
    contentId := contentId
    storagePath := []
    sha256 := P.sha256Hex content
    content := content
    isInline := (disposition.map ParameterizedHeader.value) = some (ascii "inline") }

/-- `add_attachment` -/
def addAttachment (P : MimePlatform) (mail : ParsedMail) (partIndex : Nat) (headers : HeaderBlock)
    (contentType : ParameterizedHeader) (disposition : Option ParameterizedHeader)
    (filename : Option Bytes) (content : Bytes) : ParsedMail :=
  { mail with attachments := mail.attachments ++
      [newAttachment P mail partIndex headers contentType disposition filename content] }

/-- `parse_entity` of an entity that is not a multipart. -/
def parseLeaf (P : MimePlatform) (headers : HeaderBlock) (contentType : ParameterizedHeader)
    (body : Bytes) (context : ParseContext) : ParseContext :=
  let partIndex := context.nextPartIndex
  let mail := context.mail
  let decodedBody := decodeTransferBody body headers
  let textCharset := (parameterValue contentType (ascii "charset")).getD (ascii "UTF-8")
  let disposition := contentDispositionFor P headers
  let dispositionValue := (disposition.map ParameterizedHeader.value).getD []
  let filename := partFilename contentType disposition
  let contentId := decodedHeaderValue P headers (ascii "Content-ID")
  let shouldAttach := dispositionValue = ascii "attachment" ∨ dispositionValue = ascii "inline" ∨
    contentId.isSome ∨ filename.isSome
  let mail :=
    if dispositionValue ≠ ascii "attachment" ∧ contentType.value = ascii "text/plain" ∧
        mail.hasText = false then
      { mail with textBody := decodeCharset P decodedBody textCharset, hasText := true }
    else if dispositionValue ≠ ascii "attachment" ∧ contentType.value = ascii "text/html" ∧
        mail.hasHtml = false then
      { mail with htmlBody := decodeCharset P decodedBody textCharset, hasHtml := true }
    else if shouldAttach then
      addAttachment P mail partIndex headers contentType disposition filename decodedBody
    else mail
  ⟨mail, partIndex + 1⟩

/-- `parse_entity`; the fuel bounds the depth of the recursion. -/
def parseEntity (P : MimePlatform) :
    Nat → Bytes → ParseContext → Bool → Except ParseStop ParseContext
  | 0, _, _, _ => .error .outOfFuel
  | fuel + 1, entity, context, root =>
    let (headerBlock, body) := splitHeaderBody entity
    let headers := parseHeaders headerBlock
    let context :=
      if root then { context with mail := assignTopLevelHeaders P headers context.mail } else context
    let contentType := contentTypeFor P headers
    if startsWithIgnoreCase contentType.value (ascii "multipart/") then
      match nonemptyParameter contentType (ascii "boundary") with
      | none => .error (.failure invalidBoundary)
      | some boundary =>
        match splitMultipartBody body boundary with
        | .error message => .error (.failure message)
        | .ok parts =>
          parts.foldlM (fun context part => parseEntity P fuel part context false) context
    else .ok (parseLeaf P headers contentType body context)

/-- A default-constructed `ParsedMail`. -/
def emptyMail : ParsedMail where
  messageIdHeader := none
  subject := none
  fromName := none
  fromAddr := none
  replyTo := none
  dateHeader := none
  hasText := false
  hasHtml := false
  hasAttachments := false
  attachmentCount := 0
  textPreview := none
  textBodyPath := none
  htmlBodyPath := none
  textBody := []
  htmlBody := []
  headers := []
  verificationCode := none
  attachments := []

/-- `MimeParser::parse` -/
def parse (P : MimePlatform) (rawMessage : Bytes) : Except ParseStop ParsedMail := do
  let message := normalizeLineEndings rawMessage
  let context ← parseEntity P (message.length + 1) message ⟨emptyMail, 0⟩ true
  let mail :=
    { context.mail with
      hasAttachments := !context.mail.attachments.isEmpty
      attachmentCount := context.mail.attachments.length }
  return { mail with textPreview := buildPreview P mail }

end Mime
end RapidInbox
