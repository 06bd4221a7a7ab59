import RapidInbox.Ingest.MailJob

/-!
# The parts of a message in Python

`MessageParser._extract_parts` (`app/ingest/parser.py:96-157`) with `safe_filename`
(`app/ingest/storage.py:42-53`).  The parts are those of `email.message.Message.walk`, numbered in
that order; each attachment is written to a file as soon as it is found, also when a later part makes
the parser raise.
-/

namespace RapidInbox

/-- What `_extract_parts` asks a part for. -/
structure WalkedPart where
  isMultipart : Bool
  contentDisposition : Option Text
  contentType : Text
  /-- `get_content`, which may raise. -/
  content : Except Text Text
  filename : Option Text
  /-- `get_payload(decode=True)`. -/
  payload : Option Bytes
  contentId : Option Text

/-- `ParsedAttachment` of `parser.py`. -/
structure ExtractedAttachment where
  attachmentId : Text
  partIndex : Nat
  filename : Text
  safeFilename : Text
  contentType : Text
  contentDisposition : Option Text
  contentId : Option Text
  storagePath : Text
  sizeBytes : Nat
  isInline : Bool
  deriving DecidableEq, Repr

/-- The local variables of the loop, and the exception that ended it. -/
structure ExtractedParts where
  textBody : Option Text
  htmlBody : Option Text
  attachments : List ExtractedAttachment
  raised : Option Text

/-- The characters outside the class of both regular expressions. -/
def isNameChar (c : Char) : Bool :=
  c.isAlphanum || c == '.' || c == '_' || c == '-'

/-- `re.sub(r"[^A-Za-z0-9._-]+", replacement, text)`; the flag says that a run has been replaced. -/
def replaceRuns (replacement : Char) : Bool → Text → Text
  | _, [] => []
  | inRun, c :: cs =>
    if isNameChar c then c :: replaceRuns replacement false cs
    else if inRun then replaceRuns replacement true cs
    else replacement :: replaceRuns replacement true cs

/-- `text.strip(chars)`. -/
def stripChars (chars : List Char) (t : Text) : Text :=
  ((t.dropWhile (chars.contains ·)).reverse.dropWhile (chars.contains ·)).reverse

namespace PythonParser

/-- `os.path.splitext` of a name without leading dots. -/
def splitExtension (name : Text) : Text × Text :=
  if name.contains '.' then
    let extension := '.' :: (name.reverse.takeWhile (· != '.')).reverse
    (name.take (name.length - extension.length), extension)
  else (name, [])

/-- `safe_filename`; what is left of a name is ASCII, so that its bytes are its characters. -/
def safeFilename (filename : Text) : Text :=
  let baseName := if filename.isEmpty then "attachment.bin".toList else filename
  let stripped := stripChars ['.', '_'] (replaceRuns '_' false baseName)
  let cleaned := if stripped.isEmpty then "attachment.bin".toList else stripped
  if cleaned.length ≤ 160 then cleaned
  else
    let suffix := (splitExtension cleaned).2.take 20
    (splitExtension cleaned).1.take (max 1 (160 - suffix.length)) ++ suffix

/-- `_normalize_synthesized_name`. -/
def normalizeSynthesizedName : Option Text → Text
  | none => []
  | some value =>
    stripChars ['.', '_', '-']
      (replaceRuns '-' false (stripChars ['<', '>'] (stripUnicodeWhitespace value)))

section
variable (guessExtension : Text → Option Text) (messageId : Text) (ids : Nat → Text)

/-- `_synthesized_attachment_filename`; the content type is in lower case already. -/
def synthesizedAttachmentFilename (partIndex : Nat) (contentType : Text) (contentId : Option Text) :
    Text :=
  let name := normalizeSynthesizedName contentId
  let baseName := if name.isEmpty then "inline-".toList ++ Nat.toDigits 10 partIndex else name
  baseName ++ (guessExtension (stripUnicodeWhitespace (contentType.takeWhile (· != ';')))).getD []

/-- The name of an attachment; a part that is none has no name. -/
def attachmentName? (partIndex : Nat) (part : WalkedPart) : Option Text :=
  match part.filename with
  | some filename =>
    if filename.isEmpty then synthesized? else some filename
  | none => synthesized?
where
  synthesized? : Option Text :=
    if part.contentDisposition ∉ [some "attachment".toList, some "inline".toList] ∧
        part.contentId = none then none
    else some (synthesizedAttachmentFilename guessExtension partIndex part.contentType part.contentId)

/-- `write_attachment` and the record of what it wrote. -/
def newAttachment (partIndex : Nat) (part : WalkedPart) (filename : Text) (payload : Bytes) :
    ExtractedAttachment where
  attachmentId := ids partIndex
  partIndex := partIndex
  filename := filename
  safeFilename := safeFilename filename
  contentType := part.contentType
  contentDisposition := part.contentDisposition
  contentId := part.contentId
  storagePath := attachmentPath messageId (ids partIndex) (safeFilename filename)
  sizeBytes := payload.length
  isInline := decide (part.contentDisposition = some "inline".toList)

/-- One turn of the loop. -/
def extractPart (partIndex : Nat) (part : WalkedPart) (found : ExtractedParts) : ExtractedParts :=
  if part.isMultipart then found
  else if part.contentDisposition ≠ some "attachment".toList ∧ part.contentType = "text/plain".toList ∧
      found.textBody = none then
    match part.content with
    | .error raised => { found with raised := some raised }
    | .ok text => { found with textBody := some text }
  else if part.contentDisposition ≠ some "attachment".toList ∧ part.contentType = "text/html".toList ∧
      found.htmlBody = none then
    match part.content with
    | .error raised => { found with raised := some raised }
    | .ok html => { found with htmlBody := some html }
  else
    match part.payload, attachmentName? guessExtension partIndex part with
    | some payload, some filename =>
      { found with
        attachments := found.attachments ++ [newAttachment messageId ids partIndex part filename payload] }
    | _, _ => found

/-- The loop from a part on; an exception ends it. -/
def extractFrom : Nat → List WalkedPart → ExtractedParts → ExtractedParts
  | _, [], found => found
  | partIndex, part :: rest, found =>
    let found := extractPart guessExtension messageId ids partIndex part found
    if found.raised.isSome then found else extractFrom (partIndex + 1) rest found

/-- `_extract_parts`. -/
def extractParts (parts : List WalkedPart) : ExtractedParts :=
  extractFrom guessExtension messageId ids 0 parts ⟨none, none, [], none⟩

variable {guessExtension messageId ids}

/-- What a turn of the loop adds to the attachments. -/
theorem extractPart_attachments (partIndex : Nat) (part : WalkedPart) (found : ExtractedParts) :
    (extractPart guessExtension messageId ids partIndex part found).attachments = found.attachments ∨
      ∃ filename payload,
        (extractPart guessExtension messageId ids partIndex part found).attachments =
          found.attachments ++ [newAttachment messageId ids partIndex part filename payload] := by
  unfold extractPart
  split
  · exact .inl rfl
  · split
    · cases part.content <;> exact .inl rfl
    · split
      · cases part.content <;> exact .inl rfl
      · split
        · rename_i payload filename _ _
          exact .inr ⟨filename, payload, rfl⟩
        · exact .inl rfl

/-- The attachments are numbered in order, and are named by their number. -/
structure Numbered (messageId : Text) (ids : Nat → Text) (limit : Nat)
    (attachments : List ExtractedAttachment) : Prop where
  increasing : (attachments.map ExtractedAttachment.partIndex).Pairwise (· < ·)
  named : ∀ a ∈ attachments, a.partIndex < limit ∧ a.attachmentId = ids a.partIndex ∧
    a.storagePath = attachmentPath messageId a.attachmentId a.safeFilename

theorem Numbered.extractPart {limit : Nat} {found : ExtractedParts}
    (h : Numbered messageId ids limit found.attachments) (part : WalkedPart) :
    Numbered messageId ids (limit + 1)
      (extractPart guessExtension messageId ids limit part found).attachments := by
  have hbefore : ∀ a ∈ found.attachments, a.partIndex < limit + 1 ∧
      a.attachmentId = ids a.partIndex ∧
      a.storagePath = attachmentPath messageId a.attachmentId a.safeFilename := by
    intro a ha
    obtain ⟨hlt, hnamed⟩ := h.named a ha
    exact ⟨Nat.lt_succ_of_lt hlt, hnamed⟩
  rcases @extractPart_attachments guessExtension messageId ids limit part found with heq | ⟨filename, payload, heq⟩
  · rw [heq]
    exact ⟨h.increasing, hbefore⟩
  · rw [heq]
    refine ⟨?_, ?_⟩
    · rw [List.map_append, List.pairwise_append]
      refine ⟨h.increasing, List.pairwise_singleton _ _, ?_⟩
      intro i hi j hj
      obtain ⟨a, ha, rfl⟩ := List.mem_map.mp hi
      rw [List.mem_singleton.mp hj]
      exact (h.named a ha).1
    · intro a ha
      rcases List.mem_append.mp ha with ha | ha
      · exact hbefore a ha
      · rw [List.mem_singleton.mp ha]
        exact ⟨Nat.lt_succ_self _, rfl, rfl⟩

theorem extractFrom_numbered {parts : List WalkedPart} {limit : Nat} {found : ExtractedParts}
    (h : Numbered messageId ids limit found.attachments) :
    ∃ limit', Numbered messageId ids limit'
      (extractFrom guessExtension messageId ids limit parts found).attachments := by
  induction parts generalizing limit found with
  | nil => exact ⟨limit, h⟩
  | cons part rest ih =>
    have hpart := @Numbered.extractPart guessExtension messageId ids _ _ h part
    unfold extractFrom
    dsimp only
    split
    · exact ⟨limit + 1, hpart⟩
    · exact ih hpart

theorem extractParts_numbered (parts : List WalkedPart) : ∃ limit, Numbered messageId ids limit
    (extractParts guessExtension messageId ids parts).attachments :=
  extractFrom_numbered ⟨List.Pairwise.nil, nofun⟩

end
end PythonParser
end RapidInbox
