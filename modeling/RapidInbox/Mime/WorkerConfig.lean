import RapidInbox.Ingest.Worker
import RapidInbox.Mime.ParseBounds

/-!
# The parser of the writer threads

`BatchWriter::write_batch` calls `MimeParser::parse` and looks for a verification code
(`batch_writer.cpp:1958-1977`); `prepare_parsed_artifact_metadata` (`batch_writer.cpp:404-425`) then
names the files.
-/

namespace RapidInbox
namespace Mime

variable {P : MimePlatform} {code : ParsedMail → Option Bytes}

/-- The parse result of one job; `parse_bounds` excludes the last case. -/
def parseResult (P : MimePlatform) (code : ParsedMail → Option Bytes) (rawMessage : Bytes) :
    ParseResult :=
  match parse P rawMessage with
  | .ok mail => .parsed { mail with verificationCode := code mail }
  | .error (.failure message) => .failed message
  | .error .outOfFuel => .failed []

theorem parse_of_parseResult {rawMessage : Bytes} {mail : ParsedMail}
    (h : parseResult P code rawMessage = .parsed mail) :
    ∃ found, parse P rawMessage = .ok found ∧ mail = { found with verificationCode := code found } := by
  unfold parseResult at h
  split at h
  · rename_i found hparse
    cases h
    exact ⟨found, hparse, rfl⟩
  · cases h
  · cases h

theorem visit_paths (context : ParseContext) (leaf : EntityLeaf) :
    (leaf.visit P context).mail.textBodyPath = context.mail.textBodyPath ∧
      (leaf.visit P context).mail.htmlBodyPath = context.mail.htmlBodyPath := by
  rw [EntityLeaf.visit, parseLeaf]
  dsimp only
  split
  · exact ⟨rfl, rfl⟩
  · split
    · exact ⟨rfl, rfl⟩
    · split <;> exact ⟨rfl, rfl⟩

theorem foldl_visit_paths (leaves : List EntityLeaf) (context : ParseContext) :
    (leaves.foldl (EntityLeaf.visit P) context).mail.textBodyPath = context.mail.textBodyPath ∧
      (leaves.foldl (EntityLeaf.visit P) context).mail.htmlBodyPath = context.mail.htmlBodyPath := by
  induction leaves generalizing context with
  | nil => exact ⟨rfl, rfl⟩
  | cons leaf leaves ih =>
    obtain ⟨htext, hhtml⟩ := visit_paths (P := P) context leaf
    rw [List.foldl_cons]
    exact ⟨(ih _).1.trans htext, (ih _).2.trans hhtml⟩

/-- The parser writes no file and names none. -/
theorem parse_paths {rawMessage : Bytes} {mail : ParsedMail} (h : parse P rawMessage = .ok mail) :
    mail.textBodyPath = none ∧ mail.htmlBodyPath = none := by
  rw [parse] at h
  cases hentity : parseEntity P ((normalizeLineEndings rawMessage).length + 1)
      (normalizeLineEndings rawMessage) ⟨emptyMail, 0⟩ true with
  | error stop =>
    simp only [hentity] at h
    cases h
  | ok context =>
    simp only [hentity] at h
    cases h
    rw [parseEntity_eq_ok hentity]
    exact foldl_visit_paths _ _

/-- What a writer thread of this platform needs. -/
def workerConfig (P : MimePlatform) (code : ParsedMail → Option Bytes)
    (ingestBatchMaxMessages ingestMaxRetries : Nat) : Worker.Config where
  sha256Hex := P.sha256Hex
  parseMessage := parseResult P code
  paths_unset _ _ h := by
    obtain ⟨found, hparse, rfl⟩ := parse_of_parseResult h
    have hpaths := parse_paths hparse
    exact hpaths
  ingestBatchMaxMessages := ingestBatchMaxMessages
  ingestMaxRetries := ingestMaxRetries

end Mime

namespace Worker

/-- The parser numbers the attachments of a message apart. -/
def Config.NumbersParts (C : Config) : Prop :=
  ∀ raw mail, C.parseMessage raw = .parsed mail → (mail.attachments.map (·.partIndex)).Nodup

theorem numbersParts_workerConfig (P : MimePlatform) (code : ParsedMail → Option Bytes)
    (maxMessages maxRetries : Nat) :
    (Mime.workerConfig P code maxMessages maxRetries).NumbersParts := by
  intro raw mail h
  obtain ⟨found, hparse, rfl⟩ := Mime.parse_of_parseResult h
  have hbounds := Mime.parse_bounds P raw
  have hincreasing := (hbounds.2.2.2 found hparse).1
  exact hincreasing.imp fun hlt => Nat.ne_of_lt hlt

/-- The file of an attachment is named by the message and the attachment. -/
def PathNamed (messageId : Text) (a : ParsedAttachment) : Prop :=
  a.storagePath = attachmentPath messageId a.attachmentId a.safeFilename

variable {C : Config} {job : MailJob} {mail : ParsedMail}

/-- What the metadata of a parsed job says about its attachments. -/
theorem prepareParsedArtifactMetadata_attachments :
    (prepareParsedArtifactMetadata C job mail).attachmentCount =
        (prepareParsedArtifactMetadata C job mail).attachments.length ∧
      (prepareParsedArtifactMetadata C job mail).attachments.map (·.partIndex) =
        mail.attachments.map (·.partIndex) ∧
      ∀ a ∈ (prepareParsedArtifactMetadata C job mail).attachments, PathNamed job.messageId a := by
  refine ⟨rfl, ?_, ?_⟩
  · unfold prepareParsedArtifactMetadata
    rw [List.map_map]
    rfl
  · intro a ha
    obtain ⟨b, -, rfl⟩ := List.mem_map.mp ha
    rfl

end Worker
end RapidInbox
