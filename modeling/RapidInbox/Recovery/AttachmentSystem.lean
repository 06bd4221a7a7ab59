import RapidInbox.Ingest.ExtractParts
import RapidInbox.Mime.WorkerConfig
import RapidInbox.Store.AttachmentRows

/-!
# Attachments, their rows and their files

Three writers share the rows of `attachments` and the files they name: the daemon
(`batch_writer.cpp:1114-1143` and the commit), the recovery passes, which keep the manifests they have
read until they replay them (`recovery.py:226-274, 576-658`), and `_parse_message`
(`runtime.py:3815-3848, 3996-4001`), which unlinks the files of the rows it has replaced.  Each write of
a file and each transaction is a step of its own, so that a crash is a step between two others.
-/

namespace RapidInbox

/-- What a row or a manifest says about the file of an attachment. -/
structure AttachmentReference where
  id : Text
  partIndex : Nat
  storagePath : Text
  deriving DecidableEq, Repr

def ParsedAttachment.reference (a : ParsedAttachment) : AttachmentReference :=
  ⟨a.attachmentId, a.partIndex, a.storagePath⟩

def RecoveryAttachment.reference (a : RecoveryAttachment) : AttachmentReference :=
  ⟨a.id, a.partIndex, a.storagePath⟩

def ExtractedAttachment.reference (a : ExtractedAttachment) : AttachmentReference :=
  ⟨a.attachmentId, a.partIndex, a.storagePath⟩

def AttachmentRow.reference (a : AttachmentRow) : AttachmentReference :=
  ⟨a.id, a.partIndex, a.storagePath⟩

/-- The row `_apply_parsed_message` inserts. -/
def ExtractedAttachment.row (messageId : Text) (createdAt : Timestamp) (a : ExtractedAttachment) :
    AttachmentRow :=
  { id := a.attachmentId
    messageId := messageId
    partIndex := a.partIndex
    filename := some (Utf8.encode a.filename)
    safeFilename := a.safeFilename
    contentType := Utf8.encode a.contentType
    contentDisposition := a.contentDisposition.map Utf8.encode
    contentId := a.contentId.map Utf8.encode
    storagePath := a.storagePath
    sha256 := none
    sizeBytes := a.sizeBytes
    isInline := a.isInline
    createdAt := createdAt }

/-! ## Manifests on disk -/

/-- The member `parsed` that a reader finds in the manifest of a parse result. -/
def RecoveryParsed.Reads : RecoveryParsed → Option ParseResult → Prop
  | .pending, none => True
  | .failed _, some (.failed _) => True
  | .parsed c, some (.parsed p) =>
    c.attachmentCount = p.attachmentCount ∧
      c.attachments.map RecoveryAttachment.reference = p.attachments.map ParsedAttachment.reference
  | _, _ => False

instance (parsed : RecoveryParsed) (result : Option ParseResult) : Decidable (parsed.Reads result) :=
  match parsed, result with
  | .pending, none => isTrue trivial
  | .failed _, some (.failed _) => isTrue trivial
  | .parsed _, some (.parsed _) => inferInstanceAs (Decidable (_ ∧ _))
  | .pending, some _ => isFalse id
  | .failed _, none => isFalse id
  | .failed _, some (.parsed _) => isFalse id
  | .parsed _, none => isFalse id
  | .parsed _, some (.failed _) => isFalse id

/-- A reader finds this in the manifest of a job. -/
def RecoveryManifest.Reads (f : RecoveryManifest) (job : MailJob) (result : Option ParseResult) :
    Prop :=
  f.messageId = job.messageId ∧ f.receivedAt = job.receivedAt ∧ f.rawPath = job.rawPath ∧
    f.recipients = .receipts (job.recipients.map RecipientDelivery.receipt) ∧ f.parsed.Reads result

instance (f : RecoveryManifest) (job : MailJob) (result : Option ParseResult) :
    Decidable (f.Reads job result) :=
  inferInstanceAs (Decidable (_ ∧ _ ∧ _ ∧ _ ∧ _))

/-! ## The state -/

/-- A job of the daemon, its parse result, and what the current attempt has written. -/
structure IngestJob where
  job : MailJob
  result : ParseResult
  written : List Text
  manifestWritten : Bool
  deriving DecidableEq, Repr

/-- Where `_parse_message` is: it has written so many files of the attachments it found, or it has
    these files left to unlink. -/
inductive ParsePhase where
  | extracting (attachments : List ExtractedAttachment) (raised : Option Text) (written : Nat)
  | unlinking (paths : List Text)
  deriving DecidableEq, Repr

structure ParseWork where
  messageId : Text
  phase : ParsePhase
  deriving DecidableEq, Repr

/-- The store, the attachment files, and what the two processes have in memory.  `issued` lists every
    attachment id that was ever drawn with its message. -/
structure AttachmentState where
  db : Db
  files : List Text
  issued : List (Text × Text)
  manifests : List (MailJob × Option ParseResult)
  held : List RecoveryManifest
  jobs : List IngestJob
  parses : List ParseWork

inductive AttachmentAction where
  /-- The daemon takes a message and parses it. -/
  | takeJob (job : MailJob)
  /-- `write_pending_artifacts` -/
  | writePending (i : Nat)
  /-- One file of `write_parsed_artifacts`. -/
  | writeArtifact (i : Nat) (path : Text)
  /-- The manifest that replaces the pending one. -/
  | writeFinal (i : Nat)
  /-- `write_sqlite_records` of the jobs at these places. -/
  | commit (places : List Nat)
  /-- Another attempt. -/
  | retry (i : Nat)
  /-- The job is done or given up. -/
  | endJob (i : Nat)
  | daemonCrash
  /-- A recovery pass reads a manifest. -/
  | scan (manifest : RecoveryManifest)
  /-- It replays one that it has read. -/
  | replay (i : Nat) (deliveryIds : Nat → Text)
  | beginParse (messageId : Text) (ids : Nat → Text) (parts : List WalkedPart)
  /-- `write_attachment` -/
  | writePart (messageId : Text)
  /-- `_apply_parsed_message`, with the columns that say nothing about attachments. -/
  | applyParsed (messageId : Text) (columns : MessageContent) (createdAt : Timestamp)
  /-- `_mark_message_parse_failed` -/
  | parseFailed (messageId : Text) (error : Bytes) (indexedAt : Timestamp)
  /-- One path of `_delete_attachment_files`. -/
  | unlink (messageId : Text)
  | endParse (messageId : Text)
  | runtimeCrash
  /-- `MessageService.reparse` -/
  | requeue (messageId : Text)
  /-- Any write that leaves the messages and the attachments alone. -/
  | other (w : MailWrite)

namespace AttachmentState

/-- A message has a row. -/
def Present (s : AttachmentState) (messageId : Text) : Prop := ∃ m ∈ s.db.messages, m.id = messageId

instance (s : AttachmentState) (messageId : Text) : Decidable (s.Present messageId) :=
  inferInstanceAs (Decidable (∃ m ∈ s.db.messages, m.id = messageId))

/-- `_complete_message_ids_subset`: the message has a delivery. -/
def Complete (s : AttachmentState) (messageId : Text) : Prop :=
  s.Present messageId ∧ ∃ d ∈ s.db.deliveries, d.messageId = messageId

instance (s : AttachmentState) (messageId : Text) : Decidable (s.Complete messageId) :=
  inferInstanceAs (Decidable (_ ∧ ∃ d ∈ s.db.deliveries, d.messageId = messageId))

/-- Ids that were never drawn before, as `att_` and hexadecimal digits; message ids have no slash. -/
def Draws (s : AttachmentState) (messageId : Text) (ids : List Text) : Prop :=
  '/' ∉ messageId ∧ ids.Nodup ∧ ∀ id ∈ ids, '-' ∉ id ∧ id ∉ s.issued.map Prod.snd

instance (s : AttachmentState) (messageId : Text) (ids : List Text) :
    Decidable (s.Draws messageId ids) :=
  inferInstanceAs (Decidable (_ ∧ _ ∧ _))

/-- The ids are drawn. -/
def draw (s : AttachmentState) (messageId : Text) (ids : List Text) : AttachmentState :=
  { s with issued := ids.map (fun id => (messageId, id)) ++ s.issued }

/-- A manifest is written over the one with the same path. -/
def putManifest (s : AttachmentState) (job : MailJob) (result : Option ParseResult) :
    AttachmentState :=
  { s with
    manifests := (job, result) :: s.manifests.filter fun m => m.1.manifestPath ≠ job.manifestPath }

/-- The parse of a message, of which there is one at most. -/
def parseOf? (s : AttachmentState) (messageId : Text) : Option ParseWork :=
  s.parses.find? fun p => p.messageId = messageId

/-- The parse of a message goes on in another phase. -/
def setPhase (s : AttachmentState) (messageId : Text) (phase : ParsePhase) : AttachmentState :=
  { s with
    parses := s.parses.map fun p => if p.messageId = messageId then ⟨messageId, phase⟩ else p }

/-- `_collect_attachment_storage_paths` -/
def attachmentPaths (s : AttachmentState) (messageId : Text) : List Text :=
  (s.db.attachments.filter fun a => a.messageId = messageId).map (·.storagePath)

end AttachmentState

/-- The columns of a parsed message. -/
def parsedColumns (columns : MessageContent) (attachments : List ExtractedAttachment) :
    MessageContent :=
  { columns with
    parseStatus := .parsed
    parseError := none
    hasAttachments := !attachments.isEmpty
    attachmentCount := attachments.length }

/-- The paths of the attachments of a parse result. -/
def ParseResult.attachmentPaths (result : ParseResult) : List Text :=
  (BatchWriter.attachmentsOf result).map (·.storagePath)

namespace AttachmentSystem

open AttachmentState

section
variable (E : StoreEnv) (C : Worker.Config) (guessExtension : Text → Option Text)

/-- The manifest that replaces the pending one holds the result, unless it would be too long. -/
def finalResult? (j : IngestJob) : Option (Option ParseResult) :=
  match Worker.finalManifest? j.job j.result with
  | some (_, .manifest _ result) => some result
  | _ => none

/-- One step of the daemon. -/
def daemonStep (s : AttachmentState) : AttachmentAction → Option AttachmentState
  | .takeJob job =>
    let result := Worker.prepareResult C job (C.parseMessage job.rawContent)
    let ids := (BatchWriter.attachmentsOf result).map (·.attachmentId)
    if s.Draws job.messageId ids then
      some { s.draw job.messageId ids with jobs := ⟨job, result, [], false⟩ :: s.jobs }
    else none
  | .writePending i => s.jobs[i]?.map fun j => s.putManifest j.job none
  | .writeArtifact i path =>
    s.jobs[i]?.bind fun j =>
      if path ∈ j.result.attachmentPaths then
        some { s with
          files := path :: s.files
          jobs := s.jobs.set i { j with written := path :: j.written } }
      else none
  | .writeFinal i =>
    s.jobs[i]?.bind fun j =>
      if ∀ path ∈ j.result.attachmentPaths, path ∈ j.written then
        (finalResult? j).map fun result =>
          { s.putManifest j.job result with
            jobs := s.jobs.set i { j with manifestWritten := true } }
      else none
  | .commit places =>
    let batch := places.filterMap (s.jobs[·]?)
    if batch.all (·.manifestWritten) then
      some { s with db := s.db.write E (.store (.commit (batch.map fun j => (j.job, j.result)))) }
    else none
  | .retry i =>
    s.jobs[i]?.map fun j =>
      { s with jobs := s.jobs.set i { j with written := [], manifestWritten := false } }
  | .endJob i => some { s with jobs := s.jobs.eraseIdx i }
  | .daemonCrash => some { s with jobs := [] }
  | _ => none

/-- One step of a recovery pass. -/
def recoveryStep (s : AttachmentState) : AttachmentAction → Option AttachmentState
  | .scan f =>
    if (∃ m ∈ s.manifests, f.Reads m.1 m.2) ∧ ¬s.Complete f.messageId ∧ s.db.isRetired f = false then
      some { s with held := f :: s.held }
    else none
  | .replay i deliveryIds =>
    s.held[i]?.map fun f =>
      { s with
        db := s.db.write E (.store (.recover f deliveryIds))
        held := s.held.eraseIdx i }
  | _ => none

/-- One step of `_parse_message`. -/
def parseStep (s : AttachmentState) : AttachmentAction → Option AttachmentState
  | .beginParse messageId ids parts =>
    let found := PythonParser.extractParts guessExtension messageId ids parts
    let drawn := found.attachments.map (·.attachmentId)
    if s.Present messageId ∧ s.parseOf? messageId = none ∧ s.Draws messageId drawn then
      some { s.draw messageId drawn with
        parses := ⟨messageId, .extracting found.attachments found.raised 0⟩ :: s.parses }
    else none
  | .writePart messageId =>
    match (s.parseOf? messageId).map ParseWork.phase with
    | some (.extracting attachments raised written) =>
      attachments[written]?.map fun a =>
        { s.setPhase messageId (.extracting attachments raised (written + 1)) with
          files := a.storagePath :: s.files }
    | _ => none
  | .applyParsed messageId columns createdAt =>
    match (s.parseOf? messageId).map ParseWork.phase with
    | some (.extracting attachments none written) =>
      if written = attachments.length then
        let rows := attachments.map (ExtractedAttachment.row messageId createdAt)
        match s.db.applyParsedMessage messageId (parsedColumns columns attachments) rows with
        | .ok db =>
          some { s.setPhase messageId (.unlinking (s.attachmentPaths messageId)) with db := db }
        | .error _ => some { s with parses := s.parses.filter fun p => p.messageId ≠ messageId }
      else none
    | _ => none
  | .parseFailed messageId error indexedAt =>
    match (s.parseOf? messageId).map ParseWork.phase with
    | some (.extracting _ _ _) =>
      some { s.setPhase messageId (.unlinking (s.attachmentPaths messageId)) with
        db := s.db.markMessageParseFailed messageId error indexedAt }
    | _ => none
  | .unlink messageId =>
    match (s.parseOf? messageId).map ParseWork.phase with
    | some (.unlinking (path :: rest)) =>
      some { s.setPhase messageId (.unlinking rest) with files := s.files.filter (· ≠ path) }
    | _ => none
  | .endParse messageId => some { s with parses := s.parses.filter fun p => p.messageId ≠ messageId }
  | _ => none

/-- One step of the system. -/
def step (s : AttachmentState) (a : AttachmentAction) : Option AttachmentState :=
  match a with
  | .scan _ | .replay _ _ => recoveryStep E s a
  | .beginParse _ _ _ | .writePart _ | .applyParsed _ _ _ | .parseFailed _ _ _ | .unlink _
  | .endParse _ => parseStep guessExtension s a
  | .runtimeCrash => some { s with held := [], parses := [] }
  | .requeue messageId => some { s with db := s.db.write E (.requeueParse messageId) }
  | .other w =>
    let db := s.db.write E w
    if db.messages = s.db.messages ∧ db.attachments = s.db.attachments then some { s with db := db }
    else none
  | _ => daemonStep E C s a

end

/-- A store without mail, and nothing in memory or on disk. -/
def Initial (s : AttachmentState) : Prop :=
  s.db.Consistent ∧ s.db.messages = [] ∧ s.db.attachments = [] ∧ s.issued = [] ∧ s.manifests = [] ∧
    s.held = [] ∧ s.jobs = [] ∧ s.parses = []

end AttachmentSystem
end RapidInbox
