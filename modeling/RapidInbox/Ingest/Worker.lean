import RapidInbox.Lib.Prog
import RapidInbox.Ingest.SmtpSession

/-!
# Writer threads

`IngestApp::writer_loop`, `write_batch_with_isolation` and `try_write_batch` (`ingest_app.cpp:141-270`)
with the storage half of `BatchWriter::write_batch` (`batch_writer.cpp:923-934, 1114-1143`).  A
worker owns the batch it has popped until it completes it; everything else it touches is shared.
-/

namespace RapidInbox

/-- The operations a worker performs on shared state. -/
inductive WorkerOp where
  | loadRunning
  | queueSize
  | popBatch (maxItems : Nat)
  | writeFileAtomic (path : Text) (content : FileContent)
  | writeSqliteRecords (records : List (MailJob × ParseResult))
  | completeBatch (messageCount bytes : Nat)
  deriving DecidableEq, Repr

/-- The answers; `false` from a write or a commit is an exception. -/
abbrev WorkerOp.Answer : WorkerOp → Type
  | .loadRunning => Bool
  | .queueSize => Nat
  | .popBatch _ => List MailJob
  | .writeFileAtomic _ _ => Bool
  | .writeSqliteRecords _ => Bool
  | .completeBatch _ _ => Unit

abbrev workerSig : Conc.Sig := ⟨WorkerOp, WorkerOp.Answer⟩

/-- What a worker keeps between two shared operations: the batch it has popped. -/
structure WorkerState where
  batch : List MailJob := []
  deriving DecidableEq, Repr

abbrev WorkerM (α : Type) := Conc.Act workerSig WorkerState α

namespace Worker

open Conc.Act (modify)

/-- Perform one shared operation. -/
def call (op : WorkerOp) : WorkerM op.Answer := Conc.Act.call (S := workerSig) op

/-- What `write_batch` needs besides the shared state. -/
structure Config where
  sha256Hex : Bytes → Text
  parseMessage : Bytes → ParseResult
  /-- The MIME parser leaves the artifact paths to `prepare_parsed_artifact_metadata`. -/
  paths_unset : ∀ raw mail, parseMessage raw = .parsed mail →
    mail.textBodyPath = none ∧ mail.htmlBodyPath = none
  ingestBatchMaxMessages : Nat
  ingestMaxRetries : Nat

/-- One attachment of `prepare_parsed_artifact_metadata`. -/
def prepareAttachment (C : Config) (job : MailJob) (a : ParsedAttachment) : ParsedAttachment :=
  let attachmentId := "att_".toList ++
    (C.sha256Hex (Utf8.encode job.messageId ++ 0x3A :: Json.decimal a.partIndex)).take 32
  let safeName := safeFilename (a.filename.getD (Json.ascii "attachment.bin".toList))
  { a with
    attachmentId := attachmentId
    safeFilename := safeName
    storagePath := attachmentPath job.messageId attachmentId safeName
    sha256 := C.sha256Hex a.content }

/-- `prepare_parsed_artifact_metadata` (`batch_writer.cpp:404-425`). -/
def prepareParsedArtifactMetadata (C : Config) (job : MailJob) (p : ParsedMail) : ParsedMail :=
  let attachments := p.attachments.map (prepareAttachment C job)
  { p with
    hasText := !p.textBody.isEmpty || p.hasText
    textBodyPath :=
      if p.textBody.isEmpty then p.textBodyPath else some (textBodyPath job.messageId job.receivedAt)
    hasHtml := !p.htmlBody.isEmpty || p.hasHtml
    htmlBodyPath :=
      if p.htmlBody.isEmpty then p.htmlBodyPath else some (htmlBodyPath job.messageId job.receivedAt)
    attachments := attachments
    attachmentCount := attachments.length
    hasAttachments := decide (0 < attachments.length) }

/-- The parse result of a job with its artifact paths filled in. -/
def prepareResult (C : Config) (job : MailJob) : ParseResult → ParseResult
  | .parsed p => .parsed (prepareParsedArtifactMetadata C job p)
  | .failed message => .failed message

/-- Write files in order; the first failure throws. -/
def writeFiles : List (Text × FileContent) → WorkerM Bool
  | [] => return true
  | (path, content) :: rest => do
      if !(← call (.writeFileAtomic path content)) then
        return false
      writeFiles rest

/-- The files of `write_parsed_artifacts`. -/
def parsedArtifacts : ParseResult → List (Text × FileContent)
  | .failed _ => []
  | .parsed p =>
    (p.textBodyPath.toList.map fun path => (path, .blob p.textBody)) ++
    (p.htmlBodyPath.toList.map fun path => (path, .blob p.htmlBody)) ++
    p.attachments.map fun a => (a.storagePath, .blob a.content)

/-- `write_pending_artifacts`, as a list of writes. -/
def pendingArtifacts? (job : MailJob) : Option (List (Text × FileContent)) :=
  match buildManifest? job none with
  | none => none
  | some manifest =>
    if kMaxRecoveryManifestBytes < manifest.length then none
    else some [(job.rawPath, .blob job.rawContent), (job.manifestPath, .manifest job none)]

/-- The manifest that replaces the pending one: the parsed manifest if recovery can read it. -/
def finalManifest? (job : MailJob) (result : ParseResult) : Option (Text × FileContent) :=
  match buildManifest? job (some result) with
  | none => none
  | some final =>
    if final.length ≤ kMaxRecoveryManifestBytes then
      some (job.manifestPath, .manifest job (some result))
    else
      match buildManifest? job none with
      | none => none
      | some pending =>
        if kMaxRecoveryManifestBytes < pending.length then none
        else some (job.manifestPath, .manifest job none)

/-- A list of writes, or an exception before the first. -/
def writeFiles? : Option (List (Text × FileContent)) → WorkerM Bool
  | none => return false
  | some files => writeFiles files

/-- One job of `write_storage_artifacts` (`batch_writer.cpp:1114-1143`). -/
def writeStorageArtifact (job : MailJob) (result : ParseResult) : WorkerM Bool := do
  if !(← writeFiles? (if job.artifactsPersisted then some [] else pendingArtifacts? job)) then
    return false
  if !(← writeFiles (parsedArtifacts result)) then
    return false
  writeFiles? ((finalManifest? job result).map ([·]))

/-- `write_storage_artifacts`. -/
def writeStorageArtifacts : List (MailJob × ParseResult) → WorkerM Bool
  | [] => return true
  | (job, result) :: rest => do
      if !(← writeStorageArtifact job result) then
        return false
      writeStorageArtifacts rest

/-- `write_batch`: parse, write the artifacts, then commit all jobs in one transaction. -/
def writeBatch (C : Config) (jobs : List MailJob) : WorkerM Bool := do
  let records := jobs.map fun job => (job, prepareResult C job (C.parseMessage job.rawContent))
  if !(← writeStorageArtifacts records) then
    return false
  call (.writeSqliteRecords records)

/-- `try_write_batch`: at most `attempts` calls of `write_batch`. -/
def tryWriteBatch (C : Config) : Nat → List MailJob → WorkerM Bool
  | 0, _ => return false
  | attempts + 1, batch => do
      if ← writeBatch C batch then
        return true
      tryWriteBatch C attempts batch

/-- The last position of `needle` in `text`. -/
def lastIndexOf? (needle text : Text) : Option Nat :=
  (List.range (text.length + 1)).reverse.find? fun i => needle.isPrefixOf (text.drop i)

/-- The path of `write_quarantine_record` (`batch_writer.cpp:1083-1094`). -/
def quarantinePath (job : MailJob) : Text :=
  let manifests := "manifests/".toList
  let relative :=
    if manifests.isPrefixOf job.manifestPath then
      "quarantine/".toList ++ job.manifestPath.drop manifests.length
    else "quarantine/".toList ++ job.messageId ++ ".json".toList
  match lastIndexOf? ".json".toList relative with
  | none => relative
  | some i => relative.take i ++ ".error".toList ++ relative.drop i

/-- `write_quarantine_record`, without the text of the last exception. -/
def quarantineRecord (job : MailJob) (attempts : Nat) : FileContent :=
  .blob (Json.render (.obj
    [(key "message_id", jsonText job.messageId),
     (key "received_at", jsonText (utcText job.receivedAt)),
     (key "raw_path", jsonText job.rawPath),
     (key "attempts", .num attempts)]))

/-- `write_batch_with_isolation` (`ingest_app.cpp:216-266`): a failed batch is halved until the
    failing message stands alone. -/
def writeBatchWithIsolation (C : Config) (batch : List MailJob) : WorkerM Unit := do
  match batch with
  | [] => return ()
  | [poison] =>
    if ← tryWriteBatch C (C.ingestMaxRetries + 1) [poison] then
      return ()
    let _ ← call (.writeFileAtomic (quarantinePath poison)
      (quarantineRecord poison (C.ingestMaxRetries + 1)))
    return ()
  | first :: second :: rest =>
    let batch := first :: second :: rest
    if ← tryWriteBatch C 1 batch then
      return ()
    writeBatchWithIsolation C (batch.take (batch.length / 2))
    writeBatchWithIsolation C (batch.drop (batch.length / 2))
termination_by batch.length
decreasing_by
  all_goals simp only [List.length_take, List.length_drop, List.length_cons]; omega

/-- The loop test `running_ || queue_.size() > 0`. -/
def loopTest : WorkerM Bool := do
  if ← call .loadRunning then
    return true
  let size : Nat ← call .queueSize
  return decide (0 < size)

/-- One turn of `writer_loop` (`ingest_app.cpp:141-174`); `false` ends the loop. -/
def writerLoop (C : Config) : WorkerM Bool := do
  if !(← loopTest) then
    return false
  let batch : List MailJob ← call (.popBatch C.ingestBatchMaxMessages)
  modify fun _ => { batch := batch }
  if batch.isEmpty then
    return true
  writeBatchWithIsolation C batch
  call (.completeBatch batch.length (batchBytes batch))
  modify fun _ => { batch := [] }
  return true

end Worker

end RapidInbox
