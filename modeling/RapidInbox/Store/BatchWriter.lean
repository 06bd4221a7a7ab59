import RapidInbox.Store.Merge

/-!
# The commit of the C++ daemon

`BatchWriter::write_sqlite_records` (`batch_writer.cpp:1145-1956`).  One transaction writes a batch
of jobs; every recipient is matched again against the domain rows of the transaction before its
mailbox is chosen.
-/

namespace RapidInbox

/-- The routing rule of a domain row. -/
def DomainRow.rule (d : DomainRow) : DomainRule :=
  { domainId := d.id
    rootDomainAscii := d.rootDomainAscii
    acceptExact := d.policy.acceptExact
    acceptSubdomains := d.policy.acceptSubdomains
    plusAddressingMode := d.policy.plusAddressingMode
    localPartCaseSensitive := d.policy.localPartCaseSensitive }

/-- A match is managed unless it came from the catch-all rule. -/
def DomainMatch.managed (m : DomainMatch) : Bool := m.rootDomainAscii ≠ catchAllRoot

namespace BatchWriter

variable (A : AddressOps)

/-- `select_catch_all_rule` and the matcher made of it; normalising `*` gives `*`. -/
def catchAllMatcher (db : Db) : Option DomainMatcher :=
  (db.domains.find? fun d => d.rootDomainAscii = catchAllRoot && d.policy.isActive).map
    fun d => ⟨[d.rule]⟩

/-- `catch_all_matcher->match_address`. -/
def catchAllMatch (db : Db) (rcptTo : Text) : Option DomainMatch :=
  (catchAllMatcher db).bind fun m => m.matchAddress A rcptTo

/-- `select_managed_rule`. -/
def managedRule? (db : Db) (root : Text) : Option DomainRule :=
  (db.domains.find? fun d =>
    d.rootDomainAscii = root && d.rootDomainAscii ≠ catchAllRoot && d.policy.isActive).map
      DomainRow.rule

/-- The active managed rules whose root is the domain or one of its suffixes. -/
def managedCandidates (db : Db) (domainAscii : Text) : List DomainRule :=
  (candidateRoots domainAscii).filterMap (managedRule? db)

/-- The match of the managed candidates; building their matcher throws on a malformed root. -/
def managedMatch (db : Db) (domainAscii rcptTo : Text) : Except DbError (Option DomainMatch) :=
  let candidates := managedCandidates db domainAscii
  if candidates.isEmpty then .ok none
  else
    match DomainMatcher.ofRules? A candidates with
    | none => .error .invalidDomain
    | some matcher => .ok (matcher.matchAddress A rcptTo)

/-- Ownership of an accepted recipient may move from the catch-all rule to a managed domain, and
    from a managed domain to a longer suffix. -/
def promotes (cached refreshed : DomainMatch) : Bool :=
  if cached.rootDomainAscii = catchAllRoot then refreshed.managed
  else refreshed.managed &&
    decide (IsSubdomainOf refreshed.rootDomainAscii cached.rootDomainAscii)

/-- `current_domain_match` (`batch_writer.cpp:1214-1306`). -/
def currentDomainMatch (db : Db) (recipient : RecipientDelivery) : Except DbError DomainMatch :=
  let cached := recipient.domainMatch
  match db.domain? cached.domainId with
  | none => .error (.policyConflict recipient.rcptTo)
  | some identity =>
    if identity.rootDomainAscii ≠ cached.rootDomainAscii then
      .error (.policyConflict recipient.rcptTo)
    else if !identity.policy.isActive then .ok cached
    else
      match managedMatch A db cached.domainAscii recipient.rcptTo with
      | .error e => .error e
      | .ok managed =>
        match managed.or (catchAllMatch A db recipient.rcptTo) with
        | none => .ok cached
        | some refreshed =>
          if refreshed.domainId = cached.domainId then
            if refreshed.rootDomainAscii ≠ cached.rootDomainAscii then
              .error (.policyConflict recipient.rcptTo)
            else .ok refreshed
          else if promotes cached refreshed then .ok refreshed
          else .ok cached

end BatchWriter

namespace Db

/-- `MailboxRecord::is_catch_all`. -/
def isCatchAll (db : Db) (b : MailboxRow) : Bool := db.ownerRoot? b = some catchAllRoot

/-- `load_mailboxes_by_address`, a join with `domains` in the order of the ids. -/
def loadMailboxesByAddress (db : Db) (address : Text) : List MailboxRow :=
  (db.mailboxes.filter fun b => b.addressCanonical = address).filter
    fun b => (db.ownerRoot? b).isSome

/-- `merge_mailbox_into`. -/
def mergeMailboxInto (db : Db) (target : Nat) (source : MailboxRow) : Except DbError Db :=
  if target = source.id then .ok db
  else
    ((db.mergeDeliveries columnText source.id target).updateMailbox target
      fun b => b.mergeMetadata source).deleteMailbox source.id

/-- `refresh_mailbox_summary` of the batch writer. -/
def refreshSummary (db : Db) (id : Nat) : Db :=
  db.updateMailbox id fun b => b.withSummary (db.activeIn id)

end Db

namespace BatchWriter

variable (A : AddressOps)

/-- The choice of `target_mailbox` among the mailboxes with the address. -/
def selectTarget (db : Db) (m : DomainMatch) (exact : List MailboxRow) : Option MailboxRow :=
  let sameDomain := exact.find? fun b => b.domainId = m.domainId
  let managed := exact.find? fun b => !db.isCatchAll b
  (if m.managed then sameDomain.or managed else managed.or sameDomain).or exact.head?

/-- `old_catch_all_address`: where the recipient's mail went before a managed domain took it. -/
def oldCatchAllAddress (db : Db) (recipient : RecipientDelivery) (m : DomainMatch) : Option Text :=
  if m.managed then
    if recipient.domainMatch.rootDomainAscii = catchAllRoot then
      some recipient.domainMatch.addressCanonical
    else (catchAllMatch A db recipient.rcptTo).map DomainMatch.addressCanonical
  else none

/-- `append_catch_all_source`. -/
def appendCatchAllSource (db : Db) (target : Option MailboxRow) (sources : List MailboxRow)
    (b : MailboxRow) : List MailboxRow :=
  if !db.isCatchAll b || target.any (fun t => t.id = b.id) || sources.any (fun s => s.id = b.id)
  then sources
  else sources ++ [b]

/-- The mailboxes at the old catch-all address, when that is another address. -/
def oldCatchAllMailboxes (db : Db) (recipient : RecipientDelivery) (m : DomainMatch) :
    List MailboxRow :=
  match oldCatchAllAddress A db recipient m with
  | some address =>
    if address ≠ m.addressCanonical then db.loadMailboxesByAddress address else []
  | none => []

/-- The mailbox a delivery goes to, if there is one, and the mailboxes merged into it. -/
structure MailboxPlan where
  target : Option MailboxRow
  sources : List MailboxRow

def planMailbox (db : Db) (recipient : RecipientDelivery) (m : DomainMatch) : MailboxPlan :=
  let exact := db.loadMailboxesByAddress m.addressCanonical
  let target := selectTarget db m exact
  let sources := (exact ++ oldCatchAllMailboxes A db recipient m).foldl
    (appendCatchAllSource db target) []
  match target, sources with
  | none, first :: rest => ⟨some first, rest⟩
  | target, sources => ⟨target, sources⟩

/-- The mailbox of the plan after its row has been inserted or brought up to date. -/
structure OpenedMailbox where
  id : Nat
  generation : Nat
  touched : Bool
  rehomed : Bool

def openMailbox (db : Db) (receivedAt : Timestamp) (m : DomainMatch) (plan : MailboxPlan) :
    Except DbError (OpenedMailbox × Db) :=
  match plan.target with
  | none =>
    match db.insertMailbox m receivedAt 1 (some receivedAt) with
    | .error e => .error e
    | .ok (id, db) => .ok (⟨id, 0, true, false⟩, db)
  | some b =>
    let sameDomain : Bool := b.domainId = m.domainId
    if sameDomain || m.managed then
      match db.updateMailboxIdentity b.id m with
      | .error e => .error e
      | .ok db =>
        if sameDomain && plan.sources.isEmpty then
          -- `update_and_touch_mailbox_identity` does both in one statement
          .ok (⟨b.id, b.bulkDeleteGeneration, true, false⟩,
            db.updateMailbox b.id fun row => row.touch receivedAt)
        else .ok (⟨b.id, b.bulkDeleteGeneration, false, !sameDomain⟩, db)
    else .ok (⟨b.id, b.bulkDeleteGeneration, false, false⟩, db)

/-- The loop over `catch_all_sources`. -/
def mergeSources (db : Db) (target : Nat) (sources : List MailboxRow) : Except DbError Db :=
  sources.foldlM (fun db source => db.mergeMailboxInto target source) db

/-- `utc_add_days` of a positive number of days. -/
def expiresAt (receivedAt : Timestamp) (retentionDays : Option Int) : Option Timestamp :=
  match retentionDays with
  | some days => if 0 < days then some (receivedAt + 86400 * days.toNat) else none
  | none => none

/-- The retention that applies: the snapshot's, or the current domain's after a promotion. -/
def retentionDays (db : Db) (recipient : RecipientDelivery) (m : DomainMatch) : Option Int :=
  if m.domainId = recipient.domainMatch.domainId then
    recipient.domainPolicy.bind DomainPolicySnapshot.retentionDays
  else (db.domain? m.domainId).bind fun d => d.policy.retentionDays

/-- The body of the recipient loop, for a match that is new in its job. -/
def storeRecipient (job : MailJob) (recipient : RecipientDelivery) (m : DomainMatch) (db : Db) :
    Except DbError Db :=
  let plan := planMailbox A db recipient m
  match openMailbox db job.receivedAt m plan with
  | .error e => .error e
  | .ok (mailbox, opened) =>
    match mergeSources opened mailbox.id plan.sources with
    | .error e => .error e
    | .ok merged =>
      let rehomed := mailbox.rehomed || !plan.sources.isEmpty
      let refreshed := if rehomed then merged.refreshSummary mailbox.id else merged
      let touched := if mailbox.touched then refreshed
        else refreshed.updateMailbox mailbox.id fun row => row.touch job.receivedAt
      touched.insertDelivery recipient.deliveryId job.messageId mailbox.id recipient.rcptTo
        job.receivedAt (expiresAt job.receivedAt (retentionDays touched recipient m))
        mailbox.generation

/-- The recipient loop.  `delivered` is `delivered_mailbox_keys`, and the result counts
    `persisted_deliveries`. -/
def storeRecipients (job : MailJob) :
    List RecipientDelivery → List (Nat × Text) → Db → Except DbError (Nat × Db)
  | [], _, db => .ok (0, db)
  | recipient :: rest, delivered, db =>
    match currentDomainMatch A db recipient with
    | .error e => .error e
    | .ok m =>
      if (m.domainId, m.addressCanonical) ∈ delivered then
        storeRecipients job rest delivered db
      else
        match storeRecipient A job recipient m db with
        | .error e => .error e
        | .ok db =>
          match storeRecipients job rest ((m.domainId, m.addressCanonical) :: delivered) db with
          | .error e => .error e
          | .ok (n, db) => .ok (n + 1, db)

/-- `upsert_session`. -/
def upsertSession (db : Db) (job : MailJob) : Db :=
  if db.sessions.any (fun s => s.id = job.smtpSessionId) then
    { db with
      sessions := Table.updateWhere (fun s => s.id = job.smtpSessionId)
        (fun s =>
          { s with
            lastCommandAt := some job.receivedAt
            lastMailFrom := some job.envelopeFrom
            messageCount := s.messageCount + 1
            bytesReceived := s.bytesReceived + job.rawContent.length }) db.sessions }
  else
    { db with
      sessions := db.sessions ++
        [{ id := job.smtpSessionId
           remoteIp := job.remoteIp
           connectAt := job.receivedAt
           firstCommandAt := some job.receivedAt
           lastCommandAt := some job.receivedAt
           lastMailFrom := some job.envelopeFrom
           bytesReceived := job.rawContent.length
           messageCount := 1 }] }

/-- The parsed columns of `insert_message`. -/
def messageContent (receivedAt : Timestamp) : ParseResult → MessageContent
  | .parsed mail =>
    { parseStatus := .parsed
      parseError := none
      indexedAt := some receivedAt
      messageIdHeader := mail.messageIdHeader
      subject := mail.subject
      fromName := mail.fromName
      fromAddr := mail.fromAddr
      replyTo := mail.replyTo
      dateHeader := mail.dateHeader
      hasText := mail.hasText
      hasHtml := mail.hasHtml
      hasAttachments := mail.hasAttachments
      attachmentCount := mail.attachmentCount
      textPreview := mail.textPreview
      textBodyPath := mail.textBodyPath
      htmlBodyPath := mail.htmlBodyPath
      headers := some mail.headers
      verificationCode := mail.verificationCode }
  | .failed message =>
    { parseStatus := .failed
      parseError := some message
      indexedAt := some receivedAt
      messageIdHeader := none
      subject := none
      fromName := none
      fromAddr := none
      replyTo := none
      dateHeader := none
      hasText := false
      hasHtml := false
      hasAttachments := false
      attachmentCount := 0
      textPreview := none
      textBodyPath := none
      htmlBodyPath := none
      headers := none
      verificationCode := none }

def messageRow (job : MailJob) (result : ParseResult) : MessageRow :=
  { id := job.messageId
    smtpSessionId := some job.smtpSessionId
    rawPath := job.rawPath
    rawSha256 := job.rawSha256
    rawSizeBytes := job.rawContent.length
    envelopeFrom := some job.envelopeFrom
    receivedAt := job.receivedAt
    content := messageContent job.receivedAt result }

def attachmentRow (job : MailJob) (a : ParsedAttachment) : AttachmentRow :=
  { id := a.attachmentId
    messageId := job.messageId
    partIndex := a.partIndex
    filename := a.filename
    safeFilename := a.safeFilename
    contentType := a.contentType
    contentDisposition := a.contentDisposition
    contentId := a.contentId
    storagePath := a.storagePath
    sha256 := some a.sha256
    sizeBytes := a.content.length
    isInline := a.isInline
    createdAt := job.receivedAt }

/-- The attachments of a parse result. -/
def attachmentsOf : ParseResult → List ParsedAttachment
  | .parsed mail => mail.attachments
  | .failed _ => []

/-- `parse_failures`. -/
def parseFailures : ParseResult → Nat
  | .parsed _ => 0
  | .failed _ => 1

def insertAttachments (db : Db) (job : MailJob) (result : ParseResult) : Except DbError Db :=
  (attachmentsOf result).foldlM (fun db a => db.insertAttachment (attachmentRow job a)) db

/-- One job of the batch.  The code adds the metric deltas of a batch up before it writes them;
    writing them job by job gives the same buckets. -/
def storeJob (db : Db) (job : MailJob) (result : ParseResult) : Except DbError Db :=
  if db.messages.any (fun m => m.id = job.messageId) then .ok db
  else
    match (upsertSession db job).insertMessage (messageRow job result) with
    | .error e => .error e
    | .ok db =>
      match insertAttachments db job result with
      | .error e => .error e
      | .ok db =>
        match storeRecipients A job job.recipients [] db with
        | .error e => .error e
        | .ok (persisted, db) =>
          .ok (db.upsertMetric (Db.metricBucketTs job.receivedAt) 1 persisted
            (parseFailures result))

/-- `write_sqlite_records`: all jobs or none. -/
def writeSqliteRecords (db : Db) : List (MailJob × ParseResult) → Except DbError Db
  | [] => .ok db
  | (job, result) :: rest =>
    match storeJob A db job result with
    | .error e => .error e
    | .ok db => writeSqliteRecords db rest

end BatchWriter
end RapidInbox
