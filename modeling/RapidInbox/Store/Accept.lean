import RapidInbox.Store.Promotion

/-!
# Commits of the Python service

The transaction of `_accept_message_operation` (`runtime.py:2458-2633`), which stores a message
received by the Python listener, and `_apply_recovery_manifest` (`runtime.py:4003-4248`), which
replays the manifest of a message that was acknowledged and may not have been stored.
-/

namespace RapidInbox

/-- A recipient of an accepted message, with the delivery id drawn for it. -/
structure AcceptRecipient where
  deliveryId : Text
  rcptTo : Text
  acceptedMatch : DomainMatch
  deriving DecidableEq, Repr

structure AcceptRequest where
  messageId : Text
  smtpSessionId : Option Text
  envelopeFrom : Option Text
  receivedAt : Timestamp
  rawPath : Text
  rawSha256 : Text
  rawSizeBytes : Nat
  recipients : List AcceptRecipient
  deriving DecidableEq, Repr

/-- `_recipient_match_can_advance`. -/
def recipientMatchCanAdvance (accepted current : DomainMatch) : Bool :=
  if accepted.domainId = current.domainId then true
  else if accepted.rootDomainAscii = catchAllRoot then current.managed
  else current.managed && decide (IsSubdomainOf current.rootDomainAscii accepted.rootDomainAscii)

/-- `_delivery_expires_at`; Python's dates end with the year 9999. -/
def deliveryExpiresAt (deliveredAt : Timestamp) (retentionDays : Option Int) :
    Except DbError (Option Timestamp) :=
  match retentionDays with
  | none => .ok none
  | some days =>
    if days ≤ 0 then .ok none
    else if endOfFourDigitYears ≤ deliveredAt + 86400 * days.toNat then .error .overflow
    else .ok (some (deliveredAt + 86400 * days.toNat))

/-- The columns of a message that waits for the parser. -/
def pendingContent (fromAddr : Option Text) : MessageContent :=
  { parseStatus := .pending
    parseError := none
    indexedAt := none
    messageIdHeader := none
    subject := none
    fromName := none
    fromAddr := fromAddr.map Utf8.encode
    replyTo := none
    dateHeader := none
    hasText := false
    hasHtml := false
    hasAttachments := false
    attachmentCount := 0
    textPreview := none
    textBodyPath := none
    htmlBodyPath := none
    headers := none
    verificationCode := none }

namespace Db

/-- The check of one recipient at the start of the transaction: the accepted domain is unchanged and
    active, and the current match may take the recipient over and admits the size. -/
def checkRecipient (A : AddressOps) (db : Db) (rawSizeBytes : Nat) (r : AcceptRecipient) :
    Except DbError (DomainMatch × Option Int) :=
  match db.domain? r.acceptedMatch.domainId with
  | none => .error (.policyChanged r.rcptTo)
  | some identity =>
    if identity.rootDomainAscii ≠ r.acceptedMatch.rootDomainAscii ||
        !identity.policy.isActive then .error (.policyChanged r.rcptTo)
    else
      match db.matchActiveDomain A r.rcptTo with
      | .error e => .error e
      | .ok none => .error (.policyChanged r.rcptTo)
      | .ok (some current) =>
        if !recipientMatchCanAdvance r.acceptedMatch current then
          .error (.policyChanged r.rcptTo)
        else
          match db.domains.find? fun d =>
              d.id = current.domainId && d.rootDomainAscii = current.rootDomainAscii &&
                d.policy.isActive with
          | none => .error (.policyChanged r.rcptTo)
          | some d =>
            if d.policy.maxMessageSizeBytes < rawSizeBytes then
              .error (.policyChanged r.rcptTo)
            else .ok (current, d.policy.retentionDays)

/-- `transaction_matches`. -/
def transactionMatches (A : AddressOps) (db : Db) (rawSizeBytes : Nat) :
    List AcceptRecipient → Except DbError (List (AcceptRecipient × DomainMatch × Option Int))
  | [] => .ok []
  | r :: rest =>
    match db.checkRecipient A rawSizeBytes r with
    | .error e => .error e
    | .ok found =>
      match transactionMatches A db rawSizeBytes rest with
      | .error e => .error e
      | .ok found' => .ok ((r, found) :: found')

/-- The session row of an accepted message: created when it is unknown, then brought up to date. -/
def acceptSession (db : Db) (request : AcceptRequest) : Db :=
  match request.smtpSessionId with
  | none => db
  | some sessionId =>
    let known :=
      if db.sessions.any fun s => s.id = sessionId then db.sessions
      else db.sessions ++
        [{ id := sessionId
           remoteIp := "unknown".toList
           connectAt := request.receivedAt
           firstCommandAt := some request.receivedAt
           lastCommandAt := some request.receivedAt
           lastMailFrom := none
           bytesReceived := 0
           messageCount := 0 }]
    { db with
      sessions := Table.updateWhere (fun s => s.id = sessionId)
        (fun s =>
          { s with
            firstCommandAt := s.firstCommandAt.or (some request.receivedAt)
            lastCommandAt := some request.receivedAt
            messageCount := s.messageCount + 1
            bytesReceived := s.bytesReceived + request.rawSizeBytes
            lastMailFrom := request.envelopeFrom.or s.lastMailFrom }) known }

/-- One delivery of the loop. -/
def acceptDelivery (db : Db) (request : AcceptRequest) (r : AcceptRecipient) (m : DomainMatch)
    (retentionDays : Option Int) : Except DbError Db :=
  match db.upsertMailbox m request.receivedAt with
  | .error e => .error e
  | .ok (mailboxId, db) =>
    match deliveryExpiresAt request.receivedAt retentionDays with
    | .error e => .error e
    | .ok expiresAt =>
      db.insertDelivery r.deliveryId request.messageId mailboxId r.rcptTo request.receivedAt
        expiresAt (db.generationOf mailboxId)

/-- The recipient loop; `delivered` is `transaction_mailboxes`. -/
def acceptDeliveries (request : AcceptRequest) :
    List (AcceptRecipient × DomainMatch × Option Int) → List (Nat × Text) → Db →
      Except DbError (Nat × Db)
  | [], _, db => .ok (0, db)
  | (r, m, retentionDays) :: rest, delivered, db =>
    if (m.domainId, m.addressCanonical) ∈ delivered then
      acceptDeliveries request rest delivered db
    else
      match db.acceptDelivery request r m retentionDays with
      | .error e => .error e
      | .ok db =>
        match acceptDeliveries request rest ((m.domainId, m.addressCanonical) :: delivered) db with
        | .error e => .error e
        | .ok (n, db) => .ok (n + 1, db)

/-- The transaction of `_accept_message_operation`. -/
def acceptMessage (A : AddressOps) (db : Db) (request : AcceptRequest) : Except DbError Db :=
  if request.recipients.isEmpty then .error .invalidArgument
  else
    match db.transactionMatches A request.rawSizeBytes request.recipients with
    | .error e => .error e
    | .ok found =>
      match (db.acceptSession request).insertMessage
          { id := request.messageId
            smtpSessionId := request.smtpSessionId
            rawPath := request.rawPath
            rawSha256 := request.rawSha256
            rawSizeBytes := request.rawSizeBytes
            envelopeFrom := request.envelopeFrom
            receivedAt := request.receivedAt
            content := pendingContent request.envelopeFrom } with
      | .error e => .error e
      | .ok db =>
        match acceptDeliveries request found [] db with
        | .error e => .error e
        | .ok (count, db) =>
          .ok (db.upsertMetric (metricBucketTs request.receivedAt) 1 count 0)

end Db

/-- A recipient of a recovery manifest (`_coerce_recovery_recipient`). -/
structure RecoveryRecipient where
  rcptTo : Text
  domainId : Nat
  domainAscii : Text
  rootDomainAscii : Text
  localPartCanonical : Text
  addressCanonical : Text
  domainPolicy : Option DomainPolicySnapshot
  deriving DecidableEq, Repr

structure RecoveryAttachment where
  id : Text
  partIndex : Nat
  filename : Option Text
  safeFilename : Text
  contentType : Text
  contentDisposition : Option Text
  contentId : Option Text
  storagePath : Text
  sha256 : Option Text
  sizeBytes : Nat
  isInline : Bool
  deriving DecidableEq, Repr

structure RecoveryContent where
  messageIdHeader : Option Text
  subject : Option Text
  fromName : Option Text
  fromAddr : Option Text
  replyTo : Option Text
  dateHeader : Option Text
  hasText : Bool
  hasHtml : Bool
  hasAttachments : Bool
  attachmentCount : Nat
  textPreview : Option Text
  textBodyPath : Option Text
  htmlBodyPath : Option Text
  headers : List (Text × Text)
  verificationCode : Option Text
  attachments : List RecoveryAttachment
  deriving DecidableEq, Repr

/-- The member `parsed` of a manifest; a pending manifest has none. -/
inductive RecoveryParsed where
  | pending
  | parsed (content : RecoveryContent)
  | failed (parseError : Option Text)
  deriving DecidableEq, Repr

/-- The recipients of a manifest; old manifests list the addresses only. -/
inductive ManifestRecipients where
  | receipts (recipients : List RecoveryRecipient)
  | legacy (rcptTos : List Text)
  deriving DecidableEq, Repr

/-- A manifest as the reader returns it. -/
structure RecoveryManifest where
  messageId : Text
  smtpSessionId : Option Text
  envelopeFrom : Option Text
  receivedAt : Timestamp
  rawPath : Text
  rawSha256 : Text
  rawSizeBytes : Nat
  recipients : ManifestRecipients
  parsed : RecoveryParsed
  deriving DecidableEq, Repr

/-- `message_columns`. -/
def RecoveryManifest.content (f : RecoveryManifest) : MessageContent :=
  match f.parsed with
  | .pending => pendingContent f.envelopeFrom
  | .parsed c =>
    { parseStatus := .parsed
      parseError := none
      indexedAt := some f.receivedAt
      messageIdHeader := c.messageIdHeader.map Utf8.encode
      subject := c.subject.map Utf8.encode
      fromName := c.fromName.map Utf8.encode
      fromAddr := c.fromAddr.map Utf8.encode
      replyTo := c.replyTo.map Utf8.encode
      dateHeader := c.dateHeader.map Utf8.encode
      hasText := c.hasText
      hasHtml := c.hasHtml
      hasAttachments := c.hasAttachments
      attachmentCount := c.attachmentCount
      textPreview := c.textPreview.map Utf8.encode
      textBodyPath := c.textBodyPath
      htmlBodyPath := c.htmlBodyPath
      headers := some (c.headers.map fun h => (Utf8.encode h.1, Utf8.encode h.2))
      verificationCode := c.verificationCode.map Utf8.encode }
  | .failed e =>
    { pendingContent none with
      parseStatus := .failed
      parseError := e.map Utf8.encode
      indexedAt := some f.receivedAt }

/-- `parsed_attachments`. -/
def RecoveryManifest.attachments (f : RecoveryManifest) : List RecoveryAttachment :=
  match f.parsed with
  | .parsed c => c.attachments
  | _ => []

def RecoveryManifest.messageRow (f : RecoveryManifest) (smtpSessionId : Option Text) :
    MessageRow :=
  { id := f.messageId
    smtpSessionId := smtpSessionId
    rawPath := f.rawPath
    rawSha256 := f.rawSha256
    rawSizeBytes := f.rawSizeBytes
    envelopeFrom := f.envelopeFrom
    receivedAt := f.receivedAt
    content := f.content }

def RecoveryManifest.attachmentRow (f : RecoveryManifest) (a : RecoveryAttachment) :
    AttachmentRow :=
  { id := a.id
    messageId := f.messageId
    partIndex := a.partIndex
    filename := a.filename.map Utf8.encode
    safeFilename := a.safeFilename
    contentType := Utf8.encode a.contentType
    contentDisposition := a.contentDisposition.map Utf8.encode
    contentId := a.contentId.map Utf8.encode
    storagePath := a.storagePath
    sha256 := a.sha256
    sizeBytes := a.sizeBytes
    isInline := a.isInline
    createdAt := f.receivedAt }

/-- `rcpt_to.rsplit("@", 1)[0]`. -/
def localPartOf (rcptTo : Text) : Text :=
  if rcptTo.contains '@' then ((rcptTo.reverse.dropWhile (· != '@')).tail).reverse else rcptTo

/-- The match a receipt was accepted with, under the given domain id. -/
def RecoveryRecipient.receiptMatch (r : RecoveryRecipient) (domainId : Nat) : DomainMatch :=
  { domainId := domainId
    domainAscii := r.domainAscii
    rootDomainAscii := r.rootDomainAscii
    localPart := localPartOf r.rcptTo
    localPartCanonical := r.localPartCanonical
    addressCanonical := r.addressCanonical }

/-- The policy of a root as the receipts of a scan last had it (`_record_latest_policy_snapshots`). -/
structure DomainSnapshot where
  domainId : Nat
  rootDomainAscii : Text
  domainPolicy : DomainPolicySnapshot
  deriving DecidableEq, Repr

/-- A snapshot is read as a recipient; only the identity and the policy of the domain are. -/
def DomainSnapshot.recipient (snapshot : DomainSnapshot) : RecoveryRecipient :=
  { rcptTo := []
    domainId := snapshot.domainId
    domainAscii := snapshot.rootDomainAscii
    rootDomainAscii := snapshot.rootDomainAscii
    localPartCanonical := []
    addressCanonical := []
    domainPolicy := some snapshot.domainPolicy }

namespace Db

/-- `_resolve_legacy_recovery_recipient`: the rules of all domains, active or not, decide. -/
def resolveLegacyRecoveryRecipient (A : AddressOps) (db : Db) (rcptTo : Text) :
    Except DbError RecoveryRecipient :=
  match DomainMatcher.ofRules? A (db.domains.map DomainRow.rule) with
  | none => .error .invalidDomain
  | some matcher =>
    match matcher.matchAddress A rcptTo with
    | none => .error .invalidArgument
    | some m =>
      match db.domain? m.domainId with
      | none => .error .invalidArgument
      | some d =>
        .ok
          { rcptTo := rcptTo
            domainId := m.domainId
            domainAscii := m.domainAscii
            rootDomainAscii := m.rootDomainAscii
            localPartCanonical := m.localPartCanonical
            addressCanonical := m.addressCanonical
            domainPolicy := some d.policy }

/-- `_recovery_recipients_from_manifest`. -/
def recoveryRecipientsFromManifest (A : AddressOps) (db : Db) (f : RecoveryManifest) :
    Except DbError (List RecoveryRecipient) :=
  match f.recipients with
  | .receipts recipients => if recipients.isEmpty then .error .invalidArgument else .ok recipients
  | .legacy rcptTos =>
    if rcptTos.isEmpty then .error .invalidArgument
    else rcptTos.mapM (db.resolveLegacyRecoveryRecipient A)

/-- `_ensure_recovery_domain_record` (`runtime.py:4644-4696`). -/
def ensureRecoveryDomainRecord (db : Db) (r : RecoveryRecipient) : Except DbError (Nat × Db) :=
  let existing := db.domainByRoot? r.rootDomainAscii
  if existing.any (fun d => d.id = r.domainId) then .ok (r.domainId, db)
  else if (r.domainId, r.rootDomainAscii) ∈ db.tombstones then .error (.policyConflict r.rcptTo)
  else
    match existing with
    | some d => .ok (d.id, db)
    | none =>
      match r.domainPolicy with
      | none => .error (.policyConflict r.rcptTo)
      | some policy =>
        let unicode := if policy.rootDomainUnicode.isEmpty then r.rootDomainAscii
          else policy.rootDomainUnicode
        let preferred := if (db.domain? r.domainId).isNone then some r.domainId else none
        db.insertDomain preferred r.rootDomainAscii
          { policy with rootDomainUnicode := unicode }

/-- `recover_domain_snapshot` (`runtime.py:2813-2814`). -/
def recoverDomainSnapshot (db : Db) (snapshot : DomainSnapshot) : Except DbError Db :=
  (db.ensureRecoveryDomainRecord snapshot.recipient).map Prod.snd

/-- The match that decides the ownership of a recovered delivery: the current one, unless the
    recipient is now matched by nothing or by the catch-all rule alone. -/
def ownershipMatch (A : AddressOps) (db : Db) (r : RecoveryRecipient) (domainId : Nat) :
    Except DbError DomainMatch :=
  match db.matchActiveDomain A r.rcptTo with
  | .error e => .error e
  | .ok none => .ok (r.receiptMatch domainId)
  | .ok (some current) =>
    if current.rootDomainAscii ≠ catchAllRoot || r.rootDomainAscii = catchAllRoot then .ok current
    else .ok (r.receiptMatch domainId)

/-- One turn of the loop over `candidate_addresses`: the mailbox id to return, if the loop ends. -/
def recoveryCandidate (db : Db) (m : DomainMatch) (address : Text) :
    Except DbError (Option Nat × Db) :=
  match db.mailboxAt? address with
  | none => .ok (none, db)
  | some existing =>
    if m.rootDomainAscii ≠ catchAllRoot then
      match db.promoteMailboxOwnership existing.id m with
      | .error e => .error e
      | .ok (result, db) => .ok (if result.rehomed then some result.mailboxId else none, db)
    else .ok (none, db)

/-- The mailbox of a recovered delivery under its ownership match: the two candidate addresses in
    turn, then the existing target, then a new mailbox. -/
def recoveryMailbox (db : Db) (m : DomainMatch) (receiptAddress : Text) (receivedAt : Timestamp) :
    Except DbError (Nat × Db) :=
  -- `existing_target_id`, read before the loop can promote anything
  let existingTarget := (db.mailboxAt? m.addressCanonical).map MailboxRow.id
  match db.recoveryCandidate m m.addressCanonical with
  | .error e => .error e
  | .ok (some id, db) => .ok (id, db)
  | .ok (none, db) =>
    let second : Except DbError (Option Nat × Db) :=
      if receiptAddress = m.addressCanonical then .ok (none, db)
      else db.recoveryCandidate m receiptAddress
    match second with
    | .error e => .error e
    | .ok (some id, db) => .ok (id, db)
    | .ok (none, db) =>
      match existingTarget with
      | some id => .ok (id, db)
      | none => db.insertMailbox m receivedAt 0 none

/-- `_ensure_recovery_mailbox_record` (`runtime.py:4568-4642`). -/
def ensureRecoveryMailboxRecord (A : AddressOps) (db : Db) (r : RecoveryRecipient)
    (receivedAt : Timestamp) : Except DbError (Nat × Db) :=
  match db.ensureRecoveryDomainRecord r with
  | .error e => .error e
  | .ok (domainId, db) =>
    match db.ownershipMatch A r domainId with
    | .error e => .error e
    | .ok m => db.recoveryMailbox m r.addressCanonical receivedAt

/-- `_refresh_mailbox_summary`: `first_seen_at` and `last_seen_at` are `NOT NULL`, so a mailbox
    without an active delivery fails. -/
def refreshMailboxSummary (db : Db) (id : Nat) : Except DbError Db :=
  let active := db.activeIn id
  match earliestOf active, latestOf active with
  | some first, some last =>
    .ok (db.updateMailbox id fun b =>
      { b.withSummary active with firstSeenAt := first, lastSeenAt := last })
  | _, _ => if (db.mailbox? id).isSome then .error .notNull else .ok db

/-- The retention of a recovered delivery. -/
def recoveryRetentionDays (db : Db) (r : RecoveryRecipient) (mailboxId : Nat) : Option Int :=
  let domain := (db.mailbox? mailboxId).bind fun b => db.domain? b.domainId
  match r.domainPolicy with
  | none => domain.bind fun d => d.policy.retentionDays
  | some policy =>
    if domain.any (fun d => d.rootDomainAscii ≠ r.rootDomainAscii) then
      domain.bind fun d => d.policy.retentionDays
    else policy.retentionDays

/-- `INSERT OR IGNORE INTO message_deliveries`: the number of rows and the table. -/
def insertDeliveryOrIgnore (db : Db) (id messageId : Text) (mailboxId : Nat) (rcptTo : Text)
    (deliveredAt : Timestamp) (expiresAt : Option Timestamp) : Except DbError (Nat × Db) :=
  if (db.deliveryConflict id messageId mailboxId).isSome then .ok (0, db)
  else if db.deliveryParentsExist messageId mailboxId then
    .ok (1, db.addDelivery id messageId mailboxId rcptTo deliveredAt expiresAt
      (db.generationOf mailboxId))
  else .error .foreignKey

/-- One recipient of a replay: its mailbox and the number of deliveries inserted. -/
def recoverRecipient (A : AddressOps) (db : Db) (f : RecoveryManifest) (deliveryId : Text)
    (r : RecoveryRecipient) : Except DbError (Nat × Nat × Db) :=
  match db.ensureRecoveryMailboxRecord A r f.receivedAt with
  | .error e => .error e
  | .ok (mailboxId, db) =>
    match deliveryExpiresAt f.receivedAt (db.recoveryRetentionDays r mailboxId) with
    | .error e => .error e
    | .ok expiresAt =>
      match db.insertDeliveryOrIgnore deliveryId f.messageId mailboxId r.rcptTo f.receivedAt
          expiresAt with
      | .error e => .error e
      | .ok (n, db) => .ok (mailboxId, n, db)

/-- The recipient loop, with the delivery ids drawn for the recipients in turn. -/
def recoverRecipients (A : AddressOps) (f : RecoveryManifest) :
    List (Text × RecoveryRecipient) → Db → Except DbError (List Nat × Nat × Db)
  | [], db => .ok ([], 0, db)
  | (deliveryId, r) :: rest, db =>
    match db.recoverRecipient A f deliveryId r with
    | .error e => .error e
    | .ok (mailboxId, n, db) =>
      match recoverRecipients A f rest db with
      | .error e => .error e
      | .ok (ids, n', db) => .ok (mailboxId :: ids, n + n', db)

/-- `for mailbox_id in mailbox_ids`. -/
def refreshMailboxSummaries (db : Db) (ids : List Nat) : Except DbError Db :=
  ids.foldlM (fun db id => db.refreshMailboxSummary id) db

/-- `INSERT OR IGNORE INTO attachments`. -/
def insertAttachmentOrIgnore (db : Db) (row : AttachmentRow) : Except DbError Db :=
  if db.attachmentConflict row then .ok db else db.insertAttachment row

/-- `INSERT OR IGNORE INTO messages`: whether a row was inserted. -/
def insertMessageOrIgnore (db : Db) (row : MessageRow) : Except DbError (Bool × Db) :=
  if db.messageConflict row then .ok (false, db)
  else
    match db.insertMessage row with
    | .error e => .error e
    | .ok db => .ok (true, db)

/-- A storage path is queued for deletion, so its message was retired. -/
def isRetired (db : Db) (f : RecoveryManifest) : Bool :=
  db.fileGcTasks.any fun path =>
    path = f.rawPath || path = manifestPath f.messageId f.receivedAt

/-- The session a replayed message still belongs to. -/
def recoverySession (db : Db) (f : RecoveryManifest) : Option Text :=
  f.smtpSessionId.filter fun s => db.sessions.any fun session => session.id = s

/-- `_increment_mail_metric` of a replay. -/
def recoveryMetric (db : Db) (f : RecoveryManifest) (insertedMessage : Bool)
    (insertedDeliveries : Nat) : Db :=
  if insertedMessage || insertedDeliveries ≠ 0 then
    db.upsertMetric (metricBucketTs f.receivedAt) insertedMessage.toNat insertedDeliveries
      (insertedMessage && f.content.parseStatus = .failed).toNat
  else db

/-- The rows a replay writes once its recipients are known. -/
def replayManifest (A : AddressOps) (db : Db) (f : RecoveryManifest)
    (recipients : List (Text × RecoveryRecipient)) : Except DbError Db :=
  match db.insertMessageOrIgnore (f.messageRow (db.recoverySession f)) with
  | .error e => .error e
  | .ok (insertedMessage, db) =>
    match recoverRecipients A f recipients db with
    | .error e => .error e
    | .ok (mailboxIds, insertedDeliveries, db) =>
      match db.refreshMailboxSummaries mailboxIds with
      | .error e => .error e
      | .ok db =>
        match f.attachments.foldlM
            (fun db a => db.insertAttachmentOrIgnore (f.attachmentRow a)) db with
        | .error e => .error e
        | .ok db => .ok (db.recoveryMetric f insertedMessage insertedDeliveries)

/-- `_apply_recovery_manifest`, with the delivery ids drawn for the recipients. -/
def applyRecoveryManifest (A : AddressOps) (db : Db) (f : RecoveryManifest)
    (deliveryIds : Nat → Text) : Except DbError Db :=
  if db.isRetired f then .ok db
  else
    match db.recoveryRecipientsFromManifest A f with
    | .error e => .error e
    | .ok recipients => db.replayManifest A f (recipients.mapIdx fun i r => (deliveryIds i, r))

end Db
end RapidInbox
