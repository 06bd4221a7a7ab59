import RapidInbox.Lib.Prog
import RapidInbox.Ingest.Manifest
import RapidInbox.Ingest.MailQueue

/-!
# SMTP sessions

`SmtpSession` of `cpp/ingestd/src/smtp_session.cpp`, method by method.  A session's fields belong to
the thread that serves its connection; what it shares with other threads (the queue, the storage
directory, the domain cache) it reaches through the operations of `sessionSig`, one call at a time.
The methods are therefore `Conc.Act` programs: between any two calls another thread may run.
-/

namespace RapidInbox

/-- What the daemon takes from libraries outside the repository. -/
structure Platform where
  unicode : UnicodeOps
  sha256Hex : Bytes → Text

/-- `DomainRulesSnapshot` (`domain_cache.h`). -/
structure DomainRulesSnapshot where
  matcher : DomainMatcher
  policies : List (Nat × DomainPolicySnapshot)
  generation : Nat
  deriving DecidableEq, Repr

/-- `policies.find`. -/
def DomainRulesSnapshot.policy? (rules : DomainRulesSnapshot) (domainId : Nat) :
    Option DomainPolicySnapshot :=
  rules.policies.lookup domainId

/-- One SMTP reply: its code and its lines. -/
structure Reply where
  code : Nat
  lines : List Text
  deriving DecidableEq, Repr

/-- A one-line reply. -/
def reply (code : Nat) (text : String) : Reply := ⟨code, [text.toList]⟩

/-- The reply to an accepted message. -/
def queuedReply (messageId : Text) : Reply := ⟨250, ["queued as ".toList ++ messageId]⟩

/-- What a file of the storage directory holds.  A manifest is kept as the record
    `buildManifest?` renders. -/
inductive FileContent where
  | blob (bytes : Bytes)
  | manifest (job : MailJob) (result : Option ParseResult)
  deriving DecidableEq, Repr

/-- The operations a session performs on state it does not own. -/
inductive SessionOp where
  | maintenanceActive
  | tryReserve (bytes : Nat)
  | tryGrowReservation (minimumAdditional preferredAdditional : Nat)
  | pushReserved (job : MailJob) (reserved : Nat)
  | cancelReservation (reserved : Nat)
  | makePrefixedId (idPrefix : Text)
  | utcNow
  | snapshotRulesIfChanged (knownGeneration : Nat)
  | writeFileAtomic (path : Text) (content : FileContent)
  | countRecipientRejection
  deriving DecidableEq, Repr

/-- The answers; a file write answers `false` when it throws. -/
abbrev SessionOp.Answer : SessionOp → Type
  | .maintenanceActive => Bool
  | .tryReserve _ => Bool
  | .tryGrowReservation _ _ => Nat
  | .pushReserved _ _ => Bool
  | .cancelReservation _ => Unit
  | .makePrefixedId _ => Text
  | .utcNow => Timestamp
  | .snapshotRulesIfChanged _ => Option DomainRulesSnapshot
  | .writeFileAtomic _ _ => Bool
  | .countRecipientRejection => Unit

abbrev sessionSig : Conc.Sig := ⟨SessionOp, SessionOp.Answer⟩

/-- `SmtpSession`'s fields.  The constructor rounds the chunk size up to one. -/
structure SmtpSession where
  domainRules : DomainRulesSnapshot
  hasDomainCache : Bool
  maxRecipients : Int
  maxMessageSizeBytes : Nat
  effectiveMessageSizeBytes : Nat
  hasDurableWriter : Bool
  durableAck : Bool
  reservationChunkBytes : Nat
  chunk_pos : 0 < reservationChunkBytes
  chunk_lt : reservationChunkBytes < sizeMod
  remoteIp : Text
  sessionId : Text
  mailFrom : Text := []
  mailFromSeen : Bool := false
  extendedSmtp : Bool := false
  mailSmtputf8 : Bool := false
  declaredMessageSize : Option Nat := none
  recipients : List RecipientDelivery := []
  inData : Bool := false
  dataTooLarge : Bool := false
  dataQueueFull : Bool := false
  dataOctetsReceived : Nat := 0
  queueReservationActive : Bool := false
  queueReservationBytes : Nat := 0
  data : Bytes := []

/-- A session method that returns a value of type `α`. -/
abbrev SessionM (α : Type) := Conc.Act sessionSig SmtpSession α

namespace SmtpSession

open Conc.Act (get modify fault)

/-- Perform one shared operation. -/
def call (op : SessionOp) : SessionM op.Answer := Conc.Act.call (S := sessionSig) op

/-! ## Command syntax -/

/-- `std::isspace` in the C locale. -/
def isSpace (b : UInt8) : Bool := (0x09 ≤ b && b ≤ 0x0D) || b == 0x20

/-- `is_ascii_space`. -/
def isAsciiSpace (b : UInt8) : Bool := b == 0x20 || b == 0x09

/-- `std::toupper` in the C locale. -/
def upperAsciiByte (b : UInt8) : UInt8 := if 0x61 ≤ b && b ≤ 0x7A then b - 32 else b

def upperAscii (s : Bytes) : Bytes := s.map upperAsciiByte

/-- `starts_with_ci`. -/
def startsWithCi (value command : Bytes) : Bool :=
  upperAscii (value.take command.length) == upperAscii command

/-- `matches_command_ci`. -/
def matchesCommandCi (value command : Bytes) : Bool :=
  startsWithCi value command && ((value.drop command.length).head?.all isSpace)

/-- `matches_no_arg_command_ci`. -/
def matchesNoArgCommandCi (value command : Bytes) : Bool :=
  startsWithCi value command && (value.drop command.length).all isSpace

structure EsmtpParameter where
  name : Bytes
  value : Option Bytes
  deriving DecidableEq, Repr

structure ParsedPathCommand where
  path : Bytes
  parameters : List EsmtpParameter
  deriving DecidableEq, Repr

def isKeywordAlnum (b : UInt8) : Bool :=
  (0x41 ≤ b && b ≤ 0x5A) || (0x61 ≤ b && b ≤ 0x7A) || (0x30 ≤ b && b ≤ 0x39)

/-- One ESMTP parameter token. -/
def parseParameter (token : Bytes) : Option EsmtpParameter :=
  let name := token.takeWhile (· != 0x3D)
  let value := token.dropWhile (· != 0x3D)
  if token.any (fun b => b < 0x21 || 0x7E < b) then none
  else if !(name.head?.any isKeywordAlnum) ||
      !(name.all fun b => isKeywordAlnum b || b == 0x2D) then none
  else
    match value with
    | [] => some ⟨upperAscii name, none⟩
    | _ :: rawValue =>
      if rawValue.isEmpty || rawValue.contains 0x3D then none
      else some ⟨upperAscii name, some rawValue⟩

/-- The parameter loop: `seen` are the names read so far, which may not repeat. -/
def parseParameters : List Bytes → List Bytes → Option (List EsmtpParameter)
  | _, [] => some []
  | seen, token :: tokens =>
    match parseParameter token with
    | none => none
    | some p =>
      if seen.contains p.name then none
      else (parseParameters (p.name :: seen) tokens).map (p :: ·)

/-- `parse_path_command` (`smtp_session.cpp:79-164`). -/
def parsePathCommand (line command pathKeyword : Bytes) (allowEmptyPath : Bool) :
    Option ParsedPathCommand :=
  let afterCommand := line.drop command.length
  let keywordAt := afterCommand.dropWhile isAsciiSpace
  let bracketAt := (keywordAt.drop pathKeyword.length).dropWhile isAsciiSpace
  let pathAt := bracketAt.tail
  let path := pathAt.takeWhile (· != 0x3E)
  let rest := (pathAt.dropWhile (· != 0x3E)).tail
  if !matchesCommandCi line command then none
  else if !(afterCommand.head?.any isAsciiSpace) then none
  else if upperAscii (keywordAt.take pathKeyword.length) != upperAscii pathKeyword then none
  else if bracketAt.head? != some 0x3C then none
  else if !pathAt.contains 0x3E then none
  else if (!allowEmptyPath && path.isEmpty) || path.contains 0x3C ||
      path.any (fun b => b ≤ 0x20 || b == 0x7F) then none
  else if !(rest.head?.all isAsciiSpace) then none
  else
    (parseParameters [] ((rest.splitOnP isAsciiSpace).filter (!·.isEmpty))).map
      (ParsedPathCommand.mk path)

/-- `parse_size_parameter`: decimal digits that fit 64 bits. -/
def parseSizeParameter (value : Bytes) : Option Nat :=
  if value.isEmpty || value.any (fun b => b < 0x30 || 0x39 < b) then none
  else
    let number := value.foldl (fun n b => n * 10 + (b.toNat - 48)) 0
    if number < sizeMod then some number else none

def containsNonAscii (value : Bytes) : Bool := value.any (0x80 ≤ ·)

/-- `command_argument(..).has_value()`. -/
def hasCommandArgument (line command : Bytes) : Bool :=
  let argument := (line.drop command.length).dropWhile isAsciiSpace
  matchesCommandCi line command && !argument.isEmpty && argument.length ≤ 255 &&
    !argument.any (fun b => b ≤ 0x20 || b == 0x7F)

/-- `parse_mailbox_address` on the bytes of a path; the result carries the decoded path. -/
def parsePath? (P : Platform) (path : Bytes) (allowSmtputf8 : Bool) : Option Text :=
  match Utf8.decode? path with
  | none => none
  | some text =>
    (parseMailboxAddress (cppAddressOps P.unicode) text allowSmtputf8).map fun _ => text

/-! ## Releasing a transaction -/

/-- `size_t` subtraction inside a session; a wrap is a fault. -/
def sub (a b : Nat) : SessionM Nat :=
  match subSize a b with
  | .ok n => pure n
  | .error _ => fault

/-- `release_data_buffer`. -/
def releaseDataBuffer : SessionM Unit := modify fun s => { s with data := [] }

/-- `release_queue_reservation`. -/
def releaseQueueReservation : SessionM Unit := do
  let s ← get
  if !s.queueReservationActive then
    return ()
  call (.cancelReservation s.queueReservationBytes)
  modify fun s => { s with queueReservationActive := false, queueReservationBytes := 0 }

/-- `clear_transaction_state`. -/
def clearTransactionState : SessionM Unit := do
  modify fun s => { s with
    mailFrom := [], mailFromSeen := false, mailSmtputf8 := false
    declaredMessageSize := none, recipients := [] }
  releaseDataBuffer
  releaseQueueReservation
  modify fun s => { s with
    inData := false, dataTooLarge := false, dataQueueFull := false, dataOctetsReceived := 0
    effectiveMessageSizeBytes := s.maxMessageSizeBytes }

/-- Answer a command after clearing the transaction. -/
def clearAndReply (r : Reply) : SessionM (Option Reply) := do
  clearTransactionState
  return some r

/-- `mark_data_too_large`. -/
def markDataTooLarge : SessionM Unit := do
  modify fun s => { s with dataTooLarge := true }
  releaseDataBuffer
  releaseQueueReservation

/-- `mark_data_queue_full`. -/
def markDataQueueFull : SessionM Unit := do
  modify fun s => { s with dataQueueFull := true }
  releaseDataBuffer
  releaseQueueReservation

/-- `~SmtpSession`. -/
def destroy : SessionM (Option Reply) := do
  releaseQueueReservation
  return none

/-! ## Message data -/

/-- The reservation a session aims at for `required` bytes: the next multiple of the chunk, at most
    the message limit, at least what is required (`smtp_session.cpp:604-612`). -/
def preferredTarget (s : SmtpSession) (required : Nat) : Nat :=
  let chunk := s.reservationChunkBytes
  let target :=
    if required ≤ sizeMod - 1 - (chunk - 1) then
      min ((required + chunk - 1) / chunk * chunk) s.effectiveMessageSizeBytes
    else s.effectiveMessageSizeBytes
  max target required

/-- `ensure_data_reservation`. -/
def ensureDataReservation (required : Nat) : SessionM Bool := do
  let s ← get
  if !s.queueReservationActive then
    return false
  if required ≤ s.queueReservationBytes then
    return true
  let minimumAdditional ← sub required s.queueReservationBytes
  let preferredAdditional ← sub (preferredTarget s required) s.queueReservationBytes
  let added : Nat ← call (.tryGrowReservation minimumAdditional preferredAdditional)
  if added = 0 then
    return false
  modify fun s => { s with queueReservationBytes := addSize s.queueReservationBytes added }
  return true

/-- `write_pending_artifacts` (`batch_writer.cpp:994-1004`); `false` is an exception. -/
def writePendingArtifacts (job : MailJob) : SessionM Bool := do
  match buildManifest? job none with
  | none => return false
  | some manifest =>
    if kMaxRecoveryManifestBytes < manifest.length then
      return false
    if !(← call (.writeFileAtomic job.rawPath (.blob job.rawContent))) then
      return false
    call (.writeFileAtomic job.manifestPath (.manifest job none))

/-- `durable_writer_ != nullptr && durable_writer_->maintenance_active()`. -/
def underMaintenance : SessionM Bool := do
  let s ← get
  if s.hasDurableWriter then call .maintenanceActive else return false

/-- The hand-over to the queue at the end of `finish_data` (`smtp_session.cpp:706-742`). -/
def handOver (job : MailJob) : SessionM (Option Reply) := do
  let s ← get
  let pushed ← call (.pushReserved job s.queueReservationBytes)
  modify fun s => { s with queueReservationActive := false, queueReservationBytes := 0 }
  clearTransactionState
  if !pushed && !job.artifactsPersisted then
    return some (reply 451 "temporary queue unavailable")
  return some (queuedReply job.messageId)

/-- The job `finish_data` builds (`smtp_session.cpp:648-659`). -/
def makeJob (P : Platform) (s : SmtpSession) (messageId : Text) (receivedAt : Timestamp) :
    MailJob where
  smtpSessionId := s.sessionId
  remoteIp := s.remoteIp
  messageId := messageId
  envelopeFrom := s.mailFrom
  receivedAt := receivedAt
  rawPath := rawMessagePath messageId receivedAt
  manifestPath := manifestPath messageId receivedAt
  rawSha256 := P.sha256Hex s.data
  rawContent := s.data
  recipients := s.recipients
  artifactsPersisted := false

/-- `finish_data` from the durable write on (`smtp_session.cpp:671-742`). -/
def persistAndHandOver (job : MailJob) : SessionM (Option Reply) := do
  let s ← get
  if s.durableAck then
    if !s.hasDurableWriter then
      clearAndReply (reply 451 "durable storage unavailable")
    else if !(← writePendingArtifacts job) then
      clearAndReply (reply 451 "temporary storage failure")
    else
      handOver { job with artifactsPersisted := true }
  else if ← underMaintenance then
    clearAndReply (reply 451 "storage maintenance in progress")
  else
    handOver job

/-- `finish_data` (`smtp_session.cpp:641-743`). -/
def finishData (P : Platform) : SessionM (Option Reply) := do
  modify fun s => { s with inData := false }
  if ← underMaintenance then
    clearAndReply (reply 451 "storage maintenance in progress")
  else
    let receivedAt ← call .utcNow
    let messageId ← call (.makePrefixedId "msg_".toList)
    let s ← get
    let job := makeJob P s messageId receivedAt
    modify fun s => { s with data := [] }
    if !s.queueReservationActive then
      clearAndReply (reply 451 "temporary queue full")
    else if s.queueReservationBytes < job.rawContent.length then
      clearAndReply (reply 451 "temporary queue full")
    else
      persistAndHandOver job

/-- The leading dot of a stuffed line is not content. -/
def contentOffset (line : Bytes) : Nat := if line.head? = some 0x2E then 1 else 0

theorem contentOffset_le (line : Bytes) : contentOffset line ≤ line.length := by
  unfold contentOffset
  cases line with
  | nil => simp
  | cons b bs => split <;> simp

/-- One line of message data (`smtp_session.cpp:344-364`). -/
def handleDataLine (line : Bytes) : SessionM (Option Reply) := do
  let s ← get
  if s.dataTooLarge then
    return none
  let contentSize ← sub line.length (contentOffset line)
  if s.effectiveMessageSizeBytes < s.dataOctetsReceived then
    markDataTooLarge
    return none
  let left ← sub s.effectiveMessageSizeBytes s.dataOctetsReceived
  if left < contentSize then
    markDataTooLarge
    return none
  let left ← sub left contentSize
  if left < 2 then
    markDataTooLarge
    return none
  let received := addSize s.dataOctetsReceived (contentSize + 2)
  modify fun s => { s with dataOctetsReceived := received }
  if s.dataQueueFull then
    return none
  if !(← ensureDataReservation received) then
    markDataQueueFull
    return none
  modify fun s => { s with data := s.data ++ line.drop (contentOffset line) ++ [0x0D, 0x0A] }
  return none

/-! ## Commands -/

/-- `ehlo_response`. -/
def ehloResponse (s : SmtpSession) : Reply :=
  ⟨250, ["rapid-inbox-ingestd".toList,
    "SIZE ".toList ++ (toString s.maxMessageSizeBytes).toList,
    "8BITMIME".toList, "PIPELINING".toList, "SMTPUTF8".toList]⟩

/-- `refresh_domain_rules`. -/
def refreshDomainRules : SessionM Unit := do
  let s ← get
  if !s.hasDomainCache then
    return ()
  match ← call (.snapshotRulesIfChanged s.domainRules.generation) with
  | none => return ()
  | some refreshed => modify fun s => { s with domainRules := refreshed }

/-- The parameter loop of `MAIL`: the declared size and the `SMTPUTF8` flag, or the refusal. -/
def mailParameters (maxMessageSize : Nat) :
    List EsmtpParameter → Option Nat → Bool → Except Reply (Option Nat × Bool)
  | [], declared, smtputf8 => .ok (declared, smtputf8)
  | p :: ps, declared, smtputf8 =>
    if p.name = Json.ascii "SIZE".toList then
      match p.value.bind parseSizeParameter with
      | none => .error (reply 501 "invalid SIZE parameter")
      | some size =>
        if maxMessageSize < size then
          .error (reply 552 "message size exceeds fixed maximum")
        else mailParameters maxMessageSize ps (some size) smtputf8
    else if p.name = Json.ascii "SMTPUTF8".toList then
      if p.value.isSome then .error (reply 501 "invalid SMTPUTF8 parameter")
      else mailParameters maxMessageSize ps declared true
    else if p.name = Json.ascii "BODY".toList then
      match p.value with
      | none => .error (reply 501 "invalid BODY parameter")
      | some body =>
        if upperAscii body = Json.ascii "7BIT".toList ∨
            upperAscii body = Json.ascii "8BITMIME".toList then
          mailParameters maxMessageSize ps declared smtputf8
        else .error (reply 555 "unsupported BODY parameter")
    else .error (reply 555 "unsupported MAIL FROM parameter")

/-- The sender path of `MAIL`; the empty path is the null sender. -/
def mailSender (P : Platform) (path : Bytes) (smtputf8 : Bool) : Except Reply Text :=
  if path.isEmpty then .ok []
  else if containsNonAscii path && !smtputf8 then .error (reply 553 "SMTPUTF8 required")
  else
    match parsePath? P path smtputf8 with
    | none => .error (reply 501 "invalid sender")
    | some sender => .ok sender

/-- Everything `MAIL` checks before it changes the session. -/
def parseMail (P : Platform) (s : SmtpSession) (line : Bytes) :
    Except Reply (Text × Option Nat × Bool) := do
  match parsePathCommand line (Json.ascii "MAIL".toList) (Json.ascii "FROM:".toList) true with
  | none => .error (reply 501 "invalid sender")
  | some parsed =>
    if !parsed.parameters.isEmpty && !s.extendedSmtp then
      .error (reply 503 "send EHLO before ESMTP parameters")
    else
      let (declared, smtputf8) ← mailParameters s.maxMessageSizeBytes parsed.parameters none false
      let sender ← mailSender P parsed.path smtputf8
      return (sender, declared, smtputf8)

/-- `MAIL` (`smtp_session.cpp:415-484`). -/
def handleMail (P : Platform) (line : Bytes) : SessionM (Option Reply) := do
  let s ← get
  match parseMail P s line with
  | .error r => return some r
  | .ok (sender, declared, smtputf8) =>
    refreshDomainRules
    modify fun s => { s with
      mailFrom := sender, mailFromSeen := true, mailSmtputf8 := smtputf8
      declaredMessageSize := declared, recipients := [] }
    releaseDataBuffer
    modify fun s => { s with
      dataTooLarge := false, dataQueueFull := false, dataOctetsReceived := 0
      effectiveMessageSizeBytes := s.maxMessageSizeBytes }
    return some (reply 250 "OK")

/-- The message limit once a recipient with this policy is accepted; `none` refuses the declared
    size. -/
def recipientLimit (s : SmtpSession) : Option DomainPolicySnapshot → Option Nat
  | none => some s.effectiveMessageSizeBytes
  | some policy =>
    if 0 < policy.maxMessageSizeBytes then
      let candidate := min s.effectiveMessageSizeBytes policy.maxMessageSizeBytes.toNat
      if s.declaredMessageSize.any (candidate < ·) then none else some candidate
    else some s.effectiveMessageSizeBytes

/-- `RCPT` once its path is parsed and matched (`smtp_session.cpp:511-552`). -/
def acceptRecipient (rcptTo : Text) (m : DomainMatch) : SessionM (Option Reply) := do
  let s ← get
  if s.recipients.any (fun r => r.domainMatch.addressCanonical = m.addressCanonical) then
    return some (reply 250 "OK")
  if s.maxRecipients ≤ (s.recipients.length : Int) then
    call .countRecipientRejection
    return some (reply 552 "too many recipients")
  let policy := s.domainRules.policy? m.domainId
  match recipientLimit s policy with
  | none => return some (reply 552 "message size exceeds recipient limit")
  | some limit =>
    modify fun s => { s with effectiveMessageSizeBytes := limit }
    let deliveryId ← call (.makePrefixedId "dlv_".toList)
    modify fun s => { s with recipients := s.recipients ++ [⟨deliveryId, rcptTo, m, policy⟩] }
    return some (reply 250 "OK")

/-- `RCPT` (`smtp_session.cpp:485-552`). -/
def handleRcpt (P : Platform) (line : Bytes) : SessionM (Option Reply) := do
  let s ← get
  if !s.mailFromSeen then
    return some (reply 503 "need MAIL FROM first")
  match parsePathCommand line (Json.ascii "RCPT".toList) (Json.ascii "TO:".toList) false with
  | none => return some (reply 501 "invalid recipient")
  | some parsed =>
    if !parsed.parameters.isEmpty then
      return some (reply 555 "unsupported RCPT TO parameter")
    if containsNonAscii parsed.path && !s.mailSmtputf8 then
      return some (reply 553 "SMTPUTF8 required")
    let found := (Utf8.decode? parsed.path).bind fun text =>
      (s.domainRules.matcher.matchAddress (cppAddressOps P.unicode) text).map (text, ·)
    match found with
    | none =>
      call .countRecipientRejection
      return some (reply 550 "domain not allowed")
    | some (text, m) => acceptRecipient text m

/-- `DATA` (`smtp_session.cpp:553-579`). -/
def handleData : SessionM (Option Reply) := do
  let s ← get
  if s.recipients.isEmpty then
    return some (reply 554 "no valid recipients")
  if ← underMaintenance then
    return some (reply 451 "storage maintenance in progress")
  if !(← call (.tryReserve 0)) then
    return some (reply 451 "temporary queue full")
  modify fun s => { s with
    queueReservationActive := true, queueReservationBytes := 0
    inData := true, dataTooLarge := false, dataQueueFull := false, dataOctetsReceived := 0 }
  releaseDataBuffer
  return some (reply 354 "End data with <CR><LF>.<CR><LF>")

/-- `handle_command` (`smtp_session.cpp:376-582`). -/
def handleCommand (P : Platform) (line : Bytes) : SessionM (Option Reply) := do
  let named (command : String) := matchesCommandCi line (Json.ascii command.toList)
  let bare (command : String) := matchesNoArgCommandCi line (Json.ascii command.toList)
  if named "EHLO" then
    if !hasCommandArgument line (Json.ascii "EHLO".toList) then
      return some (reply 501 "invalid EHLO argument")
    clearTransactionState
    modify fun s => { s with extendedSmtp := true }
    return some (ehloResponse (← get))
  else if named "HELO" then
    if !hasCommandArgument line (Json.ascii "HELO".toList) then
      return some (reply 501 "invalid HELO argument")
    clearTransactionState
    modify fun s => { s with extendedSmtp := false }
    return some (reply 250 "rapid-inbox-ingestd")
  else if named "NOOP" then
    return some (reply 250 "OK")
  else if named "VRFY" then
    if ((line.drop 4).dropWhile isAsciiSpace).isEmpty then
      return some (reply 501 "invalid VRFY argument")
    return some (reply 252 "Cannot VRFY user")
  else if bare "QUIT" then
    return some (reply 221 "2.0.0 Bye")
  else if bare "RSET" then
    clearAndReply (reply 250 "OK")
  else if named "MAIL" then
    handleMail P line
  else if named "RCPT" then
    handleRcpt P line
  else if bare "DATA" then
    handleData
  else
    return some (reply 502 "command not implemented")

/-- `handle_line` (`smtp_session.cpp:331-368`); `none` is the empty reply. -/
def handleLine (P : Platform) (line : Bytes) : SessionM (Option Reply) := do
  let s ← get
  if s.inData then
    if line = [0x2E] then
      if s.dataTooLarge then
        clearAndReply (reply 552 "message too large")
      else if s.dataQueueFull then
        clearAndReply (reply 451 "temporary queue full")
      else
        finishData P
    else
      handleDataLine line
  else
    handleCommand P line

/-- `reject_overlong_data_line`. -/
def rejectOverlongDataLine : SessionM (Option Reply) := do
  let s ← get
  if s.inData then
    markDataTooLarge
  return none

end SmtpSession

end RapidInbox
