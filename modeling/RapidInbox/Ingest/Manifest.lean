import RapidInbox.Lib.Json
import RapidInbox.Ingest.MailJob

/-!
# Recovery manifests

`BatchWriter::build_manifest` and `parsed_manifest_json` (`batch_writer.cpp:427-533, 936-986`).  The
code concatenates JSON by hand; here the same members are listed in the same order as a tree whose
strings are the bytes the code escapes, and `Json.render` is the concatenation.
-/

namespace RapidInbox

/-- `kMaxRecoveryManifestBytes`. -/
def kMaxRecoveryManifestBytes : Nat := 16 * 1024 * 1024

structure ParsedAttachment where
  attachmentId : Text
  partIndex : Nat
  filename : Option Bytes
  safeFilename : Text
  contentType : Bytes
  contentDisposition : Option Bytes
  contentId : Option Bytes
  storagePath : Text
  sha256 : Text
  content : Bytes
  isInline : Bool
  deriving DecidableEq, Repr

/-- `ParsedMail` (`parsed_mail.h`).  `headers_json` is the list of header names and values it is
    rendered from. -/
structure ParsedMail where
  messageIdHeader : Option Bytes
  subject : Option Bytes
  fromName : Option Bytes
  fromAddr : Option Bytes
  replyTo : Option Bytes
  dateHeader : Option Bytes
  hasText : Bool
  hasHtml : Bool
  hasAttachments : Bool
  attachmentCount : Nat
  textPreview : Option Bytes
  textBodyPath : Option Text
  htmlBodyPath : Option Text
  textBody : Bytes
  htmlBody : Bytes
  headers : List (Bytes × Bytes)
  verificationCode : Option Bytes
  attachments : List ParsedAttachment
  deriving DecidableEq, Repr

/-- `std::variant<ParsedMail, ParseFailure>`; a failure carries its message. -/
inductive ParseResult where
  | parsed (mail : ParsedMail)
  | failed (message : Bytes)
  deriving DecidableEq, Repr

/-- A string member. -/
def jsonText (t : Text) : Json Bytes := .str (Utf8.encode t)

/-- A member that is a string or `null`. -/
def jsonOption : Option Bytes → Json Bytes
  | some s => .str s
  | none => .null

/-- A member name. -/
def key (s : String) : Bytes := Json.ascii s.toList

def PlusMode.text : PlusMode → Text
  | .keep => "keep".toList
  | .strip => "strip".toList

def DnsStatus.text : DnsStatus → Text
  | .unknown => "unknown".toList
  | .ok => "ok".toList
  | .warning => "warning".toList
  | .error => "error".toList

/-- `build_domain_policy`. -/
def domainPolicyJson (p : DomainPolicySnapshot) : Json Bytes :=
  .obj
    [(key "root_domain_unicode", jsonText p.rootDomainUnicode),
     (key "accept_exact", .bool p.acceptExact),
     (key "accept_subdomains", .bool p.acceptSubdomains),
     (key "public_web_enabled", .bool p.publicWebEnabled),
     (key "public_api_enabled", .bool p.publicApiEnabled),
     (key "is_active", .bool p.isActive),
     (key "is_hidden", .bool p.isHidden),
     (key "plus_addressing_mode", jsonText p.plusAddressingMode.text),
     (key "local_part_case_sensitive", .bool p.localPartCaseSensitive),
     (key "max_message_size_bytes", .num p.maxMessageSizeBytes),
     (key "retention_days", match p.retentionDays with | some d => .num d | none => .null),
     (key "dns_status", jsonText p.dnsStatus.text)]

/-- One entry of `recipients`. -/
def recipientJson (r : RecipientDelivery) (policy : DomainPolicySnapshot) : Json Bytes :=
  .obj
    [(key "rcpt_to", jsonText r.rcptTo),
     (key "domain_id", .num r.domainMatch.domainId),
     (key "domain_ascii", jsonText r.domainMatch.domainAscii),
     (key "root_domain_ascii", jsonText r.domainMatch.rootDomainAscii),
     (key "local_part_canonical", jsonText r.domainMatch.localPartCanonical),
     (key "address_canonical", jsonText r.domainMatch.addressCanonical),
     (key "domain_policy", domainPolicyJson policy)]

/-- `recipients`; a recipient without a policy snapshot throws. -/
def recipientsJson? (rs : List RecipientDelivery) : Option (List (Json Bytes)) :=
  rs.mapM fun r => r.domainPolicy.map (recipientJson r)

/-- One entry of `attachments`. -/
def attachmentJson (a : ParsedAttachment) : Json Bytes :=
  .obj
    [(key "id", jsonText a.attachmentId),
     (key "part_index", .num a.partIndex),
     (key "filename", jsonOption a.filename),
     (key "safe_filename", jsonText a.safeFilename),
     (key "content_type", .str a.contentType),
     (key "content_disposition", jsonOption a.contentDisposition),
     (key "content_id", jsonOption a.contentId),
     (key "storage_path", jsonText a.storagePath),
     (key "sha256", jsonText a.sha256),
     (key "size_bytes", .num a.content.length),
     (key "is_inline", .bool a.isInline)]

/-- `headers_json`, as the MIME parser renders it. -/
def headersJson (headers : List (Bytes × Bytes)) : Json Bytes :=
  .arr (headers.map fun (name, value) => .arr [.str name, .str value])

/-- `parsed_manifest_json`. -/
def parsedMailJson (p : ParsedMail) : Json Bytes :=
  .obj
    [(key "status", jsonText "parsed".toList),
     (key "message_id_header", jsonOption p.messageIdHeader),
     (key "subject", jsonOption p.subject),
     (key "from_name", jsonOption p.fromName),
     (key "from_addr", jsonOption p.fromAddr),
     (key "reply_to", jsonOption p.replyTo),
     (key "date_header", jsonOption p.dateHeader),
     (key "has_text", .bool p.hasText),
     (key "has_html", .bool p.hasHtml),
     (key "has_attachments", .bool p.hasAttachments),
     (key "attachment_count", .num p.attachmentCount),
     (key "text_preview", jsonOption p.textPreview),
     (key "text_body_path", jsonOption (p.textBodyPath.map Utf8.encode)),
     (key "html_body_path", jsonOption (p.htmlBodyPath.map Utf8.encode)),
     (key "headers_json", headersJson p.headers),
     (key "verification_code", jsonOption p.verificationCode),
     (key "attachments", .arr (p.attachments.map attachmentJson))]

/-- The `parsed` member; a pending manifest has none. -/
def parsedMembers : Option ParseResult → List (Bytes × Json Bytes)
  | none => []
  | some (.parsed p) => [(key "parsed", parsedMailJson p)]
  | some (.failed message) =>
    [(key "parsed",
      .obj [(key "status", jsonText "failed".toList), (key "parse_error", .str message)])]

/-- `build_manifest` before rendering. -/
def manifestJson? (job : MailJob) (result : Option ParseResult) : Option (Json Bytes) :=
  (recipientsJson? job.recipients).map fun recipients =>
    .obj
      ([(key "message_id", jsonText job.messageId),
        (key "smtp_session_id", jsonText job.smtpSessionId),
        (key "remote_ip", jsonText job.remoteIp),
        (key "envelope_from", jsonText job.envelopeFrom),
        (key "received_at", jsonText (utcText job.receivedAt)),
        (key "raw_path", jsonText job.rawPath),
        (key "raw_sha256", jsonText job.rawSha256),
        (key "raw_size_bytes", .num job.rawContent.length),
        (key "rcpt_tos", .arr (job.recipients.map fun r => jsonText r.rcptTo)),
        (key "recipients", .arr recipients)] ++ parsedMembers result)

/-- `build_manifest`; `none` is the exception for a recipient without a policy. -/
def buildManifest? (job : MailJob) (result : Option ParseResult) : Option Bytes :=
  (manifestJson? job result).map Json.render

end RapidInbox
