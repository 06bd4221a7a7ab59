import RapidInbox.Domain.Matcher

/-!
# Accepted messages

The records of `cpp/ingestd/src/mail_job.h`: what a session hands to the queue, and the storage
paths of `storage_path.cpp` under which the message becomes durable.
-/

namespace RapidInbox

/-- Raw bytes, as `std::string` holds them. -/
abbrev Bytes := List UInt8

/-- Seconds since 1970 of `utc_now`.  The code stores the text `YYYY-MM-DDTHH:MM:SSZ`, which has one
    width and therefore sorts as the number does. -/
abbrev Timestamp := Nat

/-- The first instant whose year has five digits; `path_date_parts` refuses it. -/
def endOfFourDigitYears : Nat := 253402300800

theorem endOfFourDigitYears_pos : 0 < endOfFourDigitYears := by decide

/-- Year, month and day of a day number counted from 1970-01-01 (`gmtime_r`). -/
def civilFromDays (days : Nat) : Nat × Nat × Nat :=
  let z := days + 719468
  let era := z / 146097
  let doe := z % 146097
  let yoe := (doe - doe / 1460 + doe / 36524 - doe / 146096) / 365
  let doy := doe - (365 * yoe + yoe / 4 - yoe / 100)
  let mp := (5 * doy + 2) / 153
  let day := doy - (153 * mp + 2) / 5 + 1
  let month := if mp < 10 then mp + 3 else mp - 9
  let year := yoe + era * 400 + if month ≤ 2 then 1 else 0
  (year, month, day)

/-- A decimal digit. -/
def digitChar (n : Nat) : Char := Char.ofNat (48 + n % 10)

/-- The last `width` decimal digits of a number (`%0*d` of a number that fits). -/
def paddedDecimal : Nat → Nat → Text
  | 0, _ => []
  | width + 1, n => paddedDecimal width (n / 10) ++ [digitChar n]

/-- `DateParts` of `path_date_parts`, joined by `sep`. -/
def dateText (sep : Char) (t : Timestamp) : Text :=
  let (year, month, day) := civilFromDays (t / 86400)
  paddedDecimal 4 year ++ sep :: paddedDecimal 2 month ++ sep :: paddedDecimal 2 day

/-- `utc_now`'s text. -/
def utcText (t : Timestamp) : Text :=
  let s := t % 86400
  dateText '-' t ++ 'T' :: paddedDecimal 2 (s / 3600) ++ ':' :: paddedDecimal 2 (s / 60 % 60) ++
    ':' :: paddedDecimal 2 (s % 60) ++ ['Z']

/-- `dated_path`. -/
def datedPath (root messageId : Text) (receivedAt : Timestamp) (extension : Text) : Text :=
  root ++ '/' :: dateText '/' receivedAt ++ '/' :: messageId ++ extension

def rawMessagePath (messageId : Text) (receivedAt : Timestamp) : Text :=
  datedPath "raw".toList messageId receivedAt ".eml".toList

def manifestPath (messageId : Text) (receivedAt : Timestamp) : Text :=
  datedPath "manifests".toList messageId receivedAt ".json".toList

def textBodyPath (messageId : Text) (receivedAt : Timestamp) : Text :=
  datedPath "text".toList messageId receivedAt ".txt".toList

def htmlBodyPath (messageId : Text) (receivedAt : Timestamp) : Text :=
  datedPath "html".toList messageId receivedAt ".html".toList

def attachmentPath (messageId attachmentId safeName : Text) : Text :=
  "attachments/".toList ++ messageId ++ '/' :: attachmentId ++ '-' :: safeName

/-- `is_safe_filename_char`. -/
def isSafeFilenameChar (b : UInt8) : Bool :=
  (0x61 ≤ b && b ≤ 0x7A) || (0x41 ≤ b && b ≤ 0x5A) || (0x30 ≤ b && b ≤ 0x39) ||
    b == 0x2E || b == 0x5F || b == 0x2D

/-- The loop of `safe_filename`: each run of other bytes becomes one underscore. -/
def safeFilenameChars : Bool → Bytes → Text
  | _, [] => []
  | previousInvalid, b :: bs =>
    if isSafeFilenameChar b then Char.ofNat b.toNat :: safeFilenameChars false bs
    else if previousInvalid then safeFilenameChars true bs
    else '_' :: safeFilenameChars true bs

def isDotOrUnderscore (c : Char) : Bool := c == '.' || c == '_'

/-- Drop trailing dots and underscores. -/
def rtrimSafe (t : Text) : Text := (t.reverse.dropWhile isDotOrUnderscore).reverse

/-- Cut a safe name to 160 bytes, keeping an extension of at most 16. -/
def truncateSafe (safe : Text) : Text :=
  let extension := '.' :: (safe.reverse.takeWhile (· != '.')).reverse
  if safe.contains '.' && extension.length < safe.length && extension.length ≤ 16 then
    safe.take (160 - extension.length) ++ extension
  else safe.take 160

/-- `safe_filename` (`storage_path.cpp:27-66`). -/
def safeFilename (filename : Bytes) : Text :=
  let safe := rtrimSafe ((safeFilenameChars false filename).dropWhile isDotOrUnderscore)
  if safe.isEmpty then "attachment.bin".toList
  else if safe.length ≤ 160 then safe
  else
    let cut := rtrimSafe (truncateSafe safe)
    if cut.isEmpty then "attachment.bin".toList else cut

/-- The `dns_status` column. -/
inductive DnsStatus where
  | unknown
  | ok
  | warning
  | error
  deriving DecidableEq, Repr

/-- `DomainPolicySnapshot`. -/
structure DomainPolicySnapshot where
  rootDomainUnicode : Text
  acceptExact : Bool
  acceptSubdomains : Bool
  publicWebEnabled : Bool
  publicApiEnabled : Bool
  isActive : Bool
  isHidden : Bool
  plusAddressingMode : PlusMode
  localPartCaseSensitive : Bool
  maxMessageSizeBytes : Int
  retentionDays : Option Int
  dnsStatus : DnsStatus
  deriving DecidableEq, Repr

structure RecipientDelivery where
  deliveryId : Text
  rcptTo : Text
  domainMatch : DomainMatch
  domainPolicy : Option DomainPolicySnapshot
  deriving DecidableEq, Repr

structure MailJob where
  smtpSessionId : Text
  remoteIp : Text
  messageId : Text
  envelopeFrom : Text
  receivedAt : Timestamp
  rawPath : Text
  manifestPath : Text
  rawSha256 : Text
  rawContent : Bytes
  recipients : List RecipientDelivery
  artifactsPersisted : Bool
  deriving DecidableEq, Repr

end RapidInbox
