import RapidInbox.Lib.PyJson
import RapidInbox.Lib.Result

/-!
# What a receipt must have to be recovered

`validate_recovery_manifest` reads a receipt that anyone may have written, so it
checks the type of every field that recovery reads later.  Here it also returns those fields.
-/

namespace RapidInbox.Recovery

/-- What a recovery scan raises. -/
inductive RecoveryError where
  /-- `ValueError("invalid recovery manifest")`, and the errors of `storage.resolve` -/
  | invalidManifest
  /-- `UnicodeEncodeError`, of a text that is bound to a statement -/
  | unicodeEncode
  /-- `OverflowError`, of an integer that is bound to a statement -/
  | integerOverflow
  /-- `TypeError`, of a value without a hash that is looked up in a set -/
  | unhashable
  deriving DecidableEq

abbrev Checked := Except RecoveryError

def check (ok : Bool) : Checked Unit := if ok then .ok () else .error .invalidManifest

/-- `isinstance(d[key], str)` -/
def requireStr (d : PyDict) (key : String) : Checked PyStr :=
  match PyDict.get? d key with
  | some (.str s) => .ok s
  | _ => .error .invalidManifest

/-- `isinstance(d[key], int)`, and no `bool` -/
def requireInt (d : PyDict) (key : String) : Checked Int :=
  match PyDict.get? d key with
  | some (.int n) => .ok n
  | _ => .error .invalidManifest

/-- `isinstance(d[key], bool)` -/
def requireBool (d : PyDict) (key : String) : Checked Bool :=
  match PyDict.get? d key with
  | some (.bool b) => .ok b
  | _ => .error .invalidManifest

/-- `isinstance(d[key], list)` -/
def requireList (d : PyDict) (key : String) : Checked (List PyJson) :=
  match PyDict.get? d key with
  | some (.list xs) => .ok xs
  | _ => .error .invalidManifest

/-- An entry that is an integer or `None`. -/
def requireOptionalInt (d : PyDict) (key : String) : Checked (Option Int) :=
  match PyDict.get? d key with
  | some .null => .ok none
  | some (.int n) => .ok (some n)
  | _ => .error .invalidManifest

/-- A string, or `None`, or no entry at all. -/
def optionalStr (d : PyDict) (key : String) : Checked (Option PyStr) :=
  match PyDict.get? d key with
  | none | some .null => .ok none
  | some (.str s) => .ok (some s)
  | _ => .error .invalidManifest

def isText (values : List String) (s : PyStr) : Bool :=
  values.any fun value => PyStr.ofChars value.toList = s

/-- `_validate_recovery_domain_policy` -/
def validateRecoveryDomainPolicy : Option PyJson → Checked PyDict
  | some (.dict policy) => do
      let _ ← requireStr policy "root_domain_unicode"
      ["accept_exact", "accept_subdomains", "public_web_enabled", "public_api_enabled", "is_active",
        "is_hidden", "local_part_case_sensitive"].forM fun key => do
          let _ ← requireBool policy key
      let plusAddressingMode ← requireStr policy "plus_addressing_mode"
      check (isText ["keep", "strip"] plusAddressingMode)
      let _ ← requireInt policy "max_message_size_bytes"
      let _ ← requireOptionalInt policy "retention_days"
      let dnsStatus ← requireStr policy "dns_status"
      check (isText ["unknown", "ok", "warning", "error"] dnsStatus)
      return policy
  | _ => .error .invalidManifest

/-- What recovery reads of a recipient. -/
structure ManifestRecipient where
  domainId : Int
  rootDomainAscii : PyStr
  domainPolicy : PyDict

/-- One entry of `recipients`. -/
def validateRecipient : PyJson → Checked ManifestRecipient
  | .dict recipient => do
      let _ ← requireStr recipient "rcpt_to"
      let domainId ← requireInt recipient "domain_id"
      let _ ← requireStr recipient "domain_ascii"
      let rootDomainAscii ← requireStr recipient "root_domain_ascii"
      let _ ← requireStr recipient "local_part_canonical"
      let _ ← requireStr recipient "address_canonical"
      let domainPolicy ← validateRecoveryDomainPolicy (PyDict.get? recipient "domain_policy")
      return { domainId, rootDomainAscii, domainPolicy }
  | _ => .error .invalidManifest

/-- The `rcpt_tos` of a receipt in the older format, which has no recipients with a policy. -/
def validateRcptTos (manifest : PyDict) : Checked (List ManifestRecipient) := do
  let rcptTos ← requireList manifest "rcpt_tos"
  check (!rcptTos.isEmpty)
  rcptTos.forM fun
    | .str _ => .ok ()
    | _ => .error .invalidManifest
  return []

/-- The recipients of a receipt. -/
def validateRecipients (manifest : PyDict) : Checked (List ManifestRecipient) :=
  match PyDict.get? manifest "recipients" with
  | none | some .null => validateRcptTos manifest
  | some (.list (recipient :: recipients)) => (recipient :: recipients).mapM validateRecipient
  | _ => .error .invalidManifest

/-- One entry of `parsed.attachments`; `resolves` is whether `storage.resolve` accepts a path. -/
def validateAttachment (resolves : PyStr → Bool) : PyJson → Checked Unit
  | .dict attachment => do
      let _ ← requireStr attachment "id"
      let storagePath ← requireStr attachment "storage_path"
      let _ ← requireStr attachment "safe_filename"
      let _ ← requireStr attachment "content_type"
      let _ ← requireInt attachment "part_index"
      let _ ← requireInt attachment "size_bytes"
      let _ ← requireBool attachment "is_inline"
      ["filename", "content_disposition", "content_id", "sha256"].forM fun key => do
        let _ ← optionalStr attachment key
      check (resolves storagePath)
  | _ => .error .invalidManifest

/-- `parsed.get("status")`, which is looked up in a set before its type is known. -/
def requireStatus (parsed : PyDict) : Checked PyStr :=
  match PyDict.get? parsed "status" with
  | some (.str s) => .ok s
  | some (.list _) | some (.dict _) => .error .unhashable
  | _ => .error .invalidManifest

/-- `_validate_recovery_parsed_manifest` -/
def validateRecoveryParsedManifest (resolves : PyStr → Bool) : PyJson → Checked Unit
  | .dict parsed => do
      let status ← requireStatus parsed
      if isText ["failed"] status then
        let parseError ← requireStr parsed "parse_error"
        check (!parseError.isEmpty)
      else
        check (isText ["parsed"] status)
        ["has_text", "has_html", "has_attachments"].forM fun key => do
          let _ ← requireBool parsed key
        let _ ← requireInt parsed "attachment_count"
        let _ ← requireList parsed "headers_json"
        ["message_id_header", "subject", "from_name", "from_addr", "reply_to", "date_header",
          "text_preview", "text_body_path", "html_body_path", "verification_code"].forM fun key => do
            let _ ← optionalStr parsed key
        ["text_body_path", "html_body_path"].forM fun key => do
          let path ← optionalStr parsed key
          check (path.all resolves)
        let attachments ← requireList parsed "attachments"
        attachments.forM (validateAttachment resolves)
  | _ => .error .invalidManifest

/-- A receipt that has passed the validation, with the fields that a scan reads. -/
structure RecoveryReceipt where
  document : PyDict
  messageId : PyStr
  receivedAt : PyStr
  rawPath : PyStr
  rawSha256 : PyStr
  rawSizeBytes : Int
  recoveryOrderNs : Option Nat
  recipients : List ManifestRecipient

/-- The optional `recovery_order_ns`. -/
def validateRecoveryOrder (manifest : PyDict) : Checked (Option Nat) :=
  match PyDict.get? manifest "recovery_order_ns" with
  | none => .ok none
  | some (.int (.ofNat n)) => .ok (some n)
  | _ => .error .invalidManifest

/-- The optional `parsed`. -/
def validateParsed (resolves : PyStr → Bool) (manifest : PyDict) : Checked Unit :=
  match PyDict.get? manifest "parsed" with
  | none | some .null => .ok ()
  | some parsed => validateRecoveryParsedManifest resolves parsed

/-- `validate_recovery_manifest` -/
def validateRecoveryManifest (resolves : PyStr → Bool) : PyJson → Checked RecoveryReceipt
  | .dict manifest => do
      let messageId ← requireStr manifest "message_id"
      let receivedAt ← requireStr manifest "received_at"
      let rawPath ← requireStr manifest "raw_path"
      let rawSha256 ← requireStr manifest "raw_sha256"
      check (resolves rawPath)
      let recoveryOrderNs ← validateRecoveryOrder manifest
      let rawSizeBytes ← requireInt manifest "raw_size_bytes"
      let recipients ← validateRecipients manifest
      validateParsed resolves manifest
      return { document := manifest, messageId, receivedAt, rawPath, rawSha256, rawSizeBytes,
               recoveryOrderNs, recipients }
  | _ => .error .invalidManifest

/-! ## The fields of a validated receipt -/

variable {d : PyDict} {key : String} {resolves : PyStr → Bool}

/-- A string field of an object whose strings can all be encoded. -/
theorem encodable_requireStr {s : PyStr} (hd : PyJson.encodableFields d = true)
    (h : requireStr d key = .ok s) : PyStr.encodable s = true := by
  unfold requireStr at h
  split at h
  · rename_i hget
    cases h
    exact PyJson.encodable_get? hd hget
  · cases h

theorem validateRecoveryDomainPolicy_ok {value : Option PyJson} {policy : PyDict}
    (h : validateRecoveryDomainPolicy value = .ok policy) : value = some (.dict policy) := by
  unfold validateRecoveryDomainPolicy at h
  split at h
  · simp only [Except.bind_ok_iff] at h
    obtain ⟨-, -, -, -, -, -, -, -, -, -, -, -, -, -, -, -, h⟩ := h
    cases h
    rfl
  · cases h

/-- The texts of a recipient that a scan stages. -/
structure ManifestRecipient.Encodable (recipient : ManifestRecipient) : Prop where
  rootDomainAscii : PyStr.encodable recipient.rootDomainAscii = true
  domainPolicy : PyJson.encodableFields recipient.domainPolicy = true

theorem validateRecipient_encodable {value : PyJson} {recipient : ManifestRecipient}
    (hvalue : value.encodable = true) (h : validateRecipient value = .ok recipient) :
    recipient.Encodable := by
  unfold validateRecipient at h
  split at h
  · simp only [Except.bind_ok_iff] at h
    obtain ⟨-, -, domainId, -, -, -, root, hroot, -, -, -, -, policy, hpolicy, h⟩ := h
    cases h
    exact ⟨encodable_requireStr hvalue hroot,
      PyJson.encodable_get? hvalue (validateRecoveryDomainPolicy_ok hpolicy)⟩
  · cases h

theorem mapM_validateRecipient_encodable {values : List PyJson} {recipients : List ManifestRecipient}
    (hvalues : ∀ value ∈ values, value.encodable = true)
    (h : values.mapM validateRecipient = .ok recipients) :
    ∀ recipient ∈ recipients, recipient.Encodable := by
  induction values generalizing recipients with
  | nil =>
    cases h
    exact nofun
  | cons value values ih =>
    rw [List.mapM_cons] at h
    simp only [Except.bind_ok_iff] at h
    obtain ⟨recipient, hrecipient, rest, hrest, h⟩ := h
    cases h
    obtain ⟨hvalue, hvalues⟩ := List.forall_mem_cons.mp hvalues
    exact List.forall_mem_cons.mpr ⟨validateRecipient_encodable hvalue hrecipient, ih hvalues hrest⟩

theorem validateRecipients_encodable {recipients : List ManifestRecipient}
    (hd : PyJson.encodableFields d = true) (h : validateRecipients d = .ok recipients) :
    ∀ recipient ∈ recipients, recipient.Encodable := by
  have hlegacy (h : validateRcptTos d = .ok recipients) :
      ∀ recipient ∈ recipients, recipient.Encodable := by
    unfold validateRcptTos at h
    simp only [Except.bind_ok_iff] at h
    obtain ⟨-, -, -, -, -, -, h⟩ := h
    cases h
    exact nofun
  unfold validateRecipients at h
  split at h
  · exact hlegacy h
  · exact hlegacy h
  · rename_i hget
    exact mapM_validateRecipient_encodable (PyJson.encodable_mem_elems (PyJson.encodable_get? hd hget)) h
  · cases h

/-- The texts of a receipt whose document can be encoded. -/
structure RecoveryReceipt.Encodable (r : RecoveryReceipt) : Prop where
  messageId : PyStr.encodable r.messageId = true
  receivedAt : PyStr.encodable r.receivedAt = true
  rawPath : PyStr.encodable r.rawPath = true
  recipients : ∀ recipient ∈ r.recipients, recipient.Encodable

theorem validateRecoveryManifest_encodable {value : PyJson} {r : RecoveryReceipt}
    (h : validateRecoveryManifest resolves value = .ok r)
    (hdocument : PyJson.encodableFields r.document = true) : r.Encodable := by
  unfold validateRecoveryManifest at h
  split at h
  · simp only [Except.bind_ok_iff] at h
    obtain ⟨messageId, hmessage, receivedAt, hreceived, rawPath, hraw, rawSha256, -, -, -,
      order, -, size, -, recipients, hrecipients, -, -, h⟩ := h
    cases h
    exact ⟨encodable_requireStr hdocument hmessage, encodable_requireStr hdocument hreceived,
      encodable_requireStr hdocument hraw, validateRecipients_encodable hdocument hrecipients⟩
  · cases h

end RapidInbox.Recovery
