import Mathlib.Data.List.Sort
import RapidInbox.Auth.Tables

/-!
# API keys

`app/auth/api_keys.py`: what a key's fields are normalised to, how a key authenticates a request, the
reload of a caller inside a write transaction, and the five operations that change keys.

The transactions are pure functions of the tables; random values and the times they read are their
arguments.
-/

namespace RapidInbox

/-! ## Normalised fields -/

/-- A loop that normalises values, raises at the first bad one and drops repetitions. -/
def collectUnique {α β : Type} [DecidableEq β] (normalize : α → Except AuthError β) :
    List α → List β → Except AuthError (List β)
  | [], seen => .ok seen
  | value :: values, seen =>
    match normalize value with
    | .error e => .error e
    | .ok normalized =>
      if normalized ∈ seen then collectUnique normalize values seen
      else collectUnique normalize values (seen ++ [normalized])

/-- The text of a kind. -/
def ApiKeyKind.text : ApiKeyKind → String
  | .admin => "admin"
  | .publicKey => "public"
  | .service => "service"

/-- The text of a grant mode. -/
def DomainGrantMode.text : DomainGrantMode → String
  | .none => "none"
  | .selected => "selected"
  | .all => "all"
  | .invalid => ""

/-- One scope of `validate_scopes_for_kind`. -/
def validateScope (kind : ApiKeyKind) (raw : Text) : Except AuthError Text :=
  let scope := stripUnicodeWhitespace raw
  if scope.isEmpty then .error (.value "invalid empty api key scope")
  else if scope ∉ validApiKeyScopes then
    .error (.value ("invalid api key scope: " ++ String.ofList scope))
  else if scope ∉ kind.scopes then
    .error (.value ("api key kind " ++ kind.text ++ " cannot use scope: " ++ String.ofList scope))
  else .ok scope

/-- `validate_scopes_for_kind`. -/
def validateScopesForKind (kind : ApiKeyKind) (scopes : List Text) : Except AuthError (List Text) :=
  if 100 < scopes.length then .error (.value "too many api key scopes")
  else
    match collectUnique (validateScope kind) scopes [] with
    | .error e => .error e
    | .ok normalized =>
      if normalized.isEmpty then .error (.value "api key scopes are required") else .ok normalized

/-- One pattern of `_normalize_mailbox_patterns`. -/
def normalizeMailboxPattern (value : Text) : Except AuthError Text :=
  let pattern := stripUnicodeWhitespace value
  if pattern.isEmpty then .error (.value "invalid empty mailbox pattern")
  else if 320 < pattern.length || pattern.any (fun c => decide (c.toNat < 32)) ||
      pattern.contains '[' || pattern.contains ']' then .error (.value "invalid mailbox pattern")
  else if pattern.count '@' ≠ 1 then
    .error (.value "mailbox pattern must contain exactly one @")
  else .ok pattern

def maxMailboxPatterns : Nat := 100
def maxAllowedIpCidrs : Nat := 100
def maxRateLimitCount : Int := 10000000

/-- `_normalize_mailbox_patterns`. -/
def normalizeMailboxPatterns (values : List Text) : Except AuthError (List Text) :=
  if maxMailboxPatterns < values.length then .error (.value "too many mailbox patterns")
  else collectUnique normalizeMailboxPattern values []

/-- `_normalize_ip_cidrs`. -/
def normalizeIpCidrs (E : StdText) (values : List Text) : Except AuthError (List Text) :=
  if maxAllowedIpCidrs < values.length then .error (.value "too many allowed IP networks")
  else
    collectUnique (fun value =>
      match E.ipNetwork value with
      | none => .error (.value (String.ofList value ++ " is not an IPv4 or IPv6 network"))
      | some network => .ok (E.withPrefixlen network)) values []

/-- `_unique_int_values`. -/
def uniqueIntValues (values : List Int) : Except AuthError (List Nat) :=
  if 10000 < values.length then .error (.value "too many domain ids")
  else
    collectUnique (fun value =>
      if value < 1 then .error (.value "invalid domain id") else .ok value.toNat) values []

/-- `_validate_domain_grants`. -/
def validateDomainGrants (mode : DomainGrantMode) (domainIds : List Nat) : Except AuthError Unit :=
  if (mode = .none || mode = .all) && !domainIds.isEmpty then
    .error (.value ("domain ids are not allowed in " ++ mode.text ++ " grant mode"))
  else .ok ()

/-- `_normalize_domain_grant_mode`. -/
def normalizeDomainGrantMode (mode : DomainGrantMode) : Except AuthError DomainGrantMode :=
  if mode = .invalid then .error (.value "invalid domain grant mode") else .ok mode

/-- `_normalize_name`. -/
def normalizeName (value : Text) : Except AuthError Text :=
  let name := stripUnicodeWhitespace value
  if name.isEmpty || 200 < name.length || name.any (fun c => decide (c.toNat < 32)) then
    .error (.value "invalid api key name")
  else .ok name

/-- `_coerce_non_negative_int` for `rate_limit_per_min`. -/
def coerceRateLimit (value : Int) : Except AuthError Int :=
  if value < 0 || maxRateLimitCount < value then .error (.value "invalid rate_limit_per_min")
  else .ok value

/-- `_normalize_expiration`, as the second whose UTC text it writes. -/
def normalizeExpirationSecond (E : StdText) (value : Text) : Except AuthError (Option Int) :=
  let text := stripUnicodeWhitespace value
  if text.isEmpty then .ok none
  else
    match E.isoDateTime text with
    | none => .error (.value "invalid expires_at")
    | some ⟨_, none⟩ => .error (.value "expires_at must include a timezone")
    | some ⟨micros, some offset⟩ =>
      -- `astimezone` raises where the offset leads out of the years of `datetime`
      let second := (micros - offset) / 1000000
      if IsDatetimeSecond second then .ok (some second)
      else .error (.overflow "date value out of range")

/-- `_normalize_expiration`. -/
def normalizeExpiration (E : StdText) (value : Option Text) : Except AuthError (Option Text) :=
  match value with
  | none => .ok none
  | some text => (normalizeExpirationSecond E text).map fun second => second.map E.isoText

/-- `_expiration_is_due`: texts of one fixed format compare as the seconds they write, and a
    malformed expiry is due; an `OverflowError` is not caught. -/
def expirationIsDue (E : StdText) (value : Option Text) (now : Timestamp) : Except AuthError Bool :=
  match value with
  | none => .ok false
  | some text =>
    if text.isEmpty then .ok false
    else
      match normalizeExpirationSecond E text with
      | .error (.overflow message) => .error (.overflow message)
      | .error _ => .ok true
      | .ok none => .ok false
      | .ok (some second) => .ok (decide (second ≤ now))

/-! ## Networks of a key -/

/-- What `create_key` and `update_key` write into `allowed_ip_cidrs`. -/
def encodeAllowedIpCidrs (cidrs : List Text) : AllowedIpCidrs :=
  if cidrs.isEmpty then .absent else .list cidrs

/-- `_decode_allowed_ip_cidrs`. -/
def decodeAllowedIpCidrs : AllowedIpCidrs → List Text
  | .absent => []
  | .malformed => []
  | .single text => [text]
  | .list items => items.filter fun item => !(stripUnicodeWhitespace item).isEmpty
  | .other => []

/-- The loop of `_request_ip_allowed`: a network that does not parse ends it. -/
def addressAllowed (E : StdText) (address : IpAddress) : List Text → Bool
  | [] => false
  | cidr :: cidrs =>
    match E.ipNetwork cidr with
    | none => false
    | some network => network.holds address || addressAllowed E address cidrs

/-- `_request_ip_allowed`. -/
def requestIpAllowed (E : StdText) (requestIp : Option Text) (allowed : AllowedIpCidrs) : Bool :=
  if allowed = .absent then true
  else
    match requestIp.bind E.ipAddress with
    | none => false
    | some address =>
      match allowed with
      | .single text => addressAllowed E address [text]
      | .list items => items.isEmpty || addressAllowed E address items
      | _ => false

/-! ## Authentication -/

inductive ApiKeyTransport where
  | header
  | query
  deriving DecidableEq, Repr

/-- `_AuthenticationRecord`. -/
structure AuthenticationRecord where
  context : PermissionContext
  secretHash : Text
  status : ApiKeyStatus
  allowHeader : Bool
  allowQuery : Bool
  rateLimitPerMin : Int
  allowedIpCidrs : AllowedIpCidrs
  expiresAt : Option Text
  deriving DecidableEq, Repr

/-- `_validate_authentication_record`; `candidateHash` is the hash of the presented secret. -/
def validateAuthenticationRecord (E : StdText) (record : AuthenticationRecord) (candidateHash : Text)
    (transport : ApiKeyTransport) (requestIp : Option Text) (now : Timestamp) :
    Except AuthError PermissionContext :=
  if candidateHash ≠ record.secretHash then .error (.lookup "invalid api key")
  else if record.status ≠ .active then .error (.lookup "inactive api key")
  else if transport = .header && !record.allowHeader then .error (.lookup "header access disabled")
  else if transport = .query && !record.allowQuery then .error (.lookup "query access disabled")
  else
    match expirationIsDue E record.expiresAt now with
    | .error e => .error e
    | .ok true => .error (.lookup "expired api key")
    | .ok false =>
      if requestIp.isSome && !requestIpAllowed E requestIp record.allowedIpCidrs then
        .error (.lookup "api key ip not allowed")
      else .ok record.context

/-! ## The caller of a write transaction -/

namespace AuthDb

/-- `_load_key`: the row and the policy of a key. -/
def loadKey (db : AuthDb) (apiKeyId : Nat) : Option (ApiKeyRow × KeyPolicy) :=
  (db.apiKey? apiKeyId).map fun row =>
    (row,
      { scopes := (ownedBy apiKeyId db.apiKeyScopes).insertionSort (· ≤ ·)
        domainIds := (ownedBy apiKeyId db.apiKeyDomainGrants).insertionSort (· ≤ ·)
        mailboxPatterns := (ownedBy apiKeyId db.apiKeyMailboxGrants).insertionSort (· ≤ ·)
        domainGrantMode := row.domainGrantMode
        rateLimitPerMin := row.rateLimitPerMin
        allowedIpCidrs := decodeAllowedIpCidrs row.allowedIpCidrs
        expiresAt := row.expiresAt
        allowHeader := row.allowHeader
        allowQuery := row.allowQuery })

end AuthDb

/-- `required_scope in scopes`, where a write scope grants the read scope. -/
def scopeIsGranted (scopes : List Text) (requiredScope : Text) : Bool :=
  decide (requiredScope ∈ scopes) ||
    (decide (".read".toList <:+ requiredScope) &&
      decide (requiredScope.take (requiredScope.length - 5) ++ ".write".toList ∈ scopes))

/-- The reload of `transaction_authorization_principal`: a key and a session are looked up again; a
    context that names neither stands as it is. -/
def reloadPrincipal (E : StdText) (db : AuthDb) (now : Timestamp) (principal : PermissionContext) :
    Except AuthError PermissionContext :=
  match principal.apiKeyId with
  | some apiKeyId =>
    match db.loadKey apiKeyId with
    | none => .error (.authorization "acting api key is no longer active")
    | some (actor, policy) =>
      if actor.status ≠ .active then .error (.authorization "acting api key is no longer active")
      else
        match expirationIsDue E actor.expiresAt now with
        | .error e => .error e
        | .ok true => .error (.authorization "acting api key is no longer active")
        | .ok false =>
          match validateScopesForKind actor.kind policy.scopes,
              normalizeMailboxPatterns policy.mailboxPatterns,
              normalizeIpCidrs E policy.allowedIpCidrs with
          | .ok scopes, .ok mailboxPatterns, .ok allowedIpCidrs =>
            .ok
              { scopes
                domainIds := policy.domainIds
                mailboxPatterns
                domainGrantMode := actor.domainGrantMode
                apiKeyId := some actor.id
                legacyCredential := false
                rateLimitPerMin := actor.rateLimitPerMin
                allowedIpCidrs
                expiresAt := actor.expiresAt
                allowHeader := actor.allowHeader
                allowQuery := actor.allowQuery
                adminId := none
                adminSessionId := none }
          | _, _, _ => .error (.authorization "acting api key policy is invalid")
  | none =>
    match principal.adminSessionId with
    | some sessionId =>
      match db.liveSession? sessionId principal.adminId now with
      | none => .error (.authorization "acting admin session is no longer active")
      | some (session, admin) => .ok (roleContext admin.role (some admin.id) (some session.id))
    | none => .ok principal

/-- The checks of `transaction_authorization_principal` on the reloaded caller. -/
def authorizePrincipal (current : PermissionContext) (requiredScope : Text) (requireGlobal : Bool)
    (domainId : Option Nat) : Except AuthError PermissionContext :=
  if !scopeIsGranted current.scopes requiredScope then
    .error (.authorization
      ("acting principal no longer has required scope: " ++ String.ofList requiredScope))
  else if requireGlobal && current.domainGrantMode ≠ .all then
    .error (.authorization "acting principal no longer has an all-domain grant")
  else
    match domainId with
    | none => .ok current
    | some id =>
      if current.domainGrantMode = .all ||
          (current.domainGrantMode = .selected && decide (id ∈ current.domainIds)) then .ok current
      else .error (.authorization "acting principal no longer has the target domain grant")

/-- `transaction_authorization_principal` (`api_keys.py:292-418`). -/
def transactionAuthorizationPrincipal (E : StdText) (db : AuthDb) (now : Timestamp)
    (principal : Option PermissionContext) (requiredScope : Text) (requireGlobal : Bool)
    (domainId : Option Nat) : Except AuthError (Option PermissionContext) :=
  match principal with
  | none => .ok none
  | some p =>
    if p.legacyCredential then .ok (some p)
    else
      match reloadPrincipal E db now p with
      | .error e => .error e
      | .ok current =>
        (authorizePrincipal current requiredScope requireGlobal domainId).map some

/-- `_transaction_management_principal`. -/
def transactionManagementPrincipal (E : StdText) (db : AuthDb) (now : Timestamp)
    (principal : Option PermissionContext) : Except AuthError (Option PermissionContext) :=
  transactionAuthorizationPrincipal E db now principal "api_keys.write".toList true none

/-- `_assert_key_within_principal`. -/
def assertKeyWithinPrincipal (E : StdText) (principal : Option PermissionContext)
    (target : KeyPolicy) : Except AuthError Unit :=
  match principal with
  | none => .ok ()
  | some p =>
    if apiKeyIsWithinPrincipal E p target then .ok ()
    else .error (.authorization "api key policy exceeds acting principal")

/-! ## Creating a key -/

/-- The arguments of `create_key`, with the random values it draws. -/
structure CreateKeyArgs where
  name : Text
  kind : ApiKeyKind
  scopes : List Text
  domainIds : List Int
  mailboxPatterns : List Text
  domainGrantMode : Option DomainGrantMode
  ownerAdminId : Option Nat
  createdByAdminId : Option Nat
  status : ApiKeyStatus
  allowHeader : Bool
  allowQuery : Bool
  rateLimitPerMin : Int
  allowedIpCidrs : List Text
  expiresAt : Option Text
  publicId : Text
  keyPrefix : Text
  secretHash : Text
  deriving DecidableEq, Repr

/-- A key whose fields are normalised. -/
structure NewKey where
  name : Text
  kind : ApiKeyKind
  ownerAdminId : Option Nat
  createdByAdminId : Option Nat
  status : ApiKeyStatus
  publicId : Text
  keyPrefix : Text
  secretHash : Text
  /-- `requested_policy`. -/
  policy : KeyPolicy
  deriving DecidableEq, Repr

/-- The grant mode of `create_key`: without one, the domains decide. -/
def requestedGrantMode (mode : Option DomainGrantMode) (domainIds : List Nat) :
    Except AuthError DomainGrantMode :=
  match mode with
  | none => .ok (if domainIds.isEmpty then .none else .selected)
  | some mode => normalizeDomainGrantMode mode

/-- The part of `create_key` before its transaction. -/
def CreateKeyArgs.normalize (E : StdText) (args : CreateKeyArgs) : Except AuthError NewKey := do
  let name ← normalizeName args.name
  let scopes ← validateScopesForKind args.kind args.scopes
  let domainIds ← uniqueIntValues args.domainIds
  let mode ← requestedGrantMode args.domainGrantMode domainIds
  validateDomainGrants mode domainIds
  let mailboxPatterns ← normalizeMailboxPatterns args.mailboxPatterns
  let allowedIpCidrs ← normalizeIpCidrs E args.allowedIpCidrs
  let rateLimitPerMin ← coerceRateLimit args.rateLimitPerMin
  let expiresAt ← normalizeExpiration E args.expiresAt
  return {
    name
    kind := args.kind
    ownerAdminId := args.ownerAdminId
    createdByAdminId := args.createdByAdminId
    status := args.status
    publicId := args.publicId
    keyPrefix := args.keyPrefix
    secretHash := args.secretHash
    policy := {
      scopes
      domainIds
      mailboxPatterns
      domainGrantMode := mode
      rateLimitPerMin
      allowedIpCidrs
      expiresAt
      allowHeader := args.allowHeader
      allowQuery := args.allowQuery } }

/-- The row `create_key` inserts. -/
def NewKey.row (key : NewKey) : ApiKeyRow :=
  { id := 0
    publicId := key.publicId
    name := key.name
    kind := key.kind
    keyPrefix := key.keyPrefix
    secretHash := key.secretHash
    ownerAdminId := key.ownerAdminId
    createdByAdminId := key.createdByAdminId
    status := key.status
    domainGrantMode := key.policy.domainGrantMode
    allowHeader := key.policy.allowHeader
    allowQuery := key.policy.allowQuery
    rateLimitPerMin := key.policy.rateLimitPerMin
    allowedIpCidrs := encodeAllowedIpCidrs key.policy.allowedIpCidrs
    expiresAt := key.policy.expiresAt
    revokedAt := none }

/-- The transaction of `create_key` (`api_keys.py:195-281`). -/
def createKeyOperation (E : StdText) (now : Timestamp) (principal : Option PermissionContext)
    (key : NewKey) (db : AuthDb) : Except AuthError (Nat × AuthDb) := do
  let principal ← transactionManagementPrincipal E db now principal
  assertKeyWithinPrincipal E principal key.policy
  let (apiKeyId, db) ← db.insertApiKey key.row
  let db ← db.insertScopes apiKeyId key.policy.scopes
  let db ← db.insertDomainGrants apiKeyId key.policy.domainIds
  let db ← db.insertMailboxGrants apiKeyId key.policy.mailboxPatterns
  return (apiKeyId, db)

/-! ## Changing a key -/

/-- The arguments of `update_key`; an absent field is left alone. -/
structure UpdateKeyArgs where
  name : Option Text
  kind : Option ApiKeyKind
  status : Option ApiKeyStatus
  allowHeader : Option Bool
  allowQuery : Option Bool
  rateLimitPerMin : Option Int
  allowedIpCidrs : Option (List Text)
  expiresAt : Option (Option Text)
  scopes : Option (List Text)
  domainIds : Option (List Int)
  mailboxPatterns : Option (List Text)
  domainGrantMode : Option DomainGrantMode
  deriving DecidableEq, Repr

/-- The normalised changes of `update_key`; the scopes are validated in the transaction. -/
structure KeyChanges where
  name : Option Text
  kind : Option ApiKeyKind
  status : Option ApiKeyStatus
  allowHeader : Option Bool
  allowQuery : Option Bool
  rateLimitPerMin : Option Int
  allowedIpCidrs : Option (List Text)
  expiresAt : Option (Option Text)
  scopes : Option (List Text)
  domainIds : Option (List Nat)
  mailboxPatterns : Option (List Text)
  domainGrantMode : Option DomainGrantMode
  deriving DecidableEq, Repr

/-- A field that may be absent. -/
def normalizeField {α β : Type} (normalize : α → Except AuthError β) :
    Option α → Except AuthError (Option β)
  | none => .ok none
  | some value => (normalize value).map some

/-- The grants of `update_key`, if both the mode and the domains are given. -/
def validateGivenGrants : Option DomainGrantMode → Option (List Nat) → Except AuthError Unit
  | some mode, some domainIds => validateDomainGrants mode domainIds
  | _, _ => .ok ()

/-- The part of `update_key` before its transaction. -/
def UpdateKeyArgs.normalize (E : StdText) (args : UpdateKeyArgs) : Except AuthError KeyChanges := do
  let name ← normalizeField normalizeName args.name
  let rateLimitPerMin ← normalizeField coerceRateLimit args.rateLimitPerMin
  let allowedIpCidrs ← normalizeField (normalizeIpCidrs E) args.allowedIpCidrs
  let expiresAt ← normalizeField (normalizeExpiration E) args.expiresAt
  let domainIds ← normalizeField uniqueIntValues args.domainIds
  let mailboxPatterns ← normalizeField normalizeMailboxPatterns args.mailboxPatterns
  let mode ← normalizeField normalizeDomainGrantMode args.domainGrantMode
  let mode := mode.or (domainIds.map fun _ => .selected)
  validateGivenGrants mode domainIds
  return {
    name
    kind := args.kind
    status := args.status
    allowHeader := args.allowHeader
    allowQuery := args.allowQuery
    rateLimitPerMin
    allowedIpCidrs
    expiresAt
    scopes := args.scopes
    domainIds
    mailboxPatterns
    domainGrantMode := mode }

/-- The `UPDATE api_keys` of `update_key`. -/
def KeyChanges.apply (changes : KeyChanges) (now : Timestamp) (row : ApiKeyRow) : ApiKeyRow :=
  { row with
    name := changes.name.getD row.name
    status := changes.status.getD row.status
    revokedAt :=
      match changes.status with
      | none => row.revokedAt
      | some .revoked => row.revokedAt.or (some now)
      | some _ => none
    domainGrantMode := changes.domainGrantMode.getD row.domainGrantMode
    allowHeader := changes.allowHeader.getD row.allowHeader
    allowQuery := changes.allowQuery.getD row.allowQuery
    rateLimitPerMin := changes.rateLimitPerMin.getD row.rateLimitPerMin
    allowedIpCidrs := (changes.allowedIpCidrs.map encodeAllowedIpCidrs).getD row.allowedIpCidrs
    expiresAt := changes.expiresAt.getD row.expiresAt }

namespace AuthDb

/-- The scopes of `update_key`, if they are given. -/
def replaceScopes (db : AuthDb) (apiKeyId : Nat) : Option (List Text) → Except AuthError AuthDb
  | none => .ok db
  | some scopes => (db.deleteScopes apiKeyId).insertScopes apiKeyId scopes

/-- The domain grants of `update_key`: they are replaced when they are given or the new mode takes
    none. -/
def replaceDomainGrants (db : AuthDb) (apiKeyId : Nat) (mode : Option DomainGrantMode)
    (domainIds : Option (List Nat)) : Except AuthError AuthDb :=
  if domainIds.isSome || mode = some .none || mode = some .all then
    (db.deleteDomainGrants apiKeyId).insertDomainGrants apiKeyId (domainIds.getD [])
  else .ok db

/-- The mailbox grants of `update_key`, if they are given. -/
def replaceMailboxGrants (db : AuthDb) (apiKeyId : Nat) : Option (List Text) → Except AuthError AuthDb
  | none => .ok db
  | some patterns => (db.deleteMailboxGrants apiKeyId).insertMailboxGrants apiKeyId patterns

end AuthDb

/-- The reload of the caller and the check of the key as it is, with which `update_key`,
    `delete_key`, `revoke_key` and `rotate_key` begin. -/
def authorizeKey (E : StdText) (now : Timestamp) (principal : Option PermissionContext)
    (apiKeyId : Nat) (db : AuthDb) :
    Except AuthError (Option PermissionContext × ApiKeyRow) := do
  let principal ← transactionManagementPrincipal E db now principal
  match db.loadKey apiKeyId with
  | none => .error (.lookup "api key not found")
  | some (row, policy) =>
    assertKeyWithinPrincipal E principal policy
    return (principal, row)

/-- The checks of `update_key` against the key as it is; the result are the new scopes. -/
def KeyChanges.validate (changes : KeyChanges) (current : ApiKeyRow) :
    Except AuthError (Option (List Text)) :=
  if changes.kind.isSome && changes.kind ≠ some current.kind then
    .error (.value "api key kind cannot be changed")
  else
    match normalizeField (validateScopesForKind current.kind) changes.scopes with
    | .error e => .error e
    | .ok scopes =>
      match changes.domainIds with
      | none => .ok scopes
      | some domainIds =>
        (validateDomainGrants (changes.domainGrantMode.getD current.domainGrantMode)
          domainIds).map fun _ => scopes

/-- The writes of `update_key`. -/
def AuthDb.writeKey (db : AuthDb) (apiKeyId : Nat) (changes : KeyChanges)
    (scopes : Option (List Text)) (now : Timestamp) : Except AuthError AuthDb := do
  let db ← (db.updateApiKey apiKeyId (changes.apply now)).replaceScopes apiKeyId scopes
  let db ← db.replaceDomainGrants apiKeyId changes.domainGrantMode changes.domainIds
  db.replaceMailboxGrants apiKeyId changes.mailboxPatterns

/-- The transaction of `update_key` (`api_keys.py:528-600`). -/
def updateKeyOperation (E : StdText) (now : Timestamp) (principal : Option PermissionContext)
    (apiKeyId : Nat) (changes : KeyChanges) (db : AuthDb) : Except AuthError (ApiKeyRow × AuthDb) := do
  let (principal, current) ← authorizeKey E now principal apiKeyId db
  let scopes ← changes.validate current
  let db ← db.writeKey apiKeyId changes scopes now
  match db.loadKey apiKeyId with
  | none => .error (.lookup "api key not found")
  | some (row, policy) =>
    assertKeyWithinPrincipal E principal policy
    return (row, db)

/-- The transaction of `delete_key`. -/
def deleteKeyOperation (E : StdText) (now : Timestamp) (principal : Option PermissionContext)
    (apiKeyId : Nat) (db : AuthDb) : Except AuthError (ApiKeyRow × AuthDb) := do
  let (_, target) ← authorizeKey E now principal apiKeyId db
  if target.status ≠ .revoked then .error (.value "api key must be revoked before deletion")
  else return (target, db.deleteApiKey apiKeyId)

/-- The transaction of `revoke_key`. -/
def revokeKeyOperation (E : StdText) (now revokedAt : Timestamp)
    (principal : Option PermissionContext) (apiKeyId : Nat) (db : AuthDb) :
    Except AuthError (ApiKeyRow × AuthDb) := do
  let (_, target) ← authorizeKey E now principal apiKeyId db
  return (target, db.updateApiKey apiKeyId fun row =>
    { row with status := .revoked, revokedAt := row.revokedAt.or (some revokedAt) })

/-- The transaction of `rotate_key`, with the prefix and the hash `make_api_key` draws. -/
def rotateKeyOperation (E : StdText) (now : Timestamp) (principal : Option PermissionContext)
    (apiKeyId : Nat) (keyPrefix secretHash : Text) (db : AuthDb) :
    Except AuthError (ApiKeyRow × AuthDb) := do
  let (_, target) ← authorizeKey E now principal apiKeyId db
  if target.status ≠ .active then .error (.value "only active api keys can be rotated")
  else if ← expirationIsDue E target.expiresAt now then
    .error (.value "expired api keys cannot be rotated")
  else if db.apiKeys.any fun k => k.keyPrefix = keyPrefix && k.id ≠ apiKeyId then
    .error (.integrity "api_keys.key_prefix")
  else if db.apiKeys.any fun k => k.secretHash = secretHash && k.id ≠ apiKeyId then
    .error (.integrity "api_keys.secret_hash")
  else return (target, db.updateApiKey apiKeyId fun row => { row with keyPrefix, secretHash })

/-! ## Calls -/

/-- A call of a key-management operation, with the values it draws. -/
inductive KeyCall where
  | create (args : CreateKeyArgs)
  | update (apiKeyId : Nat) (args : UpdateKeyArgs)
  | rotate (apiKeyId : Nat) (keyPrefix secretHash : Text)
  | revoke (apiKeyId : Nat) (revokedAt : Timestamp)
  | delete (apiKeyId : Nat)
  deriving DecidableEq, Repr

/-- The call as one function of the tables; the result is the key it is about. -/
def KeyCall.operation (E : StdText) (now : Timestamp) (principal : Option PermissionContext)
    (call : KeyCall) (db : AuthDb) : Except AuthError (Nat × AuthDb) :=
  match call with
  | .create args => do
      let key ← args.normalize E
      createKeyOperation E now principal key db
  | .update apiKeyId args => do
      let changes ← args.normalize E
      let (_, db) ← updateKeyOperation E now principal apiKeyId changes db
      return (apiKeyId, db)
  | .rotate apiKeyId keyPrefix secretHash => do
      let (_, db) ← rotateKeyOperation E now principal apiKeyId keyPrefix secretHash db
      return (apiKeyId, db)
  | .revoke apiKeyId revokedAt => do
      let (_, db) ← revokeKeyOperation E now revokedAt principal apiKeyId db
      return (apiKeyId, db)
  | .delete apiKeyId => do
      let (_, db) ← deleteKeyOperation E now principal apiKeyId db
      return (apiKeyId, db)

end RapidInbox
