import RapidInbox.Domain.Address
import RapidInbox.Ingest.MailJob
import RapidInbox.Lib.Glob
import RapidInbox.Lib.Network

/-!
# Permissions

`app/auth/permissions.py`: the scopes of roles and key kinds, the permission context of an
authenticated caller, the check that a key's policy is contained in a caller's, and the check of a
mailbox access.

`ipaddress` and `datetime` are the standard library's; their text forms are parameters.
-/

namespace RapidInbox

/-! ## What the standard library reads and writes -/

inductive IpVersion where
  | v4
  | v6
  deriving DecidableEq, Repr

/-- `ipaddress.IPv4Address`, `ipaddress.IPv6Address`. -/
structure IpAddress where
  version : IpVersion
  value : Nat
  deriving DecidableEq, Repr

/-- `ipaddress.IPv4Network`, `ipaddress.IPv6Network`. -/
structure IpNetwork where
  version : IpVersion
  range : AddressRange
  deriving DecidableEq, Repr

/-- `address in network`. -/
def IpNetwork.holds (n : IpNetwork) (a : IpAddress) : Bool :=
  a.version = n.version && n.range.covers a.value

/-- A `datetime` in microseconds of its own clock, with its distance from UTC if it has one. -/
structure IsoDateTime where
  micros : Int
  utcoffset : Option Int
  deriving DecidableEq, Repr

/-- The parsers and writers the code takes from `ipaddress` and `datetime`. -/
structure StdText where
  /-- `ipaddress.ip_network(text, strict=False)`. -/
  ipNetwork : Text → Option IpNetwork
  /-- `network.with_prefixlen`. -/
  withPrefixlen : IpNetwork → Text
  /-- `ipaddress.ip_address(text)`. -/
  ipAddress : Text → Option IpAddress
  /-- `datetime.fromisoformat(text.replace("Z", "+00:00"))`. -/
  isoDateTime : Text → Option IsoDateTime
  /-- The UTC text of a second, with its `+00:00` replaced by `Z`. -/
  isoText : Int → Text

/-- A second that `datetime` can write in UTC, from year 1 to year 9999. -/
def IsDatetimeSecond (second : Int) : Prop := -62135596800 ≤ second ∧ second ≤ 253402300799

instance (second : Int) : Decidable (IsDatetimeSecond second) := inferInstanceAs (Decidable (_ ∧ _))

/-- The documented behaviour the code relies on. -/
structure StdText.Lawful (E : StdText) : Prop where
  /-- `fromisoformat` takes no surrounding white space. -/
  iso_stripped : ∀ text time, E.isoDateTime text = some time → stripUnicodeWhitespace text = text
  /-- `fromisoformat` reads what `isoformat` writes. -/
  iso_text : ∀ second, IsDatetimeSecond second →
    E.isoDateTime (E.isoText second) = some ⟨second * 1000000, some 0⟩
  /-- The text of a network is not blank. -/
  prefixlen_text : ∀ network, stripUnicodeWhitespace (E.withPrefixlen network) ≠ []

/-! ## Scopes -/

/-- `api_keys.kind`: `admin`, `public` or `service`. -/
inductive ApiKeyKind where
  | admin
  | publicKey
  | service
  deriving DecidableEq, Repr

/-- `admins.role`. -/
inductive AdminRole where
  | superadmin
  | operator
  | viewer
  deriving DecidableEq, Repr

def publicApiKeyScopes : List Text := ["public.read".toList]

def serviceApiKeyScopes : List Text :=
  ["public.read", "live.read", "domains.read", "domains.write", "mailboxes.read", "mailboxes.write",
    "messages.read", "messages.write", "smtp.read", "audit.read", "system.read"].map String.toList

def adminApiKeyScopes : List Text :=
  serviceApiKeyScopes ++
    ["system.write", "api_keys.read", "api_keys.write", "admins.read", "admins.write",
      "admins.credentials.write", "admins.sessions.write"].map String.toList

def validApiKeyScopes : List Text :=
  publicApiKeyScopes ++ serviceApiKeyScopes ++ adminApiKeyScopes

/-- `API_KEY_KIND_SCOPES`. -/
def ApiKeyKind.scopes : ApiKeyKind → List Text
  | .admin => adminApiKeyScopes
  | .publicKey => publicApiKeyScopes
  | .service => serviceApiKeyScopes

def viewerScopes : List Text :=
  ["live.read", "domains.read", "mailboxes.read", "messages.read", "smtp.read", "audit.read",
    "system.read", "api_keys.read", "admins.read"].map String.toList

def operatorScopes : List Text :=
  viewerScopes ++ ["domains.write", "mailboxes.write", "messages.write"].map String.toList

/-- `ROLE_SCOPES`. -/
def AdminRole.scopes : AdminRole → List Text
  | .superadmin => adminApiKeyScopes
  | .operator => operatorScopes
  | .viewer => viewerScopes

/-- The read scope that a write scope implies. -/
def readScope? (scope : Text) : Option Text :=
  if ".write".toList <:+ scope then some (scope.take (scope.length - 6) ++ ".read".toList) else none

/-- `effective_scopes`: a write scope implies the matching read scope. -/
def effectiveScopes (scopes : List Text) : List Text := scopes ++ scopes.filterMap readScope?

/-! ## Permission contexts and key policies -/

/-- `domain_grant_mode`; every other text is `invalid`. -/
inductive DomainGrantMode where
  | none
  | selected
  | all
  | invalid
  deriving DecidableEq, Repr

/-- `PermissionContext`. -/
structure PermissionContext where
  scopes : List Text
  domainIds : List Nat
  mailboxPatterns : List Text
  domainGrantMode : DomainGrantMode
  apiKeyId : Option Nat
  legacyCredential : Bool
  rateLimitPerMin : Int
  allowedIpCidrs : List Text
  expiresAt : Option Text
  allowHeader : Bool
  allowQuery : Bool
  adminId : Option Nat
  adminSessionId : Option Text
  deriving DecidableEq, Repr

/-- The fields of a key that the delegation check reads. -/
structure KeyPolicy where
  scopes : List Text
  domainIds : List Nat
  mailboxPatterns : List Text
  domainGrantMode : DomainGrantMode
  rateLimitPerMin : Int
  allowedIpCidrs : List Text
  expiresAt : Option Text
  allowHeader : Bool
  allowQuery : Bool
  deriving DecidableEq, Repr

/-- The context a role gives an administrator session. -/
def roleContext (role : AdminRole) (adminId : Option Nat) (adminSessionId : Option Text) :
    PermissionContext :=
  { scopes := role.scopes
    domainIds := []
    mailboxPatterns := []
    domainGrantMode := .all
    apiKeyId := none
    legacyCredential := false
    rateLimitPerMin := 0
    allowedIpCidrs := []
    expiresAt := none
    allowHeader := true
    allowQuery := true
    adminId
    adminSessionId }

/-- `fnmatchcase`, on a pattern without brackets. -/
def fnmatchcase (name pattern : Text) : Bool := Glob.accepts '*' '?' pattern name

/-- `mailbox_pattern_matches`. -/
def mailboxPatternMatches (mailboxAddress mailboxPattern : Text) : Bool :=
  fnmatchcase mailboxAddress mailboxPattern

/-! ## The delegation check -/

/-- `_parse_api_key_expiration`: a time without a zone is taken as UTC. -/
def parseApiKeyExpiration (E : StdText) (value : Option Text) : Option Int :=
  match value with
  | none => none
  | some text =>
    if text.isEmpty then none
    else (E.isoDateTime text).map fun time => time.micros - time.utcoffset.getD 0

/-- The rate bound of `delegated_api_key_policy_is_within_principal`. -/
def rateIsWithin (principal target : Int) : Bool :=
  !(decide (target < 0)) && !(decide (0 < principal) && (target = 0 || decide (principal < target)))

/-- The networks of the check: `child.version == parent.version and child.subnet_of(parent)`. -/
def IpNetwork.isWithin (child parent : IpNetwork) : Bool :=
  child.version = parent.version && child.range.subnetOf parent.range

/-- The network bound: an empty list of the target is any address. -/
def networksAreWithin (E : StdText) (principal target : List Text) : Bool :=
  match principal.mapM E.ipNetwork, target.mapM E.ipNetwork with
  | some parents, some children =>
    parents.isEmpty || (!children.isEmpty &&
      children.all fun child => parents.any fun parent => child.isWithin parent)
  | _, _ => false

/-- The expiry bound. -/
def expirationIsWithin (E : StdText) (principal target : Option Text) : Bool :=
  principal.isNone ||
    match parseApiKeyExpiration E target, parseApiKeyExpiration E principal with
    | some child, some parent => decide (child ≤ parent)
    | _, _ => false

/-- `delegated_api_key_policy_is_within_principal`. -/
def delegatedApiKeyPolicyIsWithinPrincipal (E : StdText) (principal : PermissionContext)
    (target : KeyPolicy) : Bool :=
  rateIsWithin principal.rateLimitPerMin target.rateLimitPerMin &&
    networksAreWithin E principal.allowedIpCidrs target.allowedIpCidrs &&
    expirationIsWithin E principal.expiresAt target.expiresAt &&
    !(target.allowHeader && !principal.allowHeader) && !(target.allowQuery && !principal.allowQuery)

/-- `allowed_domains` of `api_key_is_within_principal`; `none` is every domain. -/
def allowedDomains (principal : PermissionContext) : Option (List Nat) :=
  match principal.domainGrantMode with
  | .all => none
  | .selected => some principal.domainIds
  | _ => some []

/-- The domain bound. -/
def domainsAreWithin (principal : PermissionContext) (target : KeyPolicy) : Bool :=
  match target.domainGrantMode with
  | .all => (allowedDomains principal).isNone
  | .selected =>
    match allowedDomains principal with
    | none => true
    | some allowed => target.domainIds.all fun id => id ∈ allowed
  | .none => true
  | .invalid => false

/-- One pattern of the target: a literal may fit a pattern, another pattern must be one of them. -/
def patternIsWithin (principal : List Text) (pattern : Text) : Bool :=
  decide (pattern ∈ principal) ||
    (!(pattern.contains '*' || pattern.contains '?') &&
      principal.any fun parent => fnmatchcase pattern parent)

/-- The pattern bound: an empty list of the target is any mailbox. -/
def patternsAreWithin (principal target : List Text) : Bool :=
  principal.isEmpty || (!target.isEmpty && target.all (patternIsWithin principal))

/-- `api_key_is_within_principal`. -/
def apiKeyIsWithinPrincipal (E : StdText) (principal : PermissionContext) (target : KeyPolicy) :
    Bool :=
  delegatedApiKeyPolicyIsWithinPrincipal E principal target &&
    (target.scopes.all fun scope => scope ∈ effectiveScopes principal.scopes) &&
    domainsAreWithin principal target &&
    patternsAreWithin principal.mailboxPatterns target.mailboxPatterns

/-! ## Access to a mailbox -/

/-- `PermissionDenied`. -/
inductive PermissionDenied where
  | scope (required : Text)
  | domainGrantMissing
  | invalidDomainGrantMode
  | mailboxGrantMissing
  deriving DecidableEq, Repr

/-- `ensure_mailbox_access`. -/
def ensureMailboxAccess (grants : PermissionContext) (mailboxAddress : Text) (domainId : Nat)
    (requiredScope : Text) : Except PermissionDenied Unit :=
  let mailbox : Except PermissionDenied Unit :=
    if !grants.mailboxPatterns.isEmpty &&
        !grants.mailboxPatterns.any (fun pattern => mailboxPatternMatches mailboxAddress pattern) then
      .error .mailboxGrantMissing
    else .ok ()
  if requiredScope ∉ grants.scopes then .error (.scope requiredScope)
  else if grants.legacyCredential then .ok ()
  else
    match grants.domainGrantMode with
    | .all => mailbox
    | .selected => if domainId ∉ grants.domainIds then .error .domainGrantMissing else mailbox
    | .none => .error .domainGrantMissing
    | .invalid => .error .invalidDomainGrantMode

end RapidInbox
