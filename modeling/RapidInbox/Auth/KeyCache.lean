import RapidInbox.Auth.ApiKeys
import RapidInbox.Lib.OrderedDict
import RapidInbox.Lib.Run

/-!
# The authentication cache

The hot cache of `ApiKeyService` (`api_keys.py:751-1107`): records by kind and prefix, usage policies
by key, and the generation that a loader reads before the database and compares when it publishes.

Threads take the lock for one short section at a time, so a section is one step; the statements of a
load are steps of their own, and transactions commit between any two of them.  Readings of
`monotonic()` are in nanoseconds.
-/

namespace RapidInbox

/-- `AUTH_CACHE_TTL_SECONDS`. -/
def authCacheTtl : Int := 2000000000

def authCacheMaxEntries : Nat := 4096

/-- `(rate_limit_per_min, allowed_ip_cidrs, status)`. -/
structure UsagePolicy where
  rateLimitPerMin : Int
  allowedIpCidrs : AllowedIpCidrs
  status : ApiKeyStatus
  deriving DecidableEq, Repr

/-- A loaded value.  The two other fields are the specification's and no function reads them: the
    clock when the load began, and how many transactions had committed at its first statement. -/
structure Loaded (α : Type) where
  value : α
  began : Int
  version : Nat
  deriving DecidableEq, Repr

/-- The fields the lock guards; an entry carries the time it expires. -/
structure KeyCache where
  authCache : OrderedDict (ApiKeyKind × Text) (Int × Loaded AuthenticationRecord)
  usagePolicyCache : OrderedDict Nat (Int × Loaded UsagePolicy)
  epoch : Nat

def KeyCache.empty : KeyCache := ⟨.empty, .empty, 0⟩

namespace KeyCache

variable (c : KeyCache)

/-- `_cached_authentication_record`. -/
def cachedAuthenticationRecord (kind : ApiKeyKind) (keyPrefix : Text) (now : Int) :
    Option (Loaded AuthenticationRecord) × KeyCache :=
  match c.authCache.get? (kind, keyPrefix) with
  | none => (none, c)
  | some (expiresAt, record) =>
    if expiresAt > now then
      (some record, { c with authCache := c.authCache.moveToEnd (kind, keyPrefix) })
    else (none, { c with authCache := c.authCache.pop (kind, keyPrefix) })

/-- `_cached_usage_policy`. -/
def cachedUsagePolicy (apiKeyId : Nat) (now : Int) :
    Option (Loaded UsagePolicy) × KeyCache :=
  match c.usagePolicyCache.get? apiKeyId with
  | none => (none, c)
  | some (expiresAt, policy) =>
    if expiresAt ≤ now then
      (none, { c with usagePolicyCache := c.usagePolicyCache.pop apiKeyId })
    else (some policy, { c with usagePolicyCache := c.usagePolicyCache.moveToEnd apiKeyId })

/-- The usage policy that a record holds. -/
def recordPolicy (record : Loaded AuthenticationRecord) : Loaded UsagePolicy :=
  { value := ⟨record.value.rateLimitPerMin, record.value.allowedIpCidrs, record.value.status⟩
    began := record.began
    version := record.version }

/-- A policy becomes the newest entry and the oldest entries give way. -/
def putUsagePolicy (apiKeyId : Nat) (expiresAt : Int) (policy : Loaded UsagePolicy) :
    KeyCache :=
  { c with usagePolicyCache :=
      (c.usagePolicyCache.put apiKeyId (expiresAt, policy)).trim authCacheMaxEntries }

/-- The record part of the publication: keys with selected domains stay uncached. -/
def putRecord (kind : ApiKeyKind) (keyPrefix : Text) (expiresAt : Int)
    (record : Loaded AuthenticationRecord) : KeyCache :=
  if record.value.context.domainGrantMode ≠ .selected then
    { c with authCache :=
        (c.authCache.put (kind, keyPrefix) (expiresAt, record)).trim authCacheMaxEntries }
  else c

/-- The loop that drops the policies that have expired. -/
def dropExpiredPolicies (now : Int) : KeyCache :=
  { c with usagePolicyCache := c.usagePolicyCache.keep fun e => !decide (e.2.1 ≤ now) }

/-- The publication of `_get_authentication_record`: nothing when the generation has moved on. -/
def publishRecord (kind : ApiKeyKind) (keyPrefix : Text) (loadEpoch : Nat) (now : Int)
    (record : Loaded AuthenticationRecord) : KeyCache :=
  if loadEpoch ≠ c.epoch then c
  else
    let c := (c.putRecord kind keyPrefix (now + authCacheTtl) record).dropExpiredPolicies now
    match record.value.context.apiKeyId with
    | none => c
    | some apiKeyId => c.putUsagePolicy apiKeyId (now + authCacheTtl) (recordPolicy record)

/-- `_store_usage_policy`, with the generation `record_usage` expects. -/
def storeUsagePolicy (apiKeyId : Nat) (policy : Loaded UsagePolicy) (expectedEpoch : Nat)
    (now : Int) : KeyCache :=
  if expectedEpoch ≠ c.epoch then c else c.putUsagePolicy apiKeyId (now + authCacheTtl) policy

/-- `_invalidate_key_cache`. -/
def invalidateKeyCache (apiKeyId : Nat) : KeyCache :=
  { authCache := c.authCache.keep fun e => e.2.2.value.context.apiKeyId ≠ some apiKeyId
    usagePolicyCache := c.usagePolicyCache.pop apiKeyId
    epoch := c.epoch + 1 }

end KeyCache

/-! ## The loads -/

/-- The first statement of `_load_authentication_record`. -/
def AuthDb.keyByPrefix (db : AuthDb) (kind : ApiKeyKind) (keyPrefix : Text) :
    Except AuthError ApiKeyRow :=
  match db.apiKeys.find? fun k => k.keyPrefix = keyPrefix with
  | none => .error (.lookup "invalid api key")
  | some row => if row.kind ≠ kind then .error (.lookup "invalid api key") else .ok row

/-- The end of `_load_authentication_record`, on the rows its statements read. -/
def authenticationRecord (E : StdText) (row : ApiKeyRow) (scopes : List Text) (domainIds : List Nat)
    (mailboxPatterns : List Text) : Except AuthError AuthenticationRecord :=
  match validateScopesForKind row.kind scopes with
  | .error _ => .error (.lookup "invalid api key scope configuration")
  | .ok scopes =>
    match normalizeMailboxPatterns mailboxPatterns with
    | .error _ => .error (.lookup "invalid api key mailbox grant configuration")
    | .ok mailboxPatterns =>
      match normalizeIpCidrs E (decodeAllowedIpCidrs row.allowedIpCidrs) with
      | .error _ => .error (.lookup "invalid api key IP policy configuration")
      | .ok allowedIpCidrs =>
        .ok
          { context :=
              { scopes
                domainIds
                mailboxPatterns
                domainGrantMode := row.domainGrantMode
                apiKeyId := some row.id
                legacyCredential := false
                rateLimitPerMin := row.rateLimitPerMin
                allowedIpCidrs
                expiresAt := row.expiresAt
                allowHeader := row.allowHeader
                allowQuery := row.allowQuery
                adminId := none
                adminSessionId := none }
            secretHash := row.secretHash
            status := row.status
            allowHeader := row.allowHeader
            allowQuery := row.allowQuery
            rateLimitPerMin := row.rateLimitPerMin
            allowedIpCidrs := row.allowedIpCidrs
            expiresAt := row.expiresAt }

/-- `_load_usage_policy`. -/
def AuthDb.usagePolicy? (db : AuthDb) (apiKeyId : Nat) : Option UsagePolicy :=
  (db.apiKey? apiKeyId).map fun row => ⟨row.rateLimitPerMin, row.allowedIpCidrs, row.status⟩

/-! ## Threads -/

/-- What a thread is about to do. -/
inductive CacheThread where
  | idle
  /-- `_cached_authentication_record` has read the clock; `load` if a miss goes on to the database. -/
  | lookup (kind : ApiKeyKind) (keyPrefix : Text) (load : Bool) (now : Int)
  /-- `_get_authentication_record` after a miss. -/
  | recordClock (kind : ApiKeyKind) (keyPrefix : Text)
  | recordEpoch (kind : ApiKeyKind) (keyPrefix : Text) (now : Int)
  | selectKey (kind : ApiKeyKind) (keyPrefix : Text) (now : Int) (epoch : Nat)
  /-- The key is read; `version` is the specification's. -/
  | selectScopes (kind : ApiKeyKind) (keyPrefix : Text) (now : Int) (epoch version : Nat)
      (row : ApiKeyRow)
  | selectDomains (kind : ApiKeyKind) (keyPrefix : Text) (now : Int) (epoch version : Nat)
      (row : ApiKeyRow) (scopes : List Text)
  | selectMailboxes (kind : ApiKeyKind) (keyPrefix : Text) (now : Int)
      (epoch version : Nat) (row : ApiKeyRow) (scopes : List Text) (domainIds : List Nat)
  | publish (kind : ApiKeyKind) (keyPrefix : Text) (now : Int) (epoch : Nat)
      (record : Loaded AuthenticationRecord)
  /-- `record_usage` has read the clock. -/
  | policyLookup (apiKeyId : Nat) (now : Int)
  | policyEpoch (apiKeyId : Nat)
  | selectPolicy (apiKeyId : Nat) (epoch : Nat)
  | storePolicy (apiKeyId : Nat) (epoch : Nat) (policy : Loaded UsagePolicy)
  /-- A key operation has committed as the `version`-th transaction; the invalidation is next. -/
  | invalidate (apiKeyId : Nat) (version : Nat)

/-- A mutation of a key: which key, and which commit. -/
structure KeyMutation where
  apiKeyId : Nat
  version : Nat
  deriving DecidableEq, Repr

/-- One process and its database.  `commits` counts the transactions and `invalidated` are the
    mutations whose invalidation has returned; both are the specification's. -/
structure CacheSystem where
  db : AuthDb
  commits : Nat
  clock : Int
  cache : KeyCache
  threads : Nat → CacheThread
  invalidated : List KeyMutation

def CacheSystem.start (db : AuthDb) (clock : Int) : CacheSystem :=
  ⟨db, 0, clock, .empty, fun _ => .idle, []⟩

inductive CacheAction where
  | tick (elapsed : Nat)
  /-- Another transaction commits: a new key, a deleted domain, anything. -/
  | commit (db : AuthDb)
  /-- A thread begins `_get_authentication_record`, or without `load` the lookup alone. -/
  | beginRecord (thread : Nat) (kind : ApiKeyKind) (keyPrefix : Text) (load : Bool)
  /-- A thread begins `record_usage`. -/
  | beginUsage (thread : Nat) (apiKeyId : Nat)
  /-- A thread's `update_key`, `rotate_key`, `revoke_key` or `delete_key` runs its transaction. -/
  | mutate (thread : Nat) (call : KeyCall) (principal : Option PermissionContext) (now : Timestamp)
  /-- A thread takes its next step. -/
  | advance (thread : Nat)

namespace CacheSystem

variable (s : CacheSystem)

/-- A thread goes on to its next section. -/
def goto (i : Nat) (t : CacheThread) : CacheSystem :=
  { s with threads := Function.update s.threads i t }

/-- A thread leaves a section in which it held the lock. -/
def leaveLock (i : Nat) (cache : KeyCache) (t : CacheThread) : CacheSystem :=
  { s with cache, threads := Function.update s.threads i t }

/-- Does an operation invalidate?  `create_key` does not. -/
def invalidates : KeyCall → Bool
  | .create _ => false
  | _ => true

/-- The next step of a thread. -/
def advance (E : StdText) (i : Nat) : Option CacheSystem :=
  match s.threads i with
  | .idle => none
  | .lookup kind keyPrefix load now =>
    let (cached, cache) := s.cache.cachedAuthenticationRecord kind keyPrefix now
    some (s.leaveLock i cache
      (if cached.isNone && load then .recordClock kind keyPrefix else .idle))
  | .recordClock kind keyPrefix => some (s.goto i (.recordEpoch kind keyPrefix s.clock))
  | .recordEpoch kind keyPrefix now =>
    some (s.goto i (.selectKey kind keyPrefix now s.cache.epoch))
  | .selectKey kind keyPrefix now epoch =>
    match s.db.keyByPrefix kind keyPrefix with
    | .error _ => some (s.goto i .idle)
    | .ok row => some (s.goto i (.selectScopes kind keyPrefix now epoch s.commits row))
  | .selectScopes kind keyPrefix now epoch version row =>
    some (s.goto i (.selectDomains kind keyPrefix now epoch version row
      ((ownedBy row.id s.db.apiKeyScopes).insertionSort (· ≤ ·))))
  | .selectDomains kind keyPrefix now epoch version row scopes =>
    some (s.goto i (.selectMailboxes kind keyPrefix now epoch version row scopes
      ((ownedBy row.id s.db.apiKeyDomainGrants).insertionSort (· ≤ ·))))
  | .selectMailboxes kind keyPrefix now epoch version row scopes domainIds =>
    match authenticationRecord E row scopes domainIds
        ((ownedBy row.id s.db.apiKeyMailboxGrants).insertionSort (· ≤ ·)) with
    | .error _ => some (s.goto i .idle)
    | .ok record => some (s.goto i (.publish kind keyPrefix now epoch ⟨record, now, version⟩))
  | .publish kind keyPrefix now epoch record =>
    some (s.leaveLock i (s.cache.publishRecord kind keyPrefix epoch now record) .idle)
  | .policyLookup apiKeyId now =>
    let (cached, cache) := s.cache.cachedUsagePolicy apiKeyId now
    some (s.leaveLock i cache (if cached.isNone then .policyEpoch apiKeyId else .idle))
  | .policyEpoch apiKeyId => some (s.goto i (.selectPolicy apiKeyId s.cache.epoch))
  | .selectPolicy apiKeyId epoch =>
    match s.db.usagePolicy? apiKeyId with
    | none => some (s.goto i .idle)
    | some policy =>
      -- an inactive key is refused before its policy would be stored
      if policy.status ≠ .active then some (s.goto i .idle)
      else some (s.goto i (.storePolicy apiKeyId epoch ⟨policy, s.clock, s.commits⟩))
  | .storePolicy apiKeyId epoch policy =>
    some (s.leaveLock i (s.cache.storeUsagePolicy apiKeyId policy epoch s.clock) .idle)
  | .invalidate apiKeyId version =>
    some { s.leaveLock i (s.cache.invalidateKeyCache apiKeyId) .idle with
      invalidated := ⟨apiKeyId, version⟩ :: s.invalidated }

/-- An idle thread begins something. -/
def begin (i : Nat) (t : CacheThread) : Option CacheSystem :=
  match s.threads i with
  | .idle => some (s.goto i t)
  | _ => none

/-- A thread's key operation: a call that raises changes nothing and invalidates nothing. -/
def mutate (E : StdText) (i : Nat) (call : KeyCall) (principal : Option PermissionContext)
    (now : Timestamp) : Option CacheSystem :=
  match s.db.execute (call.operation E now principal) with
  | (.error _, _) => some s
  | (.ok apiKeyId, db) =>
    { s with db, commits := s.commits + 1 }.begin i
      (if invalidates call then .invalidate apiKeyId (s.commits + 1) else .idle)

def step (E : StdText) : CacheAction → Option CacheSystem
  | .tick elapsed => some { s with clock := s.clock + elapsed }
  | .commit db => some { s with db, commits := s.commits + 1 }
  | .beginRecord i kind keyPrefix load => s.begin i (.lookup kind keyPrefix load s.clock)
  | .beginUsage i apiKeyId => s.begin i (.policyLookup apiKeyId s.clock)
  | .mutate i call principal now => s.mutate E i call principal now
  | .advance i => s.advance E i

/-- A whole interleaving. -/
def run (E : StdText) (actions : List CacheAction) : Option CacheSystem :=
  Transition.run (fun s a => s.step E a) s actions

end CacheSystem

end RapidInbox
