import Mathlib.Data.Rat.Defs
import Mathlib.Algebra.Order.Ring.Rat
import RapidInbox.Lib.OrderedDict
import RapidInbox.Lib.Run
import RapidInbox.Lib.TokenBucket

/-!
# The rate limit of API keys

The section of `record_usage` under `_usage_lock` (`app/auth/api_keys.py:779-815`), and the two others
that touch its dictionaries: a usage that could not be written (`:833-837`) and a key that is
invalidated (`:1105-1107`).  Times and tokens are rational numbers.
-/

namespace RapidInbox

def usageStateMaxEntries : Nat := 65536
def usagePersistIntervalSeconds : Rat := 30

structure UsageState where
  /-- `_usage_buckets`: the tokens of a key and when they were counted. -/
  usageBuckets : OrderedDict Nat (Rat × Rat)
  /-- `_last_usage_persisted` -/
  lastUsagePersisted : OrderedDict Nat Rat

/-- What the section decides. -/
inductive UsageReply where
  /-- The status 429, `api key rate limit exceeded`. -/
  | limited
  | recorded (shouldPersist : Bool)
  deriving DecidableEq, Repr

namespace UsageState

/-- `tokens`, when the bucket is asked at `now`. -/
def tokensAt (rateLimitPerMin : Int) (now : Rat) (bucket : Option (Rat × Rat)) : Rat :=
  let capacity : Rat := rateLimitPerMin
  match bucket with
  | none => capacity
  | some (previousTokens, lastRefill) =>
    TokenBucket.level capacity (capacity / 60) previousTokens (max (now - lastRefill) 0)

/-- `_usage_buckets` after a call that is not limited, and before its persistence is decided. -/
def spend (apiKeyId : Nat) (rateLimitPerMin : Int) (now : Rat) (u : UsageState) : UsageState :=
  if 0 < rateLimitPerMin then
    let tokens := tokensAt rateLimitPerMin now (u.usageBuckets.get? apiKeyId)
    { u with usageBuckets := (u.usageBuckets.put apiKeyId (tokens - 1, now)).trim usageStateMaxEntries }
  else { u with usageBuckets := u.usageBuckets.pop apiKeyId }

/-- The rate allows no call now. -/
def exceeded (apiKeyId : Nat) (rateLimitPerMin : Int) (now : Rat) (u : UsageState) : Prop :=
  0 < rateLimitPerMin ∧ tokensAt rateLimitPerMin now (u.usageBuckets.get? apiKeyId) < 1

instance (apiKeyId : Nat) (rateLimitPerMin : Int) (now : Rat) (u : UsageState) :
    Decidable (exceeded apiKeyId rateLimitPerMin now u) :=
  inferInstanceAs (Decidable (_ ∧ _))

/-- The section of `record_usage`, when `monotonic()` is `now`. -/
def recordUsage (apiKeyId : Nat) (rateLimitPerMin : Int) (now : Rat) (u : UsageState) :
    UsageReply × UsageState :=
  if exceeded apiKeyId rateLimitPerMin now u then
    let tokens := tokensAt rateLimitPerMin now (u.usageBuckets.get? apiKeyId)
    (.limited, { u with usageBuckets := u.usageBuckets.put apiKeyId (tokens, now) })
  else
    let u := u.spend apiKeyId rateLimitPerMin now
    let due := (u.lastUsagePersisted.get? apiKeyId).all fun lastPersisted =>
      usagePersistIntervalSeconds ≤ now - lastPersisted
    if due then
      (.recorded true,
        { u with lastUsagePersisted := (u.lastUsagePersisted.put apiKeyId now).trim usageStateMaxEntries })
    else (.recorded false, u)

/-- The usage recorded at `now` was not written. -/
def persistFailed (apiKeyId : Nat) (now : Rat) (u : UsageState) : UsageState :=
  if u.lastUsagePersisted.get? apiKeyId = some now then
    { u with lastUsagePersisted := u.lastUsagePersisted.pop apiKeyId }
  else u

/-- The part of `_invalidate_key_cache` under `_usage_lock`. -/
def invalidate (apiKeyId : Nat) (u : UsageState) : UsageState :=
  { usageBuckets := u.usageBuckets.pop apiKeyId
    lastUsagePersisted := u.lastUsagePersisted.pop apiKeyId }

end UsageState

/-! ## Runs -/

inductive UsageCall where
  | record (apiKeyId : Nat) (rateLimitPerMin : Int) (now : Rat)
  | persistFailed (apiKeyId : Nat) (recorded : Rat)
  | invalidate (apiKeyId : Nat)
  deriving DecidableEq, Repr

structure UsageSystem where
  usage : UsageState
  /-- The last reading of `monotonic()`. -/
  clock : Rat
  /-- The calls that were not limited: the key and the time of each. -/
  accepted : List (Nat × Rat)

namespace UsageSystem

open UsageState

def start (clock : Rat) : UsageSystem := ⟨⟨.empty, .empty⟩, clock, []⟩

/-- A call; the clock does not go back. -/
def step (s : UsageSystem) : UsageCall → Option UsageSystem
  | .record apiKeyId rateLimitPerMin now =>
    if s.clock ≤ now then
      let (reply, usage) := s.usage.recordUsage apiKeyId rateLimitPerMin now
      some ⟨usage, now, if reply = .limited then s.accepted else s.accepted ++ [(apiKeyId, now)]⟩
    else none
  | .persistFailed apiKeyId recorded => some { s with usage := s.usage.persistFailed apiKeyId recorded }
  | .invalidate apiKeyId => some { s with usage := s.usage.invalidate apiKeyId }

/-- Every call of the key has this rate. -/
def HasRate (key : Nat) (rate : Int) : UsageCall → Prop
  | .record apiKeyId rateLimitPerMin _ => apiKeyId = key → rateLimitPerMin = rate
  | _ => True

instance (key : Nat) (rate : Int) : (call : UsageCall) → Decidable (HasRate key rate call)
  | .record .. => inferInstanceAs (Decidable (_ → _))
  | .persistFailed .. => isTrue trivial
  | .invalidate _ => isTrue trivial

/-- The call takes the bucket of a key away. -/
def Evicts (key : Nat) (s : UsageSystem) (call : UsageCall) : Prop :=
  (s.usage.usageBuckets.get? key).isSome ∧
    ∃ s' ∈ step s call, s'.usage.usageBuckets.get? key = none

instance (key : Nat) (s : UsageSystem) (call : UsageCall) : Decidable (Evicts key s call) :=
  inferInstanceAs (Decidable (_ ∧ ∃ s' ∈ _, _))

end UsageSystem
end RapidInbox
