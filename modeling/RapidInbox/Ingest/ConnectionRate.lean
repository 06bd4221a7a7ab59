import Mathlib.Data.Rat.Defs
import Mathlib.Algebra.Order.Ring.Rat
import RapidInbox.Domain.Address
import RapidInbox.Lib.OrderedDict
import RapidInbox.Lib.Run

/-!
# SMTP connections and their rate

`register_smtp_connection` and `release_smtp_connection` (`app/runtime.py:1979-2045`).  Each runs under
`_smtp_connection_lock` and is one step.  The windows are kept in the order in which their addresses
tried to connect, and `_smtp_ip_expiry_order` in the order in which they were last accepted.
-/

namespace RapidInbox

/-- What `register_smtp_connection` reads of the settings. -/
structure SmtpConnectionSettings where
  smtpMaxConcurrentConnections : Int
  smtpConnectionRateLimitCount : Int
  smtpConnectionRateLimitWindowSeconds : Int
  deriving DecidableEq, Repr

def smtpIpRateStateMinEntries : Int := 1024
def smtpIpRateStateMaxEntries : Int := 65536

structure SmtpConnections where
  /-- `_active_smtp_connections`: the address of each session. -/
  activeSmtpConnections : OrderedDict Text Text
  /-- `_smtp_ip_windows`: the times of the accepted connections, oldest first. -/
  smtpIpWindows : OrderedDict Text (List Rat)
  /-- `_smtp_ip_expiry_order` -/
  smtpIpExpiryOrder : OrderedDict Text Unit

namespace SmtpConnections

/-- `_smtp_ip_window_capacity` -/
def smtpIpWindowCapacity (settings : SmtpConnectionSettings) : Int :=
  let maxConnections := max settings.smtpMaxConcurrentConnections 0
  min smtpIpRateStateMaxEntries (max smtpIpRateStateMinEntries (maxConnections * 4))

/-- The loop of `_evict_stale_smtp_ip_windows`.  A round that does not end it takes an entry out of the
    expiry order, of which there are `rounds`. -/
def evictStaleFrom (cutoff : Rat) : Nat → SmtpConnections → SmtpConnections
  | 0, c => c
  | rounds + 1, c =>
    match c.smtpIpExpiryOrder.entries with
    | [] => c
    | (ip, _) :: _ =>
      match c.smtpIpWindows.get? ip with
      | none =>
        evictStaleFrom cutoff rounds { c with smtpIpExpiryOrder := c.smtpIpExpiryOrder.dropOldest }
      | some window =>
        if window.getLast?.any (cutoff < ·) then c
        else
          evictStaleFrom cutoff rounds
            { c with
              smtpIpExpiryOrder := c.smtpIpExpiryOrder.dropOldest
              smtpIpWindows := c.smtpIpWindows.pop ip }

/-- `_evict_stale_smtp_ip_windows` -/
def evictStaleSmtpIpWindows (cutoff : Rat) (c : SmtpConnections) : SmtpConnections :=
  evictStaleFrom cutoff c.smtpIpExpiryOrder.entries.length c

/-- The window of the address that has not tried for the longest time is given up. -/
def evictOldest (c : SmtpConnections) : SmtpConnections :=
  match c.smtpIpWindows.entries with
  | [] => c
  | (ip, _) :: _ =>
    { c with
      smtpIpWindows := c.smtpIpWindows.dropOldest
      smtpIpExpiryOrder := c.smtpIpExpiryOrder.pop ip }

/-- `while len(self._smtp_ip_windows) >= capacity`: each round takes one window. -/
def evictToCapacity (capacity : Int) (c : SmtpConnections) : SmtpConnections :=
  evictOldest^[(c.smtpIpWindows.entries.length + 1 - capacity).toNat] c

/-- The state in which the window of `remoteIp` is consulted: it is there and the newest. -/
def openWindow (settings : SmtpConnectionSettings) (cutoff : Rat) (remoteIp : Text)
    (c : SmtpConnections) : SmtpConnections :=
  let c := c.evictStaleSmtpIpWindows cutoff
  match c.smtpIpWindows.get? remoteIp with
  | none =>
    let c := c.evictToCapacity (smtpIpWindowCapacity settings)
    { c with smtpIpWindows := c.smtpIpWindows.put remoteIp [] }
  | some _ => { c with smtpIpWindows := c.smtpIpWindows.moveToEnd remoteIp }

/-- `rate_limit > 0 and window_seconds > 0` -/
def limited (settings : SmtpConnectionSettings) : Prop :=
  0 < settings.smtpConnectionRateLimitCount ∧ 0 < settings.smtpConnectionRateLimitWindowSeconds

instance (settings : SmtpConnectionSettings) : Decidable (limited settings) :=
  inferInstanceAs (Decidable (_ ∧ _))

/-- The session is registered already, or there are too many; the address does not matter then. -/
def settled (settings : SmtpConnectionSettings) (c : SmtpConnections) (sessionId : Text) :
    Option (Bool × Option Text) :=
  if (c.activeSmtpConnections.get? sessionId).isSome then some (true, none)
  else if 0 < settings.smtpMaxConcurrentConnections ∧
      settings.smtpMaxConcurrentConnections ≤ c.activeSmtpConnections.entries.length then
    some (false, some "concurrent connection limit exceeded".toList)
  else none

/-- `register_smtp_connection`, when `monotonic()` is `now`. -/
def registerSmtpConnection (settings : SmtpConnectionSettings) (sessionId remoteIp : Text) (now : Rat)
    (c : SmtpConnections) : (Bool × Option Text) × SmtpConnections :=
  match settled settings c sessionId with
  | some reply => (reply, c)
  | none =>
    if limited settings then
      let cutoff := now - settings.smtpConnectionRateLimitWindowSeconds
      let c := c.openWindow settings cutoff remoteIp
      let window := ((c.smtpIpWindows.get? remoteIp).getD []).dropWhile (· ≤ cutoff)
      if settings.smtpConnectionRateLimitCount ≤ window.length then
        ((false, some "per-ip connection rate limit exceeded".toList),
          { c with smtpIpWindows := c.smtpIpWindows.put remoteIp window })
      else
        ((true, none),
          { activeSmtpConnections := c.activeSmtpConnections.put sessionId remoteIp
            smtpIpWindows := c.smtpIpWindows.put remoteIp (window ++ [now])
            smtpIpExpiryOrder := (c.smtpIpExpiryOrder.pop remoteIp).put remoteIp () })
    else
      -- the limiter was turned off
      let c :=
        if c.smtpIpWindows.entries = [] then c
        else { c with smtpIpWindows := .empty, smtpIpExpiryOrder := .empty }
      ((true, none),
        { c with activeSmtpConnections := c.activeSmtpConnections.put sessionId remoteIp })

/-- `release_smtp_connection` -/
def releaseSmtpConnection (sessionId : Text) (c : SmtpConnections) : Bool × SmtpConnections :=
  ((c.activeSmtpConnections.get? sessionId).isSome,
    { c with activeSmtpConnections := c.activeSmtpConnections.pop sessionId })

end SmtpConnections

/-! ## Runs -/

inductive SmtpConnectionCall where
  | register (sessionId remoteIp : Text) (now : Rat)
  | release (sessionId : Text)
  deriving DecidableEq, Repr

structure SmtpConnectionSystem where
  connections : SmtpConnections
  /-- The last reading of `monotonic()`. -/
  clock : Rat
  /-- The new connections so far: the address and the time of each. -/
  accepted : List (Text × Rat)

namespace SmtpConnectionSystem

open SmtpConnections

def start (clock : Rat) : SmtpConnectionSystem := ⟨⟨.empty, .empty, .empty⟩, clock, []⟩

/-- A call; the clock does not go back. -/
def step (settings : SmtpConnectionSettings) (s : SmtpConnectionSystem) :
    SmtpConnectionCall → Option SmtpConnectionSystem
  | .register sessionId remoteIp now =>
    if s.clock ≤ now then
      let (reply, connections) := registerSmtpConnection settings sessionId remoteIp now s.connections
      let new := reply.1 ∧ s.connections.activeSmtpConnections.get? sessionId = none
      some ⟨connections, now, if new then s.accepted ++ [(remoteIp, now)] else s.accepted⟩
    else none
  | .release sessionId =>
    some { s with connections := (releaseSmtpConnection sessionId s.connections).2 }

/-- The call gives up the window of an address because there are too many. -/
def EvictsByCapacity (settings : SmtpConnectionSettings) (ip : Text) (s : SmtpConnectionSystem) :
    SmtpConnectionCall → Prop
  | .register sessionId remoteIp now =>
    let cutoff := now - settings.smtpConnectionRateLimitWindowSeconds
    settled settings s.connections sessionId = none ∧ limited settings ∧
      ((s.connections.evictStaleSmtpIpWindows cutoff).smtpIpWindows.get? ip).isSome ∧
      (s.connections.openWindow settings cutoff remoteIp).smtpIpWindows.get? ip = none
  | .release _ => False

instance (settings : SmtpConnectionSettings) (ip : Text) (s : SmtpConnectionSystem) :
    (call : SmtpConnectionCall) → Decidable (EvictsByCapacity settings ip s call)
  | .register .. => inferInstanceAs (Decidable (_ ∧ _ ∧ _ ∧ _))
  | .release _ => inferInstanceAs (Decidable False)

end SmtpConnectionSystem
end RapidInbox
