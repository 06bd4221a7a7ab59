import Mathlib.Data.Rat.Defs
import Mathlib.Algebra.Order.Ring.Rat
import RapidInbox.Domain.Address
import RapidInbox.Lib.OrderedDict
import RapidInbox.Lib.Run

/-!
# Login throttling

`AuthService.authenticate_admin` (`app/auth/sessions.py:361-503`, `948-971`) asks
`assert_login_allowed`, verifies the password in a worker thread and then records a failure.  Failures
are kept in windows, one for each user name and address and one for each address.  The code before an
`await` is one step; `now` is the reading of the clock in it.
-/

namespace RapidInbox

/-- `time.monotonic()`, in seconds. -/
abbrev Seconds := Rat

def loginFailureLimit : Nat := 5
def loginIpFailureLimit : Nat := 50
def loginFailureWindowSeconds : Seconds := 15 * 60
def loginFailureMaxKeys : Nat := 10000
def passwordWorkerCount : Nat := 4
def passwordPendingLimit : Nat := 64
def passwordWaiterLimit : Nat := 256

/-- `_login_failures`, `_login_ip_failures`: the times of the failures, oldest first. -/
abbrev FailureWindows := OrderedDict Text (List Seconds)

namespace FailureWindows

/-- `_active_login_window`. -/
def activeWindow (windows : FailureWindows) (key : Text) (cutoff : Seconds) :
    Option (List Seconds) × FailureWindows :=
  match windows.get? key with
  | none => (none, windows)
  | some window =>
    let window := window.dropWhile (· ≤ cutoff)
    if window.isEmpty then (none, windows.pop key) else (some window, windows.put key window)

/-- `while len(windows) >= LOGIN_FAILURE_MAX_KEYS: windows.popitem(last=False)`. -/
def evict (windows : FailureWindows) : FailureWindows := windows.trim (loginFailureMaxKeys - 1)

/-- `_record_login_window`. -/
def recordWindow (windows : FailureWindows) (key : Text) (now cutoff : Seconds) : FailureWindows :=
  match windows.activeWindow key cutoff with
  | (some window, windows) => windows.put key (window ++ [now])
  | (none, windows) => windows.evict.put key [now]

end FailureWindows

/-- `_login_ip_key`. -/
def loginIpKey (ip : Option Text) : Text :=
  (match ip with
    | none | some [] => "unknown".toList
    | some ip => ip).take 128

/-- `_login_failure_key`; `digest` is the SHA-256 of the stripped and case-folded name. -/
def loginFailureKey (digest : Text → Text) (username : Text) (ip : Option Text) : Text :=
  loginIpKey ip ++ ':' :: digest username

structure LoginThrottle where
  loginFailures : FailureWindows
  loginIpFailures : FailureWindows

namespace LoginThrottle

variable (digest : Text → Text) (t : LoginThrottle) (username : Text) (ip : Option Text) (now : Seconds)

/-- `assert_login_allowed`; `false` is the `PermissionError`. -/
def assertLoginAllowed : Bool × LoginThrottle :=
  let cutoff := now - loginFailureWindowSeconds
  let (window, loginFailures) := t.loginFailures.activeWindow (loginFailureKey digest username ip) cutoff
  let (ipWindow, loginIpFailures) := t.loginIpFailures.activeWindow (loginIpKey ip) cutoff
  let refused := window.any (fun w => loginFailureLimit ≤ w.length) ||
    ipWindow.any fun w => loginIpFailureLimit ≤ w.length
  (!refused, ⟨loginFailures, loginIpFailures⟩)

/-- `record_login_failure`. -/
def recordLoginFailure : LoginThrottle :=
  let cutoff := now - loginFailureWindowSeconds
  { loginFailures := t.loginFailures.recordWindow (loginFailureKey digest username ip) now cutoff
    loginIpFailures := t.loginIpFailures.recordWindow (loginIpKey ip) now cutoff }

/-- `clear_login_failures`. -/
def clearLoginFailures : LoginThrottle :=
  { t with loginFailures := t.loginFailures.pop (loginFailureKey digest username ip) }

end LoginThrottle

/-- How far a call of `authenticate_admin` has come. -/
inductive LoginPhase where
  /-- Past `assert_login_allowed`. -/
  | admitted
  /-- In `self._password_slots.acquire()`. -/
  | waiting
  /-- With the executor. -/
  | queued
  /-- In `verify_password`, on a worker of the executor. -/
  | verifying (since : Seconds)
  /-- `verify_password` has ended, and the call has not gone on. -/
  | ended (since : Seconds)
  deriving DecidableEq, Repr

/-- A call past the check whose failure has not been recorded. -/
structure LoginCall where
  username : Text
  ip : Option Text
  phase : LoginPhase
  /-- The call was cancelled; its work goes on behind `asyncio.shield`. -/
  cancelled : Bool
  deriving DecidableEq, Repr

/-- A call of `verify_password`. -/
structure Verification where
  username : Text
  ip : Option Text
  time : Seconds
  deriving DecidableEq, Repr

structure LoginSystem where
  throttle : LoginThrottle
  passwordWaiters : Nat
  passwordSlots : Nat
  /-- `_password_executor is None`. -/
  closed : Bool
  calls : List LoginCall
  clock : Seconds
  /-- The calls of `verify_password` so far. -/
  verified : List Verification

/-- A step of a call, which is known by its place, or of the service. -/
inductive LoginAction where
  /-- `assert_login_allowed` of a new call. -/
  | begin (username : Text) (ip : Option Text) (now : Seconds)
  /-- The password is no text of an allowed length. -/
  | refusePassword (call : Nat) (now : Seconds)
  /-- `_run_password_work` up to `acquire`. -/
  | enterWork (call : Nat)
  | acquireSlot (call : Nat)
  /-- `verify_password` is called. -/
  | verify (call : Nat) (now : Seconds)
  /-- The call records its failure. -/
  | fail (call : Nat) (now : Seconds)
  | succeed (call : Nat)
  | cancel (call : Nat)
  /-- `verify_password` ends; the worker and the slot are free. -/
  | workDone (call : Nat)
  /-- `record_login_failure` of the login view. -/
  | recordFailure (username : Text) (ip : Option Text) (now : Seconds)
  | close
  deriving DecidableEq, Repr

namespace LoginSystem

/-- A new service, at some time of its clock. -/
def initial (clock : Seconds) : LoginSystem :=
  ⟨⟨.empty, .empty⟩, 0, passwordPendingLimit, false, [], clock, []⟩

variable (digest : Text → Text) (s : LoginSystem)

/-- A call goes on to another phase. -/
def proceed (call : Nat) (c : LoginCall) (phase : LoginPhase) : LoginSystem :=
  { s with calls := s.calls.set call { c with phase } }

/-- A call ends. -/
def leave (call : Nat) : LoginSystem := { s with calls := s.calls.eraseIdx call }

/-- A failure is recorded. -/
def record (username : Text) (ip : Option Text) (now : Seconds) : LoginSystem :=
  { s with throttle := s.throttle.recordLoginFailure digest username ip now, clock := now }

/-- `verify_password` is called. -/
def reach (c : LoginCall) (now : Seconds) : LoginSystem :=
  { s with clock := now, verified := s.verified ++ [⟨c.username, c.ip, now⟩] }

/-- `assert_login_allowed`. -/
def begin (username : Text) (ip : Option Text) (now : Seconds) : LoginSystem :=
  let (allowed, throttle) := s.throttle.assertLoginAllowed digest username ip now
  let calls := if allowed then s.calls ++ [⟨username, ip, .admitted, false⟩] else s.calls
  { s with throttle, calls, clock := now }

/-- The workers in `verify_password`. -/
def busyWorkers : Nat := s.calls.countP fun c => c.phase matches .verifying _

/-- A step of a call at its place. -/
def stepCall (call : Nat) (c : LoginCall) : LoginAction → Option LoginSystem
  | .refusePassword _ now =>
    if c.phase = .admitted ∧ s.clock ≤ now then
      some ((s.record digest c.username c.ip now).leave call)
    else none
  | .enterWork _ =>
    if c.phase = .admitted then
      if passwordWaiterLimit ≤ s.passwordWaiters then some (s.leave call)
      else some ({ s with passwordWaiters := s.passwordWaiters + 1 }.proceed call c .waiting)
    else none
  | .acquireSlot _ =>
    if c.phase = .waiting ∧ 0 < s.passwordSlots then
      let s := { s with passwordWaiters := s.passwordWaiters - 1 }
      if s.closed then some (s.leave call)
      else some ({ s with passwordSlots := s.passwordSlots - 1 }.proceed call c .queued)
    else none
  | .verify _ now =>
    if c.phase = .queued ∧ s.clock ≤ now ∧ s.busyWorkers < passwordWorkerCount then
      some ((s.reach c now).proceed call c (.verifying now))
    else none
  | .workDone _ =>
    match c.phase with
    | .verifying since =>
      some ({ s with passwordSlots := s.passwordSlots + 1 }.proceed call c (.ended since))
    | _ => none
  | .fail _ now =>
    match c.phase with
    | .ended _ =>
      if !c.cancelled ∧ s.clock ≤ now then
        some ((s.record digest c.username c.ip now).leave call)
      else none
    | _ => none
  | .succeed _ =>
    match c.phase with
    | .ended _ =>
      if !c.cancelled then
        some ({ s with
          throttle := s.throttle.clearLoginFailures digest c.username c.ip }.leave call)
      else none
    | _ => none
  | .cancel _ =>
    match c.phase with
    | .waiting => some ({ s with passwordWaiters := s.passwordWaiters - 1 }.leave call)
    | .queued | .verifying _ | .ended _ =>
      some { s with calls := s.calls.set call { c with cancelled := true } }
    | _ => none
  | _ => none

/-- The call an action belongs to. -/
def callOf : LoginAction → Option Nat
  | .refusePassword call _ | .enterWork call | .acquireSlot call | .verify call _ | .fail call _
  | .succeed call | .cancel call | .workDone call => some call
  | _ => none

def step (a : LoginAction) : Option LoginSystem :=
  match a with
  | .begin username ip now => if s.clock ≤ now then some (s.begin digest username ip now) else none
  | .recordFailure username ip now =>
    if s.clock ≤ now then some (s.record digest username ip now) else none
  | .close => some { s with closed := true }
  | a =>
    match callOf a with
    | some call =>
      match s.calls[call]? with
      | some c => s.stepCall digest call c a
      | none => none
    | none => none

end LoginSystem

end RapidInbox
