import Mathlib.Data.List.Perm.Basic
import Mathlib.Data.List.TakeWhile
import Mathlib.Tactic.Linarith
import RapidInbox.Auth.LoginThrottle

/-!
# How many logins are verified

The check and the recording of a failure are two steps with the verification between them.  Every
call of `verify_password` within the last window has its failure in the window or is still to record
it; so the limit holds as long as no call passes the check while the failures in the window and the
calls that have not recorded theirs reach it together.
-/

namespace RapidInbox

/-! ## Windows -/

namespace FailureWindows

variable {windows : FailureWindows} {key k : Text} {now now' cutoff : Seconds}

/-- The window of a key. -/
def windowOf (windows : FailureWindows) (k : Text) : List Seconds := (windows.get? k).getD []

/-- The failures that a check at `now` counts. -/
def active (window : List Seconds) (now : Seconds) : Nat :=
  window.countP fun r => now - loginFailureWindowSeconds < r

theorem activeWindow_fst (windows : FailureWindows) (key : Text) (cutoff : Seconds) :
    (windows.activeWindow key cutoff).1.getD [] = (windows.windowOf key).dropWhile (· ≤ cutoff) := by
  unfold activeWindow windowOf
  cases windows.get? key with
  | none => rfl
  | some window =>
    dsimp only [Option.getD_some]
    split
    · rename_i hempty
      rw [List.isEmpty_iff.mp hempty]
      rfl
    · rfl

theorem windowOf_activeWindow (windows : FailureWindows) (key k : Text) (cutoff : Seconds) :
    (windows.activeWindow key cutoff).2.windowOf k =
      if k = key then (windows.windowOf key).dropWhile (· ≤ cutoff) else windows.windowOf k := by
  unfold activeWindow windowOf
  cases hget : windows.get? key with
  | none =>
    by_cases hk : k = key
    · rw [if_pos hk, hk, hget]
      rfl
    · rw [if_neg hk]
  | some window =>
    dsimp only [Option.getD_some]
    split
    · rename_i hempty
      rw [OrderedDict.get?_pop]
      by_cases hk : k = key
      · rw [if_pos hk, if_pos hk, List.isEmpty_iff.mp hempty]
        rfl
      · rw [if_neg hk, if_neg hk]
    · rw [OrderedDict.get?_put]
      by_cases hk : k = key
      · rw [if_pos hk, if_pos hk]
        rfl
      · rw [if_neg hk, if_neg hk]

theorem length_activeWindow (h : (windows.activeWindow key cutoff).1 = none) :
    (windows.activeWindow key cutoff).2.entries.length ≤ windows.entries.length := by
  unfold activeWindow at h ⊢
  split at h
  · exact le_rfl
  · dsimp only at h ⊢
    split at h
    · rename_i hempty
      rw [if_pos hempty]
      exact List.length_filter_le _ _
    · cases h

/-- While there is room nothing is evicted. -/
theorem windowOf_evict (h : windows.entries.length < loginFailureMaxKeys) :
    windows.evict.windowOf k = windows.windowOf k := by
  have hentries : windows.evict.entries = windows.entries := by
    change (windows.entries.reverse.take (loginFailureMaxKeys - 1)).reverse = _
    rw [List.take_of_length_le (by rw [List.length_reverse]; omega), List.reverse_reverse]
  rw [windowOf, windowOf, OrderedDict.get?, OrderedDict.get?, hentries]

/-- A record of a failure that evicts nothing of the key. -/
theorem windowOf_recordWindow
    (h : (windows.activeWindow key cutoff).1 = none →
      (windows.activeWindow key cutoff).2.evict.windowOf k =
        (windows.activeWindow key cutoff).2.windowOf k) :
    (windows.recordWindow key now cutoff).windowOf k =
      if k = key then (windows.windowOf key).dropWhile (· ≤ cutoff) ++ [now] else windows.windowOf k := by
  have hfst := windows.activeWindow_fst key cutoff
  have hsnd := windows.windowOf_activeWindow key k cutoff
  unfold recordWindow
  cases hactive : windows.activeWindow key cutoff with
  | mk window windows' =>
    rw [hactive] at h hfst hsnd
    cases window with
    | none =>
      dsimp only at hfst hsnd ⊢
      rw [windowOf, OrderedDict.get?_put]
      by_cases hk : k = key
      · rw [if_pos hk, if_pos hk, ← hfst]
        rfl
      · rw [if_neg hk, if_neg hk]
        rw [if_neg hk] at hsnd
        exact (h rfl).trans hsnd
    | some window =>
      dsimp only at hfst hsnd ⊢
      rw [windowOf, OrderedDict.get?_put]
      by_cases hk : k = key
      · rw [if_pos hk, if_pos hk, ← hfst]
        rfl
      · rw [if_neg hk, if_neg hk]
        rw [if_neg hk] at hsnd
        exact hsnd

/-- What is dropped at a time does not count later. -/
theorem active_dropWhile (window : List Seconds) (h : now ≤ now') :
    active (window.dropWhile (· ≤ now - loginFailureWindowSeconds)) now' = active window now' := by
  unfold active
  have hcut := List.takeWhile_append_dropWhile (p := (· ≤ now - loginFailureWindowSeconds)) (l := window)
  have hzero : (window.takeWhile (· ≤ now - loginFailureWindowSeconds)).countP
      (fun r => now' - loginFailureWindowSeconds < r) = 0 := by
    rw [List.countP_eq_zero]
    intro r hr
    have hle : r ≤ now - loginFailureWindowSeconds := by simpa using List.mem_takeWhile_imp hr
    simp only [decide_eq_true_eq, not_lt]
    linarith
  conv_rhs => rw [← hcut, List.countP_append, hzero, Nat.zero_add]

theorem active_append (window : List Seconds) (r : Seconds) :
    active (window ++ [r]) now' =
      active window now' + if now' - loginFailureWindowSeconds < r then 1 else 0 := by
  unfold active
  rw [List.countP_append, List.countP_singleton]
  simp

theorem active_le_length (window : List Seconds) : active window now ≤ window.length :=
  List.countP_le_length

end FailureWindows

open FailureWindows

/-! ## Tallies -/

/-- One of the two limits: whose failures are counted together, where, and how many may be. -/
structure LoginGate where
  key : Text → Option Text → Text
  windows : LoginThrottle → FailureWindows
  limit : Nat

/-- The limit for a user name and an address. -/
def userGate (digest : Text → Text) : LoginGate :=
  ⟨loginFailureKey digest, LoginThrottle.loginFailures, loginFailureLimit⟩

/-- The limit for an address. -/
def ipGate : LoginGate := ⟨fun _ ip => loginIpKey ip, LoginThrottle.loginIpFailures, loginIpFailureLimit⟩

/-- When `verify_password` was called, if it was. -/
def LoginPhase.since? : LoginPhase → Option Seconds
  | verifying since | ended since => some since
  | _ => none

/-- `verify_password` has been called within the window that ends now, or has not been called yet. -/
def LoginPhase.counts (phase : LoginPhase) (now : Seconds) : Bool :=
  match phase.since? with
  | none => true
  | some since => now - loginFailureWindowSeconds < since

namespace LoginGate

variable (g : LoginGate) (k : Text) (s : LoginSystem) (now : Seconds)

/-- A call of the key. -/
def owns (c : LoginCall) : Bool := g.key c.username c.ip = k

/-- The calls of the key that have not reached `verify_password`. -/
def unverified : Nat := s.calls.countP fun c => g.owns k c && c.phase.since?.isNone

/-- The calls of the key past the check whose failure has not been recorded, without those that
    reached `verify_password` before the window. -/
def pending : Nat := s.calls.countP fun c => g.owns k c && c.phase.counts now

/-- The verifications of the key within the window. -/
def recent : Nat := s.verified.countP fun v =>
  decide (g.key v.username v.ip = k) && decide (now - loginFailureWindowSeconds < v.time)

/-- The verifications of the key in the period from `t` on. -/
def inPeriod (t : Seconds) : Nat := s.verified.countP fun v =>
  decide (g.key v.username v.ip = k) && decide (t ≤ v.time ∧ v.time < t + loginFailureWindowSeconds)

/-- The failures of the key that a check at `now` counts. -/
def failures : Nat := active ((g.windows s.throttle).windowOf k) now

/-- What holds between two steps. -/
structure Bounded : Prop where
  covered : ∀ now, s.clock ≤ now → g.recent k s now + g.unverified k s ≤ g.failures k s now + g.pending k s now
  bounded : ∀ now, s.clock ≤ now → g.recent k s now + g.unverified k s ≤ g.limit
  periods : ∀ t, g.inPeriod k s t ≤ g.limit
  past : ∀ c ∈ s.calls, ∀ since, c.phase.since? = some since → since ≤ s.clock

variable {g k s now} {s' : LoginSystem} {c c' : LoginCall} {rest : List LoginCall} {i : Nat}

/-- A step that verifies nothing and admits nobody: a call leaves only with its failure. -/
theorem Bounded.of_fewer (h : g.Bounded k s) (hclock : s.clock ≤ s'.clock)
    (hverified : s'.verified = s.verified) (hunverified : g.unverified k s' ≤ g.unverified k s)
    (hcounts : ∀ now, s'.clock ≤ now →
      g.unverified k s' + (g.failures k s now + g.pending k s now) ≤
        g.unverified k s + (g.failures k s' now + g.pending k s' now))
    (hpast : ∀ c ∈ s'.calls, ∀ since, c.phase.since? = some since → since ≤ s'.clock) : g.Bounded k s' := by
  have hrecent : ∀ now, g.recent k s' now = g.recent k s now := by
    intro now
    rw [recent, recent, hverified]
  refine ⟨fun now hnow => ?_, fun now hnow => ?_, fun t => ?_, hpast⟩
  · have hcovered := h.covered now (hclock.trans hnow)
    have hmove := hcounts now hnow
    rw [hrecent]
    omega
  · have hbounded := h.bounded now (hclock.trans hnow)
    rw [hrecent]
    omega
  · have hperiod := h.periods t
    rw [inPeriod, hverified]
    exact hperiod

/-! ### One call among the others -/

theorem calls_perm (h : s.calls[i]? = some c) : s.calls.Perm (c :: s.calls.eraseIdx i) := by
  obtain ⟨hi, rfl⟩ := List.getElem?_eq_some_iff.mp h
  exact (List.getElem_cons_eraseIdx_perm hi).symm

theorem calls_set_perm (h : s.calls[i]? = some c) (c' : LoginCall) :
    (s.calls.set i c').Perm (c' :: s.calls.eraseIdx i) := by
  obtain ⟨hi, -⟩ := List.getElem?_eq_some_iff.mp h
  exact List.set_perm_cons_eraseIdx hi c'

/-- The tallies with a call counted apart. -/
theorem unverified_eq (h : s.calls.Perm (c :: rest)) : g.unverified k s =
    rest.countP (fun c => g.owns k c && c.phase.since?.isNone) +
      if g.owns k c && c.phase.since?.isNone then 1 else 0 := by
  rw [unverified, h.countP_eq, List.countP_cons]

theorem pending_eq (h : s.calls.Perm (c :: rest)) : g.pending k s now =
    rest.countP (fun c => g.owns k c && c.phase.counts now) +
      if g.owns k c && c.phase.counts now then 1 else 0 := by
  rw [pending, h.countP_eq, List.countP_cons]

/-- The tallies after a call has gone on, or has left. -/
structure Moved (g : LoginGate) (k : Text) (s s' : LoginSystem) : Prop where
  unverified : g.unverified k s' ≤ g.unverified k s
  kept : ∀ now, g.unverified k s' + g.pending k s now ≤ g.unverified k s + g.pending k s' now

/-- A call goes on and stays where it stood to `verify_password`. -/
theorem moved_of_set (h : s.calls[i]? = some c) (hcalls : s'.calls = s.calls.set i c')
    (hkey : g.owns k c' = g.owns k c) (hsince : c'.phase.since? = c.phase.since?) : g.Moved k s s' := by
  have hperm' : s'.calls.Perm (c' :: s.calls.eraseIdx i) := hcalls ▸ calls_set_perm h c'
  have hcounts (now : Seconds) : c'.phase.counts now = c.phase.counts now := by
    rw [LoginPhase.counts, LoginPhase.counts, hsince]
  refine ⟨?_, fun now => ?_⟩
  · rw [unverified_eq hperm', unverified_eq (calls_perm h), hkey, hsince]
  · rw [unverified_eq hperm', unverified_eq (calls_perm h), pending_eq hperm', pending_eq (calls_perm h),
      hkey, hsince, hcounts]

/-- A call that has not reached `verify_password` leaves. -/
theorem moved_of_leave (h : s.calls[i]? = some c) (hcalls : s'.calls = s.calls.eraseIdx i)
    (hsince : c.phase.since? = none) : g.Moved k s s' := by
  have hcounts (now : Seconds) : c.phase.counts now = true := by
    rw [LoginPhase.counts, hsince]
  have hrest : s'.calls.Perm (s.calls.eraseIdx i) := .of_eq hcalls
  refine ⟨?_, fun now => ?_⟩
  · rw [unverified_eq (calls_perm h), unverified, hrest.countP_eq]
    omega
  · rw [unverified_eq (calls_perm h), pending_eq (calls_perm h), unverified, pending, hrest.countP_eq,
      hrest.countP_eq, hcounts, hsince]
    simp only [Option.isNone_none, Bool.and_true]
    omega

/-- Calls that stay, or are exchanged for one that reached `verify_password` at the same time. -/
theorem past_of_subset (h : g.Bounded k s) (hclock : s.clock ≤ s'.clock)
    (hcalls : ∀ c ∈ s'.calls, ∃ c₀ ∈ s.calls, c.phase.since? = c₀.phase.since?) :
    ∀ c ∈ s'.calls, ∀ since, c.phase.since? = some since → since ≤ s'.clock := by
  intro c hc since hsince
  obtain ⟨c₀, hc₀, heq⟩ := hcalls c hc
  exact (h.past c₀ hc₀ since (heq.symm.trans hsince)).trans hclock

theorem mem_of_mem_set (h : s.calls[i]? = some c) (hsince : c'.phase.since? = c.phase.since?) :
    ∀ d ∈ s.calls.set i c', ∃ c₀ ∈ s.calls, d.phase.since? = c₀.phase.since? := by
  intro d hd
  rcases List.mem_or_eq_of_mem_set hd with hd | rfl
  · exact ⟨d, hd, rfl⟩
  · exact ⟨c, List.mem_of_getElem? h, hsince⟩

theorem mem_of_mem_eraseIdx (s : LoginSystem) (i : Nat) :
    ∀ d ∈ s.calls.eraseIdx i, ∃ c₀ ∈ s.calls, d.phase.since? = c₀.phase.since? :=
  fun d hd => ⟨d, List.mem_of_mem_eraseIdx hd, rfl⟩

/-- A step that changes neither the windows nor the clock. -/
theorem Bounded.of_moved (h : g.Bounded k s) (hclock : s'.clock = s.clock)
    (hverified : s'.verified = s.verified)
    (hwindow : (g.windows s'.throttle).windowOf k = (g.windows s.throttle).windowOf k)
    (hmoved : g.Moved k s s')
    (hcalls : ∀ c ∈ s'.calls, ∃ c₀ ∈ s.calls, c.phase.since? = c₀.phase.since?) : g.Bounded k s' := by
  refine h.of_fewer hclock.ge hverified hmoved.unverified (fun now _ => ?_)
    (past_of_subset h hclock.ge hcalls)
  have hkept := hmoved.kept now
  have hfailures : g.failures k s' now = g.failures k s now := by
    rw [failures, failures, hwindow]
  omega

/-! ### The windows of a gate -/

/-- What the three operations do to the windows of a gate. -/
structure Lawful (digest : Text → Text) (g : LoginGate) : Prop where
  asserted : ∀ t username ip now, g.windows (t.assertLoginAllowed digest username ip now).2 =
    ((g.windows t).activeWindow (g.key username ip) (now - loginFailureWindowSeconds)).2
  recorded : ∀ t username ip now, g.windows (t.recordLoginFailure digest username ip now) =
    (g.windows t).recordWindow (g.key username ip) now (now - loginFailureWindowSeconds)
  cleared : ∀ t username ip k, g.key username ip ≠ k →
    (g.windows (t.clearLoginFailures digest username ip)).windowOf k = (g.windows t).windowOf k

variable {digest : Text → Text} {username : Text} {ip : Option Text}

theorem userGate_lawful (digest : Text → Text) : (userGate digest).Lawful digest := by
  refine ⟨fun _ _ _ _ => rfl, fun _ _ _ _ => rfl, fun t username ip k hk => ?_⟩
  have hother : k ≠ loginFailureKey digest username ip := Ne.symm hk
  have hpop : (t.loginFailures.pop (loginFailureKey digest username ip)).get? k =
      t.loginFailures.get? k := by
    rw [OrderedDict.get?_pop, if_neg hother]
  exact congrArg (·.getD []) hpop

theorem ipGate_lawful (digest : Text → Text) : ipGate.Lawful digest :=
  ⟨fun _ _ _ _ => rfl, fun _ _ _ _ => rfl, fun _ _ _ _ _ => rfl⟩

/-- Recording a failure at a time evicts no window of the key. -/
def Spares (g : LoginGate) (k : Text) (s : LoginSystem) (username : Text) (ip : Option Text)
    (now : Seconds) : Prop :=
  let (window, windows) :=
    (g.windows s.throttle).activeWindow (g.key username ip) (now - loginFailureWindowSeconds)
  window = none → windows.evict.windowOf k = windows.windowOf k

/-- The failures after one more was recorded. -/
theorem failures_record (hg : g.Lawful digest) (hspares : g.Spares k s username ip now)
    {now' : Seconds} (hnow : now ≤ now') :
    g.failures k (s.record digest username ip now) now' = g.failures k s now' +
      if g.key username ip = k then (if now' - loginFailureWindowSeconds < now then 1 else 0) else 0 := by
  unfold failures LoginSystem.record
  rw [hg.recorded, windowOf_recordWindow hspares]
  by_cases hk : k = g.key username ip
  · rw [if_pos hk, if_pos hk.symm, active_append, active_dropWhile _ hnow, hk]
  · rw [if_neg hk, if_neg (Ne.symm hk), Nat.add_zero]

theorem Bounded.record (h : g.Bounded k s) (hg : g.Lawful digest)
    (hspares : g.Spares k s username ip now) (hclock : s.clock ≤ now) :
    g.Bounded k (s.record digest username ip now) := by
  refine h.of_fewer hclock rfl (Nat.le_refl _) (fun now' hnow' => ?_)
    (past_of_subset h hclock fun c hc => ⟨c, hc, rfl⟩)
  rw [failures_record hg hspares hnow']
  exact Nat.add_le_add_left (Nat.add_le_add_right (Nat.le_add_right _ _) _) _

/-- A call records its failure and ends. -/
theorem Bounded.leave (h : g.Bounded k s) (hg : g.Lawful digest) (hi : s.calls[i]? = some c)
    (hspares : g.Spares k s c.username c.ip now) (hclock : s.clock ≤ now) :
    g.Bounded k ((s.record digest c.username c.ip now).leave i) := by
  set s' := (s.record digest c.username c.ip now).leave i with hs'
  have hperm := calls_perm hi
  have hrest : s'.calls.Perm (s.calls.eraseIdx i) := .refl _
  have hown : g.owns k c = decide (g.key c.username c.ip = k) := rfl
  refine h.of_fewer hclock rfl ?_ (fun now' hnow' => ?_)
    (past_of_subset h hclock (mem_of_mem_eraseIdx s i))
  · rw [unverified_eq hperm, unverified, hrest.countP_eq]
    exact Nat.le_add_right _ _
  · have hfailures : g.failures k s' now' = g.failures k s now' + _ := failures_record hg hspares hnow'
    rw [hfailures, unverified_eq hperm, pending_eq hperm, unverified, pending, hrest.countP_eq,
      hrest.countP_eq, hown]
    by_cases hk : g.key c.username c.ip = k
    · simp only [hk, decide_true, Bool.true_and, if_true]
      cases hsince : c.phase.since? with
      | none =>
        simp only [LoginPhase.counts, hsince, Option.isNone_none, if_true]
        omega
      | some since =>
        have hpast : since ≤ now := (h.past c (List.mem_of_getElem? hi) since hsince).trans hclock
        simp only [LoginPhase.counts, hsince, Option.isNone_some, Bool.false_eq_true, if_false,
          decide_eq_true_eq]
        by_cases hwithin : now' - loginFailureWindowSeconds < since
        · rw [if_pos hwithin, if_pos (hwithin.trans_le hpast)]
          omega
        · rw [if_neg hwithin]
          omega
    · simp only [hk, decide_false, Bool.false_and, Bool.false_eq_true, if_false]
      omega

/-- Later fewer verifications are recent. -/
theorem recent_anti {now' : Seconds} (hnow : now ≤ now') : g.recent k s now' ≤ g.recent k s now := by
  unfold recent
  refine List.countP_mono_left fun v _ hv => ?_
  simp only [Bool.and_eq_true, decide_eq_true_eq] at hv ⊢
  exact ⟨hv.1, by linarith [hv.2]⟩

/-- The check of a new call. -/
theorem Bounded.begin (h : g.Bounded k s) (hg : g.Lawful digest) (hclock : s.clock ≤ now)
    (hroom : (s.throttle.assertLoginAllowed digest username ip now).1 = true → g.key username ip = k →
      (((g.windows s.throttle).activeWindow k (now - loginFailureWindowSeconds)).1.getD []).length +
        g.pending k s now < g.limit) :
    g.Bounded k (s.begin digest username ip now) := by
  set s' := s.begin digest username ip now with hs'
  have hthrottle : s'.throttle = (s.throttle.assertLoginAllowed digest username ip now).2 := rfl
  have hfailures (now' : Seconds) (hnow' : now ≤ now') : g.failures k s' now' = g.failures k s now' := by
    rw [failures, failures, hthrottle, hg.asserted, windowOf_activeWindow]
    by_cases hk : k = g.key username ip
    · rw [if_pos hk, active_dropWhile _ hnow', hk]
    · rw [if_neg hk]
  cases hallowed : (s.throttle.assertLoginAllowed digest username ip now).1 with
  | false =>
    have hcalls : s'.calls = s.calls := by
      rw [hs', LoginSystem.begin]
      simp only [hallowed, Bool.false_eq_true, if_false]
    refine h.of_fewer hclock rfl ?_ (fun now' hnow' => ?_)
      (past_of_subset h hclock fun c hc => ⟨c, hcalls ▸ hc, rfl⟩)
    · rw [unverified, unverified, hcalls]
    · rw [hfailures now' hnow', unverified, unverified, pending, pending, hcalls]
  | true =>
    have hcalls : s'.calls = s.calls ++ [⟨username, ip, .admitted, false⟩] := by
      rw [hs', LoginSystem.begin]
      simp only [hallowed, if_true]
    have hperm : s'.calls.Perm (⟨username, ip, .admitted, false⟩ :: s.calls) :=
      hcalls ▸ List.perm_append_comm
    have hown : g.owns k ⟨username, ip, .admitted, false⟩ = decide (g.key username ip = k) := rfl
    have hunverified : g.unverified k s' = g.unverified k s + if g.key username ip = k then 1 else 0 := by
      rw [unverified_eq hperm, hown]
      simp [LoginPhase.since?, unverified]
    have hpending (now' : Seconds) : g.pending k s' now' =
        g.pending k s now' + if g.key username ip = k then 1 else 0 := by
      rw [pending_eq hperm, hown]
      simp [LoginPhase.counts, LoginPhase.since?, pending]
    refine ⟨fun now' hnow' => ?_, fun now' hnow' => ?_, h.periods, ?_⟩
    · have hcovered := h.covered now' (hclock.trans hnow')
      change g.recent k s now' + _ ≤ _
      rw [hunverified, hfailures now' hnow', hpending]
      omega
    · have hbounded := h.bounded now' (hclock.trans hnow')
      have hanti : g.recent k s now' ≤ g.recent k s now := recent_anti hnow'
      change g.recent k s now' + _ ≤ _
      rw [hunverified]
      by_cases hk : g.key username ip = k
      · have hcovered := h.covered now hclock
        have hfree := hroom hallowed hk
        rw [activeWindow_fst] at hfree
        have hcount : g.failures k s now ≤
            (((g.windows s.throttle).windowOf k).dropWhile
              (· ≤ now - loginFailureWindowSeconds)).length := by
          rw [failures, ← active_dropWhile _ (le_refl now)]
          exact active_le_length _
        rw [if_pos hk]
        omega
      · rw [if_neg hk]
        exact hbounded
    · intro c hc since hsince
      rw [hcalls, List.mem_append, List.mem_singleton] at hc
      rcases hc with hc | rfl
      · exact (h.past c hc since hsince).trans hclock
      · cases hsince

/-- A call reaches `verify_password`. -/
theorem Bounded.verify (h : g.Bounded k s) (hi : s.calls[i]? = some c) (hphase : c.phase = .queued)
    (hclock : s.clock ≤ now) :
    g.Bounded k ((s.reach c now).proceed i c (.verifying now)) := by
  set s' := (s.reach c now).proceed i c (.verifying now) with hs'
  have hperm := calls_perm hi
  have hperm' : s'.calls.Perm ({ c with phase := .verifying now } :: s.calls.eraseIdx i) :=
    calls_set_perm hi _
  have hown : g.owns k c = decide (g.key c.username c.ip = k) := rfl
  have hown' : g.owns k { c with phase := .verifying now } = decide (g.key c.username c.ip = k) := rfl
  have hunverified : g.unverified k s = g.unverified k s' + if g.key c.username c.ip = k then 1 else 0 := by
    rw [unverified_eq hperm, unverified_eq hperm', hown, hown', hphase]
    simp [LoginPhase.since?]
  have hrecent (now' : Seconds) : g.recent k s' now' = g.recent k s now' +
      if g.key c.username c.ip = k ∧ now' - loginFailureWindowSeconds < now then 1 else 0 := by
    rw [recent, hs', LoginSystem.proceed, LoginSystem.reach, List.countP_append, List.countP_singleton]
    simp [recent]
  have hpending (now' : Seconds) : g.pending k s' now' + (if g.key c.username c.ip = k then 1 else 0) =
      g.pending k s now' +
        if g.key c.username c.ip = k ∧ now' - loginFailureWindowSeconds < now then 1 else 0 := by
    rw [pending_eq hperm, pending_eq hperm', hown, hown', hphase]
    simp [LoginPhase.counts, LoginPhase.since?]
    omega
  have hfailures (now' : Seconds) : g.failures k s' now' = g.failures k s now' := rfl
  refine ⟨fun now' hnow' => ?_, fun now' hnow' => ?_, fun t => ?_, ?_⟩
  · have hcovered := h.covered now' (hclock.trans hnow')
    have hmove := hpending now'
    rw [hrecent, hfailures]
    omega
  · have hbounded := h.bounded now' (hclock.trans hnow')
    rw [hrecent]
    by_cases hk : g.key c.username c.ip = k
    · rw [if_pos hk] at hunverified
      split <;> omega
    · rw [if_neg hk] at hunverified
      rw [if_neg fun hboth => hk hboth.1]
      omega
  · have hperiod := h.periods t
    have hcount : g.inPeriod k s' t = g.inPeriod k s t +
        if g.key c.username c.ip = k ∧ t ≤ now ∧ now < t + loginFailureWindowSeconds then 1 else 0 := by
      rw [inPeriod, hs', LoginSystem.proceed, LoginSystem.reach, List.countP_append, List.countP_singleton]
      simp [inPeriod]
    rw [hcount]
    by_cases hin : g.key c.username c.ip = k ∧ t ≤ now ∧ now < t + loginFailureWindowSeconds
    · -- the earlier verifications of the period are recent, and this call was counted with them
      have hbounded := h.bounded now hclock
      have hwithin : g.inPeriod k s t ≤ g.recent k s now := by
        refine List.countP_mono_left fun v _ hv => ?_
        simp only [Bool.and_eq_true, decide_eq_true_eq] at hv ⊢
        exact ⟨hv.1, by linarith [hv.2.1, hin.2.2]⟩
      rw [if_pos hin.1] at hunverified
      rw [if_pos hin]
      omega
    · rw [if_neg hin]
      exact hperiod
  · intro d hd since hsince
    rcases List.mem_cons.mp (hperm'.mem_iff.mp hd) with rfl | hd
    · cases hsince
      exact le_refl now
    · exact (h.past d (List.mem_of_mem_eraseIdx hd) since hsince).trans hclock

/-! ### Steps -/

/-- No window of the key is evicted, and no call of the key logs in. -/
def Quiet (g : LoginGate) (k : Text) (s : LoginSystem) : LoginAction → Prop
  | .recordFailure username ip now => g.Spares k s username ip now
  | .refusePassword call now | .fail call now =>
    ∀ c, s.calls[call]? = some c → g.Spares k s c.username c.ip now
  | .succeed call => ∀ c, s.calls[call]? = some c → g.key c.username c.ip ≠ k
  | _ => True

/-- A call of the key passes the check only if the failures it is shown and the calls that have not
    recorded theirs leave room. -/
def Unraced (digest : Text → Text) (g : LoginGate) (k : Text) (s : LoginSystem) : LoginAction → Prop
  | .begin username ip now =>
    (s.throttle.assertLoginAllowed digest username ip now).1 = true → g.key username ip = k →
      (((g.windows s.throttle).activeWindow k (now - loginFailureWindowSeconds)).1.getD []).length +
        g.pending k s now < g.limit
  | _ => True

theorem spares_of_room (h : (g.windows s.throttle).entries.length < loginFailureMaxKeys) :
    g.Spares k s username ip now :=
  fun hnone => windowOf_evict ((length_activeWindow hnone).trans_lt h)

/-- There is room for another window, and no call logs in. -/
def Roomy (g : LoginGate) (s : LoginSystem) : LoginAction → Prop
  | .succeed _ => False
  | _ => (g.windows s.throttle).entries.length < loginFailureMaxKeys

instance (g : LoginGate) (s : LoginSystem) (a : LoginAction) : Decidable (g.Roomy s a) := by
  cases a <;> unfold Roomy <;> infer_instance

theorem Roomy.quiet {a : LoginAction} (h : g.Roomy s a) : g.Quiet k s a := by
  cases a with
  | recordFailure => exact spares_of_room h
  | refusePassword | fail => exact fun c _ => spares_of_room h
  | succeed => exact h.elim
  | _ => trivial

/-- A call that passes the check has room in its own window. -/
def Admits (digest : Text → Text) (g : LoginGate) (s : LoginSystem) : LoginAction → Prop
  | .begin username ip now => (s.throttle.assertLoginAllowed digest username ip now).1 = true →
      (((g.windows s.throttle).activeWindow (g.key username ip) (now - loginFailureWindowSeconds)).1.getD
        []).length + g.pending (g.key username ip) s now < g.limit
  | _ => True

instance (g : LoginGate) (s : LoginSystem) (a : LoginAction) : Decidable (g.Admits digest s a) := by
  cases a <;> unfold Admits <;> infer_instance

theorem Admits.unraced {a : LoginAction} (h : g.Admits digest s a) : g.Unraced digest k s a := by
  cases a with
  | begin =>
    rintro hallowed rfl
    exact h hallowed
  | _ => trivial

theorem Bounded.initial (g : LoginGate) (k : Text) (clock : Seconds) : g.Bounded k (.initial clock) :=
  ⟨fun _ _ => Nat.zero_le _, fun _ _ => Nat.zero_le _, fun _ => Nat.zero_le _, fun _ hc => nomatch hc⟩

theorem Bounded.stepCall (h : g.Bounded k s) (hg : g.Lawful digest) {a : LoginAction}
    (hquiet : g.Quiet k s a) (ha : LoginSystem.callOf a = some i) (hi : s.calls[i]? = some c)
    (hstep : s.stepCall digest i c a = some s') : g.Bounded k s' := by
  cases a with
  | refusePassword call now =>
    cases ha
    rw [LoginSystem.stepCall] at hstep
    split at hstep
    · rename_i hcond
      cases hstep
      exact h.leave hg hi (hquiet c hi) hcond.2
    · cases hstep
  | enterWork call =>
    cases ha
    rw [LoginSystem.stepCall] at hstep
    split at hstep
    · rename_i hphase
      have hsince : c.phase.since? = none := by rw [hphase]; rfl
      split at hstep
      · cases hstep
        exact h.of_moved rfl rfl rfl (moved_of_leave hi rfl hsince) (mem_of_mem_eraseIdx s i)
      · cases hstep
        exact h.of_moved rfl rfl rfl (moved_of_set hi rfl rfl hsince.symm) (mem_of_mem_set hi hsince.symm)
    · cases hstep
  | acquireSlot call =>
    cases ha
    rw [LoginSystem.stepCall] at hstep
    split at hstep
    · rename_i hcond
      have hsince : c.phase.since? = none := by rw [hcond.1]; rfl
      dsimp only at hstep
      split at hstep
      · cases hstep
        exact h.of_moved rfl rfl rfl (moved_of_leave hi rfl hsince) (mem_of_mem_eraseIdx s i)
      · cases hstep
        exact h.of_moved rfl rfl rfl (moved_of_set hi rfl rfl hsince.symm) (mem_of_mem_set hi hsince.symm)
    · cases hstep
  | verify call now =>
    cases ha
    rw [LoginSystem.stepCall] at hstep
    split at hstep
    · rename_i hcond
      cases hstep
      exact h.verify hi hcond.1 hcond.2.1
    · cases hstep
  | fail call now =>
    cases ha
    rw [LoginSystem.stepCall] at hstep
    split at hstep
    · split at hstep
      · rename_i hcond
        cases hstep
        exact h.leave hg hi (hquiet c hi) hcond.2
      · cases hstep
    · cases hstep
  | succeed call =>
    cases ha
    rw [LoginSystem.stepCall] at hstep
    split at hstep
    · split at hstep
      · cases hstep
        have hother := hquiet c hi
        have hperm := calls_perm hi
        have hown : g.owns k c = false := decide_eq_false hother
        refine h.of_moved rfl rfl (hg.cleared _ _ _ k hother) ⟨?_, fun now => ?_⟩
          (mem_of_mem_eraseIdx s i)
        · rw [unverified_eq hperm]
          exact Nat.le_add_right _ _
        · rw [unverified_eq hperm, pending_eq hperm, hown]
          exact Nat.le_refl _
      · cases hstep
    · cases hstep
  | cancel call =>
    cases ha
    rw [LoginSystem.stepCall] at hstep
    split at hstep
    · rename_i hphase
      have hsince : c.phase.since? = none := by rw [hphase]; rfl
      cases hstep
      exact h.of_moved rfl rfl rfl (moved_of_leave hi rfl hsince) (mem_of_mem_eraseIdx s i)
    iterate 3
      · cases hstep
        exact h.of_moved rfl rfl rfl (moved_of_set hi rfl rfl rfl) (mem_of_mem_set hi rfl)
    · cases hstep
  | workDone call =>
    cases ha
    rw [LoginSystem.stepCall] at hstep
    split at hstep
    · rename_i since hphase
      have hsince : (LoginPhase.ended since).since? = c.phase.since? := by rw [hphase]; rfl
      cases hstep
      exact h.of_moved rfl rfl rfl (moved_of_set hi rfl rfl hsince) (mem_of_mem_set hi hsince)
    · cases hstep
  | begin username ip now => cases ha
  | recordFailure username ip now => cases ha
  | close => cases ha

theorem Bounded.step (h : g.Bounded k s) (hg : g.Lawful digest) {a : LoginAction}
    (hquiet : g.Quiet k s a) (hunraced : g.Unraced digest k s a) (hstep : s.step digest a = some s') :
    g.Bounded k s' := by
  unfold LoginSystem.step at hstep
  split at hstep
  · split at hstep
    · rename_i hclock
      cases hstep
      exact h.begin hg hclock hunraced
    · cases hstep
  · split at hstep
    · rename_i hclock
      cases hstep
      exact h.record hg hquiet hclock
    · cases hstep
  · cases hstep
    exact ⟨h.covered, h.bounded, h.periods, h.past⟩
  · split at hstep
    · rename_i call hcall
      split at hstep
      · rename_i c hi
        exact h.stepCall hg hquiet hcall hi hstep
      · cases hstep
    · cases hstep

end LoginGate

/-! ## One address -/

/-- No failure window of the address is evicted, and no call that shares one of them logs in. -/
def Undisturbed (digest : Text → Text) (ip : Option Text) (s : LoginSystem) (a : LoginAction) : Prop :=
  (∀ username, (userGate digest).Quiet (loginFailureKey digest username ip) s a) ∧
    ipGate.Quiet (loginIpKey ip) s a

/-- A call from the address passes the check only if, for its user name and for the address, the
    failures in the window and the calls past the check that have not recorded theirs are fewer than
    the limit. -/
def WithinLimits (digest : Text → Text) (ip : Option Text) (s : LoginSystem) (a : LoginAction) : Prop :=
  (∀ username, (userGate digest).Unraced digest (loginFailureKey digest username ip) s a) ∧
    ipGate.Unraced digest (loginIpKey ip) s a

/-- In every run in which no call passes the check while recorded and outstanding failures reach a
    limit, no more calls than the limits allow reach `verify_password` within any period of the
    window's length. -/
theorem login_throttle_bound (digest : Text → Text) (ip : Option Text) {clock : Seconds}
    {actions : List LoginAction} {s : LoginSystem}
    (hrun : Transition.run (LoginSystem.step digest) (.initial clock) actions = some s)
    (hundisturbed : Transition.Along (LoginSystem.step digest) (Undisturbed digest ip) (.initial clock)
      actions)
    (hwithin : Transition.Along (LoginSystem.step digest) (WithinLimits digest ip) (.initial clock)
      actions) :
    (∀ username t, (userGate digest).inPeriod (loginFailureKey digest username ip) s t ≤
      loginFailureLimit) ∧
    ∀ t, ipGate.inPeriod (loginIpKey ip) s t ≤ loginIpFailureLimit := by
  have hall : (∀ username, (userGate digest).Bounded (loginFailureKey digest username ip) s) ∧
      ipGate.Bounded (loginIpKey ip) s := by
    have hstart : (∀ username, (userGate digest).Bounded (loginFailureKey digest username ip)
        (.initial clock)) ∧ ipGate.Bounded (loginIpKey ip) (.initial clock) :=
      ⟨fun _ => .initial _ _ _, .initial _ _ _⟩
    generalize LoginSystem.initial clock = s₀ at hrun hundisturbed hwithin hstart
    induction actions generalizing s₀ with
    | nil =>
      cases hrun
      exact hstart
    | cons a actions ih =>
      obtain ⟨s₁, hstep, hrest⟩ := Option.bind_eq_some_iff.mp hrun
      refine ih s₁ hrest (hundisturbed.2 s₁ hstep) (hwithin.2 s₁ hstep) ⟨fun username => ?_, ?_⟩
      · exact (hstart.1 username).step (LoginGate.userGate_lawful digest) (hundisturbed.1.1 username)
          (hwithin.1.1 username) hstep
      · exact hstart.2.step (LoginGate.ipGate_lawful digest) hundisturbed.1.2 hwithin.1.2 hstep
  exact ⟨fun username => (hall.1 username).periods, hall.2.periods⟩

/-- The digest of `admin`. -/
def adminDigest (_ : Text) : Text :=
  "8c6976e5b5410415bde908bd4dee15dfb167a9c873fc4bb8a81f6f2ab448a918".toList

/-- `n` calls with wrong passwords pass the check before any of them has failed, and the first four
    of them are verified. -/
def overlapping (n : Nat) : List LoginAction :=
  List.replicate n (.begin "admin".toList none 0) ++ (List.range n).map .enterWork ++
    (List.range n).map .acquireSlot ++ (List.range 4).map (.verify · 0) ++ (List.range 4).map .workDone

/-- Six calls. -/
def sixLogins : List LoginAction := overlapping 6 ++ [.verify 4 0, .verify 5 0]

theorem along_undisturbed {digest : Text → Text} {actions : List LoginAction}
    (h : Transition.Along (LoginSystem.step digest)
      (fun s a => (userGate digest).Roomy s a ∧ ipGate.Roomy s a) (.initial 0) actions) :
    Transition.Along (LoginSystem.step digest) (Undisturbed digest none) (.initial 0) actions :=
  h.mono fun _ _ hroom => ⟨fun _ => hroom.1.quiet, hroom.2.quiet⟩

theorem sixLogins_verified :
    ((Transition.run (LoginSystem.step adminDigest) (.initial 0) sixLogins).map fun s =>
      (userGate adminDigest).inPeriod (loginFailureKey adminDigest "admin".toList none) s 0) = some 6 := by
  decide +kernel

/-- All six reach `verify_password`. -/
theorem login_throttle_exceeded :
    ¬∀ (digest : Text → Text) (ip : Option Text) (actions : List LoginAction) (s : LoginSystem),
      Transition.run (LoginSystem.step digest) (.initial 0) actions = some s →
      Transition.Along (LoginSystem.step digest) (Undisturbed digest ip) (.initial 0) actions →
      ∀ username t, (userGate digest).inPeriod (loginFailureKey digest username ip) s t ≤
        loginFailureLimit := by
  intro hclaim
  obtain ⟨s, hrun, hcount⟩ := Option.map_eq_some_iff.mp sixLogins_verified
  have hbound := hclaim adminDigest none sixLogins s hrun
    (along_undisturbed (by decide +kernel)) "admin".toList 0
  rw [hcount] at hbound
  exact absurd hbound (by decide)

/-- Five calls that overlap; once they have failed, a sixth is refused. -/
def fiveLogins : List LoginAction :=
  overlapping 5 ++ [.verify 4 1, .workDone 4] ++ List.replicate 5 (.fail 0 2) ++
    [.begin "admin".toList none 3]

theorem login_throttle_bound_five :
    ∃ s, Transition.run (LoginSystem.step adminDigest) (.initial 0) fiveLogins = some s ∧ s.calls = [] ∧
      (userGate adminDigest).inPeriod (loginFailureKey adminDigest "admin".toList none) s 0 = 5 ∧
      (∀ username t,
        (userGate adminDigest).inPeriod (loginFailureKey adminDigest username none) s t ≤ 5) ∧
      ∀ t, ipGate.inPeriod (loginIpKey none) s t ≤ 50 := by
  have hwithin : Transition.Along (LoginSystem.step adminDigest) (WithinLimits adminDigest none)
      (.initial 0) fiveLogins := by
    have hadmits : Transition.Along (LoginSystem.step adminDigest) (fun s a =>
        (userGate adminDigest).Admits adminDigest s a ∧ ipGate.Admits adminDigest s a) (.initial 0)
        fiveLogins := by decide +kernel
    exact hadmits.mono fun _ _ h => ⟨fun _ => h.1.unraced, h.2.unraced⟩
  have hrun : (Transition.run (LoginSystem.step adminDigest) (.initial 0) fiveLogins).map (fun s =>
      (s.calls, (userGate adminDigest).inPeriod (loginFailureKey adminDigest "admin".toList none) s 0)) =
      some ([], 5) := by decide +kernel
  obtain ⟨s, hs, hstate⟩ := Option.map_eq_some_iff.mp hrun
  obtain ⟨hcalls, hcount⟩ := Prod.mk.inj hstate
  exact ⟨s, hs, hcalls, hcount,
    login_throttle_bound adminDigest none hs (along_undisturbed (by decide +kernel)) hwithin⟩

end RapidInbox
