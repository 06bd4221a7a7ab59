import RapidInbox.Lib.Focus

/-!
# Admission slots

`DatabaseWriter` and `SQLiteReadPool` admit callers in the same way.  Every request owns one slot of a
bounded capacity from its admission to its end.  A caller that finds no slot queues as a waiter; a
slot that becomes free is granted to a waiter under the state lock, a callback tells the waiter's
event loop, and the caller consumes the grant when its coroutine resumes.

A call is named by its number.  `grants` and `rejections` hold the waiters whose callback has still to
be scheduled by the thread that changed their state, `callbacks` the callbacks that stand in an event
loop.  Neither list is ordered against the other threads: the callbacks of different loops run in any
order, and so may the threads that schedule them.
-/

namespace RapidInbox

/-- `_AdmissionWaiter.state`. -/
inductive WaiterState where
  | waiting | granted | consumed | cancelled | rejected
  deriving DecidableEq

/-- The state of an `asyncio.Future`. -/
inductive FutureState where
  | pending | result | exception | cancelled
  deriving DecidableEq

/-- Where a call of `_submit` stands. -/
inductive CallPhase where
  /-- Suspended at `await waiter.future`; with `mustCancel` the task is cancelled although the future
  is already done. -/
  | awaiting (mustCancel : Bool)
  /-- Raising out of `_acquire_capacity`, before `_cancel_admission`. -/
  | unwinding
  /-- It owns a slot and has not placed its request. -/
  | admitted
  /-- Its request could not be placed; the slot is still to be released. -/
  | dropping
  /-- Its request is placed and it awaits the result. -/
  | dispatched
  /-- It has returned or raised. -/
  | left
  deriving DecidableEq

/-- The caller itself owns a slot. -/
def CallPhase.holds : CallPhase → Bool
  | .admitted | .dropping => true
  | _ => false

/-- A call of `_submit`, with its waiter.  A call admitted at once has no waiter; it stands here as one
whose grant is consumed. -/
structure Call where
  phase : CallPhase
  waiter : WaiterState
  future : FutureState
  deriving DecidableEq

/-- Nothing is left of the call in admission. -/
def Call.Gone (call : Call) : Prop :=
  call.phase = .dispatched ∨ call.phase = .left

/-- A callback in an event loop. -/
inductive Callback where
  | grant (c : Nat)
  | rejection (c : Nat)
  deriving DecidableEq

/-- The admission part of the actor. -/
structure Admission where
  outstanding : Int := 0
  /-- `_admission_waiters` -/
  waiters : List Nat := []
  calls : List Call := []
  grants : List Nat := []
  rejections : List Nat := []
  callbacks : List Callback := []
  deriving DecidableEq

namespace Admission

/-- Slots granted and not consumed. -/
def granted (a : Admission) : Nat :=
  a.calls.countP (·.waiter = .granted)

/-- Slots consumed by callers that have not placed their request. -/
def admitted (a : Admission) : Nat :=
  a.calls.countP (·.phase.holds)

/-- The slots that have left admission: those the workers own. -/
def owed (a : Admission) : Int :=
  a.outstanding - a.granted - a.admitted

/-- Nothing is left of call `c`. -/
def Gone (a : Admission) (c : Nat) : Prop :=
  ∃ call, a.calls[c]? = some call ∧ call.Gone

/-! ## Operations under the state lock -/

def setCall (a : Admission) (c : Nat) (call : Call) : Admission :=
  { a with calls := a.calls.set c call }

/-- `_discard_inactive_waiters_locked` -/
def discardInactiveWaiters (a : Admission) : Admission :=
  { a with waiters := a.waiters.dropWhile fun c => a.calls[c]?.map (·.waiter) ≠ some .waiting }

/-- The loop of `_grant_waiters_locked`. -/
def grantLoop (capacity : Nat) : List Nat → Admission → Admission
  | [], a => { a with waiters := [] }
  | c :: rest, a =>
    if a.outstanding < capacity then
      match a.calls[c]? with
      | some call =>
        if call.waiter = .waiting then
          grantLoop capacity rest
            { a with outstanding := a.outstanding + 1,
                     calls := a.calls.set c { call with waiter := .granted },
                     grants := a.grants ++ [c] }
        else
          grantLoop capacity rest a
      | none => grantLoop capacity rest a
    else
      { a with waiters := c :: rest }

/-- `_grant_waiters_locked` -/
def grantWaiters (capacity : Nat) (isOpen : Bool) (a : Admission) : Admission :=
  if isOpen then grantLoop capacity a.waiters a else a

/-- `_acquire_capacity` up to its `await`, after the state checks: take a slot, or raise because too many
wait, or queue as a waiter. -/
def acquire (capacity maxWaiters : Nat) (a : Admission) : Admission :=
  let a := a.discardInactiveWaiters
  if a.outstanding < capacity ∧ a.waiters = [] then
    { a with outstanding := a.outstanding + 1,
             calls := a.calls ++ [⟨.admitted, .consumed, .result⟩] }
  else if maxWaiters ≤ a.waiters.countP fun c => a.calls[c]?.map (·.waiter) = some .waiting then
    a
  else
    grantWaiters capacity true
      { a with waiters := a.waiters ++ [a.calls.length],
               calls := a.calls ++ [⟨.awaiting false, .waiting, .pending⟩] }

/-- The loop that rejects every waiter when the actor stops admitting. -/
def rejectLoop : List Nat → Admission → Admission
  | [], a => { a with waiters := [] }
  | c :: rest, a =>
    match a.calls[c]? with
    | some call =>
      if call.waiter = .waiting then
        rejectLoop rest
          { a with calls := a.calls.set c { call with waiter := .rejected },
                   rejections := a.rejections ++ [c] }
      else
        rejectLoop rest a
    | none => rejectLoop rest a

def rejectWaiters (a : Admission) : Admission :=
  rejectLoop a.waiters a

/-- What `_cancel_admission` does to the waiter. -/
def revoke (a : Admission) (c : Nat) : Admission :=
  match a.calls[c]? with
  | some call =>
    match call.waiter with
    | .waiting => a.setCall c { call with waiter := .cancelled }
    | .granted =>
      { a with outstanding := a.outstanding - 1,
               calls := a.calls.set c { call with waiter := .cancelled } }
    | _ => a
  | none => a

/-- `waiter.future.cancel()`, unless the future is done. -/
def cancelFuture (a : Admission) (c : Nat) : Admission :=
  match a.calls[c]? with
  | some call =>
    if call.future = .pending then a.setCall c { call with future := .cancelled } else a
  | none => a

/-! ## Callbacks -/

/-- `call_soon_threadsafe` of a grant: the loop takes the callback, or is closed. -/
def scheduleGrant (a : Admission) (c : Nat) : Option Admission :=
  if c ∈ a.grants then
    some { a with grants := a.grants.erase c, callbacks := a.callbacks ++ [.grant c] }
  else none

/-- The loop of a granted waiter is closed. -/
def failGrant (a : Admission) (c : Nat) : Option Admission :=
  if c ∈ a.grants then some (revoke { a with grants := a.grants.erase c } c) else none

/-- `_schedule_admission_rejection`; a closed loop has no coroutine left to wake. -/
def scheduleRejection (a : Admission) (c : Nat) (loopOpen : Bool) : Option Admission :=
  if c ∈ a.rejections then
    some { a with rejections := a.rejections.erase c,
                  callbacks := if loopOpen then a.callbacks ++ [.rejection c] else a.callbacks }
  else none

/-- `_deliver_admission_grant`, up to the grants it makes: a waiter whose future is done gives the slot
back, as the second component says. -/
def deliverGrant (a : Admission) (c : Nat) : Option (Admission × Bool) :=
  if .grant c ∈ a.callbacks then
    let a := { a with callbacks := a.callbacks.erase (.grant c) }
    match a.calls[c]? with
    | some call =>
      if call.waiter ≠ .granted then some (a, false)
      else if call.future ≠ .pending then some (a.revoke c, true)
      else some (a.setCall c { call with future := .result }, false)
    | none => some (a, false)
  else none

/-- `_deliver_admission_rejection` -/
def deliverRejection (a : Admission) (c : Nat) : Option Admission :=
  if .rejection c ∈ a.callbacks then
    let a := { a with callbacks := a.callbacks.erase (.rejection c) }
    match a.calls[c]? with
    | some call =>
      if call.future = .pending then some (a.setCall c { call with future := .exception }) else some a
    | none => some a
  else none

/-! ## The caller -/

/-- The caller resumes after `await waiter.future` and takes the state lock: it consumes its grant, or
raises. -/
def resume (a : Admission) (c : Nat) : Option Admission :=
  match a.calls[c]? with
  | some ⟨.awaiting mustCancel, waiter, future⟩ =>
    if future = .pending then none
    else if mustCancel = false ∧ future = .result ∧ waiter = .granted then
      some (a.setCall c ⟨.admitted, .consumed, future⟩)
    else
      some (a.setCall c ⟨.unwinding, waiter, future⟩)
  | _ => none

/-- The call in phase `phase` moves to phase `next`. -/
def move (a : Admission) (c : Nat) (phase next : CallPhase) : Option Admission :=
  match a.calls[c]? with
  | some call => if call.phase = phase then some (a.setCall c { call with phase := next }) else none
  | none => none

/-! ## What the operations keep -/

theorem owed_le (a : Admission) : a.owed ≤ a.outstanding := by
  unfold owed
  omega

/-- Releasing a slot that the workers own. -/
theorem owed_release (a : Admission) :
    owed { a with outstanding := a.outstanding - 1 } = a.owed - 1 := by
  show a.outstanding - 1 - a.granted - a.admitted = a.outstanding - a.granted - a.admitted - 1
  omega

section Counts

variable {a : Admission} {c : Nat} {call : Call}

theorem granted_setCall (h : a.calls[c]? = some call) (call' : Call) :
    (a.setCall c call').granted + (if call.waiter = .granted then 1 else 0) =
      a.granted + (if call'.waiter = .granted then 1 else 0) := by
  have hcount := List.countP_set_add h call' (fun x => decide (x.waiter = .granted))
  simpa [granted, setCall] using hcount

theorem admitted_setCall (h : a.calls[c]? = some call) (call' : Call) :
    (a.setCall c call').admitted + (if call.phase.holds then 1 else 0) =
      a.admitted + (if call'.phase.holds then 1 else 0) :=
  List.countP_set_add h call' (fun x => x.phase.holds)

theorem gone_setCall (h : a.calls[c]? = some call) {call' : Call} (hgone : call.Gone → call'.Gone)
    {d : Nat} (hd : a.Gone d) : (a.setCall c call').Gone d := by
  obtain ⟨other, hget, hother⟩ := hd
  obtain ⟨hlt, -⟩ := List.getElem?_eq_some_iff.mp h
  by_cases hcd : c = d
  · subst hcd
    obtain rfl := Option.some.inj (h.symm.trans hget)
    exact ⟨call', by simp [setCall, hlt], hgone hother⟩
  · exact ⟨other, by simpa [setCall, List.getElem?_set_ne hcd] using hget, hother⟩

end Counts

/-- An operation moves slots within admission only: what the workers own stays as it was, the capacity
is respected, and while the actor admits nobody no slot is taken. -/
structure Keeps (capacity : Nat) (isOpen : Bool) (a b : Admission) : Prop where
  owed : b.owed = a.owed
  bounded : a.outstanding ≤ capacity → b.outstanding ≤ capacity
  shut : isOpen = false → b.outstanding ≤ a.outstanding
  gone : ∀ c, a.Gone c → b.Gone c

namespace Keeps

variable {capacity : Nat} {isOpen : Bool} {a b c : Admission}

theorem refl : Keeps capacity isOpen a a :=
  ⟨rfl, id, fun _ => Int.le_refl _, fun _ => id⟩

theorem trans (hab : Keeps capacity isOpen a b) (hbc : Keeps capacity isOpen b c) :
    Keeps capacity isOpen a c where
  owed := hbc.owed.trans hab.owed
  bounded h := hbc.bounded (hab.bounded h)
  shut h := Int.le_trans (hbc.shut h) (hab.shut h)
  gone d h := hbc.gone d (hab.gone d h)

/-- The lists of waiters and callbacks hold no slot. -/
theorem of_eq (hout : b.outstanding = a.outstanding) (hcalls : b.calls = a.calls) :
    Keeps capacity isOpen a b where
  owed := by
    unfold Admission.owed granted admitted
    rw [hout, hcalls]
  bounded h := hout.symm ▸ h
  shut _ := Int.le_of_eq hout
  gone d h := by
    unfold Gone
    rw [hcalls]
    exact h

/-- Changing one call, with the slot that it holds. -/
theorem of_setCall {n : Nat} {call call' : Call} (hget : a.calls[n]? = some call)
    (hcalls : b.calls = a.calls.set n call')
    (hslots : b.outstanding +
        (if call.waiter = .granted then 1 else 0) + (if call.phase.holds then 1 else 0) =
      a.outstanding +
        (if call'.waiter = .granted then 1 else 0) + (if call'.phase.holds then 1 else 0))
    (hbound : a.outstanding ≤ capacity → b.outstanding ≤ capacity)
    (hshut : isOpen = false → b.outstanding ≤ a.outstanding) (hgone : call.Gone → call'.Gone) :
    Keeps capacity isOpen a b where
  owed := by
    have hg := granted_setCall hget call'
    have ha := admitted_setCall hget call'
    have hg' : b.granted = (a.setCall n call').granted := by
      unfold granted setCall
      rw [hcalls]
    have ha' : b.admitted = (a.setCall n call').admitted := by
      unfold admitted setCall
      rw [hcalls]
    unfold Admission.owed
    rw [hg', ha']
    split_ifs at * <;> omega
  bounded := hbound
  shut := hshut
  gone d h := by
    obtain ⟨call'', hget'', h''⟩ := gone_setCall hget hgone h
    refine ⟨call'', ?_, h''⟩
    rw [hcalls]
    exact hget''

end Keeps

section Operations

variable {capacity : Nat} {isOpen : Bool} {a b : Admission} {c : Nat}

theorem grantLoop_keeps (waiters : List Nat) :
    Keeps capacity true a (grantLoop capacity waiters a) := by
  induction waiters generalizing a with
  | nil => exact .of_eq rfl rfl
  | cons c rest ih =>
    unfold grantLoop
    split
    · rename_i hfree
      split
      · rename_i call hget
        split
        · rename_i hwaiting
          refine Keeps.trans ?_ ih
          refine .of_setCall hget rfl ?_ ?_ nofun id
          · simp [hwaiting]
          · intro _
            show a.outstanding + 1 ≤ (capacity : Int)
            omega
        · exact ih
      · exact ih
    · exact .of_eq rfl rfl

theorem grantWaiters_keeps : Keeps capacity isOpen a (a.grantWaiters capacity isOpen) := by
  unfold grantWaiters
  cases isOpen with
  | false => exact .refl
  | true => exact grantLoop_keeps a.waiters

theorem rejectLoop_keeps (waiters : List Nat) : Keeps capacity isOpen a (rejectLoop waiters a) := by
  induction waiters generalizing a with
  | nil => exact .of_eq rfl rfl
  | cons c rest ih =>
    unfold rejectLoop
    split
    · rename_i call hget
      split
      · rename_i hwaiting
        refine Keeps.trans ?_ ih
        refine .of_setCall hget rfl ?_ id (fun _ => Int.le_refl _) id
        simp [hwaiting]
      · exact ih
    · exact ih

theorem rejectWaiters_keeps : Keeps capacity isOpen a a.rejectWaiters :=
  rejectLoop_keeps a.waiters

theorem revoke_keeps : Keeps capacity isOpen a (a.revoke c) := by
  unfold revoke
  split
  · rename_i call hget
    split
    · rename_i hwaiting
      refine .of_setCall hget rfl ?_ id (fun _ => Int.le_refl _) id
      simp [setCall, hwaiting]
    · rename_i hgranted
      refine .of_setCall hget rfl ?_ ?_ ?_ id
      · simp [hgranted]
      · intro h
        show a.outstanding - 1 ≤ (capacity : Int)
        omega
      · intro _
        show a.outstanding - 1 ≤ a.outstanding
        omega
    · exact .refl
  · exact .refl

theorem cancelFuture_keeps : Keeps capacity isOpen a (a.cancelFuture c) := by
  unfold cancelFuture
  split
  · rename_i call hget
    split
    · exact .of_setCall hget rfl rfl id (fun _ => Int.le_refl _) id
    · exact .refl
  · exact .refl

theorem scheduleGrant_keeps (h : a.scheduleGrant c = some b) : Keeps capacity isOpen a b := by
  unfold scheduleGrant at h
  split at h
  · obtain rfl := Option.some.inj h
    exact .of_eq rfl rfl
  · cases h

theorem failGrant_keeps (h : a.failGrant c = some b) : Keeps capacity isOpen a b := by
  unfold failGrant at h
  split at h
  · obtain rfl := Option.some.inj h
    exact Keeps.trans (b := { a with grants := a.grants.erase c }) (.of_eq rfl rfl) revoke_keeps
  · cases h

theorem scheduleRejection_keeps {loopOpen : Bool} (h : a.scheduleRejection c loopOpen = some b) :
    Keeps capacity isOpen a b := by
  unfold scheduleRejection at h
  split at h
  · obtain rfl := Option.some.inj h
    exact .of_eq rfl rfl
  · cases h

theorem deliverGrant_keeps {back : Bool} (h : a.deliverGrant c = some (b, back)) : Keeps capacity isOpen a b := by
  unfold deliverGrant at h
  split at h
  · refine Keeps.trans (b := { a with callbacks := a.callbacks.erase (.grant c) }) (.of_eq rfl rfl) ?_
    dsimp only at h
    split at h
    · rename_i call hget
      split at h
      · obtain ⟨rfl, -⟩ := Prod.mk.inj (Option.some.inj h)
        exact .refl
      · split at h
        · obtain ⟨rfl, -⟩ := Prod.mk.inj (Option.some.inj h)
          exact revoke_keeps
        · obtain ⟨rfl, -⟩ := Prod.mk.inj (Option.some.inj h)
          exact .of_setCall hget rfl rfl id (fun _ => Int.le_refl _) id
    · obtain ⟨rfl, -⟩ := Prod.mk.inj (Option.some.inj h)
      exact .refl
  · cases h

theorem deliverRejection_keeps (h : a.deliverRejection c = some b) : Keeps capacity isOpen a b := by
  unfold deliverRejection at h
  split at h
  · refine Keeps.trans (b := { a with callbacks := a.callbacks.erase (.rejection c) })
      (.of_eq rfl rfl) ?_
    dsimp only at h
    split at h
    · rename_i call hget
      split at h
      · obtain rfl := Option.some.inj h
        exact .of_setCall hget rfl rfl id (fun _ => Int.le_refl _) id
      · obtain rfl := Option.some.inj h
        exact .refl
    · obtain rfl := Option.some.inj h
      exact .refl
  · cases h

theorem resume_keeps (h : a.resume c = some b) : Keeps capacity isOpen a b := by
  unfold resume at h
  split at h
  · rename_i mustCancel waiter future hget
    split at h
    · cases h
    · split at h
      · rename_i hgranted
        obtain rfl := Option.some.inj h
        refine .of_setCall hget rfl ?_ id (fun _ => Int.le_refl _) ?_
        · simp [setCall, hgranted.2.2, CallPhase.holds]
        · simp [Call.Gone]
      · obtain rfl := Option.some.inj h
        refine .of_setCall hget rfl ?_ id (fun _ => Int.le_refl _) ?_
        · simp [setCall, CallPhase.holds]
        · simp [Call.Gone]
  · cases h

/-- Moving a call that keeps what it owns. -/
theorem move_keeps {phase next : CallPhase} (h : a.move c phase next = some b)
    (hholds : phase.holds = next.holds)
    (hgone : phase = .dispatched ∨ phase = .left → next = .dispatched ∨ next = .left) :
    Keeps capacity isOpen a b := by
  unfold move at h
  split at h
  · rename_i call hget
    split at h
    · rename_i heq
      obtain rfl := Option.some.inj h
      refine .of_setCall hget rfl ?_ id (fun _ => Int.le_refl _) ?_
      · simp [setCall, heq, hholds]
      · simpa [Call.Gone, heq] using hgone
    · cases h
  · cases h

theorem move_pos {phase next : CallPhase} (h : a.move c phase next = some b)
    (hphase : phase.holds = true) : 0 < a.admitted := by
  unfold move at h
  split at h
  · rename_i call hget
    split at h
    · rename_i heq
      refine List.countP_pos_iff.mpr ⟨call, List.mem_of_getElem? hget, ?_⟩
      rw [heq]
      exact hphase
    · cases h
  · cases h

/-- Moving a call that owns a slot hands the slot over. -/
theorem move_holder {phase next : CallPhase} (h : a.move c phase next = some b)
    (hphase : phase.holds = true) (hnext : next.holds = false) :
    b.owed = a.owed + 1 ∧ b.outstanding = a.outstanding ∧ (¬ a.Gone c) ∧
      (next = .dispatched ∨ next = .left → b.Gone c) ∧ ∀ d, a.Gone d → b.Gone d := by
  unfold move at h
  split at h
  · rename_i call hget
    split at h
    · rename_i heq
      obtain rfl := Option.some.inj h
      have hg := granted_setCall hget { call with phase := next }
      have ha := admitted_setCall hget { call with phase := next }
      have hlt : c < a.calls.length := (List.getElem?_eq_some_iff.mp hget).1
      have hstill : ¬ call.Gone := by
        rintro (hgone | hgone) <;> rw [← heq, hgone] at hphase <;> cases hphase
      simp only [heq, hphase, if_true, hnext, Bool.false_eq_true, if_false, Nat.add_zero] at hg ha
      refine ⟨?_, rfl, ?_, ?_, ?_⟩
      · have hout : (a.setCall c { call with phase := next }).outstanding = a.outstanding := rfl
        unfold owed
        rw [hout]
        omega
      · rintro ⟨call', hget', hgone⟩
        obtain rfl := Option.some.inj (hget.symm.trans hget')
        exact hstill hgone
      · intro hn
        exact ⟨{ call with phase := next }, by simp [setCall, hlt], hn⟩
      · intro d hd
        exact gone_setCall hget (fun h => absurd h hstill) hd
    · cases h
  · cases h

theorem discardInactiveWaiters_keeps : Keeps capacity isOpen a a.discardInactiveWaiters :=
  .of_eq rfl rfl

theorem gone_append {call : Call} (h : a.Gone c) :
    ∃ call', (a.calls ++ [call])[c]? = some call' ∧ call'.Gone := by
  obtain ⟨call', hget, hgone⟩ := h
  obtain ⟨hlt, -⟩ := List.getElem?_eq_some_iff.mp hget
  exact ⟨call', by rw [List.getElem?_append_left hlt]; exact hget, hgone⟩

theorem acquire_keeps {maxWaiters : Nat} : Keeps capacity true a (a.acquire capacity maxWaiters) := by
  unfold acquire
  refine discardInactiveWaiters_keeps.trans ?_
  generalize a.discardInactiveWaiters = d
  dsimp only
  split
  · rename_i hfree
    refine ⟨?_, ?_, nofun, fun n hn => gone_append hn⟩
    · simp [owed, granted, admitted, CallPhase.holds]
      omega
    · intro _
      show d.outstanding + 1 ≤ (capacity : Int)
      omega
  · split
    · exact .refl
    · refine Keeps.trans ?_ grantWaiters_keeps
      refine ⟨?_, id, nofun, fun n hn => gone_append hn⟩
      simp [owed, granted, admitted, CallPhase.holds]

/-! The operations that neither take nor release a slot. -/

theorem scheduleGrant_outstanding (h : a.scheduleGrant c = some b) : b.outstanding = a.outstanding := by
  unfold scheduleGrant at h
  split at h <;> cases h
  rfl

theorem scheduleRejection_outstanding {loopOpen : Bool} (h : a.scheduleRejection c loopOpen = some b) :
    b.outstanding = a.outstanding := by
  unfold scheduleRejection at h
  split at h <;> cases h
  rfl

theorem deliverRejection_outstanding (h : a.deliverRejection c = some b) :
    b.outstanding = a.outstanding := by
  unfold deliverRejection at h
  split at h
  · dsimp only at h
    split at h
    · split at h <;> cases h <;> rfl
    · cases h
      rfl
  · cases h

theorem deliverGrant_outstanding (h : a.deliverGrant c = some (b, false)) :
    b.outstanding = a.outstanding := by
  unfold deliverGrant at h
  split at h
  · dsimp only at h
    split at h
    · split at h
      · cases h
        rfl
      · split at h <;> cases h
        rfl
    · cases h
      rfl
  · cases h

theorem resume_outstanding (h : a.resume c = some b) : b.outstanding = a.outstanding := by
  unfold resume at h
  split at h
  · split at h
    · cases h
    · split at h <;> cases h <;> rfl
  · cases h

theorem move_outstanding {phase next : CallPhase} (h : a.move c phase next = some b) :
    b.outstanding = a.outstanding := by
  unfold move at h
  split at h
  · split at h <;> cases h
    rfl
  · cases h

end Operations

end Admission
end RapidInbox
