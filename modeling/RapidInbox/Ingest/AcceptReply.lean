import RapidInbox.Store.Accepted

/-!
# The reply to an accepted message

One call of `accept_message` (`runtime.py:2382-2707`) among the writes of others and the scans of
recovery (`recovery.py:576-664`).  The call publishes the raw file and the manifest before its
transaction rechecks the recipients, and takes them back when the recheck fails; a scan that finds
the manifest leaves it alone while the call is active.  A step is one read or write of the state the
parties share: the database, the two files and the set of active ids.
-/

namespace RapidInbox

open Transition

/-- How a call ends: the two replies, or an exception.  The second records whether both files are
    gone. -/
inductive AcceptReply where
  | queued
  | policyChanged (discarded : Bool)
  | raised
  deriving DecidableEq, Repr

/-- Where the call is. -/
inductive AcceptPhase where
  | called
  /-- `_load_recovery_domain_policies`, with the recipients to go and the policies read -/
  | loading (rest : List AcceptRecipient) (policies : List (Nat × DomainPolicySnapshot))
  | loaded (manifest : RecoveryManifest)
  | rawWritten (manifest : RecoveryManifest)
  | published
  | committed
  | rejected
  | manifestDiscarded (unlinked : Bool)
  /-- in the `finally` of `accept_message` -/
  | returning (reply : AcceptReply)
  | replied (reply : AcceptReply)
  deriving DecidableEq, Repr

/-- What `_scan_selected_manifest_files` knows of the manifest, check by check. -/
inductive ScanPhase where
  | listed
  | unretired
  | unseen
  | read (manifest : RecoveryManifest)
  | rawUnretired (manifest : RecoveryManifest)
  | incomplete (manifest : RecoveryManifest)
  | inactive (manifest : RecoveryManifest)
  | selected (manifest : RecoveryManifest)
  | finished
  deriving DecidableEq, Repr

/-- The shared state, the call and the scans that have met its manifest. -/
structure AcceptSystem where
  db : Db
  raw : Bool
  manifest : Option RecoveryManifest
  active : Bool
  phase : AcceptPhase
  scans : List ScanPhase

inductive ScanEvent where
  | retiredManifest
  | completeName
  | readManifest
  | retiredRaw
  | completeId
  /-- `_active_accept_message_ids` and `_manifest_mtime_is_stable` -/
  | activeIds (stable : Bool)
  | validateRaw
  | replay (deliveryIds : Nat → Text)

inductive AcceptEvent where
  | enter
  | loadPolicy
  | writeRaw
  | writeManifest
  | transaction
  | enqueueForParse
  | unlinkManifest (ok : Bool)
  | unlinkRaw (ok : Bool)
  | raise
  | leave
  /-- another writer -/
  | write (w : MailWrite)
  | scan
  | scanner (i : Nat) (e : ScanEvent)

/-! ## The manifest of a request -/

/-- `_load_recovery_domain_policy`. -/
def Db.loadRecoveryDomainPolicy (db : Db) (domainId : Nat) : Option DomainPolicySnapshot :=
  (db.domain? domainId).map fun d =>
    { d.policy with
      rootDomainUnicode := if d.policy.rootDomainUnicode.isEmpty then d.rootDomainAscii
        else d.policy.rootDomainUnicode }

/-- `_recovery_recipient_payload`. -/
def AcceptRecipient.recoveryPayload (r : AcceptRecipient)
    (policies : List (Nat × DomainPolicySnapshot)) : RecoveryRecipient :=
  { rcptTo := r.rcptTo
    domainId := r.acceptedMatch.domainId
    domainAscii := r.acceptedMatch.domainAscii
    rootDomainAscii := r.acceptedMatch.rootDomainAscii
    localPartCanonical := r.acceptedMatch.localPartCanonical
    addressCanonical := r.acceptedMatch.addressCanonical
    domainPolicy := policies.lookup r.acceptedMatch.domainId }

/-- `manifest_payload`. -/
def AcceptRequest.manifest (request : AcceptRequest)
    (policies : List (Nat × DomainPolicySnapshot)) : RecoveryManifest :=
  { messageId := request.messageId
    smtpSessionId := request.smtpSessionId
    envelopeFrom := request.envelopeFrom
    receivedAt := request.receivedAt
    rawPath := request.rawPath
    rawSha256 := request.rawSha256
    rawSizeBytes := request.rawSizeBytes
    recipients := .receipts (request.recipients.map fun r => r.recoveryPayload policies)
    parsed := .pending }

/-- `_complete_message_ids_subset` of one id. -/
def Db.isComplete (db : Db) (messageId : Text) : Bool :=
  (db.messages.any fun m => m.id = messageId) && db.deliveries.any fun d => d.messageId = messageId

namespace AcceptSystem

/-- The call has been made; its id is new, so nothing has been written under it. -/
def start (db : Db) : AcceptSystem :=
  { db := db, raw := false, manifest := none, active := false, phase := .called, scans := [] }

/-! ## The call -/

/-- One iteration of `_load_recovery_domain_policies`; a domain that is gone ends the call. -/
def loadPolicy (request : AcceptRequest) (s : AcceptSystem)
    (policies : List (Nat × DomainPolicySnapshot)) : List AcceptRecipient → AcceptSystem
  | [] => { s with phase := .loaded (request.manifest policies) }
  | r :: rest =>
    if (policies.lookup r.acceptedMatch.domainId).isSome then
      { s with phase := .loading rest policies }
    else
      match s.db.loadRecoveryDomainPolicy r.acceptedMatch.domainId with
      | none => { s with phase := .returning (.policyChanged true) }
      | some policy =>
        { s with phase := .loading rest ((r.acceptedMatch.domainId, policy) :: policies) }

/-- `writer.execute(operation)`. -/
def transaction (E : StoreEnv) (request : AcceptRequest) (s : AcceptSystem) : AcceptSystem :=
  match s.db.acceptMessage (pyAddressOps E.py) request with
  | .ok db => { s with db := db, phase := .committed }
  | .error (.policyChanged _) => { s with phase := .rejected }
  | .error _ => { s with phase := .returning .raised }

/-- The steps of the call.  An exception or a cancellation may end it at every `await`. -/
def callStep (E : StoreEnv) (request : AcceptRequest) (s : AcceptSystem) :
    AcceptPhase → AcceptEvent → Option AcceptSystem
  | .called, .enter =>
    some { s with
      active := true
      phase := if request.recipients.isEmpty then .returning .raised
        else .loading request.recipients [] }
  | .loading rest policies, .loadPolicy => some (s.loadPolicy request policies rest)
  | .loaded manifest, .writeRaw => some { s with raw := true, phase := .rawWritten manifest }
  | .rawWritten manifest, .writeManifest =>
    some { s with manifest := some manifest, phase := .published }
  | .published, .transaction => some (s.transaction E request)
  | .committed, .enqueueForParse => some { s with phase := .returning .queued }
  -- the manifest goes first, and the raw file goes also when that has failed
  | .rejected, .unlinkManifest ok =>
    some { s with
      manifest := if ok then none else s.manifest
      phase := .manifestDiscarded ok }
  | .manifestDiscarded unlinked, .unlinkRaw ok =>
    some { s with
      raw := if ok then false else s.raw
      phase := .returning (.policyChanged (unlinked && ok)) }
  | .returning reply, .leave => some { s with active := false, phase := .replied reply }
  | .called, .raise => none
  | .returning _, .raise => none
  | .replied _, .raise => none
  | _, .raise => some { s with phase := .returning .raised }
  | _, _ => none

/-! ## The scans -/

/-- A check that ends the scan of the manifest, or lets it go on. -/
def check (s : AcceptSystem) (drop : Bool) (next : ScanPhase) : ScanPhase × AcceptSystem :=
  (if drop then .finished else next, s)

/-- `recover_from_manifest`; a policy conflict moves the manifest to the quarantine. -/
def replay (E : StoreEnv) (s : AcceptSystem) (manifest : RecoveryManifest)
    (deliveryIds : Nat → Text) : AcceptSystem :=
  match s.db.applyRecoveryManifest (pyAddressOps E.py) manifest deliveryIds with
  | .ok db => { s with db := db }
  | .error (.policyConflict _) => { s with manifest := none }
  | .error _ => s

/-- The steps of a scan. -/
def scanStep (E : StoreEnv) (request : AcceptRequest) (s : AcceptSystem) :
    ScanPhase → ScanEvent → Option (ScanPhase × AcceptSystem)
  | .listed, .retiredManifest =>
    some (s.check (decide (manifestPath request.messageId request.receivedAt ∈ s.db.fileGcTasks))
      .unretired)
  | .unretired, .completeName => some (s.check (s.db.isComplete request.messageId) .unseen)
  -- a manifest that is gone cannot be moved to the quarantine either
  | .unseen, .readManifest => some ((s.manifest.map ScanPhase.read).getD .finished, s)
  | .read f, .retiredRaw => some (s.check (decide (f.rawPath ∈ s.db.fileGcTasks)) (.rawUnretired f))
  | .rawUnretired f, .completeId => some (s.check (s.db.isComplete f.messageId) (.incomplete f))
  | .incomplete f, .activeIds stable => some (s.check (s.active || !stable) (.inactive f))
  | .inactive f, .validateRaw =>
    some (if s.raw then (.selected f, s) else (.finished, { s with manifest := none }))
  | .selected f, .replay deliveryIds => some (.finished, s.replay E f deliveryIds)
  | _, _ => none

/-- One step of any party. -/
def step (E : StoreEnv) (request : AcceptRequest) (s : AcceptSystem) :
    AcceptEvent → Option AcceptSystem
  | .write w => some { s with db := s.db.write E w }
  | .scan => some { s with scans := s.scans ++ [.listed] }
  | .scanner i e =>
    (s.scans[i]?).bind fun phase =>
      (s.scanStep E request phase e).map fun next =>
        { next.2 with scans := next.2.scans.set i next.1 }
  | event => s.callStep E request s.phase event

end AcceptSystem

/-! ## The invariant -/

namespace AcceptPhase

/-- The id is in `_active_mail_accept_message_ids`. -/
@[simp] def running : AcceptPhase → Bool
  | called | replied _ => false
  | _ => true

/-- The raw file has not been written. -/
@[simp] def unwritten : AcceptPhase → Bool
  | called | loading _ _ | loaded _ => true
  | _ => false

/-- The manifest has not been written. -/
@[simp] def unpublished : AcceptPhase → Bool
  | rawWritten _ => true
  | phase => phase.unwritten

/-- The call ends with the reply that the policy has changed, and both files are gone. -/
@[simp] def discarded : AcceptPhase → Bool
  | returning (.policyChanged true) | replied (.policyChanged true) => true
  | _ => false

/-- The call has not committed, and will not have when it is over, unless a file is left. -/
@[simp] def unstored : AcceptPhase → Bool
  | committed | returning .queued | returning .raised => false
  | replied (.policyChanged true) => true
  | replied _ => false
  | _ => true

end AcceptPhase

namespace ScanPhase

/-- The scan has read the manifest. -/
@[simp] def held : ScanPhase → Bool
  | listed | unretired | unseen | finished => false
  | _ => true

/-- The scan has seen that the id is not active. -/
@[simp] def pastActive : ScanPhase → Bool
  | inactive _ | selected _ => true
  | _ => false

@[simp] def isSelected : ScanPhase → Bool
  | selected _ => true
  | _ => false

end ScanPhase

namespace AcceptSystem

/-- A manifest is seen only once it is published, a scan goes past the check of the active ids only
    once the call is over, and a scan selects it only if the raw file is there. -/
structure Sound (request : AcceptRequest) (s : AcceptSystem) : Prop where
  consistent : s.db.Consistent
  active : s.active = s.phase.running
  unwritten : s.phase.unwritten = true → s.raw = false
  unpublished : s.phase.unpublished = true → s.manifest = none ∧ ∀ p ∈ s.scans, p.held = false
  manifestGone : s.phase = .manifestDiscarded true → s.manifest = none
  discarded : s.phase.discarded = true → s.raw = false ∧ s.manifest = none
  pastActive : s.phase.running = true → ∀ p ∈ s.scans, p.pastActive = false
  selected : s.phase.discarded = true → ∀ p ∈ s.scans, p.isSelected = false
  unstored : s.phase.unstored = true → s.db.LacksMessage request.messageId

variable {E : StoreEnv} {request : AcceptRequest} {s s' : AcceptSystem}

theorem isSelected_of_pastActive {p : ScanPhase} (h : p.pastActive = false) :
    p.isSelected = false := by
  cases p with
  | selected f => cases h
  | _ => rfl

/-- A step of the call that changes neither the files nor the database. -/
theorem Sound.advance (hs : Sound request s) {phase : AcceptPhase} (hrun : s.phase.running = true)
    (hrun' : phase.running = true) (hunwritten : phase.unwritten = true → s.phase.unwritten = true)
    (hunpublished : phase.unpublished = true → s.phase.unpublished = true)
    (hmanifest : phase ≠ .manifestDiscarded true)
    (hdiscarded : phase.discarded = true → s.phase.unwritten = true)
    (hunstored : phase.unstored = true → s.phase.unstored = true) :
    Sound request { s with phase := phase } where
  consistent := hs.consistent
  active := (hs.active.trans hrun).trans hrun'.symm
  unwritten h := hs.unwritten (hunwritten h)
  unpublished h := hs.unpublished (hunpublished h)
  manifestGone h := absurd h hmanifest
  discarded h := by
    have hnone : s.phase.unpublished = true := by
      have := hdiscarded h
      cases hp : s.phase <;> simp_all
    exact ⟨hs.unwritten (hdiscarded h), (hs.unpublished hnone).1⟩
  pastActive _ := hs.pastActive hrun
  selected _ p hp := isSelected_of_pastActive (hs.pastActive hrun p hp)
  unstored h := hs.unstored (hunstored h)

theorem Sound.raise (hs : Sound request s) (hrun : s.phase.running = true) :
    Sound request { s with phase := .returning .raised } :=
  hs.advance hrun rfl nofun nofun nofun nofun nofun

theorem Sound.loadPolicy {rest : List AcceptRecipient}
    {policies : List (Nat × DomainPolicySnapshot)} (hs : Sound request s)
    (hphase : s.phase = .loading rest policies) :
    Sound request (s.loadPolicy request policies rest) := by
  have hmove {phase : AcceptPhase} (hrun : phase.running = true)
      (hmanifest : phase ≠ .manifestDiscarded true) : Sound request { s with phase := phase } := by
    refine hs.advance (by rw [hphase]; rfl) hrun ?_ ?_ hmanifest ?_ ?_ <;>
    · intro
      rw [hphase]
      rfl
  cases rest with
  | nil => exact hmove rfl nofun
  | cons r rest =>
    rw [AcceptSystem.loadPolicy]
    split
    · exact hmove rfl nofun
    · split
      · exact hmove rfl nofun
      · exact hmove rfl nofun

/-- The transaction stores the message, or the call goes on without it. -/
theorem Sound.transaction (hs : Sound request s) (hphase : s.phase = .published) :
    Sound request (s.transaction E request) := by
  have hrun : s.phase.running = true := by
    rw [hphase]
    rfl
  unfold AcceptSystem.transaction
  split
  · rename_i db hok
    have hop : (StoreOp.accept request).transaction E s.db = .ok db := hok
    exact {
      consistent := Edits.consistent hs.consistent (StoreOp.transaction_edits hs.consistent hop)
      active := hs.active.trans hrun
      unwritten := nofun
      unpublished := nofun
      manifestGone := nofun
      discarded := nofun
      pastActive := fun _ => hs.pastActive hrun
      selected := nofun
      unstored := nofun }
  · refine hs.advance hrun rfl nofun nofun nofun nofun ?_
    intro
    rw [hphase]
    rfl
  · exact hs.raise hrun

theorem Sound.enter (hs : Sound request s) (hphase : s.phase = .called) {phase : AcceptPhase}
    (hcase : phase = .returning .raised ∨ phase = .loading request.recipients []) :
    Sound request { s with active := true, phase := phase } := by
  obtain ⟨hmanifest, hheld⟩ := hs.unpublished (by rw [hphase]; rfl)
  have hraw := hs.unwritten (by rw [hphase]; rfl)
  have hlacks := hs.unstored (by rw [hphase]; rfl)
  have hpast (p : ScanPhase) (hp : p ∈ s.scans) : p.pastActive = false := by
    have := hheld p hp
    cases p <;> simp_all
  rcases hcase with rfl | rfl
  · exact ⟨hs.consistent, rfl, nofun, nofun, nofun, nofun, fun _ => hpast, nofun, nofun⟩
  · exact ⟨hs.consistent, rfl, fun _ => hraw, fun _ => ⟨hmanifest, hheld⟩, nofun, nofun,
      fun _ => hpast, nofun, fun _ => hlacks⟩

/-- The end of the call: from here on a scan may go past the check of the active ids. -/
theorem Sound.leave {reply : AcceptReply} (hs : Sound request s)
    (hphase : s.phase = .returning reply) :
    Sound request { s with active := false, phase := .replied reply } where
  consistent := hs.consistent
  active := rfl
  unwritten := nofun
  unpublished := nofun
  manifestGone := nofun
  discarded h := hs.discarded (by
    rw [hphase]
    cases reply with
    | policyChanged ok =>
      cases ok with
      | true => rfl
      | false => cases h
    | _ => cases h)
  pastActive := nofun
  selected _ p hp := isSelected_of_pastActive (hs.pastActive (by rw [hphase]; rfl) p hp)
  unstored h := hs.unstored (by
    rw [hphase]
    cases reply with
    | policyChanged ok => rfl
    | _ => cases h)

theorem Sound.callStep {e : AcceptEvent} (hs : Sound request s)
    (h : s.callStep E request s.phase e = some s') : Sound request s' := by
  generalize hphase : s.phase = phase at h
  cases e with
  | enter =>
    cases phase with
    | called =>
      cases h
      apply hs.enter hphase
      split
      · exact .inl rfl
      · exact .inr rfl
    | _ => cases h
  | loadPolicy =>
    cases phase with
    | loading rest policies =>
      cases h
      exact hs.loadPolicy hphase
    | _ => cases h
  | writeRaw =>
    cases phase with
    | loaded manifest =>
      cases h
      have hrun : s.phase.running = true := by rw [hphase]; rfl
      have hunpublished := hs.unpublished (by rw [hphase]; rfl)
      have hlacks := hs.unstored (by rw [hphase]; rfl)
      exact ⟨hs.consistent, hs.active.trans hrun, nofun, fun _ => hunpublished, nofun, nofun,
        fun _ => hs.pastActive hrun, nofun, fun _ => hlacks⟩
    | _ => cases h
  | writeManifest =>
    cases phase with
    | rawWritten manifest =>
      cases h
      have hrun : s.phase.running = true := by rw [hphase]; rfl
      have hlacks := hs.unstored (by rw [hphase]; rfl)
      exact ⟨hs.consistent, hs.active.trans hrun, nofun, nofun, nofun, nofun,
        fun _ => hs.pastActive hrun, nofun, fun _ => hlacks⟩
    | _ => cases h
  | transaction =>
    cases phase with
    | published =>
      cases h
      exact hs.transaction hphase
    | _ => cases h
  | enqueueForParse =>
    cases phase with
    | committed =>
      cases h
      exact hs.advance (by rw [hphase]; rfl) rfl nofun nofun nofun nofun nofun
    | _ => cases h
  | unlinkManifest ok =>
    cases phase with
    | rejected =>
      cases h
      have hrun : s.phase.running = true := by rw [hphase]; rfl
      have hlacks := hs.unstored (by rw [hphase]; rfl)
      refine ⟨hs.consistent, hs.active.trans hrun, nofun, nofun, ?_, nofun,
        fun _ => hs.pastActive hrun, nofun, fun _ => hlacks⟩
      intro hdone
      cases hdone
      rfl
    | _ => cases h
  | unlinkRaw ok =>
    cases phase with
    | manifestDiscarded unlinked =>
      cases h
      have hrun : s.phase.running = true := by rw [hphase]; rfl
      have hlacks := hs.unstored (by rw [hphase]; rfl)
      refine ⟨hs.consistent, hs.active.trans hrun, nofun, nofun, nofun, ?_,
        fun _ => hs.pastActive hrun, ?_, fun _ => hlacks⟩
      · intro hdone
        cases unlinked <;> cases ok <;> try cases hdone
        exact ⟨rfl, hs.manifestGone hphase⟩
      · intro _ p hp
        exact isSelected_of_pastActive (hs.pastActive hrun p hp)
    | _ => cases h
  | raise =>
    cases phase with
    | called => cases h
    | returning reply => cases h
    | replied reply => cases h
    | _ =>
      cases h
      exact hs.raise (by rw [hphase]; rfl)
  | leave =>
    cases phase with
    | returning reply =>
      cases h
      exact hs.leave hphase
    | _ => cases h
  | _ => cases phase <;> cases h

/-- A scan changes its own phase, and at most the manifest or the database. -/
theorem Sound.setScan (hs : Sound request s) {i : Nat} {p : ScanPhase}
    (hheld : p.held = true → s.phase.unpublished = false)
    (hpast : p.pastActive = true → s.phase.running = false)
    (hselected : p.isSelected = true → s.phase.discarded = false) :
    Sound request { s with scans := s.scans.set i p } := by
  have hmem {q : ScanPhase} (hq : q ∈ s.scans.set i p) : q ∈ s.scans ∨ q = p :=
    List.mem_or_eq_of_mem_set hq
  refine ⟨hs.consistent, hs.active, hs.unwritten, ?_, hs.manifestGone, hs.discarded, ?_, ?_,
    hs.unstored⟩
  · intro hphase
    refine ⟨(hs.unpublished hphase).1, ?_⟩
    intro q hq
    rcases hmem hq with hq | rfl
    · exact (hs.unpublished hphase).2 q hq
    · by_contra hne
      simp_all
  · intro hphase q hq
    rcases hmem hq with hq | rfl
    · exact hs.pastActive hphase q hq
    · by_contra hne
      simp_all
  · intro hphase q hq
    rcases hmem hq with hq | rfl
    · exact hs.selected hphase q hq
    · by_contra hne
      simp_all

theorem Sound.finishScan (hs : Sound request s) {i : Nat} :
    Sound request { s with scans := s.scans.set i .finished } :=
  hs.setScan nofun nofun nofun

theorem Sound.check (hs : Sound request s) {i : Nat} {drop : Bool} {next : ScanPhase}
    (hnext : drop = false → Sound request { s with scans := s.scans.set i next }) :
    Sound request { s with scans := s.scans.set i (s.check drop next).1 } := by
  cases drop with
  | true => exact hs.finishScan
  | false => exact hnext rfl

theorem Sound.dropManifest (hs : Sound request s) : Sound request { s with manifest := none } :=
  { hs with
    unpublished := fun h => ⟨rfl, (hs.unpublished h).2⟩
    manifestGone := fun _ => rfl
    discarded := fun h => ⟨(hs.discarded h).1, rfl⟩ }

theorem Sound.published (hs : Sound request s) {p : ScanPhase} (hp : p ∈ s.scans)
    (hheld : p.held = true) : s.phase.unpublished = false := by
  by_contra hne
  rw [(hs.unpublished (by simpa using hne)).2 p hp] at hheld
  cases hheld

theorem Sound.over (hs : Sound request s) {p : ScanPhase} (hp : p ∈ s.scans)
    (hpast : p.pastActive = true) : s.phase.running = false := by
  by_contra hne
  rw [hs.pastActive (by simpa using hne) p hp] at hpast
  cases hpast

/-- A manifest is replayed only after a call that has not taken it back. -/
theorem Sound.replay {f : RecoveryManifest} {deliveryIds : Nat → Text} (hs : Sound request s)
    (hp : .selected f ∈ s.scans) : Sound request (s.replay E f deliveryIds) := by
  have hstored : s.phase.unstored = false := by
    have hpublished := hs.published hp rfl
    have hover := hs.over hp rfl
    have hkept : s.phase.discarded = false := by
      by_contra hne
      cases hs.selected (by simpa using hne) _ hp
    cases hphase : s.phase with
    | called => simp_all
    | replied reply =>
      cases reply with
      | policyChanged ok =>
        cases ok with
        | true => simp_all
        | false => rfl
      | _ => rfl
    | _ => simp_all
  unfold AcceptSystem.replay
  split
  · rename_i db hok
    have hop : (StoreOp.recover f deliveryIds).transaction E s.db = .ok db := hok
    exact { hs with
      consistent := Edits.consistent hs.consistent (StoreOp.transaction_edits hs.consistent hop)
      unstored := fun h => nomatch hstored.symm.trans h }
  · exact hs.dropManifest
  · exact hs

/-- A manifest can be read only once it is published. -/
theorem Sound.readManifest (hs : Sound request s) {i : Nat} :
    Sound request
      { s with scans := s.scans.set i ((s.manifest.map ScanPhase.read).getD .finished) } := by
  refine hs.setScan ?_ ?_ ?_
  · intro hheld
    by_contra hne
    rw [(hs.unpublished (by simpa using hne)).1] at hheld
    cases hheld
  all_goals
    intro h
    cases hmanifest : s.manifest with
    | none =>
      rw [hmanifest] at h
      cases h
    | some f =>
      rw [hmanifest] at h
      cases h

theorem Sound.scanStep {i : Nat} {p p' : ScanPhase} {e : ScanEvent} (hs : Sound request s)
    (hp : p ∈ s.scans) (h : s.scanStep E request p e = some (p', s')) :
    Sound request { s' with scans := s'.scans.set i p' } := by
  cases p with
  | listed =>
    cases e with
    | retiredManifest =>
      cases h
      exact hs.check fun _ => hs.setScan nofun nofun nofun
    | _ => cases h
  | unretired =>
    cases e with
    | completeName =>
      cases h
      exact hs.check fun _ => hs.setScan nofun nofun nofun
    | _ => cases h
  | unseen =>
    cases e with
    | readManifest =>
      cases h
      exact hs.readManifest
    | _ => cases h
  | read f =>
    cases e with
    | retiredRaw =>
      cases h
      exact hs.check fun _ => hs.setScan (fun _ => hs.published hp rfl) nofun nofun
    | _ => cases h
  | rawUnretired f =>
    cases e with
    | completeId =>
      cases h
      exact hs.check fun _ => hs.setScan (fun _ => hs.published hp rfl) nofun nofun
    | _ => cases h
  | incomplete f =>
    cases e with
    | activeIds stable =>
      cases h
      refine hs.check fun hdrop => hs.setScan (fun _ => hs.published hp rfl) ?_ nofun
      intro _
      rw [← hs.active]
      exact (Bool.or_eq_false_iff.mp hdrop).1
    | _ => cases h
  | inactive f =>
    cases e with
    | validateRaw =>
      replace h := Option.some.inj h
      split at h
      · rename_i hraw
        cases h
        refine hs.setScan (fun _ => hs.published hp rfl) (fun _ => hs.over hp rfl) ?_
        -- a call that took the manifest back took the raw file too
        intro _
        by_contra hne
        rw [(hs.discarded (by simpa using hne)).1] at hraw
        cases hraw
      · cases h
        exact hs.dropManifest.finishScan
    | _ => cases h
  | selected f =>
    cases e with
    | replay deliveryIds =>
      cases h
      exact (hs.replay hp).finishScan
    | _ => cases h
  | finished => cases e <;> cases h

theorem Sound.step {e : AcceptEvent} (hs : Sound request s)
    (hfresh : ∀ w, e = .write w → ¬w.InsertsMail (.message request.messageId))
    (h : s.step E request e = some s') : Sound request s' := by
  cases e with
  | write w =>
    cases h
    exact { hs with
      consistent := Db.write_consistent hs.consistent w
      unstored := fun hphase => (hs.unstored hphase).write hs.consistent (hfresh w rfl) }
  | scan =>
    cases h
    have hmem {p : ScanPhase} (hp : p ∈ s.scans ++ [.listed]) : p ∈ s.scans ∨ p = .listed := by
      simpa using hp
    refine { hs with unpublished := ?_, pastActive := ?_, selected := ?_ }
    · intro hphase
      refine ⟨(hs.unpublished hphase).1, ?_⟩
      intro p hp
      rcases hmem hp with hp | rfl
      · exact (hs.unpublished hphase).2 p hp
      · rfl
    · intro hphase p hp
      rcases hmem hp with hp | rfl
      · exact hs.pastActive hphase p hp
      · rfl
    · intro hphase p hp
      rcases hmem hp with hp | rfl
      · exact hs.selected hphase p hp
      · rfl
  | scanner i e =>
    obtain ⟨p, hp, hnext⟩ := Option.bind_eq_some_iff.mp h
    obtain ⟨⟨p', s₁⟩, hscan, rfl⟩ := Option.map_eq_some_iff.mp hnext
    exact hs.scanStep (List.mem_of_getElem? hp) hscan
  | _ => exact hs.callStep h

/-! ## Runs -/

theorem sound_start {db : Db} (hdb : db.Consistent) (hnew : db.LacksMessage request.messageId) :
    Sound request (start db) where
  consistent := hdb
  active := rfl
  unwritten _ := rfl
  unpublished _ := ⟨rfl, fun _ hp => absurd hp List.not_mem_nil⟩
  manifestGone := nofun
  discarded := nofun
  pastActive := nofun
  selected := nofun
  unstored _ := hnew

/-- The id of a message is drawn at random: no other writer inserts a message under it. -/
def FreshId (request : AcceptRequest) (events : List AcceptEvent) : Prop :=
  ∀ w, .write w ∈ events → ¬w.InsertsMail (.message request.messageId)

variable {events : List AcceptEvent}

theorem Sound.run (hs : Sound request s) (hfresh : FreshId request events)
    (h : Transition.run (AcceptSystem.step E request) s events = some s') : Sound request s' := by
  have halong : Along (AcceptSystem.step E request)
      (fun _ e => ∀ w, e = .write w → ¬w.InsertsMail (.message request.messageId)) s events := by
    apply along_of_forall
    rintro e he _ w rfl
    exact hfresh w he
  exact run_invariant_along (fun _ _ _ hs hfresh hstep => hs.step hfresh hstep) hs halong h

theorem replay_phase {f : RecoveryManifest} {deliveryIds : Nat → Text} :
    (s.replay E f deliveryIds).phase = s.phase := by
  unfold AcceptSystem.replay
  split <;> rfl

/-- Scans and other writers leave the call where it is. -/
theorem step_phase {e : AcceptEvent} (h : s.step E request e = some s') :
    s'.phase = s.phase ∨ s.callStep E request s.phase e = some s' := by
  cases e with
  | write w =>
    cases h
    exact .inl rfl
  | scan =>
    cases h
    exact .inl rfl
  | scanner i e =>
    obtain ⟨p, -, hnext⟩ := Option.bind_eq_some_iff.mp h
    obtain ⟨⟨p', s₁⟩, hscan, rfl⟩ := Option.map_eq_some_iff.mp hnext
    refine .inl ?_
    unfold AcceptSystem.scanStep at hscan
    split at hscan
    case h_7 =>
      replace hscan := Option.some.inj hscan
      split at hscan <;> cases hscan <;> rfl
    case h_8 =>
      cases hscan
      exact replay_phase
    all_goals
      cases hscan
      try rfl
  | _ => exact .inr h

/-- What has been stored, or left behind, stays so. -/
theorem callStep_stored {phase : AcceptPhase} {e : AcceptEvent}
    (h : s.callStep E request phase e = some s') (hphase : phase.unstored = false) :
    s'.phase.unstored = false := by
  cases phase with
  | committed =>
    cases e with
    | enqueueForParse =>
      cases h
      rfl
    | raise =>
      cases h
      rfl
    | _ => cases h
  | returning reply =>
    cases e with
    | leave =>
      cases h
      cases reply with
      | policyChanged ok => cases hphase
      | _ => rfl
    | _ => cases h
  | replied reply => cases e <;> cases h
  | _ => cases hphase

theorem run_stored (h : Transition.run (AcceptSystem.step E request) s events = some s')
    (hphase : s.phase.unstored = false) : s'.phase.unstored = false := by
  have hkept (s : AcceptSystem) (e : AcceptEvent) (s' : AcceptSystem)
      (hphase : s.phase.unstored = false) (hstep : s.step E request e = some s') :
      s'.phase.unstored = false := by
    rcases step_phase hstep with hsame | hcall
    · rw [hsame]
      exact hphase
    · exact callStep_stored hcall hphase
  exact run_invariant hkept hphase h

end AcceptSystem

/-- The call has committed, and goes on to the reply that says so. -/
@[simp] def AcceptPhase.acknowledges : AcceptPhase → Bool
  | committed | returning .queued | replied .queued => true
  | _ => false

namespace AcceptSystem

variable {E : StoreEnv} {request : AcceptRequest} {s s' : AcceptSystem} {events : List AcceptEvent}

theorem loadPolicy_acknowledges {rest : List AcceptRecipient}
    {policies : List (Nat × DomainPolicySnapshot)} :
    (s.loadPolicy request policies rest).phase.acknowledges = false := by
  cases rest with
  | nil => rfl
  | cons r rest =>
    rw [AcceptSystem.loadPolicy]
    split
    · rfl
    · split <;> rfl

/-- Only a transaction that commits leads to the reply. -/
theorem callStep_acknowledges {phase : AcceptPhase} {e : AcceptEvent}
    (h : s.callStep E request phase e = some s') (hphase : phase.acknowledges = false)
    (hphase' : s'.phase.acknowledges = true) :
    e = .transaction ∧ ∃ db, s.db.acceptMessage (pyAddressOps E.py) request = .ok db := by
  cases e with
  | enter =>
    cases phase with
    | called =>
      cases h
      revert hphase'
      dsimp only
      split <;> exact nofun
    | _ => cases h
  | loadPolicy =>
    cases phase with
    | loading rest policies =>
      cases h
      rw [loadPolicy_acknowledges] at hphase'
      cases hphase'
    | _ => cases h
  | transaction =>
    cases phase with
    | published =>
      cases h
      refine ⟨rfl, ?_⟩
      unfold AcceptSystem.transaction at hphase'
      split at hphase'
      · rename_i db hok
        exact ⟨db, hok⟩
      · cases hphase'
      · cases hphase'
    | _ => cases h
  | leave =>
    cases phase with
    | returning reply =>
      cases h
      cases reply with
      | queued => cases hphase
      | _ => cases hphase'
    | _ => cases h
  | enqueueForParse =>
    cases phase with
    | committed => cases hphase
    | _ => cases h
  | _ =>
    cases phase <;> cases h <;> cases hphase'

/-- Before the reply there was a transaction that stored the message. -/
theorem run_acknowledges (hs : Sound request s) (hfresh : FreshId request events)
    (h : Transition.run (AcceptSystem.step E request) s events = some s')
    (hphase : s.phase.acknowledges = false) (hphase' : s'.phase.acknowledges = true) :
    ∃ before after state stored found, events = before ++ .transaction :: after ∧
      Transition.run (AcceptSystem.step E request) s before = some state ∧
      state.db.acceptMessage (pyAddressOps E.py) request = .ok stored ∧
      AcceptStored (pyAddressOps E.py) state.db request found stored := by
  induction events generalizing s with
  | nil =>
    cases h
    rw [hphase] at hphase'
    cases hphase'
  | cons e events ih =>
    obtain ⟨s₁, hstep, hrest⟩ := Option.bind_eq_some_iff.mp h
    have hfresh₁ (w : MailWrite) (he : e = .write w) : ¬w.InsertsMail (.message request.messageId) :=
      hfresh w (he ▸ List.mem_cons_self)
    cases hphase₁ : s₁.phase.acknowledges with
    | false =>
      obtain ⟨before, after, state, stored, found, rfl, hbefore, hstored⟩ :=
        ih (hs.step hfresh₁ hstep) (fun w hw => hfresh w (List.mem_cons_of_mem _ hw)) hrest hphase₁
      refine ⟨e :: before, after, state, stored, found, rfl, ?_, hstored⟩
      rw [Transition.run, hstep]
      exact hbefore
    | true =>
      rcases step_phase hstep with hsame | hcall
      · rw [hsame, hphase] at hphase₁
        cases hphase₁
      · obtain ⟨rfl, stored, hok⟩ := callStep_acknowledges hcall hphase hphase₁
        obtain ⟨found, hfound⟩ := Db.acceptMessage_stored hs.consistent hok
        exact ⟨[], events, s, stored, found, rfl, rfl, hok, hfound⟩

/-- The reply agrees with what is stored, in whatever order the call, the other writers and the
    scans of recovery take their steps: after `250 queued` the transaction has stored the message
    with one delivery for each mailbox its recipients resolve to, and after `451 recipient policy
    changed` with both files gone there is no message under the id at any time. -/
theorem accept_reply_agrees {db : Db} (hdb : db.Consistent)
    (hnew : db.LacksMessage request.messageId) (hfresh : FreshId request events)
    (h : Transition.run (AcceptSystem.step E request) (start db) events = some s) :
    (s.phase = .replied .queued →
      ∃ before after state stored found, events = before ++ .transaction :: after ∧
        Transition.run (AcceptSystem.step E request) (start db) before = some state ∧
        state.db.acceptMessage (pyAddressOps E.py) request = .ok stored ∧
        AcceptStored (pyAddressOps E.py) state.db request found stored) ∧
      (s.phase = .replied (.policyChanged true) →
        (∀ before after state, events = before ++ after →
          Transition.run (AcceptSystem.step E request) (start db) before = some state →
          state.db.LacksMessage request.messageId) ∧
        s.raw = false ∧ s.manifest = none) := by
  have hstart : Sound request (start db) := sound_start hdb hnew
  constructor
  · intro hphase
    exact run_acknowledges hstart hfresh h rfl (by rw [hphase]; rfl)
  · intro hphase
    refine ⟨?_, (hstart.run hfresh h).discarded (by rw [hphase]; rfl)⟩
    rintro before after state rfl hbefore
    rw [run_append, hbefore] at h
    have hunstored : state.phase.unstored = true := by
      by_contra hne
      have hstored := run_stored h (by simpa using hne)
      rw [hphase] at hstored
      cases hstored
    have hfresh' : FreshId request before :=
      fun w hw => hfresh w (List.mem_append_left _ hw)
    exact (hstart.run hfresh' hbefore).unstored hunstored

/-! ## A scan that has read the manifest of a rejected call -/

/-- A database with one domain. -/
def oneDomain : Db :=
  Db.empty.run .ascii [.createDomain "example.com".toList "job".toList .unset]

/-- A message for one mailbox of the domain. -/
def oneRecipient : AcceptRequest :=
  { messageId := "msg_1".toList
    smtpSessionId := none
    envelopeFrom := none
    receivedAt := 0
    rawPath := rawMessagePath "msg_1".toList 0
    rawSha256 := []
    rawSizeBytes := 10
    recipients :=
      [{ deliveryId := "dlv_1".toList
         rcptTo := "a@example.com".toList
         acceptedMatch := sampleMatch 1 "example.com" "a" "example.com" }] }

/-- The call up to its transaction, with a scan that reads the manifest. -/
def publishedAndRead : List AcceptEvent :=
  [.enter, .loadPolicy, .loadPolicy, .writeRaw, .writeManifest, .scan,
    .scanner 0 .retiredManifest, .scanner 0 .completeName, .scanner 0 .readManifest,
    .scanner 0 .retiredRaw, .scanner 0 .completeId]

/-- The domain is deleted before the transaction, and the scan goes on after the reply. -/
def rejectedCall : List AcceptEvent :=
  publishedAndRead ++
    [.write (.store (.deleteDomain 1)), .transaction, .unlinkManifest true, .unlinkRaw true, .leave,
      .scanner 0 (.activeIds true), .scanner 0 .validateRaw]

def queuedCall : List AcceptEvent :=
  publishedAndRead ++ [.transaction, .enqueueForParse, .leave]

theorem accept_reply_agrees_one_recipient :
    (∃ s, Transition.run (AcceptSystem.step .ascii oneRecipient) (start oneDomain) queuedCall =
        some s ∧ s.phase = .replied .queued ∧
      ∃ before after state stored found, queuedCall = before ++ .transaction :: after ∧
        Transition.run (AcceptSystem.step .ascii oneRecipient) (start oneDomain) before =
          some state ∧
        state.db.acceptMessage (pyAddressOps StoreEnv.ascii.py) oneRecipient = .ok stored ∧
        AcceptStored (pyAddressOps StoreEnv.ascii.py) state.db oneRecipient found stored) ∧
    ∃ s, Transition.run (AcceptSystem.step .ascii oneRecipient) (start oneDomain) rejectedCall =
        some s ∧ s.phase = .replied (.policyChanged true) ∧ s.scans = [.finished] ∧
      s.db.LacksMessage oneRecipient.messageId ∧ s.raw = false ∧ s.manifest = none := by
  have hdb : oneDomain.Consistent := Db.run_consistent (E := .ascii) Db.empty_consistent _
  have hnew : oneDomain.LacksMessage oneRecipient.messageId := by
    intro m hm
    exact absurd hm List.not_mem_nil
  constructor
  · have hrun : (Transition.run (AcceptSystem.step .ascii oneRecipient) (start oneDomain)
        queuedCall).map AcceptSystem.phase = some (.replied .queued) := by decide +kernel
    obtain ⟨s, hs, hphase⟩ := Option.map_eq_some_iff.mp hrun
    have hfresh : FreshId oneRecipient queuedCall := by
      intro w hw
      simp [queuedCall, publishedAndRead] at hw
    exact ⟨s, hs, hphase, (accept_reply_agrees hdb hnew hfresh hs).1 hphase⟩
  · have hrun : (Transition.run (AcceptSystem.step .ascii oneRecipient) (start oneDomain)
        rejectedCall).map (fun s => (s.phase, s.scans)) =
        some (.replied (.policyChanged true), [.finished]) := by decide +kernel
    obtain ⟨s, hs, hphase⟩ := Option.map_eq_some_iff.mp hrun
    obtain ⟨hphase, hscans⟩ := Prod.mk.inj hphase
    have hfresh : FreshId oneRecipient rejectedCall := by
      intro w hw
      have : w = .store (.deleteDomain 1) := by
        simpa [rejectedCall, publishedAndRead] using hw
      rw [this]
      exact id
    obtain ⟨hlacks, hraw, hmanifest⟩ := (accept_reply_agrees hdb hnew hfresh hs).2 hphase
    exact ⟨s, hs, hphase, hscans, hlacks _ _ _ (List.append_nil _).symm hs, hraw, hmanifest⟩

end AcceptSystem
end RapidInbox
