import RapidInbox.Ingest.LineReader
import RapidInbox.Ingest.SessionLog

/-!
# The envelope of a session

`Envelope` is what holds of a session between two lines: of its recipients, of its limits, and of the
data it has kept.  `LineDone` is what one line does to it.
-/

namespace RapidInbox

open Conc

namespace SmtpSession

variable {s s' : SmtpSession} {x : SessionLog} {P : Platform}

/-! ## The end of the data -/

/-- The durable write of a job has a manifest to write. -/
def ManifestFits (job : MailJob) : Prop :=
  ∃ manifest, buildManifest? job none = some manifest ∧ manifest.length ≤ kMaxRecoveryManifestBytes

/-- The job of a message as the queue gets it. -/
def queuedJob (P : Platform) (s : SmtpSession) (messageId : Text) (receivedAt : Timestamp) : MailJob :=
  { makeJob P s messageId receivedAt with artifactsPersisted := s.durableAck }

/-- The reply says whether the message was accepted. -/
def Settles (reply : Reply) : Prop := reply.code = 250 ∨ reply.code = 451

/-- What `finish_data` has answered and queued. -/
structure Finished (P : Platform) (s : SmtpSession) (x : SessionLog) (r : Reply)
    (x' : SessionLog) : Prop where
  settles : Settles r
  growthFailed : x'.growthFailed = x.growthFailed
  pushed : x'.pushed = x.pushed ∨
    x'.pushed = x.pushed ++ [queuedJob P s x'.messageId x'.receivedAt]
  queued : x'.failed = false →
    (s.durableAck = true → s.hasDurableWriter = true ∧
      ManifestFits (makeJob P s x'.messageId x'.receivedAt)) →
    r = queuedReply x'.messageId ∧
      x'.pushed = x.pushed ++ [queuedJob P s x'.messageId x'.receivedAt]

/-- Nothing has been queued, because a step failed. -/
theorem Finished.refused {r : Reply} {x' : SessionLog} (hsettles : Settles r)
    (hgrowth : x'.growthFailed = x.growthFailed) (hpushed : x'.pushed = x.pushed)
    (hfailed : x'.failed = false → s.durableAck = true ∧ (s.hasDurableWriter = true →
      ¬ManifestFits (makeJob P s x'.messageId x'.receivedAt))) : Finished P s x r x' where
  settles := hsettles
  growthFailed := hgrowth
  pushed := .inl hpushed
  queued hok hdurable := by
    obtain ⟨hack, hnot⟩ := hfailed hok
    exact absurd (hdurable hack).2 (hnot (hdurable hack).1)

theorem swp_writePendingArtifacts {job : MailJob} {Q : SmtpSession → Bool → SessionLog → Prop}
    (hunfit : ¬ManifestFits job → Q s false x)
    (hfail : Q s false { x with failed := true }) (hdone : Q s true x) :
    swp (writePendingArtifacts job) Q s x := by
  unfold writePendingArtifacts
  split
  · rename_i hnone
    refine hunfit ?_
    rintro ⟨manifest, hsome, -⟩
    rw [hnone] at hsome
    cases hsome
  · rename_i manifest hmanifest
    simp only [Act.wp_bind, Act.wp_ite, Act.wp_pure]
    split
    · rename_i hlong
      refine hunfit ?_
      rintro ⟨manifest', hsome, hfits⟩
      rw [hmanifest] at hsome
      cases hsome
      omega
    · refine swp_call _ trivial ?_
      rintro (_ | _) -
      · simpa [SessionLog.record] using hfail
      · refine swp_call _ trivial ?_
        rintro (_ | _) -
        · simpa [SessionLog.record] using hfail
        · simpa [SessionLog.record] using hdone

/-- `finish_data` behind its first check, with a reservation that holds the data. -/
theorem swp_handOver {job : MailJob} {Q : SmtpSession → Option Reply → SessionLog → Prop}
    (hlimits : job.WithinLimits s.maxMessageSizeBytes)
    (hheld : job.rawContent.length ≤ s.queueReservationBytes)
    (htaken : ∀ bytes, Q (s.cleared bytes) (some (queuedReply job.messageId))
      { x with pushed := x.pushed ++ [job] })
    (hlost : ∀ bytes r, Settles r → Q (s.cleared bytes) (some r) { x with failed := true }) :
    swp (handOver job) Q s x := by
  unfold handOver
  simp only [Act.wp_bind, Act.wp_get, Act.wp_modify]
  refine swp_call _ ⟨hlimits, hheld⟩ ?_
  rintro (_ | _) -
  · refine swp_clearTransactionState ?_
    intro bytes
    simp only [Act.wp_ite, Act.wp_pure]
    split
    · exact hlost bytes _ (.inr rfl)
    · exact hlost bytes _ (.inl rfl)
  · refine swp_clearTransactionState ?_
    intro bytes
    exact htaken bytes

/-- `finish_data` from the durable write on. -/
theorem swp_persistAndHandOver {job : MailJob} {Q : SmtpSession → Option Reply → SessionLog → Prop}
    (hpending : job.artifactsPersisted = false)
    (hlimits : job.WithinLimits s.maxMessageSizeBytes)
    (hheld : job.rawContent.length ≤ s.queueReservationBytes)
    (htaken : ∀ bytes, Q (s.cleared bytes) (some (queuedReply job.messageId))
      { x with pushed := x.pushed ++ [{ job with artifactsPersisted := s.durableAck }] })
    (hfailed : ∀ bytes r, Settles r → Q (s.cleared bytes) (some r) { x with failed := true })
    (hunfit : s.durableAck = true → (s.hasDurableWriter = true → ¬ManifestFits job) →
      ∀ bytes r, Settles r → Q (s.cleared bytes) (some r) x) :
    swp (persistAndHandOver job) Q s x := by
  unfold persistAndHandOver
  simp only [Act.wp_bind, Act.wp_get, Act.wp_ite]
  split
  · rename_i hack
    rw [hack] at htaken
    split
    · rename_i hwriter
      refine swp_clearAndReply _ fun bytes => hunfit hack (fun hhas => ?_) bytes _ (.inr rfl)
      rw [hhas] at hwriter
      exact absurd hwriter Bool.false_ne_true
    · refine swp_writePendingArtifacts ?_ ?_ ?_
      · intro hnot
        exact swp_clearAndReply _ fun bytes => hunfit hack (fun _ => hnot) bytes _ (.inr rfl)
      · exact swp_clearAndReply _ fun bytes => hfailed bytes _ (.inr rfl)
      · exact swp_handOver ⟨hlimits.server, hlimits.recipients⟩ hheld htaken hfailed
  · rename_i hack
    have hjob : { job with artifactsPersisted := s.durableAck } = job := by
      rw [Bool.not_eq_true] at hack
      rw [hack, ← hpending]
    rw [hjob] at htaken
    refine swp_underMaintenance ?_ ?_
    · exact swp_handOver hlimits hheld htaken hfailed
    · exact swp_clearAndReply _ fun bytes => hfailed bytes _ (.inr rfl)

theorem swp_finishData {Q : SmtpSession → Option Reply → SessionLog → Prop}
    (hactive : s.queueReservationActive = true) (hheld : s.data.length ≤ s.queueReservationBytes)
    (hlimit : s.data.length ≤ messageLimit s.maxMessageSizeBytes s.recipients)
    (hQ : ∀ bytes r x', Finished P s x r x' → Q (s.cleared bytes) (some r) x') :
    swp (finishData P) Q s x := by
  have hfailed {bytes : Nat} {r : Reply} {x' : SessionLog} (hsettles : Settles r)
      (hgrowth : x'.growthFailed = x.growthFailed) (hpushed : x'.pushed = x.pushed)
      (hfailed : x'.failed = true) : Q (s.cleared bytes) (some r) x' := by
    refine hQ _ _ _ (.refused hsettles hgrowth hpushed ?_)
    intro hok
    rw [hfailed] at hok
    cases hok
  unfold finishData
  simp only [Act.wp_bind, Act.wp_get, Act.wp_ite, Act.wp_modify]
  refine swp_underMaintenance ?_ ?_
  · rw [if_neg Bool.false_ne_true]
    refine swp_call _ trivial ?_
    intro receivedAt _
    refine swp_call _ trivial ?_
    intro messageId _
    split
    · rename_i hinactive
      have hoff : s.queueReservationActive = false := by simpa using hinactive
      rw [hactive] at hoff
      cases hoff
    · split
      · rename_i hsmall
        exact absurd hheld (Nat.not_le_of_lt hsmall)
      · refine swp_persistAndHandOver rfl (MailJob.withinLimits hlimit) hheld ?_ ?_ ?_
        · exact fun bytes => hQ bytes _ _ ⟨.inl rfl, rfl, .inr rfl, fun _ _ => ⟨rfl, rfl⟩⟩
        · exact fun bytes r hsettles => hfailed hsettles rfl rfl rfl
        · exact fun hack hnot bytes r hsettles =>
            hQ bytes r _ (.refused hsettles rfl rfl fun _ => ⟨hack, hnot⟩)
  · exact swp_clearAndReply _ fun bytes => hfailed (.inr rfl) rfl rfl rfl

/-! ## A line of data -/

/-- What a line adds to the message, without its line end. -/
def lineContent (line : Bytes) : Bytes := line.drop (contentOffset line)

/-- One line of data: too much of it is given up, and what fits is kept as long as the queue has
    room. -/
theorem swp_handleDataLine {line : Bytes} {Q : SmtpSession → Option Reply → SessionLog → Prop}
    (hsize : s.effectiveMessageSizeBytes < sizeMod)
    (hkept : s.dataTooLarge = false → s.dataQueueFull = false →
      s.queueReservationActive = true ∧ s.queueReservationBytes ≤ s.effectiveMessageSizeBytes)
    (hsticky : s.dataTooLarge = true → Q s none x)
    (hlarge : s.dataTooLarge = false →
      s.effectiveMessageSizeBytes < s.dataOctetsReceived + ((lineContent line).length + 2) →
      ∀ bytes, Q ({ s with dataTooLarge := true }.dropped bytes) none x)
    (hfull : s.dataTooLarge = false → s.dataQueueFull = true →
      s.dataOctetsReceived + ((lineContent line).length + 2) ≤ s.effectiveMessageSizeBytes →
      Q { s with dataOctetsReceived := s.dataOctetsReceived + ((lineContent line).length + 2) } none x)
    (hrefused : s.dataTooLarge = false → s.dataQueueFull = false →
      s.dataOctetsReceived + ((lineContent line).length + 2) ≤ s.effectiveMessageSizeBytes →
      ∀ bytes, Q ({ s with
          dataOctetsReceived := s.dataOctetsReceived + ((lineContent line).length + 2)
          dataQueueFull := true }.dropped bytes) none { x with growthFailed := true })
    (hstored : s.dataTooLarge = false → s.dataQueueFull = false →
      s.dataOctetsReceived + ((lineContent line).length + 2) ≤ s.effectiveMessageSizeBytes →
      ∀ bytes, s.dataOctetsReceived + ((lineContent line).length + 2) ≤ bytes →
        bytes ≤ s.effectiveMessageSizeBytes →
        Q { s with
          dataOctetsReceived := s.dataOctetsReceived + ((lineContent line).length + 2)
          queueReservationBytes := bytes
          data := s.data ++ lineContent line ++ [0x0D, 0x0A] } none x) :
    swp (handleDataLine line) Q s x := by
  have hlength : line.length - contentOffset line = (lineContent line).length :=
    (List.length_drop ..).symm
  unfold handleDataLine
  simp only [Act.wp_bind, Act.wp_get, Act.wp_ite, Act.wp_modify, Act.wp_pure]
  split
  · rename_i hflag
    exact hsticky hflag
  · rename_i hflag
    have hnot : s.dataTooLarge = false := by simpa using hflag
    refine swp_sub (contentOffset_le line) ?_
    rw [hlength]
    split
    · exact swp_markDataTooLarge (hlarge hnot (by omega))
    · refine swp_sub (by omega) ?_
      split
      · exact swp_markDataTooLarge (hlarge hnot (by omega))
      · refine swp_sub (by omega) ?_
        split
        · exact swp_markDataTooLarge (hlarge hnot (by omega))
        · have hroom : s.dataOctetsReceived + ((lineContent line).length + 2) ≤
              s.effectiveMessageSizeBytes := by omega
          rw [addSize_of_lt (by omega)]
          split
          · rename_i hqueue
            exact hfull hnot hqueue hroom
          · rename_i hqueue
            have hopen : s.dataQueueFull = false := by simpa using hqueue
            obtain ⟨hactive, hbytes⟩ := hkept hnot hopen
            refine swp_ensureDataReservation hactive hroom hbytes hsize ?_ ?_
            · exact swp_markDataQueueFull (hrefused hnot hopen hroom)
            · exact hstored hnot hopen hroom

/-! ## The invariant -/

/-- What holds of a session between two lines. -/
structure Envelope (P : Platform) (s : SmtpSession) : Prop where
  size : s.maxMessageSizeBytes < sizeMod
  distinct : s.recipients.Pairwise fun r r' =>
    r.domainMatch.addressCanonical ≠ r'.domainMatch.addressCanonical
  count : s.recipients.length ≤ s.maxRecipients.toNat
  matched : ∀ r ∈ s.recipients,
    s.domainRules.matcher.matchAddress (cppAddressOps P.unicode) r.rcptTo = some r.domainMatch ∧
      r.domainPolicy = s.domainRules.policy? r.domainMatch.domainId
  limit : s.effectiveMessageSizeBytes = messageLimit s.maxMessageSizeBytes s.recipients
  declared : ∀ size, s.declaredMessageSize = some size → size ≤ s.effectiveMessageSizeBytes
  released : s.inData = false → s.queueReservationActive = false
  reserved : s.queueReservationActive = true →
    s.queueReservationBytes ≤ s.effectiveMessageSizeBytes
  kept : s.inData = true → s.dataTooLarge = false → s.dataQueueFull = false →
    s.queueReservationActive = true ∧ s.data.length = s.dataOctetsReceived ∧
      s.dataOctetsReceived ≤ s.queueReservationBytes ∧
      s.dataOctetsReceived ≤ s.effectiveMessageSizeBytes

/-- What one line does to a session. -/
structure LineDone (P : Platform) (s : SmtpSession) (line : Bytes) (s' : SmtpSession)
    (r : Option Reply) : Prop where
  envelope : Envelope P s'
  /-- A refused command changes nothing. -/
  refused : s.inData = false → ∀ reply, r = some reply → 400 ≤ reply.code → s' = s
  /-- The rules change with `MAIL` only, which has no recipients yet. -/
  rules : s'.domainRules = s.domainRules ∨
    s.inData = false ∧ matchesCommandCi line (Json.ascii "MAIL".toList) = true ∧
      s'.mailFromSeen = true ∧ s'.recipients = []

theorem LineDone.same {line : Bytes} (h : Envelope P s) (r : Option Reply) : LineDone P s line s r :=
  ⟨h, fun _ _ _ _ => rfl, .inl rfl⟩

/-- The line is data, or the reply is not a refusal. -/
theorem LineDone.of_accepted {line : Bytes} {r : Option Reply} (h : Envelope P s')
    (hr : s.inData = true ∨ ∀ reply, r = some reply → reply.code < 400)
    (hrules : s'.domainRules = s.domainRules) : LineDone P s line s' r where
  envelope := h
  refused hdata reply hreply hcode := by
    rcases hr with hin | hok
    · rw [hdata] at hin
      cases hin
    · exact absurd hcode (Nat.not_le_of_lt (hok reply hreply))
  rules := .inl hrules

theorem envelope_cleared (hsize : s.maxMessageSizeBytes < sizeMod) (bytes : Nat) :
    Envelope P (s.cleared bytes) where
  size := hsize
  distinct := .nil
  count := Nat.zero_le _
  matched := fun _ hr => absurd hr List.not_mem_nil
  limit := rfl
  declared := fun _ hd => nomatch hd
  released := fun _ => rfl
  reserved := fun hactive => nomatch hactive
  kept := fun hdata => nomatch hdata

theorem Envelope.cleared (h : Envelope P s) (bytes : Nat) : Envelope P (s.cleared bytes) :=
  envelope_cleared h.size bytes

theorem Envelope.effective_lt (h : Envelope P s) : s.effectiveMessageSizeBytes < sizeMod := by
  rw [h.limit]
  exact Nat.lt_of_le_of_lt (messageLimit_le _ _) h.size

/-! ## Message data -/

/-- The data has been given up, for one reason or the other. -/
theorem Envelope.dropped (h : Envelope P s) (bytes : Nat) :
    Envelope P ({ s with dataTooLarge := true }.dropped bytes) ∧
      Envelope P ({ s with dataQueueFull := true }.dropped bytes) := by
  constructor
  · exact { h with
      released := fun _ => rfl
      reserved := fun hactive => nomatch hactive
      kept := fun _ hlarge => nomatch hlarge }
  · exact { h with
      released := fun _ => rfl
      reserved := fun hactive => nomatch hactive
      kept := fun _ _ hfull => nomatch hfull }

/-- A line of data is not answered and leaves the session in its data. -/
theorem Envelope.handleDataLine_inData (line : Bytes) (h : Envelope P s) (hdata : s.inData = true) :
    swp (handleDataLine line) (fun s' r _ => r = none ∧ s'.inData = true ∧ Envelope P s' ∧
      s'.domainRules = s.domainRules) s x := by
  refine swp_handleDataLine h.effective_lt ?_ ?_ ?_ ?_ ?_ ?_
  · intro hlarge hfull
    obtain ⟨hactive, -, -, -⟩ := h.kept hdata hlarge hfull
    exact ⟨hactive, h.reserved hactive⟩
  · exact fun _ => ⟨rfl, hdata, h, rfl⟩
  · exact fun _ _ bytes => ⟨rfl, hdata, (h.dropped bytes).1, rfl⟩
  · intro _ hfull _
    refine ⟨rfl, hdata, { h with kept := ?_ }, rfl⟩
    intro _ _ hnot
    dsimp only at hnot
    rw [hfull] at hnot
    cases hnot
  · intro _ _ _ bytes
    refine ⟨rfl, hdata, { h with released := ?_, reserved := ?_, kept := ?_ }, rfl⟩
    · exact fun _ => rfl
    · exact fun hactive => nomatch hactive
    · exact fun _ _ hfull => nomatch hfull
  · intro hlarge hfull hroom bytes hlow hhigh
    obtain ⟨hactive, hlength, -, -⟩ := h.kept hdata hlarge hfull
    refine ⟨rfl, hdata, { h with reserved := fun _ => hhigh, kept := ?_ }, rfl⟩
    intro _ _ _
    refine ⟨hactive, ?_, hlow, hroom⟩
    simp only [List.length_append, List.length_cons, List.length_nil, hlength]
    omega

theorem Envelope.handleDataLine (line : Bytes) (h : Envelope P s) (hdata : s.inData = true) :
    swp (handleDataLine line) (fun s' r _ => LineDone P s line s' r) s x := by
  refine Prog.Follows.mono ?_ (h.handleDataLine_inData line hdata)
  rintro s' r x' ⟨-, -, henvelope, hrules⟩
  exact .of_accepted henvelope (.inl hdata) hrules

/-! ## Commands -/

/-- A size that `MAIL` declares is within the server's limit. -/
theorem mailParameters_declared {maxMessageSize : Nat} {ps : List EsmtpParameter}
    {declared declared' : Option Nat} {smtputf8 smtputf8' : Bool}
    (hle : ∀ size, declared = some size → size ≤ maxMessageSize)
    (h : mailParameters maxMessageSize ps declared smtputf8 = .ok (declared', smtputf8')) :
    ∀ size, declared' = some size → size ≤ maxMessageSize := by
  fun_induction mailParameters maxMessageSize ps declared smtputf8 with
  | case1 =>
    cases h
    exact hle
  | case2 => cases h
  | case3 => cases h
  | case4 _ _ _ _ _ _ _ hsize ih =>
    refine ih ?_ h
    intro size hdeclared
    cases hdeclared
    exact Nat.le_of_not_lt hsize
  | case5 => cases h
  | case6 _ _ _ _ _ _ _ ih => exact ih hle h
  | case7 => cases h
  | case8 _ _ _ _ _ _ _ _ _ _ ih => exact ih hle h
  | case9 => cases h
  | case10 => cases h

theorem parseMail_declared {line : Bytes} {sender : Text} {declared : Option Nat} {smtputf8 : Bool}
    (h : parseMail P s line = .ok (sender, declared, smtputf8)) :
    ∀ size, declared = some size → size ≤ s.maxMessageSizeBytes := by
  unfold parseMail at h
  split at h
  · cases h
  · split at h
    · cases h
    · rename_i parsed _ _
      cases hparams : mailParameters s.maxMessageSizeBytes parsed.parameters none false with
      | error e =>
        rw [hparams] at h
        cases h
      | ok params =>
        rw [hparams] at h
        cases hsender : mailSender P parsed.path params.2 with
        | error e => simp [bind, Except.bind, hsender] at h
        | ok sender' =>
          simp only [bind, Except.bind, hsender, pure, Except.pure, Except.ok.injEq,
            Prod.mk.injEq] at h
          obtain ⟨-, rfl, -⟩ := h
          refine mailParameters_declared ?_ hparams
          intro _ hnone
          cases hnone

theorem swp_refreshDomainRules {Q : SmtpSession → Unit → SessionLog → Prop}
    (hQ : ∀ rules, Q { s with domainRules := rules } () x) : swp refreshDomainRules Q s x := by
  unfold refreshDomainRules
  simp only [Act.wp_bind, Act.wp_get, Act.wp_ite, Act.wp_pure]
  split
  · exact hQ s.domainRules
  · refine swp_call _ trivial ?_
    rintro (_ | rules) -
    · exact hQ s.domainRules
    · exact hQ rules

theorem Envelope.handleMail {line : Bytes} (h : Envelope P s) (hdata : s.inData = false)
    (hmail : matchesCommandCi line (Json.ascii "MAIL".toList) = true) :
    swp (handleMail P line) (fun s' r _ => LineDone P s line s' r) s x := by
  unfold SmtpSession.handleMail
  simp only [Act.wp_bind, Act.wp_get]
  split
  · exact .same h _
  · rename_i sender declared smtputf8 hparse
    simp only [Act.wp_bind, releaseDataBuffer, Act.wp_modify, Act.wp_pure]
    refine swp_refreshDomainRules ?_
    intro rules
    refine ⟨?_, ?_, .inr ⟨hdata, hmail, rfl, rfl⟩⟩
    · exact { size := h.size
              distinct := .nil
              count := Nat.zero_le _
              matched := fun _ hr => absurd hr List.not_mem_nil
              limit := rfl
              declared := parseMail_declared hparse
              released := h.released
              reserved := by
                intro hactive
                rw [h.released hdata] at hactive
                cases hactive
              kept := by
                intro hin
                rw [hdata] at hin
                cases hin }
    · intro _ reply hreply hcode
      cases hreply
      exact absurd hcode (by decide)

/-- The limit once one more recipient is accepted. -/
theorem recipientLimit_eq {policy : Option DomainPolicySnapshot} {limit : Nat}
    (h : recipientLimit s policy = some limit) (r : RecipientDelivery) (hr : r.domainPolicy = policy) :
    limit = r.sizeLimit?.toList.foldl min s.effectiveMessageSizeBytes ∧
      ∀ size, s.declaredMessageSize = some size → size ≤ s.effectiveMessageSizeBytes → size ≤ limit := by
  unfold RecipientDelivery.sizeLimit?
  rw [hr]
  unfold recipientLimit at h
  cases policy with
  | none =>
    cases h
    exact ⟨rfl, fun _ _ hle => hle⟩
  | some policy =>
    dsimp only at h
    by_cases hpositive : 0 < policy.maxMessageSizeBytes
    · rw [if_pos hpositive] at h
      split at h
      · cases h
      · rename_i hdeclared
        cases h
        refine ⟨by simp [hpositive], ?_⟩
        intro size hsize _
        rw [hsize] at hdeclared
        simpa using hdeclared
    · rw [if_neg hpositive] at h
      cases h
      exact ⟨by simp [hpositive], fun _ _ hle => hle⟩

theorem Envelope.acceptRecipient {line : Bytes} {rcptTo : Text} {m : DomainMatch} (h : Envelope P s)
    (hdata : s.inData = false)
    (hmatch : s.domainRules.matcher.matchAddress (cppAddressOps P.unicode) rcptTo = some m) :
    swp (acceptRecipient rcptTo m) (fun s' r _ => LineDone P s line s' r) s x := by
  unfold SmtpSession.acceptRecipient
  simp only [Act.wp_bind, Act.wp_get, Act.wp_ite, Act.wp_pure]
  split
  · exact .same h _
  · rename_i hnew
    split
    · exact swp_call _ trivial fun _ _ => .same h _
    · rename_i hroom
      split
      · exact .same h _
      · rename_i limit hlimit
        simp only [Act.wp_bind, Act.wp_modify, Act.wp_pure]
        refine swp_call _ trivial ?_
        intro deliveryId _
        obtain ⟨heq, hdeclared⟩ := recipientLimit_eq hlimit
          ⟨deliveryId, rcptTo, m, s.domainRules.policy? m.domainId⟩ rfl
        refine .of_accepted ?_ (.inr ?_) rfl
        · exact { size := h.size
                  distinct := by
                    refine List.pairwise_append.mpr ⟨h.distinct, List.pairwise_singleton _ _, ?_⟩
                    intro r hr r' hr' hsame
                    rw [List.mem_singleton.mp hr'] at hsame
                    exact hnew (List.any_eq_true.mpr ⟨r, hr, by simpa using hsame⟩)
                  count := by
                    simp only [List.length_append, List.length_singleton]
                    omega
                  matched := by
                    intro r hr
                    rcases List.mem_append.mp hr with hr | hr
                    · exact h.matched r hr
                    · rw [List.mem_singleton.mp hr]
                      exact ⟨hmatch, rfl⟩
                  limit := by
                    rw [messageLimit_append, ← h.limit]
                    exact heq
                  declared := fun size hsize => hdeclared size hsize (h.declared size hsize)
                  released := h.released
                  reserved := by
                    intro hactive
                    rw [h.released hdata] at hactive
                    cases hactive
                  kept := by
                    intro hin
                    rw [hdata] at hin
                    cases hin }
        · intro reply hreply
          cases hreply
          decide

theorem Envelope.handleRcpt {line : Bytes} (h : Envelope P s) (hdata : s.inData = false) :
    swp (handleRcpt P line) (fun s' r _ => LineDone P s line s' r) s x := by
  unfold SmtpSession.handleRcpt
  simp only [Act.wp_bind, Act.wp_get, Act.wp_ite, Act.wp_pure]
  split
  · exact .same h _
  · split
    · exact .same h _
    · simp only [Act.wp_ite, Act.wp_pure]
      split
      · exact .same h _
      · split
        · exact .same h _
        · split
          · rw [Act.wp_bind]
            exact swp_call _ trivial fun _ _ => .same h _
          · rename_i text m hfound
            obtain ⟨text', -, hmap⟩ := Option.bind_eq_some_iff.mp hfound
            obtain ⟨m', hmatch, heq⟩ := Option.map_eq_some_iff.mp hmap
            cases heq
            exact h.acceptRecipient hdata hmatch

theorem Envelope.handleData {line : Bytes} (h : Envelope P s) :
    swp handleData (fun s' r _ => LineDone P s line s' r) s x := by
  unfold SmtpSession.handleData
  simp only [Act.wp_bind, Act.wp_get, Act.wp_ite, Act.wp_pure, releaseDataBuffer, Act.wp_modify]
  split
  · exact .same h _
  · refine swp_underMaintenance ?_ ?_
    · rw [if_neg Bool.false_ne_true]
      refine swp_call _ trivial ?_
      rintro (_ | _) -
      · exact .same h _
      · refine .of_accepted ?_ (.inr ?_) rfl
        · exact { h with
            released := fun hin => by cases hin
            reserved := fun _ => Nat.zero_le _
            kept := fun _ _ _ => ⟨rfl, rfl, Nat.le_refl _, Nat.zero_le _⟩ }
        · intro reply hreply
          cases hreply
          decide
    · exact .same h _

theorem Envelope.handleCommand (line : Bytes) (h : Envelope P s) (hdata : s.inData = false) :
    swp (handleCommand P line) (fun s' r _ => LineDone P s line s' r) s x := by
  have hcleared (bytes : Nat) (extended : Bool) :
      Envelope P { s.cleared bytes with extendedSmtp := extended } :=
    { h.cleared bytes with }
  have hreply {r : Reply} (hcode : r.code = 250) : ∀ reply, some r = some reply → reply.code < 400 := by
    intro reply heq
    cases heq
    omega
  unfold SmtpSession.handleCommand
  simp only [Act.wp_bind, Act.wp_get, Act.wp_ite, Act.wp_pure, Act.wp_modify]
  repeat' split
  all_goals first
    | exact .same h _
    | exact swp_clearTransactionState fun bytes =>
      .of_accepted (hcleared bytes _) (.inr (hreply rfl)) rfl
    | exact swp_clearAndReply _ fun bytes =>
      .of_accepted (h.cleared bytes) (.inr (hreply rfl)) rfl
    | exact h.handleMail hdata (by assumption)
    | exact h.handleRcpt hdata
    | exact h.handleData

/-- One line keeps the envelope, and a refused command changes nothing. -/
theorem Envelope.handleLine (line : Bytes) (h : Envelope P s) :
    swp (handleLine P line) (fun s' r _ => LineDone P s line s' r) s x := by
  unfold SmtpSession.handleLine
  simp only [Act.wp_bind, Act.wp_get, Act.wp_ite]
  split
  · rename_i hdata
    split
    · split
      · exact swp_clearAndReply _ fun bytes => .of_accepted (h.cleared bytes) (.inl hdata) rfl
      · rename_i hlarge
        split
        · exact swp_clearAndReply _ fun bytes => .of_accepted (h.cleared bytes) (.inl hdata) rfl
        · rename_i hfull
          obtain ⟨hactive, hlength, hheld, hroom⟩ :=
            h.kept hdata (by simpa using hlarge) (by simpa using hfull)
          refine swp_finishData hactive (by omega) ?_ ?_
          · rw [← h.limit]
            omega
          · exact fun bytes r x' _ => .of_accepted (h.cleared bytes) (.inl hdata) rfl
    · exact h.handleDataLine line hdata
  · rename_i hdata
    exact h.handleCommand line (by simpa using hdata)

theorem Envelope.rejectOverlongDataLine (h : Envelope P s) :
    swp rejectOverlongDataLine (fun s' _ _ => Envelope P s') s x := by
  unfold SmtpSession.rejectOverlongDataLine
  simp only [Act.wp_bind, Act.wp_get, Act.wp_ite, Act.wp_pure]
  split
  · exact swp_markDataTooLarge fun bytes => (h.dropped bytes).1
  · exact h

/-! ## Runs -/

/-- A line of the client, as the server hands it to the session. -/
def feedLine (P : Platform) (line : ClientLine) : SessionM (Option Reply) :=
  if line.tooLong then SmtpSession.rejectOverlongDataLine else SmtpSession.handleLine P line.bytes

/-- One line after another, with the replies. -/
def feedLines (P : Platform) : List ClientLine → SessionM (List (Option Reply))
  | [] => pure []
  | line :: lines => do
      let r ← feedLine P line
      let rs ← feedLines P lines
      return r :: rs

theorem Envelope.feedLines (lines : List ClientLine) (h : Envelope P s) :
    swp (feedLines P lines) (fun s' _ _ => Envelope P s') s x := by
  induction lines generalizing s x with
  | nil => exact h
  | cons line lines ih =>
    simp only [SmtpSession.feedLines, Act.wp_bind, Act.wp_pure, feedLine]
    by_cases hlong : line.tooLong
    · rw [if_pos hlong]
      exact Prog.Follows.mono (fun _ _ _ henvelope => ih henvelope) h.rejectOverlongDataLine
    · rw [if_neg hlong]
      exact Prog.Follows.mono (fun _ _ _ hdone => ih hdone.envelope) (h.handleLine line.bytes)

/-- A new session with rules that accept `b.example` up to twenty bytes. -/
def newSession (maxMessageSizeBytes : Nat) (durableAck : Bool) : SmtpSession where
  domainRules :=
    { matcher := ⟨[⟨1, "b.example".toList, true, true, .keep, false⟩]⟩
      policies := [(1, {
        rootDomainUnicode := "b.example".toList
        acceptExact := true
        acceptSubdomains := true
        publicWebEnabled := true
        publicApiEnabled := true
        isActive := true
        isHidden := false
        plusAddressingMode := .keep
        localPartCaseSensitive := false
        maxMessageSizeBytes := 20
        retentionDays := none
        dnsStatus := .unknown })]
      generation := 1 }
  hasDomainCache := true
  maxRecipients := 2
  maxMessageSizeBytes := maxMessageSizeBytes
  effectiveMessageSizeBytes := maxMessageSizeBytes
  hasDurableWriter := true
  durableAck := durableAck
  reservationChunkBytes := 8
  chunk_pos := by decide
  chunk_lt := by decide
  remoteIp := []
  sessionId := []

/-- A transaction up to its first line of data; the second recipient is the first one again. -/
def transactionLines : List ClientLine :=
  ["MAIL FROM:<>", "RCPT TO:<a@b.example>", "RCPT TO:<A@b.example>", "RCPT TO:<a@c.example>", "DATA",
    "..x"].map fun line => ⟨Json.ascii line.toList, false⟩

def asciiPlatform : Platform := ⟨.asciiOnly, fun _ => []⟩

end SmtpSession

end RapidInbox
