import RapidInbox.Ingest.Reservation
import RapidInbox.Ingest.Worker

/-!
# What one line of a session does to the storage directory and the queue

An `Exchange` records the file writes and the pushes of a session since its current line arrived,
up to the reply.  `exchangeProtocol` moves the record along with the shared operations and asks two
things of every write: the session holds a reservation, and a file at a manifest path is the
manifest of the message filed there.  Every method follows it, and `Answered` is what its reply then
says: with durable acknowledgement a message is reported as queued only after its raw file and its
pending manifest were written in this order, and a reply with another code means nothing was pushed.
-/

namespace RapidInbox

open Conc

/-! ## Where messages are filed -/

@[simp] theorem length_paddedDecimal (width n : Nat) : (paddedDecimal width n).length = width := by
  induction width generalizing n with
  | zero => rfl
  | succ width ih => simp [paddedDecimal, ih]

theorem length_dateText (sep : Char) (t : Timestamp) : (dateText sep t).length = 10 := by
  simp [dateText]

/-- A manifest path determines the message and its raw path, since dates have one width. -/
theorem manifestPath_inj {id id' : Text} {t t' : Timestamp}
    (h : manifestPath id t = manifestPath id' t') :
    id = id' ∧ rawMessagePath id t = rawMessagePath id' t' := by
  unfold manifestPath datedPath at h
  simp only [List.append_assoc, List.cons_append] at h
  have hrest := List.append_cancel_left h
  injection hrest with _ hrest
  obtain ⟨hdate, hname⟩ :=
    List.append_inj hrest ((length_dateText '/' t).trans (length_dateText '/' t').symm)
  injection hname with _ hname
  have hid : id = id' := List.append_cancel_right hname
  refine ⟨hid, ?_⟩
  simp only [rawMessagePath, datedPath, hdate, hid]

/-- The job's paths are those of its id and its time. -/
structure MailJob.Filed (job : MailJob) : Prop where
  raw : job.rawPath = rawMessagePath job.messageId job.receivedAt
  manifest : job.manifestPath = RapidInbox.manifestPath job.messageId job.receivedAt

/-- The content is a manifest of this message that names its raw file. -/
def FileContent.Names (job : MailJob) : FileContent → Prop
  | .manifest job' _ => job'.messageId = job.messageId ∧ job'.rawPath = job.rawPath
  | .blob _ => False

/-- What is written at a manifest path is the manifest of the message filed there. -/
def InOrder (path : Text) (content : FileContent) : Prop :=
  ∀ job : MailJob, job.Filed → job.manifestPath = path → content.Names job

theorem inOrder_manifest {job : MailJob} (h : job.Filed) (result : Option ParseResult) :
    InOrder job.manifestPath (.manifest job result) := by
  intro job' h' hpath
  rw [h.manifest, h'.manifest] at hpath
  obtain ⟨hid, hraw⟩ := manifestPath_inj hpath
  exact ⟨hid.symm, by rw [h.raw, h'.raw, hraw]⟩

/-- Only manifests lie under `manifests/`. -/
theorem inOrder_of_head {path : Text} (hhead : path.head? ≠ some 'm') (content : FileContent) :
    InOrder path content := by
  intro job h hpath
  refine absurd ?_ hhead
  rw [← hpath, h.manifest]
  rfl

theorem inOrder_raw {job : MailJob} (h : job.Filed) (content : FileContent) :
    InOrder job.rawPath content := by
  refine inOrder_of_head ?_ content
  rw [h.raw]
  simp [rawMessagePath, datedPath]

/-! ## Exchanges -/

/-- What a session has done since its current line arrived. -/
structure Exchange where
  /-- The session as it stood when the line came. -/
  session : Option SmtpSession := none
  /-- Completed file writes, in order. -/
  written : List (Text × FileContent) := []
  /-- Jobs the queue has taken. -/
  pushed : List MailJob := []

/-- The record when a line comes. -/
def Exchange.start (s : SmtpSession) : Exchange := { session := some s }

/-- The record after one more operation. -/
def Exchange.record (x : Exchange) : (op : SessionOp) → op.Answer → Exchange
  | .writeFileAtomic path content, written =>
    if written then { x with written := x.written ++ [(path, content)] } else x
  | .pushReserved job _, taken => if taken then { x with pushed := x.pushed ++ [job] } else x
  | _, _ => x

/-- The protocol of exchanges; `durable` is the session's `durable_ack`. -/
def exchangeProtocol (durable : Bool) : Protocol sessionSig SmtpSession Exchange where
  agrees s _ := s.durableAck = durable
  pre op s _ :=
    match op with
    | .writeFileAtomic path content => s.queueReservationActive = true ∧ InOrder path content
    | .pushReserved job _ => job.Filed
    | _ => True
  post op x answer x' := x' = x.record op answer

/-- The job of what a session has received: its sender, its recipients and its data. -/
structure MailJob.Carries (job : MailJob) (s : SmtpSession) : Prop where
  envelopeFrom : job.envelopeFrom = s.mailFrom
  recipients : job.recipients = s.recipients
  rawContent : job.rawContent = s.data

/-- What an acknowledged exchange has done: the job of what the session had received has its raw file
    and then its pending manifest, and it is the one that the queue took, if the queue took one. -/
structure Exchange.Stores (x : Exchange) (job : MailJob) : Prop where
  carries : ∃ s, x.session = some s ∧ job.Carries s
  written : x.written = [(job.rawPath, .blob job.rawContent), (job.manifestPath, .manifest job none)]
  pushed : x.pushed = [] ∨ x.pushed = [{ job with artifactsPersisted := true }]

namespace SmtpSession

/-- A reply other than the acknowledgement of a message. -/
def NotQueued (r : Option Reply) : Prop := ∀ id, r ≠ some (queuedReply id)

theorem notQueued_none : NotQueued none := fun _ h => by cases h

theorem notQueued_of_code {r : Reply} (h : r.code ≠ 250) : NotQueued (some r) := by
  intro id hr
  cases hr
  exact h rfl

theorem notQueued_of_head {code : Nat} {line : Text} {lines : List Text}
    (h : line.head? ≠ some 'q') : NotQueued (some ⟨code, line :: lines⟩) := by
  intro id hr
  simp only [queuedReply, Option.some.injEq, Reply.mk.injEq, List.cons.injEq] at hr
  rw [hr.2.1] at h
  exact h rfl

/-- What a method's reply says about its exchange. -/
structure Answered (durable : Bool) (s : SmtpSession) (r : Option Reply) (x : Exchange) : Prop where
  durableAck : s.durableAck = durable
  acknowledged : durable = true → ∀ id, r = some (queuedReply id) →
    ∃ job : MailJob, job.Filed ∧ job.messageId = id ∧ x.Stores job
  refused : ∀ reply, r = some reply → reply.code ≠ 250 → x.pushed = []

variable {durable : Bool} {s s₀ : SmtpSession} {x : Exchange}

theorem Answered.of_notQueued {r : Option Reply} (hagree : s.durableAck = durable)
    (hr : NotQueued r) (hx : x.pushed = []) : Answered durable s r x :=
  ⟨hagree, fun _ id h => absurd h (hr id), fun _ _ _ => hx⟩

/-- The weakest precondition for the exchange protocol. -/
abbrev ewp {α : Type} (durable : Bool) (m : SessionM α) (Q : SmtpSession → α → Exchange → Prop)
    (s : SmtpSession) (x : Exchange) : Prop :=
  Act.wp (exchangeProtocol durable) m Q s x

theorem ewp_call (op : SessionOp) {Q : SmtpSession → op.Answer → Exchange → Prop}
    (hagree : s.durableAck = durable) (hpre : (exchangeProtocol durable).pre op s x)
    (hQ : ∀ r, Q s r (x.record op r)) : ewp durable (call op) Q s x := by
  refine ⟨hagree, hpre, ?_⟩
  rintro r x' rfl
  exact hQ r

theorem ewp_releaseQueueReservation {Q : SmtpSession → Unit → Exchange → Prop}
    (hagree : s.durableAck = durable) (hQ : ∀ s', s'.durableAck = durable → Q s' () x) :
    ewp durable releaseQueueReservation Q s x := by
  unfold releaseQueueReservation
  simp only [Act.wp_bind, Act.wp_get, Act.wp_ite, Act.wp_pure, Act.wp_modify]
  split
  · exact hQ s hagree
  · exact ewp_call _ hagree trivial fun _ => hQ _ hagree

theorem ewp_clearTransactionState {Q : SmtpSession → Unit → Exchange → Prop}
    (hagree : s.durableAck = durable) (hQ : ∀ s', s'.durableAck = durable → Q s' () x) :
    ewp durable clearTransactionState Q s x := by
  unfold clearTransactionState releaseDataBuffer
  simp only [Act.wp_bind, Act.wp_modify]
  exact ewp_releaseQueueReservation hagree fun s' hs' => hQ _ hs'

theorem ewp_clearAndReply {r : Reply} (hagree : s.durableAck = durable)
    (hr : NotQueued (some r)) (hx : x.pushed = []) :
    ewp durable (clearAndReply r) (Answered durable) s x := by
  unfold clearAndReply
  simp only [Act.wp_bind, Act.wp_pure]
  exact ewp_clearTransactionState hagree fun s' hs' => .of_notQueued hs' hr hx

theorem ewp_markDataTooLarge {Q : SmtpSession → Unit → Exchange → Prop}
    (hagree : s.durableAck = durable) (hQ : ∀ s', s'.durableAck = durable → Q s' () x) :
    ewp durable markDataTooLarge Q s x := by
  unfold markDataTooLarge releaseDataBuffer
  simp only [Act.wp_bind, Act.wp_modify]
  exact ewp_releaseQueueReservation hagree hQ

theorem ewp_markDataQueueFull {Q : SmtpSession → Unit → Exchange → Prop}
    (hagree : s.durableAck = durable) (hQ : ∀ s', s'.durableAck = durable → Q s' () x) :
    ewp durable markDataQueueFull Q s x := by
  unfold markDataQueueFull releaseDataBuffer
  simp only [Act.wp_bind, Act.wp_modify]
  exact ewp_releaseQueueReservation hagree hQ

theorem ewp_underMaintenance {Q : SmtpSession → Bool → Exchange → Prop}
    (hagree : s.durableAck = durable) (hQ : ∀ r, Q s r x) :
    ewp durable underMaintenance Q s x := by
  unfold underMaintenance
  simp only [Act.wp_bind, Act.wp_get, Act.wp_ite, Act.wp_pure]
  split
  · exact ewp_call _ hagree trivial hQ
  · exact hQ false

theorem ewp_sub {a b : Nat} {Q : SmtpSession → Nat → Exchange → Prop} (hle : b ≤ a)
    (hQ : Q s (a - b) x) : ewp durable (sub a b) Q s x := by
  unfold sub
  rw [subSize_ok hle]
  exact hQ

theorem ewp_ensureDataReservation (required : Nat) {Q : SmtpSession → Bool → Exchange → Prop}
    (hagree : s.durableAck = durable) (hQ : ∀ s' r, s'.durableAck = durable → Q s' r x) :
    ewp durable (ensureDataReservation required) Q s x := by
  unfold ensureDataReservation
  simp only [Act.wp_bind, Act.wp_get, Act.wp_ite, Act.wp_pure, Act.wp_modify]
  split
  · exact hQ s false hagree
  · split
    · exact hQ s true hagree
    · have htarget : s.queueReservationBytes ≤ preferredTarget s required := by
        have hreq : required ≤ preferredTarget s required := Nat.le_max_right _ _
        omega
      refine ewp_sub (by omega) (ewp_sub htarget (ewp_call _ hagree trivial ?_))
      intro added
      split
      · exact hQ s false hagree
      · exact hQ _ true hagree

/-! ## The end of the data -/

/-- The raw file is written before the manifest, and both only while the reservation is held. -/
theorem ewp_writePendingArtifacts {job : MailJob} (hjob : job.Filed)
    {Q : SmtpSession → Bool → Exchange → Prop} (hagree : s.durableAck = durable)
    (hactive : s.queueReservationActive = true)
    (hfail : ∀ x' : Exchange, x'.pushed = x.pushed → Q s false x')
    (hdone : Q s true { x with written := x.written ++
      [(job.rawPath, .blob job.rawContent), (job.manifestPath, .manifest job none)] }) :
    ewp durable (writePendingArtifacts job) Q s x := by
  unfold writePendingArtifacts
  split
  · exact hfail x rfl
  · simp only [Act.wp_bind, Act.wp_ite, Act.wp_pure]
    split
    · exact hfail x rfl
    · refine ewp_call _ hagree ⟨hactive, inOrder_raw hjob _⟩ ?_
      intro rawWritten
      cases rawWritten with
      | false => exact hfail _ rfl
      | true =>
        refine ewp_call _ hagree ⟨hactive, inOrder_manifest hjob none⟩ ?_
        intro manifestWritten
        cases manifestWritten with
        | false => exact hfail _ rfl
        | true => simpa [Exchange.record] using hdone

/-- The reply after the hand-over: the queue may refuse only a message that is already durable. -/
theorem ewp_handOver {job : MailJob} (hjob : job.Filed) (hagree : s.durableAck = durable)
    (hx : x.pushed = [])
    (hdurable : durable = true → ∃ job' : MailJob, job'.Filed ∧
      job = { job' with artifactsPersisted := true } ∧ (∃ s, x.session = some s ∧ job'.Carries s) ∧
      x.written =
        [(job'.rawPath, .blob job'.rawContent), (job'.manifestPath, .manifest job' none)]) :
    ewp durable (handOver job) (Answered durable) s x := by
  unfold handOver
  simp only [Act.wp_bind, Act.wp_get, Act.wp_modify]
  refine ewp_call _ hagree hjob ?_
  intro taken
  refine ewp_clearTransactionState hagree ?_
  intro s' hs'
  simp only [Act.wp_ite, Act.wp_pure]
  split
  · rename_i hlost
    obtain ⟨rfl, -⟩ : taken = false ∧ job.artifactsPersisted = false := by simpa using hlost
    exact .of_notQueued hs' (notQueued_of_code (by decide)) hx
  · refine ⟨hs', ?_, ?_⟩
    · intro hd id hr
      obtain ⟨job', hfiled, rfl, hcarries, hwritten⟩ := hdurable hd
      have hname : job'.messageId = id := by
        simpa [queuedReply] using hr
      refine ⟨job', hfiled, hname, ?_⟩
      cases taken with
      | false => exact ⟨hcarries, hwritten, .inl hx⟩
      | true => exact ⟨hcarries, hwritten, .inr (by simp [Exchange.record, hx])⟩
    · intro reply hr hcode
      cases hr
      exact absurd rfl hcode

theorem ewp_persistAndHandOver {job : MailJob} (hjob : job.Filed) (hcarries : job.Carries s₀)
    (hagree : s.durableAck = durable) (hactive : s.queueReservationActive = true) :
    ewp durable (persistAndHandOver job) (Answered durable) s (.start s₀) := by
  unfold persistAndHandOver
  simp only [Act.wp_bind, Act.wp_get, Act.wp_ite]
  split
  · split
    · exact ewp_clearAndReply hagree (notQueued_of_code (by decide)) rfl
    · refine ewp_writePendingArtifacts hjob hagree hactive ?_ ?_
      · intro x' hx'
        exact ewp_clearAndReply hagree (notQueued_of_code (by decide)) hx'
      · exact ewp_handOver ⟨hjob.raw, hjob.manifest⟩ hagree rfl
          fun _ => ⟨job, hjob, rfl, ⟨s₀, rfl, hcarries⟩, rfl⟩
  · rename_i hoff
    refine ewp_underMaintenance hagree ?_
    intro maintenance
    split
    · exact ewp_clearAndReply hagree (notQueued_of_code (by decide)) rfl
    · refine ewp_handOver hjob hagree rfl ?_
      intro hd
      exact absurd (hagree.trans hd) hoff

theorem ewp_finishData (P : Platform) (hagree : s.durableAck = durable) :
    ewp durable (finishData P) (Answered durable) s (.start s) := by
  unfold finishData
  simp only [Act.wp_bind, Act.wp_get, Act.wp_ite, Act.wp_modify]
  refine ewp_underMaintenance hagree ?_
  intro maintenance
  split
  · exact ewp_clearAndReply hagree (notQueued_of_code (by decide)) rfl
  · refine ewp_call _ hagree trivial ?_
    intro receivedAt
    refine ewp_call _ hagree trivial ?_
    intro messageId
    split
    · exact ewp_clearAndReply hagree (notQueued_of_code (by decide)) rfl
    · rename_i hactive
      split
      · exact ewp_clearAndReply hagree (notQueued_of_code (by decide)) rfl
      · exact ewp_persistAndHandOver ⟨rfl, rfl⟩ ⟨rfl, rfl, rfl⟩ hagree (by simpa using hactive)

/-! ## The other lines -/

theorem ewp_handleDataLine (line : Bytes) (hagree : s.durableAck = durable) :
    ewp durable (handleDataLine line) (Answered durable) s (.start s₀) := by
  have hsilent : ∀ s' : SmtpSession, s'.durableAck = durable → Answered durable s' none (.start s₀) :=
    fun s' hs' => .of_notQueued hs' notQueued_none rfl
  unfold handleDataLine
  simp only [Act.wp_bind, Act.wp_get, Act.wp_ite, Act.wp_modify, Act.wp_pure]
  split
  · exact hsilent s hagree
  · refine ewp_sub (contentOffset_le line) ?_
    split
    · exact ewp_markDataTooLarge hagree hsilent
    · refine ewp_sub (by omega) ?_
      split
      · exact ewp_markDataTooLarge hagree hsilent
      · refine ewp_sub (by omega) ?_
        split
        · exact ewp_markDataTooLarge hagree hsilent
        · split
          · exact hsilent _ hagree
          · refine ewp_ensureDataReservation _ hagree ?_
            intro s' reserved hs'
            split
            · exact ewp_markDataQueueFull hs' hsilent
            · exact hsilent _ hs'

theorem ewp_handleMail (P : Platform) (line : Bytes) (hagree : s.durableAck = durable)
    (hrefuse : ∀ r, parseMail P s line = .error r → NotQueued (some r)) :
    ewp durable (handleMail P line) (Answered durable) s (.start s₀) := by
  have hok : NotQueued (some (reply 250 "OK")) := notQueued_of_head (by decide)
  unfold handleMail
  simp only [Act.wp_bind, Act.wp_get]
  split
  · rename_i r hr
    exact .of_notQueued hagree (hrefuse r hr) rfl
  · simp only [Act.wp_bind, releaseDataBuffer, refreshDomainRules, Act.wp_get, Act.wp_ite,
      Act.wp_modify, Act.wp_pure]
    split
    · exact .of_notQueued hagree hok rfl
    · refine ewp_call _ hagree trivial ?_
      intro refreshed
      cases refreshed with
      | none => exact .of_notQueued hagree hok rfl
      | some rules => exact .of_notQueued hagree hok rfl

/-- Every refusal of `MAIL` has an error code. -/
theorem mailParameters_error {maxMessageSize : Nat} {ps : List EsmtpParameter}
    {declared : Option Nat} {smtputf8 : Bool} {r : Reply}
    (h : mailParameters maxMessageSize ps declared smtputf8 = .error r) : r.code ≠ 250 := by
  fun_induction mailParameters maxMessageSize ps declared smtputf8 with
  | case1 => cases h
  | case2 => cases h; decide
  | case3 => cases h; decide
  | case4 _ _ _ _ _ _ _ _ ih => exact ih h
  | case5 => cases h; decide
  | case6 _ _ _ _ _ _ _ ih => exact ih h
  | case7 => cases h; decide
  | case8 _ _ _ _ _ _ _ _ _ _ ih => exact ih h
  | case9 => cases h; decide
  | case10 => cases h; decide

theorem parseMail_error {P : Platform} {line : Bytes} {r : Reply}
    (h : parseMail P s line = .error r) : r.code ≠ 250 := by
  unfold parseMail at h
  split at h
  · cases h
    decide
  · split at h
    · cases h
      decide
    · rename_i parsed _ _
      cases hparams : mailParameters s.maxMessageSizeBytes parsed.parameters none false with
      | error e =>
        rw [hparams] at h
        cases h
        exact mailParameters_error hparams
      | ok params =>
        rw [hparams] at h
        cases hsender : mailSender P parsed.path params.2 with
        | ok sender => simp [bind, Except.bind, hsender, pure, Except.pure] at h
        | error e =>
          simp only [bind, Except.bind, hsender, Except.error.injEq] at h
          subst h
          unfold mailSender at hsender
          split at hsender
          · cases hsender
          · split at hsender
            · cases hsender
              decide
            · split at hsender
              · cases hsender
                decide
              · cases hsender

theorem ewp_acceptRecipient (rcptTo : Text) (m : DomainMatch) (hagree : s.durableAck = durable) :
    ewp durable (acceptRecipient rcptTo m) (Answered durable) s (.start s₀) := by
  have hok : NotQueued (some (reply 250 "OK")) := notQueued_of_head (by decide)
  unfold acceptRecipient
  simp only [Act.wp_bind, Act.wp_get, Act.wp_ite, Act.wp_pure]
  split
  · exact .of_notQueued hagree hok rfl
  · split
    · exact ewp_call _ hagree trivial
        fun _ => .of_notQueued hagree (notQueued_of_code (by decide)) rfl
    · split
      · exact .of_notQueued hagree (notQueued_of_code (by decide)) rfl
      · simp only [Act.wp_bind, Act.wp_modify, Act.wp_pure]
        exact ewp_call _ hagree trivial fun _ => .of_notQueued hagree hok rfl

theorem ewp_handleRcpt (P : Platform) (line : Bytes) (hagree : s.durableAck = durable) :
    ewp durable (handleRcpt P line) (Answered durable) s (.start s₀) := by
  have hcode : ∀ r : Reply, r.code ≠ 250 → Answered durable s (some r) (.start s₀) :=
    fun r hr => .of_notQueued hagree (notQueued_of_code hr) rfl
  unfold handleRcpt
  simp only [Act.wp_bind, Act.wp_get, Act.wp_ite, Act.wp_pure]
  split
  · exact hcode _ (by decide)
  · split
    · exact hcode _ (by decide)
    · simp only [Act.wp_ite, Act.wp_pure]
      split
      · exact hcode _ (by decide)
      · split
        · exact hcode _ (by decide)
        · split
          · rw [Act.wp_bind]
            exact ewp_call _ hagree trivial fun _ => hcode _ (by decide)
          · exact ewp_acceptRecipient _ _ hagree

theorem ewp_handleData (hagree : s.durableAck = durable) :
    ewp durable handleData (Answered durable) s (.start s₀) := by
  have hcode : ∀ (s' : SmtpSession) (r : Reply), s'.durableAck = durable → r.code ≠ 250 →
      Answered durable s' (some r) (.start s₀) :=
    fun s' r hs' hr => .of_notQueued hs' (notQueued_of_code hr) rfl
  unfold handleData
  simp only [Act.wp_bind, Act.wp_get, Act.wp_ite, Act.wp_pure, releaseDataBuffer, Act.wp_modify]
  split
  · exact hcode _ _ hagree (by decide)
  · refine ewp_underMaintenance hagree ?_
    intro maintenance
    split
    · exact hcode _ _ hagree (by decide)
    · refine ewp_call _ hagree trivial ?_
      intro granted
      cases granted with
      | false => exact hcode _ _ hagree (by decide)
      | true => exact hcode _ _ hagree (by decide)

theorem ewp_handleCommand (P : Platform) (line : Bytes) (hagree : s.durableAck = durable) :
    ewp durable (handleCommand P line) (Answered durable) s (.start s₀) := by
  have hcode : ∀ r : Reply, r.code ≠ 250 → Answered durable s (some r) (.start s₀) :=
    fun r hr => .of_notQueued hagree (notQueued_of_code hr) rfl
  have hline : ∀ (s' : SmtpSession) (code : Nat) (text : Text) (lines : List Text),
      s'.durableAck = durable → text.head? ≠ some 'q' →
      Answered durable s' (some ⟨code, text :: lines⟩) (.start s₀) :=
    fun s' code text lines hs' ht => .of_notQueued hs' (notQueued_of_head ht) rfl
  unfold handleCommand
  simp only [Act.wp_bind, Act.wp_get, Act.wp_ite, Act.wp_pure, Act.wp_modify]
  repeat' split
  all_goals first
    | exact hcode _ (by decide)
    | exact hline _ _ _ _ hagree (by decide)
    | exact ewp_clearTransactionState hagree fun s' hs' => hline _ _ _ _ hs' (by decide)
    | exact ewp_clearAndReply hagree (notQueued_of_head (by decide)) rfl
    | exact ewp_handleMail P line hagree fun r hr => notQueued_of_code (parseMail_error hr)
    | exact ewp_handleRcpt P line hagree
    | exact ewp_handleData hagree

/-- `handle_line` follows the exchange protocol from the record of its line. -/
theorem ewp_handleLine (P : Platform) (line : Bytes) (hagree : s.durableAck = durable) :
    ewp durable (handleLine P line) (Answered durable) s (.start s) := by
  unfold handleLine
  simp only [Act.wp_bind, Act.wp_get, Act.wp_ite]
  split
  · split
    · split
      · exact ewp_clearAndReply hagree (notQueued_of_code (by decide)) rfl
      · split
        · exact ewp_clearAndReply hagree (notQueued_of_code (by decide)) rfl
        · exact ewp_finishData P hagree
    · exact ewp_handleDataLine line hagree
  · exact ewp_handleCommand P line hagree

theorem ewp_rejectOverlongDataLine (hagree : s.durableAck = durable) :
    ewp durable rejectOverlongDataLine (Answered durable) s (.start s₀) := by
  have hsilent : ∀ s' : SmtpSession, s'.durableAck = durable → Answered durable s' none (.start s₀) :=
    fun s' hs' => .of_notQueued hs' notQueued_none rfl
  unfold rejectOverlongDataLine
  simp only [Act.wp_bind, Act.wp_get, Act.wp_ite, Act.wp_pure]
  split
  · exact ewp_markDataTooLarge hagree hsilent
  · exact hsilent s hagree

/-- The destructor writes and pushes nothing. -/
theorem ewp_destroy (hagree : s.durableAck = durable) :
    ewp durable destroy (fun s r _ => s.durableAck = durable ∧ r = none) s x := by
  unfold destroy
  simp only [Act.wp_bind, Act.wp_pure]
  exact ewp_releaseQueueReservation hagree fun _ hs' => ⟨hs', trivial⟩

end SmtpSession

end RapidInbox
