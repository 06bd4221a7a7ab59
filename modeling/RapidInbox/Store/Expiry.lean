import RapidInbox.Store.ExactlyOnce

/-!
# The expiry of a delivery on both commit paths

`write_sqlite_records` takes the retention of the domain that the recipient is routed to, and the
replay of a manifest that of the domain that owns the mailbox.  The two are one domain unless a
mailbox of another domain has the address and the match does not take it over.
-/

namespace RapidInbox

open Table

/-- The accepted domain is as it was at `RCPT TO`: its row is active, the receipt carries its policy,
    and the recipient was accepted under its rule. -/
def RecipientDelivery.Unedited (A : AddressOps) (db : Db) (r : RecipientDelivery) : Prop :=
  ∃ d ∈ db.domains, d.id = r.domainMatch.domainId ∧ d.policy.isActive = true ∧
    r.domainPolicy = some d.policy ∧
    ∃ matcher : DomainMatcher, matcher.matchAddress A r.rcptTo = some r.domainMatch ∧
      ∀ rule ∈ matcher.rules, rule.domainId = d.id → rule = d.rule

/-- The match a recipient is routed to: that of the active managed rules, else the accepted one. -/
def RecipientDelivery.routed (A : AddressOps) (db : Db) (r : RecipientDelivery) : DomainMatch :=
  (BatchWriter.managedNow A db r).getD r.domainMatch

namespace Db

/-- The days for which a domain keeps its mail; without a positive number it keeps it for ever. -/
def keptDays (db : Db) (domainId : Nat) : Option Int :=
  ((db.domain? domainId).bind fun d => d.policy.retentionDays).filter (0 < ·)

/-- A match takes over the mailbox with its address: it is managed, and the mailbox, if there is one,
    belongs to its domain, to the catch-all domain or to a domain that its root extends. -/
def takesOver (db : Db) (m : DomainMatch) : Bool := m.managed && !db.blocked m

/-- The mailbox with the address is taken over, or its owner keeps mail as long as the domain of the
    match. -/
def ExpiryAgrees (db : Db) (m : DomainMatch) : Prop :=
  db.takesOver m = true ∨ db.keptDays (db.holder m) = db.keptDays m.domainId

instance (db : Db) (m : DomainMatch) : Decidable (db.ExpiryAgrees m) :=
  inferInstanceAs (Decidable (_ ∨ _))

end Db

namespace RecipientDelivery.Unedited

variable {A B : AddressOps} {db db' : Db} {r : RecipientDelivery}

theorem accepted (h : r.Unedited A db) : r.Accepted A := by
  obtain ⟨-, -, -, -, -, matcher, hmatch, -⟩ := h
  exact ⟨matcher, hmatch⟩

theorem congr (hdomains : db'.domains = db.domains) (h : r.Unedited A db) : r.Unedited A db' := by
  unfold RecipientDelivery.Unedited
  rw [hdomains]
  exact h

theorem hasDomain (h : r.Unedited A db) : db.HasDomain r.domainMatch := by
  obtain ⟨d, hd, hid, -, -, matcher, hmatch, hrule⟩ := h
  obtain ⟨rule, hmem, hrid, hroot⟩ := DomainMatcher.rule_of_matchAddress hmatch
  rw [hrule rule hmem (hrid.symm.trans hid.symm)] at hroot
  exact ⟨d, hd, hid, hroot.symm⟩

theorem domainActive (hdb : db.Consistent) (h : r.Unedited A db) :
    db.domainActive r.domainMatch.domainId = true := by
  obtain ⟨d, hd, hid, hactive, -⟩ := h
  rw [← hid, BatchWriter.domainActive_iff hdb hd]
  exact hactive

/-- The row of the accepted domain has the policy of the receipt. -/
theorem domain?_eq (hdb : db.Consistent) (h : r.Unedited A db) :
    ∃ d, db.domain? r.domainMatch.domainId = some d ∧
      d.rootDomainAscii = r.domainMatch.rootDomainAscii ∧ r.domainPolicy = some d.policy := by
  obtain ⟨e, he, heid, heroot⟩ := h.hasDomain
  obtain ⟨d, hd, hid, -, hpolicy, -⟩ := h
  rw [hdb.domain_ids.eq_of_mem he hd (heid.trans hid.symm)] at heroot
  exact ⟨d, hdb.domain_ids.find?_eq_some hd hid, heroot, hpolicy⟩

/-- The catch-all rule still gives the match that it accepted. -/
theorem catchAllMatch_eq (hA : A.Lawful) (hdb : db.Consistent) (h : r.Unedited A db)
    (hmanaged : r.domainMatch.managed = false) :
    BatchWriter.catchAllMatch A db r.rcptTo = some r.domainMatch := by
  obtain ⟨e, he, heid, heroot⟩ := h.hasDomain
  obtain ⟨d, hd, hid, hactive, -, matcher, hmatch, hrules⟩ := h
  obtain rfl := hdb.domain_ids.eq_of_mem he hd (heid.trans hid.symm)
  obtain ⟨parsed, rule, hparse, hrule, hfound⟩ := DomainMatcher.matchAddress_eq_some hmatch
  have hmem : rule ∈ matcher.rules := by
    rcases hfound with hfound | ⟨-, hfound⟩
    · exact (DomainMatcher.mem_of_suffixRule hfound).1
    · exact (DomainMatcher.mem_of_findRule hfound).1
  obtain ⟨canonical, -, hm⟩ := ruleMatch_eq_some hrule
  have hruleId : rule.domainId = e.id := by
    rw [hid, hm]
  rw [hrules rule hmem hruleId] at hrule
  rw [DomainMatch.managed, decide_eq_false_iff_not, not_not, ← heroot] at hmanaged
  have hactiveRule : db.activeRule? catchAllRoot = some e.rule := by
    unfold Db.activeRule?
    cases hfind : db.domains.find? fun d => d.rootDomainAscii = catchAllRoot && d.policy.isActive with
    | none =>
      rw [List.find?_eq_none] at hfind
      exact absurd (by simp [hmanaged, hactive]) (hfind e he)
    | some d' =>
      have hsat := List.find?_some hfind
      rw [Bool.and_eq_true, decide_eq_true_iff] at hsat
      rw [hdb.domain_roots.eq_of_mem (List.mem_of_find?_eq_some hfind) he (hsat.1.trans hmanaged.symm)]
      rfl
  rw [BatchWriter.catchAllMatch_eq hparse (parse_normalized hA hparse), hactiveRule, Option.bind_some,
    hrule]

/-- The commit routes the recipient by the active managed rules. -/
theorem currentMatch_eq (hA : A.Lawful) (hdb : db.Consistent) (h : r.Unedited A db) :
    BatchWriter.currentMatch A db r = r.routed A db := by
  rw [BatchWriter.currentMatch_eq hA hdb h.hasDomain h.accepted, if_pos (h.domainActive hdb)]
  unfold RecipientDelivery.routed
  congr 1
  split
  · rfl
  · rename_i hmanaged
    rw [h.catchAllMatch_eq hA hdb (Bool.eq_false_iff.mpr hmanaged), Option.getD_some]

/-- So does the recovery, up to the spelling of the local part. -/
theorem ownershipMatch_eq (hA : A.Lawful) (hB : B.Lawful) (hdb : db.Consistent)
    (hnorm : db.RootsNormalized) (hagree : A.AgreeOn B r.rcptTo) (h : r.Unedited A db) :
    ∃ localPart, db.ownershipMatch B r.receipt r.domainMatch.domainId =
      .ok { r.routed A db with localPart := localPart } := by
  rw [BatchWriter.ownershipMatch_eq hA hB hnorm h.accepted hagree]
  unfold RecipientDelivery.routed
  cases BatchWriter.managedNow A db r with
  | some current => exact ⟨current.localPart, rfl⟩
  | none =>
    rw [Option.getD_none, Option.getD_none]
    split
    · exact ⟨_, rfl⟩
    · rename_i hcond
      rw [Bool.or_eq_true, not_or, Bool.not_eq_true] at hcond
      rw [h.catchAllMatch_eq hA hdb hcond.1, Option.getD_some]
      exact ⟨_, rfl⟩

end RecipientDelivery.Unedited

/-! ## The two retentions -/

section

variable {A B : AddressOps} {db db' : Db} {r : RecipientDelivery} {job : MailJob}

/-- The commit takes the retention of the domain of the match. -/
theorem BatchWriter.retentionDays_eq (hdb : db.Consistent) (h : r.Unedited A db) (m : DomainMatch) :
    BatchWriter.retentionDays db r m = (db.domain? m.domainId).bind fun d => d.policy.retentionDays := by
  unfold BatchWriter.retentionDays
  split
  · rename_i hsame
    obtain ⟨d, hd, -, hpolicy⟩ := h.domain?_eq hdb
    rw [hsame, hd, hpolicy]
    rfl
  · rfl

/-- The delivery that the commit inserts. -/
theorem BatchWriter.storeRecipient_row {m : DomainMatch}
    (h : BatchWriter.storeRecipient A job r m db = .ok db') :
    ∃ row, db'.deliveries.getLast? = some row ∧ row.id = r.deliveryId ∧
      row.expiresAt =
        BatchWriter.expiresAt job.receivedAt (BatchWriter.retentionDays db r m) := by
  have hdomains := (BatchWriter.storeRecipient_mailOnly h).domains
  unfold BatchWriter.storeRecipient at h
  dsimp only at h
  split at h
  · cases h
  · split at h
    · cases h
    · obtain ⟨-, -, rfl⟩ := Db.insertDelivery_ok h
      refine ⟨_, List.getLast?_concat, rfl, ?_⟩
      dsimp only
      congr 1
      unfold BatchWriter.retentionDays Db.domain?
      unfold Db.addDelivery at hdomains
      dsimp only at hdomains
      rw [hdomains]

/-- The replay takes the retention of the owner of the mailbox. -/
theorem Db.recoveryRetentionDays_eq {mailboxId domainId : Nat} (hdb : db.Consistent)
    (h : r.Unedited A db) {address : Text} (hentry : db.Entry mailboxId address domainId) :
    db.recoveryRetentionDays r.receipt mailboxId =
      (db.domain? domainId).bind fun d => d.policy.retentionDays := by
  obtain ⟨b, hb, hid, -, rfl⟩ := hentry
  obtain ⟨owner, howner, hownerId⟩ := hdb.mailbox_domains b hb
  have hbox : db.mailbox? mailboxId = some b := hdb.mailbox_ids.find?_eq_some hb hid
  have hdomain : db.domain? b.domainId = some owner := hdb.domain_ids.find?_eq_some howner hownerId
  obtain ⟨d, hd, hroot, hpolicy⟩ := h.domain?_eq hdb
  unfold Db.recoveryRetentionDays
  rw [hbox, Option.bind_some, hdomain, show r.receipt.domainPolicy = some d.policy from hpolicy]
  dsimp only
  split
  · rfl
  · rename_i hsame
    have hsame' : owner.rootDomainAscii = d.rootDomainAscii := by
      rw [hroot]
      rw [Option.any_some, decide_eq_true_iff, not_not] at hsame
      exact hsame
    rw [hdb.domain_roots.eq_of_mem howner (find?_key hd).1 hsame']
    rfl

/-- The replay of a receipt finds the mailbox of the match it is routed to, and adds no domain. -/
theorem Db.recoveryMailbox_unedited (hA : A.Lawful) (hB : B.Lawful) (hdb : db.Consistent)
    (hnorm : db.RootsNormalized) (h : r.Unedited A db) (hagree : A.AgreeOn B r.rcptTo)
    {receivedAt : Timestamp} {mailboxId : Nat} {opened : Db}
    (hensure : db.ensureRecoveryMailboxRecord B r.receipt receivedAt = .ok (mailboxId, opened)) :
    opened.Consistent ∧ opened.domains = db.domains ∧
      opened.Entry mailboxId (r.routed A db).addressCanonical (db.recoveryDomain (r.routed A db)) := by
  obtain ⟨localPart, hm⟩ := h.ownershipMatch_eq hA hB hdb hnorm hagree
  obtain ⟨d, hd, hid, hroot⟩ : db.HasDomain (r.routed A db) :=
    h.currentMatch_eq hA hdb ▸ BatchWriter.currentMatch_hasDomain h.hasDomain
  obtain ⟨id, db', hbox, hentry⟩ := Db.recoveryMailbox_entry hdb
    (m := { r.routed A db with localPart := localPart }) ⟨d, hd, hid⟩
    r.domainMatch.addressCanonical receivedAt
  have hedits : Edits (serviceRules (fun _ => True) fun _ => True) db opened :=
    Db.ensureRecoveryMailboxRecord_edits hB hdb trivial hensure
  cases hensure.symm.trans
    ((BatchWriter.ensureRecoveryMailboxRecord_eq hdb h.hasDomain hm receivedAt).trans hbox)
  have hmail : Edits (serviceRules (fun _ => True) fun _ => True) db opened ∧ db.MailOnly opened :=
    Db.recoveryMailbox_edits (fun _ => ⟨d, hd, hid, hroot⟩) hbox
  exact ⟨Edits.consistent hdb hedits, hmail.2.domains, hentry⟩

/-- The replay of one receipt leaves the domains as they are. -/
theorem Db.recoverRecipient_domains (hA : A.Lawful) (hB : B.Lawful) (hdb : db.Consistent)
    (hnorm : db.RootsNormalized) (h : r.Unedited A db) (hagree : A.AgreeOn B r.rcptTo)
    {f : RecoveryManifest} {deliveryId : Text} {mailboxId n : Nat}
    (hstep : db.recoverRecipient B f deliveryId r.receipt = .ok (mailboxId, n, db')) :
    db'.Consistent ∧ db'.domains = db.domains := by
  have hedits : Edits (serviceRules (fun _ => True) fun _ => True) db db' :=
    Db.recoverRecipient_edits hB hdb trivial trivial hstep
  refine ⟨Edits.consistent hdb hedits, ?_⟩
  unfold Db.recoverRecipient at hstep
  split at hstep
  · cases hstep
  · rename_i box opened hensure
    have hdomains := (Db.recoveryMailbox_unedited hA hB hdb hnorm h hagree hensure).2.1
    split at hstep
    · cases hstep
    · split at hstep
      · cases hstep
      · rename_i stored hinsert
        cases hstep
        unfold Db.insertDeliveryOrIgnore at hinsert
        split at hinsert
        · cases hinsert
          exact hdomains
        · split at hinsert
          · cases hinsert
            exact hdomains
          · cases hinsert

/-- The delivery that the replay inserts. -/
theorem Db.recoverRecipient_row (hA : A.Lawful) (hB : B.Lawful) (hdb : db.Consistent)
    (hnorm : db.RootsNormalized) (h : r.Unedited A db) (hagree : A.AgreeOn B r.rcptTo)
    {f : RecoveryManifest} {deliveryId : Text} {mailboxId : Nat}
    (hstep : db.recoverRecipient B f deliveryId r.receipt = .ok (mailboxId, 1, db')) :
    ∃ row, db'.deliveries.getLast? = some row ∧ row.id = deliveryId ∧
      deliveryExpiresAt f.receivedAt ((db.domain? (db.recoveryDomain (r.routed A db))).bind fun d =>
        d.policy.retentionDays) = .ok row.expiresAt := by
  unfold Db.recoverRecipient at hstep
  split at hstep
  · cases hstep
  · rename_i box opened hensure
    obtain ⟨hopened, hdomains, hentry⟩ :=
      Db.recoveryMailbox_unedited hA hB hdb hnorm h hagree hensure
    have hdomain : opened.domain? = db.domain? := by
      unfold Db.domain?
      rw [hdomains]
    rw [Db.recoveryRetentionDays_eq hopened (h.congr hdomains) hentry, hdomain] at hstep
    split at hstep
    · cases hstep
    · rename_i expiresAt hexpires
      unfold Db.insertDeliveryOrIgnore at hstep
      split at hstep
      · cases hstep
      · rename_i n stored hinsert
        split at hinsert
        · cases hinsert
          cases hstep
        · split at hinsert
          · cases hinsert
            cases hstep
            exact ⟨_, List.getLast?_concat, rfl, hexpires⟩
          · cases hinsert

theorem deliveryExpiresAt_ok {t : Timestamp} {days : Option Int} {e : Option Timestamp}
    (h : deliveryExpiresAt t days = .ok e) : e = BatchWriter.expiresAt t days := by
  unfold deliveryExpiresAt at h
  unfold BatchWriter.expiresAt
  cases days with
  | none =>
    cases h
    rfl
  | some days =>
    dsimp only at h ⊢
    split at h
    · rename_i hneg
      cases h
      rw [if_neg (by omega)]
    · rename_i hpos
      split at h
      · cases h
      · cases h
        rw [if_pos (by omega)]

/-- Two retentions give one expiry exactly when they keep mail for the same time. -/
theorem expiresAt_inj (t : Timestamp) (a b : Option Int) :
    BatchWriter.expiresAt t a = BatchWriter.expiresAt t b ↔
      a.filter (0 < ·) = b.filter (0 < ·) := by
  have hread (days : Option Int) : BatchWriter.expiresAt t days =
      (days.filter (0 < ·)).map fun days => t + 86400 * days.toNat := by
    unfold BatchWriter.expiresAt
    cases days with
    | none => rfl
    | some days =>
      dsimp only
      by_cases hpos : 0 < days
      · simp [hpos, Option.filter]
      · simp [hpos, Option.filter]
  rw [hread, hread]
  constructor
  · intro h
    cases ha : a.filter (0 < ·) with
    | none =>
      rw [ha] at h
      exact (Option.map_eq_none_iff.mp h.symm).symm
    | some x =>
      cases hb : b.filter (0 < ·) with
      | none =>
        rw [ha, hb] at h
        cases h
      | some y =>
        rw [ha, hb] at h
        have hx : 0 < x := by simpa using (Option.filter_eq_some_iff.mp ha).2
        have hy : 0 < y := by simpa using (Option.filter_eq_some_iff.mp hb).2
        have heq : 86400 * x.toNat = 86400 * y.toNat := Nat.add_left_cancel (Option.some.inj h)
        have hxy : x = y := by omega
        rw [hxy]
  · intro h
    rw [h]

end

/-! ## The two runs -/

section

variable {A B : AddressOps} {db : Db} {job : MailJob} {result : ParseResult} {f : RecoveryManifest}
  {deliveryIds : Nat → Text}

/-- The row that the commit of a job from `db` inserts for the recipient with index `i`. -/
def BatchWriter.insertedRow? (A : AddressOps) (db : Db) (job : MailJob) (result : ParseResult)
    (i : Nat) : Option DeliveryRow :=
  match job.recipients[i]?, (BatchWriter.upsertSession db job).insertMessage
      (BatchWriter.messageRow job result) with
  | some r, .ok accepted =>
    match BatchWriter.insertAttachments accepted job result with
    | .error _ => none
    | .ok staged =>
      match BatchWriter.storeRecipients A job (job.recipients.take i) [] staged with
      | .error _ => none
      | .ok (_, before) =>
        match BatchWriter.currentDomainMatch A before r with
        | .error _ => none
        | .ok m =>
          match BatchWriter.storeRecipient A job r m before with
          | .error _ => none
          | .ok after => after.deliveries.getLast?
  | _, _ => none

/-- The row that the replay of a manifest from `db` inserts for the recipient with index `i`, and the
    database in which it reaches that recipient. -/
def Db.replayedRow? (B : AddressOps) (db : Db) (f : RecoveryManifest) (job : MailJob)
    (deliveryIds : Nat → Text) (i : Nat) : Option (Db × DeliveryRow) :=
  match job.recipients[i]?, db.insertMessageOrIgnore (f.messageRow (db.recoverySession f)) with
  | some r, .ok (_, opened) =>
    match Db.recoverRecipients B f (((Db.deliveryPairs job deliveryIds).take i).map fun x =>
        (x.1, x.2.receipt)) opened with
    | .error _ => none
    | .ok (_, _, before) =>
      match before.recoverRecipient B f (deliveryIds i) r.receipt with
      | .ok (_, 1, after) => after.deliveries.getLast?.map fun row => (before, row)
      | _ => none
  | _, _ => none

/-- The loop of the commit leaves the domains as they are, so the row goes by those of `db`. -/
theorem BatchWriter.insertedRow?_expiry (hA : A.Lawful) (hdb : db.Consistent) (hnorm : db.RootsNormalized)
    {i : Nat} {r : RecipientDelivery} (hr : job.recipients[i]? = some r) (hunedited : r.Unedited A db)
    {row : DeliveryRow} (h : BatchWriter.insertedRow? A db job result i = some row) :
    row.expiresAt = BatchWriter.expiresAt job.receivedAt
      ((db.domain? (r.routed A db).domainId).bind fun d => d.policy.retentionDays) := by
  obtain ⟨accepted, staged, n, before, m, after, hmessage, hattachments, hloop, hmatch, hstore, hrow⟩ :
      ∃ accepted staged n before m after,
        (BatchWriter.upsertSession db job).insertMessage (BatchWriter.messageRow job result) =
            .ok accepted ∧
          BatchWriter.insertAttachments accepted job result = .ok staged ∧
          BatchWriter.storeRecipients A job (job.recipients.take i) [] staged = .ok (n, before) ∧
          BatchWriter.currentDomainMatch A before r = .ok m ∧
          BatchWriter.storeRecipient A job r m before = .ok after ∧
          after.deliveries.getLast? = some row := by
    unfold BatchWriter.insertedRow? at h
    rw [hr] at h
    split at h
    · rename_i r' accepted hsome hmessage
      cases hsome
      split at h
      · cases h
      · rename_i staged hattachments
        split at h
        · cases h
        · rename_i n before hloop
          split at h
          · cases h
          · rename_i m hmatch
            split at h
            · cases h
            · rename_i after hstore
              exact ⟨accepted, staged, n, before, m, after, hmessage, hattachments, hloop, hmatch,
                hstore, h⟩
    · cases h
  have hedits : Edits (idRules (fun _ => True) fun _ => True) db staged :=
    ((Edits.single (BatchWriter.upsertSession_edit job)).tail (.addMessage hmessage trivial)).trans
      (BatchWriter.insertAttachments_edits hattachments).1
  have hstaged := Edits.consistent hdb hedits
  have hsame := ((upsertSession_sameMail db job).trans (Db.insertMessage_sameMail hmessage)).trans
    (insertAttachments_sameMail hattachments)
  have hdomains : before.domains = db.domains :=
    (BatchWriter.storeRecipients_mailOnly hstaged hloop).domains.trans hsame.domains
  have hm : m = r.routed A db := by
    rw [BatchWriter.currentDomainMatch_congr hdomains,
      BatchWriter.currentDomainMatch_eq hA hdb hnorm hunedited.hasDomain,
      hunedited.currentMatch_eq hA hdb] at hmatch
    exact (Except.ok.inj hmatch).symm
  subst hm
  obtain ⟨row', hrow', -, hexpires⟩ := BatchWriter.storeRecipient_row hstore
  cases hrow.symm.trans hrow'
  have hread : BatchWriter.retentionDays before r (r.routed A db) =
      BatchWriter.retentionDays db r (r.routed A db) := by
    unfold BatchWriter.retentionDays Db.domain?
    rw [hdomains]
  rw [hexpires, hread, BatchWriter.retentionDays_eq hdb hunedited]

/-- The replay of unedited receipts leaves the domains as they are. -/
theorem Db.recoverRecipients_domains (hA : A.Lawful) (hB : B.Lawful) {db before : Db}
    (hdb : db.Consistent) (hnorm : db.RootsNormalized) {pairs : List (Text × RecipientDelivery)}
    (hunedited : ∀ x ∈ pairs, x.2.Unedited A db) (hagree : ∀ x ∈ pairs, A.AgreeOn B x.2.rcptTo)
    {ids : List Nat} {n : Nat}
    (h : Db.recoverRecipients B f (pairs.map fun x => (x.1, x.2.receipt)) db = .ok (ids, n, before)) :
    before.Consistent ∧ before.domains = db.domains := by
  induction pairs generalizing db ids n with
  | nil =>
    cases h
    exact ⟨hdb, rfl⟩
  | cons x rest ih =>
    rw [List.map_cons, Db.recoverRecipients] at h
    split at h
    · cases h
    · rename_i box k next hone
      obtain ⟨hnext, hdomains⟩ := Db.recoverRecipient_domains hA hB hdb hnorm
        (hunedited x List.mem_cons_self) (hagree x List.mem_cons_self) hone
      split at h
      · cases h
      · rename_i ids' k' last hrest
        cases h
        have hnorm' : next.RootsNormalized := by
          unfold Db.RootsNormalized
          rw [hdomains]
          exact hnorm
        obtain ⟨hlast, hdomains'⟩ := ih hnext hnorm'
          (fun y hy => (hunedited y (List.mem_cons_of_mem _ hy)).congr hdomains)
          (fun y hy => hagree y (List.mem_cons_of_mem _ hy)) hrest
        exact ⟨hlast, hdomains'.trans hdomains⟩

/-- The two paths give the delivery of a recipient the same expiry exactly when the match it is routed
    to takes over the mailbox with its address, as the replay finds it, or the owner of that mailbox
    keeps mail as long as the domain of the match. -/
theorem expiry_agrees_iff (hA : A.Lawful) (hB : B.Lawful) (hdb : db.Consistent)
    (hnorm : db.RootsNormalized) (hf : f.Describes job)
    (hunedited : ∀ r ∈ job.recipients, r.Unedited A db)
    (hagree : ∀ r ∈ job.recipients, A.AgreeOn B r.rcptTo) {i : Nat} {r : RecipientDelivery}
    (hr : job.recipients[i]? = some r) {before : Db} {committed replayed : DeliveryRow}
    (hcommit : BatchWriter.insertedRow? A db job result i = some committed)
    (hreplay : db.replayedRow? B f job deliveryIds i = some (before, replayed)) :
    committed.expiresAt = replayed.expiresAt ↔ before.ExpiryAgrees (r.routed A db) := by
  have hmem : r ∈ job.recipients := List.mem_of_getElem? hr
  have hcommitted := BatchWriter.insertedRow?_expiry hA hdb hnorm hr (hunedited r hmem) hcommit
  obtain ⟨inserted, opened, ids, n, mailboxId, after, hmessage, hloop, hstep, hrow⟩ :
      ∃ inserted opened ids n mailboxId after,
        db.insertMessageOrIgnore (f.messageRow (db.recoverySession f)) = .ok (inserted, opened) ∧
          Db.recoverRecipients B f (((Db.deliveryPairs job deliveryIds).take i).map fun x =>
            (x.1, x.2.receipt)) opened = .ok (ids, n, before) ∧
          before.recoverRecipient B f (deliveryIds i) r.receipt = .ok (mailboxId, 1, after) ∧
          after.deliveries.getLast? = some replayed := by
    unfold Db.replayedRow? at hreplay
    rw [hr] at hreplay
    split at hreplay
    · rename_i r' inserted opened hsome hmessage
      cases hsome
      split at hreplay
      · cases hreplay
      · rename_i ids n before' hloop
        split at hreplay
        · rename_i mailboxId after hstep
          obtain ⟨row, hrow, heq⟩ := Option.map_eq_some_iff.mp hreplay
          cases heq
          exact ⟨inserted, opened, ids, n, mailboxId, after, hmessage, hloop, hstep, hrow⟩
        · cases hreplay
    · cases hreplay
  have hsame := Db.insertMessageOrIgnore_sameMail hmessage
  have hedits : Edits (idRules (fun _ => True) fun _ => True) db opened :=
    Db.insertMessageOrIgnore_edits hmessage trivial
  have hpairs : ∀ x ∈ (Db.deliveryPairs job deliveryIds).take i, x.2 ∈ job.recipients := by
    intro x hx
    rw [← Db.deliveryPairs_snd job deliveryIds]
    exact List.mem_map_of_mem (List.mem_of_mem_take hx)
  have hnormOpened : opened.RootsNormalized := by
    unfold Db.RootsNormalized
    rw [hsame.domains]
    exact hnorm
  obtain ⟨hbefore, hloopDomains⟩ := Db.recoverRecipients_domains hA hB (Edits.consistent hdb hedits)
    hnormOpened (fun x hx => (hunedited _ (hpairs x hx)).congr hsame.domains)
    (fun x hx => hagree _ (hpairs x hx)) hloop
  have hdomains : before.domains = db.domains := hloopDomains.trans hsame.domains
  have hnormBefore : before.RootsNormalized := by
    unfold Db.RootsNormalized
    rw [hdomains]
    exact hnorm
  obtain ⟨row, hrow', -, hexpires⟩ := Db.recoverRecipient_row hA hB hbefore hnormBefore
    ((hunedited r hmem).congr hdomains) (hagree r hmem) hstep
  cases hrow.symm.trans hrow'
  have hrouted : r.routed A before = r.routed A db := by
    unfold RecipientDelivery.routed BatchWriter.managedNow
    rw [BatchWriter.managedCandidates_congr hdomains]
  have hdomain : db.domain? = before.domain? := by
    unfold Db.domain?
    rw [hdomains]
  rw [hcommitted, deliveryExpiresAt_ok hexpires, hrouted, hf.receivedAt, hdomain, expiresAt_inj]
  generalize r.routed A db = m
  have howner : before.recoveryDomain m = if before.takesOver m then m.domainId else before.holder m :=
    rfl
  unfold Db.ExpiryAgrees
  rw [howner]
  by_cases htakes : before.takesOver m = true
  · rw [if_pos htakes]
    exact ⟨fun _ => .inl htakes, fun _ => rfl⟩
  · rw [if_neg htakes, or_iff_right htakes]
    exact eq_comm

end

/-! ## A promotion, and a mailbox that a catch-all match does not take over -/

namespace BatchWriter

/-- Seven days for the mail of a domain. -/
def weekPayload : DomainPayload := { DomainPayload.unset with retentionDays := some (some 7) }

/-- `u@example.com`, accepted by the catch-all rule. -/
def catchAllRecipient (deliveryId : String) (policy : Option DomainPolicySnapshot) : RecipientDelivery :=
  { sampleRecipient deliveryId (sampleMatch 1 "*" "u" "example.com") with domainPolicy := policy }

/-- A catch-all mailbox, and then a managed domain for its address. -/
def promotedDb : Db :=
  Db.empty.run .ascii
    [.syncCatchAll true false false (some 3) 1000,
     .commit [sampleJob "m1" 10 [catchAllRecipient "d1" none]],
     .createDomain "example.com".toList "r1".toList weekPayload]

/-- A mailbox of a managed domain, which has been deactivated since. -/
def heldDb : Db :=
  Db.empty.run .ascii
    [.syncCatchAll true false false none 1000,
     .createDomain "example.com".toList "r1".toList weekPayload,
     .commit [sampleJob "m1" 10 [sampleRecipient "d1" (sampleMatch 2 "example.com" "u" "example.com")]],
     .updateDomain 2 "r2".toList { DomainPayload.unset with isActive := some false }]

/-- The next recipient with the address, and its message. -/
def nextRecipient (db : Db) : RecipientDelivery :=
  catchAllRecipient "d2" ((db.domain? 1).map fun d => d.policy)

def nextJob (db : Db) : MailJob × ParseResult := sampleJob "m2" 20 [nextRecipient db]

/-- A recipient that the rule of its active row accepts alone. -/
theorem unedited_of_row {A : AddressOps} {db : Db} {r : RecipientDelivery}
    (h : ((db.domain? r.domainMatch.domainId).any fun d =>
      d.policy.isActive && r.domainPolicy = some d.policy &&
        (DomainMatcher.mk [d.rule]).matchAddress A r.rcptTo = some r.domainMatch) = true) :
    r.Unedited A db := by
  cases hd : db.domain? r.domainMatch.domainId with
  | none =>
    rw [hd] at h
    cases h
  | some d =>
    rw [hd, Option.any_some, Bool.and_eq_true, Bool.and_eq_true, decide_eq_true_iff,
      decide_eq_true_iff] at h
    obtain ⟨⟨hactive, hpolicy⟩, hmatch⟩ := h
    obtain ⟨hmem, hid⟩ := find?_key hd
    exact ⟨d, hmem, hid, hactive, hpolicy, _, hmatch, fun rule hrule _ => List.mem_singleton.mp hrule⟩

end BatchWriter

open BatchWriter in
/-- The mailbox is promoted on both paths, and both keep the message for a week. -/
theorem expiry_agrees_promoted :
    ∃ committed before replayed,
      insertedRow? (cppAddressOps .asciiOnly) promotedDb (nextJob promotedDb).1 (.failed []) 0 =
          some committed ∧
        promotedDb.replayedRow? (pyAddressOps .asciiOnly) (samplePending (nextJob promotedDb).1)
          (nextJob promotedDb).1 (fun _ => "x".toList) 0 = some (before, replayed) ∧
        committed.expiresAt = some (20 + 7 * 86400) ∧ committed.expiresAt = replayed.expiresAt := by
  have hcommit : (insertedRow? (cppAddressOps .asciiOnly) promotedDb (nextJob promotedDb).1
      (.failed []) 0).map (fun row => row.expiresAt) = some (some (20 + 7 * 86400)) := by
    decide +kernel
  have hreplay : (promotedDb.replayedRow? (pyAddressOps .asciiOnly)
      (samplePending (nextJob promotedDb).1) (nextJob promotedDb).1 (fun _ => "x".toList) 0).map
        (fun x => decide (x.1.ExpiryAgrees
          ((nextRecipient promotedDb).routed (cppAddressOps .asciiOnly) promotedDb))) = some true := by
    decide +kernel
  obtain ⟨committed, hcommit, hexpires⟩ := Option.map_eq_some_iff.mp hcommit
  obtain ⟨⟨before, replayed⟩, hreplay, hagrees⟩ := Option.map_eq_some_iff.mp hreplay
  have hdb : promotedDb.Consistent := Db.run_consistent Db.empty_consistent _
  have hnorm : promotedDb.RootsNormalized :=
    Db.rootsNormalized_of_fixed (cppAddressOps_lawful .asciiOnly) (by decide +kernel)
  have hunedited : ∀ r ∈ (nextJob promotedDb).1.recipients,
      r.Unedited (cppAddressOps .asciiOnly) promotedDb := by
    intro r hr
    rw [List.mem_singleton.mp hr]
    exact unedited_of_row (by decide +kernel)
  have hagree : ∀ r ∈ (nextJob promotedDb).1.recipients,
      (cppAddressOps .asciiOnly).AgreeOn (pyAddressOps .asciiOnly) r.rcptTo :=
    fun r hr => ⟨by revert r; decide +kernel, fun _ _ _ _ => rfl⟩
  refine ⟨committed, before, replayed, hcommit, hreplay, hexpires, ?_⟩
  exact (expiry_agrees_iff (cppAddressOps_lawful _) (pyAddressOps_lawful _) hdb hnorm
    (samplePending_describes _) hunedited hagree (i := 0) rfl hcommit hreplay).mpr
      (of_decide_eq_true hagrees)

open BatchWriter in
/-- A managed domain is inactive, its mailbox is still there and the catch-all rule accepts the
    address: the commit keeps the message for ever, as the catch-all rule says, and the replay for the
    seven days of the domain. -/
theorem expiry_differs_held :
    (∀ r ∈ (nextJob heldDb).1.recipients, r.Unedited (cppAddressOps .asciiOnly) heldDb) ∧
      (samplePending (nextJob heldDb).1).Describes (nextJob heldDb).1 ∧
      (insertedRow? (cppAddressOps .asciiOnly) heldDb (nextJob heldDb).1 (.failed []) 0).map
          (fun row => row.expiresAt) = some none ∧
        (heldDb.replayedRow? (pyAddressOps .asciiOnly) (samplePending (nextJob heldDb).1)
            (nextJob heldDb).1 (fun _ => "x".toList) 0).map (fun x => x.2.expiresAt) =
          some (some (20 + 7 * 86400)) := by
  refine ⟨?_, samplePending_describes _, by decide +kernel, by decide +kernel⟩
  intro r hr
  rw [List.mem_singleton.mp hr]
  exact unedited_of_row (by decide +kernel)

end RapidInbox
