import RapidInbox.Lib.Focus
import RapidInbox.Store.Rematch

/-!
# The recipient loop of a commit

The invariant of the loop: every recipient stored so far has one delivery, in the mailbox with the
address of its match.  The next recipient cannot be stored exactly when its mailbox is, or takes in,
a mailbox that already holds the message.
-/

namespace RapidInbox

open Table

namespace Db

variable {db db' : Db}

/-- Whether a domain id is that of the catch-all domain. -/
def catchAllDomain (db : Db) (domainId : Nat) : Bool :=
  (db.domain? domainId).map DomainRow.rootDomainAscii = some catchAllRoot

theorem isCatchAll_eq (b : MailboxRow) : db.isCatchAll b = db.catchAllDomain b.domainId := rfl

/-- Whether the mailbox with an address belongs to a managed domain. -/
def managedAt (db : Db) (address : Text) : Bool :=
  (db.mailboxAt? address).any fun b => !db.isCatchAll b

theorem managedAt_iff (hdb : db.Consistent) {address : Text} :
    db.managedAt address = true ↔
      ∃ id domainId, db.Entry id address domainId ∧ db.catchAllDomain domainId = false := by
  unfold managedAt
  constructor
  · intro h
    obtain ⟨b, hb, hmanaged⟩ := (Option.any_eq_true _ _).mp h
    exact ⟨b.id, b.domainId, entry_of_mailboxAt? hb, by simpa [isCatchAll_eq] using hmanaged⟩
  · rintro ⟨id, domainId, hentry, hmanaged⟩
    obtain ⟨b, hb, -, rfl⟩ := hentry.mailboxAt? hdb
    rw [hb, Option.any_some]
    simpa [isCatchAll_eq] using hmanaged

theorem catchAllDomain_congr (h : db'.domains = db.domains) (domainId : Nat) :
    db'.catchAllDomain domainId = db.catchAllDomain domainId := by
  unfold catchAllDomain domain?
  rw [h]

/-- A match is managed when its domain is. -/
theorem HasDomain.catchAllDomain (hdb : db.Consistent) {m : DomainMatch} (h : db.HasDomain m) :
    db.catchAllDomain m.domainId = !m.managed := by
  obtain ⟨d, hd, hid, hroot⟩ := h
  unfold Db.catchAllDomain DomainMatch.managed
  rw [domain?, hdb.domain_ids.find?_eq_some hd hid, Option.map_some, hroot]
  simp

end Db

namespace BatchWriter

open Db

/-- Two recipients of a job of which the second cannot be stored after the first: they have one
    address, or the first has just used the catch-all mailbox that the second takes over.  `held`
    says which addresses a managed domain holds. -/
def Clash (A : AddressOps) (db : Db) (held : Text → Prop) (p q : RecipientDelivery × DomainMatch) :
    Prop :=
  p.2.addressCanonical = q.2.addressCanonical ∨
    (p.2.managed = false ∧ oldCatchAllAddress A db q.1 q.2 = some p.2.addressCanonical ∧
      ¬held p.2.addressCanonical)

instance (A : AddressOps) (db : Db) (held : Text → Prop) [DecidablePred held]
    (p q : RecipientDelivery × DomainMatch) : Decidable (Clash A db held p q) :=
  inferInstanceAs (Decidable (_ ∨ _ ∧ _ ∧ _))

/-- The recipients `done` of a message are stored: one delivery each, in the mailbox with the address
    of the match. -/
structure Stored (start : Db) (messageId : Text) (done : List (RecipientDelivery × DomainMatch))
    (db : Db) : Prop where
  consistent : db.Consistent
  domains : db.domains = start.domains
  message : ∃ row ∈ db.messages, row.id = messageId
  managed : ∀ address, db.managedAt address = true ↔ start.managedAt address = true ∨
    ∃ p ∈ done, p.2.managed = true ∧ p.2.addressCanonical = address
  addresses : (done.map fun p => p.2.addressCanonical).Nodup
  active : ∀ d ∈ db.deliveries, d.messageId = messageId → d.status = .active
  deliveries : List.Forall₂ (fun d p => d.id = p.1.deliveryId ∧
    ∃ domainId, db.Entry d.mailboxId p.2.addressCanonical domainId)
      (db.deliveries.filter fun d => d.messageId = messageId) done

variable {A : AddressOps} {start db : Db} {messageId : Text}
  {done : List (RecipientDelivery × DomainMatch)}

theorem Stored.of_mem (h : Stored start messageId done db) {d : DeliveryRow}
    (hd : d ∈ db.deliveries) (hmsg : d.messageId = messageId) :
    ∃ p ∈ done, ∃ domainId, db.Entry d.mailboxId p.2.addressCanonical domainId := by
  obtain ⟨p, hp, -, hentry⟩ := h.deliveries.exists_of_mem_left
    (List.mem_filter.mpr ⟨hd, decide_eq_true hmsg⟩)
  exact ⟨p, hp, hentry⟩

theorem Stored.of_done (h : Stored start messageId done db)
    {p : RecipientDelivery × DomainMatch} (hp : p ∈ done) :
    ∃ d ∈ db.deliveries, d.messageId = messageId ∧
      ∃ domainId, db.Entry d.mailboxId p.2.addressCanonical domainId := by
  have hflip : List.Forall₂ (flip fun d p => d.id = p.1.deliveryId ∧
      ∃ domainId, db.Entry d.mailboxId p.2.addressCanonical domainId) done
        (db.deliveries.filter fun d => d.messageId = messageId) := h.deliveries.flip
  obtain ⟨d, hd, -, hentry⟩ := hflip.exists_of_mem_left hp
  obtain ⟨hd, hmsg⟩ := List.mem_filter.mp hd
  exact ⟨d, hd, of_decide_eq_true hmsg, hentry⟩

theorem oldCatchAllAddress_congr {db' : Db} (h : db'.domains = db.domains)
    (r : RecipientDelivery) (m : DomainMatch) :
    oldCatchAllAddress A db' r m = oldCatchAllAddress A db r m := by
  unfold oldCatchAllAddress
  rw [catchAllMatch_congr h]

/-- A stored address that no managed domain held before is a catch-all mailbox exactly when its
    match is not managed. -/
theorem Stored.catchAll_iff (h : Stored start messageId done db)
    {p : RecipientDelivery × DomainMatch} (hp : p ∈ done) {b : MailboxRow}
    (hb : db.mailboxAt? p.2.addressCanonical = some b) :
    db.isCatchAll b = true ↔
      p.2.managed = false ∧ ¬start.managedAt p.2.addressCanonical = true := by
  have hmanaged : db.isCatchAll b = false ↔ db.managedAt p.2.addressCanonical = true := by
    rw [managedAt, hb]
    simp
  rw [← not_iff_not, Bool.not_eq_true, hmanaged, h.managed, not_and_or, not_not, Bool.not_eq_false]
  constructor
  · rintro (hstart | ⟨q, hq, hqm, haddr⟩)
    · exact .inr hstart
    · rw [List.inj_on_of_nodup_map h.addresses hq hp haddr] at hqm
      exact .inl hqm
  · rintro (hpm | hstart)
    · exact .inr ⟨p, hp, hpm, rfl⟩
    · exact .inl hstart

/-- The mailbox of a recipient holds the message, or takes in one that does, exactly when the
    recipient clashes with one that is stored. -/
theorem Stored.holds_iff (h : Stored start messageId done db) (r : RecipientDelivery)
    (m : DomainMatch) :
    (∃ d ∈ db.deliveries, d.messageId = messageId ∧ (d.mailboxId = targetId A db r m ∨
        ∃ s ∈ replacedMailbox? A db r m, d.mailboxId = s.id)) ↔
      ∃ p ∈ done, Clash A start (fun a => start.managedAt a = true) p (r, m) := by
  have hreplaced (d : DeliveryRow) (hd : d ∈ db.deliveries) (hmsg : d.messageId = messageId)
      (s : MailboxRow) (hs : replacedMailbox? A db r m = some s) (hbox : d.mailboxId = s.id) :
      ∃ p ∈ done, Clash A start (fun a => start.managedAt a = true) p (r, m) := by
    obtain ⟨p, hp, domainId, hentry⟩ := h.of_mem hd hmsg
    obtain ⟨address, hold, -, hat, hcatch⟩ := replacedMailbox?_eq_some.mp hs
    have haddr : p.2.addressCanonical = address :=
      (hentry.eq_of_id h.consistent (hbox ▸ entry_of_mailboxAt? hat)).1
    rw [← haddr] at hold hat
    obtain ⟨hpm, hfree⟩ := (h.catchAll_iff hp hat).mp hcatch
    exact ⟨p, hp, .inr ⟨hpm, (oldCatchAllAddress_congr h.domains r m).symm.trans hold, hfree⟩⟩
  constructor
  · rintro ⟨d, hd, hmsg, hbox | ⟨s, hs, hbox⟩⟩
    · have hid := targetId.eq_def A db r m
      cases hexact : db.mailboxAt? m.addressCanonical with
      | some b =>
        rw [hexact] at hid
        obtain ⟨p, hp, domainId, hentry⟩ := h.of_mem hd hmsg
        have hb : d.mailboxId = b.id := hbox.trans hid
        exact ⟨p, hp, .inl (hentry.eq_of_id h.consistent (hb ▸ entry_of_mailboxAt? hexact)).1⟩
      | none =>
        rw [hexact] at hid
        cases hs : replacedMailbox? A db r m with
        | some s =>
          rw [hs] at hid
          exact hreplaced d hd hmsg s hs (hbox.trans hid)
        | none =>
          -- a new mailbox, which holds nothing
          rw [hs] at hid
          obtain ⟨b, hb, hbid⟩ := h.consistent.delivery_mailboxes d hd
          have hle := h.consistent.mailbox_seq b hb
          have heq : b.id = db.mailboxSeq + 1 := hbid.trans (hbox.trans hid)
          omega
    · exact hreplaced d hd hmsg s hs hbox
  · rintro ⟨p, hp, hclash⟩
    obtain ⟨d, hd, hmsg, domainId, hentry⟩ := h.of_done hp
    obtain ⟨b, hb, hbid, -⟩ := hentry.mailboxAt? h.consistent
    refine ⟨d, hd, hmsg, ?_⟩
    by_cases haddr : p.2.addressCanonical = m.addressCanonical
    · rw [haddr] at hb
      left
      rw [targetId, hb]
      exact hbid.symm
    · obtain ⟨hpm, hold, hfree⟩ := hclash.resolve_left haddr
      refine .inr ⟨b, ?_, hbid.symm⟩
      rw [← oldCatchAllAddress_congr h.domains] at hold
      exact replacedMailbox?_eq_some.mpr
        ⟨_, hold, haddr, hb, (h.catchAll_iff hp hb).mpr ⟨hpm, hfree⟩⟩

/-- The managed addresses after a recipient: those before it, and its own if its match is managed. -/
theorem Prepared.managedAt_iff {r : RecipientDelivery} {m : DomainMatch} {ready db' : Db}
    (hdb : db.Consistent) (hdb' : db'.Consistent) (hdomains : db'.domains = db.domains)
    (hm : db.HasDomain m) (h : Prepared A db r m ready)
    (hentries : ∀ id address domainId,
      db'.Entry id address domainId ↔ ready.Entry id address domainId) (address : Text) :
    db'.managedAt address = true ↔
      db.managedAt address = true ∨ m.managed = true ∧ m.addressCanonical = address := by
  rw [Db.managedAt_iff hdb', Db.managedAt_iff hdb]
  simp only [hentries, h.entries, catchAllDomain_congr hdomains]
  have hmatch := hm.catchAllDomain hdb
  have hdomain := targetDomain.eq_def db m
  constructor
  · rintro ⟨id, domainId, ⟨rfl, rfl, rfl⟩ | ⟨-, -, hentry⟩, hfalse⟩
    · cases hmanaged : m.managed with
      | true => exact .inr ⟨rfl, rfl⟩
      | false =>
        rw [hmanaged] at hdomain hmatch
        cases hexact : db.mailboxAt? m.addressCanonical with
        | none =>
          rw [hexact] at hdomain
          simp [hdomain, hmatch] at hfalse
        | some b =>
          rw [hexact] at hdomain
          refine .inl ⟨b.id, b.domainId, entry_of_mailboxAt? hexact, ?_⟩
          simpa [hdomain] using hfalse
    · exact .inl ⟨id, domainId, hentry, hfalse⟩
  · have hown (hmanaged : m.managed = true) : ∃ id domainId,
        ((id = targetId A db r m ∧ m.addressCanonical = m.addressCanonical ∧
          domainId = targetDomain db m) ∨
          (id ≠ targetId A db r m ∧ (∀ s ∈ replacedMailbox? A db r m, id ≠ s.id) ∧
            db.Entry id m.addressCanonical domainId)) ∧ db.catchAllDomain domainId = false := by
      refine ⟨_, _, .inl ⟨rfl, rfl, rfl⟩, ?_⟩
      rw [hdomain, if_pos hmanaged, hmatch, hmanaged]
      rfl
    rintro (⟨id, domainId, hentry, hfalse⟩ | ⟨hmanaged, rfl⟩)
    · by_cases haddr : address = m.addressCanonical
      · subst haddr
        obtain ⟨b, hb, -, rfl⟩ := hentry.mailboxAt? hdb
        cases hmanaged : m.managed with
        | true => exact hown hmanaged
        | false =>
          refine ⟨_, _, .inl ⟨rfl, rfl, rfl⟩, ?_⟩
          rw [hdomain, hmanaged, hb]
          exact hfalse
      · -- a managed mailbox at another address is neither opened nor taken in
        have hkept (s : MailboxRow) (hs : replacedMailbox? A db r m = some s) : id ≠ s.id := by
          rintro rfl
          obtain ⟨old, -, -, hat, hcatch⟩ := replacedMailbox?_eq_some.mp hs
          obtain ⟨-, rfl⟩ := hentry.eq_of_id hdb (entry_of_mailboxAt? hat)
          rw [isCatchAll_eq, hfalse] at hcatch
          cases hcatch
        refine ⟨id, domainId, .inr ⟨?_, hkept, hentry⟩, hfalse⟩
        have hid := targetId.eq_def A db r m
        rintro rfl
        cases hexact : db.mailboxAt? m.addressCanonical with
        | some b =>
          rw [hexact] at hid
          rw [hid] at hentry
          exact haddr (hentry.eq_of_id hdb (entry_of_mailboxAt? hexact)).1
        | none =>
          rw [hexact] at hid
          cases hs : replacedMailbox? A db r m with
          | some s =>
            rw [hs] at hid
            exact hkept s hs hid
          | none =>
            rw [hs] at hid
            obtain ⟨b, hb, hbid, -⟩ := hentry
            have hle := hdb.mailbox_seq b hb
            rw [hid] at hbid
            dsimp only at hbid
            omega
    · exact hown hmanaged

theorem insertDelivery_conflict {id rcptTo : Text} {mailboxId generation : Nat} {t : Timestamp}
    {expiresAt : Option Timestamp} (hnew : ∀ d ∈ db.deliveries, d.id ≠ id)
    (hkey : ∃ d ∈ db.deliveries, d.messageId = messageId ∧ d.mailboxId = mailboxId) :
    db.insertDelivery id messageId mailboxId rcptTo t expiresAt generation =
      .error .uniqueDelivery := by
  have hid : (db.deliveries.any fun d => d.id = id) = false := by simpa using hnew
  have hany : (db.deliveries.any fun d => d.messageId = messageId && d.mailboxId = mailboxId) =
      true := by simpa using hkey
  unfold insertDelivery deliveryConflict
  rw [hid, hany]
  rfl

theorem insertDelivery_new {id rcptTo : Text} {mailboxId generation : Nat} {t : Timestamp}
    {expiresAt : Option Timestamp} (hnew : ∀ d ∈ db.deliveries, d.id ≠ id)
    (hkey : ¬∃ d ∈ db.deliveries, d.messageId = messageId ∧ d.mailboxId = mailboxId)
    (hmsg : ∃ row ∈ db.messages, row.id = messageId)
    (hbox : ∃ b ∈ db.mailboxes, b.id = mailboxId) :
    db.insertDelivery id messageId mailboxId rcptTo t expiresAt generation =
      .ok (db.addDelivery id messageId mailboxId rcptTo t expiresAt generation) := by
  have hid : (db.deliveries.any fun d => d.id = id) = false := by simpa using hnew
  have hany : (db.deliveries.any fun d => d.messageId = messageId && d.mailboxId = mailboxId) =
      false := by simpa using hkey
  unfold insertDelivery deliveryConflict
  rw [hid, hany]
  simp [deliveryParentsExist_iff.mpr ⟨hmsg, hbox⟩]

/-- The invariant with one more delivery. -/
theorem Stored.extend (h : Stored start messageId done db) {r : RecipientDelivery} {m : DomainMatch}
    {ready : Db} (hm : db.HasDomain m) (hprepared : Prepared A db r m ready)
    (haddr : ∀ p ∈ done, p.2.addressCanonical ≠ m.addressCanonical)
    (hfree : ∀ d ∈ db.deliveries, d.messageId = messageId →
      d.mailboxId ≠ targetId A db r m ∧ ∀ s ∈ replacedMailbox? A db r m, d.mailboxId ≠ s.id)
    {rcptTo : Text} {t : Timestamp} {expiresAt : Option Timestamp} {generation : Nat}
    (hconsistent : (ready.addDelivery r.deliveryId messageId (targetId A db r m) rcptTo t expiresAt
      generation).Consistent) :
    Stored start messageId (done ++ [(r, m)]) (ready.addDelivery r.deliveryId messageId
      (targetId A db r m) rcptTo t expiresAt generation) where
  consistent := hconsistent
  domains := hprepared.mailOnly.domains.trans h.domains
  message := by
    have hmessages : ready.messages = db.messages := hprepared.mailOnly.messages
    exact hmessages ▸ h.message
  managed := by
    intro address
    rw [hprepared.managedAt_iff h.consistent hconsistent hprepared.mailOnly.domains hm
      (fun _ _ _ => Iff.rfl), h.managed]
    simp only [List.mem_append, List.mem_singleton, or_and_right, exists_or, exists_eq_left,
      or_assoc]
  addresses := by
    rw [List.map_append, List.map_singleton]
    refine List.Nodup.append h.addresses (List.nodup_singleton _) ?_
    intro a ha ha'
    obtain ⟨p, hp, rfl⟩ := List.mem_map.mp ha
    exact haddr p hp (List.mem_singleton.mp ha')
  active := by
    intro d hd hmsg
    rcases List.mem_append.mp hd with hd | hd
    · have hmem : d ∈ ready.deliveries.filter fun d => d.messageId = messageId :=
        List.mem_filter.mpr ⟨hd, decide_eq_true hmsg⟩
      rw [hprepared.keeps _ hfree] at hmem
      exact h.active d (List.mem_of_mem_filter hmem) hmsg
    · rw [List.mem_singleton.mp hd]
  deliveries := by
    unfold addDelivery
    dsimp only
    rw [List.filter_append, hprepared.keeps _ hfree]
    simp only [List.filter_cons, decide_true, if_true, List.filter_nil]
    refine List.Forall₂.refocus ?_ .nil ?_
    · refine (List.forall₂_and_left (p := fun d => d ∈ db.deliveries ∧ d.messageId = messageId)
        _ _).mpr ⟨?_, h.deliveries⟩ |>.imp ?_
      · intro d hd
        obtain ⟨hd, hmsg⟩ := List.mem_filter.mp hd
        exact ⟨hd, of_decide_eq_true hmsg⟩
      · rintro d p ⟨⟨hd, hmsg⟩, hid, domainId, hentry⟩
        refine ⟨hid, domainId, (hprepared.entries _ _ _).mpr (.inr ⟨?_, ?_, hentry⟩)⟩
        · exact (hfree d hd hmsg).1
        · exact (hfree d hd hmsg).2
    · exact ⟨rfl, _, (hprepared.entries _ _ _).mpr (.inl ⟨rfl, rfl, rfl⟩)⟩

theorem Stored.free_of_clear (h : Stored start messageId done db) {r : RecipientDelivery}
    {m : DomainMatch}
    (hclear : ∀ p ∈ done, ¬Clash A start (fun a => start.managedAt a = true) p (r, m))
    (d : DeliveryRow) (hd : d ∈ db.deliveries) (hmsg : d.messageId = messageId) :
    d.mailboxId ≠ targetId A db r m ∧ ∀ s ∈ replacedMailbox? A db r m, d.mailboxId ≠ s.id := by
  refine ⟨fun hbox => ?_, fun s hs hbox => ?_⟩
  · obtain ⟨p, hp, hclash⟩ := (h.holds_iff r m).mp ⟨d, hd, hmsg, .inl hbox⟩
    exact hclear p hp hclash
  · obtain ⟨p, hp, hclash⟩ := (h.holds_iff r m).mp ⟨d, hd, hmsg, .inr ⟨s, hs, hbox⟩⟩
    exact hclear p hp hclash

theorem Stored.hasDomain (h : Stored start messageId done db) {m : DomainMatch}
    (hm : start.HasDomain m) : db.HasDomain m := by
  unfold HasDomain
  rw [h.domains]
  exact hm

/-- A recipient that has been stored without a clash. -/
theorem Stored.step_ok {job : MailJob} {db' : Db} (h : Stored start job.messageId done db)
    {r : RecipientDelivery} {m : DomainMatch} (hm : start.HasDomain m)
    (hclear : ∀ p ∈ done, ¬Clash A start (fun a => start.managedAt a = true) p (r, m))
    (hok : storeRecipient A job r m db = .ok db') :
    Stored start job.messageId (done ++ [(r, m)]) db' := by
  have hm' := h.hasDomain hm
  obtain ⟨ready, expiresAt, generation, hprepared, heq⟩ :=
    storeRecipient_eq (A := A) h.consistent job r (hm'.imp fun _ hd => ⟨hd.1, hd.2.1⟩)
  have hedits : Edits (idRules (fun _ => True) fun _ => True) db db' :=
    storeRecipient_edits h.consistent (fun _ _ _ _ => trivial) trivial hok
  rw [heq] at hok
  obtain ⟨-, -, rfl⟩ := insertDelivery_ok hok
  exact h.extend hm' hprepared (fun p hp heq => hclear p hp (.inl heq)) (h.free_of_clear hclear)
    (Edits.consistent h.consistent hedits)

/-- The next recipient is stored unless it clashes with one that is. -/
theorem Stored.step {job : MailJob} (h : Stored start job.messageId done db) {r : RecipientDelivery}
    {m : DomainMatch} (hm : start.HasDomain m) (hnew : ∀ d ∈ db.deliveries, d.id ≠ r.deliveryId) :
    ((∃ p ∈ done, Clash A start (fun a => start.managedAt a = true) p (r, m)) →
        storeRecipient A job r m db = .error .uniqueDelivery) ∧
      ((∀ p ∈ done, ¬Clash A start (fun a => start.managedAt a = true) p (r, m)) →
        ∃ db', storeRecipient A job r m db = .ok db' ∧
          Stored start job.messageId (done ++ [(r, m)]) db' ∧
          ∀ d ∈ db'.deliveries, d.id = r.deliveryId ∨ ∃ e ∈ db.deliveries, e.id = d.id) := by
  have hm' := h.hasDomain hm
  obtain ⟨ready, expiresAt, generation, hprepared, heq⟩ :=
    storeRecipient_eq (A := A) h.consistent job r (hm'.imp fun _ hd => ⟨hd.1, hd.2.1⟩)
  have hready : ∀ d ∈ ready.deliveries, d.id ≠ r.deliveryId := by
    intro d hd hid
    obtain ⟨e, he, heid⟩ := hprepared.delivery_ids d hd
    exact hnew e he (heid.trans hid)
  constructor
  · intro hclash
    rw [heq]
    exact insertDelivery_conflict hready ((hprepared.holds _).mpr ((h.holds_iff r m).mpr hclash))
  · intro hclear
    have hok : storeRecipient A job r m db = .ok (ready.addDelivery r.deliveryId job.messageId
        (targetId A db r m) r.rcptTo job.receivedAt expiresAt generation) := by
      rw [heq]
      refine insertDelivery_new hready ?_ ?_ ?_
      · rw [hprepared.holds]
        rintro ⟨d, hd, hmsg, hbox | ⟨s, hs, hbox⟩⟩
        · exact (h.free_of_clear hclear d hd hmsg).1 hbox
        · exact (h.free_of_clear hclear d hd hmsg).2 s hs hbox
      · rw [hprepared.mailOnly.messages]
        exact h.message
      · obtain ⟨b, hb, hbid, -⟩ := (hprepared.entries _ _ _).mpr (.inl ⟨rfl, rfl, rfl⟩)
        exact ⟨b, hb, hbid⟩
    refine ⟨_, hok, h.step_ok hm hclear hok, ?_⟩
    intro d hd
    rcases List.mem_append.mp hd with hd | hd
    · exact .inr (hprepared.delivery_ids d hd)
    · rw [List.mem_singleton.mp hd]
      exact .inl rfl

/-! ## The loop -/

/-- The recipients of a job with their current matches. -/
def resolved (A : AddressOps) (db : Db) (job : MailJob) : List (RecipientDelivery × DomainMatch) :=
  job.recipients.map fun r => (r, currentMatch A db r)

/-- The first recipient of every `(domain_id, address_canonical)`, as `delivered_mailbox_keys` lets
    them through. -/
def firstByKey : List (Nat × Text) → List (RecipientDelivery × DomainMatch) →
    List (RecipientDelivery × DomainMatch)
  | _, [] => []
  | delivered, (r, m) :: rest =>
    if (m.domainId, m.addressCanonical) ∈ delivered then firstByKey delivered rest
    else (r, m) :: firstByKey ((m.domainId, m.addressCanonical) :: delivered) rest

/-- No recipient clashes with one before it. -/
def Clear (A : AddressOps) (start : Db) (done rest : List (RecipientDelivery × DomainMatch)) : Prop :=
  (∀ p ∈ done, ∀ q ∈ rest, ¬Clash A start (fun a => start.managedAt a = true) p q) ∧
    rest.Pairwise fun p q => ¬Clash A start (fun a => start.managedAt a = true) p q

theorem clear_cons {q : RecipientDelivery × DomainMatch}
    {rest : List (RecipientDelivery × DomainMatch)} :
    Clear A start done (q :: rest) ↔
      (∀ p ∈ done, ¬Clash A start (fun a => start.managedAt a = true) p q) ∧
        Clear A start (done ++ [q]) rest := by
  unfold Clear
  simp only [List.pairwise_cons, List.mem_cons, List.mem_append, List.not_mem_nil, or_false]
  constructor
  · rintro ⟨hdone, hq, hrest⟩
    refine ⟨fun p hp => hdone p hp q (.inl rfl), ?_, hrest⟩
    rintro p (hp | rfl) q' hq'
    · exact hdone p hp q' (.inr hq')
    · exact hq q' hq'
  · rintro ⟨hq, hdone, hrest⟩
    refine ⟨?_, fun q' hq' => hdone q (.inr rfl) q' hq', hrest⟩
    rintro p hp q' (rfl | hq')
    · exact hq p hp
    · exact hdone p (.inl hp) q' hq'

/-- The match of a recipient of the loop is the one at its start. -/
theorem Stored.currentDomainMatch_eq (hA : A.Lawful) (hnorm : start.RootsNormalized)
    (h : Stored start messageId done db) {r : RecipientDelivery}
    (hcached : start.HasDomain r.domainMatch) :
    currentDomainMatch A db r = .ok (currentMatch A start r) := by
  rw [BatchWriter.currentDomainMatch_eq hA h.consistent, currentMatch_congr h.domains]
  · unfold RootsNormalized
    rw [h.domains]
    exact hnorm
  · exact h.hasDomain hcached

/-- The loop stores the first recipient of every key if none of them clash, and fails with a
    duplicate delivery otherwise. -/
theorem storeRecipients_spec {job : MailJob} (hA : A.Lawful) (hnorm : start.RootsNormalized)
    {recipients : List RecipientDelivery} (delivered : List (Nat × Text))
    (h : Stored start job.messageId done db)
    (hcached : ∀ r ∈ recipients, start.HasDomain r.domainMatch)
    (hnew : ∀ r ∈ recipients, ∀ d ∈ db.deliveries, d.id ≠ r.deliveryId)
    (hids : (recipients.map RecipientDelivery.deliveryId).Nodup) :
    (Clear A start done (firstByKey delivered (recipients.map fun r => (r, currentMatch A start r))) →
      ∃ n db', storeRecipients A job recipients delivered db = .ok (n, db') ∧
        Stored start job.messageId
          (done ++ firstByKey delivered (recipients.map fun r => (r, currentMatch A start r))) db' ∧
        ∀ d ∈ db'.deliveries, (∃ r ∈ recipients, d.id = r.deliveryId) ∨
          ∃ e ∈ db.deliveries, e.id = d.id) ∧
    (¬Clear A start done
        (firstByKey delivered (recipients.map fun r => (r, currentMatch A start r))) →
      storeRecipients A job recipients delivered db = .error .uniqueDelivery) := by
  induction recipients generalizing db done delivered with
  | nil =>
    refine ⟨fun _ => ⟨0, db, rfl, ?_, fun d hd => .inr ⟨d, hd, rfl⟩⟩, ?_⟩
    · simpa [firstByKey] using h
    · intro hclash
      have hclear : Clear A start done [] := ⟨fun _ _ _ hq => absurd hq List.not_mem_nil, .nil⟩
      exact absurd hclear hclash
  | cons r rest ih =>
    obtain ⟨hfirst, hids⟩ := List.nodup_cons.mp hids
    have hcachedRest := fun r' hr' => hcached r' (List.mem_cons_of_mem _ hr')
    unfold storeRecipients
    rw [h.currentDomainMatch_eq hA hnorm (hcached r List.mem_cons_self), List.map_cons, firstByKey]
    dsimp only
    split
    · -- the key has been delivered
      obtain ⟨hok, herror⟩ := ih _ h hcachedRest
        (fun r' hr' => hnew r' (List.mem_cons_of_mem _ hr')) hids
      refine ⟨fun hclear => ?_, herror⟩
      obtain ⟨n, db', hloop, hstored, hdel⟩ := hok hclear
      refine ⟨n, db', hloop, hstored, fun d hd => (hdel d hd).imp_left ?_⟩
      rintro ⟨r', hr', heq⟩
      exact ⟨r', List.mem_cons_of_mem _ hr', heq⟩
    · obtain ⟨hclash, hclear⟩ := h.step (A := A) (r := r)
        (currentMatch_hasDomain (hcached r List.mem_cons_self)) (hnew r List.mem_cons_self)
      rw [clear_cons]
      by_cases hfree : ∀ p ∈ done, ¬Clash A start (fun a => start.managedAt a = true) p
          (r, currentMatch A start r)
      · obtain ⟨db₁, hstore, hstored, hdel₁⟩ := hclear hfree
        have hnew₁ : ∀ r' ∈ rest, ∀ d ∈ db₁.deliveries, d.id ≠ r'.deliveryId := by
          intro r' hr' d hd heq
          rcases hdel₁ d hd with hid | ⟨e, he, hid⟩
          · exact hfirst (List.mem_map.mpr ⟨r', hr', heq.symm.trans hid⟩)
          · exact hnew r' (List.mem_cons_of_mem _ hr') e he (hid.trans heq)
        obtain ⟨hok, herror⟩ := ih _ hstored hcachedRest hnew₁ hids
        rw [hstore]
        dsimp only
        constructor
        · rintro ⟨-, hrest⟩
          obtain ⟨n, db', hloop, hstored', hdel⟩ := hok hrest
          rw [hloop]
          refine ⟨n + 1, db', rfl, by simpa using hstored', fun d hd => ?_⟩
          rcases hdel d hd with ⟨r', hr', heq⟩ | ⟨e, he, heq⟩
          · exact .inl ⟨r', List.mem_cons_of_mem _ hr', heq⟩
          · rcases hdel₁ e he with hid | ⟨e', he', hid⟩
            · exact .inl ⟨r, List.mem_cons_self, heq.symm.trans hid⟩
            · exact .inr ⟨e', he', hid.trans heq⟩
        · intro hnot
          rw [herror fun hrest => hnot ⟨hfree, hrest⟩]
      · refine ⟨fun hboth => absurd hboth.1 hfree, fun _ => ?_⟩
        have hex : ∃ p ∈ done, Clash A start (fun a => start.managedAt a = true) p
            (r, currentMatch A start r) := by
          simpa using hfree
        rw [hclash hex]

/-- A loop that has ended over recipients that do not clash. -/
theorem storeRecipients_stored {job : MailJob} {db' : Db} {n : Nat} (hA : A.Lawful)
    (hnorm : start.RootsNormalized) {recipients : List RecipientDelivery}
    {delivered : List (Nat × Text)} (h : Stored start job.messageId done db)
    (hcached : ∀ r ∈ recipients, start.HasDomain r.domainMatch)
    (hclear : Clear A start done
      (firstByKey delivered (recipients.map fun r => (r, currentMatch A start r))))
    (hok : storeRecipients A job recipients delivered db = .ok (n, db')) :
    Stored start job.messageId
      (done ++ firstByKey delivered (recipients.map fun r => (r, currentMatch A start r))) db' := by
  induction recipients generalizing db done delivered n with
  | nil =>
    cases hok
    simpa [firstByKey] using h
  | cons r rest ih =>
    have hcachedRest := fun r' hr' => hcached r' (List.mem_cons_of_mem _ hr')
    unfold storeRecipients at hok
    rw [h.currentDomainMatch_eq hA hnorm (hcached r List.mem_cons_self)] at hok
    rw [List.map_cons, firstByKey] at hclear ⊢
    dsimp only at hok
    split at hok
    · rename_i hseen
      rw [if_pos hseen] at hclear ⊢
      exact ih h hcachedRest hclear hok
    · rename_i hseen
      rw [if_neg hseen] at hclear ⊢
      obtain ⟨hfree, hclear⟩ := clear_cons.mp hclear
      split at hok
      · cases hok
      · rename_i db₁ hstore
        have hstored := h.step_ok
          (currentMatch_hasDomain (hcached r List.mem_cons_self)) hfree hstore
        split at hok
        · cases hok
        · rename_i n' db₂ hloop
          cases hok
          simpa using ih hstored hcachedRest hclear hloop

end BatchWriter
end RapidInbox
