import RapidInbox.Store.MailWrites
import RapidInbox.Store.SummaryOps

/-!
# What an accepted message stores

The transaction of `_accept_message_operation` checks every recipient against the domains it reads
and then stores the message with one delivery for each mailbox it has resolved.
-/

namespace RapidInbox

open Table

/-- `_recipient_match_can_advance` in words: the domain is the accepted one, or mail has gone from
    the catch-all rule to a managed root, or to a longer suffix. -/
def PermittedAdvance (accepted current : DomainMatch) : Prop :=
  accepted.domainId = current.domainId ∨
    accepted.rootDomainAscii = catchAllRoot ∧ current.rootDomainAscii ≠ catchAllRoot ∨
    current.rootDomainAscii ≠ catchAllRoot ∧
      IsSubdomainOf current.rootDomainAscii accepted.rootDomainAscii

theorem permittedAdvance_of_canAdvance {accepted current : DomainMatch}
    (h : recipientMatchCanAdvance accepted current = true) : PermittedAdvance accepted current := by
  unfold recipientMatchCanAdvance at h
  split at h
  · rename_i hid
    exact .inl hid
  · split at h
    · rename_i hroot
      exact .inr (.inl ⟨hroot, by simpa [DomainMatch.managed] using h⟩)
    · rw [Bool.and_eq_true] at h
      exact .inr (.inr ⟨by simpa [DomainMatch.managed] using h.1, of_decide_eq_true h.2⟩)

/-- A recipient as the transaction admits it: the match it resolves to, which may take the recipient
    over and whose domain allows the size. -/
structure RecipientAdmitted (A : AddressOps) (db : Db) (rawSizeBytes : Nat) (r : AcceptRecipient)
    (m : DomainMatch) : Prop where
  matched : db.matchActiveDomain A r.rcptTo = .ok (some m)
  advance : PermittedAdvance r.acceptedMatch m
  allowed : ∃ d ∈ db.domains, d.id = m.domainId ∧ d.rootDomainAscii = m.rootDomainAscii ∧
    d.policy.isActive = true ∧ rawSizeBytes ≤ d.policy.maxMessageSizeBytes

/-- What the transaction has stored for a message, by the matches it found. -/
structure AcceptStored (A : AddressOps) (db : Db) (request : AcceptRequest)
    (found : List (AcceptRecipient × DomainMatch × Option Int)) (stored : Db) : Prop where
  recipients : found.map Prod.fst = request.recipients
  admitted : ∀ x ∈ found, RecipientAdmitted A db request.rawSizeBytes x.1 x.2.1
  message : ∃ m ∈ stored.messages, m.id = request.messageId
  delivered : ∀ x ∈ found, ∃! d, d ∈ stored.deliveries ∧ d.messageId = request.messageId ∧
    (d.mailboxId, x.2.1.addressCanonical) ∈ stored.addresses
  only : ∀ d ∈ stored.deliveries, d.messageId = request.messageId →
    ∃ x ∈ found, d.rcptTo = x.1.rcptTo ∧ (d.mailboxId, x.2.1.addressCanonical) ∈ stored.addresses
  keys : ∀ x ∈ found, ∀ y ∈ found, x.2.1.addressCanonical = y.2.1.addressCanonical →
    x.2.1.domainId = y.2.1.domainId

namespace Db

variable {db db' : Db} {A : AddressOps}

/-! ## The recipients -/

theorem checkRecipient_admitted {size : Nat} {r : AcceptRecipient} {m : DomainMatch}
    {days : Option Int} (h : db.checkRecipient A size r = .ok (m, days)) :
    RecipientAdmitted A db size r m := by
  unfold checkRecipient at h
  split at h
  · cases h
  · split at h
    · cases h
    · split at h
      · cases h
      · cases h
      · rename_i current hcurrent
        split at h
        · cases h
        · rename_i hadvance
          split at h
          · cases h
          · rename_i d hd
            split at h
            · cases h
            · rename_i hsize
              cases h
              have hrow := List.find?_some hd
              simp only [Bool.and_eq_true, decide_eq_true_eq] at hrow
              have hallowed : (size : Int) ≤ d.policy.maxMessageSizeBytes := by omega
              exact ⟨hcurrent, permittedAdvance_of_canAdvance (by simpa using hadvance),
                d, List.mem_of_find?_eq_some hd, hrow.1.1, hrow.1.2, hrow.2, hallowed⟩

theorem transactionMatches_admitted {size : Nat} {recipients : List AcceptRecipient}
    {found : List (AcceptRecipient × DomainMatch × Option Int)}
    (h : db.transactionMatches A size recipients = .ok found) :
    found.map Prod.fst = recipients ∧ ∀ x ∈ found, RecipientAdmitted A db size x.1 x.2.1 := by
  induction recipients generalizing found with
  | nil =>
    cases h
    exact ⟨rfl, nofun⟩
  | cons r rest ih =>
    unfold transactionMatches at h
    split at h
    · cases h
    · rename_i y hcheck
      split at h
      · cases h
      · rename_i found' hrest
        cases h
        obtain ⟨hmap, hadmitted⟩ := ih hrest
        refine ⟨congrArg (r :: ·) hmap, ?_⟩
        intro x hx
        rcases List.mem_cons.mp hx with rfl | hx
        · exact checkRecipient_admitted hcheck
        · exact hadmitted x hx

/-! ## One delivery -/

/-- The mailbox of a match has its address, the other mailboxes keep theirs. -/
theorem upsertMailbox_addresses (hdb : db.Consistent) {m : DomainMatch} {receivedAt : Timestamp}
    {id : Nat} (h : db.upsertMailbox m receivedAt = .ok (id, db')) :
    db'.deliveries = db.deliveries ∧ db.addresses ⊆ db'.addresses ∧
      (id, m.addressCanonical) ∈ db'.addresses ∧
      ∀ id', (id', m.addressCanonical) ∈ db.addresses → id' = id := by
  unfold upsertMailbox at h
  split at h
  · cases h
  · rename_i mailboxId db₁ hfind
    cases h
    obtain ⟨hdel, haddresses, hcase⟩ := findOrRehomeMailbox_ok hdb hfind
    obtain ⟨b, hb, haddr, hid⟩ := hcase.resolve_left fun ⟨hnone, _⟩ => by cases hnone
    cases hid
    have htouched : (db₁.updateMailbox b.id fun b => b.assignLatest receivedAt).addresses =
        db.addresses :=
      (map_updateWhere (f := fun b : MailboxRow => b.assignLatest receivedAt) (fun _ => rfl) _).trans
        haddresses
    refine ⟨hdel, htouched ▸ List.Subset.refl _, ?_, ?_⟩
    · rw [htouched, mem_addresses]
      exact ⟨b, hb, rfl, haddr⟩
    · intro id' hid'
      obtain ⟨b', hb', rfl, haddr'⟩ := mem_addresses.mp hid'
      rw [hdb.mailbox_addresses.eq_of_mem hb' hb (haddr'.trans haddr.symm)]
  · rename_i db₁ hfind
    obtain ⟨-, -, hcase⟩ := findOrRehomeMailbox_ok hdb hfind
    obtain ⟨-, hnone, rfl⟩ := hcase.resolve_right fun ⟨_, _, _, hsome⟩ => by cases hsome
    obtain ⟨-, -, -, rfl⟩ := insertMailbox_ok h
    refine ⟨rfl, ?_, ?_, ?_⟩
    · intro key hkey
      rw [addresses, List.map_append]
      exact List.mem_append_left _ hkey
    · rw [addresses, List.map_append]
      exact List.mem_append_right _ (List.mem_singleton.mpr rfl)
    · intro id' hid'
      obtain ⟨b', hb', -, haddr'⟩ := mem_addresses.mp hid'
      exact absurd haddr' (find?_key_none.mp hnone b' hb')

/-- A recipient adds one delivery of the message, in a mailbox that had none. -/
theorem acceptDelivery_stored (hdb : db.Consistent) {request : AcceptRequest} {r : AcceptRecipient}
    {m : DomainMatch} {days : Option Int} (h : db.acceptDelivery request r m days = .ok db') :
    ∃ d, db'.deliveries = db.deliveries ++ [d] ∧ d.messageId = request.messageId ∧
      d.rcptTo = r.rcptTo ∧ (d.mailboxId, m.addressCanonical) ∈ db'.addresses ∧
      db.addresses ⊆ db'.addresses ∧
      ∀ d₀ ∈ db.deliveries, d₀.messageId = request.messageId →
        (d₀.mailboxId, m.addressCanonical) ∉ db.addresses := by
  unfold acceptDelivery at h
  split at h
  · cases h
  · rename_i mailboxId db₁ hupsert
    split at h
    · cases h
    · obtain ⟨hdel, hsub, hat, hone⟩ := upsertMailbox_addresses hdb hupsert
      obtain ⟨hconflict, -, rfl⟩ := insertDelivery_ok h
      refine ⟨_, congrArg (· ++ _) hdel, rfl, rfl, hat, hsub, ?_⟩
      intro d₀ hd₀ hmsg haddr
      exact (deliveryConflict_none hconflict).2 d₀ (hdel ▸ hd₀) ⟨hmsg, hone _ haddr⟩

theorem acceptDelivery_consistent (hdb : db.Consistent) {request : AcceptRequest}
    {r : AcceptRecipient} {m : DomainMatch} {days : Option Int}
    (h : db.acceptDelivery request r m days = .ok db') :
    db'.Consistent ∧ db'.messages = db.messages := by
  have hedits : Edits (idRules (fun _ => True) fun _ => True) db db' ∧ db.MailOnly db' :=
    acceptDelivery_edits (fun _ _ _ _ _ => trivial) trivial h
  exact ⟨Edits.consistent hdb hedits.1, hedits.2.messages⟩

/-! ## The recipient loop -/

/-- What the loop has delivered, with the recipients it is done with. -/
structure Delivered (request : AcceptRequest)
    (done : List (AcceptRecipient × DomainMatch × Option Int)) (delivered : List (Nat × Text))
    (db : Db) : Prop where
  consistent : db.Consistent
  each : ∀ key ∈ delivered, ∃ d ∈ db.deliveries, d.messageId = request.messageId ∧
    (d.mailboxId, key.2) ∈ db.addresses
  only : ∀ d ∈ db.deliveries, d.messageId = request.messageId →
    ∃ x ∈ done, d.rcptTo = x.1.rcptTo ∧ (d.mailboxId, x.2.1.addressCanonical) ∈ db.addresses
  keys : ∀ key ∈ delivered, ∀ key' ∈ delivered, key.2 = key'.2 → key = key'
  covers : ∀ x ∈ done, (x.2.1.domainId, x.2.1.addressCanonical) ∈ delivered

variable {request : AcceptRequest} {done : List (AcceptRecipient × DomainMatch × Option Int)}
  {delivered : List (Nat × Text)}

/-- A recipient of a mailbox that has its delivery is skipped. -/
theorem Delivered.skip (hs : Delivered request done delivered db) {r : AcceptRecipient}
    {m : DomainMatch} {days : Option Int} (hkey : (m.domainId, m.addressCanonical) ∈ delivered) :
    Delivered request (done ++ [(r, m, days)]) delivered db where
  consistent := hs.consistent
  each := hs.each
  only := by
    intro d hd hmsg
    obtain ⟨x, hx, hfor⟩ := hs.only d hd hmsg
    exact ⟨x, List.mem_append_left _ hx, hfor⟩
  keys := hs.keys
  covers := by
    intro x hx
    rcases List.mem_append.mp hx with hx | hx
    · exact hs.covers x hx
    · rw [List.mem_singleton.mp hx]
      exact hkey

theorem Delivered.deliver (hs : Delivered request done delivered db) {r : AcceptRecipient}
    {m : DomainMatch} {days : Option Int} (h : db.acceptDelivery request r m days = .ok db') :
    Delivered request (done ++ [(r, m, days)]) ((m.domainId, m.addressCanonical) :: delivered)
      db' := by
  obtain ⟨d, hdel, hmsg, hrcpt, hat, hsub, hnone⟩ := acceptDelivery_stored hs.consistent h
  -- no mailbox of an earlier recipient has the address
  have hfresh (key : Nat × Text) (hkey : key ∈ delivered) : key.2 ≠ m.addressCanonical := by
    intro heq
    obtain ⟨d₀, hd₀, hmsg₀, hat₀⟩ := hs.each key hkey
    exact hnone d₀ hd₀ hmsg₀ (heq ▸ hat₀)
  refine ⟨(acceptDelivery_consistent hs.consistent h).1, ?_, ?_, ?_, ?_⟩
  · intro key hkey
    rw [hdel]
    rcases List.mem_cons.mp hkey with rfl | hkey
    · exact ⟨d, List.mem_append_right _ (List.mem_singleton.mpr rfl), hmsg, hat⟩
    · obtain ⟨d₀, hd₀, hmsg₀, hat₀⟩ := hs.each key hkey
      exact ⟨d₀, List.mem_append_left _ hd₀, hmsg₀, hsub hat₀⟩
  · intro d' hd' hmsg'
    rw [hdel] at hd'
    rcases List.mem_append.mp hd' with hd' | hd'
    · obtain ⟨x, hx, hrcpt', hat'⟩ := hs.only d' hd' hmsg'
      exact ⟨x, List.mem_append_left _ hx, hrcpt', hsub hat'⟩
    · rw [List.mem_singleton.mp hd']
      exact ⟨_, List.mem_append_right _ (List.mem_singleton.mpr rfl), hrcpt, hat⟩
  · intro key hkey key' hkey' heq
    rcases List.mem_cons.mp hkey with rfl | hkey <;> rcases List.mem_cons.mp hkey' with rfl | hkey'
    · rfl
    · exact absurd heq.symm (hfresh key' hkey')
    · exact absurd heq (hfresh key hkey)
    · exact hs.keys key hkey key' hkey' heq
  · intro x hx
    rcases List.mem_append.mp hx with hx | hx
    · exact List.mem_cons_of_mem _ (hs.covers x hx)
    · rw [List.mem_singleton.mp hx]
      exact List.mem_cons_self

theorem Delivered.loop {found : List (AcceptRecipient × DomainMatch × Option Int)} {n : Nat}
    (hs : Delivered request done delivered db)
    (h : acceptDeliveries request found delivered db = .ok (n, db')) :
    (∃ delivered', Delivered request (done ++ found) delivered' db') ∧
      db'.messages = db.messages := by
  induction found generalizing done delivered db n with
  | nil =>
    cases h
    rw [List.append_nil]
    exact ⟨⟨delivered, hs⟩, rfl⟩
  | cons x rest ih =>
    obtain ⟨r, m, days⟩ := x
    rw [List.append_cons]
    unfold acceptDeliveries at h
    split at h
    · rename_i hkey
      exact ih (hs.skip hkey) h
    · split at h
      · cases h
      · rename_i db₁ hone
        split at h
        · cases h
        · rename_i n₁ db₂ hloop
          cases h
          obtain ⟨hstored, hmsgs⟩ := ih (hs.deliver hone) hloop
          exact ⟨hstored, hmsgs.trans (acceptDelivery_consistent hs.consistent hone).2⟩

/-! ## The transaction -/

/-- A message that is accepted is stored with one delivery for each mailbox. -/
theorem acceptMessage_stored (hdb : db.Consistent) (h : db.acceptMessage A request = .ok db') :
    ∃ found, AcceptStored A db request found db' := by
  obtain ⟨found, db₁, db₂, row, n, hfound, hid, -, hmsg, hloop, rfl⟩ := acceptMessage_ok h
  obtain ⟨sessions, hsession⟩ := acceptSession_eq db request
  obtain ⟨metrics, hmetrics⟩ := BatchWriter.upsertMetric_eq db₂ (metricBucketTs request.receivedAt) 1 n 0
  have hstart : db₁.Consistent := by
    have hedit : Edit (idRules (fun _ => True) fun _ => True) db (db.acceptSession request) := by
      rw [hsession]
      exact .bookkeeping
    exact Edits.consistent hdb ((Edits.single hedit).tail (.addMessage hmsg trivial))
  rw [hsession] at hmsg
  obtain ⟨hnew, rfl⟩ := insertMessage_ok hmsg
  -- the message is new, so it has no delivery yet
  have hnone : Delivered request [] [] { db with sessions := sessions, messages := db.messages ++ [row] } := by
    refine ⟨hstart, nofun, ?_, nofun, nofun⟩
    intro d hd hmsg
    obtain ⟨m, hm, hmid⟩ := hdb.delivery_messages d hd
    exact absurd (hmid.trans (hmsg.trans hid.symm)) (hnew m hm)
  obtain ⟨⟨delivered, hs⟩, hmsgs⟩ := hnone.loop hloop
  obtain ⟨hmap, hadmitted⟩ := transactionMatches_admitted hfound
  rw [hmetrics]
  refine ⟨found, hmap, hadmitted, ?_, ?_, hs.only, ?_⟩
  · refine ⟨row, ?_, hid⟩
    show row ∈ db₂.messages
    rw [hmsgs]
    exact List.mem_append_right _ (List.mem_singleton.mpr rfl)
  · intro x hx
    obtain ⟨d, hd, hmsg, hat⟩ := hs.each _ (hs.covers x hx)
    refine ⟨d, ⟨hd, hmsg, hat⟩, ?_⟩
    rintro d' ⟨hd', hmsg', hat'⟩
    obtain ⟨b, hb, hbid, haddr⟩ := mem_addresses.mp hat
    obtain ⟨b', hb', hbid', haddr'⟩ := mem_addresses.mp hat'
    have hbox : d'.mailboxId = d.mailboxId := by
      rw [← hbid, ← hbid',
        hs.consistent.mailbox_addresses.eq_of_mem hb' hb (haddr'.trans haddr.symm)]
    exact hs.consistent.delivery_keys.eq_of_mem hd' hd (by rw [hmsg, hmsg', hbox])
  · intro x hx y hy haddr
    exact congrArg Prod.fst (hs.keys _ (hs.covers x hx) _ (hs.covers y hy) haddr)

end Db
end RapidInbox
