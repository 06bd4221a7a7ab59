import RapidInbox.Store.Ownership

/-!
# The mailbox of a recipient

What `write_sqlite_records` does with one recipient, up to the insertion of the delivery: the
mailbox with the address of the match is there afterwards, and a catch-all mailbox at the
recipient's old address has been renamed to it or merged into it.
-/

namespace RapidInbox

open Table Relation

namespace Db

variable {db db' : Db}

/-- A mailbox with an id, an address and an owning domain. -/
def Entry (db : Db) (id : Nat) (address : Text) (domainId : Nat) : Prop :=
  ∃ b ∈ db.mailboxes, b.id = id ∧ b.addressCanonical = address ∧ b.domainId = domainId

theorem Entry.of_mem {b : MailboxRow} (hb : b ∈ db.mailboxes) :
    db.Entry b.id b.addressCanonical b.domainId := ⟨b, hb, rfl, rfl, rfl⟩

/-- The id of a mailbox determines the rest. -/
theorem Entry.eq_of_id (hdb : db.Consistent) {id domainId domainId' : Nat} {address address' : Text}
    (h : db.Entry id address domainId) (h' : db.Entry id address' domainId') :
    address = address' ∧ domainId = domainId' := by
  obtain ⟨b, hb, hid, rfl, rfl⟩ := h
  obtain ⟨b', hb', hid', rfl, rfl⟩ := h'
  rw [hdb.mailbox_ids.eq_of_mem hb hb' (hid.trans hid'.symm)]
  exact ⟨rfl, rfl⟩

/-- The address of a mailbox determines the rest. -/
theorem Entry.eq_of_address (hdb : db.Consistent) {id id' domainId domainId' : Nat} {address : Text}
    (h : db.Entry id address domainId) (h' : db.Entry id' address domainId') :
    id = id' ∧ domainId = domainId' := by
  obtain ⟨b, hb, rfl, haddr, rfl⟩ := h
  obtain ⟨b', hb', rfl, haddr', rfl⟩ := h'
  rw [hdb.mailbox_addresses.eq_of_mem hb hb' (haddr.trans haddr'.symm)]
  exact ⟨rfl, rfl⟩

theorem entry_of_mailboxAt? {address : Text} {b : MailboxRow} (h : db.mailboxAt? address = some b) :
    db.Entry b.id address b.domainId := by
  obtain ⟨hb, rfl⟩ := find?_key h
  exact .of_mem hb

theorem Entry.mailboxAt? (hdb : db.Consistent) {id domainId : Nat} {address : Text}
    (h : db.Entry id address domainId) :
    ∃ b, db.mailboxAt? address = some b ∧ b.id = id ∧ b.domainId = domainId := by
  obtain ⟨b, hb, hid, haddr, hdom⟩ := h
  exact ⟨b, hdb.mailbox_addresses.find?_eq_some hb haddr, hid, hdom⟩

/-! ## The statements -/

theorem entry_updateMailbox {target : Nat} {f : MailboxRow → MailboxRow} (hf : KeepsIdentity f)
    (id : Nat) (address : Text) (domainId : Nat) :
    (db.updateMailbox target f).Entry id address domainId ↔ db.Entry id address domainId := by
  constructor
  · rintro ⟨b', hb', rfl, rfl, rfl⟩
    obtain ⟨b, hb, rfl⟩ := mem_updateWhere.mp hb'
    refine ⟨b, hb, ?_⟩
    split
    · exact ⟨(hf.id b).symm, (hf.addressCanonical b).symm, (hf.domainId b).symm⟩
    · exact ⟨rfl, rfl, rfl⟩
  · rintro ⟨b, hb, rfl, rfl, rfl⟩
    refine ⟨_, mem_updateWhere.mpr ⟨b, hb, rfl⟩, ?_⟩
    split
    · exact ⟨hf.id b, hf.addressCanonical b, hf.domainId b⟩
    · exact ⟨rfl, rfl, rfl⟩

theorem entry_withIdentity {b : MailboxRow} (hb : b ∈ db.mailboxes) (m : DomainMatch)
    (id : Nat) (address : Text) (domainId : Nat) :
    (db.updateMailbox b.id fun row => row.withIdentity m).Entry id address domainId ↔
      (id = b.id ∧ address = m.addressCanonical ∧ domainId = m.domainId) ∨
        (id ≠ b.id ∧ db.Entry id address domainId) := by
  constructor
  · rintro ⟨c', hc', rfl, rfl, rfl⟩
    obtain ⟨c, hc, rfl⟩ := mem_updateWhere.mp hc'
    by_cases hid : c.id = b.id
    · rw [if_pos (decide_eq_true hid)]
      exact .inl ⟨hid, rfl, rfl⟩
    · rw [if_neg (by simpa using hid)]
      exact .inr ⟨hid, .of_mem hc⟩
  · rintro (⟨rfl, rfl, rfl⟩ | ⟨hne, c, hc, rfl, rfl, rfl⟩)
    · refine ⟨_, mem_updateWhere.mpr ⟨b, hb, rfl⟩, ?_⟩
      rw [if_pos (decide_eq_true rfl)]
      exact ⟨rfl, rfl, rfl⟩
    · refine ⟨_, mem_updateWhere.mpr ⟨c, hc, rfl⟩, ?_⟩
      rw [if_neg (by simpa using hne)]
      exact ⟨rfl, rfl, rfl⟩

/-- A mailbox is inserted when its address is free and its domain exists. -/
theorem insertMailbox_entries (hdb : db.Consistent) {m : DomainMatch}
    (haddr : db.mailboxAt? m.addressCanonical = none) (hdom : ∃ d ∈ db.domains, d.id = m.domainId)
    (seenAt : Timestamp) (count : Nat) (latest : Option Timestamp) :
    ∃ db', db.insertMailbox m seenAt count latest = .ok (db.mailboxSeq + 1, db') ∧
      db'.deliveries = db.deliveries ∧ ∀ id address domainId,
        db'.Entry id address domainId ↔
          (id = db.mailboxSeq + 1 ∧ address = m.addressCanonical ∧ domainId = m.domainId) ∨
            (id ≠ db.mailboxSeq + 1 ∧ db.Entry id address domainId) := by
  obtain ⟨d, hd, hid⟩ := hdom
  have hsome : (db.domain? m.domainId).isNone = false := by
    rw [domain?, hdb.domain_ids.find?_eq_some hd hid]
    rfl
  have hok : ∃ result, db.insertMailbox m seenAt count latest = .ok result := by
    unfold insertMailbox
    rw [haddr, hsome]
    exact ⟨_, rfl⟩
  obtain ⟨⟨new, db'⟩, hins⟩ := hok
  obtain ⟨-, -, rfl, rfl⟩ := insertMailbox_ok hins
  refine ⟨_, hins, rfl, ?_⟩
  intro id address domainId
  constructor
  · rintro ⟨b, hb, rfl, rfl, rfl⟩
    rcases List.mem_append.mp hb with hb | hb
    · have hle := hdb.mailbox_seq b hb
      exact .inr ⟨by omega, .of_mem hb⟩
    · rw [List.mem_singleton.mp hb]
      exact .inl ⟨rfl, rfl, rfl⟩
  · rintro (⟨rfl, rfl, rfl⟩ | ⟨-, b, hb, hrest⟩)
    · exact ⟨_, List.mem_append_right _ (List.mem_singleton.mpr rfl), rfl, rfl, rfl⟩
    · exact ⟨b, List.mem_append_left _ hb, hrest⟩

/-- An identity is written when no other mailbox has the address and the domain exists. -/
theorem updateMailboxIdentity_eq (hdb : db.Consistent) {b : MailboxRow} {m : DomainMatch}
    (haddr : ∀ c ∈ db.mailboxes, c.addressCanonical = m.addressCanonical → c.id = b.id)
    (hdom : ∃ d ∈ db.domains, d.id = m.domainId) :
    db.updateMailboxIdentity b.id m = .ok (db.updateMailbox b.id fun row => row.withIdentity m) := by
  obtain ⟨d, hd, hid⟩ := hdom
  have hsome : (db.domain? m.domainId).isNone = false := by
    rw [domain?, hdb.domain_ids.find?_eq_some hd hid]
    rfl
  have hfree : (db.mailboxes.any fun c => c.addressCanonical = m.addressCanonical && c.id ≠ b.id) =
      false := by
    rw [List.any_eq_false]
    intro c hc hcond
    rw [Bool.and_eq_true, decide_eq_true_iff, decide_eq_true_iff] at hcond
    exact hcond.2 (haddr c hc hcond.1)
  unfold updateMailboxIdentity
  rw [hfree, hsome]
  rfl

/-- The deliveries of the source are gone after a merge, so its mailbox can be deleted. -/
theorem mergeMailboxInto_entries (db : Db) {target : Nat} {source : MailboxRow}
    (hne : target ≠ source.id) :
    ∃ db', db.mergeMailboxInto target source = .ok db' ∧
      db'.deliveries = db.deliveries.filterMap (db.mergeRow columnText source.id target) ∧
      db.merges.length < db'.merges.length ∧ ∀ id address domainId, db'.Entry id address domainId ↔
        id ≠ source.id ∧ db.Entry id address domainId := by
  have hdel : ((db.mergeDeliveries columnText source.id target).updateMailbox target
      fun b => b.mergeMetadata source).deleteMailbox source.id = .ok _ :=
    deleteMailbox_eq (mergeDeliveries_leaves (Ne.symm hne))
  refine ⟨_, (if_neg hne).trans hdel, rfl, ?_, ?_⟩
  · exact List.length_append ▸ Nat.lt_succ_self _
  intro id address domainId
  have hupd : ((db.mergeDeliveries columnText source.id target).updateMailbox target
      fun b => b.mergeMetadata source).Entry id address domainId ↔ db.Entry id address domainId :=
    entry_updateMailbox (mergeMetadata_keeps source) id address domainId
  rw [← hupd]
  constructor
  · rintro ⟨b, hb, rfl, hrest⟩
    obtain ⟨hb, hkeep⟩ := List.mem_filter.mp hb
    exact ⟨by simpa using hkeep, b, hb, rfl, hrest⟩
  · rintro ⟨hkeep, b, hb, rfl, hrest⟩
    exact ⟨b, List.mem_filter.mpr ⟨hb, by simpa using hkeep⟩, rfl, hrest⟩

end Db

/-! ## The plan -/

namespace BatchWriter

open Db

variable {A : AddressOps} {db : Db}

theorem loadMailboxesByAddress_eq (hdb : db.Consistent) (address : Text) :
    db.loadMailboxesByAddress address = (db.mailboxAt? address).toList := by
  unfold loadMailboxesByAddress
  rw [hdb.mailbox_addresses.filter_eq_toList]
  apply List.filter_eq_self.mpr
  intro b hb
  have hmem := List.mem_of_find?_eq_some (Option.mem_toList.mp hb)
  obtain ⟨d, -, -, hroot⟩ := exists_ownerRoot? hdb hmem
  rw [hroot]
  rfl

/-- The catch-all mailbox at the old address of the recipient, which the commit renames or merges. -/
def replacedMailbox? (A : AddressOps) (db : Db) (recipient : RecipientDelivery) (m : DomainMatch) :
    Option MailboxRow :=
  match oldCatchAllAddress A db recipient m with
  | none => none
  | some address =>
    if address = m.addressCanonical then none else (db.mailboxAt? address).filter db.isCatchAll

theorem replacedMailbox?_eq_some {recipient : RecipientDelivery} {m : DomainMatch} {s : MailboxRow} :
    replacedMailbox? A db recipient m = some s ↔
      ∃ address, oldCatchAllAddress A db recipient m = some address ∧
        address ≠ m.addressCanonical ∧ db.mailboxAt? address = some s ∧ db.isCatchAll s := by
  unfold replacedMailbox?
  cases hold : oldCatchAllAddress A db recipient m with
  | none => simp
  | some address =>
    by_cases heq : address = m.addressCanonical
    · simp [heq]
    · simp [heq, Option.filter_eq_some_iff]

theorem selectTarget_singleton (m : DomainMatch) (b : MailboxRow) :
    selectTarget db m [b] = some b := by
  unfold selectTarget
  by_cases hdom : b.domainId = m.domainId <;> by_cases hmanaged : db.isCatchAll b <;>
    simp [hdom, hmanaged]

/-- The mailbox with the address is the target, else the one to be renamed. -/
theorem planMailbox_eq (hdb : db.Consistent) (recipient : RecipientDelivery) (m : DomainMatch) :
    planMailbox A db recipient m =
      match db.mailboxAt? m.addressCanonical, replacedMailbox? A db recipient m with
      | some b, replaced => ⟨some b, replaced.toList⟩
      | none, some s => ⟨some s, []⟩
      | none, none => ⟨none, []⟩ := by
  have hold : oldCatchAllMailboxes A db recipient m =
      match oldCatchAllAddress A db recipient m with
      | none => []
      | some address =>
        if address = m.addressCanonical then [] else (db.mailboxAt? address).toList := by
    unfold oldCatchAllMailboxes
    cases oldCatchAllAddress A db recipient m with
    | none => rfl
    | some address =>
      dsimp only
      rw [loadMailboxesByAddress_eq hdb, ite_not]
  unfold planMailbox
  dsimp only
  rw [loadMailboxesByAddress_eq hdb, hold]
  unfold replacedMailbox?
  cases hexact : db.mailboxAt? m.addressCanonical with
  | none =>
    have htarget : selectTarget db m [] = none := by simp [selectTarget]
    cases oldCatchAllAddress A db recipient m with
    | none => simp [htarget]
    | some address =>
      by_cases heq : address = m.addressCanonical
      · simp [heq, htarget]
      · cases hs : db.mailboxAt? address with
        | none => simp [heq, hs, htarget]
        | some s =>
          by_cases hc : db.isCatchAll s <;>
            simp [heq, hs, htarget, hc, appendCatchAllSource, Option.filter]
  | some b =>
    have hown : appendCatchAllSource db (some b) [] b = [] := by simp [appendCatchAllSource]
    cases oldCatchAllAddress A db recipient m with
    | none => simp [selectTarget_singleton, hown]
    | some address =>
      by_cases heq : address = m.addressCanonical
      · simp [heq, selectTarget_singleton, hown]
      · cases hs : db.mailboxAt? address with
        | none => simp [heq, hs, selectTarget_singleton, hown]
        | some s =>
          -- another address, so another mailbox
          have hne : b.id ≠ s.id := by
            intro hid
            obtain ⟨haddr, -⟩ := (entry_of_mailboxAt? hexact).eq_of_id hdb
              (hid ▸ entry_of_mailboxAt? hs)
            exact heq haddr.symm
          by_cases hc : db.isCatchAll s <;>
            simp [heq, hs, selectTarget_singleton, hc, hne, appendCatchAllSource, Option.filter]

/-! ## The opened mailbox -/

/-- The mailbox the delivery goes to. -/
def targetId (A : AddressOps) (db : Db) (recipient : RecipientDelivery) (m : DomainMatch) : Nat :=
  match db.mailboxAt? m.addressCanonical, replacedMailbox? A db recipient m with
  | some b, _ => b.id
  | none, some s => s.id
  | none, none => db.mailboxSeq + 1

/-- Its owner: a managed match takes the mailbox over, and a catch-all match leaves it where it is. -/
def targetDomain (db : Db) (m : DomainMatch) : Nat :=
  if m.managed then m.domainId
  else ((db.mailboxAt? m.addressCanonical).map MailboxRow.domainId).getD m.domainId

theorem replacedMailbox?_managed {recipient : RecipientDelivery} {m : DomainMatch} {s : MailboxRow}
    (h : replacedMailbox? A db recipient m = some s) : m.managed := by
  obtain ⟨address, hold, -⟩ := replacedMailbox?_eq_some.mp h
  unfold oldCatchAllAddress at hold
  split at hold
  · assumption
  · cases hold

theorem openMailbox_new (hdb : db.Consistent) {m : DomainMatch}
    (hdom : ∃ d ∈ db.domains, d.id = m.domainId) (haddr : db.mailboxAt? m.addressCanonical = none)
    (receivedAt : Timestamp) (sources : List MailboxRow) :
    ∃ opened, openMailbox db receivedAt m ⟨none, sources⟩ =
        .ok (⟨db.mailboxSeq + 1, 0, true, false⟩, opened) ∧
      opened.deliveries = db.deliveries ∧ ∀ id address domainId,
        opened.Entry id address domainId ↔
          (id = db.mailboxSeq + 1 ∧ address = m.addressCanonical ∧ domainId = m.domainId) ∨
            (id ≠ db.mailboxSeq + 1 ∧ db.Entry id address domainId) := by
  obtain ⟨opened, hins, hdel, hentries⟩ :=
    insertMailbox_entries hdb haddr hdom receivedAt 1 (some receivedAt)
  refine ⟨opened, ?_, hdel, hentries⟩
  unfold openMailbox
  rw [hins]

theorem openMailbox_existing (hdb : db.Consistent) {m : DomainMatch}
    (hdom : ∃ d ∈ db.domains, d.id = m.domainId) {b : MailboxRow} (hb : b ∈ db.mailboxes)
    (haddr : ∀ c ∈ db.mailboxes, c.addressCanonical = m.addressCanonical → c.id = b.id)
    (hown : b.addressCanonical = m.addressCanonical ∨ m.managed)
    (receivedAt : Timestamp) (sources : List MailboxRow) :
    ∃ mailbox opened, openMailbox db receivedAt m ⟨some b, sources⟩ = .ok (mailbox, opened) ∧
      mailbox.id = b.id ∧ opened.deliveries = db.deliveries ∧ ∀ id address domainId,
        opened.Entry id address domainId ↔
          (id = b.id ∧ address = m.addressCanonical ∧
            domainId = if m.managed then m.domainId else b.domainId) ∨
            (id ≠ b.id ∧ db.Entry id address domainId) := by
  have hidentity := entry_withIdentity hb m
  unfold openMailbox
  dsimp only
  by_cases hcond : (decide (b.domainId = m.domainId) || m.managed) = true
  · have hdomain : (if m.managed then m.domainId else b.domainId) = m.domainId := by
      by_cases hmanaged : m.managed
      · rw [if_pos hmanaged]
      · rw [if_neg hmanaged]
        simpa [hmanaged] using hcond
    rw [if_pos hcond, updateMailboxIdentity_eq hdb haddr hdom, hdomain]
    dsimp only
    split
    · refine ⟨_, _, rfl, rfl, rfl, ?_⟩
      intro id address domainId
      rw [entry_updateMailbox (touch_keeps receivedAt), hidentity]
    · exact ⟨_, _, rfl, rfl, rfl, hidentity⟩
  · rw [if_neg hcond]
    rw [Bool.or_eq_true, not_or] at hcond
    refine ⟨_, _, rfl, rfl, rfl, ?_⟩
    intro id address domainId
    have hentry := Entry.of_mem hb
    rw [hown.resolve_right hcond.2] at hentry
    rw [if_neg hcond.2]
    constructor
    · intro h
      by_cases hid : id = b.id
      · subst hid
        exact .inl ⟨rfl, h.eq_of_id hdb hentry⟩
      · exact .inr ⟨hid, h⟩
    · rintro (⟨rfl, rfl, rfl⟩ | ⟨-, h⟩)
      · exact hentry
      · exact h

/-- Opening a mailbox merges nothing. -/
theorem openMailbox_merges {receivedAt : Timestamp} {m : DomainMatch} {plan : MailboxPlan}
    {mailbox : OpenedMailbox} {opened : Db}
    (h : openMailbox db receivedAt m plan = .ok (mailbox, opened)) : opened.merges = db.merges := by
  unfold openMailbox at h
  split at h
  · split at h
    · cases h
    · rename_i hins
      cases h
      obtain ⟨-, -, -, rfl⟩ := insertMailbox_ok hins
      rfl
  · dsimp only at h
    split at h
    · split at h
      · cases h
      · rename_i hidentity
        obtain ⟨-, -, rfl⟩ := updateMailboxIdentity_ok hidentity
        split at h
        · cases h
          rfl
        · cases h
          rfl
    · cases h
      rfl

/-! ## The deliveries of one message -/

/-- A merge brings a message into the target if it is in one of the two mailboxes. -/
theorem mergeDeliveries_holds {read : Text → Text} {source target : Nat} {messageId : Text}
    (hne : target ≠ source) :
    (∃ d ∈ db.deliveries.filterMap (db.mergeRow read source target),
        d.messageId = messageId ∧ d.mailboxId = target) ↔
      ∃ d ∈ db.deliveries, d.messageId = messageId ∧ (d.mailboxId = target ∨ d.mailboxId = source) := by
  constructor
  · rintro ⟨d', hd', hmsg, hbox⟩
    obtain ⟨d, hd, hrow⟩ := List.mem_filterMap.mp hd'
    obtain ⟨-, -, hmsg'⟩ := mergeRow_identity hrow
    refine ⟨d, hd, hmsg'.symm.trans hmsg, ?_⟩
    rcases mergeRow_mailbox hrow with ⟨-, ht | ⟨hs, -⟩⟩ | ⟨heq, -, ht⟩
    · exact .inl ht
    · exact .inr hs
    · exact absurd (heq.symm.trans hbox) ht
  · have htarget (d : DeliveryRow) (hd : d ∈ db.deliveries) (hmsg : d.messageId = messageId)
        (hbox : d.mailboxId = target) : ∃ d' ∈ db.deliveries.filterMap (db.mergeRow read source target),
          d'.messageId = messageId ∧ d'.mailboxId = target := by
      cases hcopy : db.deliveryOf? d.messageId source with
      | none =>
        refine ⟨d, List.mem_filterMap.mpr ⟨d, hd, ?_⟩, hmsg, hbox⟩
        rw [mergeRow, if_pos hbox, hcopy]
      | some copy =>
        refine ⟨d.collapse read copy (db.generationOf target),
          List.mem_filterMap.mpr ⟨d, hd, ?_⟩, hmsg, hbox⟩
        rw [mergeRow, if_pos hbox, hcopy]
    rintro ⟨d, hd, hmsg, hbox | hbox⟩
    · exact htarget d hd hmsg hbox
    · cases hcopy : db.deliveryOf? d.messageId target with
      | none =>
        refine ⟨{ d with mailboxId := target, mailboxGeneration := db.generationOf target },
          List.mem_filterMap.mpr ⟨d, hd, ?_⟩, hmsg, rfl⟩
        rw [mergeRow, hbox, if_neg hne.symm, if_pos rfl, hcopy]
        rfl
      | some e =>
        obtain ⟨he, hmsg', hbox'⟩ := mem_of_deliveryOf? hcopy
        exact htarget e he (hmsg'.trans hmsg) hbox'

/-- A merge of mailboxes without a message leaves its deliveries alone. -/
theorem mergeDeliveries_keeps {read : Text → Text} {source target : Nat} {messageId : Text}
    (h : ∀ d ∈ db.deliveries, d.messageId = messageId →
      d.mailboxId ≠ target ∧ d.mailboxId ≠ source) :
    (db.deliveries.filterMap (db.mergeRow read source target)).filter (fun d => d.messageId = messageId) =
      db.deliveries.filter fun d => d.messageId = messageId := by
  refine filter_filterMap_eq ?_ ?_
  · intro d hd hmsg
    obtain ⟨ht, hs⟩ := h d hd (of_decide_eq_true hmsg)
    rw [mergeRow, if_neg ht, if_neg hs]
  · intro d _ hmsg d' hrow
    rw [(mergeRow_identity hrow).2.2]
    exact hmsg

/-- The database before the delivery is inserted. -/
structure Prepared (A : AddressOps) (db : Db) (recipient : RecipientDelivery) (m : DomainMatch)
    (ready : Db) : Prop where
  entries : ∀ id address domainId, ready.Entry id address domainId ↔
    (id = targetId A db recipient m ∧ address = m.addressCanonical ∧ domainId = targetDomain db m) ∨
      (id ≠ targetId A db recipient m ∧ (∀ s ∈ replacedMailbox? A db recipient m, id ≠ s.id) ∧
        db.Entry id address domainId)
  mailOnly : db.MailOnly ready
  delivery_ids : ∀ d ∈ ready.deliveries, ∃ e ∈ db.deliveries, e.id = d.id
  holds : ∀ messageId, (∃ d ∈ ready.deliveries, d.messageId = messageId ∧
    d.mailboxId = targetId A db recipient m) ↔
      ∃ d ∈ db.deliveries, d.messageId = messageId ∧ (d.mailboxId = targetId A db recipient m ∨
        ∃ s ∈ replacedMailbox? A db recipient m, d.mailboxId = s.id)
  keeps : ∀ messageId, (∀ d ∈ db.deliveries, d.messageId = messageId →
    d.mailboxId ≠ targetId A db recipient m ∧
      ∀ s ∈ replacedMailbox? A db recipient m, d.mailboxId ≠ s.id) →
    ready.deliveries.filter (fun d => d.messageId = messageId) =
      db.deliveries.filter fun d => d.messageId = messageId
  unmerged : ready.merges = db.merges → ready.deliveries = db.deliveries

theorem Prepared.updateMailbox {recipient : RecipientDelivery} {m : DomainMatch} {ready : Db}
    (h : Prepared A db recipient m ready) (id : Nat) {f : MailboxRow → MailboxRow}
    (hf : KeepsIdentity f) : Prepared A db recipient m (ready.updateMailbox id f) where
  entries := fun x a d => (entry_updateMailbox hf x a d).trans (h.entries x a d)
  mailOnly := h.mailOnly.trans (updateMailbox_mailOnly id f)
  delivery_ids := h.delivery_ids
  holds := h.holds
  keeps := h.keeps
  unmerged := h.unmerged

/-- Without a mailbox to merge, the opened database is the prepared one. -/
theorem Prepared.of_opened {recipient : RecipientDelivery} {m : DomainMatch} {opened : Db}
    (hentries : ∀ id address domainId, opened.Entry id address domainId ↔
      (id = targetId A db recipient m ∧ address = m.addressCanonical ∧
        domainId = targetDomain db m) ∨
        (id ≠ targetId A db recipient m ∧ db.Entry id address domainId))
    (hreplaced : ∀ s ∈ replacedMailbox? A db recipient m, s.id = targetId A db recipient m)
    (hmail : db.MailOnly opened) (hdel : opened.deliveries = db.deliveries) :
    Prepared A db recipient m opened where
  entries := by
    intro id address domainId
    rw [hentries]
    refine or_congr_right (and_congr_right fun hne => ?_)
    exact (and_iff_right fun s hs heq => hne (heq.trans (hreplaced s hs))).symm
  mailOnly := hmail
  delivery_ids := by
    rw [hdel]
    exact fun d hd => ⟨d, hd, rfl⟩
  holds := by
    intro messageId
    rw [hdel]
    refine exists_congr fun d => and_congr_right fun _ => and_congr_right fun _ => ?_
    exact (or_iff_left_of_imp fun ⟨s, hs, heq⟩ => heq.trans (hreplaced s hs)).symm
  keeps := by
    intro messageId _
    rw [hdel]
  unmerged := fun _ => hdel

theorem Prepared.of_merged {recipient : RecipientDelivery} {m : DomainMatch} {opened merged : Db}
    {s : MailboxRow} (hs : replacedMailbox? A db recipient m = some s)
    (hne : targetId A db recipient m ≠ s.id)
    (hentries : ∀ id address domainId, opened.Entry id address domainId ↔
      (id = targetId A db recipient m ∧ address = m.addressCanonical ∧
        domainId = targetDomain db m) ∨
        (id ≠ targetId A db recipient m ∧ db.Entry id address domainId))
    (hmerged : ∀ id address domainId, merged.Entry id address domainId ↔
      id ≠ s.id ∧ opened.Entry id address domainId)
    (hmail : db.MailOnly merged) (hmerges : db.merges.length < merged.merges.length)
    (hopened : opened.deliveries = db.deliveries)
    (hdel : merged.deliveries = opened.deliveries.filterMap
      (opened.mergeRow columnText s.id (targetId A db recipient m))) :
    Prepared A db recipient m merged where
  entries := by
    intro id address domainId
    rw [hmerged, hentries, hs]
    constructor
    · rintro ⟨hid, ⟨rfl, ha, hd⟩ | ⟨ht, hentry⟩⟩
      · exact .inl ⟨rfl, ha, hd⟩
      · exact .inr ⟨ht, fun s' hs' => Option.mem_some.mp hs' ▸ hid, hentry⟩
    · rintro (⟨rfl, ha, hd⟩ | ⟨ht, hid, hentry⟩)
      · exact ⟨hne, .inl ⟨rfl, ha, hd⟩⟩
      · exact ⟨hid s rfl, .inr ⟨ht, hentry⟩⟩
  mailOnly := hmail
  delivery_ids := by
    rw [hdel]
    intro d' hd'
    obtain ⟨d, hd, hrow⟩ := List.mem_filterMap.mp hd'
    exact ⟨d, hopened ▸ hd, (mergeRow_identity hrow).2.1.symm⟩
  holds := by
    intro messageId
    rw [hdel, mergeDeliveries_holds hne, hopened, hs]
    simp
  keeps := by
    intro messageId h
    rw [hdel, mergeDeliveries_keeps, hopened]
    intro d hd hmsg
    rw [hopened] at hd
    exact ⟨(h d hd hmsg).1, (h d hd hmsg).2 s hs⟩
  unmerged := by
    intro heq
    rw [heq] at hmerges
    exact absurd hmerges (Nat.lt_irrefl _)

/-- Up to its delivery, the loop cannot fail on a recipient whose domain exists. -/
theorem prepareRecipient (hdb : db.Consistent) (recipient : RecipientDelivery) {m : DomainMatch}
    (hdom : ∃ d ∈ db.domains, d.id = m.domainId) (receivedAt : Timestamp) :
    ∃ mailbox opened merged,
      openMailbox db receivedAt m (planMailbox A db recipient m) = .ok (mailbox, opened) ∧
      mergeSources opened mailbox.id (planMailbox A db recipient m).sources = .ok merged ∧
      mailbox.id = targetId A db recipient m ∧ Prepared A db recipient m merged := by
  rw [planMailbox_eq hdb]
  have hid := targetId.eq_def A db recipient m
  have hdomain := targetDomain.eq_def db m
  cases hexact : db.mailboxAt? m.addressCanonical with
  | some b =>
    obtain ⟨hb, haddr⟩ := find?_key hexact
    rw [hexact] at hid hdomain
    dsimp only at hid hdomain
    have hfree : ∀ c ∈ db.mailboxes, c.addressCanonical = m.addressCanonical → c.id = b.id := by
      intro c hc hca
      rw [hdb.mailbox_addresses.eq_of_mem hc hb (hca.trans haddr.symm)]
    obtain ⟨mailbox, opened, hopen, hmid, hdel, hentries⟩ := openMailbox_existing hdb hdom hb hfree
      (.inl haddr) receivedAt (replacedMailbox? A db recipient m).toList
    rw [Option.map_some, Option.getD_some] at hdomain
    rw [← hdomain, ← hid] at hentries
    have hmail := openMailbox_mailOnly hopen
    cases hs : replacedMailbox? A db recipient m with
    | none =>
      rw [hs] at hopen
      refine ⟨mailbox, opened, opened, hopen, rfl, hmid.trans hid.symm, ?_⟩
      refine .of_opened hentries ?_ hmail hdel
      rw [hs]
      exact fun s hs => by cases hs
    | some s =>
      rw [hs] at hopen
      have hne : b.id ≠ s.id := by
        obtain ⟨address, -, haddress, hat, -⟩ := replacedMailbox?_eq_some.mp hs
        intro heq
        exact haddress ((entry_of_mailboxAt? hat).eq_of_id hdb
          (heq ▸ entry_of_mailboxAt? hexact)).1
      obtain ⟨merged, hmerge, hmdel, hmerges, hmentries⟩ :=
        mergeMailboxInto_entries opened (hmid ▸ hne)
      rw [openMailbox_merges hopen] at hmerges
      refine ⟨mailbox, opened, merged, hopen, ?_, hmid.trans hid.symm, ?_⟩
      · simp [mergeSources, hmerge]
      · rw [hmid, ← hid] at hmdel
        exact .of_merged hs (hid ▸ hne) hentries hmentries
          (hmail.trans (mergeMailboxInto_mailOnly hmerge)) hmerges hdel hmdel
  | none =>
    rw [hexact] at hid hdomain
    cases hs : replacedMailbox? A db recipient m with
    | some s =>
      rw [hs] at hid
      obtain ⟨address, -, -, hat, -⟩ := replacedMailbox?_eq_some.mp hs
      have hmanaged := replacedMailbox?_managed hs
      obtain ⟨mailbox, opened, hopen, hmid, hdel, hentries⟩ := openMailbox_existing hdb hdom
        (find?_key hat).1 (fun c hc hca => absurd hca (find?_key_none.mp hexact c hc))
        (.inr hmanaged) receivedAt []
      refine ⟨mailbox, opened, opened, hopen, rfl, hmid.trans hid.symm, ?_⟩
      refine .of_opened ?_ ?_ (openMailbox_mailOnly hopen) hdel
      · rw [hid, hdomain]
        rw [if_pos hmanaged] at hentries ⊢
        exact hentries
      · rw [hs, hid]
        exact fun s' hs' => by rw [Option.mem_some.mp hs']
    | none =>
      rw [hs] at hid
      obtain ⟨opened, hopen, hdel, hentries⟩ := openMailbox_new hdb hdom hexact receivedAt []
      refine ⟨_, opened, opened, hopen, rfl, hid.symm, ?_⟩
      refine .of_opened ?_ ?_ (openMailbox_mailOnly hopen) hdel
      · rw [hid, hdomain]
        simpa using hentries
      · rw [hs]
        exact fun s hs => by cases hs

/-- The delivery goes into the mailbox of the prepared database. -/
theorem storeRecipient_eq (hdb : db.Consistent) (job : MailJob) (recipient : RecipientDelivery)
    {m : DomainMatch} (hdom : ∃ d ∈ db.domains, d.id = m.domainId) :
    ∃ ready expiresAt generation, Prepared A db recipient m ready ∧
      storeRecipient A job recipient m db =
        ready.insertDelivery recipient.deliveryId job.messageId (targetId A db recipient m)
          recipient.rcptTo job.receivedAt expiresAt generation := by
  obtain ⟨mailbox, opened, merged, hopen, hmerge, hid, hprepared⟩ :=
    prepareRecipient (A := A) hdb recipient hdom job.receivedAt
  unfold storeRecipient
  dsimp only
  rw [hopen]
  dsimp only
  rw [hmerge, ← hid]
  refine ⟨_, _, _, ?_, rfl⟩
  have hrefreshed : Prepared A db recipient m (if (mailbox.rehomed ||
      !(planMailbox A db recipient m).sources.isEmpty) = true then
        merged.refreshSummary mailbox.id else merged) := by
    split
    · exact hprepared.updateMailbox _ (withSummary_keeps _)
    · exact hprepared
  split
  · exact hrefreshed
  · exact hrefreshed.updateMailbox _ (touch_keeps _)

end BatchWriter
end RapidInbox
