import RapidInbox.Store.RecipientLoop

/-!
# The mailbox of a recovered recipient

What `promote_mailbox_ownership` and `_ensure_recovery_mailbox_record` do to the mailboxes.  The
delivery goes to the mailbox with the address of the ownership match, and a managed match takes that
mailbox over unless another managed domain that it does not extend owns it.
-/

namespace RapidInbox

open Table

namespace Db

variable {db db' : Db}

/-- The domain that owns the mailbox with an address. -/
def ownerAt (db : Db) (address : Text) : Option Nat :=
  (db.mailboxAt? address).map MailboxRow.domainId

/-- The mailbox with the address of a match belongs to another managed domain, which the domain of
    the match does not extend. -/
def blocked (db : Db) (m : DomainMatch) : Bool :=
  (db.mailboxAt? m.addressCanonical).any fun b =>
    b.domainId ≠ m.domainId && (db.ownerRoot? b).any fun root =>
      root ≠ catchAllRoot && !decide (IsSubdomainOf m.rootDomainAscii root)

/-- The owner of the mailbox that a recovered delivery goes to. -/
def recoveryDomain (db : Db) (m : DomainMatch) : Nat :=
  if m.managed && !db.blocked m then m.domainId else (db.ownerAt m.addressCanonical).getD m.domainId

theorem refreshRehomed_entries (id : Nat) (first last : Timestamp) (x : Nat) (address : Text)
    (domainId : Nat) :
    (db.refreshRehomedMailboxSummary id first last).Entry x address domainId ↔
      db.Entry x address domainId := by
  refine entry_updateMailbox ?_ x address domainId
  exact ⟨fun _ => rfl, fun _ => rfl, fun _ => rfl, fun _ => rfl⟩

/-- A promotion in place gives the mailbox the identity of the match. -/
theorem promoteInPlace_entries (hdb : db.Consistent) {b : MailboxRow} (hb : b ∈ db.mailboxes)
    {m : DomainMatch} (hdom : ∃ d ∈ db.domains, d.id = m.domainId)
    (haddr : ∀ c ∈ db.mailboxes, c.addressCanonical = m.addressCanonical → c.id = b.id) :
    ∃ db', db.promoteInPlace b m = .ok (⟨b.id, true, 0, 0⟩, db') ∧ db'.deliveries = db.deliveries ∧
      ∀ id address domainId, db'.Entry id address domainId ↔
        (id = b.id ∧ address = m.addressCanonical ∧ domainId = m.domainId) ∨
          (id ≠ b.id ∧ db.Entry id address domainId) := by
  unfold promoteInPlace
  rw [updateMailboxIdentity_eq hdb haddr hdom]
  refine ⟨_, rfl, rfl, ?_⟩
  intro id address domainId
  rw [refreshRehomed_entries, entry_withIdentity hb]

/-- A promotion by a merge ends in the mailbox with the address, which changes its owner only if the
    match is an improvement for it too. -/
theorem promoteByMerge_entry (hdb : db.Consistent) {source target : MailboxRow} {root : Text}
    {m : DomainMatch} (ht : target ∈ db.mailboxes) (hne : target.id ≠ source.id)
    (hdom : ∃ d ∈ db.domains, d.id = m.domainId)
    (haddr : target.addressCanonical = m.addressCanonical) :
    ∃ moved deduplicated db', db.promoteByMerge source target root m =
        .ok (⟨target.id, true, moved, deduplicated⟩, db') ∧
      db'.Entry target.id m.addressCanonical
        (if mailboxNeedsOwnershipPromotion target root m then m.domainId else target.domainId) := by
  have hpromoted : ∃ promoted, db.promoteTarget target root m = .ok promoted ∧
      promoted.Entry target.id m.addressCanonical
        (if mailboxNeedsOwnershipPromotion target root m then m.domainId else target.domainId) := by
    unfold promoteTarget
    by_cases hneeds : mailboxNeedsOwnershipPromotion target root m = true
    · rw [if_pos hneeds, if_pos hneeds]
      refine ⟨_, updateMailboxIdentity_eq hdb ?_ hdom, ?_⟩
      · intro c hc hca
        rw [hdb.mailbox_addresses.eq_of_mem hc ht (hca.trans haddr.symm)]
      · exact (entry_withIdentity ht m _ _ _).mpr (.inl ⟨rfl, rfl, rfl⟩)
    · rw [if_neg hneeds, if_neg hneeds, ← haddr]
      exact ⟨db, rfl, .of_mem ht⟩
  obtain ⟨promoted, hpromote, hentry⟩ := hpromoted
  unfold promoteByMerge
  rw [hpromote]
  dsimp only
  -- the merge has moved every delivery of the source
  rw [deleteMailbox_eq (mergeDeliveries_leaves (Ne.symm hne))]
  refine ⟨_, _, _, rfl, ?_⟩
  have hflagged : (promoted.updateMailbox target.id fun b => b.mergeFlags source).Entry target.id
      m.addressCanonical
      (if mailboxNeedsOwnershipPromotion target root m then m.domainId else target.domainId) :=
    (entry_updateMailbox (mergeFlags_keeps source) _ _ _).mpr hentry
  obtain ⟨b, hb, hid, hrest⟩ := (refreshRehomed_entries target.id
    (min source.firstSeenAt target.firstSeenAt) (max source.lastSeenAt target.lastSeenAt) _ _ _).mpr
      (show ((promoted.updateMailbox target.id fun b => b.mergeFlags source).mergeDeliveries
        id source.id target.id).Entry target.id m.addressCanonical _ from hflagged)
  exact ⟨b, List.mem_filter.mpr ⟨hb, by simpa [hid] using hne⟩, hid, hrest⟩

theorem promoteMailboxOwnership_eq (hdb : db.Consistent) {b : MailboxRow} (hb : b ∈ db.mailboxes)
    {root : Text} (hroot : db.ownerRoot? b = some root) (m : DomainMatch) :
    db.promoteMailboxOwnership b.id m =
      if mailboxNeedsOwnershipPromotion b root m then
        match db.mailboxAt? m.addressCanonical with
        | none => db.promoteInPlace b m
        | some target =>
          match db.ownerRoot? target with
          | none => db.promoteInPlace b m
          | some targetRoot =>
            if target.id = b.id then db.promoteInPlace b m
            else db.promoteByMerge b target targetRoot m
      else .ok (⟨b.id, false, 0, 0⟩, db) := by
  unfold promoteMailboxOwnership
  rw [mailbox?, hdb.mailbox_ids.find?_eq_some hb rfl]
  dsimp only
  rw [hroot]
  dsimp only
  cases mailboxNeedsOwnershipPromotion b root m with
  | true => rfl
  | false => rfl

/-- For the mailbox with the address of a managed match: it is promoted, or it belongs to the domain
    of the match already, or it is blocked. -/
theorem blocked_of_not_promoted {b : MailboxRow} {root : Text} {m : DomainMatch}
    (hexact : db.mailboxAt? m.addressCanonical = some b) (hroot : db.ownerRoot? b = some root)
    (hmanaged : m.managed = true) (h : mailboxNeedsOwnershipPromotion b root m = false) :
    b.domainId = m.domainId ∨ db.blocked m = true := by
  by_cases hsame : b.domainId = m.domainId
  · exact .inl hsame
  · refine .inr ?_
    have hne : m.rootDomainAscii ≠ catchAllRoot := by simpa [DomainMatch.managed] using hmanaged
    rw [mailboxNeedsOwnershipPromotion, if_neg hne, if_neg hsame] at h
    unfold blocked
    rw [hexact, Option.any_some, hroot, Option.any_some]
    split at h
    · cases h
    · rename_i hroot
      simpa [hsame, hroot] using h

theorem not_blocked_of_promoted {b : MailboxRow} {root : Text} {m : DomainMatch}
    (hexact : db.mailboxAt? m.addressCanonical = some b) (hroot : db.ownerRoot? b = some root)
    (h : mailboxNeedsOwnershipPromotion b root m = true) : db.blocked m = false := by
  unfold blocked
  rw [hexact, Option.any_some, hroot, Option.any_some]
  unfold mailboxNeedsOwnershipPromotion at h
  split at h
  · cases h
  · split at h
    · rename_i hsame
      simp [hsame]
    · split at h
      · rename_i hcatch
        simp [hcatch]
      · simp [h]

/-- The mailbox with the address of a match is promoted in place. -/
theorem recoveryCandidate_exact_entries (hdb : db.Consistent) {b : MailboxRow} {root : Text}
    {m : DomainMatch} (hexact : db.mailboxAt? m.addressCanonical = some b)
    (hroot : db.ownerRoot? b = some root) (hdom : ∃ d ∈ db.domains, d.id = m.domainId)
    (hneeds : mailboxNeedsOwnershipPromotion b root m = true) :
    ∃ db', db.recoveryCandidate m m.addressCanonical = .ok (some b.id, db') ∧
      db'.deliveries = db.deliveries ∧ ∀ id address domainId, db'.Entry id address domainId ↔
        (id = b.id ∧ address = m.addressCanonical ∧ domainId = m.domainId) ∨
          (id ≠ b.id ∧ db.Entry id address domainId) := by
  obtain ⟨hb, haddr⟩ := find?_key hexact
  have hmanaged : m.rootDomainAscii ≠ catchAllRoot := by
    intro heq
    rw [mailboxNeedsOwnershipPromotion, if_pos heq] at hneeds
    cases hneeds
  obtain ⟨db', hpromote, hdel, hentries⟩ := promoteInPlace_entries hdb hb hdom
    fun c hc hca => by rw [hdb.mailbox_addresses.eq_of_mem hc hb (hca.trans haddr.symm)]
  refine ⟨db', ?_, hdel, hentries⟩
  unfold recoveryCandidate
  rw [hexact]
  dsimp only
  rw [if_pos hmanaged, promoteMailboxOwnership_eq hdb hb hroot, if_pos hneeds, hexact]
  dsimp only
  rw [hroot]
  dsimp only
  rw [if_pos rfl, hpromote]
  rfl

/-- A mailbox that is not promoted is left alone. -/
theorem recoveryCandidate_none (hdb : db.Consistent) {m : DomainMatch} {address : Text}
    (h : ∀ b root, db.mailboxAt? address = some b → db.ownerRoot? b = some root →
      mailboxNeedsOwnershipPromotion b root m = false) :
    db.recoveryCandidate m address = .ok (none, db) := by
  unfold recoveryCandidate
  cases hat : db.mailboxAt? address with
  | none => rfl
  | some b =>
    dsimp only
    split
    · obtain ⟨hb, -⟩ := find?_key hat
      obtain ⟨d, -, -, hroot⟩ := exists_ownerRoot? hdb hb
      rw [promoteMailboxOwnership_eq hdb hb hroot, h b _ hat hroot]
      rfl
    · rfl

/-- The mailbox at another address is promoted: into the mailbox with the address of the match, or
    in place if there is none. -/
theorem recoveryCandidate_other (hdb : db.Consistent) {m : DomainMatch} {address root : Text}
    {b : MailboxRow} (hat : db.mailboxAt? address = some b) (hroot : db.ownerRoot? b = some root)
    (hne : address ≠ m.addressCanonical) (hdom : ∃ d ∈ db.domains, d.id = m.domainId)
    (hneeds : mailboxNeedsOwnershipPromotion b root m = true)
    (htarget : ∀ t targetRoot, db.mailboxAt? m.addressCanonical = some t →
      db.ownerRoot? t = some targetRoot → mailboxNeedsOwnershipPromotion t targetRoot m = false) :
    ∃ id db', db.recoveryCandidate m address = .ok (some id, db') ∧
      db'.Entry id m.addressCanonical ((db.ownerAt m.addressCanonical).getD m.domainId) := by
  obtain ⟨hb, haddr⟩ := find?_key hat
  have hmanaged : m.rootDomainAscii ≠ catchAllRoot := by
    intro heq
    rw [mailboxNeedsOwnershipPromotion, if_pos heq] at hneeds
    cases hneeds
  unfold recoveryCandidate ownerAt
  rw [hat]
  dsimp only
  rw [if_pos hmanaged, promoteMailboxOwnership_eq hdb hb hroot, if_pos hneeds]
  cases hexact : db.mailboxAt? m.addressCanonical with
  | none =>
    obtain ⟨db', hpromote, -, hentries⟩ := promoteInPlace_entries hdb hb hdom
      fun c hc hca => absurd hca (find?_key_none.mp hexact c hc)
    dsimp only
    rw [hpromote]
    exact ⟨b.id, db', rfl, (hentries _ _ _).mpr (.inl ⟨rfl, rfl, rfl⟩)⟩
  | some t =>
    obtain ⟨ht, htaddr⟩ := find?_key hexact
    obtain ⟨d, -, -, htroot⟩ := exists_ownerRoot? hdb ht
    have hids : t.id ≠ b.id := by
      intro heq
      rw [hdb.mailbox_ids.eq_of_mem ht hb heq] at htaddr
      exact hne (haddr.symm.trans htaddr)
    obtain ⟨moved, deduplicated, db', hmerge, hentry⟩ := promoteByMerge_entry hdb ht hids hdom
      htaddr
    dsimp only
    rw [htroot]
    dsimp only
    rw [if_neg hids, hmerge]
    refine ⟨t.id, db', rfl, ?_⟩
    rw [htarget t _ hexact htroot] at hentry
    exact hentry

/-- If the mailbox with the address is not promoted, the delivery goes to its owner. -/
theorem recoveryDomain_of_not_promoted (hdb : db.Consistent) {m : DomainMatch}
    (h : ∀ b root, db.mailboxAt? m.addressCanonical = some b → db.ownerRoot? b = some root →
      mailboxNeedsOwnershipPromotion b root m = false) :
    db.recoveryDomain m = (db.ownerAt m.addressCanonical).getD m.domainId := by
  unfold recoveryDomain
  split
  · rename_i hcond
    rw [Bool.and_eq_true, Bool.not_eq_true'] at hcond
    unfold ownerAt
    cases hexact : db.mailboxAt? m.addressCanonical with
    | none => rfl
    | some b =>
      obtain ⟨d, -, -, hroot⟩ := exists_ownerRoot? hdb (find?_key hexact).1
      rcases blocked_of_not_promoted hexact hroot hcond.1 (h b _ hexact hroot) with hsame | hblocked
      · exact hsame.symm
      · rw [hcond.2] at hblocked
        cases hblocked
  · rfl

/-- The end of the loop over the candidates: the mailbox with the address, or a new one. -/
theorem existingTarget_entry (hdb : db.Consistent) {m : DomainMatch}
    (hdom : ∃ d ∈ db.domains, d.id = m.domainId) (receivedAt : Timestamp) :
    ∃ id db', (match (db.mailboxAt? m.addressCanonical).map MailboxRow.id with
        | some id => Except.ok (id, db)
        | none => db.insertMailbox m receivedAt 0 none) = .ok (id, db') ∧
      db'.deliveries = db.deliveries ∧
      db'.Entry id m.addressCanonical ((db.ownerAt m.addressCanonical).getD m.domainId) ∧
      ∀ x address domainId, address ≠ m.addressCanonical →
        (db'.Entry x address domainId ↔ db.Entry x address domainId) := by
  unfold ownerAt
  cases hexact : db.mailboxAt? m.addressCanonical with
  | some b =>
    exact ⟨b.id, db, rfl, rfl, entry_of_mailboxAt? hexact, fun _ _ _ _ => Iff.rfl⟩
  | none =>
    obtain ⟨db', hins, hdel, hentries⟩ := insertMailbox_entries hdb hexact hdom receivedAt 0 none
    refine ⟨_, db', hins, hdel, (hentries _ _ _).mpr (.inl ⟨rfl, rfl, rfl⟩), ?_⟩
    intro x address domainId hne
    rw [hentries]
    constructor
    · rintro (⟨-, heq, -⟩ | ⟨-, hentry⟩)
      · exact absurd heq hne
      · exact hentry
    · intro hentry
      obtain ⟨c, hc, hid, -⟩ := id hentry
      have hle := hdb.mailbox_seq c hc
      exact .inr ⟨by omega, hentry⟩

/-- The mailbox of a recovered recipient has the address of the ownership match. -/
theorem recoveryMailbox_entry (hdb : db.Consistent) {m : DomainMatch}
    (hdom : ∃ d ∈ db.domains, d.id = m.domainId) (receiptAddress : Text) (receivedAt : Timestamp) :
    ∃ id db', db.recoveryMailbox m receiptAddress receivedAt = .ok (id, db') ∧
      db'.Entry id m.addressCanonical (db.recoveryDomain m) := by
  unfold recoveryMailbox
  dsimp only
  by_cases hneeds : ∀ b root, db.mailboxAt? m.addressCanonical = some b →
      db.ownerRoot? b = some root → mailboxNeedsOwnershipPromotion b root m = false
  · rw [recoveryCandidate_none hdb hneeds, recoveryDomain_of_not_promoted hdb hneeds]
    dsimp only
    obtain ⟨id, db', htarget, -, hentry, -⟩ := existingTarget_entry hdb hdom receivedAt
    by_cases hsame : receiptAddress = m.addressCanonical
    · rw [if_pos hsame]
      exact ⟨id, db', htarget, hentry⟩
    · rw [if_neg hsame]
      by_cases hother : ∀ b root, db.mailboxAt? receiptAddress = some b →
          db.ownerRoot? b = some root → mailboxNeedsOwnershipPromotion b root m = false
      · rw [recoveryCandidate_none hdb hother]
        exact ⟨id, db', htarget, hentry⟩
      · push Not at hother
        obtain ⟨b, root, hat, hroot, hpromote⟩ := hother
        obtain ⟨id₁, db₁, hcandidate, hentry₁⟩ := recoveryCandidate_other hdb hat hroot hsame hdom
          (by simpa using hpromote) hneeds
        rw [hcandidate]
        exact ⟨id₁, db₁, rfl, hentry₁⟩
  · push Not at hneeds
    obtain ⟨b, root, hexact, hroot, hpromote⟩ := hneeds
    have hpromote : mailboxNeedsOwnershipPromotion b root m = true := by simpa using hpromote
    obtain ⟨db', hcandidate, -, hentries⟩ := recoveryCandidate_exact_entries hdb hexact hroot hdom
      hpromote
    rw [hcandidate]
    refine ⟨b.id, db', rfl, (hentries _ _ _).mpr (.inl ⟨rfl, rfl, ?_⟩)⟩
    have hmanaged : m.managed = true := by
      unfold DomainMatch.managed
      rw [decide_eq_true_iff]
      intro heq
      rw [mailboxNeedsOwnershipPromotion, if_pos heq] at hpromote
      cases hpromote
    rw [recoveryDomain, hmanaged, not_blocked_of_promoted hexact hroot hpromote]
    rfl

/-- A receipt with the address of its ownership match moves no delivery, and every mailbox keeps its
    address. -/
theorem recoveryMailbox_same (hdb : db.Consistent) {m : DomainMatch}
    (hdom : ∃ d ∈ db.domains, d.id = m.domainId) (receivedAt : Timestamp) :
    ∃ id db', db.recoveryMailbox m m.addressCanonical receivedAt = .ok (id, db') ∧
      db'.deliveries = db.deliveries ∧ (∃ domainId, db'.Entry id m.addressCanonical domainId) ∧
      ∀ x address domainId, db.Entry x address domainId →
        ∃ domainId', db'.Entry x address domainId' := by
  unfold recoveryMailbox
  dsimp only
  by_cases hneeds : ∀ b root, db.mailboxAt? m.addressCanonical = some b →
      db.ownerRoot? b = some root → mailboxNeedsOwnershipPromotion b root m = false
  · rw [recoveryCandidate_none hdb hneeds]
    dsimp only
    obtain ⟨id, db', htarget, hdel, hentry, hentries⟩ := existingTarget_entry hdb hdom receivedAt
    rw [if_pos rfl]
    refine ⟨id, db', htarget, hdel, ⟨_, hentry⟩, ?_⟩
    intro x address domainId hx
    by_cases haddr : address = m.addressCanonical
    · subst haddr
      obtain ⟨b, hb, rfl, rfl⟩ := hx.mailboxAt? hdb
      rw [hb] at htarget
      cases htarget
      exact ⟨_, hx⟩
    · exact ⟨domainId, (hentries x address domainId haddr).mpr hx⟩
  · push Not at hneeds
    obtain ⟨b, root, hexact, hroot, hpromote⟩ := hneeds
    obtain ⟨db', hcandidate, hdel, hentries⟩ := recoveryCandidate_exact_entries hdb hexact hroot hdom
      (by simpa using hpromote)
    rw [hcandidate]
    refine ⟨b.id, db', rfl, hdel, ⟨_, (hentries _ _ _).mpr (.inl ⟨rfl, rfl, rfl⟩)⟩, ?_⟩
    intro x address domainId hx
    by_cases hid : x = b.id
    · subst hid
      obtain ⟨rfl, -⟩ := hx.eq_of_id hdb (entry_of_mailboxAt? hexact)
      exact ⟨_, (hentries _ _ _).mpr (.inl ⟨rfl, rfl, rfl⟩)⟩
    · exact ⟨domainId, (hentries _ _ _).mpr (.inr ⟨hid, hx⟩)⟩

end Db
end RapidInbox
