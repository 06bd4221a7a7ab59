import RapidInbox.Domain.Normalize
import RapidInbox.Store.Edits

/-!
# The operations of the Python service as edits

A promotion renames a mailbox only when `_mailbox_needs_ownership_promotion` says so, and only a
replayed receipt may add a domain.
-/

namespace RapidInbox

open Table Relation

/-- Every domain root is `*` or normalised, as `create_domain` and the receipts make them. -/
def Db.RootsNormalized (db : Db) : Prop := ∀ d ∈ db.domains, IsNormalizedRoot d.rootDomainAscii

/-- The domain a match names is in the table, under the root the match names. -/
def Db.HasDomain (db : Db) (m : DomainMatch) : Prop :=
  ∃ d ∈ db.domains, d.id = m.domainId ∧ d.rootDomainAscii = m.rootDomainAscii

/-- The service renames a mailbox to promote it, and adds domains with receipts' roots. -/
def serviceRules (receiptRoot : Text → Prop) (newMail : MailInsert → Prop) : EditRules where
  rename db b m :=
    (∃ root, db.ownerRoot? b = some root ∧ mailboxNeedsOwnershipPromotion b root m) ∧
      (db.RootsNormalized → db.HasDomain m)
  redomain db domains := ∃ d, domains = db.domains ++ [d] ∧ receiptRoot d.rootDomainAscii
  newJob _ := False
  newMail := newMail

namespace Db

variable {db db' : Db} {rules : EditRules}

theorem MailOnly.rootsNormalized_iff (h : db.MailOnly db') :
    db'.RootsNormalized ↔ db.RootsNormalized := by
  unfold RootsNormalized
  rw [h.domains]

theorem MailOnly.hasDomain_iff (h : db.MailOnly db') {m : DomainMatch} :
    db'.HasDomain m ↔ db.HasDomain m := by
  unfold HasDomain
  rw [h.domains]

theorem refreshRehomed_keeps (active : List DeliveryRow) (first last : Timestamp) :
    KeepsIdentity fun b =>
      { b.withSummary active with
        firstSeenAt := min b.firstSeenAt first, lastSeenAt := max b.lastSeenAt last } :=
  ⟨fun _ => rfl, fun _ => rfl, fun _ => rfl, fun _ => rfl⟩

theorem mergeFlags_keeps (source : MailboxRow) : KeepsIdentity fun b => b.mergeFlags source :=
  ⟨fun _ => rfl, fun _ => rfl, fun _ => rfl, fun _ => rfl⟩

theorem assignLatest_keeps (receivedAt : Timestamp) :
    KeepsIdentity fun b => b.assignLatest receivedAt :=
  ⟨fun _ => rfl, fun _ => rfl, fun _ => rfl, fun _ => rfl⟩

/-- Which mailboxes the rules let a promotion rename. -/
def MayPromote (rules : EditRules) (db : Db) (m : DomainMatch) : Prop :=
  ∀ b ∈ db.mailboxes, ∀ root, db.ownerRoot? b = some root →
    mailboxNeedsOwnershipPromotion b root m → rules.rename db b m

theorem promoteInPlace_edits {source : MailboxRow} {m : DomainMatch} {result : PromoteResult}
    (hsource : source ∈ db.mailboxes) (hown : rules.rename db source m)
    (h : db.promoteInPlace source m = .ok (result, db')) :
    Edits rules db db' ∧ db.MailOnly db' := by
  unfold promoteInPlace at h
  split at h
  · cases h
  · rename_i db₁ hupd
    cases h
    refine ⟨(Edits.single (.setIdentity hsource hown hupd)).tail
      (updateMailbox_edit _ (refreshRehomed_keeps _ _ _)), ?_⟩
    exact (updateMailboxIdentity_mailOnly hupd).trans (updateMailbox_mailOnly _ _)

theorem promoteTarget_edits {target : MailboxRow} {targetRoot : Text} {m : DomainMatch}
    (htarget : target ∈ db.mailboxes) (hroot : db.ownerRoot? target = some targetRoot)
    (hown : MayPromote rules db m) (h : db.promoteTarget target targetRoot m = .ok db') :
    Edits rules db db' ∧ db.MailOnly db' ∧
      db'.HasMailbox target.id target.bulkDeleteGeneration := by
  have hhas : db.HasMailbox target.id target.bulkDeleteGeneration := ⟨target, htarget, rfl, rfl⟩
  unfold promoteTarget at h
  split at h
  · rename_i hneeds
    exact ⟨.single (.setIdentity htarget (hown target htarget targetRoot hroot hneeds) h),
      updateMailboxIdentity_mailOnly h, hhas.updateMailboxIdentity h⟩
  · cases h
    exact ⟨.refl, .refl db, hhas⟩

theorem promoteByMerge_edits {source target : MailboxRow} {targetRoot : Text} {m : DomainMatch}
    {result : PromoteResult} (htarget : target ∈ db.mailboxes)
    (hroot : db.ownerRoot? target = some targetRoot) (hne : source.id ≠ target.id)
    (hown : MayPromote rules db m)
    (h : db.promoteByMerge source target targetRoot m = .ok (result, db')) :
    Edits rules db db' ∧ db.MailOnly db' := by
  unfold promoteByMerge at h
  split at h
  · cases h
  · rename_i promoted hpromoted
    obtain ⟨hedits, honly, hhas⟩ := promoteTarget_edits htarget hroot hown hpromoted
    dsimp only at h
    split at h
    · cases h
    · rename_i db₁ hdel
      cases h
      have hhas₁ : (promoted.updateMailbox target.id fun b => b.mergeFlags source).HasMailbox
          target.id target.bulkDeleteGeneration :=
        hhas.updateMailbox (mergeFlags_keeps source).id (mergeFlags_keeps source).bulkDeleteGeneration
      constructor
      · exact ((((hedits.tail (updateMailbox_edit _ (mergeFlags_keeps source))).tail
          (.mergeDeliveries hne hhas₁.exists_mailbox)).tail
          (updateMailbox_edit _ (refreshRehomed_keeps _ _ _))).tail (deleteMailbox_edit hdel))
      · exact (((honly.trans (updateMailbox_mailOnly _ _)).trans
          (mergeDeliveries_mailOnly _ _ _)).trans (updateMailbox_mailOnly _ _)).trans
          (deleteMailbox_mailOnly hdel)

theorem promoteMailboxOwnership_edits {id : Nat} {m : DomainMatch} {result : PromoteResult}
    (hown : MayPromote rules db m)
    (h : db.promoteMailboxOwnership id m = .ok (result, db')) :
    Edits rules db db' ∧ db.MailOnly db' := by
  unfold promoteMailboxOwnership at h
  split at h
  · cases h
    exact ⟨.refl, .refl db⟩
  · rename_i source hsource
    obtain ⟨hmem, -⟩ := find?_key hsource
    split at h
    · cases h
      exact ⟨.refl, .refl db⟩
    · rename_i sourceRoot hsourceRoot
      split at h
      · cases h
        exact ⟨.refl, .refl db⟩
      · rename_i hneeds
        have hrename := hown source hmem sourceRoot hsourceRoot (by simpa using hneeds)
        split at h
        · exact promoteInPlace_edits hmem hrename h
        · rename_i target htarget
          split at h
          · exact promoteInPlace_edits hmem hrename h
          · rename_i targetRoot htargetRoot
            split at h
            · exact promoteInPlace_edits hmem hrename h
            · rename_i hne
              exact promoteByMerge_edits (find?_key htarget).1 htargetRoot
                (fun heq => hne heq.symm) hown h

theorem findOrRehomeMailbox_edits {m : DomainMatch} {found : Option Nat}
    (hown : MayPromote rules db m) (h : db.findOrRehomeMailbox m = .ok (found, db')) :
    Edits rules db db' ∧ db.MailOnly db' := by
  unfold findOrRehomeMailbox at h
  split at h
  · cases h
    exact ⟨.refl, .refl db⟩
  · split at h
    · cases h
    · rename_i hpromote
      cases h
      exact promoteMailboxOwnership_edits hown hpromote

theorem upsertMailbox_edits {m : DomainMatch} {receivedAt : Timestamp} {id : Nat}
    (hown : MayPromote rules db m) (h : db.upsertMailbox m receivedAt = .ok (id, db')) :
    Edits rules db db' ∧ db.MailOnly db' := by
  unfold upsertMailbox at h
  split at h
  · cases h
  · rename_i db₁ hfind
    cases h
    obtain ⟨hedits, honly⟩ := findOrRehomeMailbox_edits hown hfind
    exact ⟨hedits.tail (updateMailbox_edit _ (assignLatest_keeps _)),
      honly.trans (updateMailbox_mailOnly _ _)⟩
  · rename_i db₁ hfind
    obtain ⟨hedits, honly⟩ := findOrRehomeMailbox_edits hown hfind
    exact ⟨hedits.tail (.addMailbox h), honly.trans (insertMailbox_mailOnly h)⟩

theorem acceptDelivery_edits {request : AcceptRequest} {r : AcceptRecipient} {m : DomainMatch}
    {retentionDays : Option Int} (hown : MayPromote rules db m)
    (hnew : rules.newMail (.delivery r.deliveryId request.messageId))
    (h : db.acceptDelivery request r m retentionDays = .ok db') :
    Edits rules db db' ∧ db.MailOnly db' := by
  unfold acceptDelivery at h
  split at h
  · cases h
  · rename_i mailboxId db₁ hupsert
    obtain ⟨hedits, honly⟩ := upsertMailbox_edits hown hupsert
    split at h
    · cases h
    · obtain ⟨hc, hp, rfl⟩ := insertDelivery_ok h
      exact ⟨hedits.tail (.addDelivery hnew hc hp), honly.trans (addDelivery_mailOnly _ _ _ _ _ _ _)⟩

/-- The domains decide what a promotion may rename, for service rules. -/
theorem mayPromote_service {receiptRoot : Text → Prop} {newMail : MailInsert → Prop} {m : DomainMatch}
    (hm : db.RootsNormalized → db.HasDomain m) : MayPromote (serviceRules receiptRoot newMail) db m :=
  fun _ _ root hroot hneeds => ⟨⟨root, hroot, hneeds⟩, hm⟩

theorem acceptDeliveries_edits {request : AcceptRequest} {receiptRoot : Text → Prop} {newMail : MailInsert → Prop}
    {found : List (AcceptRecipient × DomainMatch × Option Int)} {delivered : List (Nat × Text)}
    {n : Nat} (hfound : ∀ x ∈ found, db.RootsNormalized → db.HasDomain x.2.1)
    (hnew : ∀ x ∈ found, newMail (.delivery x.1.deliveryId request.messageId))
    (h : acceptDeliveries request found delivered db = .ok (n, db')) :
    Edits (serviceRules receiptRoot newMail) db db' ∧ db.MailOnly db' := by
  induction found generalizing delivered db n with
  | nil =>
    cases h
    exact ⟨.refl, .refl _⟩
  | cons x rest ih =>
    obtain ⟨r, m, retentionDays⟩ := x
    unfold acceptDeliveries at h
    have hrest : ∀ x ∈ rest, db.RootsNormalized → db.HasDomain x.2.1 :=
      fun x hx => hfound x (List.mem_cons_of_mem _ hx)
    have hnew' : ∀ x ∈ rest, newMail (.delivery x.1.deliveryId request.messageId) :=
      fun x hx => hnew x (List.mem_cons_of_mem _ hx)
    split at h
    · exact ih hrest hnew' h
    · split at h
      · cases h
      · rename_i db₁ hone
        split at h
        · cases h
        · rename_i n₁ db₂ hloop
          cases h
          obtain ⟨hedits, honly⟩ := acceptDelivery_edits
            (mayPromote_service (hfound _ List.mem_cons_self)) (hnew _ List.mem_cons_self) hone
          have hrest' : ∀ x ∈ rest, db₁.RootsNormalized → db₁.HasDomain x.2.1 := by
            intro x hx hnorm
            exact honly.hasDomain_iff.mpr (hrest x hx (honly.rootsNormalized_iff.mp hnorm))
          obtain ⟨hedits', honly'⟩ := ih hrest' hnew' hloop
          exact ⟨hedits.trans hedits', honly.trans honly'⟩

/-- The match of an address in a transaction names a domain of the table. -/
theorem matchActiveDomain_hasDomain {A : AddressOps} (hA : A.Lawful) {address : Text}
    {m : DomainMatch} (hroots : db.RootsNormalized)
    (h : db.matchActiveDomain A address = .ok (some m)) : db.HasDomain m := by
  unfold matchActiveDomain at h
  split at h
  · cases h
  · dsimp only at h
    rw [DomainMatcher.ofRules?_eq hA] at h
    · have hmatch := Except.ok.inj h
      obtain ⟨rule, hrule, hid, hroot⟩ := DomainMatcher.rule_of_matchAddress hmatch
      obtain ⟨d, hd, rfl⟩ := List.mem_map.mp hrule
      exact ⟨d, List.mem_of_mem_filter hd, hid.symm, hroot.symm⟩
    · intro rule hrule
      obtain ⟨d, hd, rfl⟩ := List.mem_map.mp hrule
      exact hroots d (List.mem_of_mem_filter hd)

theorem checkRecipient_ok {A : AddressOps} {size : Nat} {r : AcceptRecipient} {m : DomainMatch}
    {retentionDays : Option Int} (h : db.checkRecipient A size r = .ok (m, retentionDays)) :
    db.matchActiveDomain A r.rcptTo = .ok (some m) := by
  unfold checkRecipient at h
  split at h
  · cases h
  · split at h
    · cases h
    · split at h
      · cases h
      · cases h
      · rename_i current hcurrent
        split at h
        · cases h
        · split at h
          · cases h
          · split at h
            · cases h
            · cases h
              exact hcurrent

theorem mem_transactionMatches {A : AddressOps} {size : Nat} {recipients : List AcceptRecipient}
    {found : List (AcceptRecipient × DomainMatch × Option Int)}
    (h : db.transactionMatches A size recipients = .ok found) {x : AcceptRecipient × DomainMatch × Option Int}
    (hx : x ∈ found) : x.1 ∈ recipients ∧ db.matchActiveDomain A x.1.rcptTo = .ok (some x.2.1) := by
  induction recipients generalizing found with
  | nil =>
    cases h
    cases hx
  | cons r rest ih =>
    unfold transactionMatches at h
    split at h
    · cases h
    · rename_i y hcheck
      split at h
      · cases h
      · rename_i found' hrest
        cases h
        rcases List.mem_cons.mp hx with rfl | hx
        · obtain ⟨m, days⟩ := y
          exact ⟨List.mem_cons_self, checkRecipient_ok hcheck⟩
        · exact ⟨List.mem_cons_of_mem _ (ih hrest hx).1, (ih hrest hx).2⟩

theorem acceptSession_eq (db : Db) (request : AcceptRequest) :
    ∃ sessions, db.acceptSession request = { db with sessions := sessions } := by
  unfold acceptSession
  split
  · exact ⟨db.sessions, rfl⟩
  · exact ⟨_, rfl⟩

/-- The stages of an accepted message. -/
theorem acceptMessage_ok {A : AddressOps} {request : AcceptRequest}
    (h : db.acceptMessage A request = .ok db') :
    ∃ found db₁ db₂ row n,
      db.transactionMatches A request.rawSizeBytes request.recipients = .ok found ∧
      row.id = request.messageId ∧ row.receivedAt = request.receivedAt ∧
      (db.acceptSession request).insertMessage row = .ok db₁ ∧
      acceptDeliveries request found [] db₁ = .ok (n, db₂) ∧
      db' = db₂.upsertMetric (metricBucketTs request.receivedAt) 1 n 0 := by
  unfold acceptMessage at h
  split at h
  · cases h
  · split at h
    · cases h
    · rename_i found hfound
      split at h
      · cases h
      · rename_i db₁ hmsg
        split at h
        · cases h
        · rename_i n db₂ hloop
          cases h
          exact ⟨found, db₁, db₂, _, n, hfound, rfl, rfl, hmsg, hloop, rfl⟩

theorem acceptMessage_edits {A : AddressOps} (hA : A.Lawful) {request : AcceptRequest}
    {receiptRoot : Text → Prop} {newMail : MailInsert → Prop}
    (hmail : newMail (.message request.messageId))
    (hnew : ∀ r ∈ request.recipients, newMail (.delivery r.deliveryId request.messageId))
    (h : db.acceptMessage A request = .ok db') :
    Edits (serviceRules receiptRoot newMail) db db' := by
  obtain ⟨found, db₁, db₂, row, n, hfound, hid, -, hmsg, hloop, rfl⟩ := acceptMessage_ok h
  obtain ⟨sessions, hsession⟩ := acceptSession_eq db request
  have hedit : Edit (serviceRules receiptRoot newMail) db (db.acceptSession request) := by
    rw [hsession]
    exact .bookkeeping
  have hstart := (Edits.single hedit).tail (.addMessage hmsg (hid ▸ hmail))
  rw [hsession] at hmsg
  obtain ⟨-, rfl⟩ := insertMessage_ok hmsg
  have hmatch (x : AcceptRecipient × DomainMatch × Option Int) (hx : x ∈ found)
      (hnorm : db.RootsNormalized) : db.HasDomain x.2.1 :=
    matchActiveDomain_hasDomain hA hnorm (mem_transactionMatches hfound hx).2
  have hids (x : AcceptRecipient × DomainMatch × Option Int) (hx : x ∈ found) :
      newMail (.delivery x.1.deliveryId request.messageId) := hnew x.1 (mem_transactionMatches hfound hx).1
  refine (hstart.trans ?_).tail (BatchWriter.upsertMetric_edit _ _ _ _)
  exact (acceptDeliveries_edits (by exact hmatch) hids hloop).1

theorem ensureMailboxExists_edits {A : AddressOps} {m : DomainMatch} {now : Timestamp}
    (hrename : ∀ db b m, rules.rename db b m) (h : db.ensureMailboxExists A m now = .ok db') :
    Edits rules db db' := by
  unfold ensureMailboxExists at h
  split at h
  · cases h
  · rename_i m' _
    have hown : MayPromote rules db m' := fun _ _ _ _ _ => hrename _ _ _
    split at h
    · cases h
    · rename_i db₁ hfind
      cases h
      exact (findOrRehomeMailbox_edits hown hfind).1
    · rename_i db₁ hfind
      split at h
      · cases h
      · rename_i id db₂ hins
        cases h
        exact (findOrRehomeMailbox_edits hown hfind).1.tail (.addMailbox hins)

/-! ## Replayed receipts -/

theorem insertDomain_ok {preferred : Option Nat} {root : Text} {policy : DomainPolicySnapshot}
    {id : Nat} (h : db.insertDomain preferred root policy = .ok (id, db')) :
    (∀ d ∈ db.domains, d.rootDomainAscii ≠ root) ∧ (∀ d ∈ db.domains, d.id ≠ id) ∧
      db' = { db with
        domains := db.domains ++ [⟨id, root, policy⟩], domainSeq := max db.domainSeq id } := by
  unfold insertDomain at h
  dsimp only at h
  split at h
  · cases h
  · rename_i hroot
    split at h
    · cases h
    · rename_i hid
      cases h
      refine ⟨?_, ?_, rfl⟩
      · exact find?_key_none.mp (Option.not_isSome_iff_eq_none.mp hroot)
      · exact find?_key_none.mp (Option.not_isSome_iff_eq_none.mp hid)

theorem insertDomain_edit {preferred : Option Nat} {root : Text} {policy : DomainPolicySnapshot}
    {id : Nat} (hdb : db.Consistent) (hrule : ∀ d : DomainRow, d.rootDomainAscii = root →
      rules.redomain db (db.domains ++ [d]))
    (h : db.insertDomain preferred root policy = .ok (id, db')) : Edit rules db db' := by
  obtain ⟨hroot, hid, rfl⟩ := insertDomain_ok h
  refine .setDomains (hdb.domain_ids.append_singleton hid) (hdb.domain_roots.append_singleton hroot)
    ?_ (hrule _ rfl)
  intro b hb
  obtain ⟨d, hd, hdid⟩ := hdb.mailbox_domains b hb
  exact ⟨d, List.mem_append_left _ hd, hdid⟩

/-- The domain of a recovered recipient is in the table; it may have been added. -/
theorem ensureRecoveryDomainRecord_ok {r : RecoveryRecipient} {id : Nat}
    (h : db.ensureRecoveryDomainRecord r = .ok (id, db')) :
    (db' = db ∨ ∃ preferred policy,
      db.insertDomain preferred r.rootDomainAscii policy = .ok (id, db')) ∧
      ∃ d ∈ db'.domains, d.id = id ∧ d.rootDomainAscii = r.rootDomainAscii := by
  unfold ensureRecoveryDomainRecord at h
  dsimp only at h
  split at h
  · rename_i hany
    cases h
    refine ⟨.inl rfl, ?_⟩
    rw [Option.any_eq_true] at hany
    obtain ⟨d, hd, hid⟩ := hany
    obtain ⟨hmem, hroot⟩ := find?_key hd
    exact ⟨d, hmem, by simpa using hid, hroot⟩
  · split at h
    · cases h
    · split at h
      · rename_i d hd
        cases h
        obtain ⟨hmem, hroot⟩ := find?_key hd
        exact ⟨.inl rfl, d, hmem, rfl, hroot⟩
      · split at h
        · cases h
        · refine ⟨.inr ⟨_, _, h⟩, ?_⟩
          obtain ⟨-, -, rfl⟩ := insertDomain_ok h
          exact ⟨_, List.mem_append_right _ (List.mem_singleton.mpr rfl), rfl, rfl⟩

theorem ownershipMatch_hasDomain {A : AddressOps} (hA : A.Lawful) {r : RecoveryRecipient} {id : Nat}
    {m : DomainMatch} (hid : ∃ d ∈ db.domains, d.id = id ∧ d.rootDomainAscii = r.rootDomainAscii)
    (h : db.ownershipMatch A r id = .ok m) (hnorm : db.RootsNormalized) : db.HasDomain m := by
  unfold ownershipMatch at h
  split at h
  · cases h
  · cases h
    exact hid
  · rename_i current hcurrent
    split at h
    · cases h
      exact matchActiveDomain_hasDomain hA hnorm hcurrent
    · cases h
      exact hid

theorem recoveryCandidate_edits {m : DomainMatch} {address : Text} {found : Option Nat}
    (hown : MayPromote rules db m) (h : db.recoveryCandidate m address = .ok (found, db')) :
    Edits rules db db' ∧ db.MailOnly db' := by
  unfold recoveryCandidate at h
  split at h
  · cases h
    exact ⟨.refl, .refl db⟩
  · split at h
    · split at h
      · cases h
      · rename_i hpromote
        cases h
        exact promoteMailboxOwnership_edits hown hpromote
    · cases h
      exact ⟨.refl, .refl db⟩

theorem recoveryMailbox_edits {m : DomainMatch} {address : Text} {receivedAt : Timestamp} {id : Nat}
    {receiptRoot : Text → Prop} {newMail : MailInsert → Prop} (hm : db.RootsNormalized → db.HasDomain m)
    (h : db.recoveryMailbox m address receivedAt = .ok (id, db')) :
    Edits (serviceRules receiptRoot newMail) db db' ∧ db.MailOnly db' := by
  have hcarry {db₁ : Db} (honly : db.MailOnly db₁) : db₁.RootsNormalized → db₁.HasDomain m :=
    fun hnorm => honly.hasDomain_iff.mpr (hm (honly.rootsNormalized_iff.mp hnorm))
  unfold recoveryMailbox at h
  dsimp only at h
  split at h
  · cases h
  · rename_i hfirst
    cases h
    exact recoveryCandidate_edits (mayPromote_service hm) hfirst
  · rename_i db₁ hfirst
    obtain ⟨hedits, honly⟩ := recoveryCandidate_edits
      (mayPromote_service hm) hfirst
    split at h
    · cases h
    · rename_i hsecond
      cases h
      split at hsecond
      · cases hsecond
      · obtain ⟨hedits₂, honly₂⟩ := recoveryCandidate_edits
          (mayPromote_service (hcarry honly)) hsecond
        exact ⟨hedits.trans hedits₂, honly.trans honly₂⟩
    · rename_i db₂ hsecond
      have hstep : Edits (serviceRules receiptRoot newMail) db db₂ ∧ db.MailOnly db₂ := by
        split at hsecond
        · cases hsecond
          exact ⟨hedits, honly⟩
        · obtain ⟨hedits₂, honly₂⟩ := recoveryCandidate_edits
            (mayPromote_service (hcarry honly)) hsecond
          exact ⟨hedits.trans hedits₂, honly.trans honly₂⟩
      split at h
      · cases h
        exact hstep
      · exact ⟨hstep.1.tail (.addMailbox h), hstep.2.trans (insertMailbox_mailOnly h)⟩

theorem ensureRecoveryMailboxRecord_edits {A : AddressOps} (hA : A.Lawful) (hdb : db.Consistent)
    {r : RecoveryRecipient} {receivedAt : Timestamp} {id : Nat} {receiptRoot : Text → Prop} {newMail : MailInsert → Prop}
    (hr : receiptRoot r.rootDomainAscii)
    (h : db.ensureRecoveryMailboxRecord A r receivedAt = .ok (id, db')) :
    Edits (serviceRules receiptRoot newMail) db db' := by
  unfold ensureRecoveryMailboxRecord at h
  split at h
  · cases h
  · rename_i domainId db₁ hdomain
    split at h
    · cases h
    · rename_i m hm
      obtain ⟨hcase, hid⟩ := ensureRecoveryDomainRecord_ok hdomain
      have hedits : Edits (serviceRules receiptRoot newMail) db₁ db' :=
        (recoveryMailbox_edits (ownershipMatch_hasDomain hA hid hm) h).1
      rcases hcase with rfl | ⟨preferred, policy, hins⟩
      · exact hedits
      · refine .head (insertDomain_edit hdb ?_ hins) hedits
        intro d hd
        exact ⟨d, rfl, hd ▸ hr⟩

theorem insertDeliveryOrIgnore_edits {id messageId rcptTo : Text} {mailboxId n : Nat}
    {deliveredAt : Timestamp} {expiresAt : Option Timestamp} (hnew : rules.newMail (.delivery id messageId))
    (h : db.insertDeliveryOrIgnore id messageId mailboxId rcptTo deliveredAt expiresAt =
      .ok (n, db')) : Edits rules db db' := by
  unfold insertDeliveryOrIgnore at h
  split at h
  · cases h
    exact .refl
  · rename_i hc
    split at h
    · rename_i hp
      cases h
      exact .single (.addDelivery hnew (by simpa using hc) hp)
    · cases h

theorem recoverRecipient_edits {A : AddressOps} (hA : A.Lawful) (hdb : db.Consistent)
    {f : RecoveryManifest} {deliveryId : Text} {r : RecoveryRecipient} {id n : Nat}
    {receiptRoot : Text → Prop} {newMail : MailInsert → Prop} (hr : receiptRoot r.rootDomainAscii)
    (hnew : newMail (.delivery deliveryId f.messageId)) (h : db.recoverRecipient A f deliveryId r = .ok (id, n, db')) :
    Edits (serviceRules receiptRoot newMail) db db' := by
  unfold recoverRecipient at h
  split at h
  · cases h
  · rename_i mailboxId db₁ hbox
    split at h
    · cases h
    · split at h
      · cases h
      · rename_i hins
        cases h
        exact (ensureRecoveryMailboxRecord_edits hA hdb hr hbox).trans
          (insertDeliveryOrIgnore_edits hnew hins)

theorem recoverRecipients_edits {A : AddressOps} (hA : A.Lawful) (hdb : db.Consistent)
    {f : RecoveryManifest} {recipients : List (Text × RecoveryRecipient)} {ids : List Nat} {n : Nat}
    {receiptRoot : Text → Prop} {newMail : MailInsert → Prop} (hr : ∀ x ∈ recipients, receiptRoot x.2.rootDomainAscii)
    (hnew : ∀ x ∈ recipients, newMail (.delivery x.1 f.messageId))
    (h : recoverRecipients A f recipients db = .ok (ids, n, db')) :
    Edits (serviceRules receiptRoot newMail) db db' := by
  induction recipients generalizing db ids n with
  | nil =>
    cases h
    exact .refl
  | cons x rest ih =>
    obtain ⟨deliveryId, r⟩ := x
    unfold recoverRecipients at h
    split at h
    · cases h
    · rename_i mailboxId n₁ db₁ hone
      split at h
      · cases h
      · rename_i ids' n' db₂ hloop
        cases h
        have hedits := recoverRecipient_edits hA hdb (hr _ List.mem_cons_self)
          (hnew _ List.mem_cons_self) hone
        exact hedits.trans (ih (Edits.consistent hdb hedits)
          (fun x hx => hr x (List.mem_cons_of_mem _ hx))
          (fun x hx => hnew x (List.mem_cons_of_mem _ hx)) hloop)

theorem refreshMailboxSummary_edits {id : Nat} (h : db.refreshMailboxSummary id = .ok db') :
    Edits rules db db' := by
  unfold refreshMailboxSummary at h
  dsimp only at h
  split at h
  · cases h
    exact .single (updateMailbox_edit _ ⟨fun _ => rfl, fun _ => rfl, fun _ => rfl, fun _ => rfl⟩)
  · split at h
    · cases h
    · cases h
      exact .refl

theorem refreshMailboxSummaries_edits {ids : List Nat}
    (h : db.refreshMailboxSummaries ids = .ok db') : Edits rules db db' := by
  have hstep (s : Db) (hs : Edits rules db s) (id : Nat) (_ : id ∈ ids) (s' : Db)
      (hone : s.refreshMailboxSummary id = .ok s') : Edits rules db s' :=
    hs.trans (refreshMailboxSummary_edits hone)
  exact Transition.foldlM_invariant hstep .refl h

theorem insertMessageOrIgnore_edits {row : MessageRow} {inserted : Bool}
    (h : db.insertMessageOrIgnore row = .ok (inserted, db'))
    (hnew : rules.newMail (.message row.id)) : Edits rules db db' := by
  unfold insertMessageOrIgnore at h
  split at h
  · cases h
    exact .refl
  · split at h
    · cases h
    · rename_i hins
      cases h
      exact .single (.addMessage hins hnew)

theorem insertAttachmentOrIgnore_edits {row : AttachmentRow}
    (h : db.insertAttachmentOrIgnore row = .ok db') : Edits rules db db' := by
  unfold insertAttachmentOrIgnore at h
  split at h
  · cases h
    exact .refl
  · exact .single (.addAttachment h)

theorem recoveryMetric_edits {f : RecoveryManifest} {inserted : Bool} {n : Nat} :
    Edits rules db (db.recoveryMetric f inserted n) := by
  unfold recoveryMetric
  split
  · exact .single (BatchWriter.upsertMetric_edit _ _ _ _)
  · exact .refl

/-- The stages of a replay. -/
theorem replayManifest_ok {A : AddressOps} {f : RecoveryManifest}
    {recipients : List (Text × RecoveryRecipient)} (h : db.replayManifest A f recipients = .ok db') :
    ∃ inserted db₁ ids n db₂ db₃ db₄,
      db.insertMessageOrIgnore (f.messageRow (db.recoverySession f)) = .ok (inserted, db₁) ∧
      recoverRecipients A f recipients db₁ = .ok (ids, n, db₂) ∧
      db₂.refreshMailboxSummaries ids = .ok db₃ ∧
      f.attachments.foldlM (fun db a => db.insertAttachmentOrIgnore (f.attachmentRow a)) db₃ =
        .ok db₄ ∧
      db' = db₄.recoveryMetric f inserted n := by
  unfold replayManifest at h
  split at h
  · cases h
  · rename_i inserted db₁ hmsg
    split at h
    · cases h
    · rename_i ids n db₂ hloop
      split at h
      · cases h
      · rename_i db₃ hrefresh
        split at h
        · cases h
        · rename_i db₄ hatt
          cases h
          exact ⟨inserted, db₁, ids, n, db₂, db₃, db₄, hmsg, hloop, hrefresh, hatt, rfl⟩

/-- The receipts of a manifest, or of the addresses of an old one. -/
theorem replayManifest_edits {A : AddressOps} (hA : A.Lawful) (hdb : db.Consistent)
    {f : RecoveryManifest} {recipients : List (Text × RecoveryRecipient)}
    {receiptRoot : Text → Prop} {newMail : MailInsert → Prop} (hr : ∀ x ∈ recipients, receiptRoot x.2.rootDomainAscii)
    (hmail : newMail (.message f.messageId))
    (hnew : ∀ x ∈ recipients, newMail (.delivery x.1 f.messageId))
    (h : db.replayManifest A f recipients = .ok db') :
    Edits (serviceRules receiptRoot newMail) db db' := by
  obtain ⟨inserted, db₁, ids, n, db₂, db₃, db₄, hmsg, hloop, hrefresh, hatt, rfl⟩ :=
    replayManifest_ok h
  have hedits₁ : Edits (serviceRules receiptRoot newMail) db db₁ :=
    insertMessageOrIgnore_edits hmsg hmail
  have hedits₂ := recoverRecipients_edits hA (Edits.consistent hdb hedits₁) hr hnew hloop
  have hedits₄ : Edits (serviceRules receiptRoot newMail) db₃ db₄ := by
    have hstep (s : Db) (hs : Edits (serviceRules receiptRoot newMail) db₃ s)
        (a : RecoveryAttachment) (_ : a ∈ f.attachments) (s' : Db)
        (hone : s.insertAttachmentOrIgnore (f.attachmentRow a) = .ok s') :
        Edits (serviceRules receiptRoot newMail) db₃ s' :=
      hs.trans (insertAttachmentOrIgnore_edits hone)
    exact Transition.foldlM_invariant hstep .refl hatt
  exact (((hedits₁.trans hedits₂).trans (refreshMailboxSummaries_edits hrefresh)).trans
    hedits₄).trans recoveryMetric_edits

theorem applyRecoveryManifest_edits {A : AddressOps} (hA : A.Lawful) (hdb : db.Consistent)
    {f : RecoveryManifest} {deliveryIds : Nat → Text} {receiptRoot : Text → Prop} {newMail : MailInsert → Prop}
    (hr : ∀ recipients, db.recoveryRecipientsFromManifest A f = .ok recipients →
      ∀ r ∈ recipients, receiptRoot r.rootDomainAscii)
    (hmail : newMail (.message f.messageId))
    (hnew : ∀ i, newMail (.delivery (deliveryIds i) f.messageId))
    (h : db.applyRecoveryManifest A f deliveryIds = .ok db') :
    Edits (serviceRules receiptRoot newMail) db db' := by
  unfold applyRecoveryManifest at h
  split at h
  · cases h
    exact .refl
  · split at h
    · cases h
    · rename_i recipients hrecipients
      refine replayManifest_edits hA hdb ?_ hmail ?_ h
      · intro x hx
        obtain ⟨i, hi, rfl⟩ := List.mem_mapIdx.mp hx
        exact hr recipients hrecipients _ (List.getElem_mem hi)
      · intro x hx
        obtain ⟨i, hi, rfl⟩ := List.mem_mapIdx.mp hx
        exact hnew i

/-! ## Rehome jobs -/

theorem rehomePage_edits {A : AddressOps} {matcher : DomainMatcher} {candidate : Option Text}
    {rows : List MailboxRow} {totals totals' : RehomeTotals} {receiptRoot : Text → Prop} {newMail : MailInsert → Prop}
    (hmatcher : ∀ address m, matcher.matchAddress A address = some m →
      db.RootsNormalized → db.HasDomain m)
    (h : rehomePage A matcher candidate rows totals db = .ok (totals', db')) :
    Edits (serviceRules receiptRoot newMail) db db' := by
  induction rows generalizing db totals with
  | nil =>
    cases h
    exact .refl
  | cons row rows ih =>
    unfold rehomePage at h
    split at h
    · cases h
    · rename_i result db₁ hrow
      have hstep : Edits (serviceRules receiptRoot newMail) db db₁ ∧ db.MailOnly db₁ := by
        obtain rfl | ⟨m, hm, hpromote⟩ := rehomeRow_ok hrow
        · exact ⟨.refl, .refl _⟩
        · exact promoteMailboxOwnership_edits (mayPromote_service (hmatcher _ m hm)) hpromote
      refine hstep.1.trans (ih ?_ h)
      intro address m hm hnorm
      exact hstep.2.hasDomain_iff.mpr
        (hmatcher address m hm (hstep.2.rootsNormalized_iff.mp hnorm))

theorem loadActiveDomainMatcher_hasDomain {A : AddressOps} (hA : A.Lawful) {matcher : DomainMatcher}
    (h : db.loadActiveDomainMatcher A = .ok matcher) {address : Text} {m : DomainMatch}
    (hm : matcher.matchAddress A address = some m) (hnorm : db.RootsNormalized) : db.HasDomain m := by
  unfold loadActiveDomainMatcher at h
  rw [DomainMatcher.ofRules?_eq hA] at h
  · cases h
    obtain ⟨rule, hrule, hid, hroot⟩ := DomainMatcher.rule_of_matchAddress hm
    obtain ⟨d, hd, rfl⟩ := List.mem_map.mp hrule
    exact ⟨d, List.mem_of_mem_filter hd, hid.symm, hroot.symm⟩
  · intro rule hrule
    obtain ⟨d, hd, rfl⟩ := List.mem_map.mp hrule
    exact hnorm d (List.mem_of_mem_filter hd)

theorem updateRehomeJob_edit {jobId : Text} {f : RehomeJob → RehomeJob} :
    Edit rules db (db.updateRehomeJob jobId f) := .bookkeeping

theorem processRehomeJobBatch_edits {A : AddressOps} (hA : A.Lawful) {jobId : Text} {batchSize : Nat}
    {receiptRoot : Text → Prop} {newMail : MailInsert → Prop} (h : db.processRehomeJobBatch A jobId batchSize = .ok db') :
    Edits (serviceRules receiptRoot newMail) db db' := by
  obtain rfl | ⟨job, matcher, totals, db₁, hmatcher, hpage, rfl⟩ := processRehomeJobBatch_ok h
  · exact .refl
  · exact (rehomePage_edits (fun _ _ hm hnorm =>
      loadActiveDomainMatcher_hasDomain hA hmatcher hm hnorm) hpage).tail updateRehomeJob_edit

theorem createRehomeJob_edit {jobId : Text} {candidate : Option Text}
    (h : db.createRehomeJob jobId candidate = .ok db') : Edit rules db db' := by
  unfold createRehomeJob at h
  split at h
  · cases h
  · cases h
    exact .bookkeeping

/-! ## Domains -/

theorem createDomain_edits {A : AddressOps} {root jobId : Text} {payload : DomainPayload} {newJob : Text → Prop} {newMail : MailInsert → Prop}
    (hdb : db.Consistent) (h : db.createDomain A root jobId payload = .ok db') :
    Edits (idRules newJob newMail) db db' := by
  unfold createDomain at h
  split at h
  · cases h
  · dsimp only at h
    split at h
    · cases h
    · rename_i id db₁ hins
      have hedit : Edit (idRules newJob newMail) db db₁ := insertDomain_edit hdb (fun _ _ => trivial) hins
      split at h
      · exact (Edits.single hedit).tail (createRehomeJob_edit h)
      · cases h
        exact .single hedit

theorem syncCatchAllPolicy_edits {enabled publicWeb publicApi : Bool} {retentionDays : Option Int}
    {size : Int} {newJob : Text → Prop} {newMail : MailInsert → Prop} (hdb : db.Consistent)
    (h : db.syncCatchAllPolicy enabled publicWeb publicApi retentionDays size = .ok db') :
    Edits (idRules newJob newMail) db db' := by
  unfold syncCatchAllPolicy at h
  split at h
  · split at h
    · cases h
      exact .refl
    · split at h
      · cases h
      · rename_i hins
        cases h
        exact .single (insertDomain_edit hdb (fun _ _ => trivial) hins)
  · cases h
    refine .single (.setDomains (hdb.domain_ids.updateWhere fun _ => rfl)
      (hdb.domain_roots.updateWhere fun _ => rfl) ?_ trivial)
    intro b hb
    obtain ⟨d, hd, hid⟩ := hdb.mailbox_domains b hb
    refine ⟨_, mem_updateWhere.mpr ⟨d, hd, rfl⟩, ?_⟩
    split
    · exact hid
    · exact hid

theorem deleteDomain_edits {domainId : Nat} {newJob : Text → Prop} {newMail : MailInsert → Prop} (hdb : db.Consistent)
    (h : db.deleteDomain domainId = .ok db') : Edits (idRules newJob newMail) db db' := by
  unfold deleteDomain at h
  split at h
  · cases h
  · split at h
    · cases h
    · split at h
      · cases h
      · rename_i hmail
        cases h
        refine .single (.setDomains (hdb.domain_ids.filter _) (hdb.domain_roots.filter _) ?_ trivial)
        intro b hb
        obtain ⟨d, hd, hid⟩ := hdb.mailbox_domains b hb
        refine ⟨d, List.mem_filter.mpr ⟨hd, ?_⟩, hid⟩
        rw [decide_eq_true_iff]
        intro heq
        exact hmail (List.any_eq_true.mpr ⟨b, hb, by simp [← hid, heq]⟩)

/-- The domain table after `update_domain`. -/
theorem updateDomain_ok {A : AddressOps} {domainId : Nat} {jobId : Text} {payload : DomainPayload}
    (h : db.updateDomain A domainId jobId payload = .ok db') :
    ∃ row ∈ db.domains, ∃ root policy tombstones written,
      row.id = domainId ∧ updatedRoot A payload row.rootDomainAscii = .ok root ∧
      (∀ d ∈ db.domains, d.rootDomainAscii = root → d.id = domainId) ∧
      (∀ t ∈ tombstones, t ∈ db.tombstones ∨ t = (domainId, row.rootDomainAscii)) ∧
      written = { db with
        domains := updateWhere (fun d => d.id = domainId) (fun _ => ⟨domainId, root, policy⟩)
          db.domains
        tombstones := tombstones } ∧
      (db' = written ∨ written.createRehomeJob jobId (some root) = .ok db') := by
  unfold updateDomain at h
  split at h
  · cases h
  · rename_i row hrow
    obtain ⟨hmem, hid⟩ := find?_key hrow
    split at h
    · cases h
    · split at h
      · cases h
      · rename_i root hroot
        split at h
        · cases h
        · rename_i hunique
          refine ⟨row, hmem, root, payload.apply row.policy,
            if root ≠ row.rootDomainAscii then db.tombstones ++ [(domainId, row.rootDomainAscii)]
            else db.tombstones, _, hid, hroot, ?_, ?_, rfl, ?_⟩
          · intro d hd hdroot
            by_contra hne
            exact hunique (List.any_eq_true.mpr ⟨d, hd, by simp [hdroot, hne]⟩)
          · intro t ht
            split at ht
            · simpa using ht
            · exact .inl ht
          · dsimp only at h
            split at h
            · cases h
              exact .inl rfl
            · exact .inr h

theorem updateDomain_edits {A : AddressOps} {domainId : Nat} {jobId : Text} {payload : DomainPayload} {newJob : Text → Prop} {newMail : MailInsert → Prop}
    (hdb : db.Consistent) (h : db.updateDomain A domainId jobId payload = .ok db') :
    Edits (idRules newJob newMail) db db' := by
  obtain ⟨row, hmem, root, policy, tombstones, written, hid, -, hunique, -, rfl, hcase⟩ :=
    updateDomain_ok h
  have hids : UniqueKey DomainRow.id (updateWhere (fun d : DomainRow => d.id = domainId)
      (fun _ => ⟨domainId, root, policy⟩) db.domains) := by
    unfold UniqueKey
    have heq : (updateWhere (fun d : DomainRow => d.id = domainId)
        (fun _ => (⟨domainId, root, policy⟩ : DomainRow)) db.domains).map DomainRow.id =
        db.domains.map DomainRow.id := by
      rw [updateWhere, List.map_map]
      apply List.map_congr_left
      intro d _
      simp only [Function.comp_apply]
      split
      · rename_i hd
        exact (of_decide_eq_true hd).symm
      · rfl
    rw [heq]
    exact hdb.domain_ids
  have hroots : UniqueKey DomainRow.rootDomainAscii (updateWhere (fun d : DomainRow => d.id = domainId)
      (fun _ => ⟨domainId, root, policy⟩) db.domains) := by
    unfold UniqueKey at hids ⊢
    rw [List.Nodup, List.pairwise_map] at hids ⊢
    refine hids.imp_of_mem ?_
    intro d d' hd hd' hne heq
    obtain ⟨c, hc, rfl⟩ := mem_updateWhere.mp hd
    obtain ⟨c', hc', rfl⟩ := mem_updateWhere.mp hd'
    by_cases h1 : c.id = domainId <;> by_cases h2 : c'.id = domainId
    · simp [h1, h2] at hne
    · simp only [h1, h2, decide_true, decide_false, if_true, Bool.false_eq_true, if_false] at heq
      exact h2 (hunique c' hc' heq.symm)
    · simp only [h1, h2, decide_true, decide_false, if_true, Bool.false_eq_true, if_false] at heq
      exact h1 (hunique c hc heq)
    · simp only [h1, h2, decide_false, Bool.false_eq_true, if_false] at heq hne
      exact hne (congrArg _ (hdb.domain_roots.eq_of_mem hc hc' heq))
  have hedit : Edit (idRules newJob newMail) db
      { db with
        domains := updateWhere (fun d => d.id = domainId) (fun _ => ⟨domainId, root, policy⟩)
          db.domains
        tombstones := tombstones } := by
    refine @Edit.setDomains _ _ _ db.domainSeq _ hids hroots ?_ trivial
    intro b hb
    obtain ⟨d, hd, hdid⟩ := hdb.mailbox_domains b hb
    refine ⟨_, mem_updateWhere.mpr ⟨d, hd, rfl⟩, ?_⟩
    split
    · rename_i heq
      rw [← hdid]
      exact (of_decide_eq_true heq).symm
    · exact hdid
  rcases hcase with rfl | hjob
  · exact .single hedit
  · exact (Edits.single hedit).tail (createRehomeJob_edit hjob)

/-! ## Deletions -/

theorem refreshDeletionSummaries_edit {p : MailboxRow → Bool} {now : Timestamp} :
    Edit rules db (db.refreshDeletionSummaries p now) :=
  .setColumns ⟨fun _ => rfl, fun _ => rfl, fun _ => rfl, fun _ => rfl⟩

theorem deleteRequestedDeliveries_edits {ids : List Text} {deletedAt : Timestamp} :
    Edits rules db (db.deleteRequestedDeliveries ids deletedAt) := by
  unfold deleteRequestedDeliveries
  split
  · exact (Edits.single .softDelete).tail refreshDeletionSummaries_edit
  · exact .refl

theorem softDeleteMailboxDeliveries_edits {mailboxId : Nat} {ids : List Text}
    {deletedAt now : Timestamp}
    (h : db.softDeleteMailboxDeliveries mailboxId ids deletedAt now = .ok db') :
    Edits rules db db' := by
  unfold softDeleteMailboxDeliveries at h
  split at h
  · cases h
  · split at h
    · cases h
      exact .refl
    · cases h
      exact (Edits.single .softDelete).tail refreshDeletionSummaries_edit

theorem deleteStaleEmptyMailboxes_edit {cutoff : Timestamp} {limit : Nat} :
    Edit rules db (db.deleteStaleEmptyMailboxes cutoff limit) := by
  refine Edit.dropMailboxes (p := fun id => decide (id ∉ (((db.mailboxes.filter
    (db.isStaleEmpty cutoff)).insertionSort fun a b => staleBefore a b).take limit).map
      MailboxRow.id)) ?_
  intro d hd
  rw [decide_eq_true_iff]
  intro hmem
  obtain ⟨b, hb, hid⟩ := List.mem_map.mp hmem
  have hstale := (List.mem_filter.mp ((List.mem_insertionSort _).mp (List.mem_of_mem_take hb))).2
  rw [isStaleEmpty, Bool.and_eq_true, Bool.not_eq_true', List.any_eq_false] at hstale
  exact hstale.2 d hd (by simpa using hid.symm)

theorem expireDeliveries_edits {now : Timestamp} {batch : List RetentionEntry} :
    Edits rules db (db.expireDeliveries now batch) := by
  unfold expireDeliveries
  exact ((Edits.single .dropDeliveries).tail .bookkeeping).tail .dropMessages

theorem expireDeliveryBatch_edits {now refreshedAt cutoff : Timestamp} {limit : Nat}
    {batch : List RetentionEntry} :
    Edits rules db (db.expireDeliveryBatch now refreshedAt cutoff limit batch) :=
  (expireDeliveries_edits.tail refreshDeletionSummaries_edit).tail deleteStaleEmptyMailboxes_edit

theorem updateMailboxFlags_edits {mailboxId : Nat} {publicEnabled isHidden : Option Bool}
    {notes : Option (Option Text)}
    (h : db.updateMailboxFlags mailboxId publicEnabled isHidden notes = .ok db') :
    Edits rules db db' := by
  unfold updateMailboxFlags at h
  split at h
  · cases h
  · cases h
    exact .single (updateMailbox_edit _ ⟨fun _ => rfl, fun _ => rfl, fun _ => rfl, fun _ => rfl⟩)

end Db

/-! ## Histories -/

/-- An operation creates a bulk-delete job under the given id. -/
def StoreOp.CreatesJob (op : StoreOp) (jobId : Text) : Prop :=
  ∃ mailboxId deletedAt, op = .createBulkDelete jobId mailboxId deletedAt

/-- An operation may insert a delivery under the given id. -/
def StoreOp.InsertsDelivery : StoreOp → Text → Prop
  | .commit jobs, id => ∃ job ∈ jobs, ∃ r ∈ job.1.recipients, r.deliveryId = id
  | .accept request, id => ∃ r ∈ request.recipients, r.deliveryId = id
  | .recover _ deliveryIds, id => ∃ i, deliveryIds i = id
  | _, _ => False

/-- An operation may insert a message, or a delivery of a message, under the given id. -/
def StoreOp.InsertsMail : StoreOp → MailInsert → Prop
  | .commit jobs, row => BatchWriter.mailOf jobs row
  | .accept request, .message id => request.messageId = id
  | .accept request, .delivery id messageId =>
    request.messageId = messageId ∧ ∃ r ∈ request.recipients, r.deliveryId = id
  | .recover manifest _, .message id => manifest.messageId = id
  | .recover manifest deliveryIds, .delivery id messageId =>
    manifest.messageId = messageId ∧ ∃ i, deliveryIds i = id
  | _, _ => False

theorem StoreOp.InsertsMail.insertsDelivery {op : StoreOp} {id messageId : Text}
    (h : op.InsertsMail (.delivery id messageId)) : op.InsertsDelivery id := by
  cases op with
  | commit jobs =>
    obtain ⟨job, hjob, -, hr⟩ := h
    exact ⟨job, hjob, hr⟩
  | accept request => exact h.2
  | recover manifest deliveryIds => exact h.2
  | _ => exact h.elim

/-- The rules of an operation: the ids of new jobs and of new mail are its own. -/
def StoreOp.rules (op : StoreOp) : EditRules := idRules op.CreatesJob op.InsertsMail

/-- Every transaction that succeeds is a chain of edits. -/
theorem StoreOp.transaction_edits {E : StoreEnv} {db db' : Db} {op : StoreOp} (hdb : db.Consistent)
    (h : op.transaction E db = .ok db') : Edits op.rules db db' := by
  have hpy := pyAddressOps_lawful E.py
  have hservice (newMail : MailInsert → Prop)
      (hnew : ∀ row, newMail row → op.InsertsMail row) :
      (serviceRules (fun _ => True) newMail).Le op.rules :=
    EditRules.le_idRules (fun _ => id) _ hnew
  cases op with
  | commit jobs =>
    refine (BatchWriter.writeSqliteRecords_edits hdb rfl (fun _ => id) (fun _ => id) h).1.mono ?_
    exact EditRules.le_idRules (fun _ => id) _ fun _ => id
  | accept request =>
    have hmail : StoreOp.InsertsMail (.accept request) (.message request.messageId) := rfl
    have hids : ∀ r ∈ request.recipients, StoreOp.InsertsMail (.accept request)
        (.delivery r.deliveryId request.messageId) := fun r hr => ⟨rfl, r, hr, rfl⟩
    exact (Db.acceptMessage_edits hpy hmail hids h).mono (hservice _ fun _ => id)
  | recover manifest ids =>
    have hmail : StoreOp.InsertsMail (.recover manifest ids) (.message manifest.messageId) := rfl
    have hids (i : Nat) : StoreOp.InsertsMail (.recover manifest ids)
        (.delivery (ids i) manifest.messageId) := ⟨rfl, i, rfl⟩
    exact (Db.applyRecoveryManifest_edits hpy hdb (fun _ _ _ _ => trivial) hmail hids h).mono
      (hservice _ fun _ => id)
  | ensureMailbox m now => exact Db.ensureMailboxExists_edits (fun _ _ _ => trivial) h
  | rehomeBatch jobId batchSize =>
    exact (Db.processRehomeJobBatch_edits hpy h).mono (hservice _ fun _ => id)
  | rehomeFailed jobId =>
    cases h
    exact .single Db.updateRehomeJob_edit
  | createBulkDelete jobId mailboxId deletedAt =>
    have hmap : (db.createOrResumeBulkDeleteJob jobId mailboxId deletedAt).map Prod.snd =
        .ok db' := h
    cases hjob : db.createOrResumeBulkDeleteJob jobId mailboxId deletedAt with
    | error e =>
      rw [hjob] at hmap
      cases hmap
    | ok result =>
      rw [hjob] at hmap
      cases hmap
      exact .single (.createJob ⟨mailboxId, deletedAt, rfl⟩ hjob)
  | bulkDeleteBatch jobId batchSize now => exact .single (.processJob h)
  | bulkDeleteFailed jobId =>
    cases h
    exact .single .failJob
  | deleteDeliveries ids deletedAt =>
    cases h
    exact Db.deleteRequestedDeliveries_edits
  | deleteMailboxDeliveries mailboxId ids deletedAt now =>
    exact Db.softDeleteMailboxDeliveries_edits h
  | expire now refreshedAt cutoff limit batch =>
    cases h
    exact Db.expireDeliveryBatch_edits
  | updateMailbox mailboxId publicEnabled isHidden notes => exact Db.updateMailboxFlags_edits h
  | createDomain root jobId payload => exact Db.createDomain_edits hdb h
  | updateDomain domainId jobId payload => exact Db.updateDomain_edits hdb h
  | deleteDomain domainId => exact Db.deleteDomain_edits hdb h
  | syncCatchAll enabled publicWeb publicApi retentionDays size =>
    exact Db.syncCatchAllPolicy_edits hdb h

theorem Db.exec_edits {E : StoreEnv} {db : Db} (hdb : db.Consistent) (op : StoreOp) :
    Edits op.rules db (db.exec E op) := by
  unfold Db.exec
  cases h : op.transaction E db with
  | error e => exact .refl
  | ok db' => exact StoreOp.transaction_edits hdb h

/-- The schema holds after every operation. -/
theorem Db.exec_consistent {E : StoreEnv} {db : Db} (hdb : db.Consistent) (op : StoreOp) :
    (db.exec E op).Consistent := Edits.consistent hdb (Db.exec_edits hdb op)

/-- Every history is a chain of edits. -/
theorem Db.run_edits {E : StoreEnv} {db : Db} (hdb : db.Consistent) (ops : List StoreOp) :
    Edits (idRules (fun _ => True) fun _ => True) db (db.run E ops) := by
  induction ops generalizing db with
  | nil => exact .refl
  | cons op ops ih =>
    refine ((Db.exec_edits hdb op).mono ?_).trans (ih (Db.exec_consistent hdb op))
    exact ⟨fun _ => trivial, fun _ => trivial, fun _ => trivial, fun _ => trivial⟩

theorem Db.run_consistent {E : StoreEnv} {db : Db} (hdb : db.Consistent) (ops : List StoreOp) :
    (db.run E ops).Consistent := Edits.consistent hdb (Db.run_edits hdb ops)

end RapidInbox
