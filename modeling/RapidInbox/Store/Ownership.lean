import RapidInbox.Store.ServiceEdits

/-!
# Who owns a mailbox

Ownership of a mailbox may move from the catch-all domain to a managed domain, and from a managed
domain to one with a longer suffix.  `_mailbox_needs_ownership_promotion` decides this in Python; the
batch writer gives a mailbox to every managed match of its address, so there it depends on who
owned the mailbox.
-/

namespace RapidInbox

open Table Relation

theorem IsSubdomainOf.trans {a b c : Text} (h : IsSubdomainOf a b) (h' : IsSubdomainOf b c) :
    IsSubdomainOf a c := List.IsSuffix.trans h' ((List.suffix_cons '.' b).trans h)

/-- An owner may be replaced by another. -/
def RootAdvances (root root' : Text) : Prop :=
  root' ≠ catchAllRoot ∧ (root = catchAllRoot ∨ IsSubdomainOf root' root)

theorem RootAdvances.trans {a b c : Text} (h : RootAdvances a b) (h' : RootAdvances b c) :
    RootAdvances a c := by
  refine ⟨h'.1, ?_⟩
  rcases h.2 with rfl | hsub
  · exact .inl rfl
  · exact .inr ((h'.2.resolve_left h.1).trans hsub)

namespace Db

/-- Every mailbox that was there and still is has its owner, or one that its owner may be replaced
    by. -/
def OwnershipAdvances (db db' : Db) : Prop :=
  ∀ b ∈ db.mailboxes, ∀ b' ∈ db'.mailboxes, b'.id = b.id →
    b'.domainId = b.domainId ∨ ∃ root root', db.ownerRoot? b = some root ∧
      db'.ownerRoot? b' = some root' ∧ RootAdvances root root'

instance (root root' : Text) : Decidable (RootAdvances root root') :=
  inferInstanceAs (Decidable (_ ∧ _))

instance (db db' : Db) : Decidable (OwnershipAdvances db db') :=
  decidable_of_iff (∀ b ∈ db.mailboxes, ∀ b' ∈ db'.mailboxes, b'.id = b.id →
    b'.domainId = b.domainId ∨ ∃ root ∈ db.ownerRoot? b, ∃ root' ∈ db'.ownerRoot? b',
      RootAdvances root root') (by simp [OwnershipAdvances])

/-- Mailbox ids are not reused: an id that was issued names a mailbox that was there. -/
structure IdsContinue (db db' : Db) : Prop where
  seq : db.mailboxSeq ≤ db'.mailboxSeq
  origin : ∀ b' ∈ db'.mailboxes, b'.id ≤ db.mailboxSeq → ∃ b ∈ db.mailboxes, b.id = b'.id

variable {rules : EditRules} {db db' : Db}

theorem IdsContinue.refl (db : Db) : db.IdsContinue db :=
  ⟨Nat.le_refl _, fun b hb _ => ⟨b, hb, rfl⟩⟩

theorem IdsContinue.trans {db'' : Db} (h : db.IdsContinue db') (h' : db'.IdsContinue db'') :
    db.IdsContinue db'' := by
  refine ⟨Nat.le_trans h.seq h'.seq, ?_⟩
  intro b'' hb'' hle
  obtain ⟨b', hb', hid'⟩ := h'.origin b'' hb'' (Nat.le_trans hle h.seq)
  obtain ⟨b, hb, hid⟩ := h.origin b' hb' (hid' ▸ hle)
  exact ⟨b, hb, hid.trans hid'⟩

/-- What an edit makes of one mailbox: it is new, it keeps its owner and its address, or it takes
    over the identity of a match. -/
def MailboxStep (rules : EditRules) (db : Db) (b' : MailboxRow) : Prop :=
  db.mailboxSeq < b'.id ∨ ∃ b ∈ db.mailboxes, b.id = b'.id ∧
    (b'.domainId = b.domainId ∧ b'.addressCanonical = b.addressCanonical ∨
      ∃ m, rules.rename db b m ∧ b'.domainId = m.domainId ∧
        b'.addressCanonical = m.addressCanonical)

theorem MailboxStep.same {b : MailboxRow} (hb : b ∈ db.mailboxes) : MailboxStep rules db b :=
  .inr ⟨b, hb, rfl, .inl ⟨rfl, rfl⟩⟩

theorem MailboxStep.updateWhere {p : MailboxRow → Bool} {f : MailboxRow → MailboxRow}
    (hf : ∀ b, (f b).id = b.id ∧ (f b).domainId = b.domainId ∧
      (f b).addressCanonical = b.addressCanonical) :
    ∀ b' ∈ updateWhere p f db.mailboxes, MailboxStep rules db b' := by
  intro b' hb'
  obtain ⟨b, hb, rfl⟩ := mem_updateWhere.mp hb'
  split
  · exact .inr ⟨b, hb, (hf b).1.symm, .inl ⟨(hf b).2.1, (hf b).2.2⟩⟩
  · exact .same hb

end Db

open Db

variable {rules : EditRules} {db db' : Db}

/-- The mailboxes after an edit. -/
theorem Edit.mailboxStep (hdb : db.Consistent) (hedit : Edit rules db db') :
    ∀ b' ∈ db'.mailboxes, MailboxStep rules db b' := by
  intro b' hb'
  cases hedit with
  | addMailbox hins =>
    obtain ⟨-, -, rfl, rfl⟩ := insertMailbox_ok hins
    rcases List.mem_append.mp hb' with hb' | hb'
    · exact .same hb'
    · rw [List.mem_singleton.mp hb']
      exact .inl (Nat.lt_succ_self _)
  | setIdentity hb hown hupd =>
    obtain ⟨-, -, rfl⟩ := updateMailboxIdentity_ok hupd
    obtain ⟨c, hc, rfl⟩ := mem_updateWhere.mp hb'
    split
    · rename_i hid
      have hcb := hdb.mailbox_ids.eq_of_mem hc hb (of_decide_eq_true hid)
      subst hcb
      exact .inr ⟨c, hc, rfl, .inr ⟨_, hown, rfl, rfl⟩⟩
    · exact .same hc
  | setColumns hf =>
    exact MailboxStep.updateWhere (fun b => ⟨hf.id b, hf.domainId b, hf.addressCanonical b⟩) b' hb'
  | dropMailboxes _ => exact .same (List.mem_of_mem_filter hb')
  | createJob _ hjob =>
    obtain ⟨mailbox, -, -, ⟨job, -, -, -, -, rfl⟩ | ⟨-, -, -, rfl⟩⟩ :=
      createOrResumeBulkDeleteJob_ok hjob
    · exact .same hb'
    · refine MailboxStep.updateWhere ?_ b' hb'
      exact fun b => ⟨rfl, rfl, rfl⟩
  | processJob hjob =>
    obtain ⟨job, -, -, -, ⟨-, rfl⟩ | ⟨-, rfl⟩⟩ := processBulkDeleteJobBatch_ok hjob
    · exact .same hb'
    · unfold advanceBulkDeleteJob at hb'
      dsimp only at hb'
      split at hb'
      · refine MailboxStep.updateWhere ?_ b' hb'
        exact fun b => ⟨rfl, rfl, rfl⟩
      · exact .same hb'
  | addMessage hmsg _ =>
    obtain ⟨-, rfl⟩ := insertMessage_ok hmsg
    exact .same hb'
  | addAttachment hatt =>
    obtain ⟨-, -, rfl⟩ := insertAttachment_ok hatt
    exact .same hb'
  | mergeDeliveries _ _ => exact .same hb'
  | addDelivery _ _ _ => exact .same hb'
  | softDelete => exact .same hb'
  | dropDeliveries => exact .same hb'
  | dropMessages => exact .same hb'
  | failJob => exact .same hb'
  | setDomains _ _ _ _ => exact .same hb'
  | bookkeeping => exact .same hb'

/-- The domains and the mailbox sequence after an edit. -/
theorem Edit.domains_seq (hedit : Edit rules db db') :
    (db'.domains = db.domains ∨ rules.redomain db db'.domains) ∧
      db.mailboxSeq ≤ db'.mailboxSeq := by
  cases hedit with
  | addMailbox hins =>
    obtain ⟨-, -, rfl, rfl⟩ := insertMailbox_ok hins
    exact ⟨.inl rfl, Nat.le_succ _⟩
  | setIdentity _ _ hupd =>
    obtain ⟨-, -, rfl⟩ := updateMailboxIdentity_ok hupd
    exact ⟨.inl rfl, Nat.le_refl _⟩
  | createJob _ hjob =>
    obtain ⟨mailbox, -, -, ⟨job, -, -, -, -, rfl⟩ | ⟨-, -, -, rfl⟩⟩ :=
      createOrResumeBulkDeleteJob_ok hjob
    · exact ⟨.inl rfl, Nat.le_refl _⟩
    · exact ⟨.inl rfl, Nat.le_refl _⟩
  | processJob hjob =>
    obtain ⟨job, -, -, -, ⟨-, rfl⟩ | ⟨-, rfl⟩⟩ := processBulkDeleteJobBatch_ok hjob
    · exact ⟨.inl rfl, Nat.le_refl _⟩
    · unfold advanceBulkDeleteJob
      dsimp only
      split
      · exact ⟨.inl rfl, Nat.le_refl _⟩
      · exact ⟨.inl rfl, Nat.le_refl _⟩
  | setDomains _ _ _ hrule => exact ⟨.inr hrule, Nat.le_refl _⟩
  | addMessage hmsg _ =>
    obtain ⟨-, rfl⟩ := insertMessage_ok hmsg
    exact ⟨.inl rfl, Nat.le_refl _⟩
  | addAttachment hatt =>
    obtain ⟨-, -, rfl⟩ := insertAttachment_ok hatt
    exact ⟨.inl rfl, Nat.le_refl _⟩
  | setColumns _ => exact ⟨.inl rfl, Nat.le_refl _⟩
  | mergeDeliveries _ _ => exact ⟨.inl rfl, Nat.le_refl _⟩
  | dropMailboxes _ => exact ⟨.inl rfl, Nat.le_refl _⟩
  | addDelivery _ _ _ => exact ⟨.inl rfl, Nat.le_refl _⟩
  | softDelete => exact ⟨.inl rfl, Nat.le_refl _⟩
  | dropDeliveries => exact ⟨.inl rfl, Nat.le_refl _⟩
  | dropMessages => exact ⟨.inl rfl, Nat.le_refl _⟩
  | failJob => exact ⟨.inl rfl, Nat.le_refl _⟩
  | bookkeeping => exact ⟨.inl rfl, Nat.le_refl _⟩

theorem Edit.idsContinue (hdb : db.Consistent) (hedit : Edit rules db db') : db.IdsContinue db' := by
  refine ⟨hedit.domains_seq.2, ?_⟩
  intro b' hb' hle
  rcases hedit.mailboxStep hdb b' hb' with hnew | ⟨b, hb, hid, -⟩
  · omega
  · exact ⟨b, hb, hid⟩

namespace Db

/-- The owner of a mailbox, through the domain table. -/
theorem ownerRoot?_eq_some {db : Db} (hdb : db.Consistent) {b : MailboxRow} {d : DomainRow}
    (hd : d ∈ db.domains) (hid : d.id = b.domainId) : db.ownerRoot? b = some d.rootDomainAscii := by
  rw [ownerRoot?, domain?, hdb.domain_ids.find?_eq_some hd hid]
  rfl

theorem exists_ownerRoot? {db : Db} (hdb : db.Consistent) {b : MailboxRow}
    (hb : b ∈ db.mailboxes) :
    ∃ d ∈ db.domains, d.id = b.domainId ∧ db.ownerRoot? b = some d.rootDomainAscii := by
  obtain ⟨d, hd, hid⟩ := hdb.mailbox_domains b hb
  exact ⟨d, hd, hid, ownerRoot?_eq_some hdb hd hid⟩

/-- The owner of a mailbox depends on its domain id and the domain rows; a row that is added changes
    no owner. -/
theorem ownerRoot?_congr {db db' : Db} (hdb : db.Consistent) (hdb' : db'.Consistent)
    (hdomains : ∀ d ∈ db.domains, d ∈ db'.domains) {b b' : MailboxRow} (hb : b ∈ db.mailboxes)
    (hid : b'.domainId = b.domainId) : db'.ownerRoot? b' = db.ownerRoot? b := by
  obtain ⟨d, hd, hdid, hroot⟩ := exists_ownerRoot? hdb hb
  rw [hroot]
  exact ownerRoot?_eq_some hdb' (hdomains d hd) (hdid.trans hid.symm)

end Db

/-! ## The Python service -/

/-- The invariant of a chain of service edits. -/
structure Db.ServiceAdvances (start db : Db) : Prop where
  consistent : db.Consistent
  normalized : db.RootsNormalized
  domains : ∀ d ∈ start.domains, d ∈ db.domains
  ids : start.IdsContinue db
  owners : start.OwnershipAdvances db

/-- A promotion advances the owner, or keeps the domain. -/
theorem promotion_advances {b : MailboxRow} {root : Text} {m : DomainMatch}
    (h : mailboxNeedsOwnershipPromotion b root m) :
    m.domainId = b.domainId ∨ RootAdvances root m.rootDomainAscii := by
  unfold mailboxNeedsOwnershipPromotion at h
  split at h
  · cases h
  · rename_i hmanaged
    split at h
    · rename_i hid
      exact .inl hid.symm
    · split at h
      · rename_i hroot
        exact .inr ⟨hmanaged, .inl hroot⟩
      · exact .inr ⟨hmanaged, .inr (of_decide_eq_true h)⟩

theorem Edit.serviceAdvances {start : Db} {newMail : MailInsert → Prop} (hstart : start.Consistent)
    (h : start.ServiceAdvances db)
    (hedit : Edit (serviceRules IsNormalizedRoot newMail) db db') :
    start.ServiceAdvances db' := by
  have hdb' := hedit.consistent h.consistent
  have hcontinue := h.ids.trans (hedit.idsContinue h.consistent)
  have hdomains : (∀ d ∈ db.domains, d ∈ db'.domains) ∧ db'.RootsNormalized := by
    rcases hedit.domains_seq.1 with heq | ⟨d, heq, hroot⟩
    · refine ⟨fun d hd => heq ▸ hd, ?_⟩
      unfold RootsNormalized
      rw [heq]
      exact h.normalized
    · rw [RootsNormalized, heq]
      refine ⟨fun d hd => List.mem_append_left _ hd, ?_⟩
      intro d' hd'
      rcases List.mem_append.mp hd' with hd' | hd'
      · exact h.normalized d' hd'
      · rw [List.mem_singleton.mp hd']
        exact hroot
  refine ⟨hdb', hdomains.2, fun d hd => hdomains.1 d (h.domains d hd), hcontinue, ?_⟩
  intro b₀ hb₀ b' hb' hid'
  rcases hedit.mailboxStep h.consistent b' hb' with hnew | ⟨b, hb, hid, hcase⟩
  · have := hstart.mailbox_seq b₀ hb₀
    have := h.ids.seq
    omega
  · have hsame (heq : b'.domainId = b.domainId) : db'.ownerRoot? b' = db.ownerRoot? b :=
      ownerRoot?_congr h.consistent hdb' hdomains.1 hb heq
    have howner := h.owners b₀ hb₀ b hb (hid.trans hid')
    rcases hcase with ⟨heq, -⟩ | ⟨m, ⟨⟨root, hroot, hneeds⟩, hhas⟩, heq, -⟩
    · rcases howner with hkeep | ⟨r₀, r, hr₀, hr, hadv⟩
      · exact .inl (heq.trans hkeep)
      · exact .inr ⟨r₀, r, hr₀, (hsame heq).trans hr, hadv⟩
    · rcases promotion_advances hneeds with hkeep | hadv
      · rcases howner with hkeep' | ⟨r₀, r, hr₀, hr, hadv⟩
        · exact .inl (heq.trans (hkeep.trans hkeep'))
        · exact .inr ⟨r₀, r, hr₀, (hsame (heq.trans hkeep)).trans hr, hadv⟩
      · obtain ⟨d, hd, hdid, hdroot⟩ := hhas h.normalized
        have hroot' : db'.ownerRoot? b' = some m.rootDomainAscii :=
          hdroot ▸ ownerRoot?_eq_some hdb' (hdomains.1 d hd) (hdid.trans heq.symm)
        rcases howner with hkeep | ⟨r₀, r, hr₀, hr, hadv'⟩
        · rw [ownerRoot?_congr hstart h.consistent h.domains hb₀ hkeep] at hroot
          exact .inr ⟨root, _, hroot, hroot', hadv⟩
        · rw [hroot] at hr
          cases hr
          exact .inr ⟨r₀, _, hr₀, hroot', hadv'.trans hadv⟩

theorem Edits.serviceAdvances {newMail : MailInsert → Prop} (hdb : db.Consistent)
    (hnorm : db.RootsNormalized)
    (hedits : Edits (serviceRules IsNormalizedRoot newMail) db db') :
    db.ServiceAdvances db' := by
  induction hedits with
  | refl =>
    refine ⟨hdb, hnorm, fun _ => id, .refl db, ?_⟩
    intro b hb b' hb' hid
    exact .inl (congrArg MailboxRow.domainId (hdb.mailbox_ids.eq_of_mem hb' hb hid))
  | tail _ hedit ih => exact hedit.serviceAdvances hdb ih

/-! ## The batch writer -/

namespace BatchWriter

variable {A : AddressOps} {start : Db}

theorem catchAllMatch_hasDomain {rcptTo : Text} {m : DomainMatch}
    (h : catchAllMatch A db rcptTo = some m) : db.HasDomain m := by
  unfold catchAllMatch catchAllMatcher at h
  obtain ⟨matcher, hmatcher, hmatch⟩ := Option.bind_eq_some_iff.mp h
  obtain ⟨d, hd, rfl⟩ := Option.map_eq_some_iff.mp hmatcher
  obtain ⟨rule, hrule, hid, hroot⟩ := DomainMatcher.rule_of_matchAddress hmatch
  rw [List.mem_singleton.mp hrule] at hid hroot
  exact ⟨d, List.mem_of_find?_eq_some hd, hid.symm, hroot.symm⟩

/-- A managed candidate is the rule of an active domain row other than the catch-all one. -/
theorem mem_managedCandidates {domainAscii : Text} {rule : DomainRule}
    (h : rule ∈ managedCandidates db domainAscii) :
    ∃ d ∈ db.domains, rule = d.rule ∧ d.rootDomainAscii ≠ catchAllRoot ∧ d.policy.isActive := by
  obtain ⟨root, -, hrule⟩ := List.mem_filterMap.mp h
  obtain ⟨d, hd, rfl⟩ := Option.map_eq_some_iff.mp hrule
  have hsat := List.find?_some hd
  simp only [Bool.and_eq_true, decide_eq_true_iff] at hsat
  exact ⟨d, List.mem_of_find?_eq_some hd, rfl, hsat.1.2, hsat.2⟩

theorem managedMatch_hasDomain (hA : A.Lawful) (hnorm : db.RootsNormalized)
    {domainAscii rcptTo : Text} {m : DomainMatch}
    (h : managedMatch A db domainAscii rcptTo = .ok (some m)) : db.HasDomain m := by
  unfold managedMatch at h
  dsimp only at h
  split at h
  · cases h
  · rw [DomainMatcher.ofRules?_eq hA] at h
    · have hmatch := Except.ok.inj h
      obtain ⟨rule, hrule, hid, hroot⟩ := DomainMatcher.rule_of_matchAddress hmatch
      obtain ⟨d, hd, rfl, -, -⟩ := mem_managedCandidates hrule
      exact ⟨d, hd, hid.symm, hroot.symm⟩
    · intro rule hrule
      obtain ⟨d, hd, rfl, -, -⟩ := mem_managedCandidates hrule
      exact hnorm d hd

/-- The match of a recipient names a domain of the table. -/
theorem currentDomainMatch_hasDomain (hA : A.Lawful) (hnorm : db.RootsNormalized)
    {r : RecipientDelivery} {m : DomainMatch} (h : currentDomainMatch A db r = .ok m) :
    db.HasDomain m := by
  unfold currentDomainMatch at h
  dsimp only at h
  split at h
  · cases h
  · rename_i identity hidentity
    obtain ⟨hmem, hid⟩ := find?_key hidentity
    split at h
    · cases h
    · rename_i hroot
      have hcached : db.HasDomain r.domainMatch := ⟨identity, hmem, hid, by simpa using hroot⟩
      split at h
      · cases h
        exact hcached
      · split at h
        · cases h
        · rename_i managed hmanaged
          split at h
          · cases h
            exact hcached
          · rename_i refreshed hrefreshed
            have hhas : db.HasDomain refreshed := by
              rcases Option.or_eq_some_iff.mp hrefreshed with rfl | ⟨-, hcatch⟩
              · exact managedMatch_hasDomain hA hnorm hmanaged
              · exact catchAllMatch_hasDomain hcatch
            split at h
            · split at h
              · cases h
              · cases h
                exact hhas
            · split at h
              · cases h
                exact hhas
              · cases h
                exact hcached

/-- Every mailbox at the address of a recipient's managed match is owned by the domain of the match,
    by the catch-all domain, or by a suffix of the match's domain. -/
def OwnersYield (A : AddressOps) (db : Db) (recipients : List RecipientDelivery) : Prop :=
  ∀ r ∈ recipients, ∀ m, currentDomainMatch A db r = .ok m → m.managed →
    ∀ b ∈ db.mailboxes, b.addressCanonical = m.addressCanonical →
      b.domainId = m.domainId ∨ ∃ root, db.ownerRoot? b = some root ∧
        RootAdvances root m.rootDomainAscii

/-- A mailbox since the start of a batch: one that was managed keeps its address, so the start still
    says who may take it over. -/
def OwnedSince (start db : Db) (b₀ b : MailboxRow) : Prop :=
  start.ownerRoot? b₀ = some catchAllRoot ∧
      (b.domainId = b₀.domainId ∨ ∃ root, db.ownerRoot? b = some root ∧ root ≠ catchAllRoot) ∨
    start.ownerRoot? b₀ ≠ some catchAllRoot ∧ b.addressCanonical = b₀.addressCanonical ∧
      (b.domainId = b₀.domainId ∨ ∃ root root', start.ownerRoot? b₀ = some root ∧
        db.ownerRoot? b = some root' ∧ RootAdvances root root')

/-- The invariant of a chain of edits of a batch. -/
structure BatchAdvances (start db : Db) : Prop where
  consistent : db.Consistent
  domains : db.domains = start.domains
  ids : start.IdsContinue db
  owners : ∀ b₀ ∈ start.mailboxes, ∀ b ∈ db.mailboxes, b.id = b₀.id → OwnedSince start db b₀ b

/-- A mailbox that takes over a match of the batch. -/
theorem OwnedSince.rename {recipients : List RecipientDelivery}
    {newMail : MailInsert → Prop} {b₀ b b' : MailboxRow}
    {m : DomainMatch} (hA : A.Lawful) (hnorm : start.RootsNormalized)
    (hyield : OwnersYield A start recipients) (hdb' : db'.Consistent)
    (hdom : db.domains = start.domains) (hdom' : db'.domains = start.domains)
    (hb₀ : b₀ ∈ start.mailboxes) (h : OwnedSince start db b₀ b)
    (hrename : (batchRules A start recipients newMail).rename db b m)
    (hid : b'.domainId = m.domainId) (haddr : b'.addressCanonical = m.addressCanonical) :
    OwnedSince start db' b₀ b' := by
  obtain ⟨⟨r, hr, hm⟩, hplace, hmatch⟩ := hrename
  obtain ⟨d, hd, hdid, hdroot⟩ := currentDomainMatch_hasDomain hA hnorm hm
  have hroot' : db'.ownerRoot? b' = some m.rootDomainAscii :=
    hdroot ▸ ownerRoot?_eq_some hdb' (hdom' ▸ hd) (hdid.trans hid.symm)
  have hsame (heq : b'.domainId = b.domainId) : db'.ownerRoot? b' = db.ownerRoot? b := by
    unfold ownerRoot? domain?
    rw [hdom, hdom', heq]
  rcases h with ⟨hcatch, hcase⟩ | ⟨hmanaged, hkept, hcase⟩
  · refine .inl ⟨hcatch, ?_⟩
    rcases hmatch with heq | hm'
    · rcases hcase with hsame' | ⟨root, hroot, hne⟩
      · exact .inl (hid.trans (heq.symm.trans hsame'))
      · exact .inr ⟨root, (hsame (hid.trans heq.symm)).trans hroot, hne⟩
    · exact .inr ⟨_, hroot', by simpa [DomainMatch.managed] using hm'⟩
  · -- a managed mailbox is renamed only at its own address
    have hnotcatch : ¬db.isCatchAll b := by
      intro hc
      have hc' : db.ownerRoot? b = some catchAllRoot := by simpa [isCatchAll] using hc
      rcases hcase with hsame' | ⟨root, root', -, hroot, hadv⟩
      · apply hmanaged
        rw [← hc']
        unfold ownerRoot? domain?
        rw [hdom, hsame']
      · rw [hroot] at hc'
        exact hadv.1 (Option.some.inj hc')
    have hplace' := hplace.resolve_right hnotcatch
    refine .inr ⟨hmanaged, haddr.trans (hplace'.symm.trans hkept), ?_⟩
    rcases hmatch with heq | hm'
    · rcases hcase with hsame' | ⟨root, root', hroot, hroot₁, hadv⟩
      · exact .inl (hid.trans (heq.symm.trans hsame'))
      · exact .inr ⟨root, root', hroot, (hsame (hid.trans heq.symm)).trans hroot₁, hadv⟩
    · rcases hyield r hr m hm hm' b₀ hb₀ (hkept.symm.trans hplace') with heq | ⟨root, hroot, hadv⟩
      · exact .inl (hid.trans heq.symm)
      · exact .inr ⟨root, _, hroot, hroot', hadv⟩

theorem Edit.batchAdvances {recipients : List RecipientDelivery}
    {newMail : MailInsert → Prop} (hA : A.Lawful)
    (hstart : start.Consistent) (hnorm : start.RootsNormalized)
    (hyield : OwnersYield A start recipients) (h : BatchAdvances start db)
    (hedit : Edit (batchRules A start recipients newMail) db db') : BatchAdvances start db' := by
  have hdb' := hedit.consistent h.consistent
  have hdom : db'.domains = db.domains := hedit.domains_seq.1.resolve_right id
  refine ⟨hdb', hdom.trans h.domains, h.ids.trans (hedit.idsContinue h.consistent), ?_⟩
  intro b₀ hb₀ b' hb' hid'
  rcases hedit.mailboxStep h.consistent b' hb' with hnew | ⟨b, hb, hid, hcase⟩
  · have := hstart.mailbox_seq b₀ hb₀
    have := h.ids.seq
    omega
  · have hold := h.owners b₀ hb₀ b hb (hid.trans hid')
    rcases hcase with ⟨heq, haddr⟩ | ⟨m, hrename, heq, haddr⟩
    · have hroot : db'.ownerRoot? b' = db.ownerRoot? b := by
        unfold ownerRoot? domain?
        rw [hdom, heq]
      unfold OwnedSince
      rw [hroot, heq, haddr]
      exact hold
    · exact hold.rename hA hnorm hyield hdb' h.domains (hdom.trans h.domains) hb₀ hrename heq
        haddr

theorem Edits.batchAdvances {recipients : List RecipientDelivery}
    {newMail : MailInsert → Prop} (hA : A.Lawful)
    (hstart : start.Consistent) (hnorm : start.RootsNormalized)
    (hyield : OwnersYield A start recipients)
    (hedits : Edits (batchRules A start recipients newMail) start db) : BatchAdvances start db := by
  induction hedits with
  | refl =>
    refine ⟨hstart, rfl, .refl start, ?_⟩
    intro b₀ hb₀ b hb hid
    rw [hstart.mailbox_ids.eq_of_mem hb hb₀ hid]
    by_cases hcatch : start.ownerRoot? b₀ = some catchAllRoot
    · exact .inl ⟨hcatch, .inl rfl⟩
    · exact .inr ⟨hcatch, rfl, .inl rfl⟩
  | tail _ hedit ih => exact Edit.batchAdvances hA hstart hnorm hyield ih hedit

/-- A batch whose mailboxes yield to their matches advances the owners. -/
theorem writeSqliteRecords_advances (hA : A.Lawful) (hdb : db.Consistent)
    (hnorm : db.RootsNormalized) {jobs : List (MailJob × ParseResult)}
    (hyield : OwnersYield A db (pendingRecipients db jobs))
    (h : writeSqliteRecords A db jobs = .ok db') : db.OwnershipAdvances db' := by
  have hedits := (writeSqliteRecords_edits hdb rfl (fun _ => id) (fun _ => id) h).1
  have hbatch := Edits.batchAdvances hA hdb hnorm hyield hedits
  intro b hb b' hb' hid
  rcases hbatch.owners b hb b' hb' hid with ⟨hcatch, hcase⟩ | ⟨-, -, hcase⟩
  · exact hcase.imp_right fun ⟨root, hroot, hne⟩ => ⟨_, root, hcatch, hroot, hne, .inl rfl⟩
  · exact hcase

end BatchWriter

/-! ## Roots stay normalised -/

/-- The receipts an operation replays name normalised roots, as the matches they record do. -/
def StoreOp.ReceiptsNormalized : StoreOp → Prop
  | .recover manifest _ =>
    match manifest.recipients with
    | .receipts recipients => ∀ r ∈ recipients, IsNormalizedRoot r.rootDomainAscii
    | .legacy _ => True
  | _ => True

namespace Db

variable {A : AddressOps}

theorem resolveLegacyRecoveryRecipient_normalized (hA : A.Lawful) (hnorm : db.RootsNormalized)
    {rcptTo : Text} {r : RecoveryRecipient}
    (h : db.resolveLegacyRecoveryRecipient A rcptTo = .ok r) :
    IsNormalizedRoot r.rootDomainAscii := by
  unfold resolveLegacyRecoveryRecipient at h
  have hrules : ∀ rule ∈ db.domains.map DomainRow.rule, IsNormalizedRoot rule.rootDomainAscii := by
    intro rule hrule
    obtain ⟨d, hd, rfl⟩ := List.mem_map.mp hrule
    exact hnorm d hd
  rw [DomainMatcher.ofRules?_eq hA hrules] at h
  dsimp only at h
  split at h
  · cases h
  · rename_i m hm
    obtain ⟨rule, hrule, -, hroot⟩ := DomainMatcher.rule_of_matchAddress hm
    split at h
    · cases h
    · cases h
      exact hroot ▸ hrules rule hrule

theorem mem_of_mapM_ok {α β ε : Type} {f : α → Except ε β} {as : List α} {bs : List β}
    (h : as.mapM f = .ok bs) {b : β} (hb : b ∈ bs) : ∃ a ∈ as, f a = .ok b := by
  induction as generalizing bs with
  | nil =>
    cases h
    cases hb
  | cons a as ih =>
    rw [List.mapM_cons] at h
    cases ha : f a with
    | error e =>
      rw [ha] at h
      cases h
    | ok b₁ =>
      rw [ha] at h
      cases has : as.mapM f with
      | error e =>
        rw [has] at h
        cases h
      | ok bs₁ =>
        rw [has] at h
        cases h
        rcases List.mem_cons.mp hb with rfl | hb
        · exact ⟨a, List.mem_cons_self, ha⟩
        · obtain ⟨a', ha', hfa'⟩ := ih has hb
          exact ⟨a', List.mem_cons_of_mem _ ha', hfa'⟩

theorem recoveryRecipients_normalized (hA : A.Lawful) (hnorm : db.RootsNormalized)
    {f : RecoveryManifest} {ids : Nat → Text} (hop : (StoreOp.recover f ids).ReceiptsNormalized)
    {recipients : List RecoveryRecipient}
    (h : db.recoveryRecipientsFromManifest A f = .ok recipients) :
    ∀ r ∈ recipients, IsNormalizedRoot r.rootDomainAscii := by
  unfold recoveryRecipientsFromManifest at h
  unfold StoreOp.ReceiptsNormalized at hop
  dsimp only at hop
  intro r hr
  split at h
  · rename_i hreceipts
    rw [hreceipts] at hop
    split at h
    · cases h
    · cases h
      exact hop r hr
  · split at h
    · cases h
    · obtain ⟨rcptTo, -, hresolve⟩ := mem_of_mapM_ok h hr
      exact resolveLegacyRecoveryRecipient_normalized hA hnorm hresolve

theorem coerceRootDomain_normalized (hA : A.Lawful) {root root' : Text}
    (h : coerceRootDomain A root = .ok root') : IsNormalizedRoot root' := by
  unfold coerceRootDomain at h
  split at h
  · cases h
  · rename_i hroot
    split at h
    · cases h
    · cases h
      exact hA.normalized hroot

theorem insertDomain_normalized {preferred : Option Nat} {root : Text}
    {policy : DomainPolicySnapshot} {id : Nat} (hnorm : db.RootsNormalized)
    (hroot : IsNormalizedRoot root) (h : db.insertDomain preferred root policy = .ok (id, db')) :
    db'.RootsNormalized := by
  obtain ⟨-, -, rfl⟩ := insertDomain_ok h
  intro d hd
  rcases List.mem_append.mp hd with hd | hd
  · exact hnorm d hd
  · rw [List.mem_singleton.mp hd]
    exact hroot

theorem createRehomeJob_domains {jobId : Text} {candidate : Option Text}
    (h : db.createRehomeJob jobId candidate = .ok db') : db'.domains = db.domains := by
  unfold createRehomeJob at h
  split at h
  · cases h
  · cases h
    rfl

theorem createDomain_normalized (hA : A.Lawful) (hnorm : db.RootsNormalized) {root jobId : Text}
    {payload : DomainPayload} (h : db.createDomain A root jobId payload = .ok db') :
    db'.RootsNormalized := by
  unfold createDomain at h
  split at h
  · cases h
  · rename_i rootAscii hroot
    dsimp only at h
    split at h
    · cases h
    · rename_i id db₁ hins
      have hnorm₁ := insertDomain_normalized hnorm (coerceRootDomain_normalized hA hroot) hins
      split at h
      · rw [RootsNormalized, createRehomeJob_domains h]
        exact hnorm₁
      · cases h
        exact hnorm₁

theorem updateDomain_normalized (hA : A.Lawful) (hnorm : db.RootsNormalized) {domainId : Nat}
    {jobId : Text} {payload : DomainPayload}
    (h : db.updateDomain A domainId jobId payload = .ok db') : db'.RootsNormalized := by
  obtain ⟨row, hrow, root, policy, tombstones, written, -, hroot, -, -, hwritten, hcase⟩ :=
    updateDomain_ok h
  have hroot' : IsNormalizedRoot root := by
    unfold updatedRoot at hroot
    split at hroot
    · cases hroot
      exact hnorm row hrow
    · exact coerceRootDomain_normalized hA hroot
  have hnorm' : written.RootsNormalized := by
    rw [hwritten]
    intro d hd
    obtain ⟨c, hc, rfl⟩ := mem_updateWhere.mp hd
    split
    · exact hroot'
    · exact hnorm c hc
  rcases hcase with rfl | hjob
  · exact hnorm'
  · rw [RootsNormalized, createRehomeJob_domains hjob]
    exact hnorm'

theorem deleteDomain_normalized (hnorm : db.RootsNormalized) {domainId : Nat}
    (h : db.deleteDomain domainId = .ok db') : db'.RootsNormalized := by
  unfold deleteDomain at h
  split at h
  · cases h
  · split at h
    · cases h
    · split at h
      · cases h
      · cases h
        exact fun d hd => hnorm d (List.mem_of_mem_filter hd)

theorem syncCatchAllPolicy_normalized (hnorm : db.RootsNormalized)
    {enabled publicWeb publicApi : Bool} {retentionDays : Option Int} {size : Int}
    (h : db.syncCatchAllPolicy enabled publicWeb publicApi retentionDays size = .ok db') :
    db'.RootsNormalized := by
  unfold syncCatchAllPolicy at h
  split at h
  · split at h
    · cases h
      exact hnorm
    · split at h
      · cases h
      · rename_i hins
        cases h
        exact insertDomain_normalized hnorm (.inl rfl) hins
  · cases h
    intro d hd
    obtain ⟨c, hc, rfl⟩ := mem_updateWhere.mp hd
    split
    · exact hnorm c hc
    · exact hnorm c hc

theorem ensureMailboxExists_domains {m : DomainMatch} {now : Timestamp}
    (h : db.ensureMailboxExists A m now = .ok db') : db'.domains = db.domains := by
  unfold ensureMailboxExists at h
  split at h
  · cases h
  · rename_i m' _
    have hown : MayPromote (idRules (fun _ => True) fun _ => True) db m' := fun _ _ _ _ _ => trivial
    split at h
    · cases h
    · rename_i db₁ hfind
      cases h
      exact (findOrRehomeMailbox_edits hown hfind).2.domains
    · rename_i db₁ hfind
      split at h
      · cases h
      · rename_i id db₂ hins
        cases h
        exact ((findOrRehomeMailbox_edits hown hfind).2.trans (insertMailbox_mailOnly hins)).domains

end Db

/-- Edits that leave the domains alone or add normalised roots. -/
theorem StoreOp.transaction_normalized {E : StoreEnv} {op : StoreOp} (hdb : db.Consistent)
    (hnorm : db.RootsNormalized) (hop : op.ReceiptsNormalized)
    (h : op.transaction E db = .ok db') : db'.RootsNormalized := by
  have hpy := pyAddressOps_lawful E.py
  have hsame (heq : db'.domains = db.domains) : db'.RootsNormalized := by
    rw [RootsNormalized, heq]
    exact hnorm
  cases op with
  | commit jobs =>
    exact hsame (BatchWriter.writeSqliteRecords_edits hdb rfl (fun _ => id) (fun _ => id) h).2
  | accept request =>
    have hedits : Edits (serviceRules IsNormalizedRoot fun _ => True) db db' :=
      acceptMessage_edits hpy trivial (fun _ _ => trivial) h
    exact (hedits.serviceAdvances hdb hnorm).normalized
  | recover manifest ids =>
    have hedits : Edits (serviceRules IsNormalizedRoot fun _ => True) db db' :=
      applyRecoveryManifest_edits hpy hdb
        (fun _ hrecipients => recoveryRecipients_normalized hpy hnorm hop hrecipients)
        trivial (fun _ => trivial) h
    exact (hedits.serviceAdvances hdb hnorm).normalized
  | ensureMailbox m now => exact hsame (ensureMailboxExists_domains h)
  | rehomeBatch jobId batchSize =>
    have hedits : Edits (serviceRules IsNormalizedRoot fun _ => True) db db' :=
      processRehomeJobBatch_edits hpy h
    exact (hedits.serviceAdvances hdb hnorm).normalized
  | rehomeFailed jobId =>
    cases h
    exact hnorm
  | createBulkDelete jobId mailboxId deletedAt =>
    have hmap : (db.createOrResumeBulkDeleteJob jobId mailboxId deletedAt).map Prod.snd =
        .ok db' := h
    cases hjob : db.createOrResumeBulkDeleteJob jobId mailboxId deletedAt with
    | error e =>
      rw [hjob] at hmap
      cases hmap
    | ok result =>
      obtain ⟨id, db₁⟩ := result
      rw [hjob] at hmap
      cases hmap
      obtain ⟨mailbox, -, -, ⟨job, -, -, -, -, rfl⟩ | ⟨-, -, -, rfl⟩⟩ :=
        createOrResumeBulkDeleteJob_ok hjob
      · exact hnorm
      · exact hnorm
  | bulkDeleteBatch jobId batchSize now =>
    obtain ⟨job, -, -, -, ⟨-, rfl⟩ | ⟨-, rfl⟩⟩ := processBulkDeleteJobBatch_ok h
    · exact hnorm
    · apply hsame
      unfold advanceBulkDeleteJob
      dsimp only
      split
      · rfl
      · rfl
  | bulkDeleteFailed jobId =>
    cases h
    exact hnorm
  | deleteDeliveries ids deletedAt =>
    cases h
    apply hsame
    unfold deleteRequestedDeliveries
    split
    · rfl
    · rfl
  | deleteMailboxDeliveries mailboxId ids deletedAt now =>
    have h' : db.softDeleteMailboxDeliveries mailboxId ids deletedAt now = .ok db' := h
    unfold softDeleteMailboxDeliveries at h'
    split at h'
    · cases h'
    · split at h'
      · cases h'
        exact hnorm
      · cases h'
        exact hnorm
  | expire now refreshedAt cutoff limit batch =>
    cases h
    exact hnorm
  | updateMailbox mailboxId publicEnabled isHidden notes =>
    have h' : db.updateMailboxFlags mailboxId publicEnabled isHidden notes = .ok db' := h
    unfold updateMailboxFlags at h'
    split at h'
    · cases h'
    · cases h'
      exact hnorm
  | createDomain root jobId payload => exact createDomain_normalized hpy hnorm h
  | updateDomain domainId jobId payload => exact updateDomain_normalized hpy hnorm h
  | deleteDomain domainId => exact deleteDomain_normalized hnorm h
  | syncCatchAll enabled publicWeb publicApi retentionDays size =>
    exact syncCatchAllPolicy_normalized hnorm h

/-! ## Histories -/

/-- The operations that deliver mail or rehome mailboxes. -/
def StoreOp.MovesMailboxes : StoreOp → Prop
  | .commit _ | .accept _ | .recover _ _ | .rehomeBatch _ _ => True
  | _ => False

/-- In a batch of the daemon, the mailboxes yield to the matches of the recipients. -/
def StoreOp.OwnersYield (E : StoreEnv) (db : Db) : StoreOp → Prop
  | .commit jobs =>
    BatchWriter.OwnersYield (cppAddressOps E.cpp) db (BatchWriter.pendingRecipients db jobs)
  | _ => True

namespace Db

theorem OwnershipAdvances.refl (hdb : db.Consistent) : db.OwnershipAdvances db := by
  intro b hb b' hb' hid
  exact .inl (congrArg MailboxRow.domainId (hdb.mailbox_ids.eq_of_mem hb' hb hid))

theorem exec_normalized {E : StoreEnv} {op : StoreOp} (hdb : db.Consistent)
    (hnorm : db.RootsNormalized) (hop : op.ReceiptsNormalized) :
    (db.exec E op).RootsNormalized := by
  unfold exec
  cases h : op.transaction E db with
  | error e => exact hnorm
  | ok db' => exact StoreOp.transaction_normalized hdb hnorm hop h

/-- One operation advances the owners, if the mailboxes yield to it. -/
theorem exec_advances {E : StoreEnv} {op : StoreOp} (hdb : db.Consistent)
    (hnorm : db.RootsNormalized) (hop : op.ReceiptsNormalized) (hmoves : op.MovesMailboxes)
    (hyield : op.OwnersYield E db) : db.OwnershipAdvances (db.exec E op) := by
  have hpy := pyAddressOps_lawful E.py
  unfold exec
  cases h : op.transaction E db with
  | error e => exact .refl hdb
  | ok db' =>
    have hservice (hedits : Edits (serviceRules IsNormalizedRoot fun _ => True) db db') :
        db.OwnershipAdvances db' := (hedits.serviceAdvances hdb hnorm).owners
    cases op with
    | commit jobs =>
      exact BatchWriter.writeSqliteRecords_advances (cppAddressOps_lawful E.cpp) hdb hnorm hyield h
    | accept request => exact hservice (acceptMessage_edits hpy trivial (fun _ _ => trivial) h)
    | recover manifest ids =>
      exact hservice (applyRecoveryManifest_edits hpy hdb
        (fun _ hrecipients => recoveryRecipients_normalized hpy hnorm hop hrecipients)
        trivial (fun _ => trivial) h)
    | rehomeBatch jobId batchSize => exact hservice (processRehomeJobBatch_edits hpy h)
    | _ => exact hmoves.elim

/-- In every history in which the mailboxes yield to the batches of the daemon, every operation that
    delivers mail or rehomes mailboxes advances the owners. -/
theorem ownership_monotone {E : StoreEnv} {start : Db} (hstart : start.Consistent)
    (hnorm : start.RootsNormalized) {ops : List StoreOp}
    (hreceipts : ∀ op ∈ ops, op.ReceiptsNormalized)
    (hyield : Throughout E (fun db op => op.OwnersYield E db) start ops) :
    ∀ before op after, ops = before ++ op :: after → op.MovesMailboxes →
      (start.run E before).OwnershipAdvances (start.run E (before ++ [op])) := by
  induction ops generalizing start with
  | nil =>
    intro before op after hsplit
    simp at hsplit
  | cons first ops ih =>
    intro before op after hsplit hmoves
    have hfirst := hreceipts first List.mem_cons_self
    cases before with
    | nil =>
      obtain ⟨rfl, -⟩ := List.cons.inj hsplit
      exact exec_advances hstart hnorm hfirst hmoves hyield.1
    | cons op' before =>
      obtain ⟨rfl, hsplit'⟩ := List.cons.inj hsplit
      exact ih (exec_consistent hstart first) (exec_normalized hstart hnorm hfirst)
        (fun o ho => hreceipts o (List.mem_cons_of_mem _ ho)) hyield.2 before op after hsplit'
        hmoves

/-- A catch-all mailbox, and a managed domain that takes its address over. -/
def promotionHistory : List StoreOp :=
  [.syncCatchAll true false false none 1000,
   .commit [sampleJob "m1" 10 [sampleRecipient "d1" (sampleMatch 1 "*" "u" "example.com")]],
   .createDomain "example.com".toList "r1".toList .unset,
   .commit [sampleJob "m2" 20 [sampleRecipient "d2" (sampleMatch 1 "*" "u" "example.com")]]]

/-- A batch with one recipient, whose match is known. -/
theorem ownersYield_single {A : AddressOps} {id : String} {receivedAt : Timestamp}
    {r : RecipientDelivery} {m₀ : DomainMatch}
    (hm₀ : BatchWriter.currentDomainMatch A db r = .ok m₀)
    (h : ∀ b ∈ db.mailboxes, b.addressCanonical = m₀.addressCanonical →
      b.domainId = m₀.domainId ∨ ∃ root ∈ db.ownerRoot? b, RootAdvances root m₀.rootDomainAscii) :
    BatchWriter.OwnersYield A db
      (BatchWriter.pendingRecipients db [sampleJob id receivedAt [r]]) := by
  intro r' hr' m hm _ b hb haddr
  obtain ⟨job, hjob, -, hmem⟩ := BatchWriter.mem_pendingRecipients.mp hr'
  rw [List.mem_singleton.mp hjob] at hmem
  rw [List.mem_singleton.mp hmem, hm₀] at hm
  cases hm
  exact h b hb haddr

theorem promotionHistory_yields :
    Throughout .ascii (fun db op => op.OwnersYield .ascii db) empty promotionHistory := by
  refine ⟨trivial, ?_, trivial, ?_, trivial⟩
  · have hm : BatchWriter.currentDomainMatch (cppAddressOps .asciiOnly)
        (empty.run .ascii (promotionHistory.take 1))
        (sampleRecipient "d1" (sampleMatch 1 "*" "u" "example.com")) =
          .ok (sampleMatch 1 "*" "u" "example.com") := by decide +kernel
    exact ownersYield_single hm (by decide +kernel)
  · have hm : BatchWriter.currentDomainMatch (cppAddressOps .asciiOnly)
        (empty.run .ascii (promotionHistory.take 3))
        (sampleRecipient "d2" (sampleMatch 1 "*" "u" "example.com")) =
          .ok (sampleMatch 2 "example.com" "u" "example.com") := by decide +kernel
    exact ownersYield_single hm (by decide +kernel)

/-- The second message moves the mailbox to the managed domain. -/
theorem ownership_monotone_promotion :
    (empty.run .ascii (promotionHistory.take 3)).mailboxes.map MailboxRow.domainId = [1] ∧
      (empty.run .ascii promotionHistory).mailboxes.map MailboxRow.domainId = [2] ∧
      (empty.run .ascii (promotionHistory.take 3)).OwnershipAdvances
        (empty.run .ascii promotionHistory) := by
  refine ⟨by decide +kernel, by decide +kernel, ?_⟩
  refine ownership_monotone empty_consistent (fun d hd => by cases hd) ?_ promotionHistory_yields
    (promotionHistory.take 3) _ [] rfl trivial
  intro op hop
  simp only [promotionHistory, List.mem_cons, List.not_mem_nil, or_false] at hop
  rcases hop with rfl | rfl | rfl | rfl <;> trivial

/-- A mailbox of `sub.example.com`, which is deactivated before `example.com` is created. -/
def demotionHistory : List StoreOp :=
  [.createDomain "sub.example.com".toList "r1".toList .unset,
   .commit [sampleJob "m1" 10
     [sampleRecipient "d1" (sampleMatch 1 "sub.example.com" "u" "sub.example.com")]],
   .updateDomain 1 "r2".toList { DomainPayload.unset with isActive := some false },
   .createDomain "example.com".toList "r3".toList .unset]

/-- A message accepted for `example.com`. -/
def demotionCommit : StoreOp :=
  .commit [sampleJob "m2" 20
    [sampleRecipient "d2" (sampleMatch 2 "example.com" "u" "sub.example.com")]]

/-- The batch writer moves the mailbox from `sub.example.com` to the shorter suffix. -/
theorem ownership_moved_to_shorter_suffix :
    demotionCommit.MovesMailboxes ∧
      ¬(empty.run .ascii demotionHistory).OwnershipAdvances
        (empty.run .ascii (demotionHistory ++ [demotionCommit])) :=
  ⟨trivial, by decide +kernel⟩

end Db
end RapidInbox
