import RapidInbox.Store.DomainIdentity

/-!
# Retired domains

A receipt names the domain it was accepted for by id and root.  A replay adds the domain if its root
is free, but not under an identity that a rename or a deletion has ended, and it gives the mailbox of
a recipient to the domain of the root or to the one that has the address now.
-/

namespace RapidInbox

open Table

/-- A rename or a deletion has ended an identity, and the root has not come back to the id. -/
def Db.DomainRetired (db : Db) (domainId : Nat) (root : Text) : Prop :=
  (domainId, root) ∈ db.tombstones ∧
    ∀ d ∈ db.domains, d.rootDomainAscii = root → d.id ≠ domainId

instance (db : Db) (domainId : Nat) (root : Text) : Decidable (db.DomainRetired domainId root) :=
  inferInstanceAs (Decidable (_ ∧ _))

/-- What a replay does to the domains: it adds some, none of them under an identity that has
    ended. -/
structure Db.Recovered (db db' : Db) : Prop where
  tombstones : db'.tombstones = db.tombstones
  appended : db.domains <+: db'.domains
  unretired : ∀ d ∈ db'.domains, d ∈ db.domains ∨ (d.id, d.rootDomainAscii) ∉ db.tombstones
  idsIssued : db'.IdsIssued

/-- Every mailbox has its owner from before, or one under the given ids. -/
def Db.OwnersFrom (P : Nat → Prop) (db db' : Db) : Prop :=
  ∀ b' ∈ db'.mailboxes, P b'.domainId ∨
    ∃ b ∈ db.mailboxes, b.id = b'.id ∧ b.domainId = b'.domainId

/-- The owners a replay may choose for a recipient: the domain of the receipt's root, or the domain
    the address has under the active rules. -/
def Db.AttachTarget (A : AddressOps) (db : Db) (r : RecoveryRecipient) (domainId : Nat) : Prop :=
  (∃ d ∈ db.domains, d.id = domainId ∧ d.rootDomainAscii = r.rootDomainAscii) ∨
    ∃ m, db.matchActiveDomain A r.rcptTo = .ok (some m) ∧ m.domainId = domainId

namespace Db

variable {db db' db'' : Db} {A : AddressOps}

/-! ## Domains of a replay -/

theorem Recovered.refl (hdb : db.IdsIssued) : db.Recovered db :=
  ⟨rfl, List.prefix_refl _, fun _ hd => .inl hd, hdb⟩

theorem Recovered.trans (h : db.Recovered db') (h' : db'.Recovered db'') : db.Recovered db'' where
  tombstones := h'.tombstones.trans h.tombstones
  appended := h.appended.trans h'.appended
  unretired := by
    intro d hd
    rcases h'.unretired d hd with hd | hno
    · exact h.unretired d hd
    · exact .inr (h.tombstones ▸ hno)
  idsIssued := h'.idsIssued

theorem SameDomains.recovered (h : db.SameDomains db') (hdb : db.IdsIssued) : db.Recovered db' where
  tombstones := h.tombstones
  appended := h.domains ▸ List.prefix_refl _
  unretired := fun _ hd => .inl (h.domains ▸ hd)
  idsIssued := h.idsIssued hdb

/-- An identity that has ended stays so in a replay. -/
theorem DomainRetired.recovered {domainId : Nat} {root : Text} (h : db.DomainRetired domainId root)
    (hrec : db.Recovered db') : db'.DomainRetired domainId root := by
  refine ⟨hrec.tombstones ▸ h.1, ?_⟩
  rintro d hd rfl rfl
  rcases hrec.unretired d hd with hd | hno
  · exact h.2 d hd rfl rfl
  · exact hno h.1

/-- The record of a receipt is not retired; a new one gets an id that no tombstone of the root has. -/
theorem ensureRecoveryDomainRecord_recovered {r : RecoveryRecipient} {id : Nat}
    (hdb : db.IdsIssued) (h : db.ensureRecoveryDomainRecord r = .ok (id, db')) :
    ¬db.DomainRetired r.domainId r.rootDomainAscii ∧ db.Recovered db' ∧ db'.mailboxes = db.mailboxes := by
  unfold ensureRecoveryDomainRecord at h
  dsimp only at h
  split at h
  · rename_i hany
    cases h
    refine ⟨?_, .refl hdb, rfl⟩
    rintro ⟨-, hno⟩
    rw [Option.any_eq_true] at hany
    obtain ⟨d, hd, hid⟩ := hany
    obtain ⟨hmem, hroot⟩ := find?_key hd
    exact hno d hmem hroot (by simpa using hid)
  · split at h
    · cases h
    · rename_i htombstone
      have hretired : ¬db.DomainRetired r.domainId r.rootDomainAscii := fun hr => htombstone hr.1
      split at h
      · cases h
        exact ⟨hretired, .refl hdb, rfl⟩
      · split at h
        · cases h
        · have hissued := insertDomain_idsIssued hdb h
          have hid := insertDomain_id h
          obtain ⟨-, -, rfl⟩ := insertDomain_ok h
          refine ⟨hretired, ⟨rfl, List.prefix_append _ _, ?_, hissued⟩, rfl⟩
          intro d hd
          rcases List.mem_append.mp hd with hd | hd
          · exact .inl hd
          · right
            rw [List.mem_singleton.mp hd]
            -- the preferred id is the receipt's; a fresh one is past every tombstone
            rw [hid]
            split
            · exact htombstone
            · intro hmem
              exact absurd (hdb.tombstones _ hmem) (Nat.not_succ_le_self _)

/-! ## Owners of a replay -/

variable {P Q : Nat → Prop}

theorem OwnersFrom.refl (P : Nat → Prop) (db : Db) : OwnersFrom P db db :=
  fun b hb => .inr ⟨b, hb, rfl, rfl⟩

theorem OwnersFrom.of_mailboxes_eq (h : db'.mailboxes = db.mailboxes) : OwnersFrom P db db' :=
  fun b hb => .inr ⟨b, h ▸ hb, rfl, rfl⟩

theorem OwnersFrom.mono (hle : ∀ id, P id → Q id) (h : OwnersFrom P db db') :
    OwnersFrom Q db db' :=
  fun b hb => (h b hb).imp (hle _) fun hkept => hkept

theorem OwnersFrom.trans (h : OwnersFrom P db db') (h' : OwnersFrom P db' db'') :
    OwnersFrom P db db'' := by
  intro b'' hb''
  rcases h' b'' hb'' with hnew | ⟨b', hb', hid', hdomain'⟩
  · exact .inl hnew
  · rcases h b' hb' with hnew | ⟨b, hb, hid, hdomain⟩
    · exact .inl (hdomain' ▸ hnew)
    · exact .inr ⟨b, hb, hid.trans hid', hdomain.trans hdomain'⟩

theorem updateMailbox_owners {id : Nat} {f : MailboxRow → MailboxRow} (hid : ∀ b, (f b).id = b.id)
    (hdomain : ∀ b, (f b).domainId = b.domainId ∨ P (f b).domainId) :
    OwnersFrom P db (db.updateMailbox id f) := by
  intro b' hb'
  obtain ⟨b, hb, rfl⟩ := mem_updateWhere.mp hb'
  split
  · rcases hdomain b with hsame | hnew
    · exact .inr ⟨b, hb, (hid b).symm, hsame.symm⟩
    · exact .inl hnew
  · exact .inr ⟨b, hb, rfl, rfl⟩

theorem refreshRehomed_owners {id : Nat} {first last : Timestamp} :
    OwnersFrom P db (db.refreshRehomedMailboxSummary id first last) :=
  updateMailbox_owners (fun _ => rfl) fun _ => .inl rfl

theorem updateMailboxIdentity_owners {id : Nat} {m : DomainMatch} (hm : P m.domainId)
    (h : db.updateMailboxIdentity id m = .ok db') : OwnersFrom P db db' := by
  obtain ⟨-, -, rfl⟩ := updateMailboxIdentity_ok h
  exact updateMailbox_owners (fun _ => rfl) fun _ => .inr hm

theorem deleteMailbox_owners {id : Nat} (h : db.deleteMailbox id = .ok db') :
    OwnersFrom P db db' := by
  unfold deleteMailbox at h
  split at h
  · cases h
  · cases h
    exact fun b hb => .inr ⟨b, List.mem_of_mem_filter hb, rfl, rfl⟩

theorem promoteInPlace_owners {source : MailboxRow} {m : DomainMatch} {result : PromoteResult}
    (hm : P m.domainId) (h : db.promoteInPlace source m = .ok (result, db')) :
    OwnersFrom P db db' := by
  unfold promoteInPlace at h
  split at h
  · cases h
  · rename_i hupd
    cases h
    exact (updateMailboxIdentity_owners hm hupd).trans refreshRehomed_owners

theorem promoteByMerge_owners {source target : MailboxRow} {root : Text} {m : DomainMatch}
    {result : PromoteResult} (hm : P m.domainId)
    (h : db.promoteByMerge source target root m = .ok (result, db')) : OwnersFrom P db db' := by
  unfold promoteByMerge at h
  split at h
  · cases h
  · rename_i promoted hpromote
    dsimp only at h
    split at h
    · cases h
    · rename_i hdelete
      cases h
      have htarget : OwnersFrom P db promoted := by
        unfold promoteTarget at hpromote
        split at hpromote
        · exact updateMailboxIdentity_owners hm hpromote
        · cases hpromote
          exact .refl P db
      have hflagged : OwnersFrom P promoted
          (promoted.updateMailbox target.id fun b => b.mergeFlags source) :=
        updateMailbox_owners (fun _ => rfl) fun _ => .inl rfl
      have hmerged : OwnersFrom P (promoted.updateMailbox target.id fun b => b.mergeFlags source)
          ((promoted.updateMailbox target.id fun b => b.mergeFlags source).mergeDeliveries id source.id
            target.id) := .of_mailboxes_eq rfl
      exact (((htarget.trans hflagged).trans hmerged).trans refreshRehomed_owners).trans
        (deleteMailbox_owners hdelete)

theorem promoteMailboxOwnership_owners {id : Nat} {m : DomainMatch} {result : PromoteResult}
    (hm : P m.domainId) (h : db.promoteMailboxOwnership id m = .ok (result, db')) :
    OwnersFrom P db db' := by
  unfold promoteMailboxOwnership at h
  split at h
  · cases h
    exact .refl P db
  · split at h
    · cases h
      exact .refl P db
    · split at h
      · cases h
        exact .refl P db
      · split at h
        · exact promoteInPlace_owners hm h
        · split at h
          · exact promoteInPlace_owners hm h
          · split at h
            · exact promoteInPlace_owners hm h
            · exact promoteByMerge_owners hm h

theorem recoveryCandidate_owners {m : DomainMatch} {address : Text} {found : Option Nat}
    (hm : P m.domainId) (h : db.recoveryCandidate m address = .ok (found, db')) :
    OwnersFrom P db db' := by
  unfold recoveryCandidate at h
  split at h
  · cases h
    exact .refl P db
  · split at h
    · split at h
      · cases h
      · rename_i hpromote
        cases h
        exact promoteMailboxOwnership_owners hm hpromote
    · cases h
      exact .refl P db

/-- The mailbox of a recovered recipient belongs to the domain of the match, or stays as it is. -/
theorem recoveryMailbox_owners {m : DomainMatch} {address : Text} {receivedAt : Timestamp}
    {id : Nat} (hm : P m.domainId) (h : db.recoveryMailbox m address receivedAt = .ok (id, db')) :
    OwnersFrom P db db' := by
  unfold recoveryMailbox at h
  dsimp only at h
  split at h
  · cases h
  · rename_i hfirst
    cases h
    exact recoveryCandidate_owners hm hfirst
  · rename_i db₁ hfirst
    have howners₁ := recoveryCandidate_owners hm hfirst
    have hsecond {found : Option Nat} {db₂ : Db} (hcandidate : (if address = m.addressCanonical then
        .ok (none, db₁) else db₁.recoveryCandidate m address) = .ok (found, db₂)) :
        OwnersFrom P db db₂ := by
      split at hcandidate
      · cases hcandidate
        exact howners₁
      · exact howners₁.trans (recoveryCandidate_owners hm hcandidate)
    split at h
    · cases h
    · rename_i hcandidate
      cases h
      exact hsecond hcandidate
    · rename_i db₂ hcandidate
      split at h
      · cases h
        exact hsecond hcandidate
      · refine (hsecond hcandidate).trans ?_
        obtain ⟨-, -, -, rfl⟩ := insertMailbox_ok h
        intro b hb
        rcases List.mem_append.mp hb with hb | hb
        · exact .inr ⟨b, hb, rfl, rfl⟩
        · rw [List.mem_singleton.mp hb]
          exact .inl hm

/-! ## Replays -/

theorem AttachTarget.congr (hdomains : db'.domains = db.domains) {r : RecoveryRecipient} {id : Nat}
    (h : db.AttachTarget A r id) : db'.AttachTarget A r id := by
  unfold AttachTarget matchActiveDomain at h ⊢
  rw [hdomains]
  exact h

theorem ownershipMatch_target {r : RecoveryRecipient} {id : Nat} {m : DomainMatch}
    (hid : ∃ d ∈ db.domains, d.id = id ∧ d.rootDomainAscii = r.rootDomainAscii)
    (h : db.ownershipMatch A r id = .ok m) : db.AttachTarget A r m.domainId := by
  unfold ownershipMatch at h
  split at h
  · cases h
  · cases h
    exact .inl hid
  · rename_i current hcurrent
    split at h
    · cases h
      exact .inr ⟨_, hcurrent, rfl⟩
    · cases h
      exact .inl hid

/-- A recipient that is replayed is not retired, and its mailbox goes to a target of the receipt. -/
theorem recoverRecipient_spec (hA : A.Lawful) (hdb : db.IdsIssued) {f : RecoveryManifest}
    {deliveryId : Text} {r : RecoveryRecipient} {id n : Nat}
    (h : db.recoverRecipient A f deliveryId r = .ok (id, n, db')) :
    ¬db.DomainRetired r.domainId r.rootDomainAscii ∧ db.Recovered db' ∧
      OwnersFrom (db'.AttachTarget A r) db db' := by
  unfold recoverRecipient at h
  split at h
  · cases h
  · rename_i mailboxId db₂ hbox
    split at h
    · cases h
    · split at h
      · cases h
      · rename_i n₁ db₃ hins
        cases h
        unfold ensureRecoveryMailboxRecord at hbox
        split at hbox
        · cases hbox
        · rename_i domainId db₁ hdomain
          split at hbox
          · cases hbox
          · rename_i m hm
            obtain ⟨hretired, hrec, hmail⟩ := ensureRecoveryDomainRecord_recovered hdb hdomain
            have hid := (ensureRecoveryDomainRecord_ok hdomain).2
            have honly : Edits (serviceRules (fun _ => True) fun _ => True) db₁ db₂ ∧
                db₁.MailOnly db₂ :=
              recoveryMailbox_edits (ownershipMatch_hasDomain hA hid hm) hbox
            have hdelivery : db₂.SameDomains db' ∧ db'.mailboxes = db₂.mailboxes := by
              unfold insertDeliveryOrIgnore at hins
              split at hins
              · cases hins
                exact ⟨.refl _, rfl⟩
              · split at hins
                · cases hins
                  exact ⟨⟨rfl, rfl, rfl⟩, rfl⟩
                · cases hins
            have hsame : db₁.SameDomains db' := honly.2.sameDomains.trans hdelivery.1
            have htarget := (ownershipMatch_target hid hm).congr hsame.domains
            refine ⟨hretired, hrec.trans (hsame.recovered hrec.idsIssued), ?_⟩
            exact ((OwnersFrom.of_mailboxes_eq hmail).trans (recoveryMailbox_owners htarget hbox)).trans
              (.of_mailboxes_eq hdelivery.2)

/-- The domain a recipient's mailbox goes to, by the domains at some moment of the replay. -/
def RoutedDuring (A : AddressOps) (db db' : Db) (r : RecoveryRecipient) (domainId : Nat) : Prop :=
  ∃ mid : Db, db.domains <+: mid.domains ∧ mid.domains <+: db'.domains ∧
    mid.AttachTarget A r domainId

theorem RoutedDuring.widen {db₁ db₂ : Db} (hbefore : db.domains <+: db₁.domains)
    (hafter : db₂.domains <+: db'.domains) {r : RecoveryRecipient} {id : Nat}
    (h : RoutedDuring A db₁ db₂ r id) : RoutedDuring A db db' r id := by
  obtain ⟨mid, hpre, hpost, htarget⟩ := h
  exact ⟨mid, hbefore.trans hpre, hpost.trans hafter, htarget⟩

theorem recoverRecipients_spec (hA : A.Lawful) (hdb : db.IdsIssued) {f : RecoveryManifest}
    {recipients : List (Text × RecoveryRecipient)} {ids : List Nat} {n : Nat}
    (h : recoverRecipients A f recipients db = .ok (ids, n, db')) :
    (∀ x ∈ recipients, ¬db.DomainRetired x.2.domainId x.2.rootDomainAscii) ∧ db.Recovered db' ∧
      OwnersFrom (fun id => ∃ x ∈ recipients, RoutedDuring A db db' x.2 id) db db' := by
  induction recipients generalizing db ids n with
  | nil =>
    cases h
    exact ⟨fun _ hx => absurd hx List.not_mem_nil, .refl hdb, .refl _ _⟩
  | cons x rest ih =>
    obtain ⟨deliveryId, r⟩ := x
    unfold recoverRecipients at h
    split at h
    · cases h
    · rename_i mailboxId n₁ db₁ hone
      split at h
      · cases h
      · rename_i ids' n' db₂ hloop
        cases h
        obtain ⟨hretired, hrec, howners⟩ := recoverRecipient_spec hA hdb hone
        obtain ⟨hretired', hrec', howners'⟩ := ih hrec.idsIssued hloop
        refine ⟨?_, hrec.trans hrec', ?_⟩
        · intro x hx
          rcases List.mem_cons.mp hx with rfl | hx
          · exact hretired
          · exact fun hr => hretired' x hx (hr.recovered hrec)
        · apply OwnersFrom.trans
          · refine howners.mono fun id htarget => ?_
            exact ⟨_, List.mem_cons_self, db₁, hrec.appended, hrec'.appended, htarget⟩
          · refine howners'.mono ?_
            rintro id ⟨x, hx, hrouted⟩
            exact ⟨x, List.mem_cons_of_mem _ hx,
              hrouted.widen hrec.appended (List.prefix_refl _)⟩

/-- The statements around the recipient loop leave domains and owners alone. -/
structure KeepsOwners (db db' : Db) : Prop where
  sameDomains : db.SameDomains db'
  owners : OwnersFrom (fun _ => False) db db'

theorem KeepsOwners.refl (db : Db) : db.KeepsOwners db := ⟨.refl db, .refl _ db⟩

theorem KeepsOwners.trans (h : db.KeepsOwners db') (h' : db'.KeepsOwners db'') :
    db.KeepsOwners db'' := ⟨h.sameDomains.trans h'.sameDomains, h.owners.trans h'.owners⟩

theorem insertMessageOrIgnore_keepsOwners {row : MessageRow} {inserted : Bool}
    (h : db.insertMessageOrIgnore row = .ok (inserted, db')) : db.KeepsOwners db' := by
  unfold insertMessageOrIgnore at h
  split at h
  · cases h
    exact .refl db
  · split at h
    · cases h
    · rename_i hins
      cases h
      obtain ⟨-, rfl⟩ := insertMessage_ok hins
      exact ⟨⟨rfl, rfl, rfl⟩, .of_mailboxes_eq rfl⟩

theorem refreshMailboxSummary_keepsOwners {id : Nat} (h : db.refreshMailboxSummary id = .ok db') :
    db.KeepsOwners db' := by
  unfold refreshMailboxSummary at h
  dsimp only at h
  split at h
  · cases h
    exact ⟨⟨rfl, rfl, rfl⟩, updateMailbox_owners (fun _ => rfl) fun _ => .inl rfl⟩
  · split at h
    · cases h
    · cases h
      exact .refl db

theorem insertAttachmentOrIgnore_keepsOwners {row : AttachmentRow}
    (h : db.insertAttachmentOrIgnore row = .ok db') : db.KeepsOwners db' := by
  unfold insertAttachmentOrIgnore at h
  split at h
  · cases h
    exact .refl db
  · obtain ⟨-, -, rfl⟩ := insertAttachment_ok h
    exact ⟨⟨rfl, rfl, rfl⟩, .of_mailboxes_eq rfl⟩

theorem recoveryMetric_keepsOwners {f : RecoveryManifest} {inserted : Bool} {n : Nat} :
    db.KeepsOwners (db.recoveryMetric f inserted n) := by
  unfold recoveryMetric
  split
  · obtain ⟨metrics, hmetrics⟩ := BatchWriter.upsertMetric_eq db (metricBucketTs f.receivedAt)
      inserted.toNat n (inserted && f.content.parseStatus = .failed).toNat
    rw [hmetrics]
    exact ⟨⟨rfl, rfl, rfl⟩, .of_mailboxes_eq rfl⟩
  · exact .refl db

theorem foldlM_keepsOwners {α : Type} {step : Db → α → Except DbError Db} {as : List α}
    (hstep : ∀ s a s', step s a = .ok s' → s.KeepsOwners s') (h : as.foldlM step db = .ok db') :
    db.KeepsOwners db' := by
  have hone (s : Db) (hs : db.KeepsOwners s) (a : α) (_ : a ∈ as) (s' : Db)
      (hok : step s a = .ok s') : db.KeepsOwners s' := hs.trans (hstep s a s' hok)
  exact Transition.foldlM_invariant hone (.refl db) h

theorem replayManifest_spec (hA : A.Lawful) (hdb : db.IdsIssued) {f : RecoveryManifest}
    {recipients : List (Text × RecoveryRecipient)}
    (h : db.replayManifest A f recipients = .ok db') :
    (∀ x ∈ recipients, ¬db.DomainRetired x.2.domainId x.2.rootDomainAscii) ∧ db.Recovered db' ∧
      OwnersFrom (fun id => ∃ x ∈ recipients, RoutedDuring A db db' x.2 id) db db' := by
  obtain ⟨inserted, db₁, ids, n, db₂, db₃, db₄, hmsg, hloop, hrefresh, hatt, rfl⟩ :=
    replayManifest_ok h
  have hbefore : db.KeepsOwners db₁ := insertMessageOrIgnore_keepsOwners hmsg
  have hafter : db₂.KeepsOwners (db₄.recoveryMetric f inserted n) :=
    ((foldlM_keepsOwners (fun _ _ _ => refreshMailboxSummary_keepsOwners) hrefresh).trans
      (foldlM_keepsOwners (fun _ _ _ => insertAttachmentOrIgnore_keepsOwners) hatt)).trans
      recoveryMetric_keepsOwners
  have hrec₁ := hbefore.sameDomains.recovered hdb
  obtain ⟨hretired, hrec, howners⟩ := recoverRecipients_spec hA hrec₁.idsIssued hloop
  have hrec₂ := hafter.sameDomains.recovered hrec.idsIssued
  refine ⟨fun x hx hr => hretired x hx (hr.recovered hrec₁), (hrec₁.trans hrec).trans hrec₂, ?_⟩
  have hloop' : OwnersFrom (fun id => ∃ x ∈ recipients,
      RoutedDuring A db (db₄.recoveryMetric f inserted n) x.2 id) db₁ db₂ :=
    howners.mono fun id ⟨x, hx, hrouted⟩ => ⟨x, hx, hrouted.widen hrec₁.appended hrec₂.appended⟩
  exact ((hbefore.owners.mono fun _ => False.elim).trans hloop').trans
    (hafter.owners.mono fun _ => False.elim)

/-- A replay that succeeds leaves the database alone or replays the recipients of the manifest. -/
theorem applyRecoveryManifest_ok {f : RecoveryManifest} {deliveryIds : Nat → Text}
    (h : db.applyRecoveryManifest A f deliveryIds = .ok db') :
    db' = db ∨ ∃ recipients, db.recoveryRecipientsFromManifest A f = .ok recipients ∧
      db.replayManifest A f (recipients.mapIdx fun i r => (deliveryIds i, r)) = .ok db' := by
  unfold applyRecoveryManifest at h
  split at h
  · cases h
    exact .inl rfl
  · split at h
    · cases h
    · rename_i recipients hrecipients
      exact .inr ⟨recipients, hrecipients, h⟩

theorem applyRecoveryManifest_recovered (hA : A.Lawful) (hdb : db.IdsIssued) {f : RecoveryManifest}
    {deliveryIds : Nat → Text} (h : db.applyRecoveryManifest A f deliveryIds = .ok db') :
    db.Recovered db' := by
  obtain rfl | ⟨recipients, -, hreplay⟩ := applyRecoveryManifest_ok h
  · exact .refl hdb
  · exact (replayManifest_spec hA hdb hreplay).2.1

/-- The receipts of a manifest that is replayed. -/
theorem applyRecoveryManifest_receipts (hA : A.Lawful) (hdb : db.IdsIssued) {f : RecoveryManifest}
    {receipts : List RecoveryRecipient} {deliveryIds : Nat → Text}
    (hf : f.recipients = .receipts receipts)
    (h : db.applyRecoveryManifest A f deliveryIds = .ok db') :
    (db' = db ∨ ∀ r ∈ receipts, ¬db.DomainRetired r.domainId r.rootDomainAscii) ∧
      OwnersFrom (fun id => ∃ r ∈ receipts, RoutedDuring A db db' r id) db db' := by
  obtain rfl | ⟨recipients, hrecipients, hreplay⟩ := applyRecoveryManifest_ok h
  · exact ⟨.inl rfl, .refl _ db'⟩
  · have hsame : recipients = receipts := by
      unfold recoveryRecipientsFromManifest at hrecipients
      rw [hf] at hrecipients
      dsimp only at hrecipients
      split at hrecipients
      · cases hrecipients
      · exact (Except.ok.inj hrecipients).symm
    subst hsame
    obtain ⟨hretired, -, howners⟩ := replayManifest_spec hA hdb hreplay
    constructor
    · right
      intro r hr
      obtain ⟨i, hi, rfl⟩ := List.mem_iff_getElem.mp hr
      exact hretired _ (List.mem_mapIdx.mpr ⟨i, hi, rfl⟩)
    · refine howners.mono ?_
      rintro id ⟨x, hx, hrouted⟩
      obtain ⟨i, hi, rfl⟩ := List.mem_mapIdx.mp hx
      exact ⟨_, List.getElem_mem hi, hrouted⟩

/-! ## Histories -/

theorem recoverDomainSnapshot_recovered {snapshot : DomainSnapshot} (hdb : db.IdsIssued)
    (h : db.recoverDomainSnapshot snapshot = .ok db') :
    ¬db.DomainRetired snapshot.domainId snapshot.rootDomainAscii ∧ db.Recovered db' ∧
      db'.mailboxes = db.mailboxes := by
  obtain ⟨⟨id, db₁⟩, hrecord, rfl⟩ := Except.map_ok_iff.mp h
  exact ensureRecoveryDomainRecord_recovered hdb hrecord

theorem write_idsIssued {E : StoreEnv} (hdb : db.Consistent) (hids : db.IdsIssued) (w : MailWrite) :
    (db.write E w).IdsIssued := by
  unfold write
  split
  · rename_i db' hok
    cases w with
    | store op =>
      by_cases hop : op.WritesDomains
      · cases op with
        | recover f deliveryIds =>
          exact (applyRecoveryManifest_recovered (pyAddressOps_lawful E.py) hids hok).idsIssued
        | createDomain root jobId payload => exact createDomain_idsIssued hids hok
        | updateDomain domainId jobId payload => exact updateDomain_idsIssued hids hok
        | deleteDomain domainId => exact deleteDomain_idsIssued hids hok
        | syncCatchAll enabled publicWeb publicApi retentionDays size =>
          exact syncCatchAllPolicy_idsIssued hids hok
        | _ => exact hop.elim
      · exact (StoreOp.transaction_sameDomains hdb hop hok).idsIssued hids
    | recoverSnapshot snapshot => exact (recoverDomainSnapshot_recovered hids hok).2.1.idsIssued
    | applyParsed id content attachments =>
      exact (applyParsedMessage_sameDomains hok).idsIssued hids
    | parseFailed id error indexedAt =>
      cases hok
      exact (markMessageParseFailed_sameDomains error indexedAt).idsIssued hids
    | _ =>
      cases hok
      exact ⟨hids.domains, hids.tombstones⟩
  · exact hids

theorem writes_idsIssued {E : StoreEnv} (hdb : db.Consistent) (hids : db.IdsIssued)
    (ws : List MailWrite) : (db.writes E ws).IdsIssued := by
  induction ws generalizing db with
  | nil => exact hids
  | cons w ws ih => exact ih (write_consistent hdb w) (write_idsIssued hdb hids w)

/-- The rows of a table that has grown keep their ids. -/
theorem Recovered.kept (hdb' : db'.Consistent) (hrec : db.Recovered db') :
    ∀ d ∈ db.domains, ∀ d' ∈ db'.domains, d'.id = d.id → d' = d :=
  fun _ hd _ hd' hid => hdb'.domain_ids.eq_of_mem hd' (hrec.appended.subset hd) hid

end Db

open Db

/-- Identities that have ended are not revived.  After any history, a snapshot or a manifest with a
    receipt of a retired identity changes nothing, for none of its recipients.  One that is replayed
    leaves every domain with its root, and the mailbox it adds or moves goes to the domain of the
    receipt's root or to the one that has the recipient's address under the active rules. -/
theorem retired_domains_not_revived {E : StoreEnv} (ws : List MailWrite) {db : Db}
    (hdb : db = Db.empty.writes E ws) :
    (∀ snapshot : DomainSnapshot,
      (db.DomainRetired snapshot.domainId snapshot.rootDomainAscii →
        db.write E (.recoverSnapshot snapshot) = db) ∧
      (∀ d ∈ db.domains, ∀ d' ∈ (db.write E (.recoverSnapshot snapshot)).domains,
        d'.id = d.id → d' = d) ∧
      (db.write E (.recoverSnapshot snapshot)).mailboxes = db.mailboxes) ∧
    ∀ (f : RecoveryManifest) (receipts : List RecoveryRecipient) (deliveryIds : Nat → Text),
      f.recipients = .receipts receipts →
      ((∃ r ∈ receipts, db.DomainRetired r.domainId r.rootDomainAscii) →
        db.write E (.store (.recover f deliveryIds)) = db) ∧
      (∀ d ∈ db.domains, ∀ d' ∈ (db.write E (.store (.recover f deliveryIds))).domains,
        d'.id = d.id → d' = d) ∧
      ∀ b' ∈ (db.write E (.store (.recover f deliveryIds))).mailboxes,
        (∃ b ∈ db.mailboxes, b.id = b'.id ∧ b.domainId = b'.domainId) ∨
        ∃ r ∈ receipts, RoutedDuring (pyAddressOps E.py) db
          (db.write E (.store (.recover f deliveryIds))) r b'.domainId := by
  have hcons : db.Consistent := hdb ▸ writes_consistent empty_consistent ws
  have hids : db.IdsIssued := by
    rw [hdb]
    exact writes_idsIssued empty_consistent
      ⟨fun _ hd => absurd hd List.not_mem_nil, fun _ ht => absurd ht List.not_mem_nil⟩ ws
  have hA := pyAddressOps_lawful E.py
  constructor
  · intro snapshot
    have hcons' := write_consistent (E := E) hcons (.recoverSnapshot snapshot)
    rcases write_eq_or E db (.recoverSnapshot snapshot) with hsame | ⟨db', hok, hwrite⟩
    · rw [hsame]
      exact ⟨fun _ => rfl, (Recovered.refl hids).kept hcons, rfl⟩
    · rw [hwrite] at hcons' ⊢
      obtain ⟨hretired, hrec, hmail⟩ := recoverDomainSnapshot_recovered hids hok
      exact ⟨fun h => absurd h hretired, hrec.kept hcons', hmail⟩
  · intro f receipts deliveryIds hf
    have hcons' := write_consistent (E := E) hcons (.store (.recover f deliveryIds))
    rcases write_eq_or E db (.store (.recover f deliveryIds)) with hsame | ⟨db', hok, hwrite⟩
    · rw [hsame]
      exact ⟨fun _ => rfl, (Recovered.refl hids).kept hcons, fun b hb => .inl ⟨b, hb, rfl, rfl⟩⟩
    · rw [hwrite] at hcons' ⊢
      obtain ⟨hcase, howners⟩ := applyRecoveryManifest_receipts hA hids hf hok
      have hrec := applyRecoveryManifest_recovered hA hids hok
      refine ⟨?_, hrec.kept hcons', fun b' hb' => (howners b' hb').symm⟩
      rintro ⟨r, hr, hretired⟩
      rcases hcase with hunchanged | hno
      · exact hunchanged
      · exact absurd hretired (hno r hr)

/-! ## Receipts of a renamed domain, and of a lost database -/

/-- A receipt for one address, with the policy its domain had. -/
def sampleReceipt (domainId : Nat) (root localPart domain : String) : RecoveryRecipient :=
  { rcptTo := localPart.toList ++ '@' :: domain.toList
    domainId := domainId
    domainAscii := domain.toList
    rootDomainAscii := root.toList
    localPartCanonical := localPart.toList
    addressCanonical := localPart.toList ++ '@' :: domain.toList
    domainPolicy := some (Db.defaultPolicy root.toList) }

def sampleManifest (receipts : List RecoveryRecipient) : RecoveryManifest :=
  { messageId := "msg_1".toList
    smtpSessionId := none
    envelopeFrom := none
    receivedAt := 0
    rawPath := rawMessagePath "msg_1".toList 0
    rawSha256 := []
    rawSizeBytes := 10
    recipients := .receipts receipts
    parsed := .pending }

/-- A domain is renamed, and its old root goes to a new one. -/
def renamedAndTaken : List MailWrite :=
  [.store (.createDomain "example.com".toList "j1".toList .unset),
    .store (.updateDomain 1 "j2".toList { DomainPayload.unset with rootDomain := "moved.com".toList }),
    .store (.createDomain "example.com".toList "j3".toList .unset)]

/-- Mail for the former owner of the root is not delivered to the new one. -/
theorem retired_domains_not_revived_renamed :
    (Db.empty.writes .ascii renamedAndTaken).DomainRetired 1 "example.com".toList ∧
      ∀ deliveryIds, (Db.empty.writes .ascii renamedAndTaken).write .ascii (.store (.recover
        (sampleManifest [sampleReceipt 2 "example.com" "b" "example.com",
          sampleReceipt 1 "example.com" "a" "example.com"]) deliveryIds)) =
        Db.empty.writes .ascii renamedAndTaken := by
  have hretired : (Db.empty.writes .ascii renamedAndTaken).DomainRetired 1 "example.com".toList := by
    decide +kernel
  refine ⟨hretired, fun deliveryIds => ?_⟩
  exact ((retired_domains_not_revived renamedAndTaken rfl).2 _ _ deliveryIds rfl).1
    ⟨_, List.mem_cons_of_mem _ List.mem_cons_self, hretired⟩

/-- The database was lost, and the id of a receipt has gone to another root. -/
def recreated : List MailWrite :=
  [.store (.createDomain "mail.example.com".toList "j".toList .unset)]

def lostReceipt : RecoveryRecipient := sampleReceipt 1 "example.com" "a" "mail.example.com"

/-- The domain under the receipt's id has the address now, and gets the mailbox. -/
theorem replay_attaches_current_owner :
    ∃ db', (Db.empty.writes .ascii recreated).applyRecoveryManifest (pyAddressOps StoreEnv.ascii.py)
        (sampleManifest [lostReceipt]) (fun _ => []) = .ok db' ∧
      (∃ b' ∈ db'.mailboxes, (∀ b ∈ (Db.empty.writes .ascii recreated).mailboxes, b.id ≠ b'.id) ∧
        b'.domainId = lostReceipt.domainId) ∧
      ∃ d ∈ db'.domains, d.id = lostReceipt.domainId ∧
        d.rootDomainAscii ≠ lostReceipt.rootDomainAscii := by
  have hrun : ((Db.empty.writes .ascii recreated).applyRecoveryManifest
      (pyAddressOps StoreEnv.ascii.py) (sampleManifest [lostReceipt]) (fun _ => [])).map
        (fun db' => (db'.mailboxes.any fun b => b.domainId = lostReceipt.domainId,
          db'.domains.any fun d => d.id = lostReceipt.domainId &&
            d.rootDomainAscii ≠ lostReceipt.rootDomainAscii)) = .ok (true, true) := by
    decide +kernel
  obtain ⟨db', hok, hrows⟩ := Except.map_ok_iff.mp hrun
  obtain ⟨hmail, hdomain⟩ := Prod.mk.inj hrows
  obtain ⟨b', hb', hid⟩ := List.any_eq_true.mp hmail
  obtain ⟨d, hd, hrow⟩ := List.any_eq_true.mp hdomain
  rw [Bool.and_eq_true, decide_eq_true_iff, decide_eq_true_iff] at hrow
  refine ⟨db', hok, ⟨b', hb', ?_, of_decide_eq_true hid⟩, d, hd, hrow⟩
  exact fun b hb => absurd hb List.not_mem_nil

end RapidInbox
