import RapidInbox.Store.Summary

/-!
# Every operation keeps the summaries exact

The batch writer and the promotions recompute what they merge, and adjust what they touch by one
delivery with the maximum.  Two operations need a condition: `_upsert_mailbox` assigns the time of
the new message, and a retention batch recomputes the mailboxes its snapshot names.
-/

namespace RapidInbox

open Table Relation

variable {db db' : Db} {dirty : Nat → Prop}

/-! ## The batch writer -/

namespace Db

theorem mergeMailboxInto_exact {target : Nat} {source : MailboxRow}
    (hexact : db.ExactExcept fun id => id = target)
    (h : db.mergeMailboxInto target source = .ok db') :
    db'.ExactExcept fun id => id = target := by
  unfold mergeMailboxInto at h
  split at h
  · cases h
    exact hexact
  · refine hexact.step ?_
    intro id hid
    by_cases hs : id = source.id
    · subst hs
      exact .inr (deleteMailbox_exactAt h)
    · refine .inl ⟨hid, ?_⟩
      have hmerge : SummaryFrame db (db.mergeDeliveries columnText source.id target) id :=
        mergeDeliveries_frame hs hid
      have hmetadata : SummaryFrame (db.mergeDeliveries columnText source.id target)
          ((db.mergeDeliveries columnText source.id target).updateMailbox target
            fun b => b.mergeMetadata source) id := updateMailbox_frame (fun _ => rfl) hid
      exact (hmerge.trans hmetadata).trans (deleteMailbox_frame h hs)

theorem refreshSummary_exact {id : Nat} (hexact : db.ExactExcept fun x => x = id) :
    (db.refreshSummary id).ExactExcept fun _ => False := by
  refine hexact.step ?_
  intro x _
  by_cases hx : x = id
  · subst hx
    exact .inr (withSummary_exactAt (fun _ => rfl) fun _ => rfl)
  · exact .inl ⟨hx, updateMailbox_frame (fun _ => rfl) hx⟩

theorem ExactExcept.weaken {dirty' : Nat → Prop} (h : db.ExactExcept dirty)
    (hle : ∀ id, dirty id → dirty' id) : db.ExactExcept dirty' :=
  fun id hid => h id fun hd => hid (hle id hd)

/-- Inserting the delivery a mailbox waits for. -/
theorem insertDelivery_exact {did messageId rcptTo : Text} {mailboxId generation : Nat}
    {t : Timestamp} {expiresAt : Option Timestamp}
    (hexact : db.ExactExcept fun id => id = mailboxId)
    (hpending : db.hasIncompleteJob mailboxId = false → db.PendingAt t mailboxId)
    (h : db.insertDelivery did messageId mailboxId rcptTo t expiresAt generation = .ok db') :
    db'.ExactExcept fun _ => False := by
  obtain ⟨-, -, rfl⟩ := insertDelivery_ok h
  intro id _ hjob
  by_cases hid : id = mailboxId
  · subst hid
    exact addDelivery_exactAt (hpending hjob)
  · exact (addDelivery_frame hid).exactAt (hexact id hid hjob)

end Db

namespace BatchWriter

open Db

variable {A : AddressOps}

/-- The state of the opened mailbox: touched and waiting for its delivery, or as it was. -/
structure OpenedExact (opened : Db) (receivedAt : Timestamp) (plan : MailboxPlan)
    (mailbox : OpenedMailbox) : Prop where
  others : opened.ExactExcept fun id => id = mailbox.id
  touched : mailbox.touched = true → mailbox.rehomed = false ∧ plan.sources = [] ∧
    (opened.hasIncompleteJob mailbox.id = false → opened.PendingAt receivedAt mailbox.id)
  untouched : mailbox.touched = false →
    opened.hasIncompleteJob mailbox.id = false → opened.ExactAt mailbox.id

theorem openMailbox_exact (hdb : db.Consistent) (hexact : db.ExactExcept fun _ => False)
    {receivedAt : Timestamp} {m : DomainMatch} {plan : MailboxPlan} {mailbox : OpenedMailbox}
    (hplan : plan.target = none → plan.sources = [])
    (h : openMailbox db receivedAt m plan = .ok (mailbox, db')) :
    OpenedExact db' receivedAt plan mailbox := by
  unfold openMailbox at h
  split at h
  · rename_i htarget
    split at h
    · cases h
    · rename_i id db₁ hins
      cases h
      refine ⟨?_, fun _ => ⟨rfl, hplan htarget, fun _ => insertMailbox_pendingAt hdb hins⟩,
        fun h => by cases h⟩
      exact hexact.step fun x hx => .inl ⟨fun h => h, insertMailbox_frame hins hx⟩
  · rename_i b htarget
    dsimp only at h
    split at h
    · split at h
      · cases h
      · rename_i db₁ hupd
        have hexact₁ : db₁.ExactExcept fun _ => False :=
          hexact.frame fun id _ => updateMailboxIdentity_frame hupd id
        split at h
        · rename_i hsame
          cases h
          have hsources : plan.sources = [] := by
            rw [Bool.and_eq_true, List.isEmpty_iff] at hsame
            exact hsame.2
          refine ⟨?_, ?_, fun h => by cases h⟩
          · exact hexact₁.step fun x hx =>
              .inl ⟨fun h => h, updateMailbox_frame (fun _ => rfl) hx⟩
          · exact fun _ => ⟨rfl, hsources, fun hjob =>
              touch_pendingAt (hexact₁ b.id (fun h => h) hjob)⟩
        · cases h
          exact ⟨hexact₁.weaken fun _ h => h.elim, (fun h => by cases h),
            fun _ hjob => hexact₁ b.id (fun h => h) hjob⟩
    · cases h
      exact ⟨hexact.weaken fun _ h => h.elim, (fun h => by cases h),
        fun _ hjob => hexact b.id (fun h => h) hjob⟩

theorem mergeSources_exact {target : Nat} {sources : List MailboxRow}
    (hexact : db.ExactExcept fun id => id = target)
    (h : mergeSources db target sources = .ok db') : db'.ExactExcept fun id => id = target := by
  have hstep (s : Db) (hs : s.ExactExcept fun id => id = target) (source : MailboxRow)
      (_ : source ∈ sources) (s' : Db) (hmerge : s.mergeMailboxInto target source = .ok s') :
      s'.ExactExcept fun id => id = target := mergeMailboxInto_exact hs hmerge
  exact Transition.foldlM_invariant hstep hexact h

theorem storeRecipient_exact (hdb : db.Consistent) (hexact : db.ExactExcept fun _ => False)
    {job : MailJob} {recipient : RecipientDelivery} {m : DomainMatch}
    (h : storeRecipient A job recipient m db = .ok db') : db'.ExactExcept fun _ => False := by
  unfold storeRecipient at h
  dsimp only at h
  split at h
  · cases h
  · rename_i mailbox opened hopen
    have hopened := openMailbox_exact hdb hexact (planMailbox_spec A db recipient m).2 hopen
    split at h
    · cases h
    · rename_i merged hmerge
      cases htouched : mailbox.touched with
      | true =>
        obtain ⟨hrehomed, hsources, hpending⟩ := hopened.touched htouched
        rw [hsources] at hmerge
        cases hmerge
        simp only [htouched, hrehomed, hsources, List.isEmpty_nil, Bool.not_true, Bool.or_false,
          Bool.false_eq_true, if_false, if_true] at h
        exact insertDelivery_exact hopened.others hpending h
      | false =>
        have hrefreshed : (if (mailbox.rehomed || !(planMailbox A db recipient m).sources.isEmpty) =
            true then merged.refreshSummary mailbox.id else merged).ExactExcept fun _ => False := by
          split
          · exact refreshSummary_exact (mergeSources_exact hopened.others hmerge)
          · rename_i hplain
            rw [Bool.or_eq_true, not_or] at hplain
            have hsources : (planMailbox A db recipient m).sources = [] := by
              simpa using hplain.2
            rw [hsources] at hmerge
            cases hmerge
            intro id _ hjob
            by_cases hid : id = mailbox.id
            · subst hid
              exact hopened.untouched htouched hjob
            · exact hopened.others id hid hjob
        simp only [htouched, Bool.false_eq_true, if_false] at h
        refine insertDelivery_exact ?_ ?_ h
        · exact hrefreshed.step fun x hx =>
            .inl ⟨fun h => h, updateMailbox_frame (fun _ => rfl) hx⟩
        · exact fun hjob => touch_pendingAt (hrefreshed mailbox.id (fun h => h) hjob)

theorem storeRecipients_exact {job : MailJob} {recipients : List RecipientDelivery}
    {delivered : List (Nat × Text)} {n : Nat} (hdb : db.Consistent)
    (hexact : db.ExactExcept fun _ => False)
    (h : storeRecipients A job recipients delivered db = .ok (n, db')) :
    db'.ExactExcept fun _ => False := by
  induction recipients generalizing delivered db n with
  | nil =>
    cases h
    exact hexact
  | cons r rest ih =>
    unfold storeRecipients at h
    split at h
    · cases h
    · rename_i m hm
      split at h
      · exact ih hdb hexact h
      · split at h
        · cases h
        · rename_i db₁ hstore
          split at h
          · cases h
          · rename_i n₁ db₂ hloop
            cases h
            have hedits : Edits (idRules (fun _ => True) fun _ => True) db db₁ :=
              storeRecipient_edits hdb (fun _ _ _ _ => trivial) trivial hstore
            exact ih (Edits.consistent hdb hedits) (storeRecipient_exact hdb hexact hstore) hloop

theorem storeJob_exact {job : MailJob} {result : ParseResult} (hdb : db.Consistent)
    (hexact : db.ExactExcept fun _ => False) (h : storeJob A db job result = .ok db') :
    db'.ExactExcept fun _ => False := by
  obtain ⟨-, rfl⟩ | ⟨-, db₁, db₂, db₃, n, hmsg, hatt, hloop, rfl⟩ := storeJob_ok h
  · exact hexact
  · have hedits₁ : Edits (idRules (fun _ => True) fun _ => True) db db₁ :=
      (Edits.single (upsertSession_edit job)).tail (.addMessage hmsg trivial)
    have hedits₂ : Edits (idRules (fun _ => True) fun _ => True) db₁ db₂ :=
      (insertAttachments_edits hatt).1
    have hsame := ((upsertSession_sameMail db job).trans (insertMessage_sameMail hmsg)).trans
      (insertAttachments_sameMail hatt)
    have hexact₃ := storeRecipients_exact (Edits.consistent hdb (hedits₁.trans hedits₂))
      (hexact.frame fun id _ => hsame.summaryFrame id) hloop
    exact hexact₃.frame fun id _ => (upsertMetric_sameMail _ _ _ _ _).summaryFrame id

theorem writeSqliteRecords_exact {jobs : List (MailJob × ParseResult)} (hdb : db.Consistent)
    (hexact : db.ExactExcept fun _ => False) (h : writeSqliteRecords A db jobs = .ok db') :
    db'.ExactExcept fun _ => False := by
  induction jobs generalizing db with
  | nil =>
    cases h
    exact hexact
  | cons job rest ih =>
    unfold writeSqliteRecords at h
    split at h
    · cases h
    · rename_i db₁ hjob
      have hedits := (storeJob_edits hdb rfl (fun _ _ => id) (fun _ => True) trivial
        (fun _ _ => trivial) hjob).1
      exact ih (Edits.consistent hdb hedits) (storeJob_exact hdb hexact hjob) h

end BatchWriter

/-! ## Promotions -/

namespace Db

theorem refreshRehomed_exact {id : Nat} (hexact : db.ExactExcept fun x => dirty x ∨ x = id)
    (first last : Timestamp) :
    (db.refreshRehomedMailboxSummary id first last).ExactExcept dirty := by
  refine hexact.step ?_
  intro x hx
  by_cases hid : x = id
  · subst hid
    exact .inr (withSummary_exactAt (fun _ => rfl) fun _ => rfl)
  · exact .inl ⟨not_or.mpr ⟨hx, hid⟩, updateMailbox_frame (fun _ => rfl) hid⟩

theorem promoteInPlace_exact {source : MailboxRow} {m : DomainMatch} {result : PromoteResult}
    (hexact : db.ExactExcept dirty) (h : db.promoteInPlace source m = .ok (result, db')) :
    db'.ExactExcept dirty := by
  unfold promoteInPlace at h
  split at h
  · cases h
  · rename_i db₁ hupd
    cases h
    have hexact₁ : db₁.ExactExcept dirty :=
      hexact.frame fun id _ => updateMailboxIdentity_frame hupd id
    exact refreshRehomed_exact (hexact₁.weaken fun _ => .inl) _ _

theorem promoteByMerge_exact {source target : MailboxRow} {targetRoot : Text} {m : DomainMatch}
    {result : PromoteResult} (hexact : db.ExactExcept dirty)
    (h : db.promoteByMerge source target targetRoot m = .ok (result, db')) :
    db'.ExactExcept dirty := by
  unfold promoteByMerge at h
  split at h
  · cases h
  · rename_i promoted hpromoted
    have hexact₁ : promoted.ExactExcept dirty := by
      unfold promoteTarget at hpromoted
      split at hpromoted
      · exact hexact.frame fun id _ => updateMailboxIdentity_frame hpromoted id
      · cases hpromoted
        exact hexact
    dsimp only at h
    split at h
    · cases h
    · rename_i db₁ hdel
      cases h
      have hflagged : (promoted.updateMailbox target.id fun b => b.mergeFlags source).ExactExcept
          dirty := by
        refine hexact₁.frame fun id _ => updateMailbox_frame_all ?_ ?_ ?_ id
        · exact fun _ => rfl
        · exact fun _ => rfl
        · exact fun _ => rfl
      have hmerged : ((promoted.updateMailbox target.id fun b => b.mergeFlags
          source).mergeDeliveries id source.id target.id).ExactExcept
            fun x => (dirty x ∨ x = source.id) ∨ x = target.id := by
        refine hflagged.step ?_
        intro id hid
        rw [not_or, not_or] at hid
        exact .inl ⟨hid.1.1, mergeDeliveries_frame hid.1.2 hid.2⟩
      have hrefreshed := refreshRehomed_exact hmerged (min source.firstSeenAt target.firstSeenAt)
        (max source.lastSeenAt target.lastSeenAt)
      refine hrefreshed.step ?_
      intro id hid
      by_cases hs : id = source.id
      · subst hs
        exact .inr (deleteMailbox_exactAt hdel)
      · exact .inl ⟨not_or.mpr ⟨hid, hs⟩, deleteMailbox_frame hdel hs⟩

theorem promoteMailboxOwnership_exact {id : Nat} {m : DomainMatch} {result : PromoteResult}
    (hexact : db.ExactExcept dirty) (h : db.promoteMailboxOwnership id m = .ok (result, db')) :
    db'.ExactExcept dirty := by
  unfold promoteMailboxOwnership at h
  split at h
  · cases h
    exact hexact
  · split at h
    · cases h
      exact hexact
    · split at h
      · cases h
        exact hexact
      · split at h
        · exact promoteInPlace_exact hexact h
        · split at h
          · exact promoteInPlace_exact hexact h
          · split at h
            · exact promoteInPlace_exact hexact h
            · exact promoteByMerge_exact hexact h

theorem findOrRehomeMailbox_exact {m : DomainMatch} {found : Option Nat}
    (hexact : db.ExactExcept dirty) (h : db.findOrRehomeMailbox m = .ok (found, db')) :
    db'.ExactExcept dirty := by
  unfold findOrRehomeMailbox at h
  split at h
  · cases h
    exact hexact
  · split at h
    · cases h
    · rename_i hpromote
      cases h
      exact promoteMailboxOwnership_exact hexact hpromote

theorem rehomePage_exact {A : AddressOps} {matcher : DomainMatcher} {candidate : Option Text}
    {rows : List MailboxRow} {totals totals' : RehomeTotals} (hexact : db.ExactExcept dirty)
    (h : rehomePage A matcher candidate rows totals db = .ok (totals', db')) :
    db'.ExactExcept dirty := by
  induction rows generalizing db totals with
  | nil =>
    cases h
    exact hexact
  | cons row rows ih =>
    unfold rehomePage at h
    split at h
    · cases h
    · rename_i result db₁ hrow
      refine ih ?_ h
      obtain rfl | ⟨m, -, hpromote⟩ := rehomeRow_ok hrow
      · exact hexact
      · exact promoteMailboxOwnership_exact hexact hpromote

theorem updateRehomeJob_sameMail (db : Db) (jobId : Text) (f : RehomeJob → RehomeJob) :
    db.SameMail (db.updateRehomeJob jobId f) := ⟨rfl, rfl, rfl, rfl, rfl, rfl, rfl⟩

theorem processRehomeJobBatch_exact {A : AddressOps} {jobId : Text} {batchSize : Nat}
    (hexact : db.ExactExcept dirty) (h : db.processRehomeJobBatch A jobId batchSize = .ok db') :
    db'.ExactExcept dirty := by
  obtain rfl | ⟨job, matcher, totals, db₁, -, hpage, rfl⟩ := processRehomeJobBatch_ok h
  · exact hexact
  · exact (rehomePage_exact hexact hpage).frame fun id _ =>
      (updateRehomeJob_sameMail _ _ _).summaryFrame id

/-! ## Accepted messages -/

/-- No active delivery of the mailbox with an address is later than `t`. -/
def NoLaterThan (db : Db) (address : Text) (t : Timestamp) : Prop :=
  ∀ b ∈ db.mailboxes, b.addressCanonical = address → ∀ d ∈ db.activeIn b.id, d.deliveredAt ≤ t

/-- The ids of the mailboxes with their addresses. -/
def addresses (db : Db) : List (Nat × Text) := db.mailboxes.map fun b => (b.id, b.addressCanonical)

theorem mem_addresses {id : Nat} {address : Text} :
    (id, address) ∈ db.addresses ↔ ∃ b ∈ db.mailboxes, b.id = id ∧ b.addressCanonical = address := by
  simp [addresses, List.mem_map]

/-- A promotion to the address a mailbox has keeps all addresses. -/
theorem promoteInPlace_addresses (hdb : db.Consistent) {source : MailboxRow}
    (hsource : source ∈ db.mailboxes) {m : DomainMatch} (haddr : source.addressCanonical = m.addressCanonical)
    {result : PromoteResult} (h : db.promoteInPlace source m = .ok (result, db')) :
    db'.deliveries = db.deliveries ∧ db'.addresses = db.addresses ∧ result.mailboxId = source.id := by
  unfold promoteInPlace at h
  split at h
  · cases h
  · rename_i db₂ hupd
    cases h
    obtain ⟨-, -, rfl⟩ := updateMailboxIdentity_ok hupd
    refine ⟨rfl, ?_, rfl⟩
    have hrefreshed : (refreshRehomedMailboxSummary (db.updateMailbox source.id fun b => b.withIdentity m)
        source.id source.firstSeenAt source.lastSeenAt).addresses =
        (db.updateMailbox source.id fun b => b.withIdentity m).addresses :=
      map_updateWhere (f := fun b : MailboxRow => { b.withSummary _ with
        firstSeenAt := min b.firstSeenAt source.firstSeenAt
        lastSeenAt := max b.lastSeenAt source.lastSeenAt }) (fun _ => rfl) _
    rw [hrefreshed]
    show ((updateWhere _ _ db.mailboxes).map _) = db.mailboxes.map _
    rw [updateWhere, List.map_map]
    apply List.map_congr_left
    intro b hb
    by_cases hid : b.id = source.id
    · rw [hdb.mailbox_ids.eq_of_mem hb hsource hid]
      simp [MailboxRow.withIdentity, haddr]
    · simp [hid]

/-- A mailbox that is found by its address is promoted in place: deliveries, ids and addresses
    stay. -/
theorem findOrRehomeMailbox_ok (hdb : db.Consistent) {m : DomainMatch} {found : Option Nat}
    (h : db.findOrRehomeMailbox m = .ok (found, db')) :
    db'.deliveries = db.deliveries ∧ db'.addresses = db.addresses ∧
      (found = none ∧ db.mailboxAt? m.addressCanonical = none ∧ db' = db ∨
        ∃ b ∈ db.mailboxes, b.addressCanonical = m.addressCanonical ∧ found = some b.id) := by
  unfold findOrRehomeMailbox at h
  split at h
  · rename_i hnone
    cases h
    exact ⟨rfl, rfl, .inl ⟨rfl, hnone, rfl⟩⟩
  · rename_i existing hexisting
    obtain ⟨hmem, haddr⟩ := find?_key hexisting
    split at h
    · cases h
    · rename_i result db₁ hpromote
      obtain ⟨rfl, rfl⟩ := Prod.mk.inj (Except.ok.inj h)
      have hkeep : db₁.deliveries = db.deliveries ∧ db₁.addresses = db.addresses ∧
          result.mailboxId = existing.id := by
        unfold promoteMailboxOwnership at hpromote
        rw [mailbox?, hdb.mailbox_ids.find?_eq_some hmem rfl] at hpromote
        dsimp only at hpromote
        split at hpromote
        · rename_i hroot
          obtain ⟨d, hd, hid⟩ := hdb.mailbox_domains existing hmem
          rw [ownerRoot?, domain?, hdb.domain_ids.find?_eq_some hd hid] at hroot
          cases hroot
        · split at hpromote
          · cases hpromote
            exact ⟨rfl, rfl, rfl⟩
          · rw [hexisting] at hpromote
            dsimp only at hpromote
            split at hpromote
            · exact promoteInPlace_addresses hdb hmem haddr hpromote
            · rw [if_pos rfl] at hpromote
              exact promoteInPlace_addresses hdb hmem haddr hpromote
      exact ⟨hkeep.1, hkeep.2.1, .inr ⟨existing, hmem, haddr, by rw [hkeep.2.2]⟩⟩

theorem acceptDelivery_exact (hdb : db.Consistent) {request : AcceptRequest} {r : AcceptRecipient}
    {m : DomainMatch} {retentionDays : Option Int} (hexact : db.ExactExcept fun _ => False)
    (hle : db.NoLaterThan m.addressCanonical request.receivedAt)
    (h : db.acceptDelivery request r m retentionDays = .ok db') :
    (db'.ExactExcept fun _ => False) ∧
      ∀ address, db.NoLaterThan address request.receivedAt →
        db'.NoLaterThan address request.receivedAt := by
  unfold acceptDelivery at h
  split at h
  · cases h
  · rename_i mailboxId db₁ hupsert
    split at h
    · cases h
    · have hinsert := h
      obtain ⟨-, -, rfl⟩ := insertDelivery_ok h
      -- the mailbox waits for the delivery, and the other mailboxes are as they were
      have hupserted : (db₁.ExactExcept fun id => id = mailboxId) ∧
          (db₁.hasIncompleteJob mailboxId = false → db₁.PendingAt request.receivedAt mailboxId) ∧
          db₁.deliveries = db.deliveries ∧
          ∀ b' ∈ db₁.mailboxes, (∃ b ∈ db.mailboxes, b.id = b'.id ∧
            b.addressCanonical = b'.addressCanonical) ∨ db.activeIn b'.id = [] := by
        unfold upsertMailbox at hupsert
        split at hupsert
        · cases hupsert
        · rename_i id db₂ hfind
          cases hupsert
          have hexact₂ := findOrRehomeMailbox_exact hexact hfind
          obtain ⟨hdel, hrows, hcase⟩ := findOrRehomeMailbox_ok hdb hfind
          obtain ⟨b, hb, haddr, hid⟩ := hcase.resolve_left fun ⟨hnone, _⟩ => by cases hnone
          cases hid
          refine ⟨?_, ?_, hdel, ?_⟩
          · exact hexact₂.step fun x hx =>
              .inl ⟨fun h => h, updateMailbox_frame (fun _ => rfl) hx⟩
          · intro hjob
            refine assignLatest_pendingAt (hexact₂ b.id (fun h => h) hjob) ?_
            unfold activeIn
            rw [hdel]
            exact hle b hb haddr
          · intro b' hb'
            obtain ⟨b₂, hb₂, rfl⟩ := mem_updateWhere.mp hb'
            have hold : (b₂.id, b₂.addressCanonical) ∈ db₂.addresses := List.mem_map_of_mem hb₂
            rw [hrows] at hold
            refine .inl ?_
            split
            · exact mem_addresses.mp hold
            · exact mem_addresses.mp hold
        · rename_i db₂ hfind
          obtain ⟨-, -, hcase⟩ := findOrRehomeMailbox_ok hdb hfind
          obtain ⟨-, -, rfl⟩ := hcase.resolve_right fun ⟨_, _, _, hsome⟩ => by cases hsome
          refine ⟨?_, fun _ => insertMailbox_pendingAt hdb hupsert, ?_, ?_⟩
          · exact hexact.step fun x hx => .inl ⟨fun h => h, insertMailbox_frame hupsert hx⟩
          · obtain ⟨-, -, -, rfl⟩ := insertMailbox_ok hupsert
            rfl
          · obtain ⟨-, -, rfl, rfl⟩ := insertMailbox_ok hupsert
            intro b' hb'
            rcases List.mem_append.mp hb' with hb' | hb'
            · exact .inl ⟨b', hb', rfl, rfl⟩
            · rw [List.mem_singleton.mp hb']
              exact .inr (activeIn_fresh hdb (Nat.lt_succ_self _))
      obtain ⟨hexact₁, hpending, hdel, hrows⟩ := hupserted
      refine ⟨insertDelivery_exact hexact₁ hpending hinsert, ?_⟩
      intro address hno b' hb' haddr d hd
      have hold (hmem : d ∈ db.activeIn b'.id) : d.deliveredAt ≤ request.receivedAt := by
        rcases hrows b' hb' with ⟨b, hb, hid, haddr'⟩ | hnil
        · exact hno b hb (haddr'.trans haddr) d (hid ▸ hmem)
        · rw [hnil] at hmem
          cases hmem
      obtain ⟨hmem, hactive⟩ := List.mem_filter.mp hd
      rcases List.mem_append.mp hmem with hmem | hmem
      · rw [hdel] at hmem
        exact hold (List.mem_filter.mpr ⟨hmem, hactive⟩)
      · rw [List.mem_singleton.mp hmem]

theorem acceptDeliveries_exact {request : AcceptRequest}
    {found : List (AcceptRecipient × DomainMatch × Option Int)} {delivered : List (Nat × Text)}
    {n : Nat} (hdb : db.Consistent) (hexact : db.ExactExcept fun _ => False)
    (hle : ∀ x ∈ found, db.NoLaterThan x.2.1.addressCanonical request.receivedAt)
    (h : acceptDeliveries request found delivered db = .ok (n, db')) :
    db'.ExactExcept fun _ => False := by
  induction found generalizing delivered db n with
  | nil =>
    cases h
    exact hexact
  | cons x rest ih =>
    obtain ⟨r, m, retentionDays⟩ := x
    unfold acceptDeliveries at h
    have hrest := fun x hx => hle x (List.mem_cons_of_mem _ hx)
    split at h
    · exact ih hdb hexact hrest h
    · split at h
      · cases h
      · rename_i db₁ hone
        split at h
        · cases h
        · rename_i n₁ db₂ hloop
          cases h
          obtain ⟨hexact₁, hcarry⟩ := acceptDelivery_exact hdb hexact (hle _ List.mem_cons_self) hone
          have hedits : Edits (idRules (fun _ => True) fun _ => True) db db₁ :=
            (acceptDelivery_edits (fun _ _ _ _ _ => trivial) trivial hone).1
          exact ih (Edits.consistent hdb hedits) hexact₁ (fun x hx => hcarry _ (hrest x hx)) hloop

theorem acceptSession_sameMail (db : Db) (request : AcceptRequest) :
    db.SameMail (db.acceptSession request) := by
  obtain ⟨sessions, hsession⟩ := acceptSession_eq db request
  rw [hsession]
  exact ⟨rfl, rfl, rfl, rfl, rfl, rfl, rfl⟩

/-- The mailboxes of the current matches have no active delivery after the new message. -/
def ArrivesLast (A : AddressOps) (db : Db) (request : AcceptRequest) : Prop :=
  ∀ r ∈ request.recipients, ∀ m, db.matchActiveDomain A r.rcptTo = .ok (some m) →
    db.NoLaterThan m.addressCanonical request.receivedAt

theorem acceptMessage_exact {A : AddressOps} {request : AcceptRequest} (hdb : db.Consistent)
    (hexact : db.ExactExcept fun _ => False) (hlast : db.ArrivesLast A request)
    (h : db.acceptMessage A request = .ok db') : db'.ExactExcept fun _ => False := by
  obtain ⟨found, db₁, db₂, row, n, hfound, -, -, hmsg, hloop, rfl⟩ := acceptMessage_ok h
  have hsame := (acceptSession_sameMail db request).trans (insertMessage_sameMail hmsg)
  have hedit : Edit (idRules (fun _ => True) fun _ => True) db (db.acceptSession request) := by
    obtain ⟨sessions, hsession⟩ := acceptSession_eq db request
    rw [hsession]
    exact .bookkeeping
  have hdb₁ := Edits.consistent hdb ((Edits.single hedit).tail (.addMessage hmsg trivial))
  have hle (x : AcceptRecipient × DomainMatch × Option Int) (hx : x ∈ found) :
      db₁.NoLaterThan x.2.1.addressCanonical request.receivedAt := by
    obtain ⟨hr, hm⟩ := mem_transactionMatches hfound hx
    unfold NoLaterThan activeIn
    rw [hsame.mailboxes, hsame.deliveries]
    exact hlast x.1 hr x.2.1 hm
  have hexact₂ := acceptDeliveries_exact hdb₁ (hexact.frame fun id _ => hsame.summaryFrame id) hle
    hloop
  exact hexact₂.frame fun id _ => (upsertMetric_sameMail _ _ _ _ _).summaryFrame id

end Db
end RapidInbox
