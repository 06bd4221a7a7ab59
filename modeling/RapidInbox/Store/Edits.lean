import RapidInbox.Store.Consistency

/-!
# Every operation is a chain of edits

One lemma for each function of the model, down to the statements.  What an edit requires of its
state (a merge target that exists, a delivery stamped with the current generation) is carried along
the chain.
-/

namespace RapidInbox

open Table Relation

variable {rules : EditRules}

theorem Edits.single {db db' : Db} (h : Edit rules db db') : Edits rules db db' := ReflTransGen.single h

/-- Rules that allow at least as much. -/
structure EditRules.Le (rules rules' : EditRules) : Prop where
  rename : ∀ {db b m}, rules.rename db b m → rules'.rename db b m
  redomain : ∀ {db domains}, rules.redomain db domains → rules'.redomain db domains
  newJob : ∀ {id}, rules.newJob id → rules'.newJob id
  newMail : ∀ {row}, rules.newMail row → rules'.newMail row

theorem Edit.mono {rules' : EditRules} {db db' : Db} (hle : rules.Le rules')
    (h : Edit rules db db') : Edit rules' db db' := by
  cases h with
  | addMailbox hins => exact .addMailbox hins
  | setIdentity hb hown hupd => exact .setIdentity hb (hle.rename hown) hupd
  | setColumns hf => exact .setColumns hf
  | mergeDeliveries hne ht => exact .mergeDeliveries hne ht
  | dropMailboxes hp => exact .dropMailboxes hp
  | addDelivery hnew hc hp => exact .addDelivery (hle.newMail hnew) hc hp
  | softDelete => exact .softDelete
  | dropDeliveries => exact .dropDeliveries
  | dropMessages => exact .dropMessages
  | createJob hrule hjob => exact .createJob (hle.newJob hrule) hjob
  | processJob hjob => exact .processJob hjob
  | failJob => exact .failJob
  | setDomains hids hroots hmail hrule => exact .setDomains hids hroots hmail (hle.redomain hrule)
  | addMessage hmsg hnew => exact .addMessage hmsg (hle.newMail hnew)
  | addAttachment hatt => exact .addAttachment hatt
  | bookkeeping => exact .bookkeeping

theorem Edits.mono {rules' : EditRules} {db db' : Db} (hle : rules.Le rules')
    (h : Edits rules db db') : Edits rules' db db' := by
  induction h with
  | refl => exact .refl
  | tail _ hedit ih => exact ih.tail (hedit.mono hle)

/-- No rule on names and domains; jobs and mail are created under the given ids. -/
def idRules (newJob : Text → Prop) (newMail : MailInsert → Prop) : EditRules :=
  ⟨fun _ _ _ => True, fun _ _ => True, newJob, newMail⟩

theorem EditRules.le_idRules (h : ∀ id, ¬rules.newJob id) (newJob : Text → Prop)
    {newMail : MailInsert → Prop} (hnew : ∀ row, rules.newMail row → newMail row) :
    rules.Le (idRules newJob newMail) :=
  ⟨fun _ => trivial, fun _ => trivial, fun hid => absurd hid (h _), fun hid => hnew _ hid⟩

/-! ## A mailbox and its generation -/

/-- A mailbox is there, with a given generation. -/
def Db.HasMailbox (db : Db) (id generation : Nat) : Prop :=
  ∃ b ∈ db.mailboxes, b.id = id ∧ b.bulkDeleteGeneration = generation

namespace Db.HasMailbox

variable {db : Db} {id generation : Nat}

theorem exists_mailbox (h : db.HasMailbox id generation) : ∃ b ∈ db.mailboxes, b.id = id :=
  let ⟨b, hb, hid, _⟩ := h
  ⟨b, hb, hid⟩

theorem generationOf (h : db.HasMailbox id generation) (hdb : db.Consistent) :
    db.generationOf id = generation := by
  obtain ⟨b, hb, hid, hgen⟩ := h
  rw [Db.generationOf, mailbox?, hdb.mailbox_ids.find?_eq_some hb hid]
  exact hgen

theorem updateMailbox (h : db.HasMailbox id generation) {id' : Nat} {f : MailboxRow → MailboxRow}
    (hid : ∀ b, (f b).id = b.id) (hgen : ∀ b, (f b).bulkDeleteGeneration = b.bulkDeleteGeneration) :
    (db.updateMailbox id' f).HasMailbox id generation := by
  obtain ⟨b, hb, hbid, hbgen⟩ := h
  refine ⟨_, mem_updateWhere.mpr ⟨b, hb, rfl⟩, ?_⟩
  split
  · exact ⟨(hid b).trans hbid, (hgen b).trans hbgen⟩
  · exact ⟨hbid, hbgen⟩

theorem deleteMailbox (h : db.HasMailbox id generation) {id' : Nat} {db' : Db} (hne : id ≠ id')
    (hdel : db.deleteMailbox id' = .ok db') : db'.HasMailbox id generation := by
  obtain ⟨b, hb, hbid, hbgen⟩ := h
  obtain ⟨-, rfl⟩ := deleteMailbox_ok hdel
  exact ⟨b, List.mem_filter.mpr ⟨hb, by simpa [hbid] using hne⟩, hbid, hbgen⟩

theorem updateMailboxIdentity (h : db.HasMailbox id generation) {id' : Nat} {m : DomainMatch}
    {db' : Db} (hupd : db.updateMailboxIdentity id' m = .ok db') : db'.HasMailbox id generation := by
  obtain ⟨-, -, rfl⟩ := updateMailboxIdentity_ok hupd
  exact h.updateMailbox (fun _ => rfl) fun _ => rfl

end Db.HasMailbox

/-! ## The batch writer -/

namespace Db

variable {db db' : Db}

theorem touch_keeps (receivedAt : Timestamp) : KeepsIdentity fun b => b.touch receivedAt :=
  ⟨fun _ => rfl, fun _ => rfl, fun _ => rfl, fun _ => rfl⟩

theorem withSummary_keeps (active : List DeliveryRow) : KeepsIdentity fun b => b.withSummary active :=
  ⟨fun _ => rfl, fun _ => rfl, fun _ => rfl, fun _ => rfl⟩

theorem mergeMetadata_keeps (source : MailboxRow) : KeepsIdentity fun b => b.mergeMetadata source :=
  ⟨fun _ => rfl, fun _ => rfl, fun _ => rfl, fun _ => rfl⟩

theorem updateMailbox_edit (id : Nat) {f : MailboxRow → MailboxRow} (hf : KeepsIdentity f) :
    Edit rules db (db.updateMailbox id f) := .setColumns hf

theorem deleteMailbox_edit {id : Nat} (h : db.deleteMailbox id = .ok db') : Edit rules db db' := by
  obtain ⟨hnone, rfl⟩ := deleteMailbox_ok h
  exact Edit.dropMailboxes (p := fun x => decide (x ≠ id)) fun d hd => by simpa using hnone d hd

theorem mergeMailboxInto_edits {target generation : Nat} {source : MailboxRow}
    (ht : db.HasMailbox target generation) (h : db.mergeMailboxInto target source = .ok db') :
    Edits rules db db' ∧ db'.HasMailbox target generation := by
  unfold mergeMailboxInto at h
  split at h
  · cases h
    exact ⟨.refl, ht⟩
  · rename_i hne
    have ht₁ : ((db.mergeDeliveries columnText source.id target).updateMailbox target
        fun b => b.mergeMetadata source).HasMailbox target generation :=
      have hmoved : (db.mergeDeliveries columnText source.id target).HasMailbox target generation := ht
      hmoved.updateMailbox (fun _ => rfl) fun _ => rfl
    refine ⟨?_, ht₁.deleteMailbox hne h⟩
    have hmerge : Edit rules db (db.mergeDeliveries columnText source.id target) :=
      .mergeDeliveries (fun heq => hne heq.symm) ht.exists_mailbox
    exact ((Edits.single hmerge).tail (updateMailbox_edit _ (mergeMetadata_keeps source))).tail
      (deleteMailbox_edit h)

end Db

namespace BatchWriter

open Db

variable {A : AddressOps} {db db' : Db}

theorem mem_loadMailboxesByAddress {address : Text} {b : MailboxRow}
    (h : b ∈ db.loadMailboxesByAddress address) :
    b ∈ db.mailboxes ∧ b.addressCanonical = address := by
  have hb := List.mem_of_mem_filter h
  exact ⟨List.mem_of_mem_filter hb, by simpa using (List.mem_filter.mp hb).2⟩

theorem mem_selectTarget {m : DomainMatch} {exact : List MailboxRow} {b : MailboxRow}
    (h : selectTarget db m exact = some b) : b ∈ exact := by
  unfold selectTarget at h
  dsimp only at h
  split at h
  all_goals
    rcases Option.or_eq_some_iff.mp h with h | ⟨-, h⟩
    · rcases Option.or_eq_some_iff.mp h with h | ⟨-, h⟩
      · exact List.mem_of_find?_eq_some h
      · exact List.mem_of_find?_eq_some h
    · exact List.mem_of_head? h

/-- The sources are catch-all mailboxes of the list, other than the target and one another. -/
theorem foldl_appendCatchAllSource (db : Db) (target : Option MailboxRow)
    (rows sources : List MailboxRow) :
    ∀ s ∈ rows.foldl (appendCatchAllSource db target) sources,
      s ∈ sources ∨ s ∈ rows ∧ db.isCatchAll s ∧ ∀ t ∈ target, t.id ≠ s.id := by
  induction rows generalizing sources with
  | nil =>
    intro s hs
    exact .inl hs
  | cons b rows ih =>
    intro s hs
    rw [List.foldl_cons] at hs
    rcases ih _ s hs with hs | ⟨hs, hrest⟩
    · unfold appendCatchAllSource at hs
      split at hs
      · exact .inl hs
      · rename_i hb
        rcases List.mem_append.mp hs with hs | hs
        · exact .inl hs
        · rw [List.mem_singleton.mp hs]
          rw [Bool.or_eq_true, Bool.or_eq_true, not_or, not_or] at hb
          refine .inr ⟨List.mem_cons_self, by simpa using hb.1.1, ?_⟩
          intro t ht heq
          apply hb.1.2
          rw [Option.mem_def.mp ht]
          simpa using heq
    · exact .inr ⟨List.mem_cons_of_mem _ hs, hrest⟩

theorem nodup_foldl_appendCatchAllSource (db : Db) (target : Option MailboxRow)
    (rows sources : List MailboxRow) (h : (sources.map MailboxRow.id).Nodup) :
    ((rows.foldl (appendCatchAllSource db target) sources).map MailboxRow.id).Nodup := by
  induction rows generalizing sources with
  | nil => exact h
  | cons b rows ih =>
    rw [List.foldl_cons]
    apply ih
    unfold appendCatchAllSource
    split
    · exact h
    · rename_i hb
      rw [Bool.or_eq_true, not_or] at hb
      refine UniqueKey.append_singleton h ?_
      intro s hs heq
      apply hb.2
      rw [List.any_eq_true]
      exact ⟨s, hs, by simpa using heq⟩

/-- The target of a plan is the mailbox with the address, or a catch-all mailbox that is renamed;
    the sources are other catch-all mailboxes. -/
theorem planMailbox_spec (A : AddressOps) (db : Db) (recipient : RecipientDelivery)
    (m : DomainMatch) :
    (∀ b ∈ (planMailbox A db recipient m).target,
      b ∈ db.mailboxes ∧ (b.addressCanonical = m.addressCanonical ∨ db.isCatchAll b) ∧
        ∀ s ∈ (planMailbox A db recipient m).sources, b.id ≠ s.id) ∧
      ((planMailbox A db recipient m).target = none →
        (planMailbox A db recipient m).sources = []) := by
  have hsources := foldl_appendCatchAllSource db
    (selectTarget db m (db.loadMailboxesByAddress m.addressCanonical))
    (db.loadMailboxesByAddress m.addressCanonical ++ oldCatchAllMailboxes A db recipient m) []
  have hnodup := nodup_foldl_appendCatchAllSource db
    (selectTarget db m (db.loadMailboxesByAddress m.addressCanonical))
    (db.loadMailboxesByAddress m.addressCanonical ++ oldCatchAllMailboxes A db recipient m) []
    List.nodup_nil
  have hmem {s : MailboxRow} (hs : s ∈ db.loadMailboxesByAddress m.addressCanonical ++
      oldCatchAllMailboxes A db recipient m) : s ∈ db.mailboxes := by
    rcases List.mem_append.mp hs with hs | hs
    · exact (mem_loadMailboxesByAddress hs).1
    · unfold oldCatchAllMailboxes at hs
      split at hs
      · split at hs
        · exact (mem_loadMailboxesByAddress hs).1
        · cases hs
      · cases hs
  unfold planMailbox
  dsimp only
  split
  · rename_i first rest htarget hrows
    rw [hrows] at hsources hnodup
    refine ⟨?_, fun h => by cases h⟩
    intro b hb
    cases hb
    have hfirst := (hsources first List.mem_cons_self).resolve_left List.not_mem_nil
    refine ⟨hmem hfirst.1, .inr hfirst.2.1, ?_⟩
    intro s hs heq
    rw [List.map_cons, List.nodup_cons] at hnodup
    exact hnodup.1 (heq ▸ List.mem_map_of_mem hs)
  · rename_i hcase
    constructor
    · intro b hb
      have hexact := mem_loadMailboxesByAddress (mem_selectTarget hb)
      refine ⟨hexact.1, .inl hexact.2, ?_⟩
      intro s hs
      exact ((hsources s hs).resolve_left List.not_mem_nil).2.2 b hb
    · intro hnone
      by_contra hne
      obtain ⟨first, rest, hrows⟩ := List.exists_cons_of_ne_nil hne
      exact hcase first rest hnone hrows

/-- The opened mailbox is there, with the generation the plan read. -/
theorem openMailbox_edits {receivedAt : Timestamp} {m : DomainMatch} {plan : MailboxPlan}
    {mailbox : OpenedMailbox} (hplan : ∀ b ∈ plan.target, b ∈ db.mailboxes ∧
      (b.domainId = m.domainId ∨ m.managed → rules.rename db b m))
    (h : openMailbox db receivedAt m plan = .ok (mailbox, db')) :
    Edits rules db db' ∧ db'.HasMailbox mailbox.id mailbox.generation ∧
      ∀ b ∈ plan.target, mailbox.id = b.id := by
  unfold openMailbox at h
  split at h
  · rename_i htarget
    split at h
    · cases h
    · rename_i id db₁ hins
      cases h
      refine ⟨.single (.addMailbox hins), ?_, fun b hb => by rw [htarget] at hb; cases hb⟩
      obtain ⟨-, -, rfl, rfl⟩ := insertMailbox_ok hins
      exact ⟨_, List.mem_append_right _ (List.mem_singleton.mpr rfl), rfl, rfl⟩
  · rename_i b htarget
    obtain ⟨hb, hown⟩ := hplan b htarget
    have hhas : db.HasMailbox b.id b.bulkDeleteGeneration := ⟨b, hb, rfl, rfl⟩
    have hid : ∀ c ∈ plan.target, b.id = c.id := by
      intro c hc
      rw [htarget] at hc
      cases hc
      rfl
    dsimp only at h
    split at h
    · rename_i hcond
      split at h
      · cases h
      · rename_i db₁ hupd
        have hedit : Edit rules db db₁ := .setIdentity hb (hown (by simpa using hcond)) hupd
        have hhas₁ := hhas.updateMailboxIdentity hupd
        split at h
        · cases h
          exact ⟨(Edits.single hedit).tail (updateMailbox_edit _ (touch_keeps _)),
            hhas₁.updateMailbox (fun _ => rfl) fun _ => rfl, hid⟩
        · cases h
          exact ⟨.single hedit, hhas₁, hid⟩
    · cases h
      exact ⟨.refl, hhas, hid⟩

theorem mergeSources_edits {target generation : Nat} {sources : List MailboxRow}
    (ht : db.HasMailbox target generation) (h : mergeSources db target sources = .ok db') :
    Edits rules db db' ∧ db'.HasMailbox target generation := by
  have hstep (s : Db) (hs : Edits rules db s ∧ s.HasMailbox target generation) (source : MailboxRow)
      (_ : source ∈ sources) (s' : Db) (hmerge : s.mergeMailboxInto target source = .ok s') :
      Edits rules db s' ∧ s'.HasMailbox target generation :=
    (mergeMailboxInto_edits hs.2 hmerge).imp_left hs.1.trans
  exact Transition.foldlM_invariant hstep ⟨.refl, ht⟩ h

theorem storeRecipient_edits {job : MailJob} {recipient : RecipientDelivery} {m : DomainMatch}
    (hdb : db.Consistent)
    (hown : ∀ b ∈ db.mailboxes, b.addressCanonical = m.addressCanonical ∨ db.isCatchAll b →
      b.domainId = m.domainId ∨ m.managed → rules.rename db b m)
    (hnew : rules.newMail (.delivery recipient.deliveryId job.messageId))
    (h : storeRecipient A job recipient m db = .ok db') : Edits rules db db' := by
  unfold storeRecipient at h
  dsimp only at h
  split at h
  · cases h
  · rename_i mailbox opened hopen
    obtain ⟨hplan, -⟩ := planMailbox_spec A db recipient m
    obtain ⟨hedits, hhas, -⟩ := openMailbox_edits
      (fun b hb => ⟨(hplan b hb).1, hown b (hplan b hb).1 (hplan b hb).2.1⟩) hopen
    split at h
    · cases h
    · rename_i merged hmerge
      have hsources : Edits rules opened merged ∧
          merged.HasMailbox mailbox.id mailbox.generation := mergeSources_edits hhas hmerge
      obtain ⟨hmedits, hmhas⟩ := hsources
      obtain ⟨hc, hp, rfl⟩ := insertDelivery_ok h
      -- the refresh and the touch change no identity, so the generation is still the plan's
      have hcols {db₁ : Db} (hh : db₁.HasMailbox mailbox.id mailbox.generation) (c : Bool)
          {f : MailboxRow → MailboxRow} (hf : KeepsIdentity f) :
          Edits rules db₁ (if c then db₁.updateMailbox mailbox.id f else db₁) ∧
            (if c then db₁.updateMailbox mailbox.id f else db₁).HasMailbox mailbox.id
              mailbox.generation := by
        split
        · exact ⟨.single (updateMailbox_edit _ hf), hh.updateMailbox hf.id hf.bulkDeleteGeneration⟩
        · exact ⟨.refl, hh⟩
      obtain ⟨hredits, hrhas⟩ := hcols hmhas
        (mailbox.rehomed || !(planMailbox A db recipient m).sources.isEmpty)
        (withSummary_keeps (merged.activeIn mailbox.id))
      obtain ⟨htedits, hthas⟩ := hcols hrhas (!mailbox.touched) (touch_keeps job.receivedAt)
      have hall := ((hedits.trans hmedits).trans hredits).trans htedits
      have hflip {α : Type} (c : Bool) (x y : α) :
          (if (!c) = true then x else y) = if c = true then y else x := by cases c <;> rfl
      rw [hflip] at hall hthas
      have hgen := hthas.generationOf (Edits.consistent hdb hall)
      rw [← hgen]
      exact hall.tail (.addDelivery hnew hc hp)

/-- A mailbox may take over the current match of one of the recipients if it has the address or is
    owned by the catch-all domain, and the match is its domain's or a managed one. -/
def batchRules (A : AddressOps) (start : Db) (recipients : List RecipientDelivery)
    (newMail : MailInsert → Prop) : EditRules where
  rename db b m :=
    (∃ r ∈ recipients, currentDomainMatch A start r = .ok m) ∧
      (b.addressCanonical = m.addressCanonical ∨ db.isCatchAll b) ∧
      (b.domainId = m.domainId ∨ m.managed)
  redomain _ _ := False
  newJob _ := False
  newMail := newMail

end BatchWriter

/-! ## What a delivery leaves alone -/

/-- Two databases that differ in mailboxes, deliveries and jobs at most. -/
structure Db.MailOnly (db db' : Db) : Prop where
  domains : db'.domains = db.domains
  domainSeq : db'.domainSeq = db.domainSeq
  tombstones : db'.tombstones = db.tombstones
  messages : db'.messages = db.messages
  attachments : db'.attachments = db.attachments
  sessions : db'.sessions = db.sessions
  metrics : db'.metrics = db.metrics
  rehomeJobs : db'.rehomeJobs = db.rehomeJobs
  fileGcTasks : db'.fileGcTasks = db.fileGcTasks

namespace Db

variable {db db' db'' : Db}

theorem MailOnly.refl (db : Db) : db.MailOnly db := ⟨rfl, rfl, rfl, rfl, rfl, rfl, rfl, rfl, rfl⟩

theorem MailOnly.trans (h : db.MailOnly db') (h' : db'.MailOnly db'') : db.MailOnly db'' :=
  ⟨h'.domains.trans h.domains, h'.domainSeq.trans h.domainSeq, h'.tombstones.trans h.tombstones,
    h'.messages.trans h.messages, h'.attachments.trans h.attachments,
    h'.sessions.trans h.sessions, h'.metrics.trans h.metrics, h'.rehomeJobs.trans h.rehomeJobs,
    h'.fileGcTasks.trans h.fileGcTasks⟩

theorem insertMailbox_mailOnly {m : DomainMatch} {seenAt : Timestamp} {count id : Nat}
    {latest : Option Timestamp} (h : db.insertMailbox m seenAt count latest = .ok (id, db')) :
    db.MailOnly db' := by
  obtain ⟨-, -, -, rfl⟩ := insertMailbox_ok h
  exact ⟨rfl, rfl, rfl, rfl, rfl, rfl, rfl, rfl, rfl⟩

theorem updateMailbox_mailOnly (id : Nat) (f : MailboxRow → MailboxRow) :
    db.MailOnly (db.updateMailbox id f) := ⟨rfl, rfl, rfl, rfl, rfl, rfl, rfl, rfl, rfl⟩

theorem updateMailboxIdentity_mailOnly {id : Nat} {m : DomainMatch}
    (h : db.updateMailboxIdentity id m = .ok db') : db.MailOnly db' := by
  obtain ⟨-, -, rfl⟩ := updateMailboxIdentity_ok h
  exact updateMailbox_mailOnly _ _

theorem deleteMailbox_mailOnly {id : Nat} (h : db.deleteMailbox id = .ok db') :
    db.MailOnly db' := by
  obtain ⟨-, rfl⟩ := deleteMailbox_ok h
  exact ⟨rfl, rfl, rfl, rfl, rfl, rfl, rfl, rfl, rfl⟩

theorem mergeDeliveries_mailOnly (read : Text → Text) (source target : Nat) :
    db.MailOnly (db.mergeDeliveries read source target) := ⟨rfl, rfl, rfl, rfl, rfl, rfl, rfl, rfl, rfl⟩

theorem addDelivery_mailOnly (id messageId : Text) (mailboxId : Nat) (rcptTo : Text)
    (deliveredAt : Timestamp) (expiresAt : Option Timestamp) (generation : Nat) :
    db.MailOnly (db.addDelivery id messageId mailboxId rcptTo deliveredAt expiresAt generation) :=
  ⟨rfl, rfl, rfl, rfl, rfl, rfl, rfl, rfl, rfl⟩

theorem mergeMailboxInto_mailOnly {target : Nat} {source : MailboxRow}
    (h : db.mergeMailboxInto target source = .ok db') : db.MailOnly db' := by
  unfold mergeMailboxInto at h
  split at h
  · cases h
    exact .refl db
  · exact ((mergeDeliveries_mailOnly _ _ _).trans (updateMailbox_mailOnly _ _)).trans
      (deleteMailbox_mailOnly h)

end Db

/-- Two databases with the same mail: what is written around the recipient loops. -/
structure Db.SameMail (db db' : Db) : Prop where
  domains : db'.domains = db.domains
  tombstones : db'.tombstones = db.tombstones
  mailboxes : db'.mailboxes = db.mailboxes
  mailboxSeq : db'.mailboxSeq = db.mailboxSeq
  deliveries : db'.deliveries = db.deliveries
  bulkDeleteJobs : db'.bulkDeleteJobs = db.bulkDeleteJobs
  merges : db'.merges = db.merges

namespace Db

variable {db db' db'' : Db}

theorem SameMail.refl (db : Db) : db.SameMail db := ⟨rfl, rfl, rfl, rfl, rfl, rfl, rfl⟩

theorem SameMail.trans (h : db.SameMail db') (h' : db'.SameMail db'') : db.SameMail db'' :=
  ⟨h'.domains.trans h.domains, h'.tombstones.trans h.tombstones, h'.mailboxes.trans h.mailboxes,
    h'.mailboxSeq.trans h.mailboxSeq, h'.deliveries.trans h.deliveries,
    h'.bulkDeleteJobs.trans h.bulkDeleteJobs, h'.merges.trans h.merges⟩

theorem insertMessage_sameMail {row : MessageRow} (h : db.insertMessage row = .ok db') :
    db.SameMail db' := by
  obtain ⟨-, rfl⟩ := insertMessage_ok h
  exact ⟨rfl, rfl, rfl, rfl, rfl, rfl, rfl⟩

theorem insertAttachment_sameMail {row : AttachmentRow} (h : db.insertAttachment row = .ok db') :
    db.SameMail db' := by
  obtain ⟨-, -, rfl⟩ := insertAttachment_ok h
  exact ⟨rfl, rfl, rfl, rfl, rfl, rfl, rfl⟩

theorem upsertMetric_sameMail (db : Db) (bucketTs received deliveries parseFailures : Nat) :
    db.SameMail (db.upsertMetric bucketTs received deliveries parseFailures) := by
  unfold upsertMetric
  split
  · exact ⟨rfl, rfl, rfl, rfl, rfl, rfl, rfl⟩
  · exact ⟨rfl, rfl, rfl, rfl, rfl, rfl, rfl⟩

end Db

namespace BatchWriter

open Db

variable {A : AddressOps} {db db' : Db}

theorem upsertSession_sameMail (db : Db) (job : MailJob) : db.SameMail (upsertSession db job) := by
  unfold upsertSession
  split
  · exact ⟨rfl, rfl, rfl, rfl, rfl, rfl, rfl⟩
  · exact ⟨rfl, rfl, rfl, rfl, rfl, rfl, rfl⟩

theorem insertAttachments_sameMail {job : MailJob} {result : ParseResult}
    (h : insertAttachments db job result = .ok db') : db.SameMail db' := by
  refine Transition.foldlM_invariant ?_ (SameMail.refl db) h
  intro s hs a _ s' hins
  exact hs.trans (insertAttachment_sameMail hins)

theorem openMailbox_mailOnly {receivedAt : Timestamp} {m : DomainMatch} {plan : MailboxPlan}
    {mailbox : OpenedMailbox} (h : openMailbox db receivedAt m plan = .ok (mailbox, db')) :
    db.MailOnly db' := by
  unfold openMailbox at h
  split at h
  · split at h
    · cases h
    · rename_i hins
      cases h
      exact insertMailbox_mailOnly hins
  · dsimp only at h
    split at h
    · split at h
      · cases h
      · rename_i hupd
        split at h
        · cases h
          exact (updateMailboxIdentity_mailOnly hupd).trans (updateMailbox_mailOnly _ _)
        · cases h
          exact updateMailboxIdentity_mailOnly hupd
    · cases h
      exact .refl db

theorem storeRecipient_mailOnly {job : MailJob} {recipient : RecipientDelivery} {m : DomainMatch}
    (h : storeRecipient A job recipient m db = .ok db') : db.MailOnly db' := by
  unfold storeRecipient at h
  dsimp only at h
  split at h
  · cases h
  · rename_i mailbox opened hopen
    split at h
    · cases h
    · rename_i merged hmerge
      obtain ⟨-, -, rfl⟩ := insertDelivery_ok h
      have hmerged : opened.MailOnly merged := by
        refine Transition.foldlM_invariant ?_ (MailOnly.refl opened) hmerge
        intro s hs _ _ s' hstep
        exact hs.trans (mergeMailboxInto_mailOnly hstep)
      have hcols (db₁ : Db) (c : Bool) (f : MailboxRow → MailboxRow) :
          db₁.MailOnly (if c then db₁.updateMailbox mailbox.id f else db₁) := by
        split
        · exact updateMailbox_mailOnly _ _
        · exact .refl db₁
      have hflip (db₁ : Db) (c : Bool) (f : MailboxRow → MailboxRow) :
          db₁.MailOnly (if c then db₁ else db₁.updateMailbox mailbox.id f) := by
        split
        · exact .refl db₁
        · exact updateMailbox_mailOnly _ _
      exact ((((openMailbox_mailOnly hopen).trans hmerged).trans (hcols _ _ _)).trans
        (hflip _ _ _)).trans (addDelivery_mailOnly _ _ _ _ _ _ _)

theorem managedCandidates_congr (h : db'.domains = db.domains) (domainAscii : Text) :
    managedCandidates db' domainAscii = managedCandidates db domainAscii := by
  have hrule : managedRule? db' = managedRule? db := by
    funext root
    unfold managedRule?
    rw [h]
  unfold managedCandidates
  rw [hrule]

theorem catchAllMatch_congr (h : db'.domains = db.domains) (rcptTo : Text) :
    catchAllMatch A db' rcptTo = catchAllMatch A db rcptTo := by
  unfold catchAllMatch catchAllMatcher
  rw [h]

/-- A rematch reads the domain table alone. -/
theorem currentDomainMatch_congr (h : db'.domains = db.domains) (recipient : RecipientDelivery) :
    currentDomainMatch A db' recipient = currentDomainMatch A db recipient := by
  unfold currentDomainMatch managedMatch Db.domain?
  dsimp only
  rw [managedCandidates_congr h, catchAllMatch_congr h, h]

theorem storeRecipients_edits {job : MailJob} {start : Db} {all recipients : List RecipientDelivery}
    {delivered : List (Nat × Text)} {n : Nat} (hdb : db.Consistent)
    (hstart : db.domains = start.domains) (hall : ∀ r ∈ recipients, r ∈ all)
    (newMail : MailInsert → Prop)
    (hnew : ∀ r ∈ recipients, newMail (.delivery r.deliveryId job.messageId))
    (h : storeRecipients A job recipients delivered db = .ok (n, db')) :
    Edits (batchRules A start all newMail) db db' ∧ db.MailOnly db' := by
  induction recipients generalizing delivered db n with
  | nil =>
    cases h
    exact ⟨.refl, .refl _⟩
  | cons r rest ih =>
    unfold storeRecipients at h
    have hrest : ∀ r ∈ rest, r ∈ all := fun x hx => hall x (List.mem_cons_of_mem _ hx)
    have hnewRest : ∀ r ∈ rest, newMail (.delivery r.deliveryId job.messageId) :=
      fun x hx => hnew x (List.mem_cons_of_mem _ hx)
    split at h
    · cases h
    · rename_i m hm
      split at h
      · exact ih hdb hstart hrest hnewRest h
      · split at h
        · cases h
        · rename_i db₁ hstore
          split at h
          · cases h
          · rename_i n₁ db₂ hloop
            cases h
            rw [currentDomainMatch_congr hstart] at hm
            have hedits : Edits (batchRules A start all newMail) db db₁ := by
              refine storeRecipient_edits hdb ?_ (hnew r List.mem_cons_self) hstore
              intro b _ haddr hdom
              exact ⟨⟨r, hall r List.mem_cons_self, hm⟩, haddr, hdom⟩
            have honly := storeRecipient_mailOnly hstore
            obtain ⟨hedits', honly'⟩ := ih (Edits.consistent hdb hedits)
              (honly.domains.trans hstart) hrest hnewRest hloop
            exact ⟨hedits.trans hedits', honly.trans honly'⟩

theorem upsertSession_edit (job : MailJob) : Edit rules db (upsertSession db job) := by
  unfold upsertSession
  split
  · exact .bookkeeping
  · exact .bookkeeping

theorem upsertMetric_edit (bucketTs received deliveries parseFailures : Nat) :
    Edit rules db (db.upsertMetric bucketTs received deliveries parseFailures) := by
  unfold upsertMetric
  split
  · exact .bookkeeping
  · exact .bookkeeping

theorem insertAttachments_edits {job : MailJob} {result : ParseResult}
    (h : insertAttachments db job result = .ok db') :
    Edits rules db db' ∧ db'.domains = db.domains ∧ db'.messages = db.messages := by
  have hstep (s : Db)
      (hs : Edits rules db s ∧ s.domains = db.domains ∧ s.messages = db.messages)
      (a : ParsedAttachment) (_ : a ∈ attachmentsOf result) (s' : Db)
      (hins : s.insertAttachment (attachmentRow job a) = .ok s') :
      Edits rules db s' ∧ s'.domains = db.domains ∧ s'.messages = db.messages := by
    refine ⟨hs.1.tail (.addAttachment hins), ?_⟩
    obtain ⟨-, -, rfl⟩ := insertAttachment_ok hins
    exact hs.2
  exact Transition.foldlM_invariant hstep ⟨.refl, rfl, rfl⟩ h

theorem upsertSession_eq (db : Db) (job : MailJob) :
    ∃ sessions, upsertSession db job = { db with sessions := sessions } := by
  unfold upsertSession
  split
  · exact ⟨_, rfl⟩
  · exact ⟨_, rfl⟩

theorem upsertMetric_eq (db : Db) (bucketTs received deliveries parseFailures : Nat) :
    ∃ metrics, db.upsertMetric bucketTs received deliveries parseFailures =
      { db with metrics := metrics } := by
  unfold upsertMetric
  split
  · exact ⟨_, rfl⟩
  · exact ⟨_, rfl⟩

/-- The stages of a job that is not stored yet. -/
theorem storeJob_ok {job : MailJob} {result : ParseResult}
    (h : storeJob A db job result = .ok db') :
    (∃ m ∈ db.messages, m.id = job.messageId) ∧ db' = db ∨
      (∀ m ∈ db.messages, m.id ≠ job.messageId) ∧ ∃ db₁ db₂ db₃ n,
        (upsertSession db job).insertMessage (messageRow job result) = .ok db₁ ∧
        insertAttachments db₁ job result = .ok db₂ ∧
        storeRecipients A job job.recipients [] db₂ = .ok (n, db₃) ∧
        db' = db₃.upsertMetric (metricBucketTs job.receivedAt) 1 n (parseFailures result) := by
  unfold storeJob at h
  split at h
  · rename_i hfound
    cases h
    exact .inl ⟨by simpa using hfound, rfl⟩
  · rename_i hfresh
    have hnew : ∀ m ∈ db.messages, m.id ≠ job.messageId := by
      intro m hm heq
      exact hfresh (List.any_eq_true.mpr ⟨m, hm, by simpa using heq⟩)
    split at h
    · cases h
    · rename_i db₁ hmsg
      split at h
      · cases h
      · rename_i db₂ hatt
        split at h
        · cases h
        · rename_i n db₃ hloop
          cases h
          exact .inr ⟨hnew, db₁, db₂, db₃, n, hmsg, hatt, hloop, rfl⟩

theorem storeJob_edits {job : MailJob} {result : ParseResult} {start : Db}
    {all : List RecipientDelivery} (hdb : db.Consistent) (hstart : db.domains = start.domains)
    (hall : (∀ m ∈ db.messages, m.id ≠ job.messageId) → ∀ r ∈ job.recipients, r ∈ all)
    (newMail : MailInsert → Prop) (hmail : newMail (.message job.messageId))
    (hids : ∀ r ∈ job.recipients, newMail (.delivery r.deliveryId job.messageId))
    (h : storeJob A db job result = .ok db') :
    Edits (batchRules A start all newMail) db db' ∧ db'.domains = db.domains ∧
      ∀ m ∈ db.messages, m ∈ db'.messages := by
  obtain ⟨-, rfl⟩ | ⟨hnew, db₁, db₂, db₃, n, hmsg, hatt, hloop, rfl⟩ := storeJob_ok h
  · exact ⟨.refl, rfl, fun _ => id⟩
  · have hstart₁ : Edits (batchRules A start all newMail) db db₁ :=
      (Edits.single (upsertSession_edit job)).tail (.addMessage hmsg hmail)
    obtain ⟨hedits₂, hdom₂, hmsg₂⟩ := insertAttachments_edits hatt
    have hedits := hstart₁.trans hedits₂
    obtain ⟨sessions, hsession⟩ := upsertSession_eq db job
    rw [hsession] at hmsg
    obtain ⟨-, rfl⟩ := insertMessage_ok hmsg
    obtain ⟨hedits₃, honly⟩ := storeRecipients_edits (Edits.consistent hdb hedits)
      (hdom₂.trans hstart) (hall hnew) newMail hids hloop
    obtain ⟨metrics, hmetric⟩ := upsertMetric_eq db₃ (metricBucketTs job.receivedAt) 1 n
      (parseFailures result)
    refine ⟨(hedits.trans hedits₃).tail (upsertMetric_edit _ _ _ _), ?_, ?_⟩
    · rw [hmetric]
      exact honly.domains.trans hdom₂
    · intro m hm
      rw [hmetric]
      change m ∈ db₃.messages
      rw [honly.messages, hmsg₂]
      exact List.mem_append_left _ hm

/-- The recipients of the jobs that a batch does not skip. -/
def pendingRecipients (start : Db) (jobs : List (MailJob × ParseResult)) :
    List RecipientDelivery :=
  (jobs.filter fun job => !start.messages.any fun m => m.id = job.1.messageId).flatMap
    fun job => job.1.recipients

theorem mem_pendingRecipients {start : Db} {jobs : List (MailJob × ParseResult)}
    {r : RecipientDelivery} :
    r ∈ pendingRecipients start jobs ↔
      ∃ job ∈ jobs, (∀ m ∈ start.messages, m.id ≠ job.1.messageId) ∧ r ∈ job.1.recipients := by
  simp only [pendingRecipients, List.mem_flatMap, List.mem_filter]
  constructor
  · rintro ⟨job, ⟨hjob, hnew⟩, hr⟩
    refine ⟨job, hjob, ?_, hr⟩
    intro m hm heq
    rw [Bool.not_eq_true', List.any_eq_false] at hnew
    exact hnew m hm (by simpa using heq)
  · rintro ⟨job, hjob, hnew, hr⟩
    refine ⟨job, ⟨hjob, ?_⟩, hr⟩
    rw [Bool.not_eq_true', List.any_eq_false]
    intro m hm
    simpa using hnew m hm

/-- A row that a job of the batch brings: its message, or the delivery of one of its recipients. -/
def mailOf (jobs : List (MailJob × ParseResult)) : MailInsert → Prop
  | .message id => ∃ job ∈ jobs, job.1.messageId = id
  | .delivery id messageId =>
    ∃ job ∈ jobs, job.1.messageId = messageId ∧ ∃ r ∈ job.1.recipients, r.deliveryId = id

theorem writeSqliteRecords_edits {start : Db} {all jobs : List (MailJob × ParseResult)}
    (hdb : db.Consistent) (hstart : db.domains = start.domains)
    (hmsg : ∀ m ∈ start.messages, m ∈ db.messages) (hall : ∀ job ∈ jobs, job ∈ all)
    (h : writeSqliteRecords A db jobs = .ok db') :
    Edits (batchRules A start (pendingRecipients start all) (mailOf all)) db db' ∧
      db'.domains = db.domains := by
  induction jobs generalizing db with
  | nil =>
    cases h
    exact ⟨.refl, rfl⟩
  | cons job rest ih =>
    unfold writeSqliteRecords at h
    split at h
    · cases h
    · rename_i db₁ hjob
      have hpending (hnew : ∀ m ∈ db.messages, m.id ≠ job.1.messageId) :
          ∀ r ∈ job.1.recipients, r ∈ pendingRecipients start all :=
        fun r hr => mem_pendingRecipients.mpr
          ⟨job, hall job List.mem_cons_self, fun m hm => hnew m (hmsg m hm), hr⟩
      have hmail : mailOf all (.message job.1.messageId) :=
        ⟨job, hall job List.mem_cons_self, rfl⟩
      have hids : ∀ r ∈ job.1.recipients, mailOf all (.delivery r.deliveryId job.1.messageId) :=
        fun r hr => ⟨job, hall job List.mem_cons_self, rfl, r, hr, rfl⟩
      obtain ⟨hedits, hdom, hmono⟩ := storeJob_edits hdb hstart hpending _ hmail hids hjob
      obtain ⟨hedits', hdom'⟩ := ih (Edits.consistent hdb hedits) (hdom.trans hstart)
        (fun m hm => hmono m (hmsg m hm)) (fun j hj => hall j (List.mem_cons_of_mem _ hj)) h
      exact ⟨hedits.trans hedits', hdom'.trans hdom⟩

end BatchWriter
end RapidInbox
