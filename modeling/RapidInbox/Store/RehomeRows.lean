import RapidInbox.Domain.Canonical
import RapidInbox.Store.MergeOutcome

/-!
# One mailbox of a rehome job

What a turn of the loop in `_process_rehome_job_batch` does to the mailbox table.  It touches the
mailbox of the turn and at most one other, and a mailbox it touches is settled afterwards: the
current match of its address is no improvement for it.  The turn therefore does the same whether it
goes by the row of the page or by the row as it is now.
-/

namespace RapidInbox

open Table

/-- A mailbox has the identity of a match. -/
structure MailboxRow.HasIdentity (b : MailboxRow) (m : DomainMatch) : Prop where
  domainId : b.domainId = m.domainId
  localPartCanonical : b.localPartCanonical = m.localPartCanonical
  rcptDomainAscii : b.rcptDomainAscii = m.domainAscii
  addressCanonical : b.addressCanonical = m.addressCanonical

/-- Two rows of a mailbox that a promotion tells apart from no other. -/
structure MailboxRow.SameIdentity (b c : MailboxRow) : Prop where
  id : b.id = c.id
  domainId : b.domainId = c.domainId
  localPartCanonical : b.localPartCanonical = c.localPartCanonical
  rcptDomainAscii : b.rcptDomainAscii = c.rcptDomainAscii
  addressCanonical : b.addressCanonical = c.addressCanonical

theorem MailboxRow.HasIdentity.not_needed {b : MailboxRow} {m : DomainMatch} (h : b.HasIdentity m)
    (root : Text) : mailboxNeedsOwnershipPromotion b root m = false := by
  unfold mailboxNeedsOwnershipPromotion
  split
  · rfl
  · rw [if_pos h.domainId, h.localPartCanonical, h.rcptDomainAscii, h.addressCanonical]
    simp

theorem MailboxRow.SameIdentity.needs_eq {b c : MailboxRow} (h : b.SameIdentity c) (root : Text)
    (m : DomainMatch) :
    mailboxNeedsOwnershipPromotion b root m = mailboxNeedsOwnershipPromotion c root m := by
  unfold mailboxNeedsOwnershipPromotion
  rw [h.domainId, h.localPartCanonical, h.rcptDomainAscii, h.addressCanonical]

namespace Db

variable {db db' : Db}

/-- The mailbox table after a promotion of `source` to the match: `touched` is the mailbox itself or
    the one that has the address. -/
inductive PromotedRows (db : Db) (source : MailboxRow) (m : DomainMatch) : List MailboxRow → Prop
  | inPlace {row : MailboxRow} (hid : row.id = source.id) (hrow : row.HasIdentity m) :
      PromotedRows db source m
        (updateWhere (fun b => b.id = source.id) (fun _ => row) db.mailboxes)
  | merged {target row : MailboxRow} (ht : target ∈ db.mailboxes) (hne : target.id ≠ source.id)
      (haddr : target.addressCanonical = m.addressCanonical) (hid : row.id = target.id)
      (hrow : row.HasIdentity m ∨ row.SameIdentity target ∧
        ∀ root, db.ownerRoot? target = some root →
          mailboxNeedsOwnershipPromotion target root m = false) :
      PromotedRows db source m
        ((updateWhere (fun b => b.id = target.id) (fun _ => row) db.mailboxes).filter
          fun b => b.id ≠ source.id)

theorem updateMailbox_rows (hdb : db.Consistent) {b : MailboxRow} (hb : b ∈ db.mailboxes)
    (f : MailboxRow → MailboxRow) :
    (db.updateMailbox b.id f).mailboxes =
      updateWhere (fun c => c.id = b.id) (fun _ => f b) db.mailboxes :=
  hdb.mailbox_ids.updateWhere_eq hb f

/-- A second update of a row. -/
theorem updateMailbox_rewrites {row : MailboxRow} {id : Nat} (hid : row.id = id)
    (hrows : db'.mailboxes = updateWhere (fun b => b.id = id) (fun _ => row) db.mailboxes)
    (f : MailboxRow → MailboxRow) :
    (db'.updateMailbox id f).mailboxes =
      updateWhere (fun b => b.id = id) (fun _ => f row) db.mailboxes := by
  rw [updateMailbox, hrows]
  simp only [updateWhere, List.map_map]
  apply List.map_congr_left
  intro b _
  by_cases hb : b.id = id
  · simp [hb, hid]
  · simp [hb]

theorem promoteInPlace_rows (hdb : db.Consistent) {source : MailboxRow}
    (hs : source ∈ db.mailboxes) {m : DomainMatch} (hdom : ∃ d ∈ db.domains, d.id = m.domainId)
    (haddr : ∀ c ∈ db.mailboxes, c.addressCanonical = m.addressCanonical → c.id = source.id) :
    ∃ result db', db.promoteInPlace source m = .ok (result, db') ∧
      db.PromotedRows source m db'.mailboxes := by
  unfold promoteInPlace
  rw [updateMailboxIdentity_eq hdb haddr hdom]
  refine ⟨_, _, rfl, ?_⟩
  have hid : (source.withIdentity m).id = source.id := rfl
  have hidentity := updateMailbox_rows hdb hs fun b => b.withIdentity m
  rw [refreshRehomedMailboxSummary, updateMailbox_rewrites hid hidentity]
  exact .inPlace rfl ⟨rfl, rfl, rfl, rfl⟩

/-- The rest of the merge, once the target has its identity: `row`. -/
theorem mergeRest_rows {promoted : Db} {source target row : MailboxRow} (hid : row.id = target.id)
    (hne : target.id ≠ source.id)
    (hrows : promoted.mailboxes =
      updateWhere (fun b => b.id = target.id) (fun _ => row) db.mailboxes)
    (first last : Timestamp) :
    ∃ db' row', (((promoted.updateMailbox target.id fun b => b.mergeFlags source).mergeDeliveries id
        source.id target.id).refreshRehomedMailboxSummary target.id first last).deleteMailbox
          source.id = .ok db' ∧
      db'.mailboxes = ((updateWhere (fun b => b.id = target.id) (fun _ => row') db.mailboxes).filter
        fun b => b.id ≠ source.id) ∧ row'.SameIdentity row := by
  have hmerged : ((promoted.updateMailbox target.id fun b => b.mergeFlags source).mergeDeliveries id
      source.id target.id).mailboxes =
        updateWhere (fun b => b.id = target.id) (fun _ => row.mergeFlags source) db.mailboxes :=
    updateMailbox_rewrites hid hrows fun b => b.mergeFlags source
  have hid' : (row.mergeFlags source).id = target.id := hid
  have hrefreshed := updateMailbox_rewrites hid' hmerged fun b =>
    { b.withSummary (((promoted.updateMailbox target.id fun b => b.mergeFlags source).mergeDeliveries
        id source.id target.id).activeIn target.id) with
      firstSeenAt := min b.firstSeenAt first
      lastSeenAt := max b.lastSeenAt last }
  exact ⟨_, _, deleteMailbox_eq (mergeDeliveries_leaves (Ne.symm hne)),
    congrArg (List.filter _) hrefreshed, ⟨rfl, rfl, rfl, rfl, rfl⟩⟩

theorem promoteByMerge_rows (hdb : db.Consistent) {source target : MailboxRow} {targetRoot : Text}
    {m : DomainMatch} (ht : target ∈ db.mailboxes) (hne : target.id ≠ source.id)
    (hroot : db.ownerRoot? target = some targetRoot) (hdom : ∃ d ∈ db.domains, d.id = m.domainId)
    (haddr : target.addressCanonical = m.addressCanonical) :
    ∃ result db', db.promoteByMerge source target targetRoot m = .ok (result, db') ∧
      db.PromotedRows source m db'.mailboxes := by
  unfold promoteByMerge promoteTarget
  by_cases hneeds : mailboxNeedsOwnershipPromotion target targetRoot m = true
  · have hfree : ∀ c ∈ db.mailboxes, c.addressCanonical = m.addressCanonical → c.id = target.id := by
      intro c hc hca
      rw [hdb.mailbox_addresses.eq_of_mem hc ht (hca.trans haddr.symm)]
    rw [if_pos hneeds, updateMailboxIdentity_eq hdb hfree hdom]
    dsimp only
    have hid : (target.withIdentity m).id = target.id := rfl
    obtain ⟨db', row, hok, hrows, hrow⟩ := mergeRest_rows hid hne
      (updateMailbox_rows hdb ht fun b => b.withIdentity m)
      (min source.firstSeenAt target.firstSeenAt) (max source.lastSeenAt target.lastSeenAt)
    rw [hok]
    refine ⟨_, _, rfl, ?_⟩
    rw [hrows]
    refine .merged ht hne haddr hrow.id (.inl ⟨?_, ?_, ?_, ?_⟩)
    · exact hrow.domainId
    · exact hrow.localPartCanonical
    · exact hrow.rcptDomainAscii
    · exact hrow.addressCanonical
  · rw [if_neg hneeds]
    dsimp only
    have hself : db.mailboxes =
        updateWhere (fun b => b.id = target.id) (fun _ => target) db.mailboxes := by
      rw [← hdb.mailbox_ids.updateWhere_eq ht fun b => b]
      simp [updateWhere]
    obtain ⟨db', row, hok, hrows, hrow⟩ := mergeRest_rows rfl hne hself
      (min source.firstSeenAt target.firstSeenAt) (max source.lastSeenAt target.lastSeenAt)
    rw [hok]
    refine ⟨_, _, rfl, ?_⟩
    rw [hrows]
    refine .merged ht hne haddr hrow.id (.inr ⟨hrow, ?_⟩)
    intro root hroot'
    rw [Option.some.inj (hroot'.symm.trans hroot)]
    simpa using hneeds

/-- A promotion that is needed succeeds. -/
theorem promoteMailboxOwnership_rows (hdb : db.Consistent) {source : MailboxRow} {root : Text}
    {m : DomainMatch} (hs : source ∈ db.mailboxes) (hroot : db.ownerRoot? source = some root)
    (hneeds : mailboxNeedsOwnershipPromotion source root m = true)
    (hdom : ∃ d ∈ db.domains, d.id = m.domainId) :
    ∃ result db', db.promoteMailboxOwnership source.id m = .ok (result, db') ∧
      db.PromotedRows source m db'.mailboxes := by
  rw [promoteMailboxOwnership_eq hdb hs hroot, if_pos hneeds]
  cases htarget : db.mailboxAt? m.addressCanonical with
  | none =>
    refine promoteInPlace_rows hdb hs hdom ?_
    intro c hc hca
    exact absurd hca (find?_key_none.mp htarget c hc)
  | some target =>
    obtain ⟨ht, haddr⟩ := find?_key htarget
    obtain ⟨owner, -, -, htroot⟩ := exists_ownerRoot? hdb ht
    dsimp only
    rw [htroot]
    dsimp only
    by_cases hne : target.id = source.id
    · rw [if_pos hne]
      refine promoteInPlace_rows hdb hs hdom ?_
      intro c hc hca
      rw [hdb.mailbox_addresses.eq_of_mem hc ht (hca.trans haddr.symm), hne]
    · rw [if_neg hne]
      exact promoteByMerge_rows hdb ht hne htroot hdom haddr

/-! ## Settled mailboxes -/

/-- The current match of the mailbox's address is no improvement for it. -/
def Settled (A : AddressOps) (matcher : DomainMatcher) (db : Db) (b : MailboxRow) : Prop :=
  ∀ m, matcher.matchAddress A b.addressCanonical = some m →
    ∀ root, db.ownerRoot? b = some root → mailboxNeedsOwnershipPromotion b root m = false

/-- The mailbox table is listed in the order of its primary key, which starts at one. -/
structure MailboxesListed (db : Db) : Prop where
  ordered : db.mailboxes.Pairwise fun b c => b.id < c.id
  positive : ∀ b ∈ db.mailboxes, 0 < b.id

/-- What a rehome job relies on: the schema, and a matcher whose rules are domains. -/
structure Rehoming (A : AddressOps) (matcher : DomainMatcher) (db : Db) : Prop where
  lawful : A.Lawful
  stable : A.unicode.LowerStable
  consistent : db.Consistent
  listed : db.MailboxesListed
  domains : ∀ address m, matcher.matchAddress A address = some m →
    ∃ d ∈ db.domains, d.id = m.domainId

section Turn

variable {A : AddressOps} {matcher : DomainMatcher} {candidate : Option Text}

theorem ownerRoot?_of_domains (h : db'.domains = db.domains) (b : MailboxRow) :
    db'.ownerRoot? b = db.ownerRoot? b := by
  rw [ownerRoot?, domain?, h, ownerRoot?, domain?]

theorem isCandidateSource_of_domains (h : db'.domains = db.domains) (candidate : Option Text)
    (domainId : Nat) :
    db'.isCandidateSource candidate domainId = db.isCandidateSource candidate domainId := by
  unfold isCandidateSource
  rw [h]

theorem Settled.of_domains {b : MailboxRow} (hdomains : db'.domains = db.domains)
    (h : Settled A matcher db b) : Settled A matcher db' b := by
  intro m hm root hroot
  rw [ownerRoot?_of_domains hdomains] at hroot
  exact h m hm root hroot

/-- A mailbox with the identity of a match is settled: its address matches the same way again. -/
theorem settled_of_hasIdentity (hA : A.Lawful) (hU : A.unicode.LowerStable) {address : Text}
    {m : DomainMatch} (hm : matcher.matchAddress A address = some m) {b : MailboxRow}
    (hb : b.HasIdentity m) : Settled A matcher db b := by
  intro m' hm' root _
  rw [hb.addressCanonical, DomainMatcher.matchAddress_canonical hA hU hm] at hm'
  cases hm'
  exact MailboxRow.HasIdentity.not_needed
    ⟨hb.domainId, hb.localPartCanonical, hb.rcptDomainAscii, hb.addressCanonical⟩ root

/-- So is a mailbox at the canonical address of a match that is no improvement for it. -/
theorem settled_of_not_needed (hA : A.Lawful) (hU : A.unicode.LowerStable) {address : Text}
    {m : DomainMatch} (hm : matcher.matchAddress A address = some m) {b : MailboxRow}
    (haddr : b.addressCanonical = m.addressCanonical)
    (hneeds : ∀ root, db.ownerRoot? b = some root → mailboxNeedsOwnershipPromotion b root m = false) :
    Settled A matcher db b := by
  intro m' hm' root hroot
  rw [haddr, DomainMatcher.matchAddress_canonical hA hU hm] at hm'
  cases hm'
  exact hneeds root hroot

/-- What a turn for the mailbox `id` leaves. -/
structure Rehomed (A : AddressOps) (matcher : DomainMatcher) (candidate : Option Text) (id : Nat)
    (db db' : Db) : Prop where
  rehoming : Rehoming A matcher db'
  mailOnly : db.MailOnly db'
  rows : ∀ b ∈ db'.mailboxes, b ∈ db.mailboxes ∨ Settled A matcher db' b ∧
    ∃ c ∈ db.mailboxes, c.id = b.id ∧ (b.id ≠ id → c.addressCanonical = b.addressCanonical)
  kept : ∀ c ∈ db.mailboxes, c.id ≠ id → ∃ b ∈ db'.mailboxes, b.id = c.id
  done : ∀ b ∈ db'.mailboxes, b.id = id → db'.isCandidateSource candidate b.domainId = true →
    Settled A matcher db' b

/-- A row of the table after an update of one row. -/
theorem mem_updateRow {rows : List MailboxRow} {id : Nat} {row b : MailboxRow}
    (h : b ∈ updateWhere (fun c => c.id = id) (fun _ => row) rows) :
    (b = row ∧ ∃ c ∈ rows, c.id = id) ∨ (b ∈ rows ∧ b.id ≠ id) := by
  obtain ⟨c, hc, rfl⟩ := mem_updateWhere.mp h
  by_cases hid : c.id = id
  · exact .inl ⟨by simp [hid], c, hc, hid⟩
  · simp only [hid, decide_false, Bool.false_eq_true, if_false]
    exact .inr ⟨hc, hid⟩

theorem map_id_updateRow {rows : List MailboxRow} {id : Nat} {row : MailboxRow} (hid : row.id = id) :
    (updateWhere (fun c => c.id = id) (fun _ => row) rows).map MailboxRow.id =
      rows.map MailboxRow.id := by
  rw [updateWhere, List.map_map]
  apply List.map_congr_left
  intro b _
  by_cases hb : b.id = id
  · simp [hb, hid]
  · simp [hb]

theorem MailboxesListed.of_ids {rows : List MailboxRow} (h : db.MailboxesListed)
    (hids : (rows.map MailboxRow.id).Sublist (db.mailboxes.map MailboxRow.id))
    (hrows : db'.mailboxes = rows) : db'.MailboxesListed := by
  constructor
  · have hpair : (db.mailboxes.map MailboxRow.id).Pairwise (· < ·) :=
      List.pairwise_map.mpr h.ordered
    rw [hrows]
    exact List.pairwise_map.mp (hpair.sublist hids)
  · intro b hb
    rw [hrows] at hb
    obtain ⟨c, hc, hid⟩ := List.mem_map.mp (hids.subset (List.mem_map_of_mem hb))
    rw [← hid]
    exact h.positive c hc

/-- Every change of the tables keeps the order of the mailboxes. -/
theorem listed_of_edit {rules : EditRules} (hdb : db.Consistent) (h : db.MailboxesListed)
    (hedit : Edit rules db db') : db'.MailboxesListed := by
  have hupdated {db' : Db} {p : MailboxRow → Bool} {f : MailboxRow → MailboxRow}
      (hrows : db'.mailboxes = updateWhere p f db.mailboxes) (hf : ∀ b, (f b).id = b.id) :
      db'.MailboxesListed := by
    refine h.of_ids ?_ hrows
    rw [map_updateWhere hf]
  have hsame {db' : Db} (hrows : db'.mailboxes = db.mailboxes) : db'.MailboxesListed :=
    h.of_ids (List.Sublist.refl _) hrows
  cases hedit with
  | addMailbox hins =>
    obtain ⟨-, -, rfl, rfl⟩ := insertMailbox_ok hins
    constructor
    · refine List.pairwise_append.mpr ⟨h.ordered, List.pairwise_singleton _ _, ?_⟩
      intro b hb c hc
      rw [List.mem_singleton.mp hc]
      exact Nat.lt_succ_of_le (hdb.mailbox_seq b hb)
    · intro b hb
      rcases List.mem_append.mp hb with hb | hb
      · exact h.positive b hb
      · rw [List.mem_singleton.mp hb]
        exact Nat.succ_pos _
  | setIdentity _ _ hupd =>
    obtain ⟨-, -, rfl⟩ := updateMailboxIdentity_ok hupd
    exact hupdated rfl fun _ => rfl
  | setColumns hf => exact hupdated rfl hf.id
  | dropMailboxes => exact h.of_ids (List.filter_sublist.map _) rfl
  | createJob _ hjob =>
    obtain ⟨mailbox, -, -, ⟨job, -, -, -, -, rfl⟩ | ⟨-, -, -, rfl⟩⟩ :=
      createOrResumeBulkDeleteJob_ok hjob
    · exact h
    · exact hupdated rfl fun _ => rfl
  | processJob hjob =>
    obtain ⟨job, -, -, -, ⟨-, rfl⟩ | ⟨-, rfl⟩⟩ := processBulkDeleteJobBatch_ok hjob
    · exact h
    · unfold advanceBulkDeleteJob
      dsimp only
      split
      · exact hupdated rfl fun _ => rfl
      · exact hsame rfl
  | addMessage hmsg _ =>
    obtain ⟨-, rfl⟩ := insertMessage_ok hmsg
    exact hsame rfl
  | addAttachment hatt =>
    obtain ⟨-, -, rfl⟩ := insertAttachment_ok hatt
    exact hsame rfl
  | _ => exact hsame rfl

/-- The mailboxes are listed in every reachable state. -/
theorem run_listed {E : StoreEnv} (hdb : db.Consistent) (h : db.MailboxesListed)
    (ops : List StoreOp) : (db.run E ops).MailboxesListed := by
  generalize hrun : db.run E ops = db'
  have hchain := hrun ▸ run_edits hdb ops
  clear hrun
  induction hchain with
  | refl => exact h
  | tail hchain hedit ih => exact listed_of_edit (Edits.consistent hdb hchain) ih hedit

/-- The table that a promotion leaves has only ids of the old one. -/
theorem PromotedRows.ids {source : MailboxRow} {m : DomainMatch} {rows : List MailboxRow}
    (h : db.PromotedRows source m rows) :
    (rows.map MailboxRow.id).Sublist (db.mailboxes.map MailboxRow.id) := by
  cases h with
  | inPlace hid _ => rw [map_id_updateRow hid]
  | @merged target row _ _ _ hid _ =>
    have hsame : (updateWhere (fun b => b.id = target.id) (fun _ => row) db.mailboxes).map
        MailboxRow.id = db.mailboxes.map MailboxRow.id := map_id_updateRow hid
    rw [← hsame]
    exact List.filter_sublist.map _

/-- A promotion leaves every mailbox as it was, or settled at the address it had. -/
theorem PromotedRows.rows_settled (hA : A.Lawful) (hU : A.unicode.LowerStable)
    {source : MailboxRow} (hs : source ∈ db.mailboxes) {m : DomainMatch}
    (hm : matcher.matchAddress A source.addressCanonical = some m) {db' : Db}
    (hdomains : db'.domains = db.domains) (h : db.PromotedRows source m db'.mailboxes) :
    ∀ b ∈ db'.mailboxes, (b ∈ db.mailboxes ∧ b.id ≠ source.id) ∨ Settled A matcher db' b ∧
      ∃ c ∈ db.mailboxes, c.id = b.id ∧ (b.id ≠ source.id → c.addressCanonical = b.addressCanonical) := by
  intro b hb
  generalize hrows : db'.mailboxes = rows at h hb
  cases h with
  | inPlace hid hrow =>
    rcases mem_updateRow hb with ⟨rfl, -⟩ | hkept
    · exact .inr ⟨settled_of_hasIdentity hA hU hm hrow, source, hs, hid.symm,
        fun hne => absurd hid hne⟩
    · exact .inl hkept
  | merged ht hne haddr hid hrow =>
    obtain ⟨hb, hkeep⟩ := List.mem_filter.mp hb
    rcases mem_updateRow hb with ⟨rfl, -⟩ | ⟨hmem, -⟩
    · refine .inr ⟨?_, _, ht, hid.symm, ?_⟩
      · rcases hrow with hrow | ⟨hsame, hneeds⟩
        · exact settled_of_hasIdentity hA hU hm hrow
        · refine settled_of_not_needed hA hU hm (hsame.addressCanonical.trans haddr) ?_
          intro root hroot
          rw [ownerRoot?_of_domains hdomains, ownerRoot?, hsame.domainId] at hroot
          rw [hsame.needs_eq]
          exact hneeds root hroot
      · intro _
        rcases hrow with hrow | ⟨hsame, -⟩
        · exact haddr.trans hrow.addressCanonical.symm
        · exact hsame.addressCanonical.symm
    · exact .inl ⟨hmem, by simpa using hkeep⟩

theorem PromotedRows.kept {source : MailboxRow} {m : DomainMatch} {rows : List MailboxRow}
    (h : db.PromotedRows source m rows) :
    ∀ c ∈ db.mailboxes, c.id ≠ source.id → ∃ b ∈ rows, b.id = c.id := by
  intro c hc hne
  cases h with
  | @inPlace row hid _ =>
    rw [← List.mem_map, map_id_updateRow hid]
    exact List.mem_map_of_mem hc
  | @merged target row _ _ _ hid _ =>
    have hmem : c.id ∈ (updateWhere (fun b => b.id = target.id) (fun _ => row)
        db.mailboxes).map MailboxRow.id := by
      rw [map_id_updateRow hid]
      exact List.mem_map_of_mem hc
    obtain ⟨b, hb, hbid⟩ := List.mem_map.mp hmem
    exact ⟨b, List.mem_filter.mpr ⟨hb, by simpa [hbid] using hne⟩, hbid⟩

/-- A promotion of a mailbox to the match of its address. -/
theorem promote_rehomed (h : Rehoming A matcher db) {source : MailboxRow}
    (hs : source ∈ db.mailboxes) {m : DomainMatch}
    (hm : matcher.matchAddress A source.addressCanonical = some m) {root : Text}
    (hroot : db.ownerRoot? source = some root)
    (hneeds : mailboxNeedsOwnershipPromotion source root m = true) :
    ∃ result db', db.promoteMailboxOwnership source.id m = .ok (result, db') ∧
      Rehomed A matcher candidate source.id db db' := by
  obtain ⟨result, db', hok, hrows⟩ := promoteMailboxOwnership_rows h.consistent hs hroot hneeds
    (h.domains _ m hm)
  have hmay : MayPromote (idRules (fun _ => False) fun _ => False) db m :=
    fun _ _ _ _ _ => trivial
  obtain ⟨hedits, honly⟩ := promoteMailboxOwnership_edits hmay hok
  have hsettled := hrows.rows_settled h.lawful h.stable hs hm honly.domains
  refine ⟨result, db', hok, ?_, honly, ?_, hrows.kept, ?_⟩
  · refine ⟨h.lawful, h.stable, hedits.consistent h.consistent, h.listed.of_ids hrows.ids rfl, ?_⟩
    rw [honly.domains]
    exact h.domains
  · intro b hb
    rcases hsettled b hb with ⟨hmem, -⟩ | hchanged
    · exact .inl hmem
    · exact .inr hchanged
  · intro b hb hid _
    rcases hsettled b hb with ⟨-, hne⟩ | ⟨hchanged, -⟩
    · exact absurd hid hne
    · exact hchanged

/-- A turn that finds nothing to do. -/
theorem Rehomed.idle (h : Rehoming A matcher db) {id : Nat}
    (hdone : ∀ b ∈ db.mailboxes, b.id = id → db.isCandidateSource candidate b.domainId = true →
      Settled A matcher db b) : Rehomed A matcher candidate id db db :=
  ⟨h, .refl db, fun _ hb => .inl hb, fun c hc _ => ⟨c, hc, rfl⟩, hdone⟩

/-- A settled mailbox is not promoted. -/
theorem Settled.promote_eq (hdb : db.Consistent) {b : MailboxRow} (hb : b ∈ db.mailboxes)
    (h : Settled A matcher db b) {m : DomainMatch}
    (hm : matcher.matchAddress A b.addressCanonical = some m) :
    db.promoteMailboxOwnership b.id m = .ok (⟨b.id, false, 0, 0⟩, db) := by
  obtain ⟨owner, -, -, hroot⟩ := exists_ownerRoot? hdb hb
  rw [promoteMailboxOwnership_eq hdb hb hroot, h m hm _ hroot]
  rfl

/-- A turn for the current row of a mailbox. -/
theorem rehomeRow_rehomed (h : Rehoming A matcher db) {b : MailboxRow} (hb : b ∈ db.mailboxes) :
    ∃ result db', rehomeRow A matcher candidate b db = .ok (result, db') ∧
      Rehomed A matcher candidate b.id db db' := by
  have hunique (c : MailboxRow) (hc : c ∈ db.mailboxes) (hid : c.id = b.id) : c = b :=
    h.consistent.mailbox_ids.eq_of_mem hc hb hid
  unfold rehomeRow
  by_cases hsource : db.isCandidateSource candidate b.domainId = true
  · rw [hsource, Bool.not_true, if_neg nofun]
    cases hm : matcher.matchAddress A b.addressCanonical with
    | none =>
      refine ⟨_, db, rfl, .idle h ?_⟩
      intro c hc hid _ m hm'
      rw [hunique c hc hid, hm] at hm'
      cases hm'
    | some m =>
      dsimp only
      split
      · rename_i hcatch
        refine ⟨_, db, rfl, .idle h ?_⟩
        intro c hc hid _ m' hm' root _
        rw [hunique c hc hid, hm] at hm'
        cases hm'
        rw [mailboxNeedsOwnershipPromotion, if_pos hcatch]
      · obtain ⟨owner, -, -, hroot⟩ := exists_ownerRoot? h.consistent hb
        by_cases hneeds : mailboxNeedsOwnershipPromotion b owner.rootDomainAscii m = true
        · exact promote_rehomed h hb hm hroot hneeds
        · have hsettled : Settled A matcher db b := by
            intro m' hm' root hroot'
            rw [hm] at hm'
            cases hm'
            rw [Option.some.inj (hroot'.symm.trans hroot)]
            simpa using hneeds
          refine ⟨_, db, hsettled.promote_eq h.consistent hb hm, .idle h ?_⟩
          intro c hc hid _
          rw [hunique c hc hid]
          exact hsettled
  · rw [eq_false_of_ne_true hsource, Bool.not_false, if_pos rfl]
    refine ⟨_, db, rfl, .idle h ?_⟩
    intro c hc hid hcand
    rw [hunique c hc hid] at hcand
    exact absurd hcand hsource

/-- A row of the page still says what a turn needs: the mailbox is there at the same address, and it
    has the same owner or is settled. -/
def UpToDate (A : AddressOps) (matcher : DomainMatcher) (db : Db) (row : MailboxRow) : Prop :=
  ∃ b ∈ db.mailboxes, b.id = row.id ∧ b.addressCanonical = row.addressCanonical ∧
    (b.domainId = row.domainId ∨ Settled A matcher db b)

/-- A turn for a mailbox, by its current row. -/
def rehomeOne (A : AddressOps) (matcher : DomainMatcher) (candidate : Option Text) (id : Nat)
    (db : Db) : Except DbError (PromoteResult × Db) :=
  match db.mailbox? id with
  | none => .ok (⟨id, false, 0, 0⟩, db)
  | some row => rehomeRow A matcher candidate row db

/-- A turn for a settled mailbox does nothing, whatever row of it the page holds. -/
theorem rehomeRow_settled (hdb : db.Consistent) {b row : MailboxRow} (hb : b ∈ db.mailboxes)
    (hid : b.id = row.id) (haddr : b.addressCanonical = row.addressCanonical)
    (h : Settled A matcher db b) :
    rehomeRow A matcher candidate row db = .ok (⟨row.id, false, 0, 0⟩, db) := by
  unfold rehomeRow
  split
  · rfl
  · rw [← haddr]
    cases hm : matcher.matchAddress A b.addressCanonical with
    | none => rfl
    | some m =>
      dsimp only
      split
      · rfl
      · rw [← hid, h.promote_eq hdb hb hm]

/-- The row of the page and the current row give the same turn. -/
theorem UpToDate.rehomeRow_eq (hdb : db.Consistent) {row : MailboxRow}
    (h : UpToDate A matcher db row) :
    rehomeRow A matcher candidate row db = rehomeOne A matcher candidate row.id db := by
  obtain ⟨b, hb, hid, haddr, howner⟩ := h
  have hfind : db.mailbox? row.id = some b := hdb.mailbox_ids.find?_eq_some hb hid
  rw [rehomeOne, hfind]
  dsimp only
  rcases howner with hdomain | hsettled
  · rw [rehomeRow, rehomeRow, hdomain, haddr, hid]
  · rw [rehomeRow_settled hdb hb hid haddr hsettled, rehomeRow_settled hdb hb rfl rfl hsettled, hid]

/-- A turn for another mailbox leaves a row of the page up to date. -/
theorem UpToDate.rehomed {id : Nat} {row : MailboxRow} (hdb : db.Consistent)
    (h : UpToDate A matcher db row) (hturn : Rehomed A matcher candidate id db db')
    (hne : row.id ≠ id) : UpToDate A matcher db' row := by
  obtain ⟨b, hb, hid, haddr, howner⟩ := h
  obtain ⟨b', hb', hid'⟩ := hturn.kept b hb (by rw [hid]; exact hne)
  refine ⟨b', hb', hid'.trans hid, ?_⟩
  rcases hturn.rows b' hb' with hsame | ⟨hsettled, c, hc, hcid, hcaddr⟩
  · have hbb : b' = b := hdb.mailbox_ids.eq_of_mem hsame hb hid'
    rw [hbb]
    refine ⟨haddr, ?_⟩
    rcases howner with hdomain | hsettled
    · exact .inl hdomain
    · exact .inr (hsettled.of_domains hturn.mailOnly.domains)
  · have hcb : c = b := hdb.mailbox_ids.eq_of_mem hc hb (hcid.trans hid')
    rw [hcb] at hcaddr
    exact ⟨(hcaddr (by rw [hid', hid]; exact hne)).symm.trans haddr, .inr hsettled⟩

/-! ## A page, mailbox by mailbox -/

/-- Turns for a list of mailboxes, each by its current row. -/
def rehomeIds (A : AddressOps) (matcher : DomainMatcher) (candidate : Option Text) :
    List Nat → RehomeTotals → Db → Except DbError (RehomeTotals × Db)
  | [], totals, db => .ok (totals, db)
  | id :: ids, totals, db =>
    match rehomeOne A matcher candidate id db with
    | .error e => .error e
    | .ok (result, db) => rehomeIds A matcher candidate ids (totals.add result) db

theorem rehomeOne_rehomed (candidate : Option Text) (h : Rehoming A matcher db) {id : Nat}
    (hid : ∃ b ∈ db.mailboxes, b.id = id) :
    ∃ result db', rehomeOne A matcher candidate id db = .ok (result, db') ∧
      Rehomed A matcher candidate id db db' := by
  obtain ⟨b, hb, rfl⟩ := hid
  rw [rehomeOne, mailbox?_eq_some h.consistent hb]
  exact rehomeRow_rehomed h hb

/-- The page read before the loop gives what reading each row before its turn gives. -/
theorem rehomePage_eq {rows : List MailboxRow} (h : Rehoming A matcher db)
    (hrows : ∀ row ∈ rows, UpToDate A matcher db row) (hnodup : (rows.map MailboxRow.id).Nodup)
    (totals : RehomeTotals) :
    rehomePage A matcher candidate rows totals db =
      rehomeIds A matcher candidate (rows.map MailboxRow.id) totals db := by
  induction rows generalizing db totals with
  | nil => rfl
  | cons row rows ih =>
    obtain ⟨hnot, hnodup⟩ := List.nodup_cons.mp hnodup
    have hrow := hrows row List.mem_cons_self
    obtain ⟨b, hb, hid, -⟩ := id hrow
    obtain ⟨result, db₁, hone, hturn⟩ := rehomeOne_rehomed candidate h ⟨b, hb, hid⟩
    rw [rehomePage, List.map_cons, rehomeIds, hrow.rehomeRow_eq h.consistent, hone]
    dsimp only
    refine ih hturn.rehoming ?_ hnodup _
    intro row' hrow'
    refine (hrows row' (List.mem_cons_of_mem _ hrow')).rehomed h.consistent hturn ?_
    intro heq
    exact hnot (heq ▸ List.mem_map_of_mem hrow')

end Turn

end Db
end RapidInbox
