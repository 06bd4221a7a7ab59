import Mathlib.Data.List.Sort
import RapidInbox.Store.RehomeRows

/-!
# Rehome jobs, batch by batch

A job walks the mailbox table in pages of any legal size, a page may be rolled back and tried again,
and the job may be marked failed and resumed.  What the job has still to do is one list of mailboxes
in every state of the run, so the tables and totals it ends with do not depend on how the pages are
cut; and no mailbox up to the frontier is left for a second job.
-/

namespace RapidInbox

open Table

namespace Db

variable {db db' : Db} {A : AddressOps} {matcher : DomainMatcher} {candidate : Option Text}

/-! ## Turns for many mailboxes -/

/-- A turn for the mailbox, if it is there, would find nothing to do. -/
def DoneAt (A : AddressOps) (matcher : DomainMatcher) (candidate : Option Text) (db : Db)
    (id : Nat) : Prop :=
  ∀ b ∈ db.mailboxes, b.id = id → db.isCandidateSource candidate b.domainId = true →
    Settled A matcher db b

/-- What the turns for a list of mailboxes leave. -/
structure Swept (A : AddressOps) (matcher : DomainMatcher) (candidate : Option Text)
    (ids : List Nat) (db db' : Db) : Prop where
  rehoming : Rehoming A matcher db'
  mailOnly : db.MailOnly db'
  sameIds : ∀ x, x ∉ ids → ((∃ b ∈ db'.mailboxes, b.id = x) ↔ ∃ b ∈ db.mailboxes, b.id = x)
  fewerIds : ∀ b ∈ db'.mailboxes, ∃ c ∈ db.mailboxes, c.id = b.id
  done : ∀ x ∈ ids, DoneAt A matcher candidate db' x
  keepsDone : ∀ x, DoneAt A matcher candidate db x → DoneAt A matcher candidate db' x

theorem Rehomed.fewerIds {id : Nat} (h : Rehomed A matcher candidate id db db') :
    ∀ b ∈ db'.mailboxes, ∃ c ∈ db.mailboxes, c.id = b.id := by
  intro b hb
  rcases h.rows b hb with hmem | ⟨-, c, hc, hid, -⟩
  · exact ⟨b, hmem, rfl⟩
  · exact ⟨c, hc, hid⟩

theorem Rehomed.keepsDone {id x : Nat} (h : Rehomed A matcher candidate id db db')
    (hdone : DoneAt A matcher candidate db x) : DoneAt A matcher candidate db' x := by
  intro b hb hid hsource
  rcases h.rows b hb with hmem | ⟨hsettled, -⟩
  · rw [isCandidateSource_of_domains h.mailOnly.domains] at hsource
    exact (hdone b hmem hid hsource).of_domains h.mailOnly.domains
  · exact hsettled

theorem rehomeIds_swept (candidate : Option Text) {ids : List Nat} (h : Rehoming A matcher db)
    (hids : ∀ x ∈ ids, ∃ b ∈ db.mailboxes, b.id = x) (hnodup : ids.Nodup) (totals : RehomeTotals) :
    ∃ totals' db', rehomeIds A matcher candidate ids totals db = .ok (totals', db') ∧
      Swept A matcher candidate ids db db' := by
  induction ids generalizing db totals with
  | nil =>
    refine ⟨totals, db, rfl, h, .refl db, fun _ _ => Iff.rfl, fun b hb => ⟨b, hb, rfl⟩, ?_,
      fun _ hdone => hdone⟩
    intro x hx
    cases hx
  | cons id ids ih =>
    obtain ⟨hnot, hnodup⟩ := List.nodup_cons.mp hnodup
    obtain ⟨result, db₁, hone, hturn⟩ := rehomeOne_rehomed candidate h (hids id List.mem_cons_self)
    have hids₁ : ∀ x ∈ ids, ∃ b ∈ db₁.mailboxes, b.id = x := by
      intro x hx
      obtain ⟨c, hc, rfl⟩ := hids x (List.mem_cons_of_mem _ hx)
      exact hturn.kept c hc fun heq => hnot (heq ▸ hx)
    obtain ⟨totals', db', hrest, hswept⟩ := ih hturn.rehoming hids₁ hnodup (totals.add result)
    refine ⟨totals', db', ?_, hswept.rehoming, hturn.mailOnly.trans hswept.mailOnly, ?_, ?_, ?_, ?_⟩
    · rw [rehomeIds, hone]
      exact hrest
    · intro x hx
      rw [List.mem_cons, not_or] at hx
      rw [hswept.sameIds x hx.2]
      constructor
      · rintro ⟨b, hb, rfl⟩
        exact hturn.fewerIds b hb
      · rintro ⟨c, hc, rfl⟩
        exact hturn.kept c hc hx.1
    · intro b hb
      obtain ⟨c, hc, hid⟩ := hswept.fewerIds b hb
      obtain ⟨c', hc', hid'⟩ := hturn.fewerIds c hc
      exact ⟨c', hc', hid'.trans hid⟩
    · intro x hx
      rcases List.mem_cons.mp hx with rfl | hx
      · exact hswept.keepsDone x hturn.done
      · exact hswept.done x hx
    · intro x hdone
      exact hswept.keepsDone x (hturn.keepsDone hdone)

theorem rehomeIds_append (xs ys : List Nat) (totals : RehomeTotals) (db : Db) :
    rehomeIds A matcher candidate (xs ++ ys) totals db =
      match rehomeIds A matcher candidate xs totals db with
      | .error e => .error e
      | .ok (totals, db) => rehomeIds A matcher candidate ys totals db := by
  induction xs generalizing totals db with
  | nil => rfl
  | cons x xs ih =>
    rw [List.cons_append, rehomeIds, rehomeIds]
    cases rehomeOne A matcher candidate x db with
    | error e => rfl
    | ok r => exact ih _ _

/-- The totals of a job and of a batch. -/
def RehomeTotals.plus (t t' : RehomeTotals) : RehomeTotals :=
  ⟨t.rehomed + t'.rehomed, t.moved + t'.moved, t.deduplicated + t'.deduplicated⟩

theorem RehomeTotals.plus_add (t t' : RehomeTotals) (result : PromoteResult) :
    (RehomeTotals.plus t t').add result = RehomeTotals.plus t (t'.add result) := by
  simp only [RehomeTotals.plus, RehomeTotals.add, Nat.add_assoc]

/-- The totals are counted on from wherever they stand. -/
theorem rehomeIds_plus (ids : List Nat) (totals totals' : RehomeTotals) (db : Db) :
    rehomeIds A matcher candidate ids (RehomeTotals.plus totals totals') db =
      (rehomeIds A matcher candidate ids totals' db).map fun r =>
        (RehomeTotals.plus totals r.1, r.2) := by
  induction ids generalizing totals' db with
  | nil => rfl
  | cons x ids ih =>
    rw [rehomeIds, rehomeIds]
    cases rehomeOne A matcher candidate x db with
    | error e => rfl
    | ok r =>
      dsimp only
      rw [RehomeTotals.plus_add, ih]

/-! ## The table of jobs plays no part -/

/-- The database with another table of rehome jobs. -/
def withRehomeJobs (db : Db) (jobs : List RehomeJob) : Db := { db with rehomeJobs := jobs }

theorem updateMailboxIdentity_withRehomeJobs (jobs : List RehomeJob) (id : Nat) (m : DomainMatch) :
    (db.withRehomeJobs jobs).updateMailboxIdentity id m =
      (db.updateMailboxIdentity id m).map fun db => db.withRehomeJobs jobs := by
  rw [updateMailboxIdentity.eq_def db]
  by_cases haddr : (db.mailboxes.any fun b =>
      b.addressCanonical = m.addressCanonical && b.id ≠ id) = true
  · rw [if_pos haddr]
    exact if_pos haddr
  · rw [if_neg haddr]
    refine (if_neg haddr).trans ?_
    by_cases hdomain : (db.domain? m.domainId).isNone = true
    · rw [if_pos hdomain]
      exact if_pos hdomain
    · rw [if_neg hdomain]
      exact if_neg hdomain

theorem deleteMailbox_withRehomeJobs (jobs : List RehomeJob) (id : Nat) :
    (db.withRehomeJobs jobs).deleteMailbox id =
      (db.deleteMailbox id).map fun db => db.withRehomeJobs jobs := by
  rw [deleteMailbox.eq_def db]
  by_cases hheld : (db.deliveries.any fun d => d.mailboxId = id) = true
  · rw [if_pos hheld]
    exact if_pos hheld
  · rw [if_neg hheld]
    exact if_neg hheld

theorem promoteInPlace_withRehomeJobs (jobs : List RehomeJob) (source : MailboxRow)
    (m : DomainMatch) :
    (db.withRehomeJobs jobs).promoteInPlace source m =
      (db.promoteInPlace source m).map fun r => (r.1, r.2.withRehomeJobs jobs) := by
  unfold promoteInPlace
  rw [updateMailboxIdentity_withRehomeJobs]
  cases db.updateMailboxIdentity source.id m with
  | error e => rfl
  | ok db => rfl

theorem promoteByMerge_withRehomeJobs (jobs : List RehomeJob) (source target : MailboxRow)
    (targetRoot : Text) (m : DomainMatch) :
    (db.withRehomeJobs jobs).promoteByMerge source target targetRoot m =
      (db.promoteByMerge source target targetRoot m).map fun r =>
        (r.1, r.2.withRehomeJobs jobs) := by
  have htarget : (db.withRehomeJobs jobs).promoteTarget target targetRoot m =
      (db.promoteTarget target targetRoot m).map fun db => db.withRehomeJobs jobs := by
    unfold promoteTarget
    split
    · exact updateMailboxIdentity_withRehomeJobs jobs target.id m
    · rfl
  unfold promoteByMerge
  rw [htarget]
  cases db.promoteTarget target targetRoot m with
  | error e => rfl
  | ok promoted =>
    have hrest : (((promoted.withRehomeJobs jobs).updateMailbox target.id fun b =>
        b.mergeFlags source).mergeDeliveries id source.id target.id).refreshRehomedMailboxSummary
          target.id (min source.firstSeenAt target.firstSeenAt)
          (max source.lastSeenAt target.lastSeenAt) =
        (((promoted.updateMailbox target.id fun b => b.mergeFlags source).mergeDeliveries id
          source.id target.id).refreshRehomedMailboxSummary target.id
          (min source.firstSeenAt target.firstSeenAt)
          (max source.lastSeenAt target.lastSeenAt)).withRehomeJobs jobs := rfl
    dsimp only [Except.map]
    rw [hrest, deleteMailbox_withRehomeJobs]
    cases (((promoted.updateMailbox target.id fun b => b.mergeFlags source).mergeDeliveries id
      source.id target.id).refreshRehomedMailboxSummary target.id
      (min source.firstSeenAt target.firstSeenAt)
      (max source.lastSeenAt target.lastSeenAt)).deleteMailbox source.id with
    | error e => rfl
    | ok db' => rfl

theorem promoteMailboxOwnership_withRehomeJobs (jobs : List RehomeJob) (id : Nat) (m : DomainMatch) :
    (db.withRehomeJobs jobs).promoteMailboxOwnership id m =
      (db.promoteMailboxOwnership id m).map fun r => (r.1, r.2.withRehomeJobs jobs) := by
  rw [promoteMailboxOwnership, promoteMailboxOwnership.eq_def db]
  have hmailbox : (db.withRehomeJobs jobs).mailbox? id = db.mailbox? id := rfl
  have hroot (b : MailboxRow) : (db.withRehomeJobs jobs).ownerRoot? b = db.ownerRoot? b := rfl
  have haddr : (db.withRehomeJobs jobs).mailboxAt? m.addressCanonical =
      db.mailboxAt? m.addressCanonical := rfl
  rw [hmailbox, haddr]
  cases db.mailbox? id with
  | none => rfl
  | some source =>
    dsimp only
    rw [hroot]
    cases db.ownerRoot? source with
    | none => rfl
    | some sourceRoot =>
      dsimp only
      split
      · rfl
      · cases db.mailboxAt? m.addressCanonical with
        | none => exact promoteInPlace_withRehomeJobs jobs source m
        | some target =>
          dsimp only
          rw [hroot]
          cases db.ownerRoot? target with
          | none => exact promoteInPlace_withRehomeJobs jobs source m
          | some targetRoot =>
            dsimp only
            split
            · exact promoteInPlace_withRehomeJobs jobs source m
            · exact promoteByMerge_withRehomeJobs jobs source target targetRoot m

theorem rehomeIds_withRehomeJobs (jobs : List RehomeJob) (ids : List Nat) (totals : RehomeTotals)
    (db : Db) :
    rehomeIds A matcher candidate ids totals (db.withRehomeJobs jobs) =
      (rehomeIds A matcher candidate ids totals db).map fun r =>
        (r.1, r.2.withRehomeJobs jobs) := by
  have hone (id : Nat) (db : Db) : rehomeOne A matcher candidate id (db.withRehomeJobs jobs) =
      (rehomeOne A matcher candidate id db).map fun r => (r.1, r.2.withRehomeJobs jobs) := by
    unfold rehomeOne rehomeRow
    have hmailbox : (db.withRehomeJobs jobs).mailbox? id = db.mailbox? id := rfl
    rw [hmailbox]
    cases db.mailbox? id with
    | none => rfl
    | some row =>
      have hsource : (db.withRehomeJobs jobs).isCandidateSource candidate row.domainId =
          db.isCandidateSource candidate row.domainId := rfl
      dsimp only
      rw [hsource]
      split
      · rfl
      · cases matcher.matchAddress A row.addressCanonical with
        | none => rfl
        | some m =>
          dsimp only
          split
          · rfl
          · exact promoteMailboxOwnership_withRehomeJobs jobs row.id m
  induction ids generalizing totals db with
  | nil => rfl
  | cons id ids ih =>
    rw [rehomeIds, rehomeIds, hone]
    cases rehomeOne A matcher candidate id db with
    | error e => rfl
    | ok r => exact ih _ _

/-! ## A batch -/

/-- The mailboxes a job has still to visit. -/
def rehomeRemaining (db : Db) (job : RehomeJob) : List Nat :=
  (db.mailboxes.filter fun b =>
    decide (job.cursorMailboxId < b.id) && decide (b.id ≤ job.maxMailboxId)).map MailboxRow.id

theorem mem_rehomeRemaining {job : RehomeJob} {x : Nat} :
    x ∈ db.rehomeRemaining job ↔
      (∃ b ∈ db.mailboxes, b.id = x) ∧ job.cursorMailboxId < x ∧ x ≤ job.maxMailboxId := by
  simp only [rehomeRemaining, List.mem_map, List.mem_filter, Bool.and_eq_true, decide_eq_true_eq]
  constructor
  · rintro ⟨b, ⟨hb, hbounds⟩, rfl⟩
    exact ⟨⟨b, hb, rfl⟩, hbounds⟩
  · rintro ⟨⟨b, hb, rfl⟩, hbounds⟩
    exact ⟨b, ⟨hb, hbounds⟩, rfl⟩

theorem MailboxesListed.remaining (h : db.MailboxesListed) (job : RehomeJob) :
    (db.rehomeRemaining job).Pairwise (· < ·) :=
  List.pairwise_map.mpr (h.ordered.sublist List.filter_sublist)

theorem rehomeJobPage_ids (db : Db) (job : RehomeJob) (n : Nat) :
    (db.rehomeJobPage job n).map MailboxRow.id = (db.rehomeRemaining job).take n := by
  rw [rehomeJobPage, rehomeRemaining, List.map_take]

end Db

/-- What a job has counted so far. -/
def RehomeJob.totals (job : RehomeJob) : RehomeTotals :=
  ⟨job.mailboxesRehomed, job.deliveriesMoved, job.deliveriesDeduplicated⟩

/-- What a job ends with. -/
structure RehomeOutcome where
  mailboxes : List MailboxRow
  deliveries : List DeliveryRow
  scanned : Nat
  totals : RehomeTotals

namespace Db

/-- The state of a job in the tables. -/
def rehomeProgress (db : Db) (job : RehomeJob) : RehomeOutcome :=
  ⟨db.mailboxes, db.deliveries, job.mailboxesScanned, job.totals⟩

/-- What is left of a job, done mailbox by mailbox. -/
def rehomeOutcome (A : AddressOps) (matcher : DomainMatcher) (db : Db) (job : RehomeJob) :
    Except DbError RehomeOutcome :=
  (rehomeIds A matcher job.candidateRootDomain (db.rehomeRemaining job) job.totals db).map fun r =>
    ⟨r.2.mailboxes, r.2.deliveries, job.mailboxesScanned + (db.rehomeRemaining job).length, r.1⟩

theorem rehomeOutcome_of_done {A : AddressOps} {matcher : DomainMatcher} {db : Db} {job : RehomeJob} (h : db.rehomeRemaining job = []) :
    rehomeOutcome A matcher db job = .ok (db.rehomeProgress job) := by
  rw [rehomeOutcome, h]
  rfl

/-- A job of a run: its matcher is the current one, and the mailboxes from `start` to its cursor are
    done. -/
structure Rehomes (A : AddressOps) (matcher : DomainMatcher) (start : Nat) (db : Db)
    (job : RehomeJob) : Prop where
  rehoming : Rehoming A matcher db
  loaded : db.loadActiveDomainMatcher A = .ok matcher
  found : db.rehomeJobs.find? (fun j => j.id = job.id) = some job
  behind : ∀ x, start < x → x ≤ job.cursorMailboxId → x ≤ job.maxMailboxId →
    DoneAt A matcher job.candidateRootDomain db x
  finished : job.status = .succeeded → db.rehomeRemaining job = []

/-- What a step of a run keeps of the job. -/
structure SameWalk (A : AddressOps) (matcher : DomainMatcher) (db : Db) (job : RehomeJob) (db' : Db)
    (job' : RehomeJob) : Prop where
  id : job'.id = job.id
  candidate : job'.candidateRootDomain = job.candidateRootDomain
  frontier : job'.maxMailboxId = job.maxMailboxId
  domains : db'.domains = db.domains
  outcome : rehomeOutcome A matcher db' job' = rehomeOutcome A matcher db job

section Batch

variable {db db' : Db} {A : AddressOps} {matcher : DomainMatcher} {job : RehomeJob}
  {totals : RehomeTotals} {start n : Nat}

theorem advance_cursor (db : Db) (job : RehomeJob) (n : Nat) (totals : RehomeTotals) :
    (job.advance (db.rehomeJobPage job n) totals).cursorMailboxId =
      ((db.rehomeRemaining job).take n).getLast?.getD job.maxMailboxId := by
  rw [← rehomeJobPage_ids, List.getLast?_map]
  rfl

/-- The mailboxes after the page are those the advanced job has still to visit. -/
theorem remaining_after_page (h : db.MailboxesListed) (h' : db'.MailboxesListed) (hn : 1 ≤ n)
    (hsame : ∀ x, x ∉ (db.rehomeRemaining job).take n →
      ((∃ b ∈ db'.mailboxes, b.id = x) ↔ ∃ b ∈ db.mailboxes, b.id = x)) :
    db'.rehomeRemaining (job.advance (db.rehomeJobPage job n) totals) =
      (db.rehomeRemaining job).drop n := by
  have hordered := h.remaining job
  refine (h'.remaining _).eq_of_mem_iff (hordered.sublist (List.drop_sublist _ _)) ?_
  intro x
  rw [mem_rehomeRemaining, advance_cursor]
  change _ ∧ _ ∧ x ≤ job.maxMailboxId ↔ _
  cases hlast : ((db.rehomeRemaining job).take n).getLast? with
  | none =>
    have hnil : db.rehomeRemaining job = [] := by
      rcases List.take_eq_nil_iff.mp (List.getLast?_eq_none_iff.mp hlast) with hzero | hnil
      · omega
      · exact hnil
    rw [hnil, List.drop_nil, Option.getD_none]
    constructor
    · rintro ⟨-, hlt, hle⟩
      omega
    · intro hx
      cases hx
  | some last =>
    have htake : x ∈ (db.rehomeRemaining job).take n ↔ _ := mem_take_iff_le hordered hlast
    have hcursor : job.cursorMailboxId < last :=
      (mem_rehomeRemaining.mp (List.mem_of_mem_take (List.mem_of_getLast? hlast))).2.1
    rw [mem_drop_iff_lt hordered hlast, mem_rehomeRemaining, Option.getD_some]
    constructor
    · rintro ⟨hmem, hlt, hle⟩
      have hnot : x ∉ (db.rehomeRemaining job).take n := fun hx => by
        have := (htake.mp hx).2
        omega
      exact ⟨⟨(hsame x hnot).mp hmem, by omega, hle⟩, hlt⟩
    · rintro ⟨⟨hmem, -, hle⟩, hlt⟩
      have hnot : x ∉ (db.rehomeRemaining job).take n := fun hx => by
        have := (htake.mp hx).2
        omega
      exact ⟨(hsame x hnot).mpr hmem, hlt, hle⟩

/-- The page, done by the rows as they are at their turn. -/
theorem Rehoming.page (h : Rehoming A matcher db) (job : RehomeJob) (n : Nat) :
    rehomePage A matcher job.candidateRootDomain (db.rehomeJobPage job n) ⟨0, 0, 0⟩ db =
      rehomeIds A matcher job.candidateRootDomain ((db.rehomeRemaining job).take n) ⟨0, 0, 0⟩ db := by
  rw [← rehomeJobPage_ids]
  refine rehomePage_eq h ?_ ?_ _
  · intro row hrow
    exact ⟨row, List.mem_of_mem_filter (List.mem_of_mem_take hrow), rfl, rfl, .inl rfl⟩
  · rw [rehomeJobPage_ids]
    exact ((h.listed.remaining job).sublist (List.take_sublist _ _)).imp fun hlt => Nat.ne_of_lt hlt

theorem rehomeOutcome_withRehomeJobs (jobs : List RehomeJob) (db : Db) (job : RehomeJob) :
    rehomeOutcome A matcher (db.withRehomeJobs jobs) job = rehomeOutcome A matcher db job := by
  rw [rehomeOutcome, rehomeIds_withRehomeJobs, rehomeOutcome]
  change Except.map _ (Except.map _ (rehomeIds A matcher job.candidateRootDomain
    (db.rehomeRemaining job) job.totals db)) = _
  cases rehomeIds A matcher job.candidateRootDomain (db.rehomeRemaining job) job.totals db with
  | error e => rfl
  | ok r => rfl

/-- A job ends the same whether or not its next page is a batch of its own. -/
theorem rehomeOutcome_after_page
    (hpage : rehomeIds A matcher job.candidateRootDomain ((db.rehomeRemaining job).take n) ⟨0, 0, 0⟩
      db = .ok (totals, db'))
    (hrest : db'.rehomeRemaining (job.advance (db.rehomeJobPage job n) totals) =
      (db.rehomeRemaining job).drop n) :
    rehomeOutcome A matcher db' (job.advance (db.rehomeJobPage job n) totals) =
      rehomeOutcome A matcher db job := by
  have hcounted : rehomeIds A matcher job.candidateRootDomain ((db.rehomeRemaining job).take n)
      job.totals db = .ok (RehomeTotals.plus job.totals totals, db') := by
    refine (rehomeIds_plus _ job.totals ⟨0, 0, 0⟩ db).trans ?_
    rw [hpage]
    rfl
  have hscanned : job.mailboxesScanned + (db.rehomeJobPage job n).length +
      ((db.rehomeRemaining job).drop n).length =
        job.mailboxesScanned + (db.rehomeRemaining job).length := by
    have hlength : (db.rehomeJobPage job n).length = ((db.rehomeRemaining job).take n).length := by
      rw [← rehomeJobPage_ids, List.length_map]
    rw [hlength, Nat.add_assoc, ← List.length_append, List.take_append_drop]
  have hwhole : rehomeIds A matcher job.candidateRootDomain (db.rehomeRemaining job) job.totals db =
      rehomeIds A matcher job.candidateRootDomain ((db.rehomeRemaining job).drop n)
        (RehomeTotals.plus job.totals totals) db' := by
    conv_lhs => rw [← List.take_append_drop n (db.rehomeRemaining job)]
    rw [rehomeIds_append, hcounted]
  rw [rehomeOutcome, rehomeOutcome, hrest, hwhole, ← hscanned]
  rfl

theorem loadActiveDomainMatcher_of_domains (h : db'.domains = db.domains) :
    db'.loadActiveDomainMatcher A = db.loadActiveDomainMatcher A := by
  rw [loadActiveDomainMatcher, h, loadActiveDomainMatcher]

theorem Rehoming.withRehomeJobs (h : Rehoming A matcher db) (jobs : List RehomeJob) :
    Rehoming A matcher (db.withRehomeJobs jobs) := by
  have hedit : Edit (idRules (fun _ => False) fun _ => False) db (db.withRehomeJobs jobs) :=
    .bookkeeping
  exact ⟨h.lawful, h.stable, hedit.consistent h.consistent, ⟨h.listed.ordered, h.listed.positive⟩,
    h.domains⟩

/-- The mailboxes up to the cursor of the advanced job are done. -/
theorem behind_after_page {candidate : Option Text} (hn : 1 ≤ n) (hlisted : db.MailboxesListed)
    (hswept : Swept A matcher candidate ((db.rehomeRemaining job).take n) db db')
    (hbehind : ∀ x, start < x → x ≤ job.cursorMailboxId → x ≤ job.maxMailboxId →
      DoneAt A matcher candidate db x) (x : Nat) (hstart : start < x)
    (hcursor : x ≤ (job.advance (db.rehomeJobPage job n) totals).cursorMailboxId)
    (hmax : x ≤ job.maxMailboxId) : DoneAt A matcher candidate db' x := by
  by_cases hold : x ≤ job.cursorMailboxId
  · exact hswept.keepsDone x (hbehind x hstart hold hmax)
  · by_cases hpage : x ∈ (db.rehomeRemaining job).take n
    · exact hswept.done x hpage
    · -- no mailbox has this id: it is behind the page and not on it
      intro b hb hid
      obtain ⟨c, hc, hcid⟩ := hswept.fewerIds b hb
      have hx : x ∈ db.rehomeRemaining job :=
        mem_rehomeRemaining.mpr ⟨⟨c, hc, hcid.trans hid⟩, Nat.lt_of_not_le hold, hmax⟩
      refine absurd ?_ hpage
      rw [advance_cursor] at hcursor
      cases hlast : ((db.rehomeRemaining job).take n).getLast? with
      | none =>
        rcases List.take_eq_nil_iff.mp (List.getLast?_eq_none_iff.mp hlast) with hzero | hnil
        · omega
        · rw [hnil] at hx
          cases hx
      | some last =>
        rw [hlast] at hcursor
        exact (mem_take_iff_le (hlisted.remaining job) hlast).mpr ⟨hx, hcursor⟩

theorem updateRehomeJob_found {f : RehomeJob → RehomeJob} (hf : ∀ j, (f j).id = j.id)
    (h : db.rehomeJobs.find? (fun j => j.id = job.id) = some job) :
    (db.updateRehomeJob job.id f).rehomeJobs.find? (fun j => j.id = job.id) = some (f job) := by
  refine (find?_updateWhere hf db.rehomeJobs job.id).trans ?_
  rw [h]
  rfl

/-- A batch completes a job at its frontier. -/
theorem frontier_of_succeeded {rows : List MailboxRow}
    (h : (job.advance rows totals).status = .succeeded) :
    job.maxMailboxId ≤ (job.advance rows totals).cursorMailboxId := by
  unfold RehomeJob.advance at h ⊢
  dsimp only at h ⊢
  cases rows with
  | nil => exact Nat.le_refl _
  | cons row rows =>
    by_cases hle : job.maxMailboxId ≤ (((row :: rows).getLast?.map MailboxRow.id).getD
        job.maxMailboxId)
    · exact hle
    · rw [decide_eq_false hle] at h
      cases h

/-- A batch of a job that is not done. -/
theorem advanceRehomeJob_rehomes (h : Rehomes A matcher start db job) (hn : 1 ≤ n) :
    ∃ db' job', db.advanceRehomeJob A job n = .ok db' ∧ Rehomes A matcher start db' job' ∧
      SameWalk A matcher db job db' job' ∧
      db'.rehomeRemaining job' = (db.rehomeRemaining job).drop n ∧
      (db.rehomeRemaining job = [] → job'.status = .succeeded) := by
  have hnodup : ((db.rehomeRemaining job).take n).Nodup :=
    ((h.rehoming.listed.remaining job).sublist (List.take_sublist _ _)).imp
      fun hlt => Nat.ne_of_lt hlt
  have hpresent : ∀ x ∈ (db.rehomeRemaining job).take n, ∃ b ∈ db.mailboxes, b.id = x :=
    fun x hx => (mem_rehomeRemaining.mp (List.mem_of_mem_take hx)).1
  obtain ⟨totals, db₁, hpage, hswept⟩ :=
    rehomeIds_swept job.candidateRootDomain h.rehoming hpresent hnodup ⟨0, 0, 0⟩
  have hdomains : db₁.domains = db.domains := hswept.mailOnly.domains
  let job' := job.advance (db.rehomeJobPage job n) totals
  let jobs := updateWhere (fun j => j.id = job.id)
    (fun j => j.advance (db.rehomeJobPage job n) totals) db₁.rehomeJobs
  have hremaining : (db₁.withRehomeJobs jobs).rehomeRemaining job' =
      (db.rehomeRemaining job).drop n :=
    remaining_after_page h.rehoming.listed (hswept.rehoming.withRehomeJobs jobs).listed hn
      hswept.sameIds
  refine ⟨db₁.withRehomeJobs jobs, job', ?_, ⟨hswept.rehoming.withRehomeJobs jobs, ?_, ?_, ?_, ?_⟩,
    ⟨rfl, rfl, rfl, hdomains, ?_⟩, hremaining, ?_⟩
  · rw [advanceRehomeJob, h.loaded]
    dsimp only
    rw [h.rehoming.page, hpage]
    rfl
  · exact (loadActiveDomainMatcher_of_domains hdomains).trans h.loaded
  · have hkeeps (j : RehomeJob) : (j.advance (db.rehomeJobPage job n) totals).id = j.id := rfl
    exact updateRehomeJob_found hkeeps (hswept.mailOnly.rehomeJobs ▸ h.found)
  · intro x hstart hcursor hmax
    exact behind_after_page hn h.rehoming.listed hswept h.behind x hstart hcursor hmax
  · intro hdone
    refine List.eq_nil_iff_forall_not_mem.mpr ?_
    intro x hx
    obtain ⟨-, hlt, hle⟩ := mem_rehomeRemaining.mp hx
    have hfrontier : job.maxMailboxId ≤ job'.cursorMailboxId := frontier_of_succeeded hdone
    exact absurd (Nat.lt_of_le_of_lt hfrontier hlt) (Nat.not_lt.mpr hle)
  · rw [rehomeOutcome_withRehomeJobs]
    exact rehomeOutcome_after_page hpage hremaining
  · intro hnil
    have hrows : db.rehomeJobPage job n = [] := by
      refine List.map_eq_nil_iff.mp ((rehomeJobPage_ids db job n).trans ?_)
      rw [hnil, List.take_nil]
    change (if (_ || _) = true then _ else _) = _
    rw [hrows]
    rfl

end Batch

end Db

/-! ## Runs -/

/-- A step of a run of a job: a batch, a batch that is rolled back, or the record of a failure. -/
inductive RehomeStep where
  | batch (size : Nat)
  | rolledBack (size : Nat)
  | failed
  deriving DecidableEq, Repr

/-- A batch of a size that `_process_rehome_job_batch` takes. -/
def RehomeStep.isLegalBatch : RehomeStep → Bool
  | .batch size => decide (1 ≤ size) && decide (size ≤ Db.domainRehomeBatchSize)
  | _ => false

namespace Db

def rehomeStep (A : AddressOps) (jobId : Text) (db : Db) : RehomeStep → Db
  | .batch size =>
    match db.processRehomeJobBatch A jobId size with
    | .ok db' => db'
    | .error _ => db
  | .rolledBack _ => db
  | .failed => db.markRehomeJobFailed jobId

def rehomeRun (A : AddressOps) (jobId : Text) (steps : List RehomeStep) (db : Db) : Db :=
  steps.foldl (rehomeStep A jobId) db

section Runs

variable {db db' db'' : Db} {A : AddressOps} {matcher : DomainMatcher} {start : Nat}
  {job job' job'' : RehomeJob}

theorem SameWalk.refl (db : Db) (job : RehomeJob) : SameWalk A matcher db job db job :=
  ⟨rfl, rfl, rfl, rfl, rfl⟩

theorem SameWalk.trans (h : SameWalk A matcher db job db' job')
    (h' : SameWalk A matcher db' job' db'' job'') : SameWalk A matcher db job db'' job'' :=
  ⟨h'.id.trans h.id, h'.candidate.trans h.candidate, h'.frontier.trans h.frontier,
    h'.domains.trans h.domains, h'.outcome.trans h.outcome⟩

/-- A job is done, or its walk is shorter by a mailbox for each of `n` batches. -/
def WalkedBy (n : Nat) (db : Db) (job : RehomeJob) (db' : Db) (job' : RehomeJob) : Prop :=
  job'.status = .succeeded ∨
    (job.status ≠ .succeeded ∧ (db'.rehomeRemaining job').length + n ≤ (db.rehomeRemaining job).length)

/-- A step that walks no further. -/
theorem WalkedBy.stay (hremaining : db'.rehomeRemaining job' = db.rehomeRemaining job)
    (hstatus : job.status = .succeeded → job'.status = .succeeded) : WalkedBy 0 db job db' job' := by
  by_cases hdone : job.status = .succeeded
  · exact .inl (hstatus hdone)
  · exact .inr ⟨hdone, Nat.le_of_eq (congrArg List.length hremaining)⟩

theorem WalkedBy.trans {n n' : Nat} (h : WalkedBy n db job db' job')
    (h' : WalkedBy n' db' job' db'' job'') : WalkedBy (n + n') db job db'' job'' := by
  rcases h' with hdone | ⟨hopen, hle'⟩
  · exact .inl hdone
  · rcases h with hdone | ⟨hopen', hle⟩
    · exact absurd hdone hopen
    · exact .inr ⟨hopen', by omega⟩

/-- The status of a job plays no part in its walk. -/
theorem Rehomes.withStatus (h : Rehomes A matcher start db job) {jobs : List RehomeJob}
    {status : JobStatus} (hstatus : status = .succeeded → job.status = .succeeded)
    (hfound : jobs.find? (fun j => j.id = job.id) = some { job with status }) :
    Rehomes A matcher start (db.withRehomeJobs jobs) { job with status } ∧
      SameWalk A matcher db job (db.withRehomeJobs jobs) { job with status } := by
  refine ⟨⟨h.rehoming.withRehomeJobs jobs, h.loaded, hfound, h.behind, ?_⟩, rfl, rfl, rfl, rfl, ?_⟩
  · intro hdone
    exact h.finished (hstatus hdone)
  · rw [rehomeOutcome_withRehomeJobs]
    rfl

theorem markRehomeJobFailed_rehomes (h : Rehomes A matcher start db job) :
    ∃ job', Rehomes A matcher start (db.markRehomeJobFailed job.id) job' ∧
      SameWalk A matcher db job (db.markRehomeJobFailed job.id) job' ∧
      (db.markRehomeJobFailed job.id).rehomeRemaining job' = db.rehomeRemaining job ∧
      (job'.status = .succeeded ↔ job.status = .succeeded) := by
  have hkeeps (j : RehomeJob) :
      (if j.status = .succeeded then j else { j with status := .failed }).id = j.id := by
    split
    · rfl
    · rfl
  have hfound := updateRehomeJob_found hkeeps h.found
  by_cases hdone : job.status = .succeeded
  · rw [if_pos hdone] at hfound
    obtain ⟨hrehomes, hsame⟩ := h.withStatus id hfound
    exact ⟨job, hrehomes, hsame, rfl, Iff.rfl⟩
  · rw [if_neg hdone] at hfound
    have hfailed : JobStatus.failed = .succeeded → job.status = .succeeded := nofun
    obtain ⟨hrehomes, hsame⟩ := h.withStatus hfailed hfound
    exact ⟨_, hrehomes, hsame, rfl, nofun, fun hsucceeded => absurd hsucceeded hdone⟩

/-- A batch of an illegal size, and a batch of a job that is done, change nothing. -/
theorem rehomeStep_batch (h : db.rehomeJobs.find? (fun j => j.id = job.id) = some job) (size : Nat) :
    rehomeStep A job.id db (.batch size) =
      if (RehomeStep.batch size).isLegalBatch = true ∧ job.status ≠ .succeeded then
        match db.advanceRehomeJob A job size with
        | .ok db' => db'
        | .error _ => db
      else db := by
  rw [rehomeStep, processRehomeJobBatch, h]
  by_cases hlegal : 1 ≤ size ∧ size ≤ domainRehomeBatchSize
  · have hsize : (decide (size < 1) || decide (domainRehomeBatchSize < size)) = false := by
      simp only [Bool.or_eq_false_iff, decide_eq_false_iff_not]
      omega
    rw [hsize, if_neg nofun]
    by_cases hdone : job.status = .succeeded
    · simp [hdone]
    · simp [RehomeStep.isLegalBatch, hlegal, hdone]
  · have hsize : (decide (size < 1) || decide (domainRehomeBatchSize < size)) = true := by
      simp only [Bool.or_eq_true, decide_eq_true_eq]
      omega
    rw [hsize, if_pos rfl]
    simp [RehomeStep.isLegalBatch, hlegal]

theorem rehomeStep_batch_rehomes (h : Rehomes A matcher start db job) (size : Nat) :
    ∃ job', Rehomes A matcher start (rehomeStep A job.id db (.batch size)) job' ∧
      SameWalk A matcher db job (rehomeStep A job.id db (.batch size)) job' ∧
      WalkedBy (RehomeStep.batch size).isLegalBatch.toNat db job
        (rehomeStep A job.id db (.batch size)) job' := by
  rw [rehomeStep_batch h.found]
  by_cases hruns : (RehomeStep.batch size).isLegalBatch = true ∧ job.status ≠ .succeeded
  · rw [if_pos hruns, hruns.1]
    have hsize : 1 ≤ size := by
      have hlegal := hruns.1
      simp only [RehomeStep.isLegalBatch, Bool.and_eq_true, decide_eq_true_eq] at hlegal
      exact hlegal.1
    obtain ⟨db', job', hok, hrehomes, hsame, hremaining, hlast⟩ := advanceRehomeJob_rehomes h hsize
    rw [hok]
    refine ⟨job', hrehomes, hsame, ?_⟩
    cases hwalk : db.rehomeRemaining job with
    | nil => exact .inl (hlast hwalk)
    | cons x xs =>
      refine .inr ⟨hruns.2, ?_⟩
      rw [hremaining, hwalk, List.length_drop, Bool.toNat_true, List.length_cons]
      omega
  · rw [if_neg hruns]
    refine ⟨job, h, .refl db job, ?_⟩
    by_cases hdone : job.status = .succeeded
    · exact .inl hdone
    · have hillegal : (RehomeStep.batch size).isLegalBatch = false :=
        eq_false_of_ne_true fun hlegal => hruns ⟨hlegal, hdone⟩
      rw [hillegal]
      exact .stay rfl id

/-- A step of a run. -/
theorem rehomeStep_rehomes (h : Rehomes A matcher start db job) (step : RehomeStep) :
    ∃ job', Rehomes A matcher start (rehomeStep A job.id db step) job' ∧
      SameWalk A matcher db job (rehomeStep A job.id db step) job' ∧
      WalkedBy step.isLegalBatch.toNat db job (rehomeStep A job.id db step) job' := by
  cases step with
  | batch size => exact rehomeStep_batch_rehomes h size
  | rolledBack size => exact ⟨job, h, .refl db job, .stay rfl id⟩
  | failed =>
    obtain ⟨job', hrehomes, hsame, hremaining, hstatus⟩ := markRehomeJobFailed_rehomes h
    exact ⟨job', hrehomes, hsame, .stay hremaining hstatus.mpr⟩

/-- A run. -/
theorem rehomeRun_rehomes (h : Rehomes A matcher start db job) (steps : List RehomeStep) :
    ∃ job', Rehomes A matcher start (rehomeRun A job.id steps db) job' ∧
      SameWalk A matcher db job (rehomeRun A job.id steps db) job' ∧
      WalkedBy (steps.countP RehomeStep.isLegalBatch) db job (rehomeRun A job.id steps db) job' := by
  induction steps generalizing db job with
  | nil => exact ⟨job, h, .refl db job, .stay rfl id⟩
  | cons step steps ih =>
    obtain ⟨job₁, hrehomes₁, hsame₁, hwalked₁⟩ := rehomeStep_rehomes h step
    obtain ⟨job', hrehomes, hsame, hwalked⟩ := ih hrehomes₁
    rw [hsame₁.id] at hrehomes hsame hwalked
    refine ⟨job', hrehomes, hsame₁.trans hsame, ?_⟩
    have hcount : (step :: steps).countP RehomeStep.isLegalBatch =
        step.isLegalBatch.toNat + steps.countP RehomeStep.isLegalBatch := by
      rw [List.countP_cons, Nat.add_comm]
      cases step.isLegalBatch with
      | false => rfl
      | true => rfl
    rw [hcount]
    exact hwalked₁.trans hwalked

/-! ## After a run -/

theorem rehomeOne_done {candidate : Option Text} (hdb : db.Consistent) {b : MailboxRow}
    (hb : b ∈ db.mailboxes) (h : DoneAt A matcher candidate db b.id) :
    rehomeOne A matcher candidate b.id db = .ok (⟨b.id, false, 0, 0⟩, db) := by
  rw [rehomeOne, mailbox?_eq_some hdb hb]
  dsimp only
  by_cases hsource : db.isCandidateSource candidate b.domainId = true
  · exact rehomeRow_settled hdb hb rfl rfl (h b hb rfl hsource)
  · rw [rehomeRow, eq_false_of_ne_true hsource]
    rfl

theorem rehomeIds_done {candidate : Option Text} {ids : List Nat} (hdb : db.Consistent)
    (hids : ∀ x ∈ ids, ∃ b ∈ db.mailboxes, b.id = x)
    (h : ∀ x ∈ ids, DoneAt A matcher candidate db x) (totals : RehomeTotals) :
    rehomeIds A matcher candidate ids totals db = .ok (totals, db) := by
  induction ids with
  | nil => rfl
  | cons x ids ih =>
    obtain ⟨b, hb, rfl⟩ := hids x List.mem_cons_self
    rw [rehomeIds, rehomeOne_done hdb hb (h _ List.mem_cons_self)]
    exact ih (fun y hy => hids y (List.mem_cons_of_mem _ hy))
      fun y hy => h y (List.mem_cons_of_mem _ hy)

/-- Where every mailbox up to the frontier is done, a step changes the table of jobs at most. -/
theorem rehomeStep_done (h : Rehomes A matcher start db job)
    (hdone : ∀ x ≤ job.maxMailboxId, DoneAt A matcher job.candidateRootDomain db x)
    (step : RehomeStep) : ∃ jobs, rehomeStep A job.id db step = db.withRehomeJobs jobs := by
  cases step with
  | rolledBack size => exact ⟨db.rehomeJobs, rfl⟩
  | failed => exact ⟨_, rfl⟩
  | batch size =>
    rw [rehomeStep_batch h.found]
    split
    · have hremaining (x : Nat) (hx : x ∈ (db.rehomeRemaining job).take size) :=
        mem_rehomeRemaining.mp (List.mem_of_mem_take hx)
      rw [advanceRehomeJob, h.loaded]
      dsimp only
      rw [h.rehoming.page, rehomeIds_done h.rehoming.consistent (fun x hx => (hremaining x hx).1)
        fun x hx => hdone x (hremaining x hx).2.2]
      exact ⟨_, rfl⟩
    · exact ⟨db.rehomeJobs, rfl⟩

theorem rehomeRun_done (h : Rehomes A matcher start db job)
    (hdone : ∀ x ≤ job.maxMailboxId, DoneAt A matcher job.candidateRootDomain db x)
    (steps : List RehomeStep) : ∃ jobs, rehomeRun A job.id steps db = db.withRehomeJobs jobs := by
  induction steps generalizing db job with
  | nil => exact ⟨db.rehomeJobs, rfl⟩
  | cons step steps ih =>
    obtain ⟨job₁, hrehomes, hsame, -⟩ := rehomeStep_rehomes h step
    obtain ⟨jobs₁, hstep⟩ := rehomeStep_done h hdone step
    have hdone₁ : ∀ x ≤ job₁.maxMailboxId,
        DoneAt A matcher job₁.candidateRootDomain (rehomeStep A job.id db step) x := by
      rw [hsame.frontier, hsame.candidate, hstep]
      exact hdone
    obtain ⟨jobs, hrun⟩ := ih hrehomes hdone₁
    rw [hsame.id] at hrun
    refine ⟨jobs, hrun.trans ?_⟩
    rw [hstep]
    rfl

/-- The job, as it is in the tables. -/
def rehomeReport (db : Db) (jobId : Text) : Option RehomeOutcome :=
  (db.rehomeJobs.find? fun j => j.id = jobId).map db.rehomeProgress

/-- The job has succeeded. -/
def rehomeSucceeded (db : Db) (jobId : Text) : Bool :=
  db.rehomeJobs.find? (fun j => j.id = jobId) |>.any fun j => j.status = .succeeded

/-- A job that is about to run. -/
theorem rehomes_of_open (hA : A.Lawful) (hU : A.unicode.LowerStable) (hdb : db.Consistent)
    (hlisted : db.MailboxesListed) (hroots : db.RootsNormalized)
    (hjob : db.rehomeJobs.find? (fun j => j.id = job.id) = some job)
    (hopen : job.status ≠ .succeeded) :
    ∃ matcher, Rehomes A matcher job.cursorMailboxId db job := by
  have hloaded : db.loadActiveDomainMatcher A =
      .ok ⟨(db.domains.filter fun d => d.policy.isActive).map DomainRow.rule⟩ := by
    rw [loadActiveDomainMatcher, DomainMatcher.ofRules?_eq hA]
    intro rule hrule
    obtain ⟨d, hd, rfl⟩ := List.mem_map.mp hrule
    exact hroots d (List.mem_of_mem_filter hd)
  refine ⟨_, ⟨hA, hU, hdb, hlisted, ?_⟩, hloaded, hjob, ?_, fun hdone => absurd hdone hopen⟩
  · intro address m hm
    obtain ⟨d, hd, hid, -⟩ := loadActiveDomainMatcher_hasDomain hA hloaded hm hroots
    exact ⟨d, hd, hid⟩
  · intro x hlt hle
    omega

/-- A job that has succeeded has done what it had to do. -/
theorem Rehomes.progress (h : Rehomes A matcher start db job) (hdone : job.status = .succeeded) :
    rehomeOutcome A matcher db job = .ok (db.rehomeProgress job) :=
  rehomeOutcome_of_done (h.finished hdone)

/-- A job that walked from the start has done every mailbox up to its frontier. -/
theorem Rehomes.allDone (h : Rehomes A matcher 0 db job) (hdone : job.status = .succeeded) {x : Nat}
    (hx : x ≤ job.maxMailboxId) : DoneAt A matcher job.candidateRootDomain db x := by
  intro b hb hid hsource
  by_cases hcursor : x ≤ job.cursorMailboxId
  · exact h.behind x (hid ▸ h.rehoming.listed.positive b hb) hcursor hx b hb hid hsource
  · have hleft : x ∈ db.rehomeRemaining job :=
      mem_rehomeRemaining.mpr ⟨⟨b, hb, hid⟩, Nat.lt_of_not_le hcursor, hx⟩
    rw [h.finished hdone] at hleft
    cases hleft

/-- One batch that is large enough for every mailbox. -/
theorem advanceRehomeJob_whole (h : Rehomes A matcher start db job) {n : Nat} (hn : 1 ≤ n)
    (hlarge : db.mailboxes.length ≤ n) :
    ∃ one job', db.advanceRehomeJob A job n = .ok one ∧ one.rehomeReport job.id =
      some (one.rehomeProgress job') ∧
      rehomeOutcome A matcher db job = .ok (one.rehomeProgress job') := by
  obtain ⟨one, job', hok, hrehomes, hsame, hremaining, -⟩ := advanceRehomeJob_rehomes h hn
  have hnil : one.rehomeRemaining job' = [] := by
    rw [hremaining, List.drop_eq_nil_iff, rehomeRemaining, List.length_map]
    exact Nat.le_trans (List.length_filter_le _ _) hlarge
  refine ⟨one, job', hok, ?_, ?_⟩
  · rw [rehomeReport, ← hsame.id, hrehomes.found]
    rfl
  · rw [← hsame.outcome]
    exact rehomeOutcome_of_done hnil

/-- However a job is cut into batches, and whatever batches are rolled back or fail, it succeeds
    once it had enough of them, and ends with the tables and totals of one batch that is large
    enough for everything.  A job that walked from the start leaves no mailbox of a candidate source
    to be promoted, and a second job for the same candidate changes nothing. -/
theorem rehome_job_fixpoint (hA : A.Lawful) (hU : A.unicode.LowerStable) (hdb : db.Consistent)
    (hlisted : db.MailboxesListed) (hroots : db.RootsNormalized)
    (hjob : db.rehomeJobs.find? (fun j => j.id = job.id) = some job)
    (hopen : job.status ≠ .succeeded) (steps : List RehomeStep) :
    (db.mailboxes.length < steps.countP RehomeStep.isLegalBatch →
      (rehomeRun A job.id steps db).rehomeSucceeded job.id = true) ∧
    ((rehomeRun A job.id steps db).rehomeSucceeded job.id = true →
      (∀ n, 1 ≤ n → db.mailboxes.length ≤ n → ∃ one, db.advanceRehomeJob A job n = .ok one ∧
        (rehomeRun A job.id steps db).rehomeReport job.id = one.rehomeReport job.id) ∧
      (job.cursorMailboxId = 0 → ∃ matcher,
        (rehomeRun A job.id steps db).loadActiveDomainMatcher A = .ok matcher ∧
        (∀ b ∈ (rehomeRun A job.id steps db).mailboxes, b.id ≤ job.maxMailboxId →
          (rehomeRun A job.id steps db).isCandidateSource job.candidateRootDomain b.domainId = true →
          Settled A matcher (rehomeRun A job.id steps db) b) ∧
        ∀ (jobs : List RehomeJob) (second : RehomeJob),
          jobs.find? (fun j => j.id = second.id) = some second → second.status ≠ .succeeded →
          second.candidateRootDomain = job.candidateRootDomain →
          second.maxMailboxId ≤ job.maxMailboxId → ∀ steps', ∃ jobs',
            rehomeRun A second.id steps' ((rehomeRun A job.id steps db).withRehomeJobs jobs) =
              (rehomeRun A job.id steps db).withRehomeJobs jobs')) := by
  obtain ⟨matcher, hstart⟩ := rehomes_of_open hA hU hdb hlisted hroots hjob hopen
  obtain ⟨job', hrehomes, hsame, hwalked⟩ := rehomeRun_rehomes hstart steps
  generalize rehomeRun A job.id steps db = final at hrehomes hsame hwalked ⊢
  have hfound : final.rehomeJobs.find? (fun j => j.id = job.id) = some job' := by
    rw [← hsame.id]
    exact hrehomes.found
  have hsucceeded : final.rehomeSucceeded job.id = true ↔ job'.status = .succeeded := by
    rw [rehomeSucceeded, hfound]
    simp
  rw [hsucceeded]
  refine ⟨?_, fun hdone => ⟨?_, ?_⟩⟩
  · intro henough
    rcases hwalked with hdone | ⟨-, hle⟩
    · exact hdone
    · have hshort : (db.rehomeRemaining job).length ≤ db.mailboxes.length := by
        rw [rehomeRemaining, List.length_map]
        exact List.length_filter_le _ _
      omega
  · intro n hn hlarge
    obtain ⟨one, job₁, hone, hreport, houtcome⟩ := advanceRehomeJob_whole hstart hn hlarge
    refine ⟨one, hone, ?_⟩
    have hagree : Except.ok (final.rehomeProgress job') = Except.ok (one.rehomeProgress job₁) :=
      (hrehomes.progress hdone).symm.trans (hsame.outcome.trans houtcome)
    rw [hreport, rehomeReport, hfound]
    exact congrArg some (Except.ok.inj hagree)
  · intro hzero
    rw [hzero] at hrehomes
    have hall (x : Nat) (hx : x ≤ job.maxMailboxId) :
        DoneAt A matcher job.candidateRootDomain final x := by
      rw [← hsame.candidate]
      exact hrehomes.allDone hdone (hsame.frontier ▸ hx)
    refine ⟨matcher, hrehomes.loaded, fun b hb hle => hall b.id hle b hb rfl, ?_⟩
    intro jobs second hsecond hsecondOpen hcandidate hfrontier steps'
    have hagain : Rehomes A matcher second.cursorMailboxId (final.withRehomeJobs jobs) second := by
      refine ⟨hrehomes.rehoming.withRehomeJobs jobs, hrehomes.loaded, hsecond, ?_,
        fun hdone' => absurd hdone' hsecondOpen⟩
      intro x hlt hle
      omega
    have hquiet : ∀ x ≤ second.maxMailboxId,
        DoneAt A matcher second.candidateRootDomain (final.withRehomeJobs jobs) x := by
      rw [hcandidate]
      exact fun x hx => hall x (Nat.le_trans hx hfrontier)
    exact rehomeRun_done hagain hquiet steps'

/-- A job for the managed domain of `splitMailbox`. -/
def rehomeSampleJob : RehomeJob :=
  ⟨"job".toList, some "b.example".toList, .pending, 0, 2, 0, 0, 0, 0⟩

def rehomeSample : Db := (splitMailbox .active none none).withRehomeJobs [rehomeSampleJob]

/-- The first mailbox is promoted in a batch of its own, after one that was rolled back. -/
theorem rehome_job_fixpoint_split :
    (rehomeRun (pyAddressOps .asciiOnly) rehomeSampleJob.id
      [.rolledBack 2, .batch 1, .failed, .batch 1, .batch 1] rehomeSample).rehomeSucceeded
        rehomeSampleJob.id = true ∧
    ∃ one, rehomeSample.advanceRehomeJob (pyAddressOps .asciiOnly) rehomeSampleJob 2 = .ok one ∧
      (rehomeRun (pyAddressOps .asciiOnly) rehomeSampleJob.id
        [.rolledBack 2, .batch 1, .failed, .batch 1, .batch 1] rehomeSample).rehomeReport
          rehomeSampleJob.id = one.rehomeReport rehomeSampleJob.id := by
  have hlisted : rehomeSample.MailboxesListed :=
    ⟨by simp [rehomeSample, withRehomeJobs, splitMailbox, splitSource, splitTarget, splitRow],
      by simp [rehomeSample, withRehomeJobs, splitMailbox, splitSource, splitTarget, splitRow]⟩
  have hcons : rehomeSample.Consistent := { splitMailbox_consistent .active none none with }
  have hjob : rehomeSample.rehomeJobs.find? (fun j => j.id = rehomeSampleJob.id) =
      some rehomeSampleJob := by decide +kernel
  have hfix := rehome_job_fixpoint (pyAddressOps_lawful .asciiOnly) asciiOnly_lowerStable hcons
    hlisted (rootsNormalized_of_fixed (pyAddressOps_lawful .asciiOnly) (by decide +kernel)) hjob
    (by decide) [.rolledBack 2, .batch 1, .failed, .batch 1, .batch 1]
  have hdone := hfix.1 (by decide +kernel)
  exact ⟨hdone, (hfix.2 hdone).1 2 (by decide) (by decide +kernel)⟩

end Runs

end Db
end RapidInbox
