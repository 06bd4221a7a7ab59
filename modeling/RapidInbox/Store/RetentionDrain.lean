import RapidInbox.Ingest.ParseQueue
import RapidInbox.Store.Retention

/-!
# Retention and the parser

`_cleanup_expired_messages_operation` (`runtime.py:436-486`) takes a snapshot, removes the queued
parse tasks of the messages it expects to orphan, waits for their active parses and then runs the
delete transaction.  The store lock keeps recovery, clear-all and other clean-ups out; the daemon,
the API and the rehome jobs go on writing.
-/

namespace RapidInbox

open Table

/-! ## The clean-up among other tasks -/

/-- `candidate_message_ids` of `_expiration_batch_snapshot`: the messages whose deliveries are all in
    the batch. -/
def Db.candidateMessageIds (db : Db) (now : Timestamp) (limit : Nat) : List Text :=
  let batch := db.expirationBatchSnapshot now limit
  ((batch.map RetentionEntry.messageId).filter fun id =>
    batch.countP (fun e => e.messageId = id) = db.deliveries.countP fun d => d.messageId = id).dedup

structure MailStore where
  db : Db
  parseQueue : ParseQueue

/-- What may happen between two steps of the clean-up. -/
inductive StoreEvent where
  | write (w : MailWrite)
  | enqueue (task : ParseTask)
  | begin
  | finish (task : ParseTask)

namespace MailStore

def step (E : StoreEnv) (s : MailStore) : StoreEvent → MailStore
  | .write w => { s with db := s.db.write E w }
  | .enqueue task => { s with parseQueue := (s.parseQueue.tryEnqueue task).2 }
  | .begin => { s with parseQueue := s.parseQueue.begin }
  | .finish task => { s with parseQueue := s.parseQueue.finish task }

def run (E : StoreEnv) (s : MailStore) (events : List StoreEvent) : MailStore :=
  events.foldl (step E) s

/-- `remove_pending` of the candidates. -/
def removePending (s : MailStore) (candidates : List Text) : MailStore :=
  { s with
    parseQueue :=
      (s.parseQueue.removePending fun task => decide (task.messageId ∈ candidates)).2 }

/-- The candidates are not being parsed: `wait_until_not_active` returns. -/
def quiet (s : MailStore) (candidates : List Text) : Bool :=
  !s.parseQueue.isActive fun id => decide (id ∈ candidates)

/-- The clean-up from its snapshot to the delete transaction, with the events before the tasks are
    removed, during the wait and after it; `none` while a candidate is being parsed. -/
def drain (E : StoreEnv) (s : MailStore) (now : Timestamp) (limit : Nat)
    (before during after : List StoreEvent) : Option MailStore :=
  let candidates := s.db.candidateMessageIds now limit
  let waited := ((s.run E before).removePending candidates).run E during
  if waited.quiet candidates then some (waited.run E after) else none

end MailStore

/-! ## The tables along the events -/

/-- The writes among the events. -/
def StoreEvent.write? : StoreEvent → Option MailWrite
  | .write w => some w
  | _ => none

/-- The writes of the daemon, the API, the parser and the jobs, in order. -/
def writesOf (events : List StoreEvent) : List MailWrite := events.filterMap StoreEvent.write?

namespace MailStore

variable {E : StoreEnv} {s s' : MailStore} {now : Timestamp} {limit : Nat}
  {events before during after : List StoreEvent}

theorem run_db : (s.run E events).db = s.db.writes E (writesOf events) := by
  induction events generalizing s with
  | nil => rfl
  | cons event events ih =>
    rw [run, List.foldl_cons]
    refine ih.trans ?_
    cases event <;> rfl

theorem drain_db (h : s.drain E now limit before during after = some s') :
    s'.db = s.db.writes E (writesOf (before ++ during ++ after)) := by
  unfold drain at h
  dsimp only at h
  split at h
  · cases h
    rw [run_db, run_db]
    change Db.writes E (Db.writes E (s.run E before).db _) _ = _
    rw [run_db]
    simp [writesOf, Db.writes]
  · cases h

end MailStore

/-! ## Siblings -/

namespace Db

variable {E : StoreEnv} {db : Db} {now : Timestamp} {limit : Nat} {batch : List RetentionEntry}

/-- A message of the batch that is no candidate has a delivery outside the batch. -/
theorem exists_sibling (hdb : db.Consistent) {messageId : Text}
    (hmsg : messageId ∈ (db.expirationBatchSnapshot now limit).map RetentionEntry.messageId)
    (hnot : messageId ∉ db.candidateMessageIds now limit) :
    ∃ d ∈ db.deliveries, d.messageId = messageId ∧
      d.id ∉ (db.expirationBatchSnapshot now limit).map RetentionEntry.id := by
  by_contra hnone
  push Not at hnone
  apply hnot
  refine List.mem_dedup.mpr (List.mem_filter.mpr ⟨hmsg, decide_eq_true ?_⟩)
  set rows := ((db.deliveries.filter fun d => isDue d now).insertionSort
    fun a b => dueBefore a b).take limit with hrows
  have hbatch : db.expirationBatchSnapshot now limit =
      rows.map fun d => ⟨d.id, d.messageId, d.mailboxId, d.status⟩ := rfl
  rw [hbatch, List.countP_map, List.countP_eq_length_filter, List.countP_eq_length_filter]
  apply List.Perm.length_eq
  -- both lists hold the deliveries of the message, each once
  have hnodup : db.deliveries.Nodup := List.Nodup.of_map _ hdb.delivery_ids
  have hsub (d : DeliveryRow) (hd : d ∈ rows) : d ∈ db.deliveries := by
    have hsorted := List.mem_of_mem_take hd
    rw [List.mem_insertionSort] at hsorted
    exact List.mem_of_mem_filter hsorted
  have hrowsNodup : rows.Nodup := (List.take_sublist limit _).nodup
    ((List.perm_insertionSort _ _).nodup_iff.mpr (hnodup.filter _))
  rw [List.perm_ext_iff_of_nodup (hrowsNodup.filter _) (hnodup.filter _)]
  intro d
  simp only [List.mem_filter, Function.comp_apply, decide_eq_true_iff]
  constructor
  · rintro ⟨hd, hid⟩
    exact ⟨hsub d hd, hid⟩
  · rintro ⟨hd, hid⟩
    refine ⟨?_, hid⟩
    have hin := hnone d hd hid
    rw [hbatch, List.map_map] at hin
    obtain ⟨d', hd', heq⟩ := List.mem_map.mp hin
    rwa [← hdb.delivery_ids.eq_of_mem (hsub d' hd') hd heq]

/-- A delivery outside the batch, of a message with a delivery in the batch. -/
def IsSibling (batch : List RetentionEntry) (d : DeliveryRow) : Prop :=
  d.id ∉ batch.map RetentionEntry.id ∧ d.messageId ∈ batch.map RetentionEntry.messageId

/-- A step leaves the siblings of the batch in the table. -/
def SiblingsKept (batch : List RetentionEntry) (db db' : Db) : Prop :=
  ∀ d ∈ db.deliveries, IsSibling batch d →
    ∃ d' ∈ db'.deliveries, d'.id = d.id ∧ d'.messageId = d.messageId

/-- No write of a list removes a sibling of the batch. -/
def SparesSiblings (E : StoreEnv) (batch : List RetentionEntry) : Db → List MailWrite → Prop
  | _, [] => True
  | db, w :: ws => db.SiblingsKept batch (db.write E w) ∧ SparesSiblings E batch (db.write E w) ws

theorem SparesSiblings.kept {ws : List MailWrite} (h : SparesSiblings E batch db ws) :
    db.SiblingsKept batch (db.writes E ws) := by
  induction ws generalizing db with
  | nil => exact fun d hd _ => ⟨d, hd, rfl, rfl⟩
  | cons w ws ih =>
    intro d hd hsib
    obtain ⟨d₁, hd₁, hid₁, hmsg₁⟩ := h.1 d hd hsib
    have hsib₁ : IsSibling batch d₁ := by
      unfold IsSibling
      rw [hid₁, hmsg₁]
      exact hsib
    obtain ⟨d₂, hd₂, hid₂, hmsg₂⟩ := ih h.2 d₁ hd₁ hsib₁
    exact ⟨d₂, hd₂, hid₂.trans hid₁, hmsg₂.trans hmsg₁⟩

/-- A message that loses its last delivery to the batch has no sibling left. -/
theorem losesLast_no_sibling {messageId : Text} (h : db.losesLast now batch messageId) {d : DeliveryRow}
    (hd : d ∈ db.deliveries) (hmsg : d.messageId = messageId) :
    d.id ∈ batch.map RetentionEntry.id := by
  obtain ⟨e, he, hid, -⟩ := expires_iff.mp ((losesLast_iff.mp h).2 d hd hmsg)
  exact List.mem_map.mpr ⟨e, he, hid⟩

end Db

/-! ## The clean-up -/

section Cleanup

variable {E : StoreEnv} {s s' : MailStore} {now : Timestamp} {limit : Nat}
  {before during after : List StoreEvent} {c : RetentionConnection}

/-- The messages that a transaction removed are among the candidates. -/
def RemovesOnly (candidates : List Text) (db db' : Db) : Prop :=
  ∀ m ∈ db.messages, m ∉ db'.messages → m.id ∈ candidates

/-- When the delete transaction starts, no task of a candidate was left in the queue after
    `remove_pending`, and no candidate was being parsed at the end of the wait. -/
def MailStore.Awaited (E : StoreEnv) (s : MailStore) (candidates : List Text)
    (before during : List StoreEvent) : Prop :=
  let drained := (s.run E before).removePending candidates
  (∀ task, some task ∈ drained.parseQueue.queue → task.messageId ∉ candidates) ∧
    ∀ id ∈ (drained.run E during).parseQueue.activeMessageIds, id ∉ candidates

theorem ParseQueue.foldl_release_queue (tasks : List ParseTask) (q : ParseQueue) :
    (tasks.foldl release q).queue = q.queue := by
  induction tasks generalizing q with
  | nil => rfl
  | cons task tasks ih => exact ih (q.release task)

theorem MailStore.drain_awaited (h : s.drain E now limit before during after = some s') :
    s.Awaited E (s.db.candidateMessageIds now limit) before during := by
  unfold drain at h
  dsimp only at h
  split at h
  · rename_i hquiet
    constructor
    · intro task htask
      change some task ∈ (List.foldl ParseQueue.release _ _).queue at htask
      rw [ParseQueue.foldl_release_queue] at htask
      simpa using (List.mem_filter.mp htask).2
    · intro id hid
      unfold quiet ParseQueue.isActive at hquiet
      rw [Bool.not_eq_true', List.any_eq_false] at hquiet
      simpa using hquiet id hid
  · cases h

/-- In every run of the clean-up in which no other write removes a sibling of the batch, every message
    that the delete transaction removes is one of the candidates whose tasks were removed and whose
    parses were awaited. -/
theorem retention_awaits_parsing (hstart : s.db.Consistent)
    (hdrain : s.drain E now limit before during after = some s') (hc : c.db = s'.db)
    (hids : ∀ w ∈ writesOf (before ++ during ++ after),
      w.KeepsIds (s.db.expirationBatchSnapshot now limit))
    (hspare : Db.SparesSiblings E (s.db.expirationBatchSnapshot now limit) s.db
      (writesOf (before ++ during ++ after)))
    (fault : Nat → Option DbError) (refreshedAt cutoff : Timestamp) :
    RemovesOnly (s.db.candidateMessageIds now limit) c.db
        (c.execute (expireTransaction fault now refreshedAt cutoff limit
          (s.db.expirationBatchSnapshot now limit))).db ∧
      s.Awaited E (s.db.candidateMessageIds now limit) before during := by
  refine ⟨?_, MailStore.drain_awaited hdrain⟩
  intro m hm hgone
  by_contra hnot
  set batch := s.db.expirationBatchSnapshot now limit with hbatch
  have hdb : c.db = s.db.writes E (writesOf (before ++ during ++ after)) :=
    hc.trans (MailStore.drain_db hdrain)
  obtain ⟨hcommit, hfail, -⟩ := retention_transaction hstart hids hdb fault refreshedAt cutoff
  cases hrun : expireTransaction fault now refreshedAt cutoff limit batch c with
  | error e => exact hgone (by rwa [hfail e hrun])
  | ok c' =>
    obtain ⟨hexec, hretired, -⟩ := hcommit c' hrun
    rw [hexec, hretired.messages, List.mem_filter, not_and] at hgone
    have hlast : c.db.losesLast now batch m.id := by simpa using hgone hm
    obtain ⟨⟨d, hd, hmsg, hexp⟩, -⟩ := Db.losesLast_iff.mp hlast
    have hconsistent : c.db.NamesMessages batch := hdb ▸ Db.writes_namesMessages hstart hids
      (expirationBatchSnapshot_namesMessages hstart now limit)
    obtain ⟨e, he, hid, -⟩ := Db.expires_iff.mp hexp
    have hmem : m.id ∈ batch.map RetentionEntry.messageId :=
      List.mem_map.mpr ⟨e, he, (hconsistent e he d hd hid.symm).symm.trans hmsg⟩
    obtain ⟨sibling, hsib, hsibMsg, hout⟩ := Db.exists_sibling hstart hmem hnot
    obtain ⟨kept, hkept, hkeptId, hkeptMsg⟩ :=
      hspare.kept sibling hsib ⟨hout, hsibMsg.symm ▸ hmem⟩
    rw [← hdb] at hkept
    have hin := Db.losesLast_no_sibling hlast hkept (hkeptMsg.trans hsibMsg)
    exact hout (hkeptId ▸ hin)

/-- The clean-up goes on when no candidate is being parsed. -/
theorem MailStore.drain_of_quiet {candidates : List Text}
    (hcand : s.db.candidateMessageIds now limit = candidates)
    (hquiet : (((s.run E before).removePending candidates).run E during).quiet candidates = true) :
    s.drain E now limit before during after =
      some ((((s.run E before).removePending candidates).run E during).run E after) := by
  subst hcand
  exact if_pos hquiet

/-- A message to two addresses of the catch-all domain, deleted in both mailboxes, and another that is
    deleted in one of two, while a domain that drops the `+` part has been created. -/
def siblingStart : List StoreOp :=
  [.syncCatchAll true false false none 1000,
   .commit [sampleJob "m1" 10 [sampleRecipient "d1" (sampleMatch 1 "*" "u" "example.com"),
     sampleRecipient "d2" (sampleMatch 1 "*" "u+t" "example.com")]],
   .commit [sampleJob "m3" 11 [sampleRecipient "d4" (sampleMatch 1 "*" "v" "example.com"),
     sampleRecipient "d5" (sampleMatch 1 "*" "w" "example.com")]],
   .deleteDeliveries ["d1".toList, "d2".toList, "d4".toList] 20,
   .createDomain "example.com".toList "r1".toList { DomainPayload.unset with
     plusAddressingMode := some .strip }]

/-- The message is being parsed. -/
def siblingStore : MailStore :=
  ⟨Db.empty.run .ascii siblingStart, ⟨[], ["m1".toList], ["m1".toList], 1, 0, 10, 1000⟩⟩

/-- The next message to the second address merges the two mailboxes. -/
def siblingMerge : List StoreEvent :=
  [.write (.store (.commit
    [sampleJob "m2" 25 [sampleRecipient "d3" (sampleMatch 1 "*" "u+t" "example.com")]]))]

/-- With room for one delivery the batch holds the first; the merge drops the second, and the
    transaction deletes the message, which is no candidate and is still being parsed. -/
theorem retention_deletes_active_message :
    ∃ s', siblingStore.drain .ascii 30 1 [] siblingMerge [] = some s' ∧
      "m1".toList ∈ s'.parseQueue.activeMessageIds ∧
      ¬RemovesOnly (siblingStore.db.candidateMessageIds 30 1) s'.db
        (RetentionConnection.execute ⟨s'.db, [], []⟩ (expireTransaction (fun _ => none) 30 31 0 1
          (siblingStore.db.expirationBatchSnapshot 30 1))).db := by
  refine ⟨_, MailStore.drain_of_quiet rfl (by decide +kernel), by decide +kernel, ?_⟩
  unfold RemovesOnly
  decide +kernel

/-- With room for both deliveries the message is a candidate; it goes once its parse is done, though
    the mailboxes are merged.  The other message has a delivery outside the batch, and stays. -/
theorem retention_awaits_parsing_of_siblings :
    ∃ s', siblingStore.drain .ascii 30 3 [] [.finish ⟨"m1".toList, 0⟩] siblingMerge = some s' ∧
      (∃ m ∈ s'.db.messages, m ∉ (RetentionConnection.execute ⟨s'.db, [], []⟩
        (expireTransaction (fun _ => none) 30 31 0 3
          (siblingStore.db.expirationBatchSnapshot 30 3))).db.messages) ∧
      RemovesOnly (siblingStore.db.candidateMessageIds 30 3) s'.db
        (RetentionConnection.execute ⟨s'.db, [], []⟩ (expireTransaction (fun _ => none) 30 31 0 3
          (siblingStore.db.expirationBatchSnapshot 30 3))).db := by
  have hids : ∀ w ∈ writesOf ([] ++ [.finish ⟨"m1".toList, 0⟩] ++ siblingMerge),
      w.KeepsIds (siblingStore.db.expirationBatchSnapshot 30 3) := by
    intro w hw e he messageId hnew
    have hother : ∀ e ∈ siblingStore.db.expirationBatchSnapshot 30 3, "d3".toList ≠ e.id := by
      decide +kernel
    rw [List.mem_singleton.mp hw] at hnew
    obtain ⟨job, hjob, -, r, hr, hid⟩ := hnew
    rw [List.mem_singleton.mp hjob] at hr
    rw [List.mem_singleton.mp hr] at hid
    exact absurd hid (hother e he)
  have hspare : Db.SparesSiblings .ascii (siblingStore.db.expirationBatchSnapshot 30 3)
      siblingStore.db (writesOf ([] ++ [.finish ⟨"m1".toList, 0⟩] ++ siblingMerge)) := by
    refine ⟨?_, trivial⟩
    unfold Db.SiblingsKept Db.IsSibling
    decide +kernel
  have hstart : siblingStore.db.Consistent :=
    Db.run_consistent (E := .ascii) Db.empty_consistent siblingStart
  have honly (s' : MailStore)
      (hdrain : siblingStore.drain .ascii 30 3 [] [.finish ⟨"m1".toList, 0⟩] siblingMerge = some s') :=
    (retention_awaits_parsing (c := ⟨s'.db, [], []⟩) hstart hdrain rfl hids hspare (fun _ => none)
      31 0).1
  have hdrain : siblingStore.drain .ascii 30 3 [] [.finish ⟨"m1".toList, 0⟩] siblingMerge = some _ :=
    MailStore.drain_of_quiet rfl (by decide +kernel)
  exact ⟨_, hdrain, by decide +kernel, honly _ hdrain⟩

end Cleanup

end RapidInbox
