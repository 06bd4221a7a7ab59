import RapidInbox.Store.BatchWriter

/-!
# Ownership of mailboxes in the Python service

`app/services/domains.py`: the rematch of an address inside a write transaction, the promotion of a
mailbox to its current routing winner, and the persisted jobs that walk the mailbox table after a
change of the domain rules.
-/

namespace RapidInbox

/-- The result of `promote_mailbox_ownership`. -/
structure PromoteResult where
  mailboxId : Nat
  rehomed : Bool
  moved : Nat
  deduplicated : Nat
  deriving DecidableEq, Repr

/-- `_mailbox_needs_ownership_promotion`: whether a match is a monotonic improvement for a mailbox
    owned by `sourceRoot`. -/
def mailboxNeedsOwnershipPromotion (source : MailboxRow) (sourceRoot : Text) (m : DomainMatch) :
    Bool :=
  if m.rootDomainAscii = catchAllRoot then false
  else if source.domainId = m.domainId then
    source.localPartCanonical ≠ m.localPartCanonical ||
      source.rcptDomainAscii ≠ m.domainAscii || source.addressCanonical ≠ m.addressCanonical
  else if sourceRoot = catchAllRoot then true
  else decide (IsSubdomainOf m.rootDomainAscii sourceRoot)

/-- The flags and notes a target takes over from a merged mailbox. -/
def MailboxRow.mergeFlags (target source : MailboxRow) : MailboxRow :=
  { target with
    publicEnabled := target.publicEnabled && source.publicEnabled
    isHidden := target.isHidden || source.isHidden
    notes := target.notes.or source.notes }

namespace Db

/-- `match_active_domain` (`domains.py:76-118`). -/
def matchActiveDomain (A : AddressOps) (db : Db) (address : Text) :
    Except DbError (Option DomainMatch) :=
  match parseMailboxAddress A address true with
  | none => .ok none
  | some parsed =>
    let roots := candidateRoots parsed.domainAscii ++ [catchAllRoot]
    let rows := db.domains.filter fun d => d.policy.isActive && d.rootDomainAscii ∈ roots
    match DomainMatcher.ofRules? A (rows.map DomainRow.rule) with
    | none => .error .invalidDomain
    | some matcher => .ok (matcher.matchAddress A address)

/-- `load_active_domain_matcher`. -/
def loadActiveDomainMatcher (A : AddressOps) (db : Db) : Except DbError DomainMatcher :=
  match DomainMatcher.ofRules? A
      ((db.domains.filter fun d => d.policy.isActive).map DomainRow.rule) with
  | none => .error .invalidDomain
  | some matcher => .ok matcher

/-- `_refresh_rehomed_mailbox_summary`. -/
def refreshRehomedMailboxSummary (db : Db) (id : Nat) (firstSeenAt lastSeenAt : Timestamp) : Db :=
  db.updateMailbox id fun b =>
    { b.withSummary (db.activeIn id) with
      firstSeenAt := min b.firstSeenAt firstSeenAt
      lastSeenAt := max b.lastSeenAt lastSeenAt }

/-- The branch of `promote_mailbox_ownership` in which no other mailbox has the address. -/
def promoteInPlace (db : Db) (source : MailboxRow) (m : DomainMatch) :
    Except DbError (PromoteResult × Db) :=
  match db.updateMailboxIdentity source.id m with
  | .error e => .error e
  | .ok db =>
    .ok (⟨source.id, true, 0, 0⟩,
      db.refreshRehomedMailboxSummary source.id source.firstSeenAt source.lastSeenAt)

/-- The identity of a promotion target: it already has the address of the match. -/
def promoteTarget (db : Db) (target : MailboxRow) (targetRoot : Text) (m : DomainMatch) :
    Except DbError Db :=
  if mailboxNeedsOwnershipPromotion target targetRoot m then db.updateMailboxIdentity target.id m
  else .ok db

/-- The branch of `promote_mailbox_ownership` that merges the source into the mailbox that has the
    address. -/
def promoteByMerge (db : Db) (source target : MailboxRow) (targetRoot : Text) (m : DomainMatch) :
    Except DbError (PromoteResult × Db) :=
  match db.promoteTarget target targetRoot m with
  | .error e => .error e
  | .ok promoted =>
    let flagged := promoted.updateMailbox target.id fun b => b.mergeFlags source
    let merged := flagged.mergeDeliveries id source.id target.id
    let refreshed := merged.refreshRehomedMailboxSummary target.id
      (min source.firstSeenAt target.firstSeenAt) (max source.lastSeenAt target.lastSeenAt)
    let deduplicated := (db.collapsedOnto source.id target.id).length
    let moved := (db.deliveries.countP fun d => d.mailboxId = source.id) - deduplicated
    match refreshed.deleteMailbox source.id with
    | .error e => .error e
    | .ok db => .ok (⟨target.id, true, moved, deduplicated⟩, db)

/-- `promote_mailbox_ownership` (`domains.py:190-416`). -/
def promoteMailboxOwnership (db : Db) (sourceMailboxId : Nat) (m : DomainMatch) :
    Except DbError (PromoteResult × Db) :=
  match db.mailbox? sourceMailboxId with
  | none => .ok (⟨0, false, 0, 0⟩, db)
  | some source =>
    match db.ownerRoot? source with
    | none => .ok (⟨0, false, 0, 0⟩, db)
    | some sourceRoot =>
      if !mailboxNeedsOwnershipPromotion source sourceRoot m then
        .ok (⟨source.id, false, 0, 0⟩, db)
      else
        match db.mailboxAt? m.addressCanonical with
        | none => db.promoteInPlace source m
        | some target =>
          match db.ownerRoot? target with
          | none => db.promoteInPlace source m
          | some targetRoot =>
            if target.id = source.id then db.promoteInPlace source m
            else db.promoteByMerge source target targetRoot m

/-- `_find_or_rehome_mailbox` (`runtime.py:4449-4478`). -/
def findOrRehomeMailbox (db : Db) (m : DomainMatch) : Except DbError (Option Nat × Db) :=
  match db.mailboxAt? m.addressCanonical with
  | none => .ok (none, db)
  | some existing =>
    match db.promoteMailboxOwnership existing.id m with
    | .error e => .error e
    | .ok (result, db) => .ok (some result.mailboxId, db)

end Db

/-- The touch of `_upsert_mailbox`, which assigns both times. -/
def MailboxRow.assignLatest (b : MailboxRow) (receivedAt : Timestamp) : MailboxRow :=
  { b with
    lastSeenAt := receivedAt
    latestMessageAt := some receivedAt
    messageCount := b.messageCount + 1 }

namespace Db

/-- `_upsert_mailbox` (`runtime.py:4425-4440`). -/
def upsertMailbox (db : Db) (m : DomainMatch) (receivedAt : Timestamp) :
    Except DbError (Nat × Db) :=
  match db.findOrRehomeMailbox m with
  | .error e => .error e
  | .ok (some id, db) => .ok (id, db.updateMailbox id fun b => b.assignLatest receivedAt)
  | .ok (none, db) => db.insertMailbox m receivedAt 1 (some receivedAt)

/-- The match `_ensure_mailbox_exists` goes by: a catch-all match is looked up again. -/
def transactionMatch (A : AddressOps) (db : Db) (m : DomainMatch) : Except DbError DomainMatch :=
  if m.rootDomainAscii = catchAllRoot then
    match db.matchActiveDomain A (m.localPart ++ '@' :: m.domainAscii) with
    | .error e => .error e
    | .ok found => .ok (found.getD m)
  else .ok m

/-- `_ensure_mailbox_exists` (`runtime.py:4398-4423`), for a public mailbox that is opened before
    it has mail. -/
def ensureMailboxExists (A : AddressOps) (db : Db) (m : DomainMatch) (now : Timestamp) :
    Except DbError Db :=
  match db.transactionMatch A m with
  | .error e => .error e
  | .ok m =>
    match db.findOrRehomeMailbox m with
    | .error e => .error e
    | .ok (some _, db) => .ok db
    | .ok (none, db) =>
      match db.insertMailbox m now 0 none with
      | .error e => .error e
      | .ok (_, db) => .ok db

/-- `_create_rehome_job_in_connection`. -/
def createRehomeJob (db : Db) (jobId : Text) (candidateRootDomain : Option Text) :
    Except DbError Db :=
  if db.rehomeJobs.any (fun j => j.id = jobId) then .error .primaryKey
  else .ok
    { db with
      rehomeJobs := db.rehomeJobs ++
        [⟨jobId, candidateRootDomain, .pending, 0, (db.mailboxes.map MailboxRow.id).foldr max 0, 0, 0,
          0, 0⟩] }

/-- `_candidate_source_domain_ids`: whether a domain's mailboxes can be promoted to the candidate. -/
def isCandidateSource (db : Db) (candidateRootDomain : Option Text) (domainId : Nat) : Bool :=
  match candidateRootDomain with
  | none => true
  | some root =>
    db.domains.any fun d =>
      d.id = domainId &&
        (d.rootDomainAscii = catchAllRoot || d.rootDomainAscii = root ||
          decide (IsSubdomainOf root d.rootDomainAscii))

/-- One turn of the loop of `_process_rehome_job_batch`, for a mailbox as the page read it. -/
def rehomeRow (A : AddressOps) (matcher : DomainMatcher) (candidateRootDomain : Option Text)
    (row : MailboxRow) (db : Db) : Except DbError (PromoteResult × Db) :=
  if !db.isCandidateSource candidateRootDomain row.domainId then .ok (⟨row.id, false, 0, 0⟩, db)
  else
    match matcher.matchAddress A row.addressCanonical with
    | none => .ok (⟨row.id, false, 0, 0⟩, db)
    | some m =>
      if m.rootDomainAscii = catchAllRoot then .ok (⟨row.id, false, 0, 0⟩, db)
      else db.promoteMailboxOwnership row.id m

end Db

/-- `batch_totals`. -/
structure RehomeTotals where
  rehomed : Nat
  moved : Nat
  deduplicated : Nat
  deriving DecidableEq, Repr

def RehomeTotals.add (totals : RehomeTotals) (result : PromoteResult) : RehomeTotals :=
  ⟨totals.rehomed + result.rehomed.toNat, totals.moved + result.moved,
    totals.deduplicated + result.deduplicated⟩

/-- The job after a page. -/
def RehomeJob.advance (job : RehomeJob) (rows : List MailboxRow) (totals : RehomeTotals) :
    RehomeJob :=
  let nextCursor := (rows.getLast?.map MailboxRow.id).getD job.maxMailboxId
  let complete := rows.isEmpty || decide (job.maxMailboxId ≤ nextCursor)
  { job with
    status := if complete then .succeeded else .running
    cursorMailboxId := nextCursor
    mailboxesScanned := job.mailboxesScanned + rows.length
    mailboxesRehomed := job.mailboxesRehomed + totals.rehomed
    deliveriesMoved := job.deliveriesMoved + totals.moved
    deliveriesDeduplicated := job.deliveriesDeduplicated + totals.deduplicated }

namespace Db

/-- The loop of `_process_rehome_job_batch` over a page of mailboxes, as they were read. -/
def rehomePage (A : AddressOps) (matcher : DomainMatcher) (candidateRootDomain : Option Text) :
    List MailboxRow → RehomeTotals → Db → Except DbError (RehomeTotals × Db)
  | [], totals, db => .ok (totals, db)
  | row :: rows, totals, db =>
    match rehomeRow A matcher candidateRootDomain row db with
    | .error e => .error e
    | .ok (result, db) => rehomePage A matcher candidateRootDomain rows (totals.add result) db

/-- `DOMAIN_REHOME_BATCH_SIZE`. -/
def domainRehomeBatchSize : Nat := 1000

/-- `UPDATE domain_rehome_jobs … WHERE id = ?`. -/
def updateRehomeJob (db : Db) (jobId : Text) (f : RehomeJob → RehomeJob) : Db :=
  { db with rehomeJobs := Table.updateWhere (fun j => j.id = jobId) f db.rehomeJobs }

/-- The page of a rehome job: the next mailboxes up to its frontier. -/
def rehomeJobPage (db : Db) (job : RehomeJob) (batchSize : Nat) : List MailboxRow :=
  (db.mailboxes.filter fun b =>
    decide (job.cursorMailboxId < b.id) && decide (b.id ≤ job.maxMailboxId)).take batchSize

/-- The transaction of `_process_rehome_job_batch` for a job that is not done. -/
def advanceRehomeJob (A : AddressOps) (db : Db) (job : RehomeJob) (batchSize : Nat) :
    Except DbError Db :=
  let rows := db.rehomeJobPage job batchSize
  match db.loadActiveDomainMatcher A with
  | .error e => .error e
  | .ok matcher =>
    match rehomePage A matcher job.candidateRootDomain rows ⟨0, 0, 0⟩ db with
    | .error e => .error e
    | .ok (totals, db) => .ok (db.updateRehomeJob job.id fun j => j.advance rows totals)

/-- `_process_rehome_job_batch` (`domains.py:556-725`). -/
def processRehomeJobBatch (A : AddressOps) (db : Db) (jobId : Text) (batchSize : Nat) :
    Except DbError Db :=
  if batchSize < 1 || domainRehomeBatchSize < batchSize then .error .invalidArgument
  else
    match db.rehomeJobs.find? fun j => j.id = jobId with
    | none => .error .notFound
    | some job => if job.status = .succeeded then .ok db else db.advanceRehomeJob A job batchSize

/-- `_mark_rehome_job_failed`. -/
def markRehomeJobFailed (db : Db) (jobId : Text) : Db :=
  db.updateRehomeJob jobId fun j => if j.status = .succeeded then j else { j with status := .failed }

end Db

/-- The fields of a domain that `create_domain` and `update_domain` take; `update_domain` leaves an
    absent field alone. -/
structure DomainPayload where
  rootDomain : Option Text
  acceptExact : Option Bool
  acceptSubdomains : Option Bool
  publicWebEnabled : Option Bool
  publicApiEnabled : Option Bool
  localPartCaseSensitive : Option Bool
  isActive : Option Bool
  isHidden : Option Bool
  plusAddressingMode : Option PlusMode
  maxMessageSizeBytes : Option Int
  retentionDays : Option (Option Int)
  deriving DecidableEq, Repr

/-- The policy columns after an update. -/
def DomainPayload.apply (p : DomainPayload) (old : DomainPolicySnapshot) : DomainPolicySnapshot :=
  { rootDomainUnicode := p.rootDomain.getD old.rootDomainUnicode
    acceptExact := p.acceptExact.getD old.acceptExact
    acceptSubdomains := p.acceptSubdomains.getD old.acceptSubdomains
    publicWebEnabled := p.publicWebEnabled.getD old.publicWebEnabled
    publicApiEnabled := p.publicApiEnabled.getD old.publicApiEnabled
    isActive := p.isActive.getD old.isActive
    isHidden := p.isHidden.getD old.isHidden
    plusAddressingMode := p.plusAddressingMode.getD old.plusAddressingMode
    localPartCaseSensitive := p.localPartCaseSensitive.getD old.localPartCaseSensitive
    maxMessageSizeBytes := p.maxMessageSizeBytes.getD old.maxMessageSizeBytes
    retentionDays := p.retentionDays.getD old.retentionDays
    dnsStatus := old.dnsStatus }

/-- The routing columns `update_domain` compares. -/
def DomainRow.routing (d : DomainRow) : Text × Bool × Bool × PlusMode × Bool × Bool :=
  (d.rootDomainAscii, d.policy.acceptExact, d.policy.acceptSubdomains,
    d.policy.plusAddressingMode, d.policy.localPartCaseSensitive, d.policy.isActive)

namespace Db

/-- `_coerce_root_domain`. -/
def coerceRootDomain (A : AddressOps) (root : Text) : Except DbError Text :=
  match A.normalizeDomain root with
  | none => .error .invalidArgument
  | some normalized => if normalized = catchAllRoot then .error .invalidArgument else .ok normalized

/-- The defaults of `create_domain` and of the schema. -/
def defaultPolicy (root : Text) : DomainPolicySnapshot :=
  { rootDomainUnicode := root
    acceptExact := true
    acceptSubdomains := true
    publicWebEnabled := false
    publicApiEnabled := false
    isActive := true
    isHidden := false
    plusAddressingMode := .keep
    localPartCaseSensitive := false
    maxMessageSizeBytes := 52428800
    retentionDays := none
    dnsStatus := .unknown }

/-- `INSERT INTO domains`, with the next id of the sequence or a preferred one. -/
def insertDomain (db : Db) (preferred : Option Nat) (root : Text) (policy : DomainPolicySnapshot) :
    Except DbError (Nat × Db) :=
  let id := preferred.getD (db.domainSeq + 1)
  if (db.domainByRoot? root).isSome then .error .uniqueDomainRoot
  else if (db.domain? id).isSome then .error .primaryKey
  else .ok (id,
    { db with domains := db.domains ++ [⟨id, root, policy⟩], domainSeq := max db.domainSeq id })

/-- `create_domain`. -/
def createDomain (A : AddressOps) (db : Db) (root jobId : Text) (payload : DomainPayload) :
    Except DbError Db :=
  match coerceRootDomain A root with
  | .error e => .error e
  | .ok rootAscii =>
    let policy := { payload with rootDomain := some root, isHidden := none }.apply
      (defaultPolicy root)
    match db.insertDomain none rootAscii policy with
    | .error e => .error e
    | .ok (_, db) => if policy.isActive then db.createRehomeJob jobId (some rootAscii) else .ok db

/-- The new root of `update_domain`. -/
def updatedRoot (A : AddressOps) (payload : DomainPayload) (old : Text) : Except DbError Text :=
  match payload.rootDomain with
  | none => .ok old
  | some root => coerceRootDomain A root

/-- `update_domain`; a rename leaves a tombstone, and a routing change starts a rehome job. -/
def updateDomain (A : AddressOps) (db : Db) (domainId : Nat) (jobId : Text)
    (payload : DomainPayload) : Except DbError Db :=
  match db.domain? domainId with
  | none => .error .notFound
  | some row =>
    if row.rootDomainAscii = catchAllRoot then .error .invalidArgument
    else
      match updatedRoot A payload row.rootDomainAscii with
      | .error e => .error e
      | .ok root =>
        if db.domains.any (fun d => d.rootDomainAscii = root && d.id ≠ domainId) then
          .error .uniqueDomainRoot
        else
          let updated : DomainRow := ⟨domainId, root, payload.apply row.policy⟩
          let written : Db :=
            { db with
              domains := Table.updateWhere (fun d => d.id = domainId) (fun _ => updated)
                db.domains
              tombstones :=
                if root ≠ row.rootDomainAscii then
                  db.tombstones ++ [(domainId, row.rootDomainAscii)]
                else db.tombstones }
          if updated.routing = row.routing then .ok written
          else written.createRehomeJob jobId (some root)

/-- `delete_domain`: mailboxes restrict it, and a tombstone stays. -/
def deleteDomain (db : Db) (domainId : Nat) : Except DbError Db :=
  match db.domain? domainId with
  | none => .error .notFound
  | some row =>
    if row.rootDomainAscii = catchAllRoot then .error .invalidArgument
    else if db.mailboxes.any (fun b => b.domainId = domainId) then .error .foreignKey
    else .ok
      { db with
        domains := db.domains.filter fun d => d.id ≠ domainId
        tombstones := db.tombstones ++ [(domainId, row.rootDomainAscii)] }

/-- The catch-all policy columns of `sync_catch_all_policy`. -/
def catchAllPolicy (enabled publicWeb publicApi : Bool) (retentionDays : Option Int)
    (maxMessageSizeBytes : Int) (old : DomainPolicySnapshot) : DomainPolicySnapshot :=
  { old with
    publicWebEnabled := publicWeb
    publicApiEnabled := publicApi
    isActive := enabled
    maxMessageSizeBytes := maxMessageSizeBytes
    retentionDays := retentionDays }

/-- `sync_catch_all_policy`: create or update the catch-all domain. -/
def syncCatchAllPolicy (db : Db) (enabled publicWeb publicApi : Bool)
    (retentionDays : Option Int) (maxMessageSizeBytes : Int) : Except DbError Db :=
  match db.domainByRoot? catchAllRoot with
  | none =>
    if !enabled then .ok db
    else
      match db.insertDomain none catchAllRoot
          (catchAllPolicy enabled publicWeb publicApi retentionDays maxMessageSizeBytes
            (defaultPolicy "任意域名".toList)) with
      | .error e => .error e
      | .ok (_, db) => .ok db
  | some row =>
    .ok
      { db with
        domains := Table.updateWhere (fun d => d.id = row.id)
          (fun d => { d with
            policy := catchAllPolicy enabled publicWeb publicApi retentionDays
              maxMessageSizeBytes d.policy }) db.domains }

end Db
end RapidInbox
