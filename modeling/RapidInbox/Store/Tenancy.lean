import RapidInbox.Store.ActiveRules

/-!
# Tenancy of live and recovered mail

A receipt reaches the database through `write_sqlite_records` or, after a crash, through
`_ensure_recovery_mailbox_record`.  Both resolve the recipient again.  The commit stays with the
accepted domain when that domain is inactive or when the new match is no promotion; the recovery
takes every managed match there is, but leaves a mailbox of a managed domain alone unless the match
extends it.
-/

namespace RapidInbox

open Table

/-- The address codes of the two languages read a recipient in the same way. -/
structure AddressOps.AgreeOn (A B : AddressOps) (rcptTo : Text) : Prop where
  parse : parseMailboxAddress B rcptTo true = parseMailboxAddress A rcptTo true
  canonicalize : ∀ parsed, parseMailboxAddress A rcptTo true = some parsed →
    ∀ mode caseSensitive, canonicalizeLocalPart B mode caseSensitive parsed.localPart =
      canonicalizeLocalPart A mode caseSensitive parsed.localPart

namespace AddressOps.AgreeOn

variable {A B : AddressOps} {rcptTo : Text} {parsed : ParsedMailboxAddress}

theorem ruleMatch_eq (h : AgreeOn A B rcptTo) (hparse : parseMailboxAddress A rcptTo true = some parsed) :
    ruleMatch B parsed = ruleMatch A parsed := by
  funext rule
  unfold ruleMatch
  rw [h.canonicalize parsed hparse]

theorem ruleOutcome_eq (h : AgreeOn A B rcptTo)
    (hparse : parseMailboxAddress A rcptTo true = some parsed) :
    ruleOutcome B parsed = ruleOutcome A parsed := by
  funext rule
  unfold ruleOutcome
  rw [h.ruleMatch_eq hparse]

end AddressOps.AgreeOn

/-- `RCPT TO` accepted the recipient under the rules of its time. -/
def RecipientDelivery.Accepted (A : AddressOps) (r : RecipientDelivery) : Prop :=
  ∃ matcher : DomainMatcher, matcher.matchAddress A r.rcptTo = some r.domainMatch

theorem RecipientDelivery.Accepted.parsed {A : AddressOps} {r : RecipientDelivery}
    (h : r.Accepted A) :
    ∃ parsed, parseMailboxAddress A r.rcptTo true = some parsed ∧
      r.domainMatch.domainAscii = parsed.domainAscii ∧
      (r.domainMatch.managed = true →
        r.domainMatch.rootDomainAscii ∈ candidateRoots parsed.domainAscii) := by
  obtain ⟨matcher, hmatch⟩ := h
  obtain ⟨parsed, rule, hparse, hrule, hfound⟩ := DomainMatcher.matchAddress_eq_some hmatch
  obtain ⟨canonical, -, hm⟩ := ruleMatch_eq_some hrule
  refine ⟨parsed, hparse, ?_, ?_⟩
  · rw [hm]
  · intro hmanaged
    rw [hm]
    rcases hfound with hfound | ⟨-, hfound⟩
    · exact (DomainMatcher.mem_of_suffixRule hfound).2
    · have hroot := (DomainMatcher.mem_of_findRule hfound).2
      rw [hm, DomainMatch.managed, decide_eq_true_iff] at hmanaged
      exact absurd hroot hmanaged

/-- The receipt of a recipient in the manifest of its job. -/
def RecipientDelivery.receipt (r : RecipientDelivery) : RecoveryRecipient :=
  { rcptTo := r.rcptTo
    domainId := r.domainMatch.domainId
    domainAscii := r.domainMatch.domainAscii
    rootDomainAscii := r.domainMatch.rootDomainAscii
    localPartCanonical := r.domainMatch.localPartCanonical
    addressCanonical := r.domainMatch.addressCanonical
    domainPolicy := r.domainPolicy }

namespace Db

variable {db : Db}

def domainActive (db : Db) (id : Nat) : Bool := (db.domain? id).any fun d => d.policy.isActive

/-- The owner of the mailbox with the address of a match, which is the domain of the match if there
    is no such mailbox yet. -/
def holder (db : Db) (m : DomainMatch) : Nat := (db.ownerAt m.addressCanonical).getD m.domainId

theorem targetDomain_of_catchAll {m : DomainMatch} (h : m.managed = false) :
    BatchWriter.targetDomain db m = db.holder m := by
  unfold BatchWriter.targetDomain
  rw [h]
  rfl

theorem recoveryDomain_of_catchAll {m : DomainMatch} (h : m.managed = false) :
    db.recoveryDomain m = db.holder m := by
  unfold recoveryDomain
  rw [h]
  rfl

theorem targetDomain_of_managed {m : DomainMatch} (h : m.managed = true) :
    BatchWriter.targetDomain db m = m.domainId := by
  unfold BatchWriter.targetDomain
  rw [if_pos h]

theorem recoveryDomain_of_managed {m : DomainMatch} (h : m.managed = true) :
    db.recoveryDomain m = if db.blocked m then db.holder m else m.domainId := by
  unfold recoveryDomain
  rw [h]
  cases db.blocked m with
  | true => rfl
  | false => rfl

/-- The owner of a mailbox that blocks a match is another domain. -/
theorem blocked_iff (hdb : db.Consistent) {m : DomainMatch} :
    db.blocked m = true ↔ ∃ d ∈ db.domains, db.ownerAt m.addressCanonical = some d.id ∧
      d.id ≠ m.domainId ∧ d.rootDomainAscii ≠ catchAllRoot ∧
        ¬IsSubdomainOf m.rootDomainAscii d.rootDomainAscii := by
  unfold blocked ownerAt
  cases hat : db.mailboxAt? m.addressCanonical with
  | none => simp
  | some b =>
    obtain ⟨d, hd, hid, hroot⟩ := exists_ownerRoot? hdb (find?_key hat).1
    rw [Option.any_some, hroot, Option.any_some, Option.map_some]
    constructor
    · intro h
      simp only [Bool.and_eq_true, decide_eq_true_iff, Bool.not_eq_true',
        decide_eq_false_iff_not] at h
      exact ⟨d, hd, by rw [hid], hid ▸ h.1, h.2.1, h.2.2⟩
    · rintro ⟨d', hd', hown, hne, hmanaged, hsub⟩
      rw [Option.some.injEq] at hown
      rw [hdb.domain_ids.eq_of_mem hd' hd (hown.symm.trans hid.symm)] at hne hmanaged hsub
      simp [← hid, hne, hmanaged, hsub]

/-- A managed match is served alike by the two writers unless it is blocked. -/
theorem targetDomain_eq_recoveryDomain_iff (hdb : db.Consistent) {m : DomainMatch}
    (hmanaged : m.managed = true) :
    BatchWriter.targetDomain db m = db.recoveryDomain m ↔ db.blocked m = false := by
  rw [targetDomain_of_managed hmanaged, recoveryDomain_of_managed hmanaged]
  cases hblocked : db.blocked m with
  | false => simp
  | true =>
    obtain ⟨d, -, hown, hne, -⟩ := (blocked_iff hdb).mp hblocked
    rw [if_pos rfl, holder, hown, Option.getD_some]
    simp [hne.symm]

end Db

/-! ## The two matches -/

namespace BatchWriter

variable {A B : AddressOps} {db : Db} {r : RecipientDelivery}

/-- What the active managed rules make of a recipient now. -/
def managedNow (A : AddressOps) (db : Db) (r : RecipientDelivery) : Option DomainMatch :=
  (DomainMatcher.mk (managedCandidates db r.domainMatch.domainAscii)).matchAddress A r.rcptTo

theorem managedNow_spec {current : DomainMatch} (h : managedNow A db r = some current) :
    current.managed = true ∧
      ∃ d ∈ db.domains, d.id = current.domainId ∧ d.rootDomainAscii = current.rootDomainAscii ∧
        d.policy.isActive = true := by
  obtain ⟨rule, hrule, hid, hroot⟩ := DomainMatcher.rule_of_matchAddress h
  obtain ⟨d, hd, rfl, hmanaged, hactive⟩ := mem_managedCandidates hrule
  refine ⟨?_, d, hd, hid.symm, hroot.symm, hactive⟩
  rw [DomainMatch.managed, decide_eq_true_iff, hroot]
  exact hmanaged

theorem managedNow_eq (hA : A.Lawful) {parsed : ParsedMailboxAddress}
    (hparse : parseMailboxAddress A r.rcptTo true = some parsed)
    (hdomain : r.domainMatch.domainAscii = parsed.domainAscii) :
    managedNow A db r = (db.longestRule? parsed.domainAscii).bind (ruleOutcome A parsed) := by
  unfold managedNow DomainMatcher.matchAddress
  rw [hparse, Option.bind_some, hdomain, managedMatcher_eq (parse_normalized hA hparse)]

theorem longestRule?_eq_head? {domain : Text} (hdomain : IsNormalizedDomain domain) :
    db.longestRule? domain = (managedCandidates db domain).head? := by
  unfold Db.longestRule? managedCandidates
  rw [List.head?_filterMap]
  refine findSome?_congr fun root hroot => ?_
  rw [managedRule?_eq]
  rintro rfl
  exact catchAllRoot_not_candidate hdomain hroot

theorem domainActive_iff (hdb : db.Consistent) {d : DomainRow} (hd : d ∈ db.domains) :
    db.domainActive d.id = d.policy.isActive := by
  unfold Db.domainActive Db.domain?
  rw [hdb.domain_ids.find?_eq_some hd rfl, Option.any_some]

/-- A match under the active catch-all rule. -/
theorem catchAllMatch_spec {m : DomainMatch} (h : catchAllMatch A db r.rcptTo = some m) :
    m.managed = false ∧
      ∃ d ∈ db.domains, d.id = m.domainId ∧ d.rootDomainAscii = catchAllRoot ∧
        d.policy.isActive = true := by
  unfold catchAllMatch catchAllMatcher at h
  obtain ⟨matcher, hmatcher, hmatch⟩ := Option.bind_eq_some_iff.mp h
  obtain ⟨d, hd, rfl⟩ := Option.map_eq_some_iff.mp hmatcher
  have hsat := List.find?_some hd
  rw [Bool.and_eq_true, decide_eq_true_iff] at hsat
  obtain ⟨rule, hrule, hid, hroot⟩ := DomainMatcher.rule_of_matchAddress hmatch
  rw [List.mem_singleton] at hrule
  subst hrule
  refine ⟨?_, d, List.mem_of_find?_eq_some hd, hid.symm, hsat.1, hsat.2⟩
  rw [DomainMatch.managed, decide_eq_false_iff_not, not_not, hroot]
  exact hsat.1

/-- The domain of a catch-all match is that of every receipt for the catch-all rule. -/
theorem catchAllMatch_domainId (hdb : db.Consistent) (hcached : db.HasDomain r.domainMatch)
    (hmanaged : r.domainMatch.managed = false) {m : DomainMatch}
    (h : catchAllMatch A db r.rcptTo = some m) :
    m.domainId = r.domainMatch.domainId ∧ db.domainActive r.domainMatch.domainId = true := by
  obtain ⟨-, d, hd, hid, hroot, hactive⟩ := catchAllMatch_spec h
  obtain ⟨e, he, heid, heroot⟩ := hcached
  rw [DomainMatch.managed, decide_eq_false_iff_not, not_not] at hmanaged
  have heq := hdb.domain_roots.eq_of_mem hd he (hroot.trans (heroot.trans hmanaged).symm)
  subst heq
  rw [← hid, heid, ← heid, domainActive_iff hdb hd]
  exact ⟨rfl, hactive⟩

/-- `current_domain_match`: an inactive domain keeps its recipients, and an active one gives them to
    the managed match there is now. -/
theorem currentMatch_eq (hA : A.Lawful) (hdb : db.Consistent)
    (hcached : db.HasDomain r.domainMatch) (haccepted : r.Accepted A) :
    currentMatch A db r =
      if db.domainActive r.domainMatch.domainId then
        (managedNow A db r).getD
          (if r.domainMatch.managed then r.domainMatch
            else (catchAllMatch A db r.rcptTo).getD r.domainMatch)
      else r.domainMatch := by
  obtain ⟨parsed, hparse, hdomain, hroots⟩ := haccepted.parsed
  have hnow : managedNow A db r =
      (db.longestRule? parsed.domainAscii).bind (ruleOutcome A parsed) :=
    managedNow_eq hA hparse hdomain
  obtain ⟨d, hd, hid, hroot⟩ := hcached
  unfold currentMatch
  dsimp only
  change (if db.domainActive r.domainMatch.domainId then _ else _) = _
  by_cases hactive : db.domainActive r.domainMatch.domainId = true
  · rw [if_pos hactive, if_pos hactive]
    have hisActive : d.policy.isActive = true := by
      rw [← domainActive_iff hdb hd, hid]
      exact hactive
    have hrefreshed : refreshedMatch A db r =
        (managedNow A db r).or (catchAllMatch A db r.rcptTo) := rfl
    rw [hrefreshed]
    cases hmanagedNow : managedNow A db r with
    | some current =>
      obtain ⟨hcurrent, e, he, heid, heroot, -⟩ := managedNow_spec hmanagedNow
      rw [Option.some_or, Option.getD_some]
      dsimp only
      refine if_pos ?_
      by_cases hmanaged : r.domainMatch.managed = true
      · -- the longest active rule is the accepted one or a promotion of it
        have hcandidate : d.rootDomainAscii ∈ candidateRoots parsed.domainAscii := by
          rw [hroot]
          exact hroots hmanaged
        obtain ⟨rule, hlongest, hrule⟩ := Db.longestRule?_of_active hd hisActive hcandidate
        rw [hnow, hlongest, Option.bind_some] at hmanagedNow
        obtain ⟨canonical, -, hm⟩ := ruleMatch_eq_some (ruleOutcome_eq_some hmanagedNow)
        have hruleRoot : current.rootDomainAscii = rule.rootDomainAscii := by rw [hm]
        rcases hrule with hsame | hsub
        · left
          have heq := hdb.domain_roots.eq_of_mem he hd (heroot.trans (hruleRoot.trans hsame))
          rw [← heid, heq, hid]
        · right
          rw [DomainMatch.managed, decide_eq_true_iff] at hmanaged
          unfold promotes
          rw [if_neg hmanaged, hcurrent, hruleRoot, ← hroot, decide_eq_true hsub]
          rfl
      · right
        rw [DomainMatch.managed, decide_eq_true_iff, not_not] at hmanaged
        unfold promotes
        rw [if_pos hmanaged]
        exact hcurrent
    | none =>
      rw [Option.none_or, Option.getD_none]
      cases hcatch : catchAllMatch A db r.rcptTo with
      | none => simp
      | some m =>
        dsimp only
        have hm := (catchAllMatch_spec hcatch).1
        by_cases hmanaged : r.domainMatch.managed = true
        · rw [if_pos hmanaged, if_neg]
          rintro (heq | hpromotes)
          · obtain ⟨-, e, he, heid, heroot, -⟩ := catchAllMatch_spec hcatch
            have := hdb.domain_ids.eq_of_mem hd he (hid.trans (heq.symm.trans heid.symm))
            subst this
            rw [DomainMatch.managed, decide_eq_true_iff, ← hroot] at hmanaged
            exact hmanaged heroot
          · unfold promotes at hpromotes
            rw [hm] at hpromotes
            simp at hpromotes
        · have hsame := (catchAllMatch_domainId hdb ⟨d, hd, hid, hroot⟩
            (Bool.eq_false_iff.mpr hmanaged) hcatch).1
          rw [if_neg hmanaged, Option.getD_some, if_pos (.inl hsame)]
  · rw [if_neg hactive, if_neg hactive]

/-- The ownership match of the recovery: the managed match there is now, else the receipt, except
    that a receipt for the catch-all rule is matched again when no managed rule is asked. -/
theorem ownershipMatch_eq (hA : A.Lawful) (hB : B.Lawful) (hnorm : db.RootsNormalized)
    (haccepted : r.Accepted A) (hagree : A.AgreeOn B r.rcptTo) (domainId : Nat) :
    db.ownershipMatch B r.receipt domainId =
      .ok ((managedNow A db r).getD
        (if r.domainMatch.managed || !(managedCandidates db r.domainMatch.domainAscii).isEmpty
          then r.receipt.receiptMatch domainId
          else (catchAllMatch A db r.rcptTo).getD (r.receipt.receiptMatch domainId))) := by
  obtain ⟨parsed, hparse, hdomain, -⟩ := haccepted.parsed
  have hnormal := parse_normalized hA hparse
  have hnow : managedNow A db r =
      (db.longestRule? parsed.domainAscii).bind (ruleOutcome A parsed) :=
    managedNow_eq hA hparse hdomain
  unfold Db.ownershipMatch
  rw [show r.receipt.rcptTo = r.rcptTo from rfl, Db.matchActiveDomain_eq hB hnorm
    (hagree.parse.trans hparse), hagree.ruleMatch_eq hparse, hagree.ruleOutcome_eq hparse,
    ← catchAllMatch_eq hparse hnormal, hdomain]
  have hhead : db.longestRule? parsed.domainAscii =
      (managedCandidates db parsed.domainAscii).head? := longestRule?_eq_head? hnormal
  cases hlongest : db.longestRule? parsed.domainAscii with
  | some rule =>
    rw [hlongest] at hnow hhead
    rw [Option.bind_some] at hnow
    dsimp only
    rw [← hnow]
    have hnonempty : (managedCandidates db parsed.domainAscii).isEmpty = false := by
      cases hlist : managedCandidates db parsed.domainAscii with
      | nil =>
        rw [hlist] at hhead
        cases hhead
      | cons _ _ => rfl
    cases hmanagedNow : managedNow A db r with
    | none => simp [hnonempty]
    | some current =>
      have hcurrent := (managedNow_spec hmanagedNow).1
      rw [DomainMatch.managed, decide_eq_true_iff] at hcurrent
      simp [hcurrent]
  | none =>
    rw [hlongest] at hnow hhead
    have hempty : managedCandidates db parsed.domainAscii = [] :=
      List.head?_eq_none_iff.mp hhead.symm
    rw [Option.bind_none] at hnow
    dsimp only
    rw [hnow, Option.getD_none, hempty]
    cases hcatch : catchAllMatch A db r.rcptTo with
    | none => simp
    | some m =>
      have hm := (catchAllMatch_spec hcatch).1
      rw [DomainMatch.managed, decide_eq_false_iff_not, not_not] at hm
      by_cases hmanaged : r.domainMatch.managed = true
      · rw [DomainMatch.managed, decide_eq_true_iff] at hmanaged
        simp [hm, RecipientDelivery.receipt, DomainMatch.managed, hmanaged]
      · rw [DomainMatch.managed, decide_eq_true_iff, not_not] at hmanaged
        simp [hm, RecipientDelivery.receipt, DomainMatch.managed, hmanaged]

/-! ## Where the delivery goes -/

/-- The commit would put the delivery into a mailbox of the domain. -/
def CommitsInto (A : AddressOps) (db : Db) (r : RecipientDelivery) (receivedAt : Timestamp)
    (domainId : Nat) : Prop :=
  ∃ m mailbox opened merged, currentDomainMatch A db r = .ok m ∧
    openMailbox db receivedAt m (planMailbox A db r m) = .ok (mailbox, opened) ∧
    mergeSources opened mailbox.id (planMailbox A db r m).sources = .ok merged ∧
    ∃ b ∈ merged.mailboxes, b.id = mailbox.id ∧ b.domainId = domainId

/-- The replay of a receipt puts the delivery into a mailbox of the domain. -/
def RecoversInto (B : AddressOps) (db : Db) (receipt : RecoveryRecipient) (receivedAt : Timestamp)
    (domainId : Nat) : Prop :=
  ∃ id db', db.ensureRecoveryMailboxRecord B receipt receivedAt = .ok (id, db') ∧
    ∃ b ∈ db'.mailboxes, b.id = id ∧ b.domainId = domainId

/-- When the two writers agree. -/
def TenancyAgrees (A : AddressOps) (db : Db) (r : RecipientDelivery) : Prop :=
  let accepted := r.domainMatch
  match managedNow A db r with
  | some current =>
    if db.domainActive accepted.domainId then db.blocked current = false
    else if accepted.managed then
      -- the commit stays with the inactive domain, and so must the mailbox of the other match
      db.ownerAt current.addressCanonical = some accepted.domainId ∧
        ¬IsSubdomainOf current.rootDomainAscii accepted.rootDomainAscii
    else db.ownerAt accepted.addressCanonical =
      some (if db.blocked current then db.holder current else current.domainId)
  | none =>
    if accepted.managed then db.blocked accepted = false
    else
      -- only the commit asks the catch-all rule when a managed rule has refused the recipient
      db.domainActive accepted.domainId = true →
        managedCandidates db accepted.domainAscii ≠ [] →
        db.holder ((catchAllMatch A db r.rcptTo).getD accepted) = db.holder accepted

instance (A : AddressOps) (db : Db) (r : RecipientDelivery) : Decidable (TenancyAgrees A db r) := by
  unfold TenancyAgrees
  dsimp only
  split
  · infer_instance
  · infer_instance

theorem commitsInto_iff (hA : A.Lawful) (hdb : db.Consistent) (hnorm : db.RootsNormalized)
    (hcached : db.HasDomain r.domainMatch) (receivedAt : Timestamp) (domainId : Nat) :
    CommitsInto A db r receivedAt domainId ↔ targetDomain db (currentMatch A db r) = domainId := by
  obtain ⟨d, hd, hid, -⟩ := currentMatch_hasDomain (A := A) hcached
  have hmatch := currentDomainMatch_eq hA hdb hnorm hcached
  obtain ⟨mailbox, opened, merged, hopen, hmerge, htarget, hprepared⟩ :=
    prepareRecipient (A := A) hdb r ⟨d, hd, hid⟩ receivedAt
  have hentry := (hprepared.entries _ _ _).mpr (.inl ⟨rfl, rfl, rfl⟩)
  constructor
  · rintro ⟨m, mailbox', opened', merged', hm, hopen', hmerge', b, hb, hbid, rfl⟩
    cases hmatch.symm.trans hm
    cases hopen.symm.trans hopen'
    cases hmerge.symm.trans hmerge'
    have hbentry := (hprepared.entries _ _ _).mp (Db.Entry.of_mem hb)
    rw [hbid, htarget] at hbentry
    rcases hbentry with ⟨-, -, heq⟩ | ⟨hne, -⟩
    · exact heq.symm
    · exact absurd rfl hne
  · rintro rfl
    obtain ⟨b, hb, hbid, -, hdom⟩ := hentry
    exact ⟨_, mailbox, opened, merged, hmatch, hopen, hmerge, b, hb, hbid.trans htarget.symm, hdom⟩

/-- The receipt names a domain that is there, so the recovery only looks for the mailbox. -/
theorem ensureRecoveryMailboxRecord_eq (hdb : db.Consistent) (hcached : db.HasDomain r.domainMatch)
    {m : DomainMatch} (hm : db.ownershipMatch B r.receipt r.domainMatch.domainId = .ok m)
    (receivedAt : Timestamp) :
    db.ensureRecoveryMailboxRecord B r.receipt receivedAt =
      db.recoveryMailbox m r.domainMatch.addressCanonical receivedAt := by
  have hrecord : db.ensureRecoveryDomainRecord r.receipt = .ok (r.domainMatch.domainId, db) := by
    obtain ⟨d, hd, hid, hroot⟩ := hcached
    have hfind : db.domainByRoot? r.receipt.rootDomainAscii = some d :=
      hdb.domain_roots.find?_eq_some hd hroot
    unfold Db.ensureRecoveryDomainRecord
    rw [hfind]
    exact if_pos (decide_eq_true hid)
  unfold Db.ensureRecoveryMailboxRecord
  rw [hrecord]
  dsimp only
  rw [hm]
  rfl

theorem recoversInto_iff (hB : B.Lawful) (hdb : db.Consistent) (hcached : db.HasDomain r.domainMatch)
    {m : DomainMatch} (hm : db.ownershipMatch B r.receipt r.domainMatch.domainId = .ok m)
    (hdom : ∃ d ∈ db.domains, d.id = m.domainId) (receivedAt : Timestamp) (domainId : Nat) :
    RecoversInto B db r.receipt receivedAt domainId ↔ db.recoveryDomain m = domainId := by
  obtain ⟨id, db', hbox, hentry⟩ :=
    Db.recoveryMailbox_entry hdb hdom r.domainMatch.addressCanonical receivedAt
  have hensure := (ensureRecoveryMailboxRecord_eq hdb hcached hm receivedAt).trans hbox
  have hedits : Edits (serviceRules (fun _ => True) fun _ => True) db db' :=
    Db.ensureRecoveryMailboxRecord_edits hB hdb trivial hensure
  have hdb' := Edits.consistent hdb hedits
  constructor
  · rintro ⟨id', db'', hensure', b, hb, hbid, rfl⟩
    cases hensure.symm.trans hensure'
    exact (hentry.eq_of_id hdb' (hbid ▸ Db.Entry.of_mem hb)).2
  · rintro rfl
    obtain ⟨b, hb, hbid, -, hdom⟩ := hentry
    exact ⟨id, db', hensure, b, hb, hbid, hdom⟩

/-- The recovery stays with an inactive managed domain only if that domain blocks the new match. -/
theorem inactive_managed_iff (hdb : db.Consistent) {accepted current : DomainMatch}
    (hcached : db.HasDomain accepted) (hne : accepted.domainId ≠ current.domainId)
    (haccepted : accepted.managed = true) (hcurrent : current.managed = true) :
    targetDomain db accepted = db.recoveryDomain current ↔
      db.ownerAt current.addressCanonical = some accepted.domainId ∧
        ¬IsSubdomainOf current.rootDomainAscii accepted.rootDomainAscii := by
  obtain ⟨d, hd, hid, hroot⟩ := hcached
  rw [Db.targetDomain_of_managed haccepted, Db.recoveryDomain_of_managed hcurrent]
  rw [DomainMatch.managed, decide_eq_true_iff, ← hroot] at haccepted
  constructor
  · intro h
    cases hblocked : db.blocked current with
    | false =>
      rw [hblocked] at h
      exact absurd h hne
    | true =>
      obtain ⟨e, he, hown, -, -, hsub⟩ := (Db.blocked_iff hdb).mp hblocked
      rw [hblocked, if_pos rfl, Db.holder, hown, Option.getD_some] at h
      rw [hdb.domain_ids.eq_of_mem he hd (h.symm.trans hid.symm)] at hsub hown
      rw [hown, hid, ← hroot]
      exact ⟨rfl, hsub⟩
  · rintro ⟨hown, hsub⟩
    have hblocked : db.blocked current = true := by
      refine (Db.blocked_iff hdb).mpr ⟨d, hd, ?_, hid ▸ hne, haccepted, hroot ▸ hsub⟩
      rw [hown, hid]
    rw [if_pos hblocked, Db.holder, hown, Option.getD_some]

/-- The recovery never goes to the catch-all domain under a managed match. -/
theorem inactive_catchAll_iff (hdb : db.Consistent) {accepted current : DomainMatch}
    (hcached : db.HasDomain accepted) (hne : accepted.domainId ≠ current.domainId)
    (haccepted : accepted.managed = false) (hcurrent : current.managed = true) :
    targetDomain db accepted = db.recoveryDomain current ↔
      db.ownerAt accepted.addressCanonical =
        some (if db.blocked current then db.holder current else current.domainId) := by
  obtain ⟨d, hd, hid, hroot⟩ := hcached
  rw [Db.targetDomain_of_catchAll haccepted, Db.recoveryDomain_of_managed hcurrent]
  rw [DomainMatch.managed, decide_eq_false_iff_not, not_not] at haccepted
  have hother : accepted.domainId ≠
      if db.blocked current then db.holder current else current.domainId := by
    cases hblocked : db.blocked current with
    | false => exact hne
    | true =>
      obtain ⟨e, he, hown, -, hmanaged, -⟩ := (Db.blocked_iff hdb).mp hblocked
      rw [if_pos rfl, Db.holder, hown, Option.getD_some]
      intro heq
      rw [hdb.domain_ids.eq_of_mem he hd (heq.symm.trans hid.symm)] at hmanaged
      exact hmanaged (hroot.trans haccepted)
  conv_lhs => rw [Db.holder]
  cases db.ownerAt accepted.addressCanonical with
  | none => simpa using hother
  | some owner => simp

/-- The domains of the two matches are compared on the mailboxes they lead to. -/
theorem domains_agree_iff (hdb : db.Consistent) (hcached : db.HasDomain r.domainMatch)
    {m : DomainMatch}
    (hm : m = (managedNow A db r).getD
      (if r.domainMatch.managed || !(managedCandidates db r.domainMatch.domainAscii).isEmpty
        then r.receipt.receiptMatch r.domainMatch.domainId
        else (catchAllMatch A db r.rcptTo).getD (r.receipt.receiptMatch r.domainMatch.domainId)))
    (hcurrent : currentMatch A db r =
      if db.domainActive r.domainMatch.domainId then
        (managedNow A db r).getD
          (if r.domainMatch.managed then r.domainMatch
            else (catchAllMatch A db r.rcptTo).getD r.domainMatch)
      else r.domainMatch) :
    targetDomain db (currentMatch A db r) = db.recoveryDomain m ↔ TenancyAgrees A db r := by
  have hreceipt : db.recoveryDomain (r.receipt.receiptMatch r.domainMatch.domainId) =
      db.recoveryDomain r.domainMatch := rfl
  obtain ⟨d, hd, hid, hroot⟩ := hcached
  have hactiveRow : db.domainActive r.domainMatch.domainId = d.policy.isActive := by
    rw [← hid, domainActive_iff hdb hd]
  rw [hcurrent, hm]
  unfold TenancyAgrees
  dsimp only
  cases hnow : managedNow A db r with
  | some current =>
    obtain ⟨hmanagedNow, e, he, heid, heroot, heactive⟩ := managedNow_spec hnow
    rw [Option.getD_some, Option.getD_some]
    dsimp only
    by_cases hactive : db.domainActive r.domainMatch.domainId = true
    · rw [if_pos hactive, if_pos hactive]
      exact Db.targetDomain_eq_recoveryDomain_iff hdb hmanagedNow
    · rw [if_neg hactive, if_neg hactive]
      have hother : r.domainMatch.domainId ≠ current.domainId := by
        intro heq
        have hrow := hdb.domain_ids.eq_of_mem hd he (hid.trans (heq.trans heid.symm))
        rw [hactiveRow, hrow] at hactive
        exact hactive heactive
      by_cases hmanaged : r.domainMatch.managed = true
      · rw [if_pos hmanaged]
        exact inactive_managed_iff hdb ⟨d, hd, hid, hroot⟩ hother hmanaged hmanagedNow
      · rw [if_neg hmanaged]
        exact inactive_catchAll_iff hdb ⟨d, hd, hid, hroot⟩ hother
          (Bool.eq_false_iff.mpr hmanaged) hmanagedNow
  | none =>
    rw [Option.getD_none, Option.getD_none]
    dsimp only
    by_cases hmanaged : r.domainMatch.managed = true
    · simp only [hmanaged, if_true, Bool.true_or, ite_self, hreceipt]
      exact Db.targetDomain_eq_recoveryDomain_iff hdb hmanaged
    · rw [Bool.not_eq_true] at hmanaged
      simp only [hmanaged, Bool.false_eq_true, if_false, Bool.false_or]
      cases hcatch : catchAllMatch A db r.rcptTo with
      | none =>
        simp only [Option.getD_none, ite_self, hreceipt, Db.targetDomain_of_catchAll hmanaged,
          Db.recoveryDomain_of_catchAll hmanaged, implies_true]
      | some m =>
        obtain ⟨-, hactive⟩ := catchAllMatch_domainId hdb ⟨d, hd, hid, hroot⟩ hmanaged hcatch
        have hm := (catchAllMatch_spec hcatch).1
        rw [if_pos hactive, Option.getD_some, Option.getD_some,
          Db.targetDomain_of_catchAll hm]
        cases hcandidates : managedCandidates db r.domainMatch.domainAscii with
        | nil => simp [Db.recoveryDomain_of_catchAll hm]
        | cons _ _ => simp [hreceipt, Db.recoveryDomain_of_catchAll hmanaged, hactive]

/-- The two writers agree on the owner of a delivery exactly in the cases of `TenancyAgrees`. -/
theorem recovery_tenancy_iff (hA : A.Lawful) (hB : B.Lawful) (hdb : db.Consistent)
    (hnorm : db.RootsNormalized) (hcached : db.HasDomain r.domainMatch) (haccepted : r.Accepted A)
    (hagree : A.AgreeOn B r.rcptTo) (receivedAt : Timestamp) :
    (∃ domainId, CommitsInto A db r receivedAt domainId ∧
        RecoversInto B db r.receipt receivedAt domainId) ↔
      TenancyAgrees A db r := by
  have hownership := ownershipMatch_eq hA hB hnorm haccepted hagree r.domainMatch.domainId
  obtain ⟨d, hd, hid, -⟩ := Db.ownershipMatch_hasDomain (r := r.receipt) hB hcached hownership hnorm
  rw [← domains_agree_iff hdb hcached rfl (currentMatch_eq hA hdb hcached haccepted)]
  simp only [commitsInto_iff hA hdb hnorm hcached,
    recoversInto_iff hB hdb hcached hownership ⟨d, hd, hid⟩]
  constructor
  · rintro ⟨domainId, hcommit, hrecover⟩
    exact hcommit.trans hrecover.symm
  · intro h
    exact ⟨_, h, rfl⟩

/-- `u@sub.example.com`, accepted for the domain `sub.example.com`. -/
def subdomainRecipient : RecipientDelivery :=
  sampleRecipient "d1" (sampleMatch 1 "sub.example.com" "u" "sub.example.com")

def subdomainHistory : List StoreOp :=
  [.createDomain "sub.example.com".toList "r1".toList .unset,
   .createDomain "example.com".toList "r2".toList .unset]

/-- The domain `sub.example.com` and the shorter suffix `example.com`. -/
def nestedDb : Db := Db.empty.run .ascii subdomainHistory

/-- The same, after `sub.example.com` has been deactivated. -/
def deactivatedDb : Db :=
  nestedDb.run .ascii [.updateDomain 1 "r3".toList { DomainPayload.unset with isActive := some false }]

theorem subdomainRecipient_accepted : subdomainRecipient.Accepted (cppAddressOps .asciiOnly) :=
  ⟨⟨nestedDb.domains.map DomainRow.rule⟩, by decide +kernel⟩

theorem subdomainRecipient_agreeOn :
    (cppAddressOps .asciiOnly).AgreeOn (pyAddressOps .asciiOnly) subdomainRecipient.rcptTo :=
  ⟨by decide +kernel, fun _ _ _ _ => rfl⟩

theorem recovery_tenancy_nested :
    TenancyAgrees (cppAddressOps .asciiOnly) nestedDb subdomainRecipient ∧
      ∃ domainId, CommitsInto (cppAddressOps .asciiOnly) nestedDb subdomainRecipient 10 domainId ∧
        RecoversInto (pyAddressOps .asciiOnly) nestedDb subdomainRecipient.receipt 10 domainId := by
  have hagrees : TenancyAgrees (cppAddressOps .asciiOnly) nestedDb subdomainRecipient := by
    decide +kernel
  refine ⟨hagrees, ?_⟩
  refine (recovery_tenancy_iff (cppAddressOps_lawful _) (pyAddressOps_lawful _)
    (Db.run_consistent Db.empty_consistent _) (Db.rootsNormalized_of_fixed (cppAddressOps_lawful .asciiOnly) (by decide +kernel)) ?_
    subdomainRecipient_accepted subdomainRecipient_agreeOn 10).mpr hagrees
  unfold Db.HasDomain
  decide +kernel

/-- Mail accepted for a domain that has been deactivated since: the commit keeps it there, and the
    recovery gives it to the shorter suffix. -/
theorem recovery_tenancy_lost :
    subdomainRecipient.Accepted (cppAddressOps .asciiOnly) ∧
      deactivatedDb.HasDomain subdomainRecipient.domainMatch ∧
      CommitsInto (cppAddressOps .asciiOnly) deactivatedDb subdomainRecipient 10 1 ∧
      RecoversInto (pyAddressOps .asciiOnly) deactivatedDb subdomainRecipient.receipt 10 2 ∧
      ¬∃ domainId,
        CommitsInto (cppAddressOps .asciiOnly) deactivatedDb subdomainRecipient 10 domainId ∧
          RecoversInto (pyAddressOps .asciiOnly) deactivatedDb subdomainRecipient.receipt 10
            domainId := by
  have hdb : deactivatedDb.Consistent :=
    Db.run_consistent (Db.run_consistent Db.empty_consistent _) _
  have hdomain : deactivatedDb.HasDomain subdomainRecipient.domainMatch := by
    unfold Db.HasDomain
    decide +kernel
  have hcommit := commitsInto_iff (cppAddressOps_lawful .asciiOnly) hdb
    (Db.rootsNormalized_of_fixed (cppAddressOps_lawful .asciiOnly) (by decide +kernel)) hdomain 10
  have hrecover := recoversInto_iff (m := sampleMatch 2 "example.com" "u" "sub.example.com")
    (pyAddressOps_lawful .asciiOnly) hdb hdomain (by decide +kernel) (by decide +kernel) 10
  have htarget : targetDomain deactivatedDb
      (currentMatch (cppAddressOps .asciiOnly) deactivatedDb subdomainRecipient) = 1 := by
    decide +kernel
  have hrecovered : deactivatedDb.recoveryDomain
      (sampleMatch 2 "example.com" "u" "sub.example.com") = 2 := by
    decide +kernel
  rw [htarget] at hcommit
  rw [hrecovered] at hrecover
  refine ⟨subdomainRecipient_accepted, hdomain, (hcommit 1).mpr rfl, (hrecover 2).mpr rfl, ?_⟩
  rintro ⟨domainId, hc, hr⟩
  have hone := (hcommit domainId).mp hc
  have htwo := (hrecover domainId).mp hr
  omega

end BatchWriter
end RapidInbox
