import RapidInbox.Store.CommitIntegrity
import RapidInbox.Store.Tenancy

/-!
# Mail under unchanged rules

While the domain table is the one a recipient was accepted under, both writers resolve it to the
match it was accepted with, and two recipients with one address have one domain.  The recipients of
a job cannot clash then.
-/

namespace RapidInbox

open Table

/-- The domain table is the one under which `RCPT TO` accepted the recipient: the cache of the daemon
    holds the active rules. -/
def RecipientDelivery.Current (A : AddressOps) (db : Db) (r : RecipientDelivery) : Prop :=
  (DomainMatcher.mk ((db.domains.filter fun d => d.policy.isActive).map
    DomainRow.rule)).matchAddress A r.rcptTo = some r.domainMatch

instance (A : AddressOps) (db : Db) (r : RecipientDelivery) : Decidable (r.Current A db) :=
  inferInstanceAs (Decidable (_ = _))

/-- The text after the `@` of an address is its domain. -/
theorem domain_eq_of_address_eq {l l' d d' : Text} (hd : IsNormalizedDomain d)
    (hd' : IsNormalizedDomain d') (h : l ++ '@' :: d = l' ++ '@' :: d') : d = d' := by
  have hat {t : Text} (ht : IsNormalizedDomain t) : ∀ c ∈ t.reverse, (c != '@') = true := by
    intro c hc
    have hchar := ht.char (List.mem_reverse.mp hc)
    rw [bne_iff_ne]
    rintro rfl
    revert hchar
    decide
  have htail {l t : Text} (ht : IsNormalizedDomain t) :
      ((l ++ '@' :: t).reverse.takeWhile (· != '@')) = t.reverse := by
    rw [List.reverse_append, List.reverse_cons, List.append_assoc,
      List.takeWhile_append_of_pos (hat ht)]
    simp
  have hrev := htail (l := l) hd
  rw [h, htail hd'] at hrev
  exact (List.reverse_injective hrev).symm

namespace RecipientDelivery.Current

variable {A B : AddressOps} {db db' : Db} {r q : RecipientDelivery}

theorem accepted (h : r.Current A db) : r.Accepted A := ⟨_, h⟩

theorem congr (hdomains : db'.domains = db.domains) (h : r.Current A db) : r.Current A db' := by
  unfold RecipientDelivery.Current
  rw [hdomains]
  exact h

/-- The rule behind a current match: that of the longest active suffix, else the catch-all rule. -/
theorem rule (h : r.Current A db) :
    ∃ parsed rule, parseMailboxAddress A r.rcptTo true = some parsed ∧
      ruleMatch A parsed rule = some r.domainMatch ∧
      (db.longestRule? parsed.domainAscii = some rule ∧
          ruleOutcome A parsed rule = some r.domainMatch ∨
        db.longestRule? parsed.domainAscii = none ∧ db.activeRule? catchAllRoot = some rule) := by
  have hrule (root : Text) : (DomainMatcher.mk ((db.domains.filter fun d =>
      d.policy.isActive).map DomainRow.rule)).findRule root = db.activeRule? root :=
    Db.findRule_filter fun _ _ _ => rfl
  obtain ⟨parsed, hparse, hmatch⟩ := Option.bind_eq_some_iff.mp h
  have hsuffix : (DomainMatcher.mk ((db.domains.filter fun d => d.policy.isActive).map
      DomainRow.rule)).suffixRule parsed.domainAscii = db.longestRule? parsed.domainAscii :=
    findSome?_congr fun root _ => hrule root
  rw [DomainMatcher.matchParsed_eq, hsuffix, DomainMatcher.catchAllRule, hrule] at hmatch
  cases hlongest : db.longestRule? parsed.domainAscii with
  | some rule =>
    rw [hlongest] at hmatch
    exact ⟨parsed, rule, hparse, ruleOutcome_eq_some hmatch, .inl ⟨hlongest, hmatch⟩⟩
  | none =>
    rw [hlongest] at hmatch
    obtain ⟨rule, hcatch, hmatch⟩ := Option.bind_eq_some_iff.mp hmatch
    exact ⟨parsed, rule, hparse, hmatch, .inr ⟨hlongest, hcatch⟩⟩

theorem hasDomain (h : r.Current A db) : db.HasDomain r.domainMatch := by
  obtain ⟨rule, hmem, hid, hroot⟩ := DomainMatcher.rule_of_matchAddress h
  obtain ⟨d, hd, rfl⟩ := List.mem_map.mp hmem
  exact ⟨d, List.mem_of_mem_filter hd, hid.symm, hroot.symm⟩

theorem domainActive (hdb : db.Consistent) (h : r.Current A db) :
    db.domainActive r.domainMatch.domainId = true := by
  obtain ⟨rule, hmem, hid, -⟩ := DomainMatcher.rule_of_matchAddress h
  obtain ⟨d, hd, rfl⟩ := List.mem_map.mp hmem
  obtain ⟨hd, hactive⟩ := List.mem_filter.mp hd
  rw [hid, show d.rule.domainId = d.id from rfl, BatchWriter.domainActive_iff hdb hd]
  exact hactive

/-- What the two rematches of a current recipient read. -/
theorem rematch (hA : A.Lawful) (h : r.Current A db) :
    BatchWriter.managedNow A db r = some r.domainMatch ∧ r.domainMatch.managed = true ∨
      BatchWriter.managedNow A db r = none ∧ r.domainMatch.managed = false ∧
        BatchWriter.managedCandidates db r.domainMatch.domainAscii = [] ∧
        BatchWriter.catchAllMatch A db r.rcptTo = some r.domainMatch := by
  obtain ⟨parsed, rule, hparse, hmatch, hrule⟩ := h.rule
  have hdomain := parse_normalized hA hparse
  obtain ⟨canonical, -, hm⟩ := ruleMatch_eq_some hmatch
  have hascii : r.domainMatch.domainAscii = parsed.domainAscii := by rw [hm]
  have hnow : BatchWriter.managedNow A db r =
      (db.longestRule? parsed.domainAscii).bind (ruleOutcome A parsed) :=
    BatchWriter.managedNow_eq hA hparse hascii
  rcases hrule with ⟨hlongest, houtcome⟩ | ⟨hlongest, hcatch⟩
  · left
    rw [hlongest, Option.bind_some, houtcome] at hnow
    exact ⟨hnow, (BatchWriter.managedNow_spec hnow).1⟩
  · right
    rw [hlongest, Option.bind_none] at hnow
    have hcatchMatch : BatchWriter.catchAllMatch A db r.rcptTo = some r.domainMatch := by
      rw [BatchWriter.catchAllMatch_eq hparse hdomain, hcatch, Option.bind_some, hmatch]
    refine ⟨hnow, (BatchWriter.catchAllMatch_spec hcatchMatch).1, ?_, hcatchMatch⟩
    rw [BatchWriter.longestRule?_eq_head? hdomain] at hlongest
    rw [hascii]
    exact List.head?_eq_none_iff.mp hlongest

/-- The commit keeps a current match. -/
theorem currentMatch_eq (hA : A.Lawful) (hdb : db.Consistent) (h : r.Current A db) :
    BatchWriter.currentMatch A db r = r.domainMatch := by
  rw [BatchWriter.currentMatch_eq hA hdb h.hasDomain h.accepted, if_pos (h.domainActive hdb)]
  rcases h.rematch hA with ⟨hnow, -⟩ | ⟨hnow, hmanaged, -, hcatch⟩
  · rw [hnow, Option.getD_some]
  · rw [hnow, hmanaged, hcatch]
    rfl

/-- So does the recovery. -/
theorem ownershipMatch_eq (hA : A.Lawful) (hB : B.Lawful) (hnorm : db.RootsNormalized)
    (hagree : A.AgreeOn B r.rcptTo) (h : r.Current A db) :
    db.ownershipMatch B r.receipt r.domainMatch.domainId = .ok r.domainMatch := by
  rw [BatchWriter.ownershipMatch_eq hA hB hnorm h.accepted hagree]
  rcases h.rematch hA with ⟨hnow, -⟩ | ⟨hnow, hmanaged, hcandidates, hcatch⟩
  · rw [hnow, Option.getD_some]
  · rw [hnow, hmanaged, hcandidates, hcatch]
    rfl

/-- The candidates depend on the domain of the address alone. -/
theorem domainAscii_eq (hA : A.Lawful) (h : r.Current A db) (hq : q.Current A db)
    (heq : r.domainMatch.addressCanonical = q.domainMatch.addressCanonical) :
    r.domainMatch.domainAscii = q.domainMatch.domainAscii := by
  obtain ⟨parsed, rule, hparse, hmatch, -⟩ := h.rule
  obtain ⟨parsed', rule', hparse', hmatch', -⟩ := hq.rule
  obtain ⟨canonical, -, hm⟩ := ruleMatch_eq_some hmatch
  obtain ⟨canonical', -, hm'⟩ := ruleMatch_eq_some hmatch'
  rw [hm, hm'] at heq ⊢
  exact domain_eq_of_address_eq (parse_normalized hA hparse) (parse_normalized hA hparse') heq

/-- One domain text has one rule. -/
theorem rule_eq (h : r.Current A db) (hq : q.Current A db)
    (heq : r.domainMatch.domainAscii = q.domainMatch.domainAscii) :
    r.domainMatch.domainId = q.domainMatch.domainId ∧
      r.domainMatch.rootDomainAscii = q.domainMatch.rootDomainAscii := by
  obtain ⟨parsed, rule, hparse, hmatch, hrule⟩ := h.rule
  obtain ⟨parsed', rule', hparse', hmatch', hrule'⟩ := hq.rule
  obtain ⟨canonical, -, hm⟩ := ruleMatch_eq_some hmatch
  obtain ⟨canonical', -, hm'⟩ := ruleMatch_eq_some hmatch'
  have hdomain : parsed.domainAscii = parsed'.domainAscii := by
    rw [hm, hm'] at heq
    exact heq
  have hsame : rule = rule' := by
    rw [hdomain] at hrule
    rcases hrule with ⟨hlongest, -⟩ | ⟨hlongest, hcatch⟩
    · rcases hrule' with ⟨hlongest', -⟩ | ⟨hlongest', -⟩
      · exact Option.some.inj (hlongest.symm.trans hlongest')
      · cases hlongest.symm.trans hlongest'
    · rcases hrule' with ⟨hlongest', -⟩ | ⟨-, hcatch'⟩
      · cases hlongest.symm.trans hlongest'
      · exact Option.some.inj (hcatch.symm.trans hcatch')
  rw [hm, hm', hsame]
  exact ⟨rfl, rfl⟩

/-- The old catch-all address of a current recipient is at its domain. -/
theorem oldCatchAllAddress_domain (hA : A.Lawful) (h : r.Current A db) (hq : q.Current A db)
    (hold : BatchWriter.oldCatchAllAddress A db q q.domainMatch =
      some r.domainMatch.addressCanonical) :
    r.domainMatch.domainAscii = q.domainMatch.domainAscii ∧ q.domainMatch.managed = true := by
  unfold BatchWriter.oldCatchAllAddress at hold
  split at hold
  · rename_i hmanaged
    have hroot : q.domainMatch.rootDomainAscii ≠ catchAllRoot := by
      simpa [DomainMatch.managed] using hmanaged
    rw [if_neg hroot] at hold
    obtain ⟨m, hcatch, haddr⟩ := Option.map_eq_some_iff.mp hold
    obtain ⟨parsed, rule, hparse, hmatch, -⟩ := h.rule
    obtain ⟨parsed', rule', hparse', hmatch', -⟩ := hq.rule
    have hdomain' := parse_normalized hA hparse'
    rw [BatchWriter.catchAllMatch_eq hparse' hdomain'] at hcatch
    obtain ⟨catchAll, -, hcatch⟩ := Option.bind_eq_some_iff.mp hcatch
    obtain ⟨canonical, -, hm⟩ := ruleMatch_eq_some hmatch
    obtain ⟨canonical', -, hm'⟩ := ruleMatch_eq_some hmatch'
    obtain ⟨canonical'', -, hm''⟩ := ruleMatch_eq_some hcatch
    rw [hm'', hm] at haddr
    refine ⟨?_, hmanaged⟩
    rw [hm, hm']
    exact (domain_eq_of_address_eq hdomain' (parse_normalized hA hparse) haddr).symm
  · cases hold

/-- Two current recipients clash only if they have one key. -/
theorem not_clash (hA : A.Lawful) (h : r.Current A db) (hq : q.Current A db) {held : Text → Prop}
    (hkey : (r.domainMatch.domainId, r.domainMatch.addressCanonical) ≠
      (q.domainMatch.domainId, q.domainMatch.addressCanonical)) :
    ¬BatchWriter.Clash A db held (r, r.domainMatch) (q, q.domainMatch) := by
  rintro (haddr | ⟨hmanaged, hold, -⟩)
  · have haddr : r.domainMatch.addressCanonical = q.domainMatch.addressCanonical := haddr
    exact hkey (by rw [(h.rule_eq hq (h.domainAscii_eq hA hq haddr)).1, haddr])
  · have hmanaged : r.domainMatch.managed = false := hmanaged
    obtain ⟨hdomain, hmanaged'⟩ := h.oldCatchAllAddress_domain hA hq hold
    unfold DomainMatch.managed at hmanaged hmanaged'
    rw [(h.rule_eq hq hdomain).2, hmanaged'] at hmanaged
    cases hmanaged

end RecipientDelivery.Current

/-! ## The recipients of a job -/

namespace BatchWriter

variable {A : AddressOps} {db : Db}

/-- The recipients that `delivered_mailbox_keys` lets through have different keys. -/
theorem firstByKey_spec (delivered : List (Nat × Text))
    (recipients : List (RecipientDelivery × DomainMatch)) :
    (∀ p ∈ firstByKey delivered recipients,
        p ∈ recipients ∧ (p.2.domainId, p.2.addressCanonical) ∉ delivered) ∧
      (firstByKey delivered recipients).Pairwise (fun p q =>
        (p.2.domainId, p.2.addressCanonical) ≠ (q.2.domainId, q.2.addressCanonical)) ∧
      ∀ p ∈ recipients, (p.2.domainId, p.2.addressCanonical) ∈ delivered ∨
        ∃ q ∈ firstByKey delivered recipients,
          (q.2.domainId, q.2.addressCanonical) = (p.2.domainId, p.2.addressCanonical) := by
  induction recipients generalizing delivered with
  | nil => exact ⟨fun _ h => absurd h List.not_mem_nil, .nil, fun _ h => absurd h List.not_mem_nil⟩
  | cons x rest ih =>
    obtain ⟨r, m⟩ := x
    unfold firstByKey
    split
    · rename_i hseen
      obtain ⟨hmem, hpairwise, hcover⟩ := ih delivered
      refine ⟨fun p hp => ⟨List.mem_cons_of_mem _ (hmem p hp).1, (hmem p hp).2⟩, hpairwise, ?_⟩
      intro p hp
      rcases List.mem_cons.mp hp with rfl | hp
      · exact .inl hseen
      · exact hcover p hp
    · rename_i hseen
      obtain ⟨hmem, hpairwise, hcover⟩ := ih ((m.domainId, m.addressCanonical) :: delivered)
      refine ⟨?_, .cons ?_ hpairwise, ?_⟩
      · intro p hp
        rcases List.mem_cons.mp hp with rfl | hp
        · exact ⟨List.mem_cons_self, hseen⟩
        · obtain ⟨hp, hnot⟩ := hmem p hp
          exact ⟨List.mem_cons_of_mem _ hp, fun h => hnot (List.mem_cons_of_mem _ h)⟩
      · intro p hp heq
        exact (hmem p hp).2 (heq ▸ List.mem_cons_self)
      · intro p hp
        rcases List.mem_cons.mp hp with rfl | hp
        · exact .inr ⟨_, List.mem_cons_self, rfl⟩
        · rcases hcover p hp with hdelivered | ⟨q, hq, heq⟩
          · rcases List.mem_cons.mp hdelivered with heq | hdelivered
            · exact .inr ⟨_, List.mem_cons_self, heq.symm⟩
            · exact .inl hdelivered
          · exact .inr ⟨q, List.mem_cons_of_mem _ hq, heq⟩

/-- The recipients of a job under unchanged rules do not clash. -/
theorem clear_of_current (hA : A.Lawful) (hdb : db.Consistent) {job : MailJob}
    (hcurrent : ∀ r ∈ job.recipients, r.Current A db) :
    Clear A db [] (firstByKey [] (resolved A db job)) := by
  obtain ⟨hmem, hpairwise, -⟩ := firstByKey_spec [] (resolved A db job)
  have hpair (p : RecipientDelivery × DomainMatch) (hp : p ∈ firstByKey [] (resolved A db job)) :
      p.1.Current A db ∧ p = (p.1, p.1.domainMatch) := by
    obtain ⟨r, hr, rfl⟩ := List.mem_map.mp (hmem p hp).1
    exact ⟨hcurrent r hr, by rw [(hcurrent r hr).currentMatch_eq hA hdb]⟩
  refine ⟨fun p hp => absurd hp List.not_mem_nil, hpairwise.imp_of_mem ?_⟩
  intro p q hp hq hkey
  obtain ⟨hpc, hpe⟩ := hpair p hp
  obtain ⟨hqc, hqe⟩ := hpair q hq
  rw [hpe, hqe] at hkey ⊢
  exact hpc.not_clash hA hqc hkey

end BatchWriter
end RapidInbox
