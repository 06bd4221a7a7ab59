import Mathlib.Data.List.Find
import RapidInbox.Domain.Canonical
import RapidInbox.Store.RecoveryMailbox

/-!
# The two rematches

`current_domain_match` and `match_active_domain` read the domain table with different statements.
Both ask the active rule of the longest configured suffix first; they differ when that rule refuses
the address, where only the daemon goes on to the catch-all rule.
-/

namespace RapidInbox

open Table

/-! ## Suffixes of a domain -/

theorem mem_domainSuffixes {root t : Text} (h : root ∈ domainSuffixes t) : IsSubdomainOf t root := by
  induction t with
  | nil => cases h
  | cons c cs ih =>
    unfold domainSuffixes at h
    split at h
    · rename_i hdot
      subst hdot
      rcases List.mem_cons.mp h with rfl | h
      · exact List.suffix_rfl
      · exact List.IsSuffix.trans (ih h) (List.suffix_cons _ _)
    · exact List.IsSuffix.trans (ih h) (List.suffix_cons _ _)

theorem pairwise_domainSuffixes (t : Text) : (domainSuffixes t).Pairwise IsSubdomainOf := by
  induction t with
  | nil => exact .nil
  | cons c cs ih =>
    unfold domainSuffixes
    split
    · exact .cons (fun root hroot => mem_domainSuffixes hroot) ih
    · exact ih

/-- A candidate extends those after it. -/
theorem pairwise_candidateRoots (domain : Text) : (candidateRoots domain).Pairwise IsSubdomainOf :=
  .cons (fun _ hroot => mem_domainSuffixes hroot) (pairwise_domainSuffixes domain)

theorem catchAllRoot_not_candidate {domain : Text} (h : IsNormalizedDomain domain) :
    catchAllRoot ∉ candidateRoots domain := by
  intro hmem
  have hstar : '*' ∈ domain := by
    rcases List.mem_cons.mp hmem with heq | hmem
    · rw [← heq]
      exact List.mem_singleton.mpr rfl
    · exact (mem_domainSuffixes hmem).subset (by simp [catchAllRoot])
  have hchar := h.char hstar
  revert hchar
  decide

namespace Db

/-- The rule of an active domain. -/
def activeRule? (db : Db) (root : Text) : Option DomainRule :=
  (db.domains.find? fun d => d.rootDomainAscii = root && d.policy.isActive).map DomainRow.rule

/-- The active rule of the longest configured suffix of a domain. -/
def longestRule? (db : Db) (domain : Text) : Option DomainRule :=
  (candidateRoots domain).findSome? db.activeRule?

variable {db : Db}

theorem activeRule?_eq_some {root : Text} {rule : DomainRule} (h : db.activeRule? root = some rule) :
    ∃ d ∈ db.domains, d.rootDomainAscii = root ∧ d.policy.isActive = true ∧ rule = d.rule := by
  obtain ⟨d, hd, rfl⟩ := Option.map_eq_some_iff.mp h
  have hsat := List.find?_some hd
  rw [Bool.and_eq_true, decide_eq_true_iff] at hsat
  exact ⟨d, List.mem_of_find?_eq_some hd, hsat.1, hsat.2, rfl⟩

theorem activeRule?_isSome {d : DomainRow} (hd : d ∈ db.domains) (hactive : d.policy.isActive = true) :
    (db.activeRule? d.rootDomainAscii).isSome := by
  unfold activeRule?
  rw [Option.isSome_map, List.find?_isSome]
  exact ⟨d, hd, by simp [hactive]⟩

/-- The longest active suffix rule is that of an active candidate or of one that extends it. -/
theorem longestRule?_of_active {domain : Text} {d : DomainRow} (hd : d ∈ db.domains)
    (hactive : d.policy.isActive = true) (hcandidate : d.rootDomainAscii ∈ candidateRoots domain) :
    ∃ rule, db.longestRule? domain = some rule ∧
      (rule.rootDomainAscii = d.rootDomainAscii ∨
        IsSubdomainOf rule.rootDomainAscii d.rootDomainAscii) := by
  have hsome := activeRule?_isSome hd hactive
  have hfound : (db.longestRule? domain).isSome := by
    unfold longestRule?
    rw [List.findSome?_isSome_iff]
    exact ⟨_, hcandidate, hsome⟩
  obtain ⟨rule, hrule⟩ := Option.isSome_iff_exists.mp hfound
  refine ⟨rule, hrule, ?_⟩
  obtain ⟨before, root, after, hsplit, hroot, hbefore⟩ := List.findSome?_eq_some_iff.mp hrule
  obtain ⟨e, -, heroot, -, rfl⟩ := activeRule?_eq_some hroot
  have hpairwise := pairwise_candidateRoots domain
  rw [hsplit] at hcandidate hpairwise
  rcases List.mem_append.mp hcandidate with hmem | hmem
  · rw [hbefore _ hmem] at hsome
    cases hsome
  · rcases List.mem_cons.mp hmem with heq | hmem
    · exact .inl (heroot.trans heq.symm)
    · right
      have hcons := (List.pairwise_append.mp hpairwise).2.1
      rw [show e.rule.rootDomainAscii = root from heroot]
      exact (List.pairwise_cons.mp hcons).1 _ hmem

/-! ## The Python service -/

/-- The rule of a root among the rows that a statement has selected. -/
theorem findRule_filter {p : DomainRow → Bool} {root : Text}
    (hp : ∀ d ∈ db.domains, d.rootDomainAscii = root → p d = d.policy.isActive) :
    (DomainMatcher.mk ((db.domains.filter p).map DomainRow.rule)).findRule root =
      db.activeRule? root := by
  unfold DomainMatcher.findRule activeRule?
  rw [List.find?_map, List.find?_filter]
  refine congrArg (Option.map DomainRow.rule) (List.find?_congr ?_)
  intro d hd
  by_cases hroot : d.rootDomainAscii = root
  · simp [DomainRow.rule, hroot, hp d hd hroot]
  · simp [DomainRow.rule, hroot]

/-- `match_active_domain` on an address that parses. -/
theorem matchActiveDomain_eq {A : AddressOps} (hA : A.Lawful) (hnorm : db.RootsNormalized)
    {address : Text} {parsed : ParsedMailboxAddress}
    (hparse : parseMailboxAddress A address true = some parsed) :
    db.matchActiveDomain A address =
      .ok (match db.longestRule? parsed.domainAscii with
        | some rule => ruleOutcome A parsed rule
        | none => (db.activeRule? catchAllRoot).bind (ruleMatch A parsed)) := by
  have hrule (root : Text)
      (hroot : root ∈ candidateRoots parsed.domainAscii ++ [catchAllRoot]) :
      (DomainMatcher.mk ((db.domains.filter fun d => d.policy.isActive && decide (d.rootDomainAscii ∈
        candidateRoots parsed.domainAscii ++ [catchAllRoot])).map DomainRow.rule)).findRule root =
        db.activeRule? root := by
    refine findRule_filter ?_
    rintro d - rfl
    rw [decide_eq_true hroot, Bool.and_true]
  unfold matchActiveDomain
  rw [hparse]
  dsimp only
  rw [DomainMatcher.ofRules?_eq hA]
  · dsimp only
    rw [DomainMatcher.matchAddress, hparse, Option.bind_some, DomainMatcher.matchParsed_eq]
    have hsuffix : (DomainMatcher.mk ((db.domains.filter fun d => d.policy.isActive &&
        decide (d.rootDomainAscii ∈ candidateRoots parsed.domainAscii ++ [catchAllRoot])).map
          DomainRow.rule)).suffixRule parsed.domainAscii = db.longestRule? parsed.domainAscii := by
      unfold DomainMatcher.suffixRule longestRule?
      exact findSome?_congr fun root hroot => hrule root (List.mem_append_left _ hroot)
    have hcatch := hrule catchAllRoot (by simp)
    rw [hsuffix]
    cases db.longestRule? parsed.domainAscii with
    | some rule => rfl
    | none => exact congrArg (fun rule => Except.ok (rule.bind (ruleMatch A parsed))) hcatch
  · intro rule hmem
    obtain ⟨d, hd, rfl⟩ := List.mem_map.mp hmem
    exact hnorm d (List.mem_of_mem_filter hd)

end Db

/-! ## The daemon -/

namespace BatchWriter

variable {A : AddressOps} {db : Db}

theorem managedRule?_eq {root : Text} (h : root ≠ catchAllRoot) :
    managedRule? db root = db.activeRule? root := by
  unfold managedRule? Db.activeRule?
  refine congrArg (Option.map DomainRow.rule) (List.find?_congr ?_)
  intro d _
  by_cases hroot : d.rootDomainAscii = root
  · simp [hroot, h]
  · simp [hroot]

theorem managedRule?_root {root : Text} {rule : DomainRule} (h : managedRule? db root = some rule) :
    rule.rootDomainAscii = root := by
  obtain ⟨d, hd, rfl⟩ := Option.map_eq_some_iff.mp h
  have hsat := List.find?_some hd
  simp only [Bool.and_eq_true, decide_eq_true_iff] at hsat
  exact hsat.1.1

/-- The match of the managed candidates is that of the longest active rule. -/
theorem managedMatcher_eq {parsed : ParsedMailboxAddress}
    (hdomain : IsNormalizedDomain parsed.domainAscii) :
    (DomainMatcher.mk (managedCandidates db parsed.domainAscii)).matchParsed A parsed =
      (db.longestRule? parsed.domainAscii).bind (ruleOutcome A parsed) := by
  have hstar := catchAllRoot_not_candidate hdomain
  have hrule (root : Text) (hroot : root ∈ candidateRoots parsed.domainAscii) :
      (DomainMatcher.mk (managedCandidates db parsed.domainAscii)).findRule root =
        managedRule? db root :=
    find?_filterMap_key (f := managedRule? db) (fun _ _ h => managedRule?_root h) hroot
  have hsuffix : (DomainMatcher.mk (managedCandidates db parsed.domainAscii)).suffixRule
      parsed.domainAscii = db.longestRule? parsed.domainAscii := by
    unfold DomainMatcher.suffixRule Db.longestRule?
    refine findSome?_congr fun root hroot => ?_
    rw [hrule root hroot, managedRule?_eq]
    rintro rfl
    exact hstar hroot
  have hcatch : (DomainMatcher.mk (managedCandidates db parsed.domainAscii)).catchAllRule = none := by
    unfold DomainMatcher.catchAllRule DomainMatcher.findRule
    rw [List.find?_eq_none]
    intro rule hmem heq
    obtain ⟨d, -, rfl, hne, -⟩ := mem_managedCandidates hmem
    exact hne (of_decide_eq_true heq)
  rw [DomainMatcher.matchParsed_eq, hsuffix, hcatch]
  cases db.longestRule? parsed.domainAscii with
  | none => rfl
  | some rule => rfl

theorem catchAllMatch_eq {rcptTo : Text} {parsed : ParsedMailboxAddress}
    (hparse : parseMailboxAddress A rcptTo true = some parsed)
    (hdomain : IsNormalizedDomain parsed.domainAscii) :
    catchAllMatch A db rcptTo = (db.activeRule? catchAllRoot).bind (ruleMatch A parsed) := by
  unfold catchAllMatch catchAllMatcher Db.activeRule?
  cases hfind : db.domains.find? fun d => d.rootDomainAscii = catchAllRoot && d.policy.isActive with
  | none => rfl
  | some d =>
    have hsat := List.find?_some hfind
    rw [Bool.and_eq_true, decide_eq_true_iff] at hsat
    have hroot : d.rule.rootDomainAscii = catchAllRoot := hsat.1
    have hnone : (DomainMatcher.mk [d.rule]).suffixRule parsed.domainAscii = none := by
      unfold DomainMatcher.suffixRule
      rw [List.findSome?_eq_none_iff]
      intro root hmem
      unfold DomainMatcher.findRule
      rw [List.find?_singleton, hroot]
      have hne : catchAllRoot ≠ root := fun heq => catchAllRoot_not_candidate hdomain (heq ▸ hmem)
      simp [hne]
    rw [Option.map_some, Option.bind_some, DomainMatcher.matchAddress, hparse, Option.bind_some,
      DomainMatcher.matchParsed_eq, hnone]
    dsimp only
    have hcatch : (DomainMatcher.mk [d.rule]).catchAllRule = some d.rule := by
      unfold DomainMatcher.catchAllRule DomainMatcher.findRule
      rw [List.find?_singleton, hroot]
      simp
    rw [hcatch]
    rfl

end BatchWriter
end RapidInbox
