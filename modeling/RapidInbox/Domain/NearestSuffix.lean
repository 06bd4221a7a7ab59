import Mathlib.Data.List.Find
import RapidInbox.Lib.Table
import RapidInbox.Domain.MatcherAgreement

/-!
# The nearest configured suffix

What a matcher is for: among the domain and its label suffixes the longest configured root decides,
by its first rule alone, and the catch-all rule decides where no suffix is configured.  The walk of
each language over its table computes this.
-/

namespace RapidInbox

/-- A suffix of a domain that begins at a label, the domain itself included. -/
def IsLabelSuffix (domain suffix : Text) : Prop := suffix = domain ∨ IsSubdomainOf domain suffix

instance (domain suffix : Text) : Decidable (IsLabelSuffix domain suffix) :=
  inferInstanceAs (Decidable (_ ∨ _))

/-- Some rule has the root. -/
def IsConfigured (rules : List DomainRule) (root : Text) : Prop :=
  ∃ rule ∈ rules, rule.rootDomainAscii = root

/-- The longest label suffix of a domain that is configured. -/
structure IsNearestRoot (rules : List DomainRule) (domain root : Text) : Prop where
  suffix : IsLabelSuffix domain root
  configured : IsConfigured rules root
  longest : ∀ other, IsLabelSuffix domain other → IsConfigured rules other →
    other.length ≤ root.length

/-- The first rule of a root. -/
def IsFirstRule (rules : List DomainRule) (root : Text) (rule : DomainRule) : Prop :=
  rule.rootDomainAscii = root ∧ ∃ before after, rules = before ++ rule :: after ∧
    ∀ earlier ∈ before, earlier.rootDomainAscii ≠ root

/-- The result for a domain under the outcomes of the rules: a nearest rule that refuses ends the
    search. -/
inductive NearestOutcome (rules : List DomainRule) (domain : Text)
    (outcome : DomainRule → Option DomainMatch) : Option DomainMatch → Prop where
  | exact {rule : DomainRule} : IsNearestRoot rules domain domain → IsFirstRule rules domain rule →
      NearestOutcome rules domain outcome (if rule.acceptExact then outcome rule else none)
  | subdomain {root : Text} {rule : DomainRule} : IsNearestRoot rules domain root → root ≠ domain →
      IsFirstRule rules root rule →
      NearestOutcome rules domain outcome (if rule.acceptSubdomains then outcome rule else none)
  | catchAll {rule : DomainRule} : (∀ root, IsLabelSuffix domain root → ¬IsConfigured rules root) →
      IsFirstRule rules catchAllRoot rule → NearestOutcome rules domain outcome (outcome rule)
  | unmatched : (∀ root, IsLabelSuffix domain root → ¬IsConfigured rules root) →
      ¬IsConfigured rules catchAllRoot → NearestOutcome rules domain outcome none

/-! ## Candidates -/

variable {rules : List DomainRule} {domain root : Text}

theorem mem_domainSuffixes_iff : root ∈ domainSuffixes domain ↔ IsSubdomainOf domain root := by
  unfold IsSubdomainOf
  induction domain with
  | nil => simp [domainSuffixes]
  | cons c cs ih =>
    rw [domainSuffixes, List.suffix_cons_iff]
    by_cases hdot : c = '.'
    · rw [if_pos hdot, List.mem_cons, ih, hdot, List.cons.injEq, and_iff_right rfl]
    · have hne : ¬ '.' :: root = c :: cs := fun heq => hdot (List.cons.inj heq).1.symm
      rw [if_neg hdot, ih, or_iff_right hne]

theorem mem_candidateRoots : root ∈ candidateRoots domain ↔ IsLabelSuffix domain root := by
  rw [candidateRoots, List.mem_cons, mem_domainSuffixes_iff]
  rfl

/-- A later candidate is shorter. -/
theorem candidateRoots_sorted (domain : Text) :
    (candidateRoots domain).Pairwise fun root other => other.length < root.length := by
  have hlength {t s : Text} (h : IsSubdomainOf t s) : s.length < t.length := by
    have hle := List.IsSuffix.length_le h
    rwa [List.length_cons] at hle
  have hsuffixes (t : Text) : (domainSuffixes t).Pairwise fun root other =>
      other.length < root.length := by
    induction t with
    | nil => exact .nil
    | cons c cs ih =>
      unfold domainSuffixes
      split
      · exact .cons (fun other hother => hlength (mem_domainSuffixes_iff.mp hother)) ih
      · exact ih
  exact .cons (fun other hother => hlength (mem_domainSuffixes_iff.mp hother)) (hsuffixes domain)

theorem findRule_eq_some_iff {rule : DomainRule} :
    (DomainMatcher.mk rules).findRule root = some rule ↔ IsFirstRule rules root rule := by
  unfold DomainMatcher.findRule IsFirstRule
  rw [List.find?_eq_some_iff_append]
  simp

theorem findRule_eq_none_iff :
    (DomainMatcher.mk rules).findRule root = none ↔ ¬IsConfigured rules root := by
  simp [DomainMatcher.findRule, IsConfigured]

theorem IsFirstRule.configured {rule : DomainRule} (h : IsFirstRule rules root rule) :
    IsConfigured rules root := by
  obtain ⟨hroot, before, after, rfl, -⟩ := h
  exact ⟨rule, by simp, hroot⟩

/-- The search through the candidates finds the first rule of the nearest root. -/
theorem suffixRule_eq_some_iff {rule : DomainRule} :
    (DomainMatcher.mk rules).suffixRule domain = some rule ↔
      ∃ root, IsNearestRoot rules domain root ∧ IsFirstRule rules root rule := by
  unfold DomainMatcher.suffixRule
  rw [List.findSome?_eq_some_iff]
  have hsorted := candidateRoots_sorted domain
  constructor
  · rintro ⟨before, root, after, hsplit, hrule, hbefore⟩
    have hfirst := findRule_eq_some_iff.mp hrule
    refine ⟨root, ⟨mem_candidateRoots.mp (by simp [hsplit]), hfirst.configured, ?_⟩, hfirst⟩
    intro other hother hconfigured
    have hmem := mem_candidateRoots.mpr hother
    rw [hsplit] at hmem hsorted
    rcases List.mem_append.mp hmem with hmem | hmem
    · exact absurd hconfigured (findRule_eq_none_iff.mp (hbefore other hmem))
    · rcases List.mem_cons.mp hmem with rfl | hmem
      · exact Nat.le_refl _
      · have hafter := (List.pairwise_cons.mp (List.pairwise_append.mp hsorted).2.1).1 other hmem
        exact Nat.le_of_lt hafter
  · rintro ⟨root, hnearest, hfirst⟩
    obtain ⟨before, after, hsplit⟩ := List.append_of_mem (mem_candidateRoots.mpr hnearest.suffix)
    refine ⟨before, root, after, hsplit, findRule_eq_some_iff.mpr hfirst, ?_⟩
    intro other hother
    rw [findRule_eq_none_iff]
    intro hconfigured
    have hle := hnearest.longest other (mem_candidateRoots.mp (by simp [hsplit, hother])) hconfigured
    rw [hsplit] at hsorted
    have hlt := (List.pairwise_append.mp hsorted).2.2 other hother root List.mem_cons_self
    omega

theorem suffixRule_eq_none_iff :
    (DomainMatcher.mk rules).suffixRule domain = none ↔
      ∀ root, IsLabelSuffix domain root → ¬IsConfigured rules root := by
  unfold DomainMatcher.suffixRule
  rw [List.findSome?_eq_none_iff]
  simp only [mem_candidateRoots, findRule_eq_none_iff]

/-! ## The result -/

/-- The computed result. -/
def nearestMatch (rules : List DomainRule) (domain : Text)
    (outcome : DomainRule → Option DomainMatch) : Option DomainMatch :=
  match (DomainMatcher.mk rules).suffixRule domain with
  | some rule => if rule.accepts domain then outcome rule else none
  | none => (DomainMatcher.mk rules).catchAllRule.bind outcome

/-- There is one result, and the search computes it. -/
theorem nearestOutcome_iff {outcome : DomainRule → Option DomainMatch} {result : Option DomainMatch} :
    NearestOutcome rules domain outcome result ↔ nearestMatch rules domain outcome = result := by
  constructor
  · intro h
    unfold nearestMatch
    cases h with
    | exact hnearest hfirst =>
      rw [suffixRule_eq_some_iff.mpr ⟨_, hnearest, hfirst⟩]
      simp [DomainRule.accepts, hfirst.1]
    | subdomain hnearest hne hfirst =>
      rw [suffixRule_eq_some_iff.mpr ⟨_, hnearest, hfirst⟩]
      simp [DomainRule.accepts, hfirst.1, hne]
    | catchAll hnone hfirst =>
      rw [suffixRule_eq_none_iff.mpr hnone, DomainMatcher.catchAllRule,
        findRule_eq_some_iff.mpr hfirst]
      rfl
    | unmatched hnone hcatch =>
      rw [suffixRule_eq_none_iff.mpr hnone, DomainMatcher.catchAllRule,
        findRule_eq_none_iff.mpr hcatch]
      rfl
  · rintro rfl
    unfold nearestMatch
    cases hsuffix : (DomainMatcher.mk rules).suffixRule domain with
    | some rule =>
      obtain ⟨root, hnearest, hfirst⟩ := suffixRule_eq_some_iff.mp hsuffix
      by_cases hexact : root = domain
      · subst hexact
        have hresult : NearestOutcome rules root outcome
            (if rule.acceptExact then outcome rule else none) := .exact hnearest hfirst
        simpa [DomainRule.accepts, hfirst.1] using hresult
      · have hresult : NearestOutcome rules domain outcome
            (if rule.acceptSubdomains then outcome rule else none) := .subdomain hnearest hexact hfirst
        simpa [DomainRule.accepts, hfirst.1, hexact] using hresult
    | none =>
      have hnone := suffixRule_eq_none_iff.mp hsuffix
      cases hcatch : (DomainMatcher.mk rules).catchAllRule with
      | some rule => exact .catchAll hnone (findRule_eq_some_iff.mp hcatch)
      | none => exact .unmatched hnone (findRule_eq_none_iff.mp hcatch)

/-- The rules that may decide about a domain. -/
def relevantRules (rules : List DomainRule) (domain : Text) : List DomainRule :=
  rules.filter fun rule =>
    rule.rootDomainAscii = catchAllRoot ∨ IsLabelSuffix domain rule.rootDomainAscii

/-- Rules of other roots have no influence. -/
theorem nearestMatch_relevantRules (rules : List DomainRule) (domain : Text)
    (outcome : DomainRule → Option DomainMatch) :
    nearestMatch (relevantRules rules domain) domain outcome = nearestMatch rules domain outcome := by
  have hfind (root : Text) (hroot : root = catchAllRoot ∨ IsLabelSuffix domain root) :
      (DomainMatcher.mk (relevantRules rules domain)).findRule root =
        (DomainMatcher.mk rules).findRule root := by
    unfold DomainMatcher.findRule relevantRules
    rw [List.find?_filter]
    refine List.find?_congr ?_
    intro rule _
    by_cases heq : rule.rootDomainAscii = root
    · simp [heq, hroot]
    · simp [heq]
  have hsuffix : (DomainMatcher.mk (relevantRules rules domain)).suffixRule domain =
      (DomainMatcher.mk rules).suffixRule domain := by
    unfold DomainMatcher.suffixRule
    refine Table.findSome?_congr ?_
    intro root hroot
    exact hfind root (.inr (mem_candidateRoots.mp hroot))
  unfold nearestMatch DomainMatcher.catchAllRule
  rw [hsuffix, hfind catchAllRoot (.inl rfl)]

/-! ## The matchers -/

/-- The shared matcher. -/
theorem matchAddress_nearest (A : AddressOps) (rules : List DomainRule) (address : Text) :
    (DomainMatcher.mk rules).matchAddress A address =
      (parseMailboxAddress A address true).bind fun parsed =>
        nearestMatch rules parsed.domainAscii (ruleMatch A parsed) := by
  unfold DomainMatcher.matchAddress
  congr 1
  funext parsed
  rw [DomainMatcher.matchParsed_eq]
  rfl

/-- The walk of the daemon. -/
theorem cppMatchAddress_nearest {U : UnicodeOps} {t : RootTable} (h : t.Represents ⟨rules⟩)
    (hkeyed : t.Keyed) (address : Text) :
    Cpp.matchAddress U t address =
      (Cpp.parseMailboxAddress U address true).bind fun parsed =>
        nearestMatch rules parsed.domainAscii fun rule =>
          Cpp.matchWith U parsed rule rule.rootDomainAscii :=
  cppMatchAddress_walk h hkeyed address

end RapidInbox
