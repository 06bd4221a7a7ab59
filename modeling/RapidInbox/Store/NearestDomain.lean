import RapidInbox.Domain.NearestSuffix
import RapidInbox.Store.Promotion

/-!
# The matchers over the domain table

`match_active_domain`, the matcher of `load_active_domain_matcher` and the matcher of the daemon over
the active rows of `domains`: for each of them the nearest configured suffix decides.
-/

namespace RapidInbox

namespace Db

/-- The rules of the active domains. -/
def activeRules (db : Db) : List DomainRule :=
  (db.domains.filter fun d => d.policy.isActive).map DomainRow.rule

/-- The roots of the active domains are normalised. -/
def ActiveRootsNormalized (db : Db) : Prop :=
  ∀ d ∈ db.domains, d.policy.isActive = true → IsNormalizedRoot d.rootDomainAscii

variable {db : Db} {A : AddressOps}

theorem ActiveRootsNormalized.rules (hroots : db.ActiveRootsNormalized) :
    ∀ rule ∈ db.activeRules, IsNormalizedRoot rule.rootDomainAscii := by
  intro rule hrule
  obtain ⟨d, hd, rfl⟩ := List.mem_map.mp hrule
  obtain ⟨hmem, hactive⟩ := List.mem_filter.mp hd
  exact hroots d hmem hactive

/-- The statement of `match_active_domain` selects the rules that may decide. -/
theorem candidateRules_eq (db : Db) (domain : Text) :
    (db.domains.filter fun d => d.policy.isActive &&
      decide (d.rootDomainAscii ∈ candidateRoots domain ++ [catchAllRoot])).map DomainRow.rule =
      relevantRules db.activeRules domain := by
  unfold relevantRules activeRules
  rw [List.filter_map, List.filter_filter]
  congr 1
  refine List.filter_congr ?_
  intro d _
  have hiff : d.rootDomainAscii ∈ candidateRoots domain ++ [catchAllRoot] ↔
      d.rootDomainAscii = catchAllRoot ∨ IsLabelSuffix domain d.rootDomainAscii := by
    rw [List.mem_append, List.mem_singleton, mem_candidateRoots, or_comm]
  rw [Bool.and_comm, decide_eq_decide.mpr hiff]
  rfl

theorem matchActiveDomain_nearest (hA : A.Lawful) (hroots : db.ActiveRootsNormalized)
    (address : Text) :
    db.matchActiveDomain A address =
      .ok ((parseMailboxAddress A address true).bind fun parsed =>
        nearestMatch db.activeRules parsed.domainAscii (ruleMatch A parsed)) := by
  unfold matchActiveDomain
  cases hparse : parseMailboxAddress A address true with
  | none => rfl
  | some parsed =>
    have hrules : ∀ rule ∈ relevantRules db.activeRules parsed.domainAscii,
        IsNormalizedRoot rule.rootDomainAscii :=
      fun rule hrule => hroots.rules rule (List.mem_of_mem_filter hrule)
    dsimp only
    rw [candidateRules_eq, DomainMatcher.ofRules?_eq hA hrules]
    dsimp only
    rw [matchAddress_nearest, hparse, Option.bind_some, Option.bind_some,
      nearestMatch_relevantRules]

theorem loadActiveDomainMatcher_eq (hA : A.Lawful) (hroots : db.ActiveRootsNormalized) :
    db.loadActiveDomainMatcher A = .ok ⟨db.activeRules⟩ := by
  have hrules := DomainMatcher.ofRules?_eq hA hroots.rules
  unfold loadActiveDomainMatcher
  rw [show (db.domains.filter fun d => d.policy.isActive).map DomainRow.rule = db.activeRules from rfl,
    hrules]

end Db

/-- The result for an address, if it can be parsed. -/
def NearestResult (rules : List DomainRule) (parsed? : Option ParsedMailboxAddress)
    (outcome : ParsedMailboxAddress → DomainRule → Option DomainMatch) (result : Option DomainMatch) :
    Prop :=
  match parsed? with
  | none => result = none
  | some parsed => NearestOutcome rules parsed.domainAscii (outcome parsed) result

theorem nearestResult_iff {rules : List DomainRule} {parsed? : Option ParsedMailboxAddress}
    {outcome : ParsedMailboxAddress → DomainRule → Option DomainMatch} {result : Option DomainMatch} :
    NearestResult rules parsed? outcome result ↔
      (parsed?.bind fun parsed => nearestMatch rules parsed.domainAscii (outcome parsed)) = result := by
  cases parsed? with
  | none => exact eq_comm
  | some parsed => exact nearestOutcome_iff

/-- The daemon's matcher over rules with normalised roots. -/
theorem cppMatcher_nearest (U : UnicodeOps) {rules : List DomainRule}
    (hroots : ∀ rule ∈ rules, IsNormalizedRoot rule.rootDomainAscii) :
    ∃ t, Cpp.newMatcher U rules = some t ∧ ∀ address,
      NearestResult rules (Cpp.parseMailboxAddress U address true)
        (fun parsed rule => Cpp.matchWith U parsed rule rule.rootDomainAscii)
        (Cpp.matchAddress U t address) := by
  have hload := RootTable.load_represents (cppAddressOps U) DomainRule.withRoot (fun _ _ => rfl)
    RootTable.empty_represents rules
  rw [DomainMatcher.ofRules?_eq (cppAddressOps_lawful U) hroots, ← cppNewMatcher_eq] at hload
  obtain ⟨t, ht, hrep⟩ := hload
  have hkeyed : t.Keyed := by
    refine RootTable.load_keyed (t := .empty) ?_ (cppNewMatcher_eq U rules ▸ ht)
    exact fun root rule hlookup => nomatch hlookup
  refine ⟨t, ht, ?_⟩
  intro address
  rw [nearestResult_iff]
  exact (cppMatchAddress_nearest hrep hkeyed address).symm

/-- The matcher class of the service over rules with normalised roots. -/
theorem pyMatcher_eq (V : UnicodeOps) {rules : List DomainRule}
    (hroots : ∀ rule ∈ rules, IsNormalizedRoot rule.rootDomainAscii) :
    ∃ t, Py.newMatcher V rules = some t ∧ ∀ address,
      Py.matchAddress V t address = (DomainMatcher.mk rules).matchAddress (pyAddressOps V) address := by
  have hload := RootTable.load_represents (pyAddressOps V) (fun rule _ => rule) (fun _ _ => rfl)
    RootTable.empty_represents rules
  rw [DomainMatcher.ofRules?_eq (pyAddressOps_lawful V) hroots, ← pyNewMatcher_eq] at hload
  obtain ⟨t, ht, hrep⟩ := hload
  exact ⟨t, ht, pyMatchAddress_eq hrep⟩

/-- The three matchers over the active domains give the one result that the nearest configured suffix
    decides; rules of other roots have no influence on it. -/
theorem nearest_suffix_decides (U V : UnicodeOps) (db : Db) (hroots : db.ActiveRootsNormalized)
    (address : Text) :
    (∃ result, db.matchActiveDomain (pyAddressOps V) address = .ok result ∧
      NearestResult db.activeRules (parseMailboxAddress (pyAddressOps V) address true)
        (ruleMatch (pyAddressOps V)) result ∧
      ∃ matcher t, db.loadActiveDomainMatcher (pyAddressOps V) = .ok matcher ∧
        matcher.matchAddress (pyAddressOps V) address = result ∧
        Py.newMatcher V db.activeRules = some t ∧ Py.matchAddress V t address = result) ∧
    (∃ t, Cpp.newMatcher U db.activeRules = some t ∧
      NearestResult db.activeRules (Cpp.parseMailboxAddress U address true)
        (fun parsed rule => Cpp.matchWith U parsed rule rule.rootDomainAscii)
        (Cpp.matchAddress U t address)) ∧
    ∀ domain outcome,
      (∃ result, ∀ result', NearestOutcome db.activeRules domain outcome result' ↔ result' = result) ∧
      ∀ rules, relevantRules rules domain = relevantRules db.activeRules domain → ∀ result,
        NearestOutcome rules domain outcome result ↔
          NearestOutcome db.activeRules domain outcome result := by
  refine ⟨?_, ?_, ?_⟩
  · obtain ⟨t, ht, hmatch⟩ := pyMatcher_eq V hroots.rules
    refine ⟨_, Db.matchActiveDomain_nearest (pyAddressOps_lawful V) hroots address,
      nearestResult_iff.mpr rfl, _, t, Db.loadActiveDomainMatcher_eq (pyAddressOps_lawful V) hroots, ?_,
      ht, ?_⟩
    · exact matchAddress_nearest _ _ address
    · rw [hmatch]
      exact matchAddress_nearest _ _ address
  · obtain ⟨t, ht, hnearest⟩ := cppMatcher_nearest U hroots.rules
    exact ⟨t, ht, hnearest address⟩
  · intro domain outcome
    constructor
    · refine ⟨nearestMatch db.activeRules domain outcome, fun result' => ?_⟩
      rw [nearestOutcome_iff, eq_comm]
    · intro rules hrules result
      rw [nearestOutcome_iff, nearestOutcome_iff, ← nearestMatch_relevantRules, hrules,
        nearestMatch_relevantRules]

/-- A catch-all domain, and a domain without subdomains. -/
def refusingDb : Db :=
  { Db.empty with
    domains := [⟨1, catchAllRoot, Db.defaultPolicy catchAllRoot⟩,
      ⟨2, "b.example".toList, { Db.defaultPolicy "b.example".toList with acceptSubdomains := false }⟩] }

/-- The catch-all domain does not get what the nearer one refuses. -/
theorem nearest_suffix_decides_refusal :
    refusingDb.matchActiveDomain (pyAddressOps .asciiOnly) "a@mail.b.example".toList = .ok none ∧
      ∃ t, Cpp.newMatcher .asciiOnly refusingDb.activeRules = some t ∧
        Cpp.matchAddress .asciiOnly t "a@mail.b.example".toList = none := by
  have hroots : refusingDb.ActiveRootsNormalized := by
    intro d hd _
    rcases List.mem_pair.mp hd with rfl | rfl
    · exact .inl rfl
    · exact .inr ⟨by decide, by decide, by decide⟩
  obtain ⟨⟨result, hmatch, hnearest, -⟩, ⟨t, ht, hcpp⟩, -⟩ :=
    nearest_suffix_decides .asciiOnly .asciiOnly refusingDb hroots "a@mail.b.example".toList
  rw [nearestResult_iff] at hnearest hcpp
  refine ⟨?_, t, ht, ?_⟩
  · rw [hmatch, ← hnearest]
    decide +kernel
  · rw [← hcpp]
    decide +kernel

end RapidInbox
