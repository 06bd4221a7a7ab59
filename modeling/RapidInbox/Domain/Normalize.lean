import Mathlib.Tactic.IntervalCases
import RapidInbox.Domain.Matcher

/-!
# Normalised domains

Both `normalize_domain`s return `*` or a lower-case ASCII domain with valid labels, and both leave
such a domain alone.  A matcher over normalised roots therefore exists and keeps its rules.
-/

namespace RapidInbox

/-- A non-empty lower-case ASCII domain with valid labels. -/
structure IsNormalizedDomain (t : Text) : Prop where
  ascii : isAsciiDomain t
  lower : asciiLower t = t
  labels : validateAsciiDomainLabels t

/-- A root that a domain row or a rule may have. -/
def IsNormalizedRoot (t : Text) : Prop := t = catchAllRoot ∨ IsNormalizedDomain t

theorem mem_splitOn_of_mem {c : Char} {t : Text} (h : c ∈ t) :
    c = '.' ∨ ∃ label ∈ t.splitOn '.', c ∈ label := by
  have hjoin : ['.'].intercalate (t.splitOn '.') = t := List.intercalate_splitOn '.'
  rw [← hjoin] at h
  generalize t.splitOn '.' = labels at h
  induction labels with
  | nil => simp at h
  | cons label labels ih =>
    cases labels with
    | nil =>
      rw [List.intercalate_singleton] at h
      exact .inr ⟨label, List.mem_cons_self, h⟩
    | cons next labels =>
      rw [List.intercalate_cons_cons, List.mem_append, List.mem_append] at h
      rcases h with (h | h) | h
      · exact .inr ⟨label, List.mem_cons_self, h⟩
      · exact .inl (List.mem_singleton.mp h)
      · rcases ih h with h | ⟨l, hl, hc⟩
        · exact .inl h
        · exact .inr ⟨l, List.mem_cons_of_mem _ hl, hc⟩

/-- Letters, digits, hyphens and dots are no white space, and only the dot separates labels. -/
theorem labelChar_facts {c : Char} (h : c = '.' ∨ isLabelChar c) :
    isPythonWhitespace c = false ∧ c ≠ '\x00' ∧ c ≠ '*' := by
  have hrange : c.toNat = 46 ∨ 97 ≤ c.toNat ∧ c.toNat ≤ 122 ∨ 65 ≤ c.toNat ∧ c.toNat ≤ 90 ∨
      48 ≤ c.toNat ∧ c.toNat ≤ 57 ∨ c.toNat = 45 := by
    rcases h with rfl | h
    · exact .inl rfl
    · simp only [isLabelChar, Bool.or_eq_true, Bool.and_eq_true, decide_eq_true_eq, beq_iff_eq,
        Char.le_def] at h
      rcases h with ((h | h) | h) | rfl
      · exact .inr (.inl h)
      · exact .inr (.inr (.inl h))
      · exact .inr (.inr (.inr (.inl h)))
      · exact .inr (.inr (.inr (.inr rfl)))
  refine ⟨?_, ?_, ?_⟩
  · unfold isPythonWhitespace
    generalize c.toNat = n at hrange
    simp only [Bool.or_eq_false_iff, Bool.and_eq_false_iff, decide_eq_false_iff_not, beq_eq_false_iff_ne]
    omega
  · rintro rfl
    simp at hrange
  · rintro rfl
    simp at hrange

/-- The ideographic full stops are no ASCII. -/
theorem mapIdnaDotSeparators_ascii {t : Text} (hascii : isAsciiDomain t) :
    mapIdnaDotSeparators t = t := by
  unfold mapIdnaDotSeparators
  rw [isAsciiDomain, List.all_eq_true] at hascii
  conv => rhs; rw [← List.map_id t]
  apply List.map_congr_left
  intro c hc
  have hlt : c.toNat < 128 := by
    have hval : c.val < 128 := of_decide_eq_true (hascii c hc)
    exact UInt32.lt_iff_toNat_lt.mp hval
  rw [if_neg]
  · rfl
  · simp only [Bool.or_eq_true, beq_iff_eq, not_or]
    omega

namespace IsNormalizedDomain

variable {t : Text}

theorem label (h : IsNormalizedDomain t) {l : Text} (hl : l ∈ t.splitOn '.') : labelOk l := by
  have := h.labels
  rw [validateAsciiDomainLabels, Bool.and_eq_true, List.all_eq_true] at this
  exact this.2 l hl

theorem char (h : IsNormalizedDomain t) {c : Char} (hc : c ∈ t) : c = '.' ∨ isLabelChar c := by
  rcases mem_splitOn_of_mem hc with hdot | ⟨l, hl, hcl⟩
  · exact .inl hdot
  · have hok := h.label hl
    rw [labelOk, Bool.and_eq_true, List.all_eq_true] at hok
    exact .inr (hok.2 c hcl)

theorem nil_notMem (h : IsNormalizedDomain t) : [] ∉ t.splitOn '.' := by
  intro hnil
  have hok := h.label hnil
  simp [labelOk, labelEdgesOk] at hok

theorem ne_nil (h : IsNormalizedDomain t) : t ≠ [] := by
  rintro rfl
  exact h.nil_notMem (by simp [List.splitOn_nil])

theorem ne_catchAllRoot (h : IsNormalizedDomain t) : t ≠ catchAllRoot := by
  rintro rfl
  exact (labelChar_facts (h.char (c := '*') (by simp [catchAllRoot]))).2.2 rfl

theorem getLast_ne_dot (h : IsNormalizedDomain t) {s : Text} : t ≠ s ++ ['.'] := by
  rintro rfl
  apply h.nil_notMem
  rw [List.splitOn_append_cons_self]
  simp [List.splitOn_nil]

theorem dropWhile_whitespace (h : IsNormalizedDomain t) : stripUnicodeWhitespace t = t :=
  stripUnicodeWhitespace_eq_self fun _ hc => (labelChar_facts (h.char hc)).1

theorem rstripDots_eq (h : IsNormalizedDomain t) : rstripDots t = t := by
  unfold rstripDots
  cases hr : t.reverse with
  | nil =>
    rw [List.reverse_eq_nil_iff] at hr
    exact absurd hr h.ne_nil
  | cons c s =>
    have ht : t = s.reverse ++ [c] := by
      rw [← List.reverse_reverse t, hr, List.reverse_cons]
    have hc : c ≠ '.' := by
      rintro rfl
      exact h.getLast_ne_dot ht
    rw [List.dropWhile_cons_of_neg (by simpa using hc), List.reverse_cons, ← ht]

theorem mapIdnaDotSeparators_eq (h : IsNormalizedDomain t) : mapIdnaDotSeparators t = t :=
  mapIdnaDotSeparators_ascii h.ascii

theorem validateRawDomainLabelEdges (h : IsNormalizedDomain t) : validateRawDomainLabelEdges t := by
  rw [RapidInbox.validateRawDomainLabelEdges, h.mapIdnaDotSeparators_eq, List.all_eq_true]
  intro l hl
  have hok := h.label hl
  rw [labelOk, Bool.and_eq_true, Bool.and_eq_true] at hok
  exact hok.1.1

theorem finishDomain_eq (h : IsNormalizedDomain t) : finishDomain t = some t := by
  unfold finishDomain
  dsimp only
  rw [h.lower, h.ascii, h.labels]
  rfl

theorem normalizeDomainCpp_eq (h : IsNormalizedDomain t) (U : UnicodeOps) :
    normalizeDomainCpp U t = some t := by
  have hstar : t ≠ ['*'] := h.ne_catchAllRoot
  unfold normalizeDomainCpp
  dsimp only
  rw [h.dropWhile_whitespace, h.rstripDots_eq, if_neg, if_neg hstar, if_neg, if_neg,
    if_pos h.ascii, h.finishDomain_eq]
  · simp [h.validateRawDomainLabelEdges]
  · rw [List.contains_iff_mem]
    intro hnul
    exact (labelChar_facts (h.char hnul)).2.1 rfl
  · simpa using h.ne_nil

theorem normalizeDomainPy_eq (h : IsNormalizedDomain t) (U : UnicodeOps) :
    normalizeDomainPy U t = some t := by
  have hstar : t ≠ ['*'] := h.ne_catchAllRoot
  unfold normalizeDomainPy
  dsimp only
  rw [h.dropWhile_whitespace, h.rstripDots_eq, lowerText, if_pos h.ascii, h.lower,
    if_neg hstar, if_neg, if_neg, if_pos h.ascii, h.finishDomain_eq]
  · simp [h.validateRawDomainLabelEdges]
  · simpa using h.ne_nil

end IsNormalizedDomain

/-! ## What the two normalisations return -/

theorem asciiLowerChar_facts (c : Char) (h : isAsciiChar c) :
    isAsciiChar (asciiLowerChar c) ∧ asciiLowerChar (asciiLowerChar c) = asciiLowerChar c := by
  unfold asciiLowerChar
  by_cases hc : 'A' ≤ c ∧ c ≤ 'Z'
  · rw [if_pos hc]
    obtain ⟨hlow, hhigh⟩ := hc
    have hl : 65 ≤ c.toNat := hlow
    have hh : c.toNat ≤ 90 := hhigh
    generalize c.toNat = n at hl hh
    interval_cases n <;> decide
  · simp only [hc, if_false]
    exact ⟨h, trivial⟩

/-- Only capital letters change, into small letters. -/
theorem asciiLowerChar_eq_iff {c d : Char} (hd : ¬('a' ≤ d ∧ d ≤ 'z')) (hupper : ¬('A' ≤ d ∧ d ≤ 'Z')) :
    asciiLowerChar c = d ↔ c = d := by
  unfold asciiLowerChar
  by_cases hc : 'A' ≤ c ∧ c ≤ 'Z'
  · rw [if_pos hc]
    have hl : 65 ≤ c.toNat := hc.1
    have hh : c.toNat ≤ 90 := hc.2
    constructor
    · rintro rfl
      refine absurd ?_ hd
      generalize c.toNat = n at hl hh
      interval_cases n <;> decide
    · rintro rfl
      exact absurd hc hupper
  · rw [if_neg hc]

theorem finishDomain_normalized {t t' : Text} (h : finishDomain t = some t') :
    IsNormalizedDomain t' := by
  unfold finishDomain at h
  dsimp only at h
  split at h
  · rename_i hcond
    cases h
    rw [Bool.and_eq_true] at hcond
    have hascii := hcond.1
    rw [isAsciiDomain, List.all_eq_true] at hascii
    refine ⟨?_, ?_, hcond.2⟩
    · rw [isAsciiDomain, asciiLower, List.all_map, List.all_eq_true]
      intro c hc
      exact (asciiLowerChar_facts c (hascii c hc)).1
    · rw [asciiLower, asciiLower, List.map_map]
      apply List.map_congr_left
      intro c hc
      exact (asciiLowerChar_facts c (hascii c hc)).2
  · cases h

theorem normalizeDomainCpp_normalized {U : UnicodeOps} {t t' : Text}
    (h : normalizeDomainCpp U t = some t') : IsNormalizedRoot t' := by
  unfold normalizeDomainCpp at h
  dsimp only at h
  generalize rstripDots (stripUnicodeWhitespace t) = u at h
  split at h
  · cases h
  · split at h
    · rename_i hstar
      cases h
      exact .inl hstar
    · split at h
      · cases h
      · split at h
        · cases h
        · split at h
          · exact .inr (finishDomain_normalized h)
          · obtain ⟨v, -, hv⟩ := Option.bind_eq_some_iff.mp h
            exact .inr (finishDomain_normalized hv)

theorem normalizeDomainPy_normalized {U : UnicodeOps} {t t' : Text}
    (h : normalizeDomainPy U t = some t') : IsNormalizedRoot t' := by
  unfold normalizeDomainPy at h
  dsimp only at h
  generalize lowerText U (rstripDots (stripUnicodeWhitespace t)) = u at h
  split at h
  · rename_i hstar
    cases h
    exact .inl hstar
  · split at h
    · cases h
    · split at h
      · cases h
      · split at h
        · exact .inr (finishDomain_normalized h)
        · obtain ⟨v, -, hv⟩ := Option.bind_eq_some_iff.mp h
          exact .inr (finishDomain_normalized hv)

/-- The address code of either language: it returns normalised domains and leaves them alone. -/
structure AddressOps.Lawful (A : AddressOps) : Prop where
  normalized : ∀ {t t'}, A.normalizeDomain t = some t' → IsNormalizedRoot t'
  fixes : ∀ {t}, IsNormalizedRoot t → A.normalizeDomain t = some t

theorem cppAddressOps_lawful (U : UnicodeOps) : (cppAddressOps U).Lawful := by
  refine ⟨normalizeDomainCpp_normalized, ?_⟩
  rintro t (rfl | h)
  · rfl
  · exact h.normalizeDomainCpp_eq U

theorem pyAddressOps_lawful (U : UnicodeOps) : (pyAddressOps U).Lawful := by
  refine ⟨normalizeDomainPy_normalized, ?_⟩
  rintro t (rfl | h)
  · rfl
  · exact h.normalizeDomainPy_eq U

/-! ## Matchers -/

/-- A matcher over normalised roots has the rules it was built from. -/
theorem DomainMatcher.ofRules?_eq {A : AddressOps} (hA : A.Lawful) {rules : List DomainRule}
    (h : ∀ rule ∈ rules, IsNormalizedRoot rule.rootDomainAscii) :
    DomainMatcher.ofRules? A rules = some ⟨rules⟩ := by
  unfold DomainMatcher.ofRules?
  have hmap : (rules.mapM fun rule =>
      (A.normalizeDomain rule.rootDomainAscii).map fun root =>
        { rule with rootDomainAscii := root }) = some rules := by
    induction rules with
    | nil => rfl
    | cons rule rules ih =>
      rw [List.mapM_cons, hA.fixes (h rule List.mem_cons_self),
        ih fun r hr => h r (List.mem_cons_of_mem _ hr)]
      rfl
  rw [hmap]
  rfl

/-- What a match takes from the address and from the rule. -/
theorem ruleMatch_eq_some {A : AddressOps} {parsed : ParsedMailboxAddress} {rule : DomainRule}
    {m : DomainMatch} (h : ruleMatch A parsed rule = some m) :
    ∃ canonical, canonicalizeLocalPart A rule.plusAddressingMode rule.localPartCaseSensitive
        parsed.localPart = some canonical ∧
      m = { domainId := rule.domainId
            domainAscii := parsed.domainAscii
            rootDomainAscii := rule.rootDomainAscii
            localPart := parsed.localPart
            localPartCanonical := canonical
            addressCanonical := canonical ++ '@' :: parsed.domainAscii } := by
  unfold ruleMatch at h
  split at h
  · cases h
  · rename_i canonical hcanonical
    split at h
    · cases h
    · cases h
      exact ⟨canonical, hcanonical, rfl⟩

/-- A match is made by a rule of the matcher: the rule of the longest configured suffix, or the
    catch-all rule when no suffix is configured. -/
theorem DomainMatcher.matchAddress_eq_some {A : AddressOps} {matcher : DomainMatcher}
    {address : Text} {m : DomainMatch} (h : matcher.matchAddress A address = some m) :
    ∃ parsed rule, parseMailboxAddress A address true = some parsed ∧
      ruleMatch A parsed rule = some m ∧
      (matcher.suffixRule parsed.domainAscii = some rule ∨
        matcher.suffixRule parsed.domainAscii = none ∧ matcher.catchAllRule = some rule) := by
  obtain ⟨parsed, hparsed, hmatch⟩ := Option.bind_eq_some_iff.mp h
  refine ⟨parsed, ?_⟩
  unfold DomainMatcher.matchParsed at hmatch
  split at hmatch
  · rename_i rule hrule
    refine ⟨rule, hparsed, ?_, .inl hrule⟩
    split at hmatch
    · split at hmatch
      · exact hmatch
      · cases hmatch
    · split at hmatch
      · exact hmatch
      · cases hmatch
  · rename_i hnone
    split at hmatch
    · rename_i rule hrule
      exact ⟨rule, hparsed, hmatch, .inr ⟨hnone, hrule⟩⟩
    · cases hmatch

theorem DomainMatcher.mem_of_findRule {matcher : DomainMatcher} {root : Text} {rule : DomainRule}
    (h : matcher.findRule root = some rule) :
    rule ∈ matcher.rules ∧ rule.rootDomainAscii = root :=
  ⟨List.mem_of_find?_eq_some h, by simpa using List.find?_some h⟩

theorem DomainMatcher.mem_of_suffixRule {matcher : DomainMatcher} {domain : Text}
    {rule : DomainRule} (h : matcher.suffixRule domain = some rule) :
    rule ∈ matcher.rules ∧ rule.rootDomainAscii ∈ candidateRoots domain := by
  obtain ⟨root, hroot, hfind⟩ := List.exists_of_findSome?_eq_some h
  obtain ⟨hmem, heq⟩ := mem_of_findRule hfind
  exact ⟨hmem, heq ▸ hroot⟩

/-- The rule behind a match is one of the matcher's. -/
theorem DomainMatcher.rule_of_matchAddress {A : AddressOps} {matcher : DomainMatcher}
    {address : Text} {m : DomainMatch} (h : matcher.matchAddress A address = some m) :
    ∃ rule ∈ matcher.rules,
      m.domainId = rule.domainId ∧ m.rootDomainAscii = rule.rootDomainAscii := by
  obtain ⟨parsed, rule, -, hm, hrule⟩ := matchAddress_eq_some h
  obtain ⟨canonical, -, rfl⟩ := ruleMatch_eq_some hm
  rcases hrule with hrule | ⟨-, hrule⟩
  · exact ⟨rule, (mem_of_suffixRule hrule).1, rfl, rfl⟩
  · exact ⟨rule, (mem_of_findRule hrule).1, rfl, rfl⟩

end RapidInbox
