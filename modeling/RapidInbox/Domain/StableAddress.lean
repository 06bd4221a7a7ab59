import RapidInbox.Domain.MatcherAgreement

/-!
# Stable addresses

Mailbox lookup, rehome and the API filters match stored canonical addresses again.  In both languages
the canonical address of a match is matched like the address it came from, and `normalize_domain`
leaves what it returns alone.
-/

namespace RapidInbox

/-! ## Matching a canonical address in C++ -/

section Cpp

variable {U : UnicodeOps}

theorem cpp_at_notMem {localPart : Text} (h : Cpp.validLocalPart U localPart true = true) :
    '@' ∉ localPart := by
  have hloop (cs : Text) (previousDot : Bool) (hok : Cpp.localPartLoop true previousDot cs = true) :
      '@' ∉ cs := by
    induction cs generalizing previousDot with
    | nil => exact List.not_mem_nil
    | cons c cs ih =>
      rw [Cpp.localPartLoop] at hok
      rw [List.mem_cons, not_or]
      refine ⟨?_, ?_⟩
      · rintro rfl
        revert hok
        simp [isAsciiChar, isAsciiAtext]
      · split at hok
        · exact ih false hok
        · split at hok
          · split at hok
            · cases hok
            · exact ih true hok
          · split at hok
            · cases hok
            · exact ih false hok
  unfold Cpp.validLocalPart at h
  split at h
  · cases h
  · split at h
    · cases h
    · exact hloop _ _ h

/-- The address of a valid local part at a normalised domain is parsed into the two. -/
theorem cppParse_canonical {localPart domain : Text}
    (hlocal : Cpp.validLocalPart U localPart true = true) (hdomain : IsNormalizedDomain domain)
    (hdomainSize : Utf8.size domain ≤ kMaximumDomainBytes)
    (hsize : Utf8.size localPart + 1 + Utf8.size domain ≤ kMaximumMailboxBytes) :
    Cpp.parseMailboxAddress U (localPart ++ '@' :: domain) true = some ⟨localPart, domain⟩ := by
  have hat' : '@' ∉ domain := by
    intro hmem
    have hchar := hdomain.char hmem
    revert hchar
    decide
  have hwhole : Utf8.size (localPart ++ '@' :: domain) =
      Utf8.size localPart + 1 + Utf8.size domain := by
    simp only [← Utf8.length_encode, Utf8.encode_append, Utf8.encode_cons, List.length_append]
    rw [Nat.add_assoc]
    rfl
  have htake : (localPart ++ '@' :: domain).take localPart.length = localPart := List.take_left
  have hdrop : (localPart ++ '@' :: domain).drop (localPart.length + 1) = domain := by
    rw [← List.drop_drop, List.drop_left]
    rfl
  have hempty : (localPart ++ '@' :: domain).isEmpty = false := by simp
  have hnonempty : domain.isEmpty = false := by simpa using hdomain.ne_nil
  have hlast : (domain.getLast? == some '.') = false := by
    rw [beq_eq_false_iff_ne]
    intro hdot
    obtain ⟨s, hs⟩ := List.getLast?_eq_some_iff.mp hdot
    exact hdomain.getLast_ne_dot hs
  have hstar : domain ≠ ['*'] := hdomain.ne_catchAllRoot
  have hnormal : Cpp.normalizeDomain U domain = some domain := by
    rw [cppNormalizeDomain_eq]
    exact hdomain.normalizeDomainCpp_eq U
  have hbytes : ¬(domain = ['*'] ∨ kMaximumDomainBytes < Utf8.size domain ∨
      kMaximumMailboxBytes < Utf8.size localPart + 1 + Utf8.size domain) := by
    rintro (hbad | hbad | hbad)
    · exact hstar hbad
    · omega
    · omega
  unfold Cpp.parseMailboxAddress
  rw [hwhole, findIdx?_append_cons (cpp_at_notMem hlocal), rfind_append_cons hat', hempty]
  dsimp only
  rw [htake, hdrop, hnormal, cppStrip_eq, hdomain.dropWhile_whitespace, hlocal, hnonempty, hlast,
    if_neg (by simpa using hsize), if_neg (by simp), if_neg (by simp), if_neg (by simp)]
  exact if_neg hbytes

/-- What `parse_mailbox_address` has checked of the domain's length. -/
theorem cppParse_domainSize {address : Text} {parsed : ParsedMailboxAddress}
    (h : Cpp.parseMailboxAddress U address true = some parsed) :
    Utf8.size parsed.domainAscii ≤ kMaximumDomainBytes := by
  have hdomain := cppParse_normalized h
  have hvalid := hdomain.labels
  rw [validateAsciiDomainLabels, Bool.and_eq_true, decide_eq_true_eq] at hvalid
  rw [size_ascii hdomain.ascii]
  exact hvalid.1

/-- The canonical address of a match under a rule, under the same rule again. -/
theorem cppMatchWith_canonical (hU : U.LowerStable) {parsed : ParsedMailboxAddress}
    (hdomain : IsNormalizedDomain parsed.domainAscii)
    (hdomainSize : Utf8.size parsed.domainAscii ≤ kMaximumDomainBytes) {rule : DomainRule} {root : Text}
    {m : DomainMatch} (h : Cpp.matchWith U parsed rule root = some m) :
    Cpp.parseMailboxAddress U m.addressCanonical true =
        some ⟨m.localPartCanonical, parsed.domainAscii⟩ ∧
      Cpp.matchWith U ⟨m.localPartCanonical, parsed.domainAscii⟩ rule root =
        some { m with localPart := m.localPartCanonical } := by
  unfold Cpp.matchWith at h
  rw [cppCanonicalizeLocalPart_def] at h
  by_cases hvalid : Cpp.validLocalPart U
      (canonicalText U rule.plusAddressingMode rule.localPartCaseSensitive parsed.localPart) true = true
  · rw [if_pos hvalid] at h
    dsimp only at h
    split at h
    · cases h
    · rename_i hsize
      cases h
      rw [Bool.or_eq_true, not_or, decide_eq_true_eq] at hsize
      refine ⟨cppParse_canonical hvalid hdomain hdomainSize (Nat.le_of_not_lt hsize.2), ?_⟩
      unfold Cpp.matchWith
      rw [cppCanonicalizeLocalPart_def]
      dsimp only
      rw [canonicalText_self hU, if_pos hvalid]
      dsimp only
      refine if_neg ?_
      rw [Bool.or_eq_true, not_or, decide_eq_true_eq]
      exact hsize
  · rw [if_neg hvalid] at h
    cases h

theorem cppMatchAddress_canonical (hU : U.LowerStable) {t : RootTable} {matcher : DomainMatcher}
    (hrep : t.Represents matcher) (hkeyed : t.Keyed) {address : Text} {m : DomainMatch}
    (h : Cpp.matchAddress U t address = some m) :
    Cpp.matchAddress U t m.addressCanonical = some { m with localPart := m.localPartCanonical } := by
  rw [cppMatchAddress_walk hrep hkeyed] at h ⊢
  obtain ⟨parsed, hparsed, hmatch⟩ := Option.bind_eq_some_iff.mp h
  have hdomain := cppParse_normalized hparsed
  have hdomainSize := cppParse_domainSize hparsed
  cases hsuffix : matcher.suffixRule parsed.domainAscii with
  | some rule =>
    rw [hsuffix] at hmatch
    dsimp only at hmatch
    by_cases haccepts : rule.accepts parsed.domainAscii = true
    · rw [if_pos haccepts] at hmatch
      obtain ⟨hparse, hagain⟩ := cppMatchWith_canonical hU hdomain hdomainSize hmatch
      rw [hparse, Option.bind_some]
      dsimp only
      rw [hsuffix]
      dsimp only
      rw [if_pos haccepts]
      exact hagain
    · rw [if_neg haccepts] at hmatch
      cases hmatch
  | none =>
    rw [hsuffix] at hmatch
    obtain ⟨rule, hcatch, hm⟩ := Option.bind_eq_some_iff.mp hmatch
    obtain ⟨hparse, hagain⟩ := cppMatchWith_canonical hU hdomain hdomainSize hm
    rw [hparse, Option.bind_some]
    dsimp only
    rw [hsuffix, hcatch]
    exact hagain

end Cpp

/-! ## Host names -/

/-- A label of letters, digits and inner hyphens. -/
structure IsHostLabel (label : Text) : Prop where
  nonempty : label ≠ []
  short : label.length ≤ 63
  chars : ∀ c ∈ label, c.isAlphanum = true ∨ c = '-'
  head : label.head? ≠ some '-'
  last : label.getLast? ≠ some '-'

/-- Labels with dots between them. -/
def IsHostname (t : Text) : Prop :=
  t.length ≤ kMaximumDomainBytes ∧
    ∃ labels, labels ≠ [] ∧ t = ['.'].intercalate labels ∧ ∀ label ∈ labels, IsHostLabel label

theorem isLabelChar_iff {c : Char} : isLabelChar c = true ↔ c.isAlphanum = true ∨ c = '-' := by
  rw [← pyLabelChar_eq, Bool.or_eq_true, beq_iff_eq]
  rfl

theorem labelOk_iff {label : Text} : labelOk label = true ↔ IsHostLabel label := by
  unfold labelOk labelEdgesOk
  simp only [Bool.and_eq_true, Bool.not_eq_true', List.isEmpty_eq_false_iff, bne_iff_ne,
    decide_eq_true_eq, List.all_eq_true, isLabelChar_iff]
  constructor
  · rintro ⟨⟨⟨⟨hne, hhead⟩, hlast⟩, hshort⟩, hchars⟩
    exact ⟨hne, hshort, hchars, hhead, hlast⟩
  · rintro ⟨hne, hshort, hchars, hhead, hlast⟩
    exact ⟨⟨⟨⟨hne, hhead⟩, hlast⟩, hshort⟩, hchars⟩

theorem IsHostLabel.dot_notMem {label : Text} (h : IsHostLabel label) : '.' ∉ label := by
  intro hdot
  have hchar := h.chars '.' hdot
  revert hchar
  decide

theorem isHostname_iff {t : Text} : IsHostname t ↔ validateAsciiDomainLabels t = true := by
  unfold validateAsciiDomainLabels IsHostname
  rw [Bool.and_eq_true, decide_eq_true_eq, List.all_eq_true]
  refine and_congr_right fun _ => ?_
  constructor
  · rintro ⟨labels, hne, rfl, hlabels⟩ label hmem
    have hdots : ∀ l ∈ labels, '.' ∉ l := fun l hl => (hlabels l hl).dot_notMem
    rw [List.splitOn_intercalate '.' hdots hne] at hmem
    exact labelOk_iff.mpr (hlabels label hmem)
  · intro hall
    refine ⟨t.splitOn '.', List.splitOn_ne_nil _ _, (List.intercalate_splitOn '.').symm, ?_⟩
    exact fun label hmem => labelOk_iff.mp (hall label hmem)

theorem labelOk_asciiLower (label : Text) : labelOk (asciiLower label) = labelOk label := by
  have hchar (c : Char) : isLabelChar (asciiLowerChar c) = isLabelChar c := by
    unfold asciiLowerChar
    by_cases hc : 'A' ≤ c ∧ c ≤ 'Z'
    · rw [if_pos hc]
      obtain ⟨hlow, hhigh⟩ := hc
      have hl : 65 ≤ c.toNat := hlow
      have hh : c.toNat ≤ 90 := hhigh
      have hself : isLabelChar c = true := by simp [isLabelChar, hlow, hhigh]
      rw [hself]
      generalize c.toNat = n at hl hh
      interval_cases n <;> decide
    · rw [if_neg hc]
  have hall : (asciiLower label).all isLabelChar = label.all isLabelChar := by
    rw [asciiLower, List.all_map]
    exact congrArg label.all (funext hchar)
  unfold labelOk
  rw [hall, labelEdgesOk_asciiLower, show (asciiLower label).length = label.length from List.length_map _]

theorem finishDomain_eq_some {t t' : Text} (hascii : isAsciiDomain t = true) :
    finishDomain t = some t' ↔ IsHostname t ∧ t' = asciiLower t := by
  have hlower : validateAsciiDomainLabels (asciiLower t) = validateAsciiDomainLabels t := by
    unfold validateAsciiDomainLabels
    rw [splitOn_asciiLower, List.all_map, show (asciiLower t).length = t.length from List.length_map _]
    exact congrArg (fun p => decide (t.length ≤ kMaximumDomainBytes) && (t.splitOn '.').all p)
      (funext labelOk_asciiLower)
  rw [finishDomain_def, hascii, hlower, isHostname_iff]
  cases validateAsciiDomainLabels t with
  | false => simp
  | true => simp [eq_comm]

/-- `normalize_domain` on ASCII: `*` and the host names, in lower case. -/
theorem normalizeDomain_eq_some {U : UnicodeOps} {t t' : Text} (hascii : isAsciiDomain t = true) :
    normalizeDomainCpp U t = some t' ↔
      (rstripDots (stripUnicodeWhitespace t) = catchAllRoot ∨
        IsHostname (rstripDots (stripUnicodeWhitespace t))) ∧
      t' = asciiLower (rstripDots (stripUnicodeWhitespace t)) := by
  unfold normalizeDomainCpp
  have hstripped := isAsciiDomain_strip hascii
  generalize rstripDots (stripUnicodeWhitespace t) = u at hstripped
  have hstarLower : asciiLower catchAllRoot = catchAllRoot := by decide
  dsimp only
  by_cases hempty : u = []
  · subst hempty
    rw [List.isEmpty_nil, if_pos rfl, isHostname_iff]
    simp [catchAllRoot, validateAsciiDomainLabels, List.splitOn_nil, labelOk, labelEdgesOk]
  · rw [if_neg (by simpa using hempty)]
    by_cases hstar : u = ['*']
    · rw [if_pos hstar]
      change u = catchAllRoot at hstar
      rw [hstar, hstarLower]
      simp [eq_comm]
    · have hother : ¬u = catchAllRoot := hstar
      rw [if_neg hstar, or_iff_right hother]
      -- what the earlier checks refuse, the validation refuses as well
      by_cases hnul : u.contains '\x00' = true
      · rw [if_pos hnul, ← finishDomain_eq_some hstripped,
          finishDomain_nul (List.contains_iff_mem.mp hnul)]
      · rw [if_neg hnul]
        by_cases hraw : validateRawDomainLabelEdges u = true
        · rw [hraw, if_neg (by simp), if_pos hstripped, finishDomain_eq_some hstripped]
        · rw [if_pos (by simpa using hraw), ← finishDomain_eq_some hstripped]
          cases hfinish : finishDomain u with
          | none => rfl
          | some v =>
            have hnormal := finishDomain_normalized hfinish
            obtain ⟨-, rfl⟩ := (finishDomain_eq_some hstripped).mp hfinish
            rw [← validateRawDomainLabelEdges_asciiLower hstripped] at hraw
            exact absurd hnormal.validateRawDomainLabelEdges hraw

/-! ## Both languages -/

/-- A matcher that was constructed represents its rules. -/
theorem pyNewMatcher_represents {V : UnicodeOps} {rules : List DomainRule} {t : RootTable}
    (h : Py.newMatcher V rules = some t) : ∃ matcher, t.Represents matcher := by
  have hload := RootTable.load_represents (pyAddressOps V) (fun rule _ => rule) (fun _ _ => rfl)
    RootTable.empty_represents rules
  rw [← pyNewMatcher_eq, h] at hload
  cases hm : DomainMatcher.ofRules? (pyAddressOps V) rules with
  | none =>
    rw [hm] at hload
    cases hload
  | some matcher =>
    rw [hm] at hload
    obtain ⟨t', ht', hrep⟩ := hload
    cases ht'
    exact ⟨_, hrep⟩

theorem cppNewMatcher_represents {U : UnicodeOps} {rules : List DomainRule} {t : RootTable}
    (h : Cpp.newMatcher U rules = some t) : ∃ matcher, t.Represents matcher ∧ t.Keyed := by
  have hload := RootTable.load_represents (cppAddressOps U) DomainRule.withRoot (fun _ _ => rfl)
    RootTable.empty_represents rules
  rw [← cppNewMatcher_eq, h] at hload
  have hkeyed : t.Keyed := by
    refine RootTable.load_keyed (t := .empty) ?_ (cppNewMatcher_eq U rules ▸ h)
    exact fun root rule hlookup => nomatch hlookup
  cases hm : DomainMatcher.ofRules? (cppAddressOps U) rules with
  | none =>
    rw [hm] at hload
    cases hload
  | some matcher =>
    rw [hm] at hload
    obtain ⟨t', ht', hrep⟩ := hload
    cases ht'
    exact ⟨_, hrep, hkeyed⟩

/-- Canonical addresses are fixed points of both matchers, what `normalize_domain` returns is a fixed
    point of it, and on ASCII it accepts `*` and the host names, in lower case. -/
theorem canonical_addresses_stable (U V : UnicodeOps) (hU : U.LowerStable) (hV : V.LowerStable)
    (rules : List DomainRule) :
    (∀ t, Py.newMatcher V rules = some t → ∀ address m, Py.matchAddress V t address = some m →
      Py.matchAddress V t m.addressCanonical = some { m with localPart := m.localPartCanonical }) ∧
    (∀ t, Cpp.newMatcher U rules = some t → ∀ address m, Cpp.matchAddress U t address = some m →
      Cpp.matchAddress U t m.addressCanonical = some { m with localPart := m.localPartCanonical }) ∧
    (∀ domain domain', Py.normalizeDomain V domain = some domain' →
      Py.normalizeDomain V domain' = some domain') ∧
    (∀ domain domain', Cpp.normalizeDomain U domain = some domain' →
      Cpp.normalizeDomain U domain' = some domain') ∧
    ∀ domain, isAsciiDomain domain = true → ∀ domain',
      (Py.normalizeDomain V domain = some domain' ↔
        (rstripDots (Py.strip domain) = catchAllRoot ∨ IsHostname (rstripDots (Py.strip domain))) ∧
          domain' = asciiLower (rstripDots (Py.strip domain))) ∧
      (Cpp.normalizeDomain U domain = some domain' ↔
        (rstripDots (Cpp.stripUnicodeWhitespace domain) = catchAllRoot ∨
            IsHostname (rstripDots (Cpp.stripUnicodeWhitespace domain))) ∧
          domain' = asciiLower (rstripDots (Cpp.stripUnicodeWhitespace domain))) := by
  have hpy := pyAddressOps_lawful V
  have hcpp := cppAddressOps_lawful U
  refine ⟨?_, ?_, ?_, ?_, ?_⟩
  · intro t ht address m hmatch
    obtain ⟨matcher, hrep⟩ := pyNewMatcher_represents ht
    rw [pyMatchAddress_eq hrep] at hmatch ⊢
    exact DomainMatcher.matchAddress_canonical hpy hV hmatch
  · intro t ht address m hmatch
    obtain ⟨matcher, hrep, hkeyed⟩ := cppNewMatcher_represents ht
    exact cppMatchAddress_canonical hU hrep hkeyed hmatch
  · intro domain domain' h
    rw [pyNormalizeDomain_eq] at h ⊢
    exact hpy.fixes (hpy.normalized h)
  · intro domain domain' h
    rw [cppNormalizeDomain_eq] at h ⊢
    exact hcpp.fixes (hcpp.normalized h)
  · intro domain hascii domain'
    rw [pyStrip_eq, cppStrip_eq, pyNormalizeDomain_eq, cppNormalizeDomain_eq,
      ← normalizeDomain_ascii (U := U) hascii]
    exact ⟨normalizeDomain_eq_some hascii, normalizeDomain_eq_some hascii⟩

theorem canonical_addresses_stable_plus :
    ∃ t, Py.newMatcher .asciiOnly [⟨7, "example.com".toList, true, false, .strip, false⟩] = some t ∧
      Py.matchAddress .asciiOnly t "box@example.com".toList =
        some ⟨7, "example.com".toList, "example.com".toList, "box".toList, "box".toList,
          "box@example.com".toList⟩ := by
  have hload : Py.newMatcher .asciiOnly [⟨7, "example.com".toList, true, false, .strip, false⟩] =
      some ⟨[("example.com".toList, ⟨7, "example.com".toList, true, false, .strip, false⟩)], none⟩ := by
    decide +kernel
  refine ⟨_, hload, ?_⟩
  exact (canonical_addresses_stable .asciiOnly .asciiOnly asciiOnly_lowerStable asciiOnly_lowerStable
    _).1 _ hload "Box+tag@Example.com".toList
      ⟨7, "example.com".toList, "example.com".toList, "Box+tag".toList, "box".toList,
        "box@example.com".toList⟩ (by decide +kernel)

end RapidInbox
