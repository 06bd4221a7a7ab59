import Mathlib.Data.List.TakeWhile
import RapidInbox.Domain.Normalize

/-!
# Canonical addresses

The canonical address of a match is an address of its own: matching it again goes to the same rule
and leaves it alone.
-/

namespace RapidInbox

/-- What `parse_mailbox_address` has checked of an address it accepts. -/
theorem parseMailboxAddress_ok {A : AddressOps} {address : Text} {parsed : ParsedMailboxAddress}
    (h : parseMailboxAddress A address true = some parsed) :
    ∃ raw, A.normalizeDomain raw = some parsed.domainAscii ∧ parsed.domainAscii ≠ catchAllRoot ∧
      Utf8.size parsed.domainAscii ≤ kMaximumDomainBytes ∧
      parsed.localPart = address.takeWhile (· != '@') := by
  unfold parseMailboxAddress at h
  split at h
  · cases h
  · split at h
    · cases h
    · dsimp only at h
      split at h
      · cases h
      · split at h
        · cases h
        · rename_i domainAscii hnormalized
          split at h
          · cases h
          · rename_i hok
            cases h
            rw [not_or, not_or] at hok
            exact ⟨_, hnormalized, hok.1, Nat.le_of_not_lt hok.2.1, rfl⟩

theorem parse_normalized {A : AddressOps} (hA : A.Lawful) {address : Text}
    {parsed : ParsedMailboxAddress} (h : parseMailboxAddress A address true = some parsed) :
    IsNormalizedDomain parsed.domainAscii := by
  obtain ⟨raw, hnormalized, hne, -⟩ := parseMailboxAddress_ok h
  exact (hA.normalized hnormalized).resolve_left hne

/-! ## Rules and matchers -/

/-- The flag of a rule for a domain: its root or a subdomain of it. -/
def DomainRule.accepts (rule : DomainRule) (domain : Text) : Bool :=
  if rule.rootDomainAscii = domain then rule.acceptExact else rule.acceptSubdomains

/-- What a rule makes of an address of its domain. -/
def ruleOutcome (A : AddressOps) (parsed : ParsedMailboxAddress) (rule : DomainRule) :
    Option DomainMatch :=
  if rule.accepts parsed.domainAscii then ruleMatch A parsed rule else none

theorem DomainMatcher.matchParsed_eq (A : AddressOps) (matcher : DomainMatcher)
    (parsed : ParsedMailboxAddress) :
    matcher.matchParsed A parsed =
      match matcher.suffixRule parsed.domainAscii with
      | some rule => ruleOutcome A parsed rule
      | none => matcher.catchAllRule.bind (ruleMatch A parsed) := by
  unfold DomainMatcher.matchParsed ruleOutcome DomainRule.accepts
  cases matcher.suffixRule parsed.domainAscii with
  | none =>
    dsimp only
    cases matcher.catchAllRule with
    | none => rfl
    | some rule => rfl
  | some rule =>
    dsimp only
    split
    · rfl
    · rfl

theorem ruleOutcome_eq_some {A : AddressOps} {parsed : ParsedMailboxAddress} {rule : DomainRule}
    {m : DomainMatch} (h : ruleOutcome A parsed rule = some m) : ruleMatch A parsed rule = some m := by
  unfold ruleOutcome at h
  split at h
  · exact h
  · cases h

/-! ## Matching twice -/

/-- What the code relies on in the lower-casing of a Unicode library: doing it twice changes
    nothing, and it makes no plus sign. -/
structure UnicodeOps.LowerStable (U : UnicodeOps) : Prop where
  idempotent : ∀ t, lowerText U (lowerText U t) = lowerText U t
  no_plus : ∀ t, '+' ∉ t → '+' ∉ lowerText U t

theorem isAsciiDomain_asciiLower {t : Text} (h : isAsciiDomain t = true) :
    isAsciiDomain (asciiLower t) = true ∧ asciiLower (asciiLower t) = asciiLower t := by
  rw [isAsciiDomain, List.all_eq_true] at h
  unfold isAsciiDomain asciiLower
  constructor
  · rw [List.all_eq_true]
    intro c hc
    obtain ⟨c', hc', rfl⟩ := List.mem_map.mp hc
    exact (asciiLowerChar_facts c' (h c' hc')).1
  · rw [List.map_map]
    apply List.map_congr_left
    intro c hc
    exact (asciiLowerChar_facts c (h c hc)).2

theorem plus_notMem_asciiLower {t : Text} (h : '+' ∉ t) : '+' ∉ asciiLower t := by
  intro hmem
  obtain ⟨c, hc, heq⟩ := List.mem_map.mp hmem
  rw [asciiLowerChar_eq_iff (by decide) (by decide)] at heq
  exact h (heq ▸ hc)

/-- A library that knows ASCII only is stable. -/
theorem asciiOnly_lowerStable : UnicodeOps.asciiOnly.LowerStable := by
  refine ⟨?_, ?_⟩
  · intro t
    by_cases ht : isAsciiDomain t = true
    · obtain ⟨hascii, hidem⟩ := isAsciiDomain_asciiLower ht
      rw [lowerText, lowerText, if_pos ht, if_pos hascii, hidem]
    · have hlower : lowerText UnicodeOps.asciiOnly t = t := if_neg ht
      rw [hlower, hlower]
  · intro t hplus
    unfold lowerText
    split
    · exact plus_notMem_asciiLower hplus
    · exact hplus

/-- The text `canonicalize_local_part` validates. -/
def canonicalText (U : UnicodeOps) (mode : PlusMode) (caseSensitive : Bool) (localPart : Text) :
    Text :=
  let stripped :=
    match mode with
    | .strip => localPart.takeWhile (· != '+')
    | .keep => localPart
  if caseSensitive then stripped else lowerText U stripped

theorem canonicalText_self {U : UnicodeOps} (hU : U.LowerStable) (mode : PlusMode)
    (caseSensitive : Bool) (localPart : Text) :
    canonicalText U mode caseSensitive (canonicalText U mode caseSensitive localPart) =
      canonicalText U mode caseSensitive localPart := by
  have hplus : '+' ∉ localPart.takeWhile (· != '+') := by
    intro hmem
    simpa using List.mem_takeWhile_imp hmem
  -- a text without a plus sign has nothing to strip
  have hstrip {t : Text} (ht : '+' ∉ t) : t.takeWhile (· != '+') = t := by
    rw [List.takeWhile_eq_self_iff]
    intro c hc
    rw [bne_iff_ne]
    rintro rfl
    exact ht hc
  cases mode with
  | keep =>
    cases caseSensitive with
    | true => rfl
    | false => exact hU.idempotent localPart
  | strip =>
    cases caseSensitive with
    | true => exact hstrip hplus
    | false =>
      change lowerText U ((lowerText U (localPart.takeWhile (· != '+'))).takeWhile (· != '+')) = _
      rw [hstrip (hU.no_plus _ hplus), hU.idempotent]
      rfl

/-- Canonicalising a canonical local part changes nothing. -/
theorem canonicalizeLocalPart_self {A : AddressOps} (hU : A.unicode.LowerStable) {mode : PlusMode}
    {caseSensitive : Bool} {localPart canonical : Text}
    (h : canonicalizeLocalPart A mode caseSensitive localPart = some canonical) :
    canonicalizeLocalPart A mode caseSensitive canonical = some canonical ∧
      validLocalPart A.unicode canonical true = true := by
  have heq (t : Text) : canonicalizeLocalPart A mode caseSensitive t =
      if validLocalPart A.unicode (canonicalText A.unicode mode caseSensitive t) true then
        some (canonicalText A.unicode mode caseSensitive t)
      else none := rfl
  rw [heq] at h
  split at h
  · rename_i hvalid
    cases h
    exact ⟨by rw [heq, canonicalText_self hU, if_pos hvalid], hvalid⟩
  · cases h

/-- A valid local part has no `@`. -/
theorem at_notMem_of_validLocalPart {U : UnicodeOps} {localPart : Text}
    (h : validLocalPart U localPart true = true) : '@' ∉ localPart := by
  have hscan (cs : Text) (previousDot : Bool) (hok : localPartScan U true previousDot cs = true) :
      '@' ∉ cs := by
    induction cs generalizing previousDot with
    | nil => exact List.not_mem_nil
    | cons c cs ih =>
      rw [localPartScan] at hok
      rw [List.mem_cons, not_or]
      split at hok
      · rename_i hascii
        rw [Bool.and_eq_true] at hok
        refine ⟨?_, ih _ hok.2⟩
        rintro rfl
        exact absurd hascii (by decide)
      · split at hok
        · rename_i hdot
          rw [Bool.and_eq_true] at hok
          refine ⟨?_, ih _ hok.2⟩
          rw [hdot]
          decide
        · rw [Bool.and_eq_true] at hok
          refine ⟨?_, ih _ hok.2⟩
          rintro rfl
          exact absurd hok.1 (by decide)
  unfold validLocalPart at h
  rw [Bool.and_eq_true] at h
  exact hscan _ _ h.2

/-- The address of a canonical local part at a normalised domain is parsed into the two. -/
theorem parseMailboxAddress_canonical {A : AddressOps} (hA : A.Lawful) {localPart domain : Text}
    (hlocal : validLocalPart A.unicode localPart true = true) (hdomain : IsNormalizedDomain domain)
    (hdomainSize : Utf8.size domain ≤ kMaximumDomainBytes)
    (hsize : Utf8.size localPart + 1 + Utf8.size domain ≤ kMaximumMailboxBytes) :
    parseMailboxAddress A (localPart ++ '@' :: domain) true = some ⟨localPart, domain⟩ := by
  have hat : ∀ c ∈ localPart, (c != '@') = true := by
    intro c hc
    rw [bne_iff_ne]
    rintro rfl
    exact at_notMem_of_validLocalPart hlocal hc
  have hat' : '@' ∉ domain := by
    intro hmem
    have hchar := hdomain.char hmem
    revert hchar
    decide
  have htake : (localPart ++ '@' :: domain).takeWhile (· != '@') = localPart := by
    rw [List.takeWhile_append_of_pos hat]
    simp
  have hdrop : ((localPart ++ '@' :: domain).dropWhile (· != '@')).tail = domain := by
    rw [List.dropWhile_append_of_pos hat]
    simp
  have hcount : (localPart ++ '@' :: domain).count '@' = 1 := by
    rw [List.count_append, List.count_eq_zero.mpr (at_notMem_of_validLocalPart hlocal),
      List.count_cons_self, List.count_eq_zero.mpr hat']
  have hwhole : Utf8.size (localPart ++ '@' :: domain) =
      Utf8.size localPart + 1 + Utf8.size domain := by
    simp only [← Utf8.length_encode, Utf8.encode_append, Utf8.encode_cons, List.length_append]
    rw [Nat.add_assoc]
    rfl
  have hlast : domain.getLast? ≠ some '.' := by
    intro hdot
    obtain ⟨s, hs⟩ := List.getLast?_eq_some_iff.mp hdot
    exact hdomain.getLast_ne_dot hs
  have hstar : domain ≠ ['*'] := hdomain.ne_catchAllRoot
  unfold parseMailboxAddress
  rw [hwhole, htake, hdrop, hcount]
  dsimp only
  rw [hA.fixes (.inr hdomain)]
  have hempty : (localPart ++ '@' :: domain).isEmpty = false := by simp
  have hnonempty : domain.isEmpty = false := by simpa using hdomain.ne_nil
  simp only [hempty, Bool.false_or, decide_eq_true_iff, Nat.not_lt.mpr hsize, if_false, ne_eq,
    not_true, hlocal, hnonempty, beq_iff_eq, hlast, hdomain.dropWhile_whitespace, bne_self_eq_false,
    Bool.not_true, Bool.or_false, Bool.false_and, hstar, false_or, Nat.not_lt.mpr hdomainSize]

/-- Matching the canonical address of a match gives the match again. -/
theorem DomainMatcher.matchAddress_canonical {A : AddressOps} (hA : A.Lawful)
    (hU : A.unicode.LowerStable) {matcher : DomainMatcher} {address : Text} {m : DomainMatch}
    (h : matcher.matchAddress A address = some m) :
    matcher.matchAddress A m.addressCanonical = some { m with localPart := m.localPartCanonical } := by
  obtain ⟨parsed, hparsed, hmatch⟩ := Option.bind_eq_some_iff.mp h
  have hdomain := parse_normalized hA hparsed
  obtain ⟨-, -, -, hdomainSize, -⟩ := parseMailboxAddress_ok hparsed
  -- the outcome of a rule for the canonical address
  have hrule (rule : DomainRule) (hm : ruleMatch A parsed rule = some m) :
      m.addressCanonical = m.localPartCanonical ++ '@' :: parsed.domainAscii ∧
        parseMailboxAddress A m.addressCanonical true =
          some ⟨m.localPartCanonical, parsed.domainAscii⟩ ∧
        ruleMatch A ⟨m.localPartCanonical, parsed.domainAscii⟩ rule =
          some { m with localPart := m.localPartCanonical } := by
    unfold ruleMatch at hm
    split at hm
    · cases hm
    · rename_i canonical hcanonical
      split at hm
      · cases hm
      · rename_i hsize
        cases hm
        obtain ⟨hself, hvalid⟩ := canonicalizeLocalPart_self hU hcanonical
        refine ⟨rfl, parseMailboxAddress_canonical hA hvalid hdomain hdomainSize
          (Nat.le_of_not_lt hsize), ?_⟩
        unfold ruleMatch
        rw [hself]
        exact if_neg hsize
  rw [DomainMatcher.matchParsed_eq] at hmatch
  unfold DomainMatcher.matchAddress
  cases hsuffix : matcher.suffixRule parsed.domainAscii with
  | some rule =>
    rw [hsuffix] at hmatch
    dsimp only at hmatch
    obtain ⟨-, hparse, hagain⟩ := hrule rule (ruleOutcome_eq_some hmatch)
    have haccepts : rule.accepts parsed.domainAscii = true := by
      by_contra hrefused
      rw [ruleOutcome, if_neg hrefused] at hmatch
      cases hmatch
    rw [hparse, Option.bind_some, DomainMatcher.matchParsed_eq]
    dsimp only
    rw [hsuffix]
    dsimp only
    rw [ruleOutcome, if_pos haccepts]
    exact hagain
  | none =>
    rw [hsuffix] at hmatch
    obtain ⟨rule, hcatch, hm⟩ := Option.bind_eq_some_iff.mp hmatch
    obtain ⟨-, hparse, hagain⟩ := hrule rule hm
    rw [hparse, Option.bind_some, DomainMatcher.matchParsed_eq]
    dsimp only
    rw [hsuffix, hcatch]
    exact hagain

end RapidInbox
