import RapidInbox.Domain.MatcherParity

/-!
# Addresses and rules in the two matchers

The local part, the address and the walk over the suffixes, each reduced to the one of `Matcher`; the
rules of either constructor represent its rules.
-/

namespace RapidInbox

/-! ## Local parts -/

section LocalPart

variable {U V : UnicodeOps} {t : Text}

theorem isAsciiDomain_cons {c : Char} :
    isAsciiDomain (c :: t) = true ↔ isAsciiChar c = true ∧ isAsciiDomain t = true := by
  rw [isAsciiDomain, List.all_cons, Bool.and_eq_true]
  rfl

theorem isAsciiDomain_of_sublist {s : Text} (h : isAsciiDomain t = true) (hs : s.Sublist t) :
    isAsciiDomain s = true := by
  rw [isAsciiDomain, List.all_eq_true] at h ⊢
  exact fun c hc => h c (hs.subset hc)

/-- The scan asks the library about no ASCII character. -/
theorem localPartScan_ascii (h : isAsciiDomain t = true) (smtputf8 previousDot : Bool) :
    localPartScan U smtputf8 previousDot t = localPartScan V smtputf8 previousDot t := by
  induction t generalizing previousDot with
  | nil => rfl
  | cons c t ih =>
    obtain ⟨hc, ht⟩ := isAsciiDomain_cons.mp h
    rw [localPartScan, localPartScan, hc, ih ht, ih ht]
    rfl

theorem validLocalPart_ascii (h : isAsciiDomain t = true) (smtputf8 : Bool) :
    validLocalPart U t smtputf8 = validLocalPart V t smtputf8 := by
  unfold validLocalPart
  rw [localPartScan_ascii h]

theorem cppLocalPartLoop_eq (h : isAsciiDomain t = true) (smtputf8 previousDot : Bool) :
    Cpp.localPartLoop smtputf8 previousDot t = localPartScan U smtputf8 previousDot t := by
  induction t generalizing previousDot with
  | nil => rfl
  | cons c t ih =>
    obtain ⟨hc, ht⟩ := isAsciiDomain_cons.mp h
    rw [Cpp.localPartLoop, localPartScan, hc, ih ht, ih ht]
    by_cases hdot : c = '.'
    · cases previousDot <;> simp [hdot]
    · cases isAsciiAtext c <;> simp [hdot]

/-- The library finds nothing to refuse in an ASCII character that a local part may hold. -/
def UnicodeOps.AllowsAscii (U : UnicodeOps) : Prop :=
  ∀ c, isAsciiChar c = true → (c = '.' ∨ isAsciiAtext c = true) → U.forbidden c = false

/-- Asking the library about all characters first is asking it about the others. -/
theorem cppLocalPartLoop_any (hU : U.AllowsAscii) (smtputf8 previousDot : Bool) :
    (!t.any U.forbidden && Cpp.localPartLoop smtputf8 previousDot t) =
      localPartScan U smtputf8 previousDot t := by
  induction t generalizing previousDot with
  | nil => rfl
  | cons c t ih =>
    rw [Cpp.localPartLoop, localPartScan, ← ih, ← ih, List.any_cons]
    by_cases hc : isAsciiChar c = true
    · by_cases hdot : c = '.'
      · have hallowed := hU c hc (.inl hdot)
        cases previousDot <;> simp [hdot, hdot ▸ hallowed, isAsciiChar]
      · cases hatext : isAsciiAtext c with
        | false => simp [hc, hdot]
        | true => simp [hc, hdot, hU c hc (.inr hatext)]
    · cases smtputf8 with
      | false => simp [hc]
      | true => simp [hc, Bool.and_assoc]

/-- Without SMTPUTF8 only ASCII passes. -/
theorem localPartScan_false (h : isAsciiDomain t = false) (previousDot : Bool) :
    localPartScan U false previousDot t = false := by
  induction t generalizing previousDot with
  | nil => cases h
  | cons c t ih =>
    rw [localPartScan]
    by_cases hc : isAsciiChar c = true
    · have ht : isAsciiDomain t = false := by
        simpa [isAsciiDomain, hc] using h
      simp [hc, ih ht]
    · simp [hc]

theorem cppValidLocalPart_eq (h : isAsciiDomain t = true ∨ U.AllowsAscii) (smtputf8 : Bool) :
    Cpp.validLocalPart U t smtputf8 = validLocalPart U t smtputf8 := by
  have hscan : (if !isAsciiDomain t && (!smtputf8 || t.any U.forbidden) then false
      else Cpp.localPartLoop smtputf8 false t) = localPartScan U smtputf8 false t := by
    cases hascii : isAsciiDomain t with
    | true => exact cppLocalPartLoop_eq hascii smtputf8 false
    | false =>
      have hU := h.resolve_left (by simp [hascii])
      cases smtputf8 with
      | false => exact (localPartScan_false hascii false).symm
      | true =>
        rw [← cppLocalPartLoop_any hU]
        cases t.any U.forbidden <;> rfl
  unfold Cpp.validLocalPart validLocalPart
  rw [hscan]
  by_cases hedges : t.isEmpty || kMaximumLocalPartBytes < Utf8.size t || t.head? == some '.' ||
      t.getLast? == some '.'
  · rw [if_pos hedges]
    simp only [Bool.or_eq_true, decide_eq_true_eq] at hedges
    rcases hedges with ((hempty | hsize) | hhead) | hlast
    · simp [hempty]
    · simp [Nat.not_le_of_lt hsize]
    · simp [bne, hhead]
    · simp [bne, hlast]
  · rw [if_neg hedges]
    simp only [Bool.or_eq_true, decide_eq_true_eq, not_or, Bool.not_eq_true] at hedges
    obtain ⟨⟨⟨hempty, hsize⟩, hhead⟩, hlast⟩ := hedges
    simp [bne, hempty, hhead, hlast, Nat.le_of_not_lt hsize]

/-- The scan remembers a dot to find two of them side by side. -/
theorem localPartScan_eq (smtputf8 previousDot : Bool) :
    localPartScan U smtputf8 previousDot t =
      ((t.all fun c =>
        if !isAsciiChar c then smtputf8 && !U.forbidden c else c == '.' || isAsciiAtext c) &&
        !decide (['.', '.'] <:+: if previousDot then '.' :: t else t)) := by
  induction t generalizing previousDot with
  | nil => cases previousDot <;> rfl
  | cons c t ih =>
    have hskip (d : Char) (hd : d ≠ '.') : ['.', '.'] <:+: d :: t ↔ ['.', '.'] <:+: t := by
      rw [List.infix_cons_iff, or_iff_right]
      intro hstart
      exact hd (List.cons_prefix_cons.mp hstart).1.symm
    have hskip' (d : Char) (hd : d ≠ '.') :
        ['.', '.'] <:+: '.' :: d :: t ↔ ['.', '.'] <:+: t := by
      rw [List.infix_cons_iff, or_iff_right, hskip d hd]
      intro hstart
      exact hd (List.cons_prefix_cons.mp (List.cons_prefix_cons.mp hstart).2).1.symm
    rw [localPartScan, ih, ih]
    by_cases hdot : c = '.'
    · subst hdot
      cases previousDot with
      | false => simp [isAsciiChar]
      | true =>
        have hpair : ['.', '.'] <:+: '.' :: '.' :: t := ⟨[], t, rfl⟩
        simp [hpair, isAsciiChar]
    · have hne : (c == '.') = false := beq_false_of_ne hdot
      by_cases hc : isAsciiChar c = true
      · cases previousDot with
        | false => simp [hc, hdot, hne, hskip c hdot, Bool.and_assoc]
        | true => simp [hc, hdot, hne, hskip' c hdot, Bool.and_assoc]
      · cases previousDot with
        | false => simp [hc, hskip c hdot, Bool.and_assoc]
        | true => simp [hc, hskip' c hdot, Bool.and_assoc]

theorem pyValidLocalPart_eq (smtputf8 : Bool) :
    Py.validLocalPart U t smtputf8 = validLocalPart U t smtputf8 := by
  have hchars : (t.all fun c =>
      if !isAsciiChar c then smtputf8 && !U.forbidden c
      else c == '.' || Py.isAsciiAlnum c || Py.asciiAtext.contains c) =
        t.all fun c =>
          if !isAsciiChar c then smtputf8 && !U.forbidden c else c == '.' || isAsciiAtext c := by
    refine congrArg t.all (funext fun c => ?_)
    rw [Bool.or_assoc, pyAtext_eq]
  unfold Py.validLocalPart validLocalPart
  rw [hchars, localPartScan_eq]
  cases t.isEmpty with
  | true => rfl
  | false =>
    by_cases hsize : kMaximumLocalPartBytes < Utf8.size t
    · simp [hsize, Nat.not_le_of_lt hsize]
    · cases hhead : t.head? == some '.' with
      | true => simp [bne, hhead]
      | false =>
        cases hlast : t.getLast? == some '.' with
        | true => simp [bne, hlast]
        | false =>
          by_cases hpair : ['.', '.'] <:+: t <;>
            simp [bne, hhead, hlast, hpair, hsize, Nat.le_of_not_lt hsize]

/-- Cutting at the first occurrence. -/
theorem take_findIdx? (c : Char) :
    (match t.findIdx? (· == c) with
      | some i => t.take i
      | none => t) = t.takeWhile (· != c) := by
  induction t with
  | nil => rfl
  | cons d t ih =>
    rw [List.findIdx?_cons]
    by_cases hd : d = c
    · subst hd
      simp
    · have hne : (d == c) = false := beq_false_of_ne hd
      rw [hne, if_neg (by decide), List.takeWhile_cons_of_pos (by simpa using hd), ← ih]
      cases t.findIdx? (· == c) <;> rfl

theorem isAsciiDomain_takeWhile (h : isAsciiDomain t = true) (p : Char → Bool) :
    isAsciiDomain (t.takeWhile p) = true :=
  isAsciiDomain_of_sublist h (List.takeWhile_sublist p)

theorem isAsciiDomain_lowerText (h : isAsciiDomain t = true) : isAsciiDomain (lowerText U t) = true := by
  rw [lowerText, if_pos h]
  exact (isAsciiDomain_asciiLower h).1

theorem isAsciiDomain_canonicalText (h : isAsciiDomain t = true) (mode : PlusMode)
    (caseSensitive : Bool) : isAsciiDomain (canonicalText U mode caseSensitive t) = true := by
  cases mode <;> cases caseSensitive
  · exact isAsciiDomain_lowerText h
  · exact h
  · exact isAsciiDomain_lowerText (isAsciiDomain_takeWhile h _)
  · exact isAsciiDomain_takeWhile h _

theorem canonicalizeLocalPart_eq (A : AddressOps) (mode : PlusMode) (caseSensitive : Bool) :
    canonicalizeLocalPart A mode caseSensitive t =
      if validLocalPart A.unicode (canonicalText A.unicode mode caseSensitive t) true then
        some (canonicalText A.unicode mode caseSensitive t)
      else none := rfl

theorem canonicalText_ascii (h : isAsciiDomain t = true) (mode : PlusMode) (caseSensitive : Bool) :
    canonicalText U mode caseSensitive t = canonicalText V mode caseSensitive t := by
  cases mode <;> cases caseSensitive
  · change lowerText U t = lowerText V t
    rw [lowerText, lowerText, if_pos h, if_pos h]
  · rfl
  · change lowerText U (t.takeWhile _) = lowerText V (t.takeWhile _)
    rw [lowerText, lowerText, if_pos (isAsciiDomain_takeWhile h _), if_pos (isAsciiDomain_takeWhile h _)]
  · rfl

/-- The canonical local part of an ASCII text does not depend on the library. -/
theorem canonicalizeLocalPart_ascii {A B : AddressOps} (h : isAsciiDomain t = true) (mode : PlusMode)
    (caseSensitive : Bool) :
    canonicalizeLocalPart A mode caseSensitive t = canonicalizeLocalPart B mode caseSensitive t := by
  rw [canonicalizeLocalPart_eq, canonicalizeLocalPart_eq,
    canonicalText_ascii (U := A.unicode) (V := B.unicode) h,
    validLocalPart_ascii (U := A.unicode) (V := B.unicode) (isAsciiDomain_canonicalText h _ _)]

/-- `canonicalize_local_part` validates the canonical text. -/
theorem cppCanonicalizeLocalPart_def (rule : DomainRule) :
    Cpp.canonicalizeLocalPart U t rule =
      if Cpp.validLocalPart U
          (canonicalText U rule.plusAddressingMode rule.localPartCaseSensitive t) true then
        some (canonicalText U rule.plusAddressingMode rule.localPartCaseSensitive t)
      else none := by
  have hcut := take_findIdx? (t := t) '+'
  unfold Cpp.canonicalizeLocalPart
  cases hplus : t.findIdx? (· == '+') with
  | none =>
    rw [hplus] at hcut
    dsimp only at hcut ⊢
    cases rule.plusAddressingMode <;> cases rule.localPartCaseSensitive <;>
      simp [canonicalText, lowerText, ← hcut]
  | some plus =>
    rw [hplus] at hcut
    dsimp only at hcut ⊢
    cases rule.plusAddressingMode <;> cases rule.localPartCaseSensitive <;>
      simp [canonicalText, lowerText, hcut]

theorem cppCanonicalizeLocalPart_eq (h : isAsciiDomain t = true ∨ U.AllowsAscii) (rule : DomainRule) :
    Cpp.canonicalizeLocalPart U t rule =
      canonicalizeLocalPart (cppAddressOps U) rule.plusAddressingMode rule.localPartCaseSensitive t := by
  have hcanonical := h.imp_left fun hascii => isAsciiDomain_canonicalText (U := U) hascii
    rule.plusAddressingMode rule.localPartCaseSensitive
  rw [cppCanonicalizeLocalPart_def, canonicalizeLocalPart_eq, cppValidLocalPart_eq hcanonical]
  rfl

end LocalPart

/-! ## Addresses -/

theorem findIdx?_append_cons {l d : Text} {c : Char} (h : c ∉ l) :
    (l ++ c :: d).findIdx? (· == c) = some l.length := by
  have hnone : l.findIdx? (· == c) = none := by
    rw [List.findIdx?_eq_none_iff]
    intro e he
    exact beq_false_of_ne fun heq => h (heq ▸ he)
  rw [List.findIdx?_append, hnone, List.findIdx?_cons, if_pos (beq_self_eq_true c)]
  simp

theorem rfind_append_cons {l d : Text} {c : Char} (h : c ∉ d) :
    Cpp.rfind (l ++ c :: d) c = some l.length := by
  have hreverse : (l ++ c :: d).reverse = d.reverse ++ c :: l.reverse := by simp
  rw [Cpp.rfind, hreverse, findIdx?_append_cons (fun hc => h (List.mem_reverse.mp hc)),
    Option.map_some, List.length_append, List.length_cons, List.length_reverse]
  congr 1
  omega

/-- The first and the last occurrence differ when there are two. -/
theorem rfind_ne {l d : Text} {c : Char} (h : c ∈ d) :
    Cpp.rfind (l ++ c :: d) c ≠ some l.length := by
  obtain ⟨front, back, hd, hback⟩ := List.eq_append_cons_of_mem (List.mem_reverse.mpr h)
  have hsplit : l ++ c :: d = (l ++ c :: back.reverse) ++ c :: front.reverse := by
    rw [← List.reverse_reverse d, hd]
    simp
  rw [hsplit, rfind_append_cons (fun hc => hback (List.mem_reverse.mp hc))]
  simp

theorem cppParse_eq {U : UnicodeOps} {address : Text}
    (h : isAsciiDomain address = true ∨ U.AllowsAscii) (smtputf8 : Bool) : Cpp.parseMailboxAddress U address smtputf8 =
      parseMailboxAddress (cppAddressOps U) address smtputf8 := by
  unfold Cpp.parseMailboxAddress parseMailboxAddress
  split
  · rfl
  · by_cases hmem : '@' ∈ address
    · obtain ⟨l, d, rfl, hl⟩ := List.eq_append_cons_of_mem hmem
      have hkeep : ∀ c ∈ l, (c != '@') = true := by
        intro c hc
        rw [bne_iff_ne]
        rintro rfl
        exact hl hc
      have htake : (l ++ '@' :: d).takeWhile (· != '@') = l := by
        rw [List.takeWhile_append_of_pos hkeep]
        simp
      have hdrop : ((l ++ '@' :: d).dropWhile (· != '@')).tail = d := by
        rw [List.dropWhile_append_of_pos hkeep]
        simp
      have hcount : (l ++ '@' :: d).count '@' = 1 + d.count '@' := by
        rw [List.count_append, List.count_eq_zero.mpr hl, List.count_cons_self]
        omega
      have hlocal := h.imp_left fun hascii =>
        isAsciiDomain_of_sublist hascii (List.sublist_append_left l ('@' :: d))
      rw [findIdx?_append_cons hl, htake, hdrop, hcount]
      dsimp only
      by_cases hd : '@' ∈ d
      · have hpos : d.count '@' ≠ 0 := fun hzero => List.count_eq_zero.mp hzero hd
        rw [if_pos (rfind_ne hd).symm, if_pos (by omega)]
      · have hzero : d.count '@' = 0 := List.count_eq_zero.mpr hd
        have htake' : (l ++ '@' :: d).take l.length = l := List.take_left
        have hdrop' : (l ++ '@' :: d).drop (l.length + 1) = d := by
          rw [← List.drop_drop, List.drop_left]
          rfl
        have hone : ¬(1 + d.count '@' ≠ 1) := by omega
        rw [if_neg (not_not.mpr (rfind_append_cons hd).symm), if_neg hone, htake', hdrop',
          cppValidLocalPart_eq hlocal, cppStrip_eq, cppNormalizeDomain_eq]
        change _ = if (!validLocalPart U l smtputf8 || d.isEmpty || d.getLast? == some '.' ||
          stripUnicodeWhitespace d != d || (!smtputf8 && !isAsciiDomain d)) = true then _ else _
        cases !validLocalPart U l smtputf8 || d.isEmpty || d.getLast? == some '.' ||
            stripUnicodeWhitespace d != d with
        | true => rfl
        | false => rfl
    · have hnone : address.findIdx? (· == '@') = none := by
        rw [List.findIdx?_eq_none_iff]
        intro c hc
        exact beq_false_of_ne fun heq => hmem (heq ▸ hc)
      rw [hnone, if_pos]
      rw [List.count_eq_zero.mpr hmem]
      decide

theorem size_ascii {t : Text} (h : isAsciiDomain t = true) : Utf8.size t = t.length := by
  induction t with
  | nil => rfl
  | cons c t ih =>
    obtain ⟨hc, ht⟩ := isAsciiDomain_cons.mp h
    have hval : c.val < 128 := of_decide_eq_true hc
    have hone : c.utf8Size = 1 := by
      rw [Char.utf8Size_eq_one_iff, UInt32.le_iff_toNat_le]
      exact Nat.le_of_lt_succ (UInt32.lt_iff_toNat_lt.mp hval)
    have hsize : Utf8.size (c :: t) = c.utf8Size + Utf8.size t := by simp [Utf8.size]
    rw [hsize, hone, ih ht, List.length_cons, Nat.add_comm]

theorem pyParse_eq {U : UnicodeOps} (address : Text) (smtputf8 : Bool) :
    Py.parseMailboxAddress U address smtputf8 =
      parseMailboxAddress (pyAddressOps U) address smtputf8 := by
  unfold Py.parseMailboxAddress parseMailboxAddress
  dsimp only
  rw [pyValidLocalPart_eq, pyStrip_eq, pyNormalizeDomain_eq]
  have hops : (pyAddressOps U).normalizeDomain = normalizeDomainPy U := rfl
  rw [hops]
  cases hdomain : normalizeDomainPy U (address.dropWhile (· != '@')).tail with
  | none => rfl
  | some domain =>
    dsimp only
    have hlast (parsed : ParsedMailboxAddress) (bytes : Nat) :
        (if domain = ['*'] then none
        else if kMaximumMailboxBytes < bytes + 1 + domain.length then none else some parsed) =
        if domain = ['*'] ∨ kMaximumDomainBytes < Utf8.size domain ∨
            kMaximumMailboxBytes < bytes + 1 + Utf8.size domain then none else some parsed := by
      rcases normalizeDomainPy_normalized hdomain with hstar | hnormal
      · have hstar' : domain = ['*'] := hstar
        rw [if_pos hstar', if_pos (.inl hstar')]
      · have hsize := size_ascii hnormal.ascii
        have hlabels := hnormal.labels
        rw [validateAsciiDomainLabels, Bool.and_eq_true, decide_eq_true_iff] at hlabels
        have hshort : ¬kMaximumDomainBytes < Utf8.size domain := by omega
        have hstar : domain ≠ ['*'] := hnormal.ne_catchAllRoot
        rw [if_neg hstar, ← hsize]
        simp only [hstar, hshort, false_or]
    rw [hlast]
    rfl

/-- Parsing an ASCII address does not depend on the language. -/
theorem parseMailboxAddress_ascii {U V : UnicodeOps} {address : Text}
    (h : isAsciiDomain address = true) (smtputf8 : Bool) :
    parseMailboxAddress (cppAddressOps U) address smtputf8 =
      parseMailboxAddress (pyAddressOps V) address smtputf8 := by
  have hlocal : isAsciiDomain (address.takeWhile (· != '@')) = true := isAsciiDomain_takeWhile h _
  have hdomain : isAsciiDomain (address.dropWhile (· != '@')).tail = true :=
    isAsciiDomain_of_sublist h ((List.tail_sublist _).trans (List.dropWhile_sublist _))
  unfold parseMailboxAddress
  dsimp only
  rw [validLocalPart_ascii (U := (cppAddressOps U).unicode) (V := (pyAddressOps V).unicode) hlocal]
  have hnormal : (cppAddressOps U).normalizeDomain (address.dropWhile (· != '@')).tail =
      (pyAddressOps V).normalizeDomain (address.dropWhile (· != '@')).tail :=
    normalizeDomain_ascii (V := V) hdomain
  rw [hnormal]

/-- The local part of a parsed ASCII address is ASCII. -/
theorem isAscii_of_parse {A : AddressOps} {address : Text} {parsed : ParsedMailboxAddress}
    (h : isAsciiDomain address = true) (hparse : parseMailboxAddress A address true = some parsed) :
    isAsciiDomain parsed.localPart = true := by
  obtain ⟨-, -, -, -, hlocal⟩ := parseMailboxAddress_ok hparse
  rw [hlocal]
  exact isAsciiDomain_takeWhile h _

/-! ## Rules -/

/-- A rule with its normalised root. -/
def DomainRule.withRoot (rule : DomainRule) (root : Text) : DomainRule :=
  { rule with rootDomainAscii := root }

@[simp] theorem DomainRule.withRoot_root (rule : DomainRule) (root : Text) :
    (rule.withRoot root).rootDomainAscii = root := rfl

theorem DomainMatcher.ofRules?_cons (A : AddressOps) (rule : DomainRule) (rules : List DomainRule) :
    DomainMatcher.ofRules? A (rule :: rules) = (A.normalizeDomain rule.rootDomainAscii).bind fun root =>
      (DomainMatcher.ofRules? A rules).map fun m => ⟨rule.withRoot root :: m.rules⟩ := by
  unfold DomainMatcher.ofRules?
  rw [List.mapM_cons]
  cases A.normalizeDomain rule.rootDomainAscii with
  | none => rfl
  | some root =>
    cases rules.mapM fun rule =>
        (A.normalizeDomain rule.rootDomainAscii).map fun root =>
          { rule with rootDomainAscii := root } with
    | none => rfl
    | some rest => rfl

namespace RootTable

/-- A table holds the rules of a matcher by their roots. -/
structure Represents (t : RootTable) (m : DomainMatcher) : Prop where
  byRoot : ∀ root, root ≠ catchAllRoot →
    (t.rulesByRoot.lookup root).map (·.withRoot root) = m.findRule root
  catchAll : t.catchAllRule.map (·.withRoot catchAllRoot) = m.catchAllRule

theorem empty_represents : empty.Represents ⟨[]⟩ := ⟨fun _ _ => rfl, rfl⟩

theorem findRule_concat (rules : List DomainRule) (rule : DomainRule) (root : Text) :
    DomainMatcher.findRule ⟨rules ++ [rule]⟩ root =
      (DomainMatcher.findRule ⟨rules⟩ root).or
        (if rule.rootDomainAscii = root then some rule else none) := by
  unfold DomainMatcher.findRule
  rw [List.find?_append]
  by_cases hroot : rule.rootDomainAscii = root
  · rw [if_pos hroot, List.find?_cons_of_pos (by simpa using hroot)]
  · rw [if_neg hroot, List.find?_cons_of_neg (by simpa using hroot), List.find?_nil]

/-- One rule of the constructor: the first rule of a root stays. -/
theorem add_represents {t : RootTable} {rules : List DomainRule} (h : t.Represents ⟨rules⟩)
    (root : Text) {kept rule : DomainRule} (hkept : kept.withRoot root = rule.withRoot root) :
    (t.add root kept).Represents ⟨rules ++ [rule.withRoot root]⟩ := by
  have hother (root' : Text) (hne : root ≠ root') :
      DomainMatcher.findRule ⟨rules ++ [rule.withRoot root]⟩ root' =
        DomainMatcher.findRule ⟨rules⟩ root' := by
    rw [findRule_concat, DomainRule.withRoot_root, if_neg hne, Option.or_none]
  have hsame : DomainMatcher.findRule ⟨rules ++ [rule.withRoot root]⟩ root =
      (DomainMatcher.findRule ⟨rules⟩ root).or (some (kept.withRoot root)) := by
    rw [findRule_concat, DomainRule.withRoot_root, if_pos rfl, hkept]
  unfold RootTable.add
  by_cases hstar : root = catchAllRoot
  · subst hstar
    rw [if_pos rfl]
    have hcatch := h.catchAll
    unfold DomainMatcher.catchAllRule at hcatch
    constructor
    · intro root' hne
      rw [hother root' (Ne.symm hne), ← h.byRoot root' hne]
      split <;> rfl
    · rw [DomainMatcher.catchAllRule, hsame, ← hcatch]
      cases hcase : t.catchAllRule with
      | none => rfl
      | some first => rw [if_neg (by simp), hcase]; rfl
  · rw [if_neg hstar]
    unfold setDefault
    constructor
    · intro root' hne
      by_cases hroot : root = root'
      · subst hroot
        rw [hsame, ← h.byRoot root hne]
        cases hlookup : t.rulesByRoot.lookup root with
        | none =>
          rw [if_neg (by simp), List.lookup_append, hlookup]
          simp
        | some first =>
          rw [if_pos (show (some first).isSome = true from rfl), hlookup]
          rfl
      · rw [hother root' hroot, ← h.byRoot root' hne]
        have hnot : (root' == root) = false := beq_false_of_ne (Ne.symm hroot)
        split
        · rfl
        · rw [List.lookup_append]
          simp [List.lookup_cons, hnot]
    · rw [DomainMatcher.catchAllRule, hother _ hstar]
      have hcatch := h.catchAll
      split <;> exact hcatch

/-- The constructor's loop over the rules; `keep` is the rule a language stores. -/
def load (A : AddressOps) (keep : DomainRule → Text → DomainRule) (t : RootTable)
    (rules : List DomainRule) : Option RootTable :=
  rules.foldlM (fun t rule =>
    (A.normalizeDomain rule.rootDomainAscii).map fun root => t.add root (keep rule root)) t

/-- The loop fails where a root has no normal form, and else represents all the rules. -/
theorem load_represents (A : AddressOps) (keep : DomainRule → Text → DomainRule)
    (hkeep : ∀ rule root, (keep rule root).withRoot root = rule.withRoot root) {t : RootTable}
    {loaded : List DomainRule} (h : t.Represents ⟨loaded⟩) (rules : List DomainRule) :
    match DomainMatcher.ofRules? A rules with
    | none => load A keep t rules = none
    | some m => ∃ t', load A keep t rules = some t' ∧ t'.Represents ⟨loaded ++ m.rules⟩ := by
  induction rules generalizing t loaded with
  | nil =>
    refine ⟨t, rfl, ?_⟩
    change t.Represents ⟨loaded ++ []⟩
    rwa [List.append_nil]
  | cons rule rules ih =>
    have hload : load A keep t (rule :: rules) =
        ((A.normalizeDomain rule.rootDomainAscii).map fun root => t.add root (keep rule root)).bind
          (load A keep · rules) := rfl
    rw [hload, DomainMatcher.ofRules?_cons]
    cases A.normalizeDomain rule.rootDomainAscii with
    | none => rfl
    | some root =>
      have hrest := ih (add_represents h root (hkeep rule root))
      rw [Option.map_some, Option.bind_some, Option.bind_some]
      cases hrules : DomainMatcher.ofRules? A rules with
      | none =>
        rw [hrules] at hrest
        exact hrest
      | some m =>
        rw [hrules] at hrest
        obtain ⟨t', hload', hrep⟩ := hrest
        refine ⟨t', hload', ?_⟩
        rw [List.append_assoc] at hrep
        exact hrep

/-! The walk over the suffixes -/

theorem findSuffix_represents {t : RootTable} {m : DomainMatcher} (h : t.Represents m) {domain : Text}
    (hstar : '*' ∉ domain) :
    (t.findSuffix domain).map (fun found => found.2.withRoot found.1) =
      (domainSuffixes domain).findSome? m.findRule := by
  induction domain with
  | nil => rfl
  | cons c suffix ih =>
    rw [List.mem_cons, not_or] at hstar
    rw [findSuffix, domainSuffixes]
    by_cases hdot : c = '.'
    · rw [if_pos hdot, if_pos hdot, List.findSome?_cons]
      have hne : suffix ≠ catchAllRoot := by
        rintro rfl
        exact hstar.2 (by simp [catchAllRoot])
      rw [← h.byRoot suffix hne]
      cases t.rulesByRoot.lookup suffix with
      | some rule => rfl
      | none => exact ih hstar.2
    · rw [if_neg hdot, if_neg hdot]
      exact ih hstar.2

/-- A suffix is shorter than its domain. -/
theorem length_of_findSuffix {t : RootTable} {domain root : Text} {rule : DomainRule}
    (h : t.findSuffix domain = some (root, rule)) : root.length < domain.length := by
  induction domain with
  | nil => cases h
  | cons c suffix ih =>
    rw [findSuffix] at h
    rw [List.length_cons]
    split at h
    · split at h
      · cases h
        exact Nat.lt_succ_self _
      · exact Nat.lt_succ_of_lt (ih h)
    · exact Nat.lt_succ_of_lt (ih h)

theorem ne_star_of_findSuffix {t : RootTable} {domain root : Text} {rule : DomainRule}
    (hstar : '*' ∉ domain) (h : t.findSuffix domain = some (root, rule)) : root ≠ catchAllRoot := by
  induction domain with
  | nil => cases h
  | cons c suffix ih =>
    rw [List.mem_cons, not_or] at hstar
    rw [findSuffix] at h
    split at h
    · split at h
      · cases h
        rintro rfl
        exact hstar.2 (by simp [catchAllRoot])
      · exact ih hstar.2 h
    · exact ih hstar.2 h

/-- Every rule is kept with its own root. -/
def Keyed (t : RootTable) : Prop :=
  ∀ root rule, t.rulesByRoot.lookup root = some rule → rule.rootDomainAscii = root

theorem add_keyed {t : RootTable} (h : t.Keyed) (root : Text) (rule : DomainRule) :
    (t.add root (rule.withRoot root)).Keyed := by
  intro root' kept hlookup
  unfold RootTable.add setDefault at hlookup
  split at hlookup
  · split at hlookup <;> exact h root' kept hlookup
  · split at hlookup
    · exact h root' kept hlookup
    · rw [List.lookup_append, List.lookup_cons, List.lookup_nil] at hlookup
      rcases Option.or_eq_some_iff.mp hlookup with hold | ⟨-, hnew⟩
      · exact h root' kept hold
      · split at hnew
        · rename_i heq
          cases hnew
          exact (beq_iff_eq.mp heq).symm
        · cases hnew

theorem load_keyed {A : AddressOps} {rules : List DomainRule} {t t' : RootTable} (h : t.Keyed)
    (hload : load A DomainRule.withRoot t rules = some t') : t'.Keyed := by
  induction rules generalizing t with
  | nil =>
    cases hload
    exact h
  | cons rule rules ih =>
    obtain ⟨next, hnext, hrest⟩ := Option.bind_eq_some_iff.mp hload
    obtain ⟨root, -, rfl⟩ := Option.map_eq_some_iff.mp hnext
    exact ih (add_keyed h root rule) hrest

/-- The rule that the walk finds is kept with its own root too. -/
theorem root_of_findSuffix {t : RootTable} (h : t.Keyed) {domain root : Text} {rule : DomainRule}
    (hfound : t.findSuffix domain = some (root, rule)) : rule.rootDomainAscii = root := by
  induction domain with
  | nil => cases hfound
  | cons c suffix ih =>
    rw [findSuffix] at hfound
    split at hfound
    · split at hfound
      · rename_i hlookup
        cases hfound
        exact h _ _ hlookup
      · exact ih hfound
    · exact ih hfound

end RootTable

/-! ## Matches -/

theorem cppMatchWith_eq {U : UnicodeOps} {parsed : ParsedMailboxAddress}
    (h : isAsciiDomain parsed.localPart = true ∨ U.AllowsAscii) (rule : DomainRule) (root : Text) :
    Cpp.matchWith U parsed rule root = ruleMatch (cppAddressOps U) parsed (rule.withRoot root) := by
  have hcanonical : canonicalizeLocalPart (cppAddressOps U) (rule.withRoot root).plusAddressingMode
      (rule.withRoot root).localPartCaseSensitive parsed.localPart =
        Cpp.canonicalizeLocalPart U parsed.localPart rule := (cppCanonicalizeLocalPart_eq h rule).symm
  unfold Cpp.matchWith ruleMatch
  rw [hcanonical]
  cases hcase : Cpp.canonicalizeLocalPart U parsed.localPart rule with
  | none => rfl
  | some canonical =>
    have hnonempty : canonical.isEmpty = false := by
      rw [cppCanonicalizeLocalPart_eq h, canonicalizeLocalPart_eq] at hcase
      split at hcase
      · rename_i hvalid
        cases hcase
        rw [validLocalPart] at hvalid
        simp only [Bool.and_eq_true, Bool.not_eq_true'] at hvalid
        exact hvalid.1.1.1.1
      · cases hcase
    dsimp only
    rw [hnonempty]
    simp only [Bool.false_or, decide_eq_true_eq]
    rfl

theorem suffixRule_eq (m : DomainMatcher) (domain : Text) :
    m.suffixRule domain =
      (m.findRule domain).or ((domainSuffixes domain).findSome? m.findRule) := by
  rw [DomainMatcher.suffixRule, candidateRoots, List.findSome?_cons]
  cases m.findRule domain with
  | none => rfl
  | some rule => rfl

theorem star_notMem {domain : Text} (h : IsNormalizedDomain domain) : '*' ∉ domain :=
  fun hmem => (labelChar_facts (h.char hmem)).2.2 rfl

theorem ruleOutcome_withRoot (A : AddressOps) (parsed : ParsedMailboxAddress) (rule : DomainRule)
    (root : Text) : ruleOutcome A parsed (rule.withRoot root) =
      if (if root = parsed.domainAscii then rule.acceptExact else rule.acceptSubdomains) then
        ruleMatch A parsed (rule.withRoot root)
      else none := rfl

theorem cppParse_normalized {U : UnicodeOps} {address : Text} {parsed : ParsedMailboxAddress}
    (h : Cpp.parseMailboxAddress U address true = some parsed) :
    IsNormalizedDomain parsed.domainAscii := by
  unfold Cpp.parseMailboxAddress at h
  split at h
  · cases h
  · split at h
    · cases h
    · split at h
      · cases h
      · dsimp only at h
        split at h
        · cases h
        · split at h
          · cases h
          · split at h
            · cases h
            · rename_i domainAscii hnormalize
              split at h
              · cases h
              · rename_i hok
                cases h
                rw [cppNormalizeDomain_eq] at hnormalize
                refine (normalizeDomainCpp_normalized hnormalize).resolve_left ?_
                exact fun hstar => hok (.inl hstar)

/-- The walk of the daemon over its table is the search through the candidates. -/
theorem cppMatchAddress_walk {U : UnicodeOps} {t : RootTable} {m : DomainMatcher} (h : t.Represents m)
    (hkeyed : t.Keyed) (address : Text) :
    Cpp.matchAddress U t address =
      (Cpp.parseMailboxAddress U address true).bind fun parsed =>
        match m.suffixRule parsed.domainAscii with
        | some rule =>
          if rule.accepts parsed.domainAscii then Cpp.matchWith U parsed rule rule.rootDomainAscii
          else none
        | none => m.catchAllRule.bind fun rule => Cpp.matchWith U parsed rule rule.rootDomainAscii := by
  unfold Cpp.matchAddress
  cases hparse : Cpp.parseMailboxAddress U address true with
  | none => rfl
  | some parsed =>
    have hdomain := cppParse_normalized hparse
    have hexact := h.byRoot parsed.domainAscii hdomain.ne_catchAllRoot
    have hsuffix := RootTable.findSuffix_represents h (star_notMem hdomain)
    rw [Option.bind_some, suffixRule_eq, ← hexact, ← hsuffix, ← h.catchAll]
    dsimp only
    cases hlookup : t.rulesByRoot.lookup parsed.domainAscii with
    | some rule =>
      have hroot : rule.rootDomainAscii = parsed.domainAscii := hkeyed _ _ hlookup
      change (if true && !rule.acceptExact then none
        else if false && !rule.acceptSubdomains then none
        else Cpp.matchWith U parsed rule rule.rootDomainAscii) =
          if (if parsed.domainAscii = parsed.domainAscii then rule.acceptExact
            else rule.acceptSubdomains) then Cpp.matchWith U parsed rule parsed.domainAscii else none
      rw [if_pos rfl, hroot]
      cases rule.acceptExact <;> rfl
    | none =>
      cases hfound : t.findSuffix parsed.domainAscii with
      | some found =>
        obtain ⟨root, rule⟩ := found
        have hne : root ≠ parsed.domainAscii := by
          intro heq
          exact absurd (RootTable.length_of_findSuffix hfound) (by rw [heq]; omega)
        change (if false && !rule.acceptExact then none
          else if true && !rule.acceptSubdomains then none
          else Cpp.matchWith U parsed rule rule.rootDomainAscii) =
            if (if root = parsed.domainAscii then rule.acceptExact else rule.acceptSubdomains) then
              Cpp.matchWith U parsed rule root
            else none
        rw [if_neg hne, RootTable.root_of_findSuffix hkeyed hfound]
        cases rule.acceptSubdomains <;> rfl
      | none =>
        cases t.catchAllRule with
        | none => rfl
        | some rule => rfl

theorem cppMatchAddress_eq {U : UnicodeOps} {t : RootTable} {m : DomainMatcher} (h : t.Represents m)
    (hkeyed : t.Keyed) {address : Text} (hascii : isAsciiDomain address = true ∨ U.AllowsAscii) :
    Cpp.matchAddress U t address = m.matchAddress (cppAddressOps U) address := by
  rw [cppMatchAddress_walk h hkeyed, DomainMatcher.matchAddress, cppParse_eq hascii]
  cases hparse : parseMailboxAddress (cppAddressOps U) address true with
  | none => rfl
  | some parsed =>
    have hlocal := hascii.imp_left fun hascii => isAscii_of_parse hascii hparse
    have hmatch (rule : DomainRule) : Cpp.matchWith U parsed rule rule.rootDomainAscii =
        ruleMatch (cppAddressOps U) parsed rule := cppMatchWith_eq hlocal rule _
    rw [Option.bind_some, Option.bind_some, DomainMatcher.matchParsed_eq]
    cases m.suffixRule parsed.domainAscii with
    | some rule =>
      exact congrArg (fun r => if rule.accepts parsed.domainAscii then r else none) (hmatch rule)
    | none => exact congrArg m.catchAllRule.bind (funext hmatch)

/-- The end of `match_address` in Python. -/
theorem pyMatchEnd_eq {U : UnicodeOps} {parsed : ParsedMailboxAddress}
    (hdomain : isAsciiDomain parsed.domainAscii = true)
    (rule : DomainRule) (root canonical : Text)
    (hcanonical : canonical =
      canonicalText U rule.plusAddressingMode rule.localPartCaseSensitive parsed.localPart) :
    (if !Py.validLocalPart U canonical true then none
      else if kMaximumMailboxBytes < Utf8.size canonical + 1 + parsed.domainAscii.length then none
      else some
        { domainId := rule.domainId
          domainAscii := parsed.domainAscii
          rootDomainAscii := root
          localPart := parsed.localPart
          localPartCanonical := canonical
          addressCanonical := canonical ++ '@' :: parsed.domainAscii : DomainMatch }) =
      ruleMatch (pyAddressOps U) parsed (rule.withRoot root) := by
  subst hcanonical
  have hrule : canonicalizeLocalPart (pyAddressOps U) (rule.withRoot root).plusAddressingMode
      (rule.withRoot root).localPartCaseSensitive parsed.localPart =
        if validLocalPart U (canonicalText U rule.plusAddressingMode rule.localPartCaseSensitive
            parsed.localPart) true then
          some (canonicalText U rule.plusAddressingMode rule.localPartCaseSensitive parsed.localPart)
        else none := rfl
  unfold ruleMatch
  rw [hrule, ← size_ascii hdomain, pyValidLocalPart_eq]
  cases validLocalPart U (canonicalText U rule.plusAddressingMode rule.localPartCaseSensitive
      parsed.localPart) true with
  | false => rfl
  | true => rfl

theorem pyMatchAddress_eq {U : UnicodeOps} {t : RootTable} {m : DomainMatcher} (h : t.Represents m)
    (address : Text) : Py.matchAddress U t address = m.matchAddress (pyAddressOps U) address := by
  unfold Py.matchAddress DomainMatcher.matchAddress
  rw [pyParse_eq]
  cases hparse : parseMailboxAddress (pyAddressOps U) address true with
  | none => rfl
  | some parsed =>
    have hdomain := parse_normalized (pyAddressOps_lawful U) hparse
    have hexact := h.byRoot parsed.domainAscii hdomain.ne_catchAllRoot
    have hsuffix := RootTable.findSuffix_represents h (star_notMem hdomain)
    have hcanonical (rule : DomainRule) : (if !rule.localPartCaseSensitive then
        lowerText U (if rule.plusAddressingMode = .strip then parsed.localPart.takeWhile (· != '+')
          else parsed.localPart)
      else if rule.plusAddressingMode = .strip then parsed.localPart.takeWhile (· != '+')
        else parsed.localPart) =
        canonicalText U rule.plusAddressingMode rule.localPartCaseSensitive parsed.localPart := by
      cases rule.plusAddressingMode <;> cases rule.localPartCaseSensitive <;> rfl
    rw [Option.bind_some, DomainMatcher.matchParsed_eq, suffixRule_eq, ← hexact, ← hsuffix,
      ← h.catchAll]
    dsimp only
    cases hlookup : t.rulesByRoot.lookup parsed.domainAscii with
    | some rule =>
      dsimp only
      rw [pyMatchEnd_eq hdomain.ascii rule parsed.domainAscii _ (hcanonical rule)]
      change _ = ruleOutcome (pyAddressOps U) parsed (rule.withRoot parsed.domainAscii)
      rw [ruleOutcome_withRoot, if_pos rfl]
      have hne : parsed.domainAscii ≠ catchAllRoot := hdomain.ne_catchAllRoot
      cases rule.acceptExact <;> simp [hne]
    | none =>
      cases hfound : t.findSuffix parsed.domainAscii with
      | some found =>
        obtain ⟨root, rule⟩ := found
        have hne : root ≠ parsed.domainAscii := by
          intro heq
          exact absurd (RootTable.length_of_findSuffix hfound) (by rw [heq]; omega)
        have hstar : root ≠ catchAllRoot := RootTable.ne_star_of_findSuffix
          (star_notMem hdomain) hfound
        dsimp only
        rw [pyMatchEnd_eq hdomain.ascii rule root _ (hcanonical rule)]
        change _ = ruleOutcome (pyAddressOps U) parsed (rule.withRoot root)
        rw [ruleOutcome_withRoot, if_neg hne]
        cases rule.acceptSubdomains <;> simp [hstar]
      | none =>
        cases t.catchAllRule with
        | none => rfl
        | some rule =>
          dsimp only
          rw [pyMatchEnd_eq hdomain.ascii rule catchAllRoot _ (hcanonical rule)]
          simp

/-! ## The two matchers -/

theorem cppNewMatcher_eq (U : UnicodeOps) (rules : List DomainRule) :
    Cpp.newMatcher U rules = RootTable.load (cppAddressOps U) DomainRule.withRoot .empty rules := by
  unfold Cpp.newMatcher RootTable.load
  simp only [cppNormalizeDomain_eq]
  rfl

theorem pyNewMatcher_eq (U : UnicodeOps) (rules : List DomainRule) :
    Py.newMatcher U rules = RootTable.load (pyAddressOps U) (fun rule _ => rule) .empty rules := by
  unfold Py.newMatcher RootTable.load
  simp only [pyNormalizeDomain_eq]
  rfl

/-- Rules with ASCII roots make the same matcher in both languages. -/
theorem ofRules?_ascii {U V : UnicodeOps} {rules : List DomainRule}
    (h : ∀ rule ∈ rules, isAsciiDomain rule.rootDomainAscii = true) :
    DomainMatcher.ofRules? (cppAddressOps U) rules = DomainMatcher.ofRules? (pyAddressOps V) rules := by
  induction rules with
  | nil => rfl
  | cons rule rules ih =>
    have hroot : (cppAddressOps U).normalizeDomain rule.rootDomainAscii =
        (pyAddressOps V).normalizeDomain rule.rootDomainAscii :=
      normalizeDomain_ascii (h rule List.mem_cons_self)
    rw [DomainMatcher.ofRules?_cons, DomainMatcher.ofRules?_cons, hroot,
      ih fun r hr => h r (List.mem_cons_of_mem _ hr)]

/-- A matcher matches an ASCII address in both languages alike. -/
theorem matchAddress_ascii {U V : UnicodeOps} (m : DomainMatcher) {address : Text}
    (h : isAsciiDomain address = true) :
    m.matchAddress (cppAddressOps U) address = m.matchAddress (pyAddressOps V) address := by
  unfold DomainMatcher.matchAddress
  rw [parseMailboxAddress_ascii (V := V) h]
  cases hparse : parseMailboxAddress (pyAddressOps V) address true with
  | none => rfl
  | some parsed =>
    have hrule : ruleMatch (cppAddressOps U) parsed = ruleMatch (pyAddressOps V) parsed := by
      funext rule
      unfold ruleMatch
      rw [canonicalizeLocalPart_ascii (B := pyAddressOps V) (isAscii_of_parse h hparse)]
    rw [Option.bind_some, Option.bind_some, DomainMatcher.matchParsed_eq,
      DomainMatcher.matchParsed_eq]
    unfold ruleOutcome
    rw [hrule]

/-- On rules with ASCII roots and ASCII addresses the two matchers are one function: both
    constructors fail or neither does, every address has the same match, and `normalize_domain` gives
    the same result, whatever the Unicode libraries. -/
theorem matchers_agree (U V : UnicodeOps) (rules : List DomainRule)
    (hrules : ∀ rule ∈ rules, isAsciiDomain rule.rootDomainAscii = true) :
    ((Cpp.newMatcher U rules).isSome = (Py.newMatcher V rules).isSome ∧
      ∀ cpp py, Cpp.newMatcher U rules = some cpp → Py.newMatcher V rules = some py →
        ∀ address, isAsciiDomain address = true →
          Cpp.matchAddress U cpp address = Py.matchAddress V py address) ∧
      ∀ domain, isAsciiDomain domain = true → Cpp.normalizeDomain U domain = Py.normalizeDomain V domain := by
  have hcpp := RootTable.load_represents (cppAddressOps U) DomainRule.withRoot
    (fun _ _ => rfl) RootTable.empty_represents rules
  have hpy := RootTable.load_represents (pyAddressOps V) (fun rule _ => rule)
    (fun _ _ => rfl) RootTable.empty_represents rules
  rw [← cppNewMatcher_eq] at hcpp
  rw [← pyNewMatcher_eq, ← ofRules?_ascii (U := U) hrules] at hpy
  constructor
  · cases hm : DomainMatcher.ofRules? (cppAddressOps U) rules with
    | none =>
      rw [hm] at hcpp hpy
      rw [hcpp, hpy]
      exact ⟨rfl, fun cpp py hsome => nomatch hsome⟩
    | some m =>
      rw [hm] at hcpp hpy
      obtain ⟨cpp, hloadCpp, hrepCpp⟩ := hcpp
      obtain ⟨py, hloadPy, hrepPy⟩ := hpy
      have hkeyed : cpp.Keyed := by
        refine RootTable.load_keyed (t := .empty) ?_ (cppNewMatcher_eq U rules ▸ hloadCpp)
        exact fun root rule hlookup => nomatch hlookup
      rw [hloadCpp, hloadPy]
      refine ⟨rfl, ?_⟩
      rintro _ _ ⟨⟩ ⟨⟩ address hascii
      rw [cppMatchAddress_eq hrepCpp hkeyed (.inl hascii), pyMatchAddress_eq hrepPy]
      exact matchAddress_ascii _ hascii
  · intro domain hascii
    rw [cppNormalizeDomain_eq, pyNormalizeDomain_eq]
    exact normalizeDomain_ascii hascii

theorem matchers_agree_subdomain :
    ∃ cpp, Cpp.newMatcher .asciiOnly
        [⟨7, " Example.COM.".toList, false, true, .strip, false⟩] = some cpp ∧
      Cpp.matchAddress .asciiOnly cpp "Box+tag@Mail.Example.com".toList =
        some ⟨7, "mail.example.com".toList, "example.com".toList, "Box+tag".toList, "box".toList,
          "box@mail.example.com".toList⟩ := by
  have hagree := (matchers_agree .asciiOnly .asciiOnly
    [⟨7, " Example.COM.".toList, false, true, .strip, false⟩] (by decide)).1
  have hpy : Py.newMatcher .asciiOnly [⟨7, " Example.COM.".toList, false, true, .strip, false⟩] =
      some ⟨[("example.com".toList, ⟨7, " Example.COM.".toList, false, true, .strip, false⟩)], none⟩ := by
    decide +kernel
  rw [hpy, Option.isSome_some] at hagree
  obtain ⟨cpp, hcpp⟩ := Option.isSome_iff_exists.mp hagree.1
  refine ⟨cpp, hcpp, ?_⟩
  rw [hagree.2 cpp _ hcpp rfl _ (by decide)]
  decide +kernel

end RapidInbox
