import RapidInbox.Domain.Matcher

/-!
# The two matchers, statement by statement

`domain_matcher.cpp` and `matcher.py`, each in its own words: how it cuts labels, tests characters,
keeps its rules and walks the suffixes.  A `std::string` is its decoded text, so on ASCII a byte is a
character.  What the two take from a Unicode library is `UnicodeOps`, a value for each.
-/

namespace RapidInbox

/-- The rules of a matcher by their normalised roots, and the catch-all rule. -/
structure RootTable where
  rulesByRoot : List (Text × DomainRule)
  catchAllRule : Option DomainRule
  deriving DecidableEq, Repr

namespace RootTable

def empty : RootTable := ⟨[], none⟩

/-- `try_emplace`, `setdefault`. -/
def setDefault (t : RootTable) (root : Text) (rule : DomainRule) : RootTable :=
  if (t.rulesByRoot.lookup root).isSome then t
  else { t with rulesByRoot := t.rulesByRoot ++ [(root, rule)] }

/-- One rule of the constructor's loop. -/
def add (t : RootTable) (root : Text) (rule : DomainRule) : RootTable :=
  if root = catchAllRoot then
    if t.catchAllRule.isNone then { t with catchAllRule := some rule } else t
  else t.setDefault root rule

/-- The loop over the dots of a domain: the longest configured proper suffix. -/
def findSuffix (t : RootTable) : Text → Option (Text × DomainRule)
  | [] => none
  | c :: suffix =>
    if c = '.' then
      match t.rulesByRoot.lookup suffix with
      | some rule => some (suffix, rule)
      | none => t.findSuffix suffix
    else t.findSuffix suffix

end RootTable

/-! ## C++ -/

namespace Cpp

/-- `is_ascii_python_whitespace`. -/
def isAsciiPythonWhitespace (ch : Char) : Bool :=
  (0x09 ≤ ch.toNat && ch.toNat ≤ 0x0D) || (0x1C ≤ ch.toNat && ch.toNat ≤ 0x20)

/-- `kUtf8PythonWhitespace`, decoded. -/
def utf8PythonWhitespace : List Nat :=
  [0x85, 0xA0, 0x1680, 0x2000, 0x2001, 0x2002, 0x2003, 0x2004, 0x2005, 0x2006, 0x2007, 0x2008, 0x2009,
    0x200A, 0x2028, 0x2029, 0x202F, 0x205F, 0x3000]

def isWhitespace (ch : Char) : Bool :=
  isAsciiPythonWhitespace ch || utf8PythonWhitespace.contains ch.toNat

/-- `strip_unicode_whitespace`. -/
def stripUnicodeWhitespace (value : Text) : Text :=
  ((value.dropWhile isWhitespace).reverse.dropWhile isWhitespace).reverse

/-- The loop of `validate_raw_domain_label_edges`, from `label_start` on. -/
def rawLabelEdges (mapped : Text) : Bool :=
  if mapped = [] then false
  else
    let label := mapped.takeWhile (· != '.')
    if label.isEmpty || label.head? == some '-' || label.getLast? == some '-' then false
    else
      match _h : mapped.dropWhile (· != '.') with
      | [] => true
      | _ :: rest => rawLabelEdges rest
termination_by mapped.length
decreasing_by
  have hle := (List.dropWhile_suffix (l := mapped) (· != '.')).length_le
  rw [_h, List.length_cons] at hle
  omega

/-- `validate_raw_domain_label_edges`. -/
def validateRawDomainLabelEdges (domain : Text) : Bool := rawLabelEdges (mapIdnaDotSeparators domain)

/-- The loop of `validate_ascii_domain_labels`, from `label_start` on. -/
def asciiLabels (domain : Text) : Bool :=
  if domain = [] then true
  else
    let label := domain.takeWhile (· != '.')
    if label.length = 0 then false
    else if 63 < label.length then false
    else if label.head? == some '-' || label.getLast? == some '-' then false
    else if !label.all isLabelChar then false
    else
      match _h : domain.dropWhile (· != '.') with
      | [] => true
      | _ :: rest => asciiLabels rest
termination_by domain.length
decreasing_by
  have hle := (List.dropWhile_suffix (l := domain) (· != '.')).length_le
  rw [_h, List.length_cons] at hle
  omega

/-- `validate_ascii_domain_labels`. -/
def validateAsciiDomainLabels (domain : Text) : Bool :=
  if domain.isEmpty || domain.head? == some '.' || domain.getLast? == some '.' then false
  else if kMaximumDomainBytes < domain.length then false
  else asciiLabels domain

/-- `normalize_domain`; `none` is an exception. -/
def normalizeDomain (U : UnicodeOps) (domain : Text) : Option Text :=
  let domain := rstripDots (stripUnicodeWhitespace domain)
  if domain.isEmpty then none
  else if domain = ['*'] then some domain
  else if domain.contains '\x00' then none
  else if !validateRawDomainLabelEdges domain then none
  else if isAsciiDomain domain then
    let domain := asciiLower domain
    if validateAsciiDomainLabels domain then some domain else none
  else
    match U.idnToAscii (U.toLower domain) with
    | none => none
    | some domain =>
      if !isAsciiDomain domain then none
      else
        let domain := asciiLower domain
        if validateAsciiDomainLabels domain then some domain else none

/-- The loop of `valid_local_part`. -/
def localPartLoop (allowSmtputf8 : Bool) : Bool → Text → Bool
  | _, [] => true
  | previousDot, ch :: rest =>
    if !isAsciiChar ch then
      if !allowSmtputf8 then false else localPartLoop allowSmtputf8 false rest
    else if ch = '.' then
      if previousDot then false else localPartLoop allowSmtputf8 true rest
    else if !isAsciiAtext ch then false
    else localPartLoop allowSmtputf8 false rest

/-- `valid_local_part`; a non-ASCII text is asked of ICU first, character by character. -/
def validLocalPart (U : UnicodeOps) (localPart : Text) (allowSmtputf8 : Bool) : Bool :=
  if localPart.isEmpty || kMaximumLocalPartBytes < Utf8.size localPart ||
      localPart.head? == some '.' || localPart.getLast? == some '.' then false
  else if !isAsciiDomain localPart && (!allowSmtputf8 || localPart.any U.forbidden) then false
  else localPartLoop allowSmtputf8 false localPart

/-- `canonicalize_local_part`; `none` is an exception. -/
def canonicalizeLocalPart (U : UnicodeOps) (localPart : Text) (rule : DomainRule) : Option Text :=
  let canonical :=
    if rule.plusAddressingMode = .strip then
      match localPart.findIdx? (· == '+') with
      | some plus => localPart.take plus
      | none => localPart
    else localPart
  let canonical :=
    if !rule.localPartCaseSensitive then
      if isAsciiDomain canonical then asciiLower canonical else U.toLower canonical
    else canonical
  if validLocalPart U canonical true then some canonical else none

/-- The position of the last occurrence. -/
def rfind (value : Text) (ch : Char) : Option Nat :=
  (value.reverse.findIdx? (· == ch)).map fun i => value.length - 1 - i

/-- `parse_mailbox_address`. -/
def parseMailboxAddress (U : UnicodeOps) (address : Text) (allowSmtputf8 : Bool) :
    Option ParsedMailboxAddress :=
  if address.isEmpty || kMaximumMailboxBytes < Utf8.size address then none
  else
    match address.findIdx? (· == '@') with
    | none => none
    | some i =>
      if some i ≠ rfind address '@' then none
      else
        let localPart := address.take i
        let rawDomain := address.drop (i + 1)
        if !validLocalPart U localPart allowSmtputf8 || rawDomain.isEmpty ||
            rawDomain.getLast? == some '.' || stripUnicodeWhitespace rawDomain != rawDomain then none
        else if !allowSmtputf8 && !isAsciiDomain rawDomain then none
        else
          match normalizeDomain U rawDomain with
          | none => none
          | some domainAscii =>
            if domainAscii = ['*'] ∨ kMaximumDomainBytes < Utf8.size domainAscii ∨
                kMaximumMailboxBytes < Utf8.size localPart + 1 + Utf8.size domainAscii then none
            else some ⟨localPart, domainAscii⟩

/-- The constructor: a rule is kept with its normalised root; `none` is an exception. -/
def newMatcher (U : UnicodeOps) (rules : List DomainRule) : Option RootTable :=
  rules.foldlM (fun t rule =>
    (normalizeDomain U rule.rootDomainAscii).map fun root =>
      t.add root { rule with rootDomainAscii := root }) .empty

/-- The match of an address under a rule. -/
def matchWith (U : UnicodeOps) (parsed : ParsedMailboxAddress) (rule : DomainRule) (root : Text) :
    Option DomainMatch :=
  match canonicalizeLocalPart U parsed.localPart rule with
  | none => none
  | some canonical =>
    if canonical.isEmpty ||
        kMaximumMailboxBytes < Utf8.size canonical + 1 + Utf8.size parsed.domainAscii then none
    else some
      { domainId := rule.domainId
        domainAscii := parsed.domainAscii
        rootDomainAscii := root
        localPart := parsed.localPart
        localPartCanonical := canonical
        addressCanonical := canonical ++ '@' :: parsed.domainAscii }

/-- `DomainMatcher::match_address`. -/
def matchAddress (U : UnicodeOps) (t : RootTable) (address : Text) : Option DomainMatch :=
  match parseMailboxAddress U address true with
  | none => none
  | some parsed =>
    let exact := t.rulesByRoot.lookup parsed.domainAscii
    match exact <|> (t.findSuffix parsed.domainAscii).map Prod.snd with
    | some rule =>
      if exact.isSome && !rule.acceptExact then none
      else if exact.isNone && !rule.acceptSubdomains then none
      else matchWith U parsed rule rule.rootDomainAscii
    | none =>
      match t.catchAllRule with
      | some rule => matchWith U parsed rule catchAllRoot
      | none => none

end Cpp

/-! ## Python -/

namespace Py

/-- White space as `str.strip` knows it. -/
def whitespace : List Nat :=
  [0x09, 0x0A, 0x0B, 0x0C, 0x0D, 0x1C, 0x1D, 0x1E, 0x1F, 0x20, 0x85, 0xA0, 0x1680, 0x2000, 0x2001,
    0x2002, 0x2003, 0x2004, 0x2005, 0x2006, 0x2007, 0x2008, 0x2009, 0x200A, 0x2028, 0x2029, 0x202F,
    0x205F, 0x3000]

def isSpace (c : Char) : Bool := whitespace.contains c.toNat

/-- `str.strip`. -/
def strip (t : Text) : Text := ((t.dropWhile isSpace).reverse.dropWhile isSpace).reverse

/-- `char.isascii() and char.isalnum()`. -/
def isAsciiAlnum (c : Char) : Bool := c.isAlphanum

/-- `_validate_ascii_domain`. -/
def validateAsciiDomain (domain : Text) : Bool :=
  if domain.isEmpty || kMaximumDomainBytes < domain.length then false
  else
    (domain.splitOn '.').all fun label =>
      if label.isEmpty || 63 < label.length then false
      else if label.head? == some '-' || label.getLast? == some '-' then false
      else !label.any fun c => !(isAsciiAlnum c || c == '-')

/-- `str.encode("idna")` and its decoding: an ASCII name is checked label by label and kept. -/
def encodeIdna (U : UnicodeOps) (t : Text) : Option Text :=
  if isAsciiDomain t then
    let labels := t.splitOn '.'
    if labels.dropLast.any (fun label => label.isEmpty || 64 ≤ label.length) then none
    else if labels.getLast?.any (fun label => 64 ≤ label.length) then none
    else some t
  else (U.idnToAscii t).bind fun ascii => if isAsciiDomain ascii then some ascii else none

/-- `normalize_domain`; `none` is an exception. -/
def normalizeDomain (U : UnicodeOps) (domain : Text) : Option Text :=
  let normalized := lowerText U (rstripDots (strip domain))
  if normalized = ['*'] then some normalized
  else if normalized.isEmpty then none
  else
    let mappedLabels := (mapIdnaDotSeparators normalized).splitOn '.'
    if mappedLabels.any fun label =>
        label.isEmpty || label.head? == some '-' || label.getLast? == some '-' then none
    else
      match encodeIdna U normalized with
      | none => none
      | some ascii =>
        let asciiDomain := asciiLower ascii
        if validateAsciiDomain asciiDomain then some asciiDomain else none

/-- `_ASCII_ATEXT`. -/
def asciiAtext : List Char := "!#$%&'*+-/=?^_`\x7b|\x7d~".toList

/-- `_valid_local_part`. -/
def validLocalPart (U : UnicodeOps) (localPart : Text) (allowSmtputf8 : Bool) : Bool :=
  if localPart.isEmpty || kMaximumLocalPartBytes < Utf8.size localPart then false
  else if localPart.head? == some '.' || localPart.getLast? == some '.' ||
      decide (['.', '.'] <:+: localPart) then false
  else
    localPart.all fun c =>
      if !isAsciiChar c then allowSmtputf8 && !U.forbidden c
      else c == '.' || isAsciiAlnum c || asciiAtext.contains c

/-- `parse_mailbox_address`. -/
def parseMailboxAddress (U : UnicodeOps) (address : Text) (allowSmtputf8 : Bool) :
    Option ParsedMailboxAddress :=
  if address.isEmpty || kMaximumMailboxBytes < Utf8.size address then none
  else if address.count '@' ≠ 1 then none
  else
    let localPart := address.takeWhile (· != '@')
    let rawDomain := (address.dropWhile (· != '@')).tail
    if !validLocalPart U localPart allowSmtputf8 || rawDomain.isEmpty ||
        rawDomain.getLast? == some '.' || strip rawDomain != rawDomain ||
        (!allowSmtputf8 && !isAsciiDomain rawDomain) then none
    else
      match normalizeDomain U rawDomain with
      | none => none
      | some normalizedDomain =>
        if normalizedDomain = ['*'] then none
        else if kMaximumMailboxBytes < Utf8.size localPart + 1 + normalizedDomain.length then none
        else some ⟨localPart, normalizedDomain⟩

/-- `DomainMatcher.__init__`: a rule is kept as it is, under its normalised root; `none` is an
    exception. -/
def newMatcher (U : UnicodeOps) (rules : List DomainRule) : Option RootTable :=
  rules.foldlM (fun t rule =>
    (normalizeDomain U rule.rootDomainAscii).map fun root => t.add root rule) .empty

/-- `match_address`. -/
def matchAddress (U : UnicodeOps) (t : RootTable) (address : Text) : Option DomainMatch :=
  match parseMailboxAddress U address true with
  | none => none
  | some parsed =>
    let exact := t.rulesByRoot.lookup parsed.domainAscii
    let found : Option (Text × DomainRule) :=
      match exact with
      | some rule => some (parsed.domainAscii, rule)
      | none => t.findSuffix parsed.domainAscii
    let (isExact, found) :=
      match found, t.catchAllRule with
      | none, some rule => (true, some (catchAllRoot, rule))
      | found, _ => (exact.isSome, found)
    match found with
    | none => none
    | some (normalizedRoot, rule) =>
      if normalizedRoot ≠ catchAllRoot ∧ isExact ∧ !rule.acceptExact then none
      else if normalizedRoot ≠ catchAllRoot ∧ !isExact ∧ !rule.acceptSubdomains then none
      else
        let canonical :=
          if rule.plusAddressingMode = .strip then parsed.localPart.takeWhile (· != '+')
          else parsed.localPart
        let canonical :=
          if !rule.localPartCaseSensitive then lowerText U canonical else canonical
        if !validLocalPart U canonical true then none
        else if kMaximumMailboxBytes <
            Utf8.size canonical + 1 + parsed.domainAscii.length then none
        else some
          { domainId := rule.domainId
            domainAscii := parsed.domainAscii
            rootDomainAscii := normalizedRoot
            localPart := parsed.localPart
            localPartCanonical := canonical
            addressCanonical := canonical ++ '@' :: parsed.domainAscii }

end Py

end RapidInbox
