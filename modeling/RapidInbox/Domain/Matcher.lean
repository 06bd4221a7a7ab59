import RapidInbox.Domain.Address

/-!
# Domain matching

`DomainMatcher` of `cpp/ingestd/src/domain_matcher.cpp` and `app/smtp/matcher.py`: the longest
configured suffix of the recipient's domain decides, and the catch-all rule `*` is asked only when
no suffix is configured.  The two implementations share their logic and differ in the address code
underneath, which is the parameter `A`.
-/

namespace RapidInbox

structure DomainRule where
  domainId : Nat
  rootDomainAscii : Text
  acceptExact : Bool
  acceptSubdomains : Bool
  plusAddressingMode : PlusMode
  localPartCaseSensitive : Bool
  deriving DecidableEq, Repr

structure DomainMatch where
  domainId : Nat
  domainAscii : Text
  rootDomainAscii : Text
  localPart : Text
  localPartCanonical : Text
  addressCanonical : Text
  deriving DecidableEq, Repr

/-- The root of the catch-all rule. -/
def catchAllRoot : Text := ['*']

/-- A domain and its proper DNS suffixes, longest first. -/
def domainSuffixes : Text → List Text
  | [] => []
  | c :: cs =>
    if c = '.' then cs :: domainSuffixes cs else domainSuffixes cs

/-- The roots `match_address` looks up, in its order. -/
def candidateRoots (domain : Text) : List Text := domain :: domainSuffixes domain

/-- `root.ends_with("." + suffix)`. -/
def IsSubdomainOf (root suffix : Text) : Prop := ('.' :: suffix) <:+ root

instance (root suffix : Text) : Decidable (IsSubdomainOf root suffix) :=
  inferInstanceAs (Decidable (_ <:+ _))

/-- The rules of a matcher, with normalised roots. -/
structure DomainMatcher where
  rules : List DomainRule
  deriving DecidableEq, Repr

namespace DomainMatcher

/-- The constructor: every root is normalised, and a root that is no domain throws. -/
def ofRules? (A : AddressOps) (rules : List DomainRule) : Option DomainMatcher :=
  (rules.mapM fun rule =>
    (A.normalizeDomain rule.rootDomainAscii).map fun root =>
      { rule with rootDomainAscii := root }).map DomainMatcher.mk

/-- `rules_by_root_.find`: the first configured rule of a root wins. -/
def findRule (m : DomainMatcher) (root : Text) : Option DomainRule :=
  m.rules.find? fun rule => rule.rootDomainAscii = root

/-- The catch-all rule, if one is configured. -/
def catchAllRule (m : DomainMatcher) : Option DomainRule := m.findRule catchAllRoot

/-- The rule of the longest configured suffix. -/
def suffixRule (m : DomainMatcher) (domain : Text) : Option DomainRule :=
  (candidateRoots domain).findSome? m.findRule

end DomainMatcher

/-- The match of a parsed address under a rule, with the canonical local part the rule asks for. -/
def ruleMatch (A : AddressOps) (parsed : ParsedMailboxAddress) (rule : DomainRule) :
    Option DomainMatch :=
  match canonicalizeLocalPart A rule.plusAddressingMode rule.localPartCaseSensitive
      parsed.localPart with
  | none => none
  | some canonical =>
    if kMaximumMailboxBytes < Utf8.size canonical + 1 + Utf8.size parsed.domainAscii then none
    else some
      { domainId := rule.domainId
        domainAscii := parsed.domainAscii
        rootDomainAscii := rule.rootDomainAscii
        localPart := parsed.localPart
        localPartCanonical := canonical
        addressCanonical := canonical ++ '@' :: parsed.domainAscii }

/-- `match_address` on an address already parsed. -/
def DomainMatcher.matchParsed (A : AddressOps) (m : DomainMatcher)
    (parsed : ParsedMailboxAddress) : Option DomainMatch :=
  match m.suffixRule parsed.domainAscii with
  | some rule =>
    if rule.rootDomainAscii = parsed.domainAscii then
      if rule.acceptExact then ruleMatch A parsed rule else none
    else if rule.acceptSubdomains then ruleMatch A parsed rule else none
  | none =>
    match m.catchAllRule with
    | some rule => ruleMatch A parsed rule
    | none => none

/-- `DomainMatcher::match_address`. -/
def DomainMatcher.matchAddress (A : AddressOps) (m : DomainMatcher) (address : Text) :
    Option DomainMatch :=
  (parseMailboxAddress A address true).bind (m.matchParsed A)

end RapidInbox
