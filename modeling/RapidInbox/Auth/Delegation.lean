import RapidInbox.Auth.ApiKeys

/-!
# Delegation is sound

`api_key_is_within_principal` compares two policies field by field; authorization evaluates a request
against one.  Whatever a key within a caller's policy is authorized for, the caller is authorized for.
-/

namespace RapidInbox

/-- A request, as authentication and `ensure_mailbox_access` see it. -/
structure AccessRequest where
  scope : Text
  domainId : Nat
  mailboxAddress : Text
  requestIp : Option Text
  transport : ApiKeyTransport
  now : Timestamp
  deriving DecidableEq, Repr

/-- The context that authentication with a key of this policy gives. -/
def KeyPolicy.context (t : KeyPolicy) (apiKeyId : Nat) : PermissionContext :=
  { scopes := t.scopes
    domainIds := t.domainIds
    mailboxPatterns := t.mailboxPatterns
    domainGrantMode := t.domainGrantMode
    apiKeyId := some apiKeyId
    legacyCredential := false
    rateLimitPerMin := t.rateLimitPerMin
    allowedIpCidrs := t.allowedIpCidrs
    expiresAt := t.expiresAt
    allowHeader := t.allowHeader
    allowQuery := t.allowQuery
    adminId := none
    adminSessionId := none }

/-- The record of an active credential with these permissions. -/
def PermissionContext.record (c : PermissionContext) (secretHash : Text) : AuthenticationRecord :=
  { context := c
    secretHash
    status := .active
    allowHeader := c.allowHeader
    allowQuery := c.allowQuery
    rateLimitPerMin := c.rateLimitPerMin
    allowedIpCidrs := encodeAllowedIpCidrs c.allowedIpCidrs
    expiresAt := c.expiresAt }

/-- A request is authorized: the credential authenticates it, and the mailbox access it asks for is
    granted, a write scope implying the read scope. -/
def PermissionContext.Authorizes (E : StdText) (c : PermissionContext) (r : AccessRequest) : Prop :=
  (∀ secretHash, validateAuthenticationRecord E (c.record secretHash) secretHash r.transport
    r.requestIp r.now = .ok c) ∧
  ensureMailboxAccess { c with scopes := effectiveScopes c.scopes } r.mailboxAddress r.domainId
    r.scope = .ok ()

/-- Patterns and expiry as `create_key` and `update_key` admit them. -/
structure AdmittedPolicy (E : StdText) (mailboxPatterns : List Text) (expiresAt : Option Text) :
    Prop where
  brackets : ∀ pattern ∈ mailboxPatterns, '[' ∉ pattern ∧ ']' ∉ pattern
  expiry : ∀ text, expiresAt = some text → ∃ second, IsDatetimeSecond second ∧ text = E.isoText second

/-! ## One dimension at a time -/

section Dimensions

variable {E : StdText}

/-- Transport, expiry and address are what authentication with the right secret looks at. -/
theorem authenticates_iff {c : PermissionContext} {secretHash : Text} {transport : ApiKeyTransport}
    {requestIp : Option Text} {now : Timestamp} :
    validateAuthenticationRecord E (c.record secretHash) secretHash transport requestIp now = .ok c ↔
      (transport = .header → c.allowHeader = true) ∧ (transport = .query → c.allowQuery = true) ∧
      expirationIsDue E c.expiresAt now = .ok false ∧
      (requestIp.isSome = true →
        requestIpAllowed E requestIp (encodeAllowedIpCidrs c.allowedIpCidrs) = true) := by
  unfold validateAuthenticationRecord PermissionContext.record
  cases transport <;> cases c.allowHeader <;> cases c.allowQuery <;>
    rcases expirationIsDue E c.expiresAt now with e | (_ | _) <;> cases requestIp.isSome <;>
    cases requestIpAllowed E requestIp (encodeAllowedIpCidrs c.allowedIpCidrs) <;> simp

/-- The grants of a context cover a mailbox. -/
def PermissionContext.Grants (c : PermissionContext) (mailboxAddress : Text) (domainId : Nat) : Prop :=
  (c.domainGrantMode = .all ∨ c.domainGrantMode = .selected ∧ domainId ∈ c.domainIds) ∧
    (c.mailboxPatterns = [] ∨
      ∃ pattern ∈ c.mailboxPatterns, fnmatchcase mailboxAddress pattern = true)

theorem ensureMailboxAccess_ok_iff {c : PermissionContext} {mailboxAddress scope : Text}
    {domainId : Nat} :
    ensureMailboxAccess c mailboxAddress domainId scope = .ok () ↔
      scope ∈ c.scopes ∧ (c.legacyCredential = true ∨ c.Grants mailboxAddress domainId) := by
  unfold ensureMailboxAccess PermissionContext.Grants mailboxPatternMatches
  have hpatterns : (c.mailboxPatterns = [] ∨
      ∃ pattern ∈ c.mailboxPatterns, fnmatchcase mailboxAddress pattern = true) ↔
      (!c.mailboxPatterns.isEmpty &&
        !c.mailboxPatterns.any fun pattern => fnmatchcase mailboxAddress pattern) = false := by
    cases c.mailboxPatterns with
    | nil => simp
    | cons pattern patterns =>
      cases hmatch : fnmatchcase mailboxAddress pattern with
      | true => simp [hmatch]
      | false => simp [hmatch]
  by_cases hscope : scope ∈ c.scopes
  · cases c.legacyCredential with
    | true => simp [hscope]
    | false =>
      rw [hpatterns]
      cases hmode : c.domainGrantMode with
      | all => simp [hscope]
      | selected =>
        by_cases hid : domainId ∈ c.domainIds
        · simp [hscope, hid]
        · simp [hscope, hid]
      | none => simp [hscope]
      | invalid => simp [hscope]
  · simp [hscope]

theorem not_readScope_of_write {scope : Text} (h : ".write".toList <:+ scope) (x : Text) :
    readScope? x ≠ some scope := by
  intro hread
  rw [readScope?] at hread
  split at hread
  · obtain ⟨front, hfront⟩ := h
    have hends := (Option.some.inj hread).trans hfront.symm
    have hlast := congrArg List.getLast? hends
    simp at hlast
  · cases hread

/-- Within the scopes of a caller, an implied read scope is one of the caller's. -/
theorem effectiveScopes_subset {principal target : List Text}
    (h : ∀ scope ∈ target, scope ∈ effectiveScopes principal) :
    ∀ scope ∈ effectiveScopes target, scope ∈ effectiveScopes principal := by
  intro scope hscope
  rcases List.mem_append.mp hscope with hplain | hread
  · exact h scope hplain
  · obtain ⟨write, hwrite, hread⟩ := List.mem_filterMap.mp hread
    have hsuffix : ".write".toList <:+ write := by
      by_contra hnot
      rw [readScope?, if_neg hnot] at hread
      cases hread
    -- a write scope of the caller's effective scopes is one of its own, so its read scope is there
    rcases List.mem_append.mp (h write hwrite) with hown | himplied
    · exact List.mem_append_right _ (List.mem_filterMap.mpr ⟨write, hown, hread⟩)
    · obtain ⟨x, -, hx⟩ := List.mem_filterMap.mp himplied
      exact absurd hx (not_readScope_of_write hsuffix x)

theorem mapM_some_any {l : List Text} {networks : List IpNetwork} (address : IpAddress)
    (h : l.mapM E.ipNetwork = some networks) :
    addressAllowed E address l = networks.any fun network => network.holds address := by
  induction l generalizing networks with
  | nil =>
    rw [List.mapM_nil] at h
    cases h
    rfl
  | cons cidr cidrs ih =>
    rw [List.mapM_cons] at h
    rw [addressAllowed]
    cases hcidr : E.ipNetwork cidr with
    | none => simp [hcidr] at h
    | some network =>
      cases hrest : cidrs.mapM E.ipNetwork with
      | none => simp [hcidr, hrest] at h
      | some rest =>
        simp only [hcidr, hrest, Option.pure_def, Option.bind_eq_bind, Option.bind_some,
          Option.some.injEq] at h
        subst h
        simp [ih hrest]

theorem mapM_some_eq_nil {l : List Text} {networks : List IpNetwork}
    (h : l.mapM E.ipNetwork = some networks) : networks = [] ↔ l = [] := by
  cases l with
  | nil =>
    rw [List.mapM_nil] at h
    cases h
    exact ⟨fun _ => rfl, fun _ => rfl⟩
  | cons cidr cidrs =>
    rw [List.mapM_cons] at h
    cases hcidr : E.ipNetwork cidr with
    | none => simp [hcidr] at h
    | some network =>
      cases hrest : cidrs.mapM E.ipNetwork with
      | none => simp [hcidr, hrest] at h
      | some rest =>
        simp only [hcidr, hrest, Option.pure_def, Option.bind_eq_bind, Option.bind_some,
          Option.some.injEq] at h
        subst h
        exact ⟨nofun, nofun⟩

/-- An address of a network within another is an address of the other. -/
theorem IpNetwork.holds_of_isWithin {child parent : IpNetwork} (h : child.isWithin parent = true)
    {address : IpAddress} (ha : child.holds address = true) : parent.holds address = true := by
  simp only [IpNetwork.isWithin, IpNetwork.holds, Bool.and_eq_true, decide_eq_true_eq] at h ha ⊢
  exact ⟨ha.1.trans h.1, AddressRange.covers_of_subnetOf h.2 ha.2⟩

theorem requestIpAllowed_of_within {principal target : List Text} {requestIp : Option Text}
    (h : networksAreWithin E principal target = true)
    (ht : requestIpAllowed E requestIp (encodeAllowedIpCidrs target) = true) :
    requestIpAllowed E requestIp (encodeAllowedIpCidrs principal) = true := by
  unfold networksAreWithin at h
  cases hparents : principal.mapM E.ipNetwork with
  | none => simp [hparents] at h
  | some parents =>
    cases hchildren : target.mapM E.ipNetwork with
    | none => simp [hparents, hchildren] at h
    | some children =>
      simp only [hparents, hchildren, Bool.or_eq_true, List.isEmpty_iff, Bool.and_eq_true,
        Bool.not_eq_true', List.all_eq_true, List.any_eq_true, List.isEmpty_eq_false_iff] at h
      by_cases hprincipal : principal = []
      · simp [requestIpAllowed, encodeAllowedIpCidrs, hprincipal]
      · have hparentsSome : parents ≠ [] := fun hnil => hprincipal ((mapM_some_eq_nil hparents).mp hnil)
        obtain ⟨hsome, hall⟩ := h.resolve_left hparentsSome
        have htarget : target ≠ [] := fun hnil => hsome ((mapM_some_eq_nil hchildren).mpr hnil)
        cases haddress : requestIp.bind E.ipAddress with
        | none => simp [requestIpAllowed, encodeAllowedIpCidrs, htarget, haddress] at ht
        | some address =>
          simp only [requestIpAllowed, encodeAllowedIpCidrs, haddress, if_false, reduceCtorEq,
            Bool.false_or, List.isEmpty_eq_false_iff.mpr htarget,
            List.isEmpty_eq_false_iff.mpr hprincipal] at ht ⊢
          rw [mapM_some_any address hchildren, List.any_eq_true] at ht
          rw [mapM_some_any address hparents, List.any_eq_true]
          obtain ⟨child, hchild, hholds⟩ := ht
          obtain ⟨parent, hparent, hwithin⟩ := hall child hchild
          exact ⟨parent, hparent, IpNetwork.holds_of_isWithin hwithin hholds⟩

theorem expiration_of_within (hE : E.Lawful) {principal target : Option Text} {now : Timestamp}
    (h : expirationIsWithin E principal target = true)
    (hp : ∀ text, principal = some text → ∃ second, IsDatetimeSecond second ∧ text = E.isoText second)
    (ht : expirationIsDue E target now = .ok false) : expirationIsDue E principal now = .ok false := by
  cases principal with
  | none => rfl
  | some text =>
    obtain ⟨second, hsecond, rfl⟩ := hp text rfl
    cases target with
    | none => simp [expirationIsWithin, parseApiKeyExpiration] at h
    | some text =>
      by_cases hempty : text.isEmpty = true
      · simp [expirationIsWithin, parseApiKeyExpiration, hempty] at h
      · cases hiso : E.isoDateTime text with
        | none => simp [expirationIsWithin, parseApiKeyExpiration, hempty, hiso] at h
        | some time =>
          have hstrip := hE.iso_stripped text time hiso
          obtain ⟨micros, offset⟩ := time
          cases offset with
          | none =>
            -- a time without a zone is due, whatever it says
            simp [expirationIsDue, normalizeExpirationSecond, hempty, hstrip, hiso] at ht
          | some offset =>
            have htime : now < (micros - offset) / 1000000 := by
              by_cases hrange : IsDatetimeSecond ((micros - offset) / 1000000)
              · simpa [expirationIsDue, normalizeExpirationSecond, hempty, hstrip, hiso, hrange] using ht
              · simp [expirationIsDue, normalizeExpirationSecond, hempty, hstrip, hiso, hrange] at ht
            have hiso' := hE.iso_text second hsecond
            have hstrip' := hE.iso_stripped _ _ hiso'
            by_cases hempty' : (E.isoText second).isEmpty = true
            · simp [expirationIsDue, hempty']
            · have hbound : micros - offset ≤ second * 1000000 := by
                simpa [expirationIsWithin, parseApiKeyExpiration, hempty, hempty', hiso,
                  hiso'] using h
              have hwritten : second * 1000000 / 1000000 = second := by omega
              simp [expirationIsDue, normalizeExpirationSecond, hempty', hstrip', hiso', hwritten, hsecond]
              omega

theorem patterns_of_within {principal target : List Text} {mailboxAddress : Text}
    (h : patternsAreWithin principal target = true)
    (ht : target = [] ∨ ∃ pattern ∈ target, fnmatchcase mailboxAddress pattern = true) :
    principal = [] ∨ ∃ pattern ∈ principal, fnmatchcase mailboxAddress pattern = true := by
  simp only [patternsAreWithin, Bool.or_eq_true, List.isEmpty_iff, Bool.and_eq_true,
    Bool.not_eq_true', List.isEmpty_eq_false_iff, List.all_eq_true] at h
  rcases h with hany | ⟨hsome, hall⟩
  · exact .inl hany
  · obtain ⟨pattern, hmem, hmatch⟩ := ht.resolve_left hsome
    right
    have hpattern := hall pattern hmem
    simp only [patternIsWithin, Bool.or_eq_true, decide_eq_true_eq, Bool.and_eq_true,
      Bool.not_eq_true', Bool.or_eq_false_iff, List.any_eq_true] at hpattern
    rcases hpattern with hsame | ⟨⟨hstar, hmark⟩, parent, hparent, hfits⟩
    · exact ⟨pattern, hsame, hmatch⟩
    · -- a literal is matched by itself only, and it matches the parent
      have hliteral : mailboxAddress = pattern := by
        rw [fnmatchcase, Glob.accepts_literal (by simpa using hstar) (by simpa using hmark)] at hmatch
        exact of_decide_eq_true hmatch
      rw [hliteral]
      exact ⟨parent, hparent, hfits⟩

theorem domains_of_within {principal : PermissionContext} {target : KeyPolicy} {domainId : Nat}
    (h : domainsAreWithin principal target = true)
    (ht : target.domainGrantMode = .all ∨
      target.domainGrantMode = .selected ∧ domainId ∈ target.domainIds) :
    principal.domainGrantMode = .all ∨
      principal.domainGrantMode = .selected ∧ domainId ∈ principal.domainIds := by
  unfold domainsAreWithin allowedDomains at h
  rcases ht with hall | ⟨hselected, hid⟩
  · rw [hall] at h
    cases hmode : principal.domainGrantMode <;> simp [hmode] at h ⊢
  · rw [hselected] at h
    cases hmode : principal.domainGrantMode with
    | all => exact .inl rfl
    | selected =>
      simp only [hmode, List.all_eq_true, decide_eq_true_eq] at h
      exact .inr ⟨rfl, h domainId hid⟩
    | none =>
      simp only [hmode, List.all_eq_true, decide_eq_true_eq] at h
      exact absurd (h domainId hid) (by simp)
    | invalid =>
      simp only [hmode, List.all_eq_true, decide_eq_true_eq] at h
      exact absurd (h domainId hid) (by simp)

/-- A key whose policy is within a caller's is authorized for nothing that the caller is not. -/
theorem delegation_sound (hE : E.Lawful) {principal : PermissionContext} {target : KeyPolicy}
    (hprincipal : AdmittedPolicy E principal.mailboxPatterns principal.expiresAt)
    (_htarget : AdmittedPolicy E target.mailboxPatterns target.expiresAt)
    (h : apiKeyIsWithinPrincipal E principal target = true) (apiKeyId : Nat) (r : AccessRequest)
    (hr : (target.context apiKeyId).Authorizes E r) : principal.Authorizes E r := by
  simp only [apiKeyIsWithinPrincipal, delegatedApiKeyPolicyIsWithinPrincipal, Bool.and_eq_true,
    List.all_eq_true, decide_eq_true_eq] at h
  obtain ⟨⟨⟨⟨⟨⟨⟨-, hnetworks⟩, hexpiry⟩, hheader⟩, hquery⟩, hscopes⟩, hdomains⟩, hpatterns⟩ := h
  obtain ⟨hauth, haccess⟩ := hr
  obtain ⟨htransport, htransport', hdue, hip⟩ := authenticates_iff.mp (hauth [])
  obtain ⟨hscope, hgrant⟩ := ensureMailboxAccess_ok_iff.mp haccess
  obtain ⟨hdomain, hpattern⟩ := hgrant.resolve_left nofun
  constructor
  · intro secretHash
    refine authenticates_iff.mpr ⟨?_, ?_, ?_, ?_⟩
    · intro htr
      have hallow : target.allowHeader = true := htransport htr
      simpa [hallow] using hheader
    · intro htr
      have hallow : target.allowQuery = true := htransport' htr
      simpa [hallow] using hquery
    · exact expiration_of_within hE hexpiry hprincipal.expiry hdue
    · intro hsome
      exact requestIpAllowed_of_within hnetworks (hip hsome)
  · refine ensureMailboxAccess_ok_iff.mpr ⟨?_, .inr ⟨?_, ?_⟩⟩
    · exact effectiveScopes_subset hscopes r.scope hscope
    · exact domains_of_within hdomains hdomain
    · exact patterns_of_within hpatterns hpattern

end Dimensions

/-! ## A sample of the standard library -/

/-- The parsers on a few texts.  A second other than the first of 2030 is written in strokes, which
    keeps writing and reading inverse on every second. -/
def StdText.sample : StdText where
  ipNetwork text :=
    if text = "10.0.0.0/8".toList then some ⟨.v4, 10 * 2 ^ 24, 24, ⟨10, rfl⟩⟩
    else if text = "10.1.0.0/16".toList then some ⟨.v4, 2561 * 2 ^ 16, 16, ⟨2561, rfl⟩⟩
    else none
  withPrefixlen network := if network.range.hostBits = 24 then "10.0.0.0/8".toList
    else "10.1.0.0/16".toList
  ipAddress text := if text = "10.1.2.3".toList then some ⟨.v4, 10 * 2 ^ 24 + 2 ^ 16 + 515⟩ else none
  isoDateTime text :=
    if text = "2030-01-01T00:00:00Z".toList then some ⟨1893456000 * 1000000, some 0⟩
    else
      match text with
      | 'P' :: strokes =>
        if strokes.all (· = 'I') then some ⟨strokes.length * 1000000, some 0⟩ else none
      | 'M' :: strokes =>
        if strokes.all (· = 'I') then some ⟨-(strokes.length * 1000000 : Int), some 0⟩ else none
      | _ => none
  isoText second :=
    if second = 1893456000 then "2030-01-01T00:00:00Z".toList
    else if 0 ≤ second then 'P' :: List.replicate second.toNat 'I'
    else 'M' :: List.replicate (-second).toNat 'I'

theorem StdText.sample_lawful : StdText.sample.Lawful := by
  refine ⟨?_, ?_, ?_⟩
  · intro text time h
    apply stripUnicodeWhitespace_eq_self
    simp only [StdText.sample] at h
    split at h
    · rename_i heq
      have hall : "2030-01-01T00:00:00Z".toList.all (fun c => isPythonWhitespace c = false) = true := by
        decide
      intro c hc
      rw [heq] at hc
      exact of_decide_eq_true (List.all_eq_true.mp hall c hc)
    · have hstrokes {sign : Char} {strokes : Text} (hsign : isPythonWhitespace sign = false)
          (hall : strokes.all (· = 'I') = true) :
          ∀ c ∈ sign :: strokes, isPythonWhitespace c = false := by
        intro c hc
        rcases List.mem_cons.mp hc with rfl | hc
        · exact hsign
        · rw [of_decide_eq_true (List.all_eq_true.mp hall c hc)]
          decide
      split at h
      · split at h
        · exact hstrokes (by decide) ‹_›
        · cases h
      · split at h
        · exact hstrokes (by decide) ‹_›
        · cases h
      · cases h
  · intro second _
    simp only [StdText.sample]
    by_cases hfirst : second = 1893456000
    · simp [hfirst]
    · by_cases hsign : 0 ≤ second
      · have hlength : (second.toNat : Int) = second := Int.toNat_of_nonneg hsign
        simp [hfirst, hsign, hlength]
      · have hlength : ((-second).toNat : Int) = -second := Int.toNat_of_nonneg (by omega)
        have hneg : -(-second * 1000000) = second * 1000000 := by omega
        simp [hfirst, hsign, hlength, hneg]
  · intro network
    simp only [StdText.sample]
    split
    · decide
    · decide

/-- A caller with some networks, patterns, domains and an expiry. -/
def samplePrincipal : PermissionContext :=
  { roleContext .superadmin none none with
    scopes := ["api_keys.write".toList, "messages.write".toList]
    domainIds := [1, 2]
    mailboxPatterns := ["*@b.example".toList]
    domainGrantMode := .selected
    allowedIpCidrs := ["10.0.0.0/8".toList]
    expiresAt := some "2030-01-01T00:00:00Z".toList
    allowQuery := false }

/-- A key that may read one mailbox. -/
def sampleTarget : KeyPolicy :=
  { scopes := ["messages.read".toList]
    domainIds := [1]
    mailboxPatterns := ["a@b.example".toList]
    domainGrantMode := .selected
    rateLimitPerMin := 60
    allowedIpCidrs := ["10.1.0.0/16".toList]
    expiresAt := some "2030-01-01T00:00:00Z".toList
    allowHeader := true
    allowQuery := false }

/-- The sample key reads its mailbox, and so may the sample caller. -/
theorem delegation_sound_sample :
    apiKeyIsWithinPrincipal .sample samplePrincipal sampleTarget = true ∧
    samplePrincipal.Authorizes .sample
      ⟨"messages.read".toList, 1, "a@b.example".toList, some "10.1.2.3".toList, .header, 0⟩ := by
  have hexpiry (text : Text) (h : some "2030-01-01T00:00:00Z".toList = some text) :
      ∃ second, IsDatetimeSecond second ∧ text = StdText.sample.isoText second :=
    ⟨1893456000, by decide, (Option.some.inj h).symm⟩
  have hwithin : apiKeyIsWithinPrincipal .sample samplePrincipal sampleTarget = true := by
    decide +kernel
  refine ⟨hwithin, delegation_sound StdText.sample_lawful ⟨by decide, hexpiry⟩ ⟨by decide, hexpiry⟩
    hwithin 7 _ ⟨fun secretHash => ?_, by decide +kernel⟩⟩
  exact authenticates_iff.mpr (by decide +kernel)

end RapidInbox
