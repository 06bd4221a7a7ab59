import RapidInbox.Auth.Delegation
import RapidInbox.Lib.Result

/-!
# Key management stays within the caller

The five operations that change keys reload the caller in their transaction.  When one commits, the
key it is about was within the reloaded caller before, if it existed, and is within it after; when one
raises, the tables are as they were.
-/

namespace RapidInbox

open Table

/-! ## The check looks at sets -/

/-- Policies with the same bounds and the same members. -/
structure KeyPolicy.SameSets (t u : KeyPolicy) : Prop where
  scopes : ∀ x, x ∈ t.scopes ↔ x ∈ u.scopes
  domainIds : ∀ x, x ∈ t.domainIds ↔ x ∈ u.domainIds
  mailboxPatterns : ∀ x, x ∈ t.mailboxPatterns ↔ x ∈ u.mailboxPatterns
  domainGrantMode : t.domainGrantMode = u.domainGrantMode
  rateLimitPerMin : t.rateLimitPerMin = u.rateLimitPerMin
  allowedIpCidrs : t.allowedIpCidrs = u.allowedIpCidrs
  expiresAt : t.expiresAt = u.expiresAt
  allowHeader : t.allowHeader = u.allowHeader
  allowQuery : t.allowQuery = u.allowQuery

theorem all_congr_mem {α : Type} {l l' : List α} (h : ∀ x, x ∈ l ↔ x ∈ l') (p : α → Bool) :
    l.all p = l'.all p := by
  rw [Bool.eq_iff_iff, List.all_eq_true, List.all_eq_true]
  exact ⟨fun hall x hx => hall x ((h x).mpr hx), fun hall x hx => hall x ((h x).mp hx)⟩

theorem isEmpty_congr_mem {α : Type} {l l' : List α} (h : ∀ x, x ∈ l ↔ x ∈ l') :
    l.isEmpty = l'.isEmpty := by
  rw [Bool.eq_iff_iff, List.isEmpty_iff, List.isEmpty_iff, List.eq_nil_iff_forall_not_mem,
    List.eq_nil_iff_forall_not_mem]
  exact ⟨fun hnil x hx => hnil x ((h x).mpr hx), fun hnil x hx => hnil x ((h x).mp hx)⟩

theorem KeyPolicy.SameSets.domainsAreWithin_eq {t u : KeyPolicy} (h : t.SameSets u)
    (principal : PermissionContext) : domainsAreWithin principal t = domainsAreWithin principal u := by
  unfold domainsAreWithin
  rw [h.domainGrantMode]
  cases u.domainGrantMode with
  | selected =>
    cases allowedDomains principal with
    | none => rfl
    | some allowed => exact all_congr_mem h.domainIds _
  | none => rfl
  | all => rfl
  | invalid => rfl

theorem KeyPolicy.SameSets.within_eq {t u : KeyPolicy} (h : t.SameSets u) (E : StdText)
    (principal : PermissionContext) :
    apiKeyIsWithinPrincipal E principal t = apiKeyIsWithinPrincipal E principal u := by
  unfold apiKeyIsWithinPrincipal delegatedApiKeyPolicyIsWithinPrincipal patternsAreWithin
  rw [h.rateLimitPerMin, h.allowedIpCidrs, h.expiresAt, h.allowHeader, h.allowQuery,
    h.domainsAreWithin_eq, all_congr_mem h.scopes, all_congr_mem h.mailboxPatterns,
    isEmpty_congr_mem h.mailboxPatterns]

/-! ## The caller and the key before -/

section Calls

variable {E : StdText} {db db' : AuthDb} {now : Timestamp} {p : PermissionContext} {apiKeyId : Nat}

theorem transactionManagementPrincipal_ok {principal : Option PermissionContext}
    (h : transactionManagementPrincipal E db now (some p) = .ok principal) :
    ∃ current, principal = some current := by
  unfold transactionManagementPrincipal transactionAuthorizationPrincipal at h
  dsimp only at h
  split at h
  · cases h
    exact ⟨p, rfl⟩
  · split at h
    · cases h
    · rename_i current _
      cases hauth : authorizePrincipal current "api_keys.write".toList true none with
      | error e =>
        rw [hauth] at h
        cases h
      | ok current' =>
        rw [hauth] at h
        cases h
        exact ⟨current', rfl⟩

theorem assertKeyWithinPrincipal_ok {current : PermissionContext} {policy : KeyPolicy}
    (h : assertKeyWithinPrincipal E (some current) policy = .ok ()) :
    apiKeyIsWithinPrincipal E current policy = true := by
  unfold assertKeyWithinPrincipal at h
  dsimp only at h
  split at h
  · assumption
  · cases h

theorem authorizeKey_ok {principal : Option PermissionContext} {row : ApiKeyRow}
    (h : authorizeKey E now (some p) apiKeyId db = .ok (principal, row)) :
    ∃ current policy, principal = some current ∧
      transactionManagementPrincipal E db now (some p) = .ok (some current) ∧
      db.loadKey apiKeyId = some (row, policy) ∧
      apiKeyIsWithinPrincipal E current policy = true := by
  unfold authorizeKey at h
  obtain ⟨principal', hreload, h⟩ := Except.bind_ok_iff.mp h
  obtain ⟨current, rfl⟩ := transactionManagementPrincipal_ok hreload
  cases hload : db.loadKey apiKeyId with
  | none => simp [hload] at h
  | some loaded =>
    obtain ⟨row', policy⟩ := loaded
    rw [hload] at h
    obtain ⟨⟨⟩, hwithin, h⟩ := Except.bind_ok_iff.mp h
    cases h
    exact ⟨current, policy, rfl, hreload, rfl, assertKeyWithinPrincipal_ok hwithin⟩

/-! ## What the statements leave of the keys -/

/-- Every other key is loaded as before. -/
def AuthDb.OthersKept (apiKeyId : Nat) (db db' : AuthDb) : Prop :=
  ∀ other, other ≠ apiKeyId → db'.loadKey other = db.loadKey other

theorem AuthDb.OthersKept.trans {db'' : AuthDb} (h : AuthDb.OthersKept apiKeyId db db')
    (h' : AuthDb.OthersKept apiKeyId db' db'') : AuthDb.OthersKept apiKeyId db db'' :=
  fun other hne => (h' other hne).trans (h other hne)

/-- A key is loaded from its row and its own rows in the three tables. -/
theorem AuthDb.loadKey_congr {id : Nat} (hrow : db'.apiKey? id = db.apiKey? id)
    (hscopes : ownedBy id db'.apiKeyScopes = ownedBy id db.apiKeyScopes)
    (hdomains : ownedBy id db'.apiKeyDomainGrants = ownedBy id db.apiKeyDomainGrants)
    (hmailboxes : ownedBy id db'.apiKeyMailboxGrants = ownedBy id db.apiKeyMailboxGrants) :
    db'.loadKey id = db.loadKey id := by
  unfold AuthDb.loadKey
  rw [hrow, hscopes, hdomains, hmailboxes]

theorem AuthDb.apiKey?_updateApiKey_ne {f : ApiKeyRow → ApiKeyRow} (hf : ∀ row, (f row).id = row.id)
    {other : Nat} (hne : other ≠ apiKeyId) :
    (db.updateApiKey apiKeyId f).apiKey? other = db.apiKey? other := by
  unfold AuthDb.updateApiKey AuthDb.apiKey?
  dsimp only
  induction db.apiKeys with
  | nil => rfl
  | cons row rows ih =>
    by_cases hid : row.id = apiKeyId
    · have hother : ¬ row.id = other := fun heq => hne (heq.symm.trans hid)
      have hother' : ¬ (f row).id = other := by rwa [hf]
      simpa [updateWhere, hid, hother, hother', hf, Ne.symm hne] using ih
    · by_cases hsame : row.id = other
      · simp [updateWhere, hsame, hne]
      · simpa [updateWhere, hid, hsame] using ih

theorem AuthDb.updateApiKey_othersKept {f : ApiKeyRow → ApiKeyRow} (hf : ∀ row, (f row).id = row.id) :
    AuthDb.OthersKept apiKeyId db (db.updateApiKey apiKeyId f) := by
  intro other hne
  exact AuthDb.loadKey_congr (AuthDb.apiKey?_updateApiKey_ne hf hne) rfl rfl rfl

/-- An update of a key's row that leaves its id and its bounds alone. -/
structure KeepsBounds (f : ApiKeyRow → ApiKeyRow) : Prop where
  id : ∀ row, (f row).id = row.id
  domainGrantMode : ∀ row, (f row).domainGrantMode = row.domainGrantMode
  rateLimitPerMin : ∀ row, (f row).rateLimitPerMin = row.rateLimitPerMin
  allowedIpCidrs : ∀ row, (f row).allowedIpCidrs = row.allowedIpCidrs
  expiresAt : ∀ row, (f row).expiresAt = row.expiresAt
  allowHeader : ∀ row, (f row).allowHeader = row.allowHeader
  allowQuery : ∀ row, (f row).allowQuery = row.allowQuery

/-- Such an update leaves the policy of the key alone. -/
theorem AuthDb.loadKey_updateApiKey {f : ApiKeyRow → ApiKeyRow} (hf : KeepsBounds f)
    {row : ApiKeyRow} {policy : KeyPolicy} (h : db.loadKey apiKeyId = some (row, policy)) :
    (db.updateApiKey apiKeyId f).loadKey apiKeyId = some (f row, policy) := by
  unfold AuthDb.loadKey at h ⊢
  have hfind : (db.updateApiKey apiKeyId f).apiKey? apiKeyId = (db.apiKey? apiKeyId).map f :=
    find?_updateWhere hf.id db.apiKeys apiKeyId
  rw [hfind]
  cases hrow : db.apiKey? apiKeyId with
  | none => simp [hrow] at h
  | some row' =>
    rw [hrow] at h
    simp only [Option.map_some, Option.some.injEq, Prod.mk.injEq] at h
    obtain ⟨rfl, rfl⟩ := h
    simp only [Option.map_some, hf.domainGrantMode, hf.rateLimitPerMin, hf.allowedIpCidrs,
      hf.expiresAt, hf.allowHeader, hf.allowQuery]
    rfl

theorem ownedBy_filter_ne {β : Type} {other : Nat} (hne : other ≠ apiKeyId) (rows : List (Nat × β)) :
    ownedBy other (rows.filter fun row => row.1 ≠ apiKeyId) = ownedBy other rows := by
  unfold ownedBy
  rw [List.filterMap_filter]
  apply List.filterMap_congr
  intro row _
  by_cases hrow : row.1 = other
  · simp [hrow, hne]
  · simp [hrow]

theorem ownedBy_append_ne {β : Type} {other : Nat} (hne : other ≠ apiKeyId) (rows : List (Nat × β))
    (values : List β) :
    ownedBy other (rows ++ values.map fun value => (apiKeyId, value)) = ownedBy other rows := by
  unfold ownedBy
  rw [List.filterMap_append, List.filterMap_map]
  simp [Ne.symm hne]

theorem AuthDb.replaceScopes_othersKept {scopes : Option (List Text)}
    (h : db.replaceScopes apiKeyId scopes = .ok db') : AuthDb.OthersKept apiKeyId db db' := by
  intro other hne
  cases scopes with
  | none =>
    cases h
    rfl
  | some scopes =>
    obtain ⟨rows, hrows, rfl⟩ := Except.map_ok_iff.mp h
    refine AuthDb.loadKey_congr rfl ?_ rfl rfl
    rw [insertOwned_ok hrows]
    exact (ownedBy_append_ne hne _ _).trans (ownedBy_filter_ne hne _)

theorem AuthDb.replaceDomainGrants_othersKept {mode : Option DomainGrantMode}
    {domainIds : Option (List Nat)} (h : db.replaceDomainGrants apiKeyId mode domainIds = .ok db') :
    AuthDb.OthersKept apiKeyId db db' := by
  intro other hne
  unfold AuthDb.replaceDomainGrants at h
  split at h
  · obtain ⟨rows, hrows, rfl⟩ := Except.map_ok_iff.mp h
    refine AuthDb.loadKey_congr rfl rfl ?_ rfl
    rw [insertOwned_ok hrows]
    exact (ownedBy_append_ne hne _ _).trans (ownedBy_filter_ne hne _)
  · cases h
    rfl

theorem AuthDb.replaceMailboxGrants_othersKept {patterns : Option (List Text)}
    (h : db.replaceMailboxGrants apiKeyId patterns = .ok db') :
    AuthDb.OthersKept apiKeyId db db' := by
  intro other hne
  cases patterns with
  | none =>
    cases h
    rfl
  | some patterns =>
    obtain ⟨rows, hrows, rfl⟩ := Except.map_ok_iff.mp h
    refine AuthDb.loadKey_congr rfl rfl rfl ?_
    rw [insertOwned_ok hrows]
    exact (ownedBy_append_ne hne _ _).trans (ownedBy_filter_ne hne _)

theorem AuthDb.deleteApiKey_othersKept : AuthDb.OthersKept apiKeyId db (db.deleteApiKey apiKeyId) := by
  intro other hne
  exact AuthDb.loadKey_congr (find?_filter_ne hne db.apiKeys) (ownedBy_filter_ne hne _)
    (ownedBy_filter_ne hne _) (ownedBy_filter_ne hne _)

theorem AuthDb.loadKey_deleteApiKey : (db.deleteApiKey apiKeyId).loadKey apiKeyId = none := by
  have hgone : (db.deleteApiKey apiKeyId).apiKey? apiKeyId = none := by
    refine find?_key_none.mpr ?_
    intro row hrow
    simpa using (List.mem_filter.mp hrow).2
  rw [AuthDb.loadKey, hgone]
  rfl

/-! ## The operations -/

/-- A call that commits for a caller `current`: the key it is about is within the caller before, if it
    was there, and after, if it is there, and the other keys are as they were. -/
structure KeptWithin (E : StdText) (current : PermissionContext) (apiKeyId : Nat) (db db' : AuthDb) :
    Prop where
  before : ∀ row policy, db.loadKey apiKeyId = some (row, policy) →
    apiKeyIsWithinPrincipal E current policy = true
  after : ∀ row policy, db'.loadKey apiKeyId = some (row, policy) →
    apiKeyIsWithinPrincipal E current policy = true
  affected : (db.loadKey apiKeyId).isSome = true ∨ (db'.loadKey apiKeyId).isSome = true
  others : AuthDb.OthersKept apiKeyId db db'

/-- A key that was within the caller, and what became of it. -/
theorem KeptWithin.of_authorized {current : PermissionContext} {row : ApiKeyRow} {policy : KeyPolicy}
    (hload : db.loadKey apiKeyId = some (row, policy))
    (hwithin : apiKeyIsWithinPrincipal E current policy = true)
    (hafter : ∀ row policy, db'.loadKey apiKeyId = some (row, policy) →
      apiKeyIsWithinPrincipal E current policy = true)
    (hothers : AuthDb.OthersKept apiKeyId db db') : KeptWithin E current apiKeyId db db' := by
  refine ⟨?_, hafter, .inl (by rw [hload]; rfl), hothers⟩
  intro row' policy' hload'
  rw [hload] at hload'
  cases hload'
  exact hwithin

/-- An update that leaves the policy of the key alone. -/
theorem KeptWithin.of_update {current : PermissionContext} {f : ApiKeyRow → ApiKeyRow}
    (hf : KeepsBounds f) {row : ApiKeyRow} {policy : KeyPolicy}
    (hload : db.loadKey apiKeyId = some (row, policy))
    (hwithin : apiKeyIsWithinPrincipal E current policy = true) :
    KeptWithin E current apiKeyId db (db.updateApiKey apiKeyId f) := by
  refine .of_authorized hload hwithin ?_ (AuthDb.updateApiKey_othersKept hf.id)
  intro row' policy' hload'
  rw [AuthDb.loadKey_updateApiKey hf hload] at hload'
  cases hload'
  exact hwithin

theorem AuthDb.writeKey_othersKept {changes : KeyChanges} {scopes : Option (List Text)}
    (h : db.writeKey apiKeyId changes scopes now = .ok db') : AuthDb.OthersKept apiKeyId db db' := by
  obtain ⟨db₁, hscopes, h⟩ := Except.bind_ok_iff.mp h
  obtain ⟨db₂, hdomains, hmailboxes⟩ := Except.bind_ok_iff.mp h
  have hrow : AuthDb.OthersKept apiKeyId db (db.updateApiKey apiKeyId (changes.apply now)) :=
    AuthDb.updateApiKey_othersKept fun _ => rfl
  exact ((hrow.trans (AuthDb.replaceScopes_othersKept hscopes)).trans
    (AuthDb.replaceDomainGrants_othersKept hdomains)).trans
    (AuthDb.replaceMailboxGrants_othersKept hmailboxes)

theorem updateKeyOperation_kept {changes : KeyChanges} {row : ApiKeyRow}
    (h : updateKeyOperation E now (some p) apiKeyId changes db = .ok (row, db')) :
    ∃ current, transactionManagementPrincipal E db now (some p) = .ok (some current) ∧
      KeptWithin E current apiKeyId db db' := by
  obtain ⟨⟨principal, target⟩, hauth, h⟩ := Except.bind_ok_iff.mp h
  obtain ⟨current, policy, rfl, hreload, hload, hwithin⟩ := authorizeKey_ok hauth
  obtain ⟨scopes, -, h⟩ := Except.bind_ok_iff.mp h
  obtain ⟨db₁, hwrite, h⟩ := Except.bind_ok_iff.mp h
  have hothers := AuthDb.writeKey_othersKept hwrite
  cases hafter : db₁.loadKey apiKeyId with
  | none => simp [hafter] at h
  | some loaded =>
    obtain ⟨row', policy'⟩ := loaded
    rw [hafter] at h
    obtain ⟨⟨⟩, hwithin', h⟩ := Except.bind_ok_iff.mp h
    cases h
    refine ⟨current, hreload, .of_authorized hload hwithin ?_ hothers⟩
    intro row'' policy'' hload''
    rw [hafter] at hload''
    cases hload''
    exact assertKeyWithinPrincipal_ok hwithin'

theorem deleteKeyOperation_kept {row : ApiKeyRow}
    (h : deleteKeyOperation E now (some p) apiKeyId db = .ok (row, db')) :
    ∃ current, transactionManagementPrincipal E db now (some p) = .ok (some current) ∧
      KeptWithin E current apiKeyId db db' := by
  obtain ⟨⟨principal, target⟩, hauth, h⟩ := Except.bind_ok_iff.mp h
  obtain ⟨current, policy, rfl, hreload, hload, hwithin⟩ := authorizeKey_ok hauth
  dsimp only at h
  split at h
  · cases h
  · cases h
    refine ⟨current, hreload, .of_authorized hload hwithin ?_ AuthDb.deleteApiKey_othersKept⟩
    intro row' policy' hload'
    rw [AuthDb.loadKey_deleteApiKey] at hload'
    cases hload'

theorem revokeKeyOperation_kept {row : ApiKeyRow} {revokedAt : Timestamp}
    (h : revokeKeyOperation E now revokedAt (some p) apiKeyId db = .ok (row, db')) :
    ∃ current, transactionManagementPrincipal E db now (some p) = .ok (some current) ∧
      KeptWithin E current apiKeyId db db' := by
  obtain ⟨⟨principal, target⟩, hauth, h⟩ := Except.bind_ok_iff.mp h
  obtain ⟨current, policy, rfl, hreload, hload, hwithin⟩ := authorizeKey_ok hauth
  cases h
  refine ⟨current, hreload, .of_update ?_ hload hwithin⟩
  constructor <;> exact fun _ => rfl

theorem rotateKeyOperation_kept {row : ApiKeyRow} {keyPrefix secretHash : Text}
    (h : rotateKeyOperation E now (some p) apiKeyId keyPrefix secretHash db = .ok (row, db')) :
    ∃ current, transactionManagementPrincipal E db now (some p) = .ok (some current) ∧
      KeptWithin E current apiKeyId db db' := by
  obtain ⟨⟨principal, target⟩, hauth, h⟩ := Except.bind_ok_iff.mp h
  obtain ⟨current, policy, rfl, hreload, hload, hwithin⟩ := authorizeKey_ok hauth
  dsimp only at h
  split at h
  · cases h
  · obtain ⟨due, -, h⟩ := Except.bind_ok_iff.mp h
    split at h
    · cases h
    · split at h
      · cases h
      · split at h
        · cases h
        · cases h
          refine ⟨current, hreload, .of_update ?_ hload hwithin⟩
          constructor <;> exact fun _ => rfl

/-! ## A new key -/

theorem collectUnique_all {α β : Type} [DecidableEq β] {normalize : α → Except AuthError β}
    {P : β → Prop} (hP : ∀ value normalized, normalize value = .ok normalized → P normalized)
    {values : List α} {seen result : List β} (hseen : ∀ x ∈ seen, P x)
    (h : collectUnique normalize values seen = .ok result) : ∀ x ∈ result, P x := by
  induction values generalizing seen with
  | nil =>
    cases h
    exact hseen
  | cons value values ih =>
    rw [collectUnique] at h
    cases hvalue : normalize value with
    | error e => simp [hvalue] at h
    | ok normalized =>
      simp only [hvalue] at h
      split at h
      · exact ih hseen h
      · refine ih ?_ h
        intro x hx
        rcases List.mem_append.mp hx with hx | hx
        · exact hseen x hx
        · rw [List.mem_singleton.mp hx]
          exact hP value normalized hvalue

/-- The networks a key is written with are not blank. -/
theorem normalizeIpCidrs_nonblank (hE : E.Lawful) {values cidrs : List Text}
    (h : normalizeIpCidrs E values = .ok cidrs) :
    ∀ cidr ∈ cidrs, stripUnicodeWhitespace cidr ≠ [] := by
  unfold normalizeIpCidrs at h
  split at h
  · cases h
  · refine collectUnique_all ?_ (by simp) h
    intro value normalized hvalue
    split at hvalue
    · cases hvalue
    · cases hvalue
      exact hE.prefixlen_text _

/-- Networks that are not blank are read as they are written. -/
theorem decode_encode_allowedIpCidrs {cidrs : List Text}
    (h : ∀ cidr ∈ cidrs, stripUnicodeWhitespace cidr ≠ []) :
    decodeAllowedIpCidrs (encodeAllowedIpCidrs cidrs) = cidrs := by
  unfold encodeAllowedIpCidrs
  split
  · rename_i hempty
    rw [List.isEmpty_iff.mp hempty]
    rfl
  · refine List.filter_eq_self.mpr ?_
    intro cidr hcidr
    simpa using h cidr hcidr

theorem normalizeMailboxPatterns_brackets {values patterns : List Text}
    (h : normalizeMailboxPatterns values = .ok patterns) :
    ∀ pattern ∈ patterns, '[' ∉ pattern ∧ ']' ∉ pattern := by
  unfold normalizeMailboxPatterns at h
  split at h
  · cases h
  · refine collectUnique_all ?_ (by simp) h
    intro value pattern hvalue
    unfold normalizeMailboxPattern at hvalue
    dsimp only at hvalue
    split at hvalue
    · cases hvalue
    · split at hvalue
      · cases hvalue
      · rename_i hbrackets
        split at hvalue
        · cases hvalue
        · cases hvalue
          simp only [Bool.or_eq_true, List.contains_iff_mem, not_or] at hbrackets
          exact ⟨hbrackets.1.2, hbrackets.2⟩

theorem normalizeExpirationSecond_ok {value : Text} {second : Int}
    (h : normalizeExpirationSecond E value = .ok (some second)) : IsDatetimeSecond second := by
  unfold normalizeExpirationSecond at h
  dsimp only at h
  split at h
  · cases h
  · split at h
    · cases h
    · cases h
    · split at h
      · cases h
        assumption
      · cases h

theorem normalizeExpiration_text {value expiresAt : Option Text}
    (h : normalizeExpiration E value = .ok expiresAt) :
    ∀ text, expiresAt = some text → ∃ second, IsDatetimeSecond second ∧ text = E.isoText second := by
  unfold normalizeExpiration at h
  cases value with
  | none =>
    cases h
    exact nofun
  | some text =>
    obtain ⟨second, hsecond, rfl⟩ := Except.map_ok_iff.mp h
    intro text' htext
    obtain ⟨s, rfl, rfl⟩ := Option.map_eq_some_iff.mp htext
    exact ⟨s, normalizeExpirationSecond_ok hsecond, rfl⟩

/-- What `create_key` writes is admitted, and its networks are not blank. -/
theorem CreateKeyArgs.normalize_admitted (hE : E.Lawful) {args : CreateKeyArgs} {key : NewKey}
    (h : args.normalize E = .ok key) :
    AdmittedPolicy E key.policy.mailboxPatterns key.policy.expiresAt ∧
      ∀ cidr ∈ key.policy.allowedIpCidrs, stripUnicodeWhitespace cidr ≠ [] := by
  obtain ⟨name, -, h⟩ := Except.bind_ok_iff.mp h
  obtain ⟨scopes, -, h⟩ := Except.bind_ok_iff.mp h
  obtain ⟨domainIds, -, h⟩ := Except.bind_ok_iff.mp h
  obtain ⟨mode, -, h⟩ := Except.bind_ok_iff.mp h
  obtain ⟨⟨⟩, -, h⟩ := Except.bind_ok_iff.mp h
  obtain ⟨patterns, hpatterns, h⟩ := Except.bind_ok_iff.mp h
  obtain ⟨cidrs, hcidrs, h⟩ := Except.bind_ok_iff.mp h
  obtain ⟨rate, -, h⟩ := Except.bind_ok_iff.mp h
  obtain ⟨expiresAt, hexpires, h⟩ := Except.bind_ok_iff.mp h
  cases h
  exact ⟨⟨normalizeMailboxPatterns_brackets hpatterns, normalizeExpiration_text hexpires⟩,
    normalizeIpCidrs_nonblank hE hcidrs⟩

theorem AuthDb.insertApiKey_ok {row : ApiKeyRow} {id : Nat} (h : db.insertApiKey row = .ok (id, db')) :
    id = db.apiKeySeq + 1 ∧ (∀ k ∈ db.apiKeys, k.keyPrefix ≠ row.keyPrefix) ∧
      db' = { db with
        apiKeys := db.apiKeys ++ [{ row with id := db.apiKeySeq + 1 }]
        apiKeySeq := db.apiKeySeq + 1 } := by
  unfold AuthDb.insertApiKey at h
  split at h
  · cases h
  · split at h
    · cases h
    · split at h
      · cases h
      · rename_i hfree
        split at h
        · cases h
        · cases h
          refine ⟨rfl, ?_, rfl⟩
          intro k hk heq
          exact hfree (List.any_eq_true.mpr ⟨k, hk, decide_eq_true heq⟩)

/-- The tables after a key is written anew. -/
structure AuthDb.KeyAdded (db : AuthDb) (key : NewKey) (db' : AuthDb) : Prop where
  apiKeys : db'.apiKeys = db.apiKeys ++ [{ key.row with id := db.apiKeySeq + 1 }]
  apiKeySeq : db'.apiKeySeq = db.apiKeySeq + 1
  apiKeyScopes : db'.apiKeyScopes =
    db.apiKeyScopes ++ key.policy.scopes.map fun scope => (db.apiKeySeq + 1, scope)
  apiKeyDomainGrants : db'.apiKeyDomainGrants =
    db.apiKeyDomainGrants ++ key.policy.domainIds.map fun id => (db.apiKeySeq + 1, id)
  apiKeyMailboxGrants : db'.apiKeyMailboxGrants =
    db.apiKeyMailboxGrants ++ key.policy.mailboxPatterns.map fun pattern => (db.apiKeySeq + 1, pattern)
  admins : db'.admins = db.admins
  adminSeq : db'.adminSeq = db.adminSeq
  adminSessions : db'.adminSessions = db.adminSessions

theorem createKeyOperation_ok {key : NewKey}
    (h : createKeyOperation E now (some p) key db = .ok (apiKeyId, db')) :
    apiKeyId = db.apiKeySeq + 1 ∧ (∀ k ∈ db.apiKeys, k.keyPrefix ≠ key.keyPrefix) ∧
      db.KeyAdded key db' ∧
      ∃ current, transactionManagementPrincipal E db now (some p) = .ok (some current) ∧
        apiKeyIsWithinPrincipal E current key.policy = true := by
  obtain ⟨principal, hreload, h⟩ := Except.bind_ok_iff.mp h
  obtain ⟨current, rfl⟩ := transactionManagementPrincipal_ok hreload
  obtain ⟨⟨⟩, hwithin, h⟩ := Except.bind_ok_iff.mp h
  obtain ⟨⟨id, db₁⟩, hinsert, h⟩ := Except.bind_ok_iff.mp h
  obtain ⟨db₂, hscopes, h⟩ := Except.bind_ok_iff.mp h
  obtain ⟨db₃, hdomains, h⟩ := Except.bind_ok_iff.mp h
  obtain ⟨db₄, hmailboxes, h⟩ := Except.bind_ok_iff.mp h
  obtain ⟨scopeRows, hscopes, hdb₂⟩ := Except.map_ok_iff.mp hscopes
  obtain ⟨domainRows, hdomains, hdb₃⟩ := Except.map_ok_iff.mp hdomains
  obtain ⟨mailboxRows, hmailboxes, hdb₄⟩ := Except.map_ok_iff.mp hmailboxes
  obtain ⟨hid, hfresh, hdb₁⟩ := AuthDb.insertApiKey_ok hinsert
  have hscopeRows := insertOwned_ok hscopes
  have hdomainRows := insertOwned_ok hdomains
  have hmailboxRows := insertOwned_ok hmailboxes
  cases h
  subst hid hdb₄ hdb₃ hdb₂ hdb₁
  exact ⟨rfl, hfresh, ⟨rfl, rfl, hscopeRows, hdomainRows, hmailboxRows, rfl, rfl, rfl⟩, current,
    hreload, assertKeyWithinPrincipal_ok hwithin⟩

/-- A key that is written anew is loaded with the policy it is written with, and no key had its id
    before. -/
theorem AuthDb.KeyAdded.loadKey (hdb : db.Consistent) {key : NewKey} (h : db.KeyAdded key db')
    (hcidrs : ∀ cidr ∈ key.policy.allowedIpCidrs, stripUnicodeWhitespace cidr ≠ []) :
    db.loadKey (db.apiKeySeq + 1) = none ∧ ∃ row policy,
      db'.loadKey (db.apiKeySeq + 1) = some (row, policy) ∧ policy.SameSets key.policy := by
  have hnone : db.apiKey? (db.apiKeySeq + 1) = none := by
    refine find?_key_none.mpr ?_
    intro k hk heq
    have := hdb.key_seq k hk
    omega
  have hrow : db'.apiKey? (db.apiKeySeq + 1) = some { key.row with id := db.apiKeySeq + 1 } := by
    rw [AuthDb.apiKey?, h.apiKeys, List.find?_append]
    rw [AuthDb.apiKey?] at hnone
    rw [hnone]
    simp
  have howned {β : Type} {rows : List (Nat × β)} (hrows : ∀ r ∈ rows, ∃ k ∈ db.apiKeys, k.id = r.1)
      (values : List β) (value : β) :
      value ∈ ownedBy (db.apiKeySeq + 1)
        (rows ++ values.map fun value => (db.apiKeySeq + 1, value)) ↔ value ∈ values := by
    rw [mem_ownedBy, List.mem_append]
    constructor
    · rintro (hold | hnew)
      · obtain ⟨k, hk, hid⟩ := hrows _ hold
        have := hdb.key_seq k hk
        omega
      · simpa using hnew
    · intro hmem
      exact .inr (List.mem_map_of_mem hmem)
  refine ⟨by rw [AuthDb.loadKey, hnone]; rfl, _, _, by rw [AuthDb.loadKey, hrow]; rfl, ?_⟩
  refine ⟨?_, ?_, ?_, rfl, rfl, decode_encode_allowedIpCidrs hcidrs, rfl, rfl, rfl⟩
  · intro scope
    rw [List.mem_insertionSort, h.apiKeyScopes, howned hdb.scope_keys]
  · intro id
    rw [List.mem_insertionSort, h.apiKeyDomainGrants, howned hdb.domain_grant_keys]
  · intro pattern
    rw [List.mem_insertionSort, h.apiKeyMailboxGrants, howned hdb.mailbox_grant_keys]

theorem AuthDb.KeyAdded.othersKept {key : NewKey} (h : db.KeyAdded key db') :
    AuthDb.OthersKept (db.apiKeySeq + 1) db db' := by
  intro other hne
  refine AuthDb.loadKey_congr ?_ ?_ ?_ ?_
  · rw [AuthDb.apiKey?, h.apiKeys, List.find?_append]
    simp [AuthDb.apiKey?, Ne.symm hne]
  · rw [h.apiKeyScopes, ownedBy_append_ne hne]
  · rw [h.apiKeyDomainGrants, ownedBy_append_ne hne]
  · rw [h.apiKeyMailboxGrants, ownedBy_append_ne hne]

theorem createKeyOperation_kept (hdb : db.Consistent) {key : NewKey}
    (hcidrs : ∀ cidr ∈ key.policy.allowedIpCidrs, stripUnicodeWhitespace cidr ≠ [])
    (h : createKeyOperation E now (some p) key db = .ok (apiKeyId, db')) :
    ∃ current, transactionManagementPrincipal E db now (some p) = .ok (some current) ∧
      KeptWithin E current apiKeyId db db' := by
  obtain ⟨rfl, -, hadded, current, hreload, hwithin⟩ := createKeyOperation_ok h
  obtain ⟨hnone, row, policy, hload, hsame⟩ := hadded.loadKey hdb hcidrs
  refine ⟨current, hreload, ?_, ?_, .inr (by rw [hload]; rfl), hadded.othersKept⟩
  · intro row' policy' hload'
    rw [hnone] at hload'
    cases hload'
  · intro row' policy' hload'
    rw [hload] at hload'
    cases hload'
    rw [hsame.within_eq]
    exact hwithin

/-- A call of a key-management operation that commits keeps the key it is about within the caller as
    reloaded in its transaction, before and after, and leaves the other keys alone; a call that raises
    changes nothing. -/
theorem key_calls_within_principal (hE : E.Lawful) (hdb : db.Consistent) (p : PermissionContext)
    (now : Timestamp) (call : KeyCall) :
    (∀ apiKeyId, (db.execute (call.operation E now (some p))).1 = .ok apiKeyId →
      ∃ current, transactionManagementPrincipal E db now (some p) = .ok (some current) ∧
        KeptWithin E current apiKeyId db (db.execute (call.operation E now (some p))).2) ∧
    (∀ e, (db.execute (call.operation E now (some p))).1 = .error e →
      (db.execute (call.operation E now (some p))).2 = db) := by
  unfold AuthDb.execute
  cases hop : call.operation E now (some p) db with
  | error e => exact ⟨nofun, fun _ _ => rfl⟩
  | ok r =>
    obtain ⟨id, db'⟩ := r
    refine ⟨?_, nofun⟩
    rintro apiKeyId ⟨⟩
    cases call with
    | create args =>
      obtain ⟨key, hkey, hop⟩ := Except.bind_ok_iff.mp hop
      exact createKeyOperation_kept hdb (args.normalize_admitted hE hkey).2 hop
    | update target args =>
      obtain ⟨changes, -, hop⟩ := Except.bind_ok_iff.mp hop
      obtain ⟨⟨row, db₁⟩, hupdate, hop⟩ := Except.bind_ok_iff.mp hop
      cases hop
      exact updateKeyOperation_kept hupdate
    | rotate target keyPrefix secretHash =>
      obtain ⟨⟨row, db₁⟩, hrotate, hop⟩ := Except.bind_ok_iff.mp hop
      cases hop
      exact rotateKeyOperation_kept hrotate
    | revoke target revokedAt =>
      obtain ⟨⟨row, db₁⟩, hrevoke, hop⟩ := Except.bind_ok_iff.mp hop
      cases hop
      exact revokeKeyOperation_kept hrevoke
    | delete target =>
      obtain ⟨⟨row, db₁⟩, hdelete, hop⟩ := Except.bind_ok_iff.mp hop
      cases hop
      exact deleteKeyOperation_kept hdelete

end Calls

/-- One administrator with one session. -/
def AuthDb.sampleAdmin : AuthDb :=
  { AuthDb.empty with
    admins := [⟨1, "root".toList, none, "hash".toList, .superadmin, true, false⟩]
    adminSeq := 1
    adminSessions := [⟨"session".toList, 1, "token".toList, 0, 1000, none⟩] }

theorem AuthDb.sampleAdmin_consistent : AuthDb.sampleAdmin.Consistent := by
  constructor <;> simp [AuthDb.sampleAdmin, AuthDb.empty, UniqueKey]

/-- A key that may read one mailbox, as `create_key` takes it. -/
def sampleKeyArgs : CreateKeyArgs :=
  { name := "reader".toList
    kind := .service
    scopes := ["messages.read".toList]
    domainIds := []
    mailboxPatterns := ["a@b.example".toList]
    domainGrantMode := some .all
    ownerAdminId := some 1
    createdByAdminId := some 1
    status := .active
    allowHeader := true
    allowQuery := false
    rateLimitPerMin := 60
    allowedIpCidrs := ["10.1.0.0/16".toList]
    expiresAt := some "2030-01-01T00:00:00Z".toList
    publicId := "key_1".toList
    keyPrefix := "rk_1".toList
    secretHash := "secret".toList }

/-- The administrator makes the key. -/
theorem key_calls_within_principal_create :
    (AuthDb.sampleAdmin.execute ((KeyCall.create sampleKeyArgs).operation .sample 10
      (some (roleContext .superadmin (some 1) (some "session".toList))))).1 = .ok 1 ∧
    ∃ current, KeptWithin .sample current 1 AuthDb.sampleAdmin
      (AuthDb.sampleAdmin.execute ((KeyCall.create sampleKeyArgs).operation .sample 10
        (some (roleContext .superadmin (some 1) (some "session".toList))))).2 := by
  have hok : (AuthDb.sampleAdmin.execute ((KeyCall.create sampleKeyArgs).operation .sample 10
      (some (roleContext .superadmin (some 1) (some "session".toList))))).1 = .ok 1 := by
    decide +kernel
  obtain ⟨current, -, hkept⟩ := (key_calls_within_principal StdText.sample_lawful
    AuthDb.sampleAdmin_consistent _ 10 (.create sampleKeyArgs)).1 1 hok
  exact ⟨hok, current, hkept⟩

end RapidInbox
