import Mathlib.Data.List.Dedup
import RapidInbox.Auth.Delegation
import RapidInbox.Domain.MatcherSources
import RapidInbox.Store.MergeOutcome

/-!
# Lists and point checks

A list selects with the clauses of `_message_filter_sql` and `_mailbox_filter_sql` what a caller may
see; the point checks `ensure_mailbox_access` and `_mailbox_allowed` look at one mailbox.
-/

namespace RapidInbox

/-- `LIKE` and `GLOB` of SQLite: the value, then the pattern. -/
structure SqlMatch where
  like : Bytes → Text → Bool
  glob : Text → Text → Bool

def BracketFree (pattern : Text) : Prop := '[' ∉ pattern ∧ ']' ∉ pattern

/-- `GLOB` gives `*` and `?` their documented meaning. -/
def SqlMatch.GlobDocumented (S : SqlMatch) : Prop :=
  ∀ pattern, BracketFree pattern → ∀ text, S.glob text pattern = Glob.accepts '*' '?' pattern text

/-! ## The filters of the message service (`app/services/messages.py:986-1049`) -/

/-- A clause with its parameters; `m` is the message and `d` the delivery of the joined row. -/
inductive MessageClause where
  /-- `(m.subject LIKE ? OR m.from_addr LIKE ? OR m.envelope_from LIKE ? OR d.rcpt_to LIKE ?)` -/
  | search (pattern : Text)
  /-- `m.parse_status = ?` -/
  | parseStatus (status : ParseStatus)
  /-- `d.mailbox_id = ?` -/
  | mailboxId (id : Nat)
  /-- `0 = 1` -/
  | never
  /-- `EXISTS (… amb.domain_id IN (…))` -/
  | someDomainIn (domainIds : List Nat)
  /-- `NOT EXISTS (… umb.domain_id NOT IN (…))` -/
  | noDomainNotIn (domainIds : List Nat)
  /-- `EXISTS (… (pmb.address_canonical GLOB ? OR …))` -/
  | someAddressGlob (patterns : List Text)
  /-- `NOT EXISTS (… (pmb.address_canonical NOT GLOB ? AND …))` -/
  | noAddressNotGlob (patterns : List Text)
  deriving DecidableEq, Repr

structure MessageFilter where
  query : Option Text
  parseStatus : Option Text
  mailboxId : Option Nat
  allowedDomainIds : Option (List Nat)
  allowedMailboxPatterns : List Text

/-- `f"%{query.strip()}%"` -/
def searchPattern (query : Text) : Text := '%' :: Py.strip query ++ ['%']

def parseStatus? (text : Text) : Except String ParseStatus :=
  if text = "pending".toList then .ok .pending
  else if text = "parsed".toList then .ok .parsed
  else if text = "failed".toList then .ok .failed
  else .error "invalid parse_status"

/-- `if value:`, of a text that may be absent. -/
def truthy (value : Option Text) : Option Text := value.filter fun text => !text.isEmpty

/-- The clauses for `allowed_domain_ids`. -/
def messageDomainClauses : Option (List Nat) → List MessageClause
  | none => []
  | some [] => [.never]
  | some ids => [.someDomainIn ids, .noDomainNotIn ids]

/-- The clauses for `allowed_mailbox_patterns`. -/
def messagePatternClauses (patterns : List Text) : List MessageClause :=
  if patterns.isEmpty then [] else [.someAddressGlob patterns, .noAddressNotGlob patterns]

/-- `_message_filter_sql` -/
def messageFilterSql (f : MessageFilter) : Except String (List MessageClause) := do
  let search := (truthy f.query).toList.map fun query => .search (searchPattern query)
  let status ← match truthy f.parseStatus with
    | none => pure []
    | some text => do pure [.parseStatus (← parseStatus? text)]
  let mailbox := f.mailboxId.toList.map .mailboxId
  pure (search ++ status ++ mailbox ++ messageDomainClauses f.allowedDomainIds ++
    messagePatternClauses f.allowedMailboxPatterns)

/-- `message_deliveries JOIN mailboxes … WHERE message_id = ?` -/
def Db.messageMailboxes (db : Db) (messageId : Text) : List MailboxRow :=
  (db.deliveries.filter fun d => d.messageId = messageId).flatMap fun d =>
    db.mailboxes.filter fun b => b.id = d.mailboxId

/-- `LIKE`, of a column that may be `NULL`. -/
def SqlMatch.likeColumn (S : SqlMatch) (column : Option Bytes) (pattern : Text) : Bool :=
  column.any fun value => S.like value pattern

/-- A clause is true of a row of `messages AS m LEFT JOIN message_deliveries AS d`. -/
def MessageClause.holds (S : SqlMatch) (db : Db) (m : MessageRow) (d : Option DeliveryRow) :
    MessageClause → Bool
  | search pattern =>
    S.likeColumn m.content.subject pattern || S.likeColumn m.content.fromAddr pattern ||
      S.likeColumn (m.envelopeFrom.map Utf8.encode) pattern ||
      S.likeColumn (d.map fun d => Utf8.encode d.rcptTo) pattern
  | parseStatus status => m.content.parseStatus = status
  | mailboxId id => d.any fun d => d.mailboxId = id
  | never => false
  | someDomainIn ids => (db.messageMailboxes m.id).any fun b => b.domainId ∈ ids
  | noDomainNotIn ids => !(db.messageMailboxes m.id).any fun b => b.domainId ∉ ids
  | someAddressGlob patterns =>
    (db.messageMailboxes m.id).any fun b => patterns.any fun p => S.glob b.addressCanonical p
  | noAddressNotGlob patterns =>
    !(db.messageMailboxes m.id).any fun b => patterns.all fun p => !S.glob b.addressCanonical p

/-! ## The filters of the mailbox service (`app/services/mailboxes.py:694-732`) -/

/-- A clause with its parameters; `m` is the mailbox. -/
inductive MailboxClause where
  /-- `(m.address_canonical LIKE ? OR m.address_display LIKE ? OR m.notes LIKE ?)` -/
  | search (pattern : Text)
  /-- `m.domain_id = ?` -/
  | domainId (id : Nat)
  /-- `m.public_enabled = ?` -/
  | publicEnabled (value : Bool)
  /-- `m.is_hidden = ?` -/
  | isHidden (value : Bool)
  /-- `0 = 1` -/
  | never
  /-- `m.domain_id IN (…)` -/
  | domainIn (domainIds : List Nat)
  /-- `(m.address_canonical GLOB ? OR …)` -/
  | addressGlob (patterns : List Text)
  deriving DecidableEq, Repr

structure MailboxFilter where
  query : Option Text
  domainId : Option Nat
  publicEnabled : Option Bool
  isHidden : Option Bool
  allowedDomainIds : Option (List Nat)
  allowedMailboxPatterns : List Text

def mailboxDomainClauses : Option (List Nat) → List MailboxClause
  | none => []
  | some [] => [.never]
  | some ids => [.domainIn ids]

def mailboxPatternClauses (patterns : List Text) : List MailboxClause :=
  if patterns.isEmpty then [] else [.addressGlob patterns]

/-- `_mailbox_filter_sql` -/
def mailboxFilterSql (f : MailboxFilter) : List MailboxClause :=
  let search := (truthy f.query).toList.map fun query => .search (searchPattern query)
  search ++ f.domainId.toList.map .domainId ++ f.publicEnabled.toList.map .publicEnabled ++
    f.isHidden.toList.map .isHidden ++ mailboxDomainClauses f.allowedDomainIds ++
    mailboxPatternClauses f.allowedMailboxPatterns

/-- A clause is true of a row of `mailboxes AS m`. -/
def MailboxClause.holds (S : SqlMatch) (m : MailboxRow) : MailboxClause → Bool
  | search pattern =>
    S.like (Utf8.encode m.addressCanonical) pattern || S.like (Utf8.encode m.addressDisplay) pattern ||
      S.likeColumn (m.notes.map Utf8.encode) pattern
  | domainId id => m.domainId = id
  | publicEnabled value => m.publicEnabled = value
  | isHidden value => m.isHidden = value
  | never => false
  | domainIn ids => m.domainId ∈ ids
  | addressGlob patterns => patterns.any fun p => S.glob m.addressCanonical p

/-! ## The point checks of the two interfaces -/

namespace ApiV2

/-- `_allowed_domain_ids` (`api_v2.py:287-292`) -/
def allowedDomainIds (principal : PermissionContext) : Option (List Nat) :=
  match principal.domainGrantMode with
  | .all => none
  | .selected => some (principal.domainIds.dedup.insertionSort (· ≤ ·))
  | _ => some []

/-- `_domain_allowed` -/
def domainAllowed (principal : PermissionContext) (domainId : Nat) : Bool :=
  match allowedDomainIds principal with
  | none => true
  | some allowed => domainId ∈ allowed

/-- `_mailbox_allowed` -/
def mailboxAllowed (principal : PermissionContext) (domainId : Nat) (address : Text) : Bool :=
  domainAllowed principal domainId &&
    (principal.mailboxPatterns.isEmpty ||
      principal.mailboxPatterns.any fun pattern => fnmatchcase address pattern)

/-- `_message_is_allowed` -/
def messageIsAllowed (db : Db) (principal : PermissionContext) (messageId : Text) : Bool :=
  !(db.messageMailboxes messageId).isEmpty &&
    (db.messageMailboxes messageId).all fun b => mailboxAllowed principal b.domainId b.addressCanonical

end ApiV2

namespace AdminApi

/-- `_allowed_domain_ids` (`admin_api.py:168-173`) -/
def allowedDomainIds (admin : PermissionContext) : Option (List Nat) :=
  if admin.legacyCredential then none
  else
    match admin.domainGrantMode with
    | .all => none
    | .selected => some admin.domainIds
    | _ => some []

end AdminApi

/-! ## The domains and the patterns -/

section Checks

variable {S : SqlMatch} {db : Db} {c : PermissionContext} {allowed : Option (List Nat)}
  {patterns : List Text} {m : MessageRow} {d : Option DeliveryRow} {b : MailboxRow}

/-- Where a caller has domains, this is one of them. -/
def DomainPasses (allowed : Option (List Nat)) (domainId : Nat) : Prop := ∀ ids ∈ allowed, domainId ∈ ids

/-- Where a caller has patterns, one of them fits. -/
def PatternPasses (fits : Text → Text → Bool) (patterns : List Text) (address : Text) : Prop :=
  patterns = [] ∨ ∃ pattern ∈ patterns, fits address pattern = true

theorem domainPasses_apiV2 (c : PermissionContext) (domainId : Nat) :
    DomainPasses (ApiV2.allowedDomainIds c) domainId ↔
      c.domainGrantMode = .all ∨ c.domainGrantMode = .selected ∧ domainId ∈ c.domainIds := by
  unfold DomainPasses ApiV2.allowedDomainIds
  cases hmode : c.domainGrantMode with
  | all => simp
  | selected => simp [List.mem_insertionSort, List.mem_dedup]
  | none => simp
  | invalid => simp

theorem domainPasses_adminApi (hlegacy : c.legacyCredential = false) (domainId : Nat) :
    DomainPasses (AdminApi.allowedDomainIds c) domainId ↔
      c.domainGrantMode = .all ∨ c.domainGrantMode = .selected ∧ domainId ∈ c.domainIds := by
  unfold DomainPasses AdminApi.allowedDomainIds
  rw [hlegacy]
  cases hmode : c.domainGrantMode with
  | all => simp
  | selected => simp
  | none => simp
  | invalid => simp

/-- `_mailbox_allowed` lets a mailbox pass when the grants cover it. -/
theorem mailboxAllowed_iff (c : PermissionContext) (domainId : Nat) (address : Text) :
    ApiV2.mailboxAllowed c domainId address = true ↔ c.Grants address domainId := by
  have hdomain : ApiV2.domainAllowed c domainId = true ↔
      DomainPasses (ApiV2.allowedDomainIds c) domainId := by
    unfold ApiV2.domainAllowed DomainPasses
    cases ApiV2.allowedDomainIds c with
    | none => simp
    | some ids => simp
  rw [ApiV2.mailboxAllowed, Bool.and_eq_true, hdomain, domainPasses_apiV2, Bool.or_eq_true,
    List.isEmpty_iff, List.any_eq_true]
  rfl

theorem mem_messageMailboxes {messageId : Text} :
    b ∈ db.messageMailboxes messageId ↔
      ∃ d ∈ db.deliveries, d.messageId = messageId ∧ b ∈ db.mailboxes ∧ b.id = d.mailboxId := by
  simp only [Db.messageMailboxes, List.mem_flatMap, List.mem_filter, decide_eq_true_eq]
  constructor
  · rintro ⟨d, ⟨hd, hmessage⟩, hb, hid⟩
    exact ⟨d, hd, hmessage, hb, hid⟩
  · rintro ⟨d, hd, hmessage, hb, hid⟩
    exact ⟨d, ⟨hd, hmessage⟩, hb, hid⟩

/-- A delivered message has a mailbox, by the foreign key. -/
theorem exists_messageMailbox (hdb : db.Consistent) {messageId : Text}
    (h : ∃ d ∈ db.deliveries, d.messageId = messageId) : ∃ b, b ∈ db.messageMailboxes messageId := by
  obtain ⟨d, hd, hmessage⟩ := h
  obtain ⟨b, hb, hid⟩ := hdb.delivery_mailboxes d hd
  exact ⟨b, mem_messageMailboxes.mpr ⟨d, hd, hmessage, hb, hid⟩⟩

theorem messageDomainClauses_hold (h : ∃ b, b ∈ db.messageMailboxes m.id) :
    (messageDomainClauses allowed).all (MessageClause.holds S db m d) = true ↔
      ∀ b ∈ db.messageMailboxes m.id, DomainPasses allowed b.domainId := by
  obtain ⟨b₀, hb₀⟩ := h
  cases allowed with
  | none => simp [messageDomainClauses, DomainPasses]
  | some ids =>
    cases ids with
    | nil =>
      have hnone : ¬ ∀ b ∈ db.messageMailboxes m.id, DomainPasses (some []) b.domainId :=
        fun hall => absurd (hall b₀ hb₀ [] rfl) List.not_mem_nil
      simp only [messageDomainClauses, List.all_cons, MessageClause.holds, Bool.false_and, hnone,
        Bool.false_eq_true]
    | cons id ids =>
      simp only [messageDomainClauses, List.all_cons, List.all_nil, MessageClause.holds,
        Bool.and_true, Bool.and_eq_true, Bool.not_eq_true', List.any_eq_true, List.any_eq_false,
        decide_eq_true_eq, not_not, DomainPasses, Option.mem_some_iff, forall_eq']
      exact ⟨fun hboth => hboth.2, fun hall => ⟨⟨b₀, hb₀, hall b₀ hb₀⟩, hall⟩⟩

theorem messagePatternClauses_hold (h : ∃ b, b ∈ db.messageMailboxes m.id) :
    (messagePatternClauses patterns).all (MessageClause.holds S db m d) = true ↔
      ∀ b ∈ db.messageMailboxes m.id, PatternPasses S.glob patterns b.addressCanonical := by
  obtain ⟨b₀, hb₀⟩ := h
  by_cases hnil : patterns = []
  · subst hnil
    simp [messagePatternClauses, PatternPasses]
  · have hfits : ∀ b : MailboxRow, PatternPasses S.glob patterns b.addressCanonical ↔
        ∃ pattern ∈ patterns, S.glob b.addressCanonical pattern = true := fun b => or_iff_right hnil
    have hdenied : ∀ b : MailboxRow,
        (patterns.all fun pattern => !S.glob b.addressCanonical pattern) = true ↔
          ¬ ∃ pattern ∈ patterns, S.glob b.addressCanonical pattern = true := by
      intro b
      simp only [List.all_eq_true, Bool.not_eq_true', not_exists, not_and, Bool.not_eq_true]
    have hclauses : messagePatternClauses patterns =
        [.someAddressGlob patterns, .noAddressNotGlob patterns] := by
      rw [messagePatternClauses, if_neg]
      rw [List.isEmpty_iff]
      exact hnil
    simp only [hclauses, List.all_cons, List.all_nil, MessageClause.holds, Bool.and_true, hfits,
      Bool.and_eq_true, Bool.not_eq_true', List.any_eq_false, hdenied, not_not, List.any_eq_true]
    exact ⟨fun hboth => hboth.2, fun hall => ⟨⟨b₀, hb₀, hall b₀ hb₀⟩, hall⟩⟩

theorem mailboxDomainClauses_hold :
    (mailboxDomainClauses allowed).all (MailboxClause.holds S b) = true ↔
      DomainPasses allowed b.domainId := by
  cases allowed with
  | none => simp [mailboxDomainClauses, DomainPasses]
  | some ids =>
    cases ids with
    | nil => simp [mailboxDomainClauses, MailboxClause.holds, DomainPasses]
    | cons id ids => simp [mailboxDomainClauses, MailboxClause.holds, DomainPasses]

theorem mailboxPatternClauses_hold :
    (mailboxPatternClauses patterns).all (MailboxClause.holds S b) = true ↔
      PatternPasses S.glob patterns b.addressCanonical := by
  cases patterns with
  | nil => simp [mailboxPatternClauses, PatternPasses]
  | cons p ps => simp [mailboxPatternClauses, MailboxClause.holds, PatternPasses]

/-- Without brackets the two engines read a pattern alike. -/
theorem patternPasses_glob (hS : S.GlobDocumented) (hfree : ∀ p ∈ patterns, BracketFree p)
    (address : Text) : PatternPasses S.glob patterns address ↔ PatternPasses fnmatchcase patterns address := by
  refine or_congr_right (exists_congr fun pattern => and_congr_right fun hmem => ?_)
  rw [hS pattern (hfree pattern hmem), fnmatchcase]

/-- The domains of a caller, in either interface, together with its patterns, are its grants. -/
theorem grants_iff_passes (hS : S.GlobDocumented) (hlegacy : c.legacyCredential = false)
    (hfree : ∀ p ∈ c.mailboxPatterns, BracketFree p)
    (hallowed : allowed = ApiV2.allowedDomainIds c ∨ allowed = AdminApi.allowedDomainIds c)
    (b : MailboxRow) :
    DomainPasses allowed b.domainId ∧ PatternPasses S.glob c.mailboxPatterns b.addressCanonical ↔
      c.Grants b.addressCanonical b.domainId := by
  rw [patternPasses_glob hS hfree]
  refine and_congr_left' ?_
  rcases hallowed with rfl | rfl
  · exact domainPasses_apiV2 c b.domainId
  · exact domainPasses_adminApi hlegacy b.domainId

theorem ensureMailboxAccess_iff_grants (hlegacy : c.legacyCredential = false) {scope : Text}
    (hscope : scope ∈ c.scopes) (b : MailboxRow) :
    ensureMailboxAccess c b.addressCanonical b.domainId scope = .ok () ↔
      c.Grants b.addressCanonical b.domainId := by
  rw [ensureMailboxAccess_ok_iff, hlegacy]
  simp [hscope]

/-- The clauses for the grants are true of a delivered message whose mailboxes are all granted. -/
theorem messageClauses_hold_iff (hS : S.GlobDocumented) (hlegacy : c.legacyCredential = false)
    (hfree : ∀ p ∈ c.mailboxPatterns, BracketFree p)
    (hallowed : allowed = ApiV2.allowedDomainIds c ∨ allowed = AdminApi.allowedDomainIds c)
    (h : ∃ b, b ∈ db.messageMailboxes m.id) :
    (messageDomainClauses allowed ++ messagePatternClauses c.mailboxPatterns).all
        (MessageClause.holds S db m d) = true ↔
      ∀ b ∈ db.messageMailboxes m.id, c.Grants b.addressCanonical b.domainId := by
  rw [List.all_append, Bool.and_eq_true, messageDomainClauses_hold h, messagePatternClauses_hold h,
    ← forall₂_and]
  exact forall₂_congr fun b _ => grants_iff_passes hS hlegacy hfree hallowed b

theorem messageIsAllowed_iff {messageId : Text} (h : ∃ b, b ∈ db.messageMailboxes messageId) :
    ApiV2.messageIsAllowed db c messageId = true ↔
      ∀ b ∈ db.messageMailboxes messageId, c.Grants b.addressCanonical b.domainId := by
  obtain ⟨b, hb⟩ := h
  simp [ApiV2.messageIsAllowed, List.ne_nil_of_mem hb, mailboxAllowed_iff]

theorem mailboxClauses_hold_iff (hS : S.GlobDocumented) (hlegacy : c.legacyCredential = false)
    (hfree : ∀ p ∈ c.mailboxPatterns, BracketFree p)
    (hallowed : allowed = ApiV2.allowedDomainIds c ∨ allowed = AdminApi.allowedDomainIds c)
    (b : MailboxRow) :
    (mailboxDomainClauses allowed ++ mailboxPatternClauses c.mailboxPatterns).all
        (MailboxClause.holds S b) = true ↔
      c.Grants b.addressCanonical b.domainId := by
  rw [List.all_append, Bool.and_eq_true, mailboxDomainClauses_hold, mailboxPatternClauses_hold]
  exact grants_iff_passes hS hlegacy hfree hallowed b

/-- Every mailbox that has a delivery of a message. -/
def Db.EveryMailbox (db : Db) (messageId : Text) (P : MailboxRow → Prop) : Prop :=
  ∀ d ∈ db.deliveries, d.messageId = messageId → ∀ b ∈ db.mailboxes, b.id = d.mailboxId → P b

theorem everyMailbox_iff {messageId : Text} {P Q : MailboxRow → Prop} (h : ∀ b, P b ↔ Q b) :
    db.EveryMailbox messageId P ↔ ∀ b ∈ db.messageMailboxes messageId, Q b := by
  constructor
  · intro hall b hb
    obtain ⟨d, hd, hmessage, hmem, hid⟩ := mem_messageMailboxes.mp hb
    exact (h b).mp (hall d hd hmessage b hmem hid)
  · intro hall d hd hmessage b hmem hid
    exact (h b).mpr (hall b (mem_messageMailboxes.mpr ⟨d, hd, hmessage, hmem, hid⟩))

end Checks

/-- What a list shows is what the point checks let pass. -/
theorem list_filters_match_point_checks {S : SqlMatch} (hS : S.GlobDocumented) {db : Db}
    (hdb : db.Consistent) {c : PermissionContext} (hlegacy : c.legacyCredential = false)
    (hfree : ∀ p ∈ c.mailboxPatterns, BracketFree p) {allowed : Option (List Nat)}
    (hallowed : allowed = ApiV2.allowedDomainIds c ∨ allowed = AdminApi.allowedDomainIds c) :
    (∀ m ∈ db.messages, (∃ d ∈ db.deliveries, d.messageId = m.id) →
      ∃ clauses, messageFilterSql ⟨none, none, none, allowed, c.mailboxPatterns⟩ = .ok clauses ∧
        ∀ d : Option DeliveryRow,
          (clauses.all (MessageClause.holds S db m d) = true ↔ ApiV2.messageIsAllowed db c m.id = true) ∧
          (clauses.all (MessageClause.holds S db m d) = true ↔ db.EveryMailbox m.id fun b =>
            ApiV2.mailboxAllowed c b.domainId b.addressCanonical = true) ∧
          ∀ scope ∈ c.scopes,
            (clauses.all (MessageClause.holds S db m d) = true ↔ db.EveryMailbox m.id fun b =>
              ensureMailboxAccess c b.addressCanonical b.domainId scope = .ok ())) ∧
    ∀ b ∈ db.mailboxes,
      let clauses := mailboxFilterSql ⟨none, none, none, none, allowed, c.mailboxPatterns⟩
      (clauses.all (MailboxClause.holds S b) = true ↔
        ApiV2.mailboxAllowed c b.domainId b.addressCanonical = true) ∧
      ∀ scope ∈ c.scopes,
        (clauses.all (MailboxClause.holds S b) = true ↔
          ensureMailboxAccess c b.addressCanonical b.domainId scope = .ok ()) := by
  refine ⟨fun m _ hdelivered => ⟨_, rfl, fun d => ?_⟩, fun b _ => ?_⟩
  · have hmailbox := exists_messageMailbox hdb hdelivered
    have hclauses := messageClauses_hold_iff hS hlegacy hfree hallowed hmailbox (d := d)
    refine ⟨hclauses.trans (messageIsAllowed_iff hmailbox).symm, ?_, fun scope hscope => ?_⟩
    · rw [everyMailbox_iff fun b => mailboxAllowed_iff c b.domainId b.addressCanonical]
      exact hclauses
    · rw [everyMailbox_iff (ensureMailboxAccess_iff_grants hlegacy hscope)]
      exact hclauses
  · have hclauses := mailboxClauses_hold_iff hS hlegacy hfree hallowed b
    refine ⟨?_, fun scope hscope => ?_⟩
    · rw [mailboxAllowed_iff]
      exact hclauses
    · rw [ensureMailboxAccess_iff_grants hlegacy hscope]
      exact hclauses

/-! ## A message with a foreign recipient -/

def documentedMatch : SqlMatch where
  like _ _ := true
  glob text pattern := Glob.accepts '*' '?' pattern text

/-- A caller with one domain and one pattern. -/
def oneDomainCaller : PermissionContext := { samplePrincipal with domainIds := [2] }

/-- The message has a mailbox of another domain and is not listed; the mailbox of the caller's domain is. -/
theorem list_filters_match_point_checks_foreign :
    (∃ clauses, messageFilterSql
        ⟨none, none, none, some [2], oneDomainCaller.mailboxPatterns⟩ = .ok clauses ∧
      ∀ m ∈ (Db.splitMailbox .active none none).messages, ∀ d,
        ¬ clauses.all (MessageClause.holds documentedMatch (Db.splitMailbox .active none none) m d) =
          true) ∧
    (mailboxFilterSql ⟨none, none, none, none, some [2], oneDomainCaller.mailboxPatterns⟩).all
      (MailboxClause.holds documentedMatch Db.splitTarget) = true := by
  have hfree : ∀ p ∈ oneDomainCaller.mailboxPatterns, BracketFree p := by
    intro p hp
    rw [List.mem_singleton.mp hp]
    exact ⟨by decide, by decide⟩
  have hallowed : some [2] = ApiV2.allowedDomainIds oneDomainCaller ∨
      some [2] = AdminApi.allowedDomainIds oneDomainCaller := .inr rfl
  have h := list_filters_match_point_checks (S := documentedMatch) (fun _ _ _ => rfl)
    (Db.splitMailbox_consistent .active none none) rfl hfree hallowed
  refine ⟨⟨_, rfl, fun m hm d hall => ?_⟩, ?_⟩
  · have hid : m.id = "x".toList := by rw [List.mem_singleton.mp hm]
    obtain ⟨clauses, hclauses, hiff⟩ := h.1 m hm ⟨_, List.mem_cons_self, hid.symm⟩
    cases hclauses
    have hfirst := (hiff d).2.1.mp hall _ List.mem_cons_self hid.symm _ List.mem_cons_self rfl
    exact absurd hfirst (by decide)
  · exact (h.2 Db.splitTarget (List.mem_cons_of_mem _ List.mem_cons_self)).1.mpr (by decide)

end RapidInbox
