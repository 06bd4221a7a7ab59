import Mathlib.Data.List.Sort
import Mathlib.Data.Rat.Defs
import Mathlib.Logic.Function.Basic
import RapidInbox.Auth.ApiKeys
import RapidInbox.Lib.OrderedDict
import RapidInbox.Lib.Result
import RapidInbox.Live.Cursor

/-!
# The values of the system settings

`app/services/settings.py:20-80` and `206-301`: the supported settings with their kinds and bounds,
the check of a value that a caller sends, the text that is persisted for it and the value that is
read back from a row.
-/

namespace RapidInbox

/-- `ingress_mode`. -/
inductive IngressMode where
  | managedOnly
  | managedPlusCatchall
  deriving DecidableEq, Repr

def IngressMode.text : IngressMode → Text
  | .managedOnly => "managed_only".toList
  | .managedPlusCatchall => "managed_plus_catchall".toList

/-- What a setting holds: `INTEGER_SETTINGS` with or without `NON_NEGATIVE_INTEGER_SETTINGS`, each
    with its entry of `MAXIMUM_INTEGER_SETTINGS`, `BOOLEAN_SETTINGS` and the mode. -/
inductive SettingKind where
  | positive (maximum : Int)
  | nonNegative (maximum : Int)
  | boolean
  | ingressMode

/-- The values a setting may take. -/
def SettingKind.Value : SettingKind → Type
  | .positive maximum => { n : Int // 1 ≤ n ∧ n ≤ maximum }
  | .nonNegative maximum => { n : Int // 0 ≤ n ∧ n ≤ maximum }
  | .boolean => Bool
  | .ingressMode => IngressMode

def SettingKind.positiveOf {maximum : Int} (n : Int) (h : 1 ≤ n ∧ n ≤ maximum) :
    (SettingKind.positive maximum).Value := ⟨n, h⟩

def SettingKind.nonNegativeOf {maximum : Int} (n : Int) (h : 0 ≤ n ∧ n ≤ maximum) :
    (SettingKind.nonNegative maximum).Value := ⟨n, h⟩

/-- `SUPPORTED_SETTINGS`. -/
inductive SettingKey where
  | maxMessageSizeBytes
  | maxRecipientsPerMessage
  | smtpIdleTimeoutSeconds
  | smtpMaxConcurrentConnections
  | smtpConnectionRateLimitCount
  | smtpConnectionRateLimitWindowSeconds
  | diskWarningThresholdPercent
  | ingressMode
  | catchAllPublicWebEnabled
  | catchAllPublicApiEnabled
  | catchAllRetentionDays
  | retentionCleanupIntervalSeconds
  | smtpSessionRetentionSeconds
  | emptyMailboxRetentionSeconds
  | metricRetentionSeconds
  | auditRetentionDays
  | cleanupBatchSize
  | fileGcBatchSize
  deriving DecidableEq, Repr

def maxMessageSizeLimitBytes : Int := 1073741824
def maxRecipientsLimit : Int := 10000
def maxSmtpConnectionsLimit : Int := 100000
def maxRetentionDays : Int := 36500
def maxCleanupBatchSize : Int := 10000

namespace SettingKey

def all : List SettingKey :=
  [maxMessageSizeBytes, maxRecipientsPerMessage, smtpIdleTimeoutSeconds,
    smtpMaxConcurrentConnections, smtpConnectionRateLimitCount,
    smtpConnectionRateLimitWindowSeconds, diskWarningThresholdPercent, ingressMode,
    catchAllPublicWebEnabled, catchAllPublicApiEnabled, catchAllRetentionDays,
    retentionCleanupIntervalSeconds, smtpSessionRetentionSeconds, emptyMailboxRetentionSeconds,
    metricRetentionSeconds, auditRetentionDays, cleanupBatchSize, fileGcBatchSize]

def name : SettingKey → Text
  | maxMessageSizeBytes => "max_message_size_bytes".toList
  | maxRecipientsPerMessage => "max_recipients_per_message".toList
  | smtpIdleTimeoutSeconds => "smtp_idle_timeout_seconds".toList
  | smtpMaxConcurrentConnections => "smtp_max_concurrent_connections".toList
  | smtpConnectionRateLimitCount => "smtp_connection_rate_limit_count".toList
  | smtpConnectionRateLimitWindowSeconds => "smtp_connection_rate_limit_window_seconds".toList
  | diskWarningThresholdPercent => "disk_warning_threshold_percent".toList
  | ingressMode => "ingress_mode".toList
  | catchAllPublicWebEnabled => "catch_all_public_web_enabled".toList
  | catchAllPublicApiEnabled => "catch_all_public_api_enabled".toList
  | catchAllRetentionDays => "catch_all_retention_days".toList
  | retentionCleanupIntervalSeconds => "retention_cleanup_interval_seconds".toList
  | smtpSessionRetentionSeconds => "smtp_session_retention_seconds".toList
  | emptyMailboxRetentionSeconds => "empty_mailbox_retention_seconds".toList
  | metricRetentionSeconds => "metric_retention_seconds".toList
  | auditRetentionDays => "audit_retention_days".toList
  | cleanupBatchSize => "cleanup_batch_size".toList
  | fileGcBatchSize => "file_gc_batch_size".toList

def kind : SettingKey → SettingKind
  | maxMessageSizeBytes => .positive maxMessageSizeLimitBytes
  | maxRecipientsPerMessage => .positive maxRecipientsLimit
  | smtpIdleTimeoutSeconds => .positive 86400
  | smtpMaxConcurrentConnections => .nonNegative maxSmtpConnectionsLimit
  | smtpConnectionRateLimitCount => .nonNegative maxRateLimitCount
  | smtpConnectionRateLimitWindowSeconds => .positive 86400
  | diskWarningThresholdPercent => .positive 100
  | ingressMode => .ingressMode
  | catchAllPublicWebEnabled => .boolean
  | catchAllPublicApiEnabled => .boolean
  | catchAllRetentionDays => .nonNegative maxRetentionDays
  | retentionCleanupIntervalSeconds => .positive 86400
  | smtpSessionRetentionSeconds => .positive 315360000
  | emptyMailboxRetentionSeconds => .positive 315360000
  | metricRetentionSeconds => .positive 315360000
  | auditRetentionDays => .positive maxRetentionDays
  | cleanupBatchSize => .positive maxCleanupBatchSize
  | fileGcBatchSize => .positive maxCleanupBatchSize

/-- The supported setting of a name. -/
def ofName? (text : Text) : Option SettingKey := all.find? fun k => k.name = text

theorem mem_all (k : SettingKey) : k ∈ all := by
  cases k <;> simp [all]

theorem names_nodup : (all.map name).Nodup := by decide

theorem name_injective {k k' : SettingKey} (h : k.name = k'.name) : k = k' :=
  List.inj_on_of_nodup_map names_nodup k.mem_all k'.mem_all h

theorem ofName?_eq_some {text : Text} {k : SettingKey} : ofName? text = some k ↔ k.name = text := by
  constructor
  · intro h
    simpa using List.find?_some h
  · rintro rfl
    cases h : ofName? k.name with
    | none =>
      have hnone := List.find?_eq_none.mp h k k.mem_all
      simp at hnone
    | some k' =>
      have hname : k'.name = k.name := by simpa using List.find?_some h
      rw [name_injective hname]

@[simp] theorem ofName?_name (k : SettingKey) : ofName? k.name = some k := ofName?_eq_some.mpr rfl

end SettingKey

/-- The settings the service handles, as the runtime holds them. -/
abbrev Settings := (k : SettingKey) → k.kind.Value

/-- The defaults of `app/config.py:62-88`, each within its bounds. -/
def defaultSettings : Settings
  | .maxMessageSizeBytes => SettingKind.positiveOf 52428800 (by decide)
  | .maxRecipientsPerMessage => SettingKind.positiveOf 20 (by decide)
  | .smtpIdleTimeoutSeconds => SettingKind.positiveOf 30 (by decide)
  | .smtpMaxConcurrentConnections => SettingKind.nonNegativeOf 1024 (by decide)
  | .smtpConnectionRateLimitCount => SettingKind.nonNegativeOf 60000 (by decide)
  | .smtpConnectionRateLimitWindowSeconds => SettingKind.positiveOf 60 (by decide)
  | .diskWarningThresholdPercent => SettingKind.positiveOf 85 (by decide)
  | .ingressMode => IngressMode.managedOnly
  | .catchAllPublicWebEnabled => false
  | .catchAllPublicApiEnabled => false
  | .catchAllRetentionDays => SettingKind.nonNegativeOf 0 (by decide)
  | .retentionCleanupIntervalSeconds => SettingKind.positiveOf 30 (by decide)
  | .smtpSessionRetentionSeconds => SettingKind.positiveOf 86400 (by decide)
  | .emptyMailboxRetentionSeconds => SettingKind.positiveOf 86400 (by decide)
  | .metricRetentionSeconds => SettingKind.positiveOf 604800 (by decide)
  | .auditRetentionDays => SettingKind.positiveOf 90 (by decide)
  | .cleanupBatchSize => SettingKind.positiveOf 1000 (by decide)
  | .fileGcBatchSize => SettingKind.positiveOf 500 (by decide)

/-- A value that a caller sends or that a row holds, with its `str` where that can be a mode. -/
inductive SettingInput where
  | none
  | bool (b : Bool)
  | int (n : Int)
  /-- A float that is not finite has no value. -/
  | float (value : Option ℚ) (shown : Text)
  | text (t : Text)
  /-- Any other object; `int` of it raises a `TypeError`. -/
  | other (shown : Text)

namespace SettingInput

/-- `str(value)`. -/
def str : SettingInput → Text
  | none => "None".toList
  | bool true => "True".toList
  | bool false => "False".toList
  | int n => intText n
  | float _ shown => shown
  | text t => t
  | other shown => shown

/-- `int(value)`, for a value that is neither a boolean nor a fraction. -/
def toInt? : SettingInput → Option Int
  | none => .none
  | bool _ => .none
  | int n => some n
  | float (some q) _ => if q.den = 1 then some q.num else .none
  | float .none _ => .none
  | text t => pyInt? t
  | other _ => .none

end SettingInput

section
variable (U : UnicodeOps)

/-- `value.strip().lower()`. -/
def stripLower (t : Text) : Text := lowerText U (stripUnicodeWhitespace t)

/-- The body shared by `_coerce_positive_int` and `_coerce_non_negative_int`. -/
def coerceIntFrom (minimum maximum : Int) (key : Text) (value : SettingInput) :
    Except Text { n : Int // minimum ≤ n ∧ n ≤ maximum } :=
  match value.toInt? with
  | none => .error ("invalid ".toList ++ key)
  | some n =>
    if h : minimum ≤ n ∧ n ≤ maximum then .ok ⟨n, h⟩ else .error ("invalid ".toList ++ key)

/-- `_coerce_positive_int`. -/
def coercePositiveInt (maximum : Int) (key : Text) (value : SettingInput) :
    Except Text { n : Int // 1 ≤ n ∧ n ≤ maximum } :=
  coerceIntFrom 1 maximum key value

/-- `_coerce_non_negative_int`. -/
def coerceNonNegativeInt (maximum : Int) (key : Text) (value : SettingInput) :
    Except Text { n : Int // 0 ≤ n ∧ n ≤ maximum } :=
  coerceIntFrom 0 maximum key value

/-- `_coerce_bool`. -/
def coerceBool (key : Text) : SettingInput → Except Text Bool
  | .bool b => .ok b
  | .int n =>
    if n = 0 then .ok false else if n = 1 then .ok true else .error ("invalid ".toList ++ key)
  | .text t =>
    if stripLower U t ∈ ["1", "true", "yes", "on"].map String.toList then .ok true
    else if stripLower U t ∈ ["0", "false", "no", "off"].map String.toList then .ok false
    else .error ("invalid ".toList ++ key)
  | _ => .error ("invalid ".toList ++ key)

/-- The check of `ingress_mode`. -/
def coerceIngressMode (key : Text) (value : SettingInput) : Except Text IngressMode :=
  let mode := stripLower U value.str
  if mode = IngressMode.managedOnly.text then .ok .managedOnly
  else if mode = IngressMode.managedPlusCatchall.text then .ok .managedPlusCatchall
  else .error ("invalid ".toList ++ key)

/-- The check that `_normalize_payload` and `_deserialize_value` choose for a setting. -/
def SettingKind.coerce (key : Text) (value : SettingInput) :
    (kind : SettingKind) → Except Text kind.Value
  | .positive maximum => coercePositiveInt maximum key value
  | .nonNegative maximum => coerceNonNegativeInt maximum key value
  | .boolean => coerceBool U key value
  | .ingressMode => coerceIngressMode U key value

/-- The text that `_normalize_payload` persists. -/
def SettingKind.persisted : (kind : SettingKind) → kind.Value → Text
  | .positive _, n => intText n.val
  | .nonNegative _, n => intText n.val
  | .boolean, true => "1".toList
  | .boolean, false => "0".toList
  | .ingressMode, mode => IngressMode.text mode

/-- `_normalize_payload`, one entry. -/
def normalizeValue (k : SettingKey) (value : SettingInput) : Except Text Text :=
  (k.kind.coerce U k.name value).map k.kind.persisted

/-- `_deserialize_value`: a row that does not hold a valid value stands for the base setting. -/
def deserializeValue (base : Settings) (k : SettingKey) (value : Text) : k.kind.Value :=
  match k.kind.coerce U k.name (.text value) with
  | .ok x => x
  | .error _ => base k

variable {U}

theorem coerceIntFrom_intText {minimum maximum : Int} {key : Text}
    (n : { n : Int // minimum ≤ n ∧ n ≤ maximum }) :
    coerceIntFrom minimum maximum key (.text (intText n.val)) = .ok n := by
  have hint : (SettingInput.text (intText n.val)).toInt? = some n.val := pyInt?_intText n.val
  simp only [coerceIntFrom, hint]
  rw [dif_pos n.property]

theorem stripLower_text (mode : IngressMode) : stripLower U mode.text = mode.text := by
  cases mode <;> rfl

theorem coerceIngressMode_text {key : Text} (mode : IngressMode) :
    coerceIngressMode U key (.text mode.text) = .ok mode := by
  have hstr : (SettingInput.text mode.text).str = mode.text := rfl
  simp only [coerceIngressMode, hstr, stripLower_text]
  cases mode
  · rw [if_pos rfl]
  · rw [if_neg (by decide), if_pos rfl]

/-- What is persisted for a value is read back as the value. -/
theorem SettingKind.coerce_persisted (key : Text) :
    ∀ (kind : SettingKind) (x : kind.Value), kind.coerce U key (.text (kind.persisted x)) = .ok x
  | .positive _, n => coerceIntFrom_intText n
  | .nonNegative _, n => coerceIntFrom_intText n
  | .boolean, true => rfl
  | .boolean, false => rfl
  | .ingressMode, mode => coerceIngressMode_text mode

/-- The text of a checked value is read back as the same value, whatever the base settings are. -/
theorem deserializeValue_of_normalizeValue {k : SettingKey} {value : SettingInput} {text : Text}
    (h : normalizeValue U k value = .ok text) :
    ∃ x, k.kind.coerce U k.name value = .ok x ∧ ∀ base, deserializeValue U base k text = x := by
  obtain ⟨x, hx, rfl⟩ := Except.map_ok_iff.mp h
  refine ⟨x, hx, fun base => ?_⟩
  rw [deserializeValue, SettingKind.coerce_persisted]

end

/-! ## Settings and rows -/

/-- A setting with a value for it. -/
abbrev SettingUpdate := (k : SettingKey) × k.kind.Value

/-- `apply_live_settings`: assign the given settings. -/
def applyLiveSettings (settings : Settings) (updates : List SettingUpdate) : Settings :=
  updates.foldl (fun settings u => Function.update settings u.1 u.2) settings

/-- A setting that is not given keeps its value. -/
theorem applyLiveSettings_of_notMem {settings : Settings} {updates : List SettingUpdate}
    {k : SettingKey} (h : k ∉ updates.map Sigma.fst) : applyLiveSettings settings updates k = settings k := by
  induction updates generalizing settings with
  | nil => rfl
  | cons u us ih =>
    rw [List.map_cons, List.mem_cons, not_or] at h
    have hrest : applyLiveSettings (Function.update settings u.1 u.2) us k =
        Function.update settings u.1 u.2 k := ih h.2
    show applyLiveSettings (Function.update settings u.1 u.2) us k = settings k
    rw [hrest, Function.update_of_ne h.1]

/-- A setting that is given once takes the value. -/
theorem applyLiveSettings_of_mem {settings : Settings} {updates : List SettingUpdate} {u : SettingUpdate}
    (hnodup : (updates.map Sigma.fst).Nodup) (h : u ∈ updates) :
    applyLiveSettings settings updates u.1 = u.2 := by
  induction updates generalizing settings with
  | nil => cases h
  | cons u' us ih =>
    rw [List.map_cons, List.nodup_cons] at hnodup
    rcases List.mem_cons.mp h with rfl | h
    · have hrest := @applyLiveSettings_of_notMem (Function.update settings u.1 u.2) us u.1 hnodup.1
      exact hrest.trans (Function.update_self _ _ _)
    · exact ih hnodup.2 h

/-- The rows of `system_settings`, one for each key. -/
abbrev SettingRows := OrderedDict Text Text

section
variable (U : UnicodeOps)

/-- `_load_persisted_settings`. -/
def loadPersistedSettings (base : Settings) (rows : SettingRows) : List SettingUpdate :=
  rows.entries.filterMap fun row =>
    (SettingKey.ofName? row.1).map fun k => ⟨k, deserializeValue U base k row.2⟩

/-- The base settings overridden by the persisted rows. -/
def overriddenSettings (base : Settings) (rows : SettingRows) : Settings := fun k =>
  match rows.get? k.name with
  | none => base k
  | some value => deserializeValue U base k value

variable {U}

theorem mem_loadPersistedSettings {base : Settings} {rows : SettingRows} {u : SettingUpdate} :
    u ∈ loadPersistedSettings U base rows ↔
      ∃ value, (u.1.name, value) ∈ rows.entries ∧ deserializeValue U base u.1 value = u.2 := by
  unfold loadPersistedSettings
  rw [List.mem_filterMap]
  constructor
  · rintro ⟨⟨text, value⟩, hrow, hu⟩
    obtain ⟨k, hk, rfl⟩ := Option.map_eq_some_iff.mp hu
    obtain rfl := SettingKey.ofName?_eq_some.mp hk
    exact ⟨value, hrow, rfl⟩
  · rintro ⟨value, hrow, hu⟩
    refine ⟨_, hrow, ?_⟩
    simp [hu]

theorem loadPersistedSettings_nodup (base : Settings) (rows : SettingRows) :
    ((loadPersistedSettings U base rows).map Sigma.fst).Nodup := by
  have hkeys : (loadPersistedSettings U base rows).map Sigma.fst =
      (rows.entries.map Prod.fst).filterMap SettingKey.ofName? := by
    unfold loadPersistedSettings
    rw [List.map_filterMap, List.filterMap_map]
    refine congrArg (List.filterMap · rows.entries) (funext fun row => ?_)
    simp [Function.comp_def]
  rw [hkeys]
  refine rows.nodup.filterMap fun text text' k hk hk' => ?_
  rw [← SettingKey.ofName?_eq_some.mp hk, ← SettingKey.ofName?_eq_some.mp hk']

/-- `settings = self._base_settings(); settings.update(self._load_persisted_settings())`. -/
theorem applyLiveSettings_loadPersistedSettings (base : Settings) (rows : SettingRows) :
    applyLiveSettings base (loadPersistedSettings U base rows) = overriddenSettings U base rows := by
  funext k
  unfold overriddenSettings
  cases h : rows.get? k.name with
  | none =>
    apply applyLiveSettings_of_notMem
    intro hk
    obtain ⟨u, hu, rfl⟩ := List.mem_map.mp hk
    obtain ⟨value, hrow, -⟩ := mem_loadPersistedSettings.mp hu
    rw [OrderedDict.get?_of_mem hrow] at h
    cases h
  | some value =>
    have hmem : (⟨k, deserializeValue U base k value⟩ : SettingUpdate) ∈
        loadPersistedSettings U base rows :=
      mem_loadPersistedSettings.mpr ⟨value, OrderedDict.mem_of_get? h, rfl⟩
    exact applyLiveSettings_of_mem (loadPersistedSettings_nodup base rows) hmem

end

/-! ## A payload -/

section
variable (U : UnicodeOps)

/-- `sorted({...})` of the keys that are not supported, by code points. -/
def unsupportedKeys (payload : List (Text × SettingInput)) : List Text :=
  ((payload.map Prod.fst).filter fun key => (SettingKey.ofName? key).isNone).dedup.insertionSort
    fun a b => b.lex a (fun c d => decide (c.toNat < d.toNat)) = false

/-- `_validate_supported_keys`. -/
def validateSupportedKeys (payload : List (Text × SettingInput)) : Except Text Unit :=
  match unsupportedKeys payload with
  | [] => .ok ()
  | unsupported =>
    .error ("unsupported settings: ".toList ++ (", ".toList).intercalate unsupported)

/-- `_normalize_payload`, of supported keys. -/
def normalizePayload (payload : List (Text × SettingInput)) :
    Except Text (List (SettingKey × Text)) :=
  (payload.filterMap fun entry => (SettingKey.ofName? entry.1).map fun k => (k, entry.2)).mapM
    fun entry => (normalizeValue U entry.1 entry.2).map fun text => (entry.1, text)

/-- `{key: self._deserialize_value(key, value) for key, value in normalized.items()}`. -/
def deserializeNormalized (base : Settings) (normalized : List (SettingKey × Text)) :
    List SettingUpdate :=
  normalized.map fun entry => ⟨entry.1, deserializeValue U base entry.1 entry.2⟩

/-- `_validate_parse_queue_budget`: the size limit with the updates fits the byte budget of the parse
    queue. -/
def validateParseQueueBudget (parseQueueMaxBytes : Int) (settings : Settings)
    (updates : List SettingUpdate) : Except Text Unit :=
  if (applyLiveSettings settings updates .maxMessageSizeBytes).val > parseQueueMaxBytes then
    .error "invalid max_message_size_bytes: exceeds parse queue byte budget".toList
  else .ok ()

/-- `update_settings` up to its first write: the texts to persist, none if nothing was sent. -/
def prepareUpdate (parseQueueMaxBytes : Int) (settings : Settings)
    (payload : List (Text × SettingInput)) : Except Text (List (SettingKey × Text)) := do
  validateSupportedKeys payload
  let normalized ← normalizePayload U payload
  if normalized.isEmpty then
    return []
  validateParseQueueBudget parseQueueMaxBytes settings (deserializeNormalized U settings normalized)
  return normalized

variable {U}

/-- The texts to persist are texts of valid values. -/
def Normalized (U : UnicodeOps) (normalized : List (SettingKey × Text)) : Prop :=
  ∀ entry ∈ normalized, ∃ x, ∀ base, deserializeValue U base entry.1 entry.2 = x

theorem normalizePayload_normalized {payload : List (Text × SettingInput)}
    {normalized : List (SettingKey × Text)} (h : normalizePayload U payload = .ok normalized) :
    Normalized U normalized := by
  unfold normalizePayload at h
  generalize payload.filterMap _ = entries at h
  induction entries generalizing normalized with
  | nil =>
    cases h
    exact nofun
  | cons entry entries ih =>
    rw [List.mapM_cons, Except.bind_ok_iff] at h
    obtain ⟨first, hfirst, h⟩ := h
    obtain ⟨rest, hrest, h⟩ := Except.bind_ok_iff.mp h
    cases h
    obtain ⟨text, htext, rfl⟩ := Except.map_ok_iff.mp hfirst
    obtain ⟨x, -, hx⟩ := deserializeValue_of_normalizeValue htext
    exact List.forall_mem_cons.mpr ⟨⟨x, hx⟩, ih hrest⟩

theorem prepareUpdate_normalized {parseQueueMaxBytes : Int} {settings : Settings}
    {payload : List (Text × SettingInput)} {normalized : List (SettingKey × Text)}
    (h : prepareUpdate U parseQueueMaxBytes settings payload = .ok normalized) :
    Normalized U normalized := by
  obtain ⟨-, -, h⟩ := Except.bind_ok_iff.mp h
  obtain ⟨normalized', hnormalized, h⟩ := Except.bind_ok_iff.mp h
  split at h
  · cases h
    exact nofun
  · obtain ⟨-, -, h⟩ := Except.bind_ok_iff.mp h
    cases h
    exact normalizePayload_normalized hnormalized

/-- What valid texts are read back as does not depend on the base settings. -/
theorem Normalized.deserialize_eq {normalized : List (SettingKey × Text)} (h : Normalized U normalized)
    (base base' : Settings) :
    deserializeNormalized U base normalized = deserializeNormalized U base' normalized := by
  unfold deserializeNormalized
  apply List.map_congr_left
  intro entry hentry
  obtain ⟨x, hx⟩ := h entry hentry
  rw [hx base, hx base']

/-- The upserts of one call. -/
def persistNormalized (rows : SettingRows) (normalized : List (SettingKey × Text)) : SettingRows :=
  normalized.foldl (fun rows entry => rows.put entry.1.name entry.2) rows

/-- Persisting values changes the settings that the rows stand for as assigning them does. -/
theorem overriddenSettings_persistNormalized {normalized : List (SettingKey × Text)}
    (h : Normalized U normalized) (base : Settings) (rows : SettingRows) :
    overriddenSettings U base (persistNormalized rows normalized) =
      applyLiveSettings (overriddenSettings U base rows) (deserializeNormalized U base normalized) := by
  induction normalized generalizing rows with
  | nil => rfl
  | cons entry rest ih =>
    obtain ⟨-, hrest⟩ := List.forall_mem_cons.mp h
    have hone : overriddenSettings U base (rows.put entry.1.name entry.2) =
        Function.update (overriddenSettings U base rows) entry.1
          (deserializeValue U base entry.1 entry.2) := by
      funext k
      unfold overriddenSettings
      rw [OrderedDict.get?_put]
      by_cases hk : k = entry.1
      · subst hk
        rw [if_pos rfl, Function.update_self]
      · have hname : ¬ k.name = entry.1.name := fun h => hk (SettingKey.name_injective h)
        rw [if_neg hname, Function.update_of_ne hk]
    show overriddenSettings U base (persistNormalized (rows.put entry.1.name entry.2) rest) = _
    rw [ih hrest, hone]
    rfl

end
end RapidInbox
