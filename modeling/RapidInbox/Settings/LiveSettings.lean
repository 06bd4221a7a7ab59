import RapidInbox.Lib.Run
import RapidInbox.Lib.WriteBehind
import RapidInbox.Settings.SettingValues
import RapidInbox.Store.Promotion

/-!
# Live settings

`SettingsService` (`app/services/settings.py:82-162` and `303-312`) on one event loop.  A call of
`update_settings` persists the values it was sent, assigns them to the live settings, reads the rows
again and asks for the catch-all row that follows from them (`app/services/domains.py:978-1068`); it
is suspended while each of its two writer requests is under way and during the reload of the routing
snapshot.  Calls may be interleaved at these points.  The service refines a store with a copy and a
published value: the rows, the live settings and the catch-all row.
-/

namespace RapidInbox

/-- The arguments of `sync_catch_all_policy`. -/
structure CatchAllPolicy where
  enabled : Bool
  publicWebEnabled : Bool
  publicApiEnabled : Bool
  retentionDays : Option Int
  maxMessageSizeBytes : Int
  deriving DecidableEq, Repr

/-- The policy that follows from the settings. -/
def Settings.catchAllPolicy (settings : Settings) : CatchAllPolicy where
  enabled :=
    let mode : IngressMode := settings .ingressMode
    decide (mode = .managedPlusCatchall)
  publicWebEnabled := settings .catchAllPublicWebEnabled
  publicApiEnabled := settings .catchAllPublicApiEnabled
  retentionDays :=
    if (settings .catchAllRetentionDays).val = 0 then none else some (settings .catchAllRetentionDays).val
  maxMessageSizeBytes := (settings .maxMessageSizeBytes).val

/-- `DomainService._coerce_positive_int` of an integer. -/
def DomainService.coercePositiveInt (maximum : Int) (field : Text) (value : Int) : Except Text Int :=
  if value < 1 then .error ("invalid ".toList ++ field)
  else if value > maximum then .error ("invalid ".toList ++ field)
  else .ok value

/-- `DomainService._coerce_nullable_positive_int`. -/
def DomainService.coerceNullablePositiveInt (maximum : Int) (field : Text) :
    Option Int → Except Text (Option Int)
  | none => .ok none
  | some value => (coercePositiveInt maximum field value).map some

/-- `sync_catch_all_policy` up to its write: the checks of the two numbers. -/
def CatchAllPolicy.validate (policy : CatchAllPolicy) : Except Text CatchAllPolicy := do
  let retentionDays ← DomainService.coerceNullablePositiveInt maxRetentionDays
    "retention_days".toList policy.retentionDays
  let maxMessageSizeBytes ← DomainService.coercePositiveInt maxMessageSizeLimitBytes
    "max_message_size_bytes".toList policy.maxMessageSizeBytes
  return { policy with retentionDays := retentionDays, maxMessageSizeBytes := maxMessageSizeBytes }

theorem DomainService.coercePositiveInt_ok {maximum : Int} {field : Text} {value : Int}
    (h : 1 ≤ value ∧ value ≤ maximum) : coercePositiveInt maximum field value = .ok value := by
  rw [coercePositiveInt, if_neg (by omega), if_neg (by omega)]

/-- Settings within their bounds give a policy that passes the checks. -/
theorem Settings.catchAllPolicy_validate (settings : Settings) :
    settings.catchAllPolicy.validate = .ok settings.catchAllPolicy := by
  have hsize : DomainService.coercePositiveInt maxMessageSizeLimitBytes "max_message_size_bytes".toList
      settings.catchAllPolicy.maxMessageSizeBytes = .ok settings.catchAllPolicy.maxMessageSizeBytes :=
    DomainService.coercePositiveInt_ok (settings .maxMessageSizeBytes).property
  have hretention : DomainService.coerceNullablePositiveInt maxRetentionDays "retention_days".toList
      settings.catchAllPolicy.retentionDays = .ok settings.catchAllPolicy.retentionDays := by
    have hbounds := (settings .catchAllRetentionDays).property
    by_cases hzero : (settings .catchAllRetentionDays).val = 0
    · have hnone : settings.catchAllPolicy.retentionDays = none := if_pos hzero
      rw [hnone]
      rfl
    · have hsome : settings.catchAllPolicy.retentionDays =
          some (settings .catchAllRetentionDays).val := if_neg hzero
      have hvalue : DomainService.coercePositiveInt maxRetentionDays "retention_days".toList
          (settings .catchAllRetentionDays).val = .ok (settings .catchAllRetentionDays).val :=
        DomainService.coercePositiveInt_ok ⟨by omega, hbounds.2⟩
      rw [hsome, DomainService.coerceNullablePositiveInt, hvalue]
      rfl
  rw [CatchAllPolicy.validate, hretention, Except.ok_bind, hsize, Except.ok_bind]
  rfl

/-- The catch-all row, if it exists, follows a policy; it exists if the policy is enabled. -/
def Db.CatchAllAgrees (db : Db) (policy : CatchAllPolicy) : Prop :=
  match db.domainByRoot? catchAllRoot with
  | none => policy.enabled = false
  | some row =>
    row.policy.isActive = policy.enabled ∧
      row.policy.publicWebEnabled = policy.publicWebEnabled ∧
      row.policy.publicApiEnabled = policy.publicApiEnabled ∧
      row.policy.retentionDays = policy.retentionDays ∧
      row.policy.maxMessageSizeBytes = policy.maxMessageSizeBytes

/-- A request to the writer. -/
inductive SettingsRequest where
  | persist (normalized : List (SettingKey × Text))
  | syncCatchAllPolicy (policy : CatchAllPolicy)

/-- The service, the rows it works on and the calls in progress. -/
structure SettingsState where
  /-- `runtime.settings`, the supported ones. -/
  settings : Settings
  /-- `_settings_snapshot`. -/
  snapshot : Settings
  /-- The rows of `system_settings`. -/
  systemSettings : SettingRows
  /-- The other tables. -/
  db : Db
  /-- The requests that the writer has not run yet. -/
  queue : List SettingsRequest
  /-- The requests whose results have not been delivered yet. -/
  results : List SettingsRequest
  /-- The active rows of `_routing_snapshot`. -/
  routing : List DomainRow
  /-- The calls that are about to reload the routing snapshot. -/
  reloading : Nat
  /-- The calls that have reloaded it and have not returned. -/
  returning : Nat

/-- What may happen next. -/
inductive SettingsAction where
  /-- A call of `update_settings` runs up to its first suspension. -/
  | updateSettings (payload : List (Text × SettingInput))
  /-- The writer runs the oldest request. -/
  | runRequest
  /-- The oldest result is delivered and its call runs up to its next suspension. -/
  | deliver
  /-- A call reloads the routing snapshot. -/
  | reload
  /-- A call returns. -/
  | finish
  /-- Some other transaction, which leaves the catch-all row alone. -/
  | otherTables (db : Db)
  /-- Some other service writes a row of `system_settings` that is not one of the settings. -/
  | otherRow (key value : Text)

namespace SettingsState

/-- `get_settings`. -/
def getSettings (s : SettingsState) : Settings := s.snapshot

/-- No call is in progress. -/
def Idle (s : SettingsState) : Prop :=
  s.queue = [] ∧ s.results = [] ∧ s.reloading = 0 ∧ s.returning = 0

end SettingsState

section
variable (U : UnicodeOps) (parseQueueMaxBytes : Int)

/-- `_sync_ingress_policy` up to its suspension: the rows are read again over the live settings. -/
def syncIngressPolicy (settings : Settings) (rows : SettingRows) : Except Text CatchAllPolicy :=
  (applyLiveSettings settings (loadPersistedSettings U settings rows)).catchAllPolicy.validate

/-- `load_persisted_settings` up to its suspension. -/
def startSettings (base : Settings) (rows : SettingRows) (db : Db) : Except Text SettingsState := do
  let loaded := loadPersistedSettings U base rows
  validateParseQueueBudget parseQueueMaxBytes base loaded
  let live := applyLiveSettings base loaded
  let policy ← syncIngressPolicy U live rows
  return {
    settings := live
    snapshot := live
    systemSettings := rows
    db := db
    queue := [.syncCatchAllPolicy policy]
    results := []
    routing := []
    reloading := 0
    returning := 0 }

/-- One step; undefined where it is not possible or a call would fail. -/
def settingsStep (s : SettingsState) : SettingsAction → Option SettingsState
  | .updateSettings payload =>
    match prepareUpdate U parseQueueMaxBytes s.settings payload with
    | .error _ => some s
    | .ok [] => some s
    | .ok normalized => some { s with queue := s.queue ++ [.persist normalized] }
  | .runRequest =>
    match s.queue with
    | [] => none
    | .persist normalized :: rest =>
      some { s with
        systemSettings := persistNormalized s.systemSettings normalized
        queue := rest
        results := s.results ++ [.persist normalized] }
    | .syncCatchAllPolicy policy :: rest =>
      match s.db.syncCatchAllPolicy policy.enabled policy.publicWebEnabled
          policy.publicApiEnabled policy.retentionDays policy.maxMessageSizeBytes with
      | .error _ => none
      | .ok db =>
        some { s with
          db := db
          queue := rest
          results := s.results ++ [.syncCatchAllPolicy policy] }
  | .deliver =>
    match s.results with
    | [] => none
    | .persist normalized :: rest =>
      let live := applyLiveSettings s.settings (deserializeNormalized U s.settings normalized)
      match syncIngressPolicy U live s.systemSettings with
      | .error _ => none
      | .ok policy =>
        some { s with
          settings := live
          snapshot := live
          results := rest
          queue := s.queue ++ [.syncCatchAllPolicy policy] }
    | .syncCatchAllPolicy _ :: rest =>
      some { s with results := rest, reloading := s.reloading + 1 }
  | .reload =>
    if s.reloading = 0 then none
    else
      some { s with
        routing := s.db.domains.filter fun d => d.policy.isActive
        reloading := s.reloading - 1
        returning := s.returning + 1 }
  | .finish =>
    if s.returning = 0 then none else some { s with returning := s.returning - 1 }
  | .otherTables db =>
    if db.domains.filter (fun d => d.rootDomainAscii = catchAllRoot) =
        s.db.domains.filter (fun d => d.rootDomainAscii = catchAllRoot) then
      some { s with db := db }
    else none
  | .otherRow key value =>
    if SettingKey.ofName? key = none then
      some { s with systemSettings := s.systemSettings.put key value }
    else none

/-- The update that a step submits. -/
def newUpdates (s : SettingsState) : SettingsAction → List (List (SettingKey × Text))
  | .updateSettings payload =>
    match prepareUpdate U parseQueueMaxBytes s.settings payload with
    | .error _ => []
    | .ok [] => []
    | .ok normalized => [normalized]
  | _ => []

/-- The updates that the calls of a run submit, in order. -/
def submittedUpdates : SettingsState → List SettingsAction → List (List (SettingKey × Text))
  | _, [] => []
  | s, action :: actions =>
    newUpdates U parseQueueMaxBytes s action ++
      match settingsStep U parseQueueMaxBytes s action with
      | none => []
      | some s' => submittedUpdates s' actions

end

/-! ## The catch-all row -/

namespace Db

variable {db db' : Db} {policy : CatchAllPolicy}

theorem domainByRoot?_eq_head? (db : Db) (root : Text) :
    db.domainByRoot? root = (db.domains.filter fun d => d.rootDomainAscii = root).head? :=
  (List.head?_filter ..).symm

/-- After it is written the row follows the policy that was asked for. -/
theorem syncCatchAllPolicy_agrees
    (h : db.syncCatchAllPolicy policy.enabled policy.publicWebEnabled policy.publicApiEnabled
      policy.retentionDays policy.maxMessageSizeBytes = .ok db') : db'.CatchAllAgrees policy := by
  unfold syncCatchAllPolicy at h
  split at h
  · rename_i hnone
    split at h
    · rename_i hdisabled
      cases h
      rw [CatchAllAgrees, hnone]
      simpa using hdisabled
    · split at h
      · cases h
      · rename_i hins
        cases h
        unfold insertDomain at hins
        simp only [hnone, Option.isSome_none, Bool.false_eq_true, if_false] at hins
        split at hins
        · cases hins
        · cases hins
          unfold domainByRoot? at hnone
          unfold CatchAllAgrees domainByRoot?
          rw [List.find?_append, hnone]
          simp [catchAllPolicy]
  · rename_i row hrow
    cases h
    have hfound : ({ db with
        domains := Table.updateWhere (fun d => d.id = row.id)
          (fun d => { d with
            policy := catchAllPolicy policy.enabled policy.publicWebEnabled policy.publicApiEnabled
              policy.retentionDays policy.maxMessageSizeBytes d.policy }) db.domains } :
        Db).domainByRoot? catchAllRoot = some { row with
          policy := catchAllPolicy policy.enabled policy.publicWebEnabled policy.publicApiEnabled
            policy.retentionDays policy.maxMessageSizeBytes row.policy } := by
      unfold domainByRoot? at hrow ⊢
      rw [Table.updateWhere, List.find?_map]
      have hroot : ((fun d : DomainRow => decide (d.rootDomainAscii = catchAllRoot)) ∘
          fun d : DomainRow => if decide (d.id = row.id) = true then { d with
            policy := catchAllPolicy policy.enabled policy.publicWebEnabled policy.publicApiEnabled
              policy.retentionDays policy.maxMessageSizeBytes d.policy } else d) =
          fun d : DomainRow => decide (d.rootDomainAscii = catchAllRoot) := by
        funext d
        rw [Function.comp_apply]
        split <;> rfl
      rw [hroot, hrow]
      simp
    rw [CatchAllAgrees, hfound]
    exact ⟨rfl, rfl, rfl, rfl, rfl⟩

/-- Every catch-all row, and none, follows some policy. -/
theorem exists_catchAllAgrees (db : Db) : ∃ policy, db.CatchAllAgrees policy := by
  cases h : db.domainByRoot? catchAllRoot with
  | none =>
    refine ⟨⟨false, false, false, none, 0⟩, ?_⟩
    rw [CatchAllAgrees, h]
  | some row =>
    refine ⟨⟨row.policy.isActive, row.policy.publicWebEnabled, row.policy.publicApiEnabled,
      row.policy.retentionDays, row.policy.maxMessageSizeBytes⟩, ?_⟩
    rw [CatchAllAgrees, h]
    exact ⟨rfl, rfl, rfl, rfl, rfl⟩

theorem CatchAllAgrees.congr (h : db.CatchAllAgrees policy)
    (hrows : db'.domains.filter (fun d => d.rootDomainAscii = catchAllRoot) =
      db.domains.filter (fun d => d.rootDomainAscii = catchAllRoot)) : db'.CatchAllAgrees policy := by
  have hrow : db'.domainByRoot? catchAllRoot = db.domainByRoot? catchAllRoot := by
    rw [domainByRoot?_eq_head?, domainByRoot?_eq_head?, hrows]
  unfold CatchAllAgrees at h ⊢
  rw [hrow]
  exact h

end Db

/-! ## The rows read again -/

section
variable {U : UnicodeOps} {parseQueueMaxBytes : Int} {base live : Settings} {rows : SettingRows}

/-- The row of a setting that holds a valid value decides the setting. -/
def DecidedByRow (U : UnicodeOps) (rows : SettingRows) (k : SettingKey) : Prop :=
  ∃ x, ∀ base, overriddenSettings U base rows k = x

/-- A row that is missing or not valid leaves the base setting. -/
theorem decidedByRow_or_base (rows : SettingRows) (k : SettingKey) :
    DecidedByRow U rows k ∨ ∀ base, overriddenSettings U base rows k = base k := by
  unfold DecidedByRow overriddenSettings
  cases rows.get? k.name with
  | none => exact .inr fun _ => rfl
  | some value =>
    simp only [deserializeValue]
    cases k.kind.coerce U k.name (.text value) with
    | ok x => exact .inl ⟨x, fun _ => rfl⟩
    | error e => exact .inr fun _ => rfl

/-- The live settings are only read for settings that no row decides; there they are the base. -/
def LiveFallsBack (U : UnicodeOps) (base live : Settings) (rows : SettingRows) : Prop :=
  ∀ k, DecidedByRow U rows k ∨ live k = base k

theorem LiveFallsBack.overridden_eq (h : LiveFallsBack U base live rows) :
    overriddenSettings U live rows = overriddenSettings U base rows := by
  funext k
  rcases h k with ⟨x, hx⟩ | hk
  · rw [hx live, hx base]
  · unfold overriddenSettings
    cases rows.get? k.name with
    | none => exact hk
    | some value =>
      simp only [deserializeValue]
      rw [hk]

theorem syncIngressPolicy_eq (h : LiveFallsBack U base live rows) :
    syncIngressPolicy U live rows = .ok (overriddenSettings U base rows).catchAllPolicy := by
  rw [syncIngressPolicy, applyLiveSettings_loadPersistedSettings, h.overridden_eq,
    Settings.catchAllPolicy_validate]

theorem decidedByRow_persistNormalized {normalized : List (SettingKey × Text)}
    (hnormalized : Normalized U normalized) {k : SettingKey}
    (h : DecidedByRow U rows k ∨ k ∈ normalized.map Prod.fst) :
    DecidedByRow U (persistNormalized rows normalized) k := by
  induction normalized generalizing rows with
  | nil => exact h.resolve_right nofun
  | cons entry rest ih =>
    obtain ⟨⟨x, hx⟩, hrest⟩ := List.forall_mem_cons.mp hnormalized
    apply ih hrest
    by_cases hk : k = entry.1
    · subst hk
      refine .inl ⟨x, fun base => ?_⟩
      simp [overriddenSettings, OrderedDict.get?_put, hx]
    · have hname : ¬ k.name = entry.1.name := fun h => hk (SettingKey.name_injective h)
      refine h.imp ?_ ?_
      · rintro ⟨y, hy⟩
        refine ⟨y, fun base => ?_⟩
        rw [← hy base]
        simp [overriddenSettings, OrderedDict.get?_put, hname]
      · intro hmem
        exact (List.mem_cons.mp hmem).resolve_left hk

/-- A row that is not a setting is not read. -/
theorem overriddenSettings_put {key : Text} (hkey : SettingKey.ofName? key = none) (base : Settings)
    (rows : SettingRows) (value : Text) :
    overriddenSettings U base (rows.put key value) = overriddenSettings U base rows := by
  funext k
  have hname : ¬ k.name = key := by
    rintro rfl
    rw [SettingKey.ofName?_name] at hkey
    cases hkey
  simp [overriddenSettings, OrderedDict.get?_put, hname]

end
end RapidInbox
