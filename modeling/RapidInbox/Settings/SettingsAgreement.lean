import RapidInbox.Settings.LiveSettings

/-!
# Agreement of the settings

Every step of the service is a step of the store with a copy and a published value, or changes none
of the three.  So whenever no call is in progress the live settings are the base settings overridden
by the rows, and the catch-all row and the routing snapshot follow from them, as if the calls had been
made one after another.
-/

namespace RapidInbox

section
variable (U : UnicodeOps) (base : Settings)

/-- Values are assigned to the settings. -/
def assignNormalized (settings : Settings) (normalized : List (SettingKey × Text)) : Settings :=
  applyLiveSettings settings (deserializeNormalized U base normalized)

/-- A request as one of the store. -/
def SettingsRequest.abstract :
    SettingsRequest → WriteBehind.Request (List (SettingKey × Text)) CatchAllPolicy
  | .persist normalized => .write normalized
  | .syncCatchAllPolicy policy => .publish policy

namespace SettingsState

/-- The rows stand for the store, the live settings are its copy and the catch-all row is what was
    published. -/
structure Refines (s : SettingsState)
    (t : WriteBehind.State Settings (List (SettingKey × Text)) CatchAllPolicy) : Prop where
  store : overriddenSettings U base s.systemSettings = t.store
  copy : s.settings = t.copy
  published : s.db.CatchAllAgrees t.published
  queue : s.queue.map SettingsRequest.abstract = t.queue
  results : s.results.map SettingsRequest.abstract = t.results

/-- The rows of the catch-all domain. -/
def catchAllRows (rows : List DomainRow) : List DomainRow :=
  rows.filter fun d => d.rootDomainAscii = catchAllRoot

/-- A reload is due, or the routing snapshot holds the catch-all row if it is active. -/
def RoutingCurrent (s : SettingsState) : Prop :=
  (∃ policy, .syncCatchAllPolicy policy ∈ s.queue ++ s.results) ∨ 0 < s.reloading ∨
    catchAllRows s.routing = (catchAllRows s.db.domains).filter fun d => d.policy.isActive

/-- The invariant of the steps. -/
structure Sound (s : SettingsState) : Prop where
  normalized : ∀ normalized, .persist normalized ∈ s.queue ++ s.results → Normalized U normalized
  fallback : ∀ k, DecidedByRow U s.systemSettings k ∨ s.settings k = base k ∧
    ∀ normalized, .persist normalized ∈ s.results → k ∉ normalized.map Prod.fst
  snapshot : s.snapshot = s.settings
  routing : s.RoutingCurrent

end SettingsState
end

section
variable {U : UnicodeOps} {parseQueueMaxBytes : Int} {base : Settings} {rows : SettingRows} {db : Db}
  {s s' start : SettingsState} {action : SettingsAction} {actions : List SettingsAction}

namespace SettingsState

theorem Sound.liveFallsBack (hsound : s.Sound U base) :
    LiveFallsBack U base s.settings s.systemSettings :=
  fun k => (hsound.fallback k).imp_right And.left

/-- The catch-all rows are not touched. -/
theorem RoutingCurrent.congr (h : s.RoutingCurrent)
    (hrequests : ∀ policy, .syncCatchAllPolicy policy ∈ s.queue ++ s.results →
      .syncCatchAllPolicy policy ∈ s'.queue ++ s'.results)
    (hreloading : s.reloading ≤ s'.reloading) (hrouting : s'.routing = s.routing)
    (hrows : catchAllRows s'.db.domains = catchAllRows s.db.domains) : s'.RoutingCurrent := by
  rcases h with ⟨policy, hpolicy⟩ | hreload | hcurrent
  · exact .inl ⟨policy, hrequests policy hpolicy⟩
  · exact .inr (.inl (by omega))
  · refine .inr (.inr ?_)
    rw [hrouting, hrows, hcurrent]

theorem Sound.step (hsound : s.Sound U base) (h : settingsStep U parseQueueMaxBytes s action = some s') :
    s'.Sound U base := by
  cases action with
  | updateSettings payload =>
    simp only [settingsStep] at h
    split at h
    · cases h
      exact hsound
    · cases h
      exact hsound
    · rename_i normalized _ hprepare
      cases h
      refine ⟨?_, hsound.fallback, hsound.snapshot, ?_⟩
      · intro normalized' hmem
        simp only [List.append_assoc, List.singleton_append, List.mem_append, List.mem_cons] at hmem
        rcases hmem with hmem | hnew | hmem
        · exact hsound.normalized _ (List.mem_append_left _ hmem)
        · cases hnew
          exact prepareUpdate_normalized hprepare
        · exact hsound.normalized _ (List.mem_append_right _ hmem)
      · refine hsound.routing.congr ?_ (Nat.le_refl _) rfl rfl
        intro policy hmem
        simp only [List.mem_append] at hmem ⊢
        tauto
  | runRequest =>
    simp only [settingsStep] at h
    split at h
    · cases h
    · rename_i normalized rest hqueue
      cases h
      have hmoved : ∀ r, r ∈ rest ++ (s.results ++ [.persist normalized]) ↔
          r ∈ s.queue ++ s.results := by
        intro r
        rw [hqueue]
        simp only [List.mem_append, List.mem_cons, List.not_mem_nil, or_false]
        tauto
      have hvalid : Normalized U normalized := hsound.normalized _ (by simp [hqueue])
      refine ⟨fun n hn => hsound.normalized n ((hmoved _).mp hn), ?_, hsound.snapshot, ?_⟩
      · intro k
        by_cases hk : k ∈ normalized.map Prod.fst
        · exact .inl (decidedByRow_persistNormalized hvalid (.inr hk))
        · rcases hsound.fallback k with hdecided | ⟨hbase, hresults⟩
          · exact .inl (decidedByRow_persistNormalized hvalid (.inl hdecided))
          · refine .inr ⟨hbase, fun n hn => ?_⟩
            rcases List.mem_append.mp hn with hn | hn
            · exact hresults n hn
            · cases List.mem_singleton.mp hn
              exact hk
      · exact hsound.routing.congr (fun p hp => (hmoved _).mpr hp) (Nat.le_refl _) rfl rfl
    · rename_i policy rest hqueue
      split at h
      · cases h
      · cases h
        refine ⟨?_, ?_, hsound.snapshot, .inl ⟨policy, by simp⟩⟩
        · intro n hn
          apply hsound.normalized n
          simp only [List.mem_append, List.mem_singleton, reduceCtorEq, or_false] at hn
          rw [hqueue]
          simp only [List.mem_append, List.mem_cons]
          tauto
        · intro k
          refine (hsound.fallback k).imp_right (And.imp_right fun hresults n hn => ?_)
          simp only [List.mem_append, List.mem_singleton, reduceCtorEq, or_false] at hn
          exact hresults n hn
  | deliver =>
    simp only [settingsStep] at h
    split at h
    · cases h
    · rename_i normalized rest hresults
      split at h
      · cases h
      · rename_i policy _
        cases h
        refine ⟨?_, ?_, rfl, .inl ⟨policy, by simp⟩⟩
        · intro n hn
          apply hsound.normalized n
          simp only [List.append_assoc, List.singleton_append, List.mem_append, List.mem_cons,
            reduceCtorEq, false_or] at hn
          rw [hresults]
          simp only [List.mem_append, List.mem_cons]
          tauto
        · intro k
          refine (hsound.fallback k).imp_right fun ⟨hbase, hnot⟩ => ⟨?_, fun n hn => ?_⟩
          · have hkeys : k ∉ (deserializeNormalized U s.settings normalized).map Sigma.fst := by
              have hk := hnot normalized (by simp [hresults])
              simpa [deserializeNormalized, Function.comp_def] using hk
            exact (applyLiveSettings_of_notMem hkeys).trans hbase
          · exact hnot n (by simp [hresults, hn])
    · rename_i policy rest hresults
      cases h
      refine ⟨?_, ?_, hsound.snapshot, .inr (.inl (Nat.succ_pos _))⟩
      · intro n hn
        apply hsound.normalized n
        rw [hresults]
        simp only [List.mem_append, List.mem_cons] at hn ⊢
        tauto
      · intro k
        refine (hsound.fallback k).imp_right (And.imp_right fun hnot n hn => ?_)
        exact hnot n (by simp [hresults, hn])
  | reload =>
    simp only [settingsStep] at h
    split at h
    · cases h
    · cases h
      refine ⟨hsound.normalized, hsound.fallback, hsound.snapshot, .inr (.inr ?_)⟩
      unfold catchAllRows
      rw [List.filter_filter, List.filter_filter]
      exact congrArg (List.filter · _) (funext fun d => Bool.and_comm _ _)
  | finish =>
    simp only [settingsStep] at h
    split at h
    · cases h
    · cases h
      exact ⟨hsound.normalized, hsound.fallback, hsound.snapshot, hsound.routing⟩
  | otherTables db =>
    simp only [settingsStep] at h
    split at h
    · rename_i hrows
      cases h
      exact ⟨hsound.normalized, hsound.fallback, hsound.snapshot,
        hsound.routing.congr (fun _ hp => hp) (Nat.le_refl _) rfl hrows⟩
    · cases h
  | otherRow key value =>
    simp only [settingsStep] at h
    split at h
    · rename_i hkey
      cases h
      refine ⟨hsound.normalized, fun k => ?_, hsound.snapshot, hsound.routing⟩
      refine (hsound.fallback k).imp_left fun ⟨x, hx⟩ => ⟨x, fun base => ?_⟩
      rw [overriddenSettings_put hkey, hx]
    · cases h

theorem newUpdates_of_ok {payload : List (Text × SettingInput)} {normalized : List (SettingKey × Text)}
    (h : prepareUpdate U parseQueueMaxBytes s.settings payload = .ok normalized)
    (hne : normalized ≠ []) :
    newUpdates U parseQueueMaxBytes s (.updateSettings payload) = [normalized] := by
  rw [newUpdates, h]
  cases normalized with
  | nil => exact absurd rfl hne
  | cons entry rest => rfl

/-- A step of the service is a step of the store, or leaves it alone. -/
theorem Refines.step {ws : List (List (SettingKey × Text))}
    {t₀ t : WriteBehind.State Settings (List (SettingKey × Text)) CatchAllPolicy}
    (hsound : s.Sound U base) (href : s.Refines U base t)
    (hreach : WriteBehind.Reaches (assignNormalized U base) Settings.catchAllPolicy t₀ ws t)
    (h : settingsStep U parseQueueMaxBytes s action = some s') :
    ∃ t', s'.Refines U base t' ∧ WriteBehind.Reaches (assignNormalized U base)
      Settings.catchAllPolicy t₀ (ws ++ newUpdates U parseQueueMaxBytes s action) t' := by
  obtain ⟨hstore, hcopy, hpublished, hqueue, hresults⟩ := href
  cases action with
  | updateSettings payload =>
    simp only [settingsStep] at h
    split at h
    · rename_i hprepare
      cases h
      simp only [newUpdates, hprepare, List.append_nil]
      exact ⟨t, ⟨hstore, hcopy, hpublished, hqueue, hresults⟩, hreach⟩
    · rename_i hprepare
      cases h
      simp only [newUpdates, hprepare, List.append_nil]
      exact ⟨t, ⟨hstore, hcopy, hpublished, hqueue, hresults⟩, hreach⟩
    · rename_i normalized hne hprepare
      cases h
      have hnew := newUpdates_of_ok hprepare hne
      have hqueue' : (s.queue ++ [SettingsRequest.persist normalized]).map SettingsRequest.abstract =
          t.queue ++ [.write normalized] := by
        rw [List.map_append, hqueue]
        rfl
      rw [hnew]
      refine ⟨_, ?_, .submit normalized hreach⟩
      exact ⟨hstore, hcopy, hpublished, hqueue', hresults⟩
  | runRequest =>
    simp only [newUpdates, List.append_nil]
    simp only [settingsStep] at h
    split at h
    · cases h
    · rename_i normalized rest hrest
      cases h
      rw [hrest] at hqueue
      refine ⟨_, ?_, .write hreach hqueue.symm⟩
      refine ⟨?_, hcopy, hpublished, rfl, ?_⟩
      · have hvalid : Normalized U normalized := hsound.normalized _ (by simp [hrest])
        rw [overriddenSettings_persistNormalized hvalid, hstore]
        rfl
      · simp [hresults, SettingsRequest.abstract]
    · rename_i policy rest hrest
      split at h
      · cases h
      · rename_i db hsync
        cases h
        rw [hrest] at hqueue
        refine ⟨_, ?_, .publish hreach hqueue.symm⟩
        refine ⟨hstore, hcopy, Db.syncCatchAllPolicy_agrees hsync, rfl, ?_⟩
        simp [hresults, SettingsRequest.abstract]
  | deliver =>
    simp only [newUpdates, List.append_nil]
    have hafter : s'.Sound U base := hsound.step h
    simp only [settingsStep] at h
    split at h
    · cases h
    · rename_i normalized rest hrest
      split at h
      · cases h
      · rename_i policy hpolicy
        cases h
        rw [hrest] at hresults
        have hvalid : Normalized U normalized := hsound.normalized _ (by simp [hrest])
        rw [syncIngressPolicy_eq hafter.liveFallsBack, hstore] at hpolicy
        cases hpolicy
        refine ⟨_, ?_, .written hreach hresults.symm⟩
        refine ⟨hstore, ?_, hpublished, ?_, rfl⟩
        · rw [hvalid.deserialize_eq s.settings base, hcopy]
          rfl
        · simp [hqueue, SettingsRequest.abstract]
    · rename_i policy rest hrest
      cases h
      rw [hrest] at hresults
      refine ⟨_, ?_, .told hreach hresults.symm⟩
      exact ⟨hstore, hcopy, hpublished, hqueue, rfl⟩
  | reload =>
    simp only [newUpdates, List.append_nil]
    simp only [settingsStep] at h
    split at h
    · cases h
    · cases h
      exact ⟨t, ⟨hstore, hcopy, hpublished, hqueue, hresults⟩, hreach⟩
  | finish =>
    simp only [newUpdates, List.append_nil]
    simp only [settingsStep] at h
    split at h
    · cases h
    · cases h
      exact ⟨t, ⟨hstore, hcopy, hpublished, hqueue, hresults⟩, hreach⟩
  | otherTables db =>
    simp only [newUpdates, List.append_nil]
    simp only [settingsStep] at h
    split at h
    · rename_i hrows
      cases h
      exact ⟨t, ⟨hstore, hcopy, hpublished.congr hrows, hqueue, hresults⟩, hreach⟩
    · cases h
  | otherRow key value =>
    simp only [newUpdates, List.append_nil]
    simp only [settingsStep] at h
    split at h
    · rename_i hkey
      cases h
      refine ⟨t, ⟨?_, hcopy, hpublished, hqueue, hresults⟩, hreach⟩
      rw [overriddenSettings_put hkey, hstore]
    · cases h

theorem Refines.run {ws : List (List (SettingKey × Text))}
    {t₀ t : WriteBehind.State Settings (List (SettingKey × Text)) CatchAllPolicy}
    (hsound : s.Sound U base) (href : s.Refines U base t)
    (hreach : WriteBehind.Reaches (assignNormalized U base) Settings.catchAllPolicy t₀ ws t)
    (h : Transition.run (settingsStep U parseQueueMaxBytes) s actions = some s') :
    s'.Sound U base ∧ ∃ t', s'.Refines U base t' ∧
      WriteBehind.Reaches (assignNormalized U base) Settings.catchAllPolicy t₀
        (ws ++ submittedUpdates U parseQueueMaxBytes s actions) t' := by
  induction actions generalizing s t ws with
  | nil =>
    cases h
    rw [submittedUpdates, List.append_nil]
    exact ⟨hsound, t, href, hreach⟩
  | cons action actions ih =>
    obtain ⟨s₁, hstep, hrest⟩ := Option.bind_eq_some_iff.mp h
    obtain ⟨t₁, href₁, hreach₁⟩ := href.step hsound hreach hstep
    have hafter := ih (hsound.step hstep) href₁ hreach₁ hrest
    rw [List.append_assoc] at hafter
    rw [submittedUpdates, hstep]
    exact hafter

end SettingsState

/-- The service after `load_persisted_settings` has read the rows. -/
theorem startSettings_ok (h : startSettings U parseQueueMaxBytes base rows db = .ok start) :
    start = {
      settings := overriddenSettings U base rows
      snapshot := overriddenSettings U base rows
      systemSettings := rows
      db := db
      queue := [.syncCatchAllPolicy (overriddenSettings U base rows).catchAllPolicy]
      results := []
      routing := []
      reloading := 0
      returning := 0 } := by
  have hfalls : LiveFallsBack U base (overriddenSettings U base rows) rows := by
    intro k
    exact (decidedByRow_or_base rows k).imp_right fun h => h base
  obtain ⟨-, -, h⟩ := Except.bind_ok_iff.mp h
  obtain ⟨policy, hpolicy, h⟩ := Except.bind_ok_iff.mp h
  rw [applyLiveSettings_loadPersistedSettings] at hpolicy h
  rw [syncIngressPolicy_eq hfalls] at hpolicy
  cases hpolicy
  cases h
  rfl

/-- Whenever no call is in progress the live snapshot is the base settings overridden by the rows, it
    is what the same updates give one after another in the order of their submission, and the
    catch-all row and the routing snapshot follow from it. -/
theorem settings_agree (hstart : startSettings U parseQueueMaxBytes base rows db = .ok start)
    (hrun : Transition.run (settingsStep U parseQueueMaxBytes) start actions = some s)
    (hidle : s.Idle) :
    s.getSettings = overriddenSettings U base s.systemSettings ∧
      s.getSettings = overriddenSettings U s.settings s.systemSettings ∧
      s.getSettings = (submittedUpdates U parseQueueMaxBytes start actions).foldl
        (assignNormalized U base) start.getSettings ∧
      s.db.CatchAllAgrees s.getSettings.catchAllPolicy ∧
      SettingsState.catchAllRows s.routing =
        (SettingsState.catchAllRows s.db.domains).filter fun d => d.policy.isActive := by
  obtain ⟨policy, hpolicy⟩ := db.exists_catchAllAgrees
  have hstarted := startSettings_ok hstart
  have hsound : start.Sound U base := by
    subst hstarted
    refine ⟨nofun, fun k => ?_, rfl, .inl ⟨_, List.mem_singleton_self _⟩⟩
    exact (decidedByRow_or_base rows k).imp_right fun h => ⟨h base, nofun⟩
  have hrefines : start.Refines U base
      ⟨overriddenSettings U base rows, overriddenSettings U base rows, policy,
        [.publish (overriddenSettings U base rows).catchAllPolicy], []⟩ := by
    subst hstarted
    exact ⟨rfl, rfl, hpolicy, rfl, rfl⟩
  have hcoherent : WriteBehind.State.Coherent (assignNormalized U base) Settings.catchAllPolicy
      ⟨overriddenSettings U base rows, overriddenSettings U base rows, policy,
        [.publish (overriddenSettings U base rows).catchAllPolicy], []⟩ := ⟨rfl, .inr rfl⟩
  obtain ⟨hsound', t, href, hreach⟩ := hrefines.run hsound .start hrun
  obtain ⟨hqueue, hresults, hreloading, -⟩ := hidle
  have hqueue' : t.queue = [] := by rw [← href.queue, hqueue]; rfl
  have hresults' : t.results = [] := by rw [← href.results, hresults]; rfl
  obtain ⟨hcopy, hpublished⟩ := hreach.settled hcoherent hqueue' hresults'
  have hlive : s.getSettings = overriddenSettings U base s.systemSettings := by
    calc s.snapshot = s.settings := hsound'.snapshot
      _ = t.copy := href.copy
      _ = t.store := hcopy
      _ = overriddenSettings U base s.systemSettings := href.store.symm
  refine ⟨hlive, ?_, ?_, ?_, ?_⟩
  · rw [hsound'.liveFallsBack.overridden_eq, hlive]
  · have horder := hreach.inOrder
    rw [hqueue'] at horder
    have hstart' : start.getSettings = overriddenSettings U base rows := by rw [hstarted]; rfl
    rw [hlive, href.store, hstart']
    exact horder
  · rw [hlive, href.store, ← hpublished]
    exact href.published
  · rcases hsound'.routing with ⟨policy, hmem⟩ | hreload | hcurrent
    · rw [hqueue, hresults] at hmem
      cases hmem
    · omega
    · exact hcurrent

/-- Two calls overlap: the second has committed when the first asks for its catch-all row. -/
def overlappingCalls : List SettingsAction :=
  [.updateSettings [("ingress_mode".toList, .text " Managed_Plus_Catchall".toList)],
    .updateSettings [("catch_all_retention_days".toList, .int 7)],
    .runRequest, .runRequest, .deliver, .deliver, .runRequest, .runRequest, .reload, .deliver, .deliver,
    .runRequest, .deliver, .reload, .finish, .reload, .finish, .finish]

theorem settings_agree_overlapping :
    ∃ start s,
      startSettings UnicodeOps.asciiOnly 536870912 defaultSettings OrderedDict.empty Db.empty =
          .ok start ∧
        Transition.run (settingsStep UnicodeOps.asciiOnly 536870912) start overlappingCalls = some s ∧
        s.Idle ∧ (s.db.domainByRoot? catchAllRoot).isSome = true ∧
        s.db.CatchAllAgrees s.getSettings.catchAllPolicy := by
  have hsettled : ∃ start s,
      startSettings UnicodeOps.asciiOnly 536870912 defaultSettings OrderedDict.empty Db.empty =
          .ok start ∧
        Transition.run (settingsStep UnicodeOps.asciiOnly 536870912) start overlappingCalls = some s ∧
        s.Idle ∧ (s.db.domainByRoot? catchAllRoot).isSome = true :=
    ⟨_, _, rfl, rfl, ⟨rfl, rfl, rfl, rfl⟩, rfl⟩
  obtain ⟨start, s, hstart, hrun, hidle, hrow⟩ := hsettled
  exact ⟨start, s, hstart, hrun, hidle, hrow, (settings_agree hstart hrun hidle).2.2.2.1⟩

end
end RapidInbox
