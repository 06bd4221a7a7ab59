import RapidInbox.Auth.KeyCache
import RapidInbox.Auth.KeyManagement

/-!
# The cache holds nothing a returned invalidation has outdated

A loader reads the generation before the database.  While the generation stands, no invalidation has
returned since, so what the loader read is at least as new as every mutation that has been
invalidated; once it moves on, the loader publishes nothing.
-/

namespace RapidInbox

/-- At least as new as the invalidated mutations of a key. -/
def FreshFor (invalidated : List KeyMutation) (apiKeyId : Option Nat) (version : Nat) : Prop :=
  ∀ m ∈ invalidated, apiKeyId = some m.apiKeyId → m.version ≤ version

/-- The generation a loader read is not from the future; while it stands, what the loader read is at
    least as new as every invalidated mutation. -/
structure LoadIsFresh (invalidated : List KeyMutation) (cacheEpoch epoch version : Nat) : Prop where
  epoch_le : epoch ≤ cacheEpoch
  fresh : epoch = cacheEpoch → ∀ m ∈ invalidated, m.version ≤ version

/-- What holds of a thread between two of its steps. -/
def CacheThread.Sound (invalidated : List KeyMutation) (commits cacheEpoch : Nat) : CacheThread → Prop
  | .selectKey _ _ _ epoch => epoch ≤ cacheEpoch
  | .selectScopes _ _ _ epoch version _ => LoadIsFresh invalidated cacheEpoch epoch version
  | .selectDomains _ _ _ epoch version _ _ => LoadIsFresh invalidated cacheEpoch epoch version
  | .selectMailboxes _ _ _ epoch version _ _ _ => LoadIsFresh invalidated cacheEpoch epoch version
  | .publish _ _ now epoch record =>
    LoadIsFresh invalidated cacheEpoch epoch record.version ∧ record.began = now
  | .selectPolicy _ epoch => epoch ≤ cacheEpoch
  | .storePolicy _ epoch policy => LoadIsFresh invalidated cacheEpoch epoch policy.version
  | .invalidate _ version => version ≤ commits
  | _ => True

/-- The entries of the cache. -/
structure KeyCache.Sound (c : KeyCache) (invalidated : List KeyMutation) : Prop where
  records : ∀ key expiresAt record, (key, expiresAt, record) ∈ c.authCache.entries →
    expiresAt = record.began + authCacheTtl ∧
      FreshFor invalidated record.value.context.apiKeyId record.version
  policies : ∀ apiKeyId expiresAt policy, (apiKeyId, expiresAt, policy) ∈ c.usagePolicyCache.entries →
    FreshFor invalidated (some apiKeyId) policy.version

structure CacheSystem.Sound (s : CacheSystem) : Prop where
  versions : ∀ m ∈ s.invalidated, m.version ≤ s.commits
  cache : s.cache.Sound s.invalidated
  threads : ∀ i, (s.threads i).Sound s.invalidated s.commits s.cache.epoch

/-! ## The sections -/

namespace KeyCache

variable {c : KeyCache} {invalidated : List KeyMutation}

theorem Sound.cachedAuthenticationRecord (h : c.Sound invalidated) (kind : ApiKeyKind)
    (keyPrefix : Text) (now : Int) :
    (c.cachedAuthenticationRecord kind keyPrefix now).2.Sound invalidated := by
  unfold KeyCache.cachedAuthenticationRecord
  split
  · exact h
  · split
    · exact ⟨fun _ _ _ hmem => h.records _ _ _ (OrderedDict.mem_of_mem_moveToEnd hmem), h.policies⟩
    · exact ⟨fun _ _ _ hmem => h.records _ _ _ (OrderedDict.mem_pop.mp hmem).1, h.policies⟩

theorem Sound.cachedUsagePolicy (h : c.Sound invalidated) (apiKeyId : Nat) (now : Int) :
    (c.cachedUsagePolicy apiKeyId now).2.Sound invalidated := by
  unfold KeyCache.cachedUsagePolicy
  split
  · exact h
  · split
    · exact ⟨h.records, fun _ _ _ hmem => h.policies _ _ _ (OrderedDict.mem_pop.mp hmem).1⟩
    · exact ⟨h.records, fun _ _ _ hmem => h.policies _ _ _ (OrderedDict.mem_of_mem_moveToEnd hmem)⟩

theorem Sound.putUsagePolicy (h : c.Sound invalidated) {apiKeyId : Nat} {expiresAt : Int}
    {policy : Loaded UsagePolicy} (hfresh : FreshFor invalidated (some apiKeyId) policy.version) :
    (c.putUsagePolicy apiKeyId expiresAt policy).Sound invalidated := by
  refine ⟨h.records, ?_⟩
  intro id expires p hmem
  simp only [KeyCache.putUsagePolicy] at hmem
  rcases OrderedDict.mem_put.mp (OrderedDict.mem_of_mem_trim hmem) with ⟨hold, -⟩ | ⟨rfl, hnew⟩
  · exact h.policies _ _ _ hold
  · cases hnew
    exact hfresh

theorem Sound.putRecord (h : c.Sound invalidated) {kind : ApiKeyKind} {keyPrefix : Text}
    {expiresAt : Int} {record : Loaded AuthenticationRecord}
    (hexpires : expiresAt = record.began + authCacheTtl)
    (hfresh : FreshFor invalidated record.value.context.apiKeyId record.version) :
    (c.putRecord kind keyPrefix expiresAt record).Sound invalidated := by
  unfold KeyCache.putRecord
  split
  · refine ⟨?_, h.policies⟩
    intro key expires r hmem
    rcases OrderedDict.mem_put.mp (OrderedDict.mem_of_mem_trim hmem) with ⟨hold, -⟩ | ⟨-, hnew⟩
    · exact h.records _ _ _ hold
    · cases hnew
      exact ⟨hexpires, hfresh⟩
  · exact h

theorem Sound.dropExpiredPolicies (h : c.Sound invalidated) (now : Int) :
    (c.dropExpiredPolicies now).Sound invalidated :=
  ⟨h.records, fun _ _ _ hmem => h.policies _ _ _ (OrderedDict.mem_keep.mp hmem).1⟩

@[simp] theorem putRecord_epoch (kind : ApiKeyKind) (keyPrefix : Text) (expiresAt : Int)
    (record : Loaded AuthenticationRecord) :
    (c.putRecord kind keyPrefix expiresAt record).epoch = c.epoch := by
  unfold KeyCache.putRecord
  split <;> rfl

/-- A record is published only while the generation its loader read stands. -/
theorem Sound.publishRecord (h : c.Sound invalidated) {kind : ApiKeyKind} {keyPrefix : Text}
    {epoch : Nat} {now : Int} {record : Loaded AuthenticationRecord}
    (hload : LoadIsFresh invalidated c.epoch epoch record.version) (hbegan : record.began = now) :
    (c.publishRecord kind keyPrefix epoch now record).Sound invalidated := by
  unfold KeyCache.publishRecord
  by_cases hepoch : epoch = c.epoch
  · have hfresh : ∀ id, FreshFor invalidated id record.version := fun _ m hm _ => hload.fresh hepoch m hm
    have hexpires : now + authCacheTtl = record.began + authCacheTtl := by rw [hbegan]
    have hrecord : ((c.putRecord kind keyPrefix (now + authCacheTtl) record).dropExpiredPolicies
        now).Sound invalidated := (h.putRecord hexpires (hfresh _)).dropExpiredPolicies now
    simp only [hepoch, ne_eq, not_true_eq_false, if_false]
    split
    · exact hrecord
    · exact hrecord.putUsagePolicy (hfresh _)
  · simpa [hepoch] using h

theorem Sound.storeUsagePolicy (h : c.Sound invalidated) {apiKeyId epoch : Nat} {now : Int}
    {policy : Loaded UsagePolicy} (hload : LoadIsFresh invalidated c.epoch epoch policy.version) :
    (c.storeUsagePolicy apiKeyId policy epoch now).Sound invalidated := by
  unfold KeyCache.storeUsagePolicy
  by_cases hepoch : epoch = c.epoch
  · simp only [hepoch, ne_eq, not_true_eq_false, if_false]
    exact h.putUsagePolicy fun m hm _ => hload.fresh hepoch m hm
  · simpa [hepoch] using h

/-- An invalidation leaves no entry of the key, under whatever prefix. -/
theorem Sound.invalidateKeyCache (h : c.Sound invalidated) (m : KeyMutation) :
    (c.invalidateKeyCache m.apiKeyId).Sound (m :: invalidated) := by
  constructor
  · intro key expires record hmem
    obtain ⟨hold, hother⟩ := OrderedDict.mem_keep.mp hmem
    obtain ⟨hexpires, hfresh⟩ := h.records _ _ _ hold
    refine ⟨hexpires, ?_⟩
    intro m' hm' hid
    rcases List.mem_cons.mp hm' with rfl | hm'
    · exact absurd hid (of_decide_eq_true hother)
    · exact hfresh m' hm' hid
  · intro id expires policy hmem
    obtain ⟨hold, hother⟩ := OrderedDict.mem_pop.mp hmem
    intro m' hm' hid
    rcases List.mem_cons.mp hm' with rfl | hm'
    · exact absurd (Option.some.inj hid) hother
    · exact h.policies _ _ _ hold m' hm' hid

@[simp] theorem cachedAuthenticationRecord_epoch (kind : ApiKeyKind) (keyPrefix : Text)
    (now : Int) : (c.cachedAuthenticationRecord kind keyPrefix now).2.epoch = c.epoch := by
  unfold KeyCache.cachedAuthenticationRecord
  split
  · rfl
  · split <;> rfl

@[simp] theorem cachedUsagePolicy_epoch (apiKeyId : Nat) (now : Int) :
    (c.cachedUsagePolicy apiKeyId now).2.epoch = c.epoch := by
  unfold KeyCache.cachedUsagePolicy
  split
  · rfl
  · split <;> rfl

@[simp] theorem publishRecord_epoch (kind : ApiKeyKind) (keyPrefix : Text) (epoch : Nat)
    (now : Int) (record : Loaded AuthenticationRecord) :
    (c.publishRecord kind keyPrefix epoch now record).epoch = c.epoch := by
  unfold KeyCache.publishRecord
  split
  · rfl
  · dsimp only
    split <;> simp [KeyCache.putUsagePolicy, KeyCache.dropExpiredPolicies]

@[simp] theorem storeUsagePolicy_epoch (apiKeyId epoch : Nat) (now : Int)
    (policy : Loaded UsagePolicy) : (c.storeUsagePolicy apiKeyId policy epoch now).epoch = c.epoch := by
  unfold KeyCache.storeUsagePolicy
  split
  · rfl
  · simp only [KeyCache.putUsagePolicy]

end KeyCache

/-! ## Steps and runs -/

section Steps

variable {s s' : CacheSystem} {E : StdText} {i : Nat} {t : CacheThread}

theorem CacheThread.Sound.of_commit {invalidated : List KeyMutation} {commits epoch : Nat}
    (h : t.Sound invalidated commits epoch) : t.Sound invalidated (commits + 1) epoch := by
  cases t <;> first | exact h | exact Nat.le_succ_of_le h

theorem LoadIsFresh.of_invalidate {invalidated : List KeyMutation} {cacheEpoch epoch version : Nat}
    (h : LoadIsFresh invalidated cacheEpoch epoch version) (m : KeyMutation) :
    LoadIsFresh (m :: invalidated) (cacheEpoch + 1) epoch version := by
  refine ⟨Nat.le_succ_of_le h.epoch_le, ?_⟩
  intro heq
  have := h.epoch_le
  omega

/-- When the generation moves on, no loader that has read it can publish. -/
theorem CacheThread.Sound.of_invalidate {invalidated : List KeyMutation} {commits epoch : Nat}
    (h : t.Sound invalidated commits epoch) (m : KeyMutation) :
    t.Sound (m :: invalidated) commits (epoch + 1) := by
  cases t with
  | selectKey => exact Nat.le_succ_of_le h
  | selectScopes => exact LoadIsFresh.of_invalidate h m
  | selectDomains => exact LoadIsFresh.of_invalidate h m
  | selectMailboxes => exact LoadIsFresh.of_invalidate h m
  | publish => exact ⟨LoadIsFresh.of_invalidate h.1 m, h.2⟩
  | selectPolicy => exact Nat.le_succ_of_le h
  | storePolicy => exact LoadIsFresh.of_invalidate h m
  | _ => exact h

theorem CacheSystem.Sound.update (h : s.Sound) (ht : t.Sound s.invalidated s.commits s.cache.epoch)
    (j : Nat) : (Function.update s.threads i t j).Sound s.invalidated s.commits s.cache.epoch := by
  by_cases hj : j = i
  · subst hj
    rwa [Function.update_self]
  · rw [Function.update_of_ne hj]
    exact h.threads j

theorem CacheSystem.Sound.goto (h : s.Sound) (ht : t.Sound s.invalidated s.commits s.cache.epoch) :
    (s.goto i t).Sound :=
  ⟨h.versions, h.cache, h.update ht⟩

theorem CacheSystem.Sound.leaveLock (h : s.Sound) {cache : KeyCache} (hcache : cache.Sound s.invalidated)
    (hepoch : cache.epoch = s.cache.epoch) (ht : t.Sound s.invalidated s.commits s.cache.epoch) :
    (s.leaveLock i cache t).Sound := by
  refine ⟨h.versions, hcache, ?_⟩
  intro j
  show (Function.update s.threads i t j).Sound s.invalidated s.commits cache.epoch
  rw [hepoch]
  exact h.update ht j

theorem CacheSystem.Sound.begin (h : s.Sound) (ht : t.Sound s.invalidated s.commits s.cache.epoch)
    (hstep : s.begin i t = some s') : s'.Sound := by
  unfold CacheSystem.begin at hstep
  split at hstep
  · cases hstep
    exact h.goto ht
  · cases hstep

theorem CacheSystem.Sound.commit (h : s.Sound) (db : AuthDb) :
    ({ s with db, commits := s.commits + 1 } : CacheSystem).Sound :=
  ⟨fun m hm => Nat.le_succ_of_le (h.versions m hm), h.cache, fun j => (h.threads j).of_commit⟩

theorem CacheSystem.Sound.advance (h : s.Sound) (hstep : s.advance E i = some s') : s'.Sound := by
  have hi := h.threads i
  unfold CacheSystem.advance at hstep
  cases ht : s.threads i with
  | idle => simp [ht] at hstep
  | lookup kind keyPrefix load now =>
    simp only [ht] at hstep
    cases hstep
    refine h.leaveLock (h.cache.cachedAuthenticationRecord ..) (by simp) ?_
    split <;> trivial
  | recordClock kind keyPrefix =>
    simp only [ht] at hstep
    cases hstep
    exact h.goto trivial
  | recordEpoch kind keyPrefix now =>
    simp only [ht] at hstep
    cases hstep
    exact h.goto (Nat.le_refl s.cache.epoch)
  | selectKey kind keyPrefix now epoch =>
    simp only [ht] at hstep hi
    split at hstep
    · cases hstep
      exact h.goto trivial
    · cases hstep
      -- the first statement reads the database as of now
      exact h.goto (⟨hi, fun _ => h.versions⟩ : LoadIsFresh s.invalidated s.cache.epoch epoch s.commits)
  | selectScopes kind keyPrefix now epoch version row =>
    simp only [ht] at hstep hi
    cases hstep
    exact h.goto hi
  | selectDomains kind keyPrefix now epoch version row scopes =>
    simp only [ht] at hstep hi
    cases hstep
    exact h.goto hi
  | selectMailboxes kind keyPrefix now epoch version row scopes domainIds =>
    simp only [ht] at hstep hi
    split at hstep
    · cases hstep
      exact h.goto trivial
    · cases hstep
      exact h.goto ⟨hi, rfl⟩
  | publish kind keyPrefix now epoch record =>
    simp only [ht] at hstep hi
    cases hstep
    exact h.leaveLock (h.cache.publishRecord hi.1 hi.2) (by simp) trivial
  | policyLookup apiKeyId now =>
    simp only [ht] at hstep
    cases hstep
    refine h.leaveLock (h.cache.cachedUsagePolicy ..) (by simp) ?_
    split <;> trivial
  | policyEpoch apiKeyId =>
    simp only [ht] at hstep
    cases hstep
    exact h.goto (Nat.le_refl s.cache.epoch)
  | selectPolicy apiKeyId epoch =>
    simp only [ht] at hstep hi
    split at hstep
    · cases hstep
      exact h.goto trivial
    · split at hstep
      · cases hstep
        exact h.goto trivial
      · cases hstep
        exact h.goto
          (⟨hi, fun _ => h.versions⟩ : LoadIsFresh s.invalidated s.cache.epoch epoch s.commits)
  | storePolicy apiKeyId epoch policy =>
    simp only [ht] at hstep hi
    cases hstep
    exact h.leaveLock (h.cache.storeUsagePolicy hi) (by simp) trivial
  | invalidate apiKeyId version =>
    simp only [ht] at hstep hi
    cases hstep
    refine ⟨?_, h.cache.invalidateKeyCache ⟨apiKeyId, version⟩, ?_⟩
    · exact List.forall_mem_cons.mpr ⟨hi, h.versions⟩
    · intro j
      exact (h.update (i := i) (t := .idle) trivial j).of_invalidate _

theorem CacheSystem.Sound.step (h : s.Sound) {a : CacheAction} (hstep : s.step E a = some s') :
    s'.Sound := by
  cases a with
  | tick elapsed =>
    cases hstep
    exact ⟨h.versions, h.cache, h.threads⟩
  | commit db =>
    cases hstep
    exact h.commit db
  | beginRecord j kind keyPrefix load =>
    exact h.begin (t := .lookup kind keyPrefix load s.clock) trivial hstep
  | beginUsage j apiKeyId => exact h.begin (t := .policyLookup apiKeyId s.clock) trivial hstep
  | mutate j call principal now =>
    simp only [CacheSystem.step, CacheSystem.mutate] at hstep
    split at hstep
    · cases hstep
      exact h
    · refine (h.commit _).begin ?_ hstep
      split
      · exact Nat.le_refl (s.commits + 1)
      · trivial
  | advance j => exact CacheSystem.Sound.advance h hstep

theorem CacheSystem.start_sound (db : AuthDb) (clock : Int) :
    (CacheSystem.start db clock).Sound :=
  ⟨fun _ hm => absurd hm List.not_mem_nil,
    ⟨fun _ _ _ hmem => absurd hmem List.not_mem_nil, fun _ _ _ hmem => absurd hmem List.not_mem_nil⟩,
    fun _ => trivial⟩

/-- In every state of every run, a lookup that the cache answers gives nothing that was loaded before
    a mutation of its key whose invalidation has returned, and a record whose load began within the
    time to live before the lookup. -/
theorem cache_coherent {db : AuthDb} {clock : Int} {actions : List CacheAction}
    (hrun : (CacheSystem.start db clock).run E actions = some s) :
    (∀ kind keyPrefix t record,
      (s.cache.cachedAuthenticationRecord kind keyPrefix t).1 = some record →
        (∀ m ∈ s.invalidated, record.value.context.apiKeyId = some m.apiKeyId →
          m.version ≤ record.version) ∧
        t - authCacheTtl ≤ record.began) ∧
    (∀ apiKeyId t policy, (s.cache.cachedUsagePolicy apiKeyId t).1 = some policy →
      ∀ m ∈ s.invalidated, m.apiKeyId = apiKeyId → m.version ≤ policy.version) := by
  have h : s.Sound :=
    Transition.run_invariant (fun _ _ _ h hstep => CacheSystem.Sound.step h hstep)
      (CacheSystem.start_sound db clock) hrun
  constructor
  · intro kind keyPrefix t record hhit
    unfold KeyCache.cachedAuthenticationRecord at hhit
    split at hhit
    · cases hhit
    · rename_i expiresAt cached hget
      split at hhit
      · rename_i hlive
        cases hhit
        obtain ⟨hexpires, hfresh⟩ := h.cache.records _ _ _ (OrderedDict.mem_of_get? hget)
        exact ⟨hfresh, by omega⟩
      · cases hhit
  · intro apiKeyId t policy hhit m hm hid
    unfold KeyCache.cachedUsagePolicy at hhit
    split at hhit
    · cases hhit
    · rename_i expiresAt cached hget
      split at hhit
      · cases hhit
      · cases hhit
        exact h.cache.policies _ _ _ (OrderedDict.mem_of_get? hget) m hm (congrArg some hid.symm)

end Steps

/-- The administrator and the key of `sampleKeyArgs`. -/
def AuthDb.sampleKey : AuthDb :=
  (AuthDb.sampleAdmin.execute ((KeyCall.create sampleKeyArgs).operation .sample 10 none)).2

/-- A slow loader reads the key, the key is revoked and invalidated, the slow loader ends, and another
    loader reads the key. -/
def slowLoaderRun : List CacheAction :=
  .beginRecord 0 .service "rk_1".toList true :: List.replicate 7 (.advance 0) ++
    [.mutate 1 (.revoke 1 20) none 20, .advance 1, .advance 0,
      .beginRecord 2 .service "rk_1".toList true] ++
    List.replicate 8 (.advance 2)

/-- The cache then answers with a record of the revoked key. -/
theorem cache_coherent_slow_loader :
    ∃ s record, (CacheSystem.start .sampleKey 0).run .sample slowLoaderRun = some s ∧
      s.invalidated = [⟨1, 1⟩] ∧
      (s.cache.cachedAuthenticationRecord .service "rk_1".toList 5).1 = some record ∧
      record.value.context.apiKeyId = some 1 ∧ 1 ≤ record.version ∧ 5 - authCacheTtl ≤ record.began := by
  have heval : ((CacheSystem.start .sampleKey 0).run .sample slowLoaderRun).map
      (fun s => (s.invalidated,
        (s.cache.cachedAuthenticationRecord .service "rk_1".toList 5).1.map
          fun record => record.value.context.apiKeyId)) = some ([⟨1, 1⟩], some (some 1)) := by
    decide +kernel
  obtain ⟨s, hrun, hs⟩ := Option.map_eq_some_iff.mp heval
  obtain ⟨hinvalidated, hhit⟩ := Prod.mk.inj hs
  obtain ⟨record, hhit, hid⟩ := Option.map_eq_some_iff.mp hhit
  obtain ⟨hfresh, hbegan⟩ := (cache_coherent hrun).1 _ _ _ _ hhit
  exact ⟨s, record, hrun, hinvalidated, hhit, hid, hfresh ⟨1, 1⟩ (by simp [hinvalidated]) hid, hbegan⟩

end RapidInbox
