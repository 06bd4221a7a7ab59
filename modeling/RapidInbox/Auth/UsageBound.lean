import Mathlib.Tactic.Ring
import RapidInbox.Auth.UsageBuckets
import RapidInbox.Lib.EventLog

/-!
# The bound on the calls of an API key

What a key has been granted since some time, together with the tokens it has left, grows no faster than
the rate.
-/

namespace RapidInbox
namespace UsageSystem

open UsageState

variable {key n : Nat} {rate : Int} {s s' : UsageSystem} {call : UsageCall}

/-! ## One call -/

/-- The tokens of a key, were it to call at `now`. -/
def available (key : Nat) (rate : Int) (now : Rat) (s : UsageSystem) : Rat :=
  tokensAt rate now (s.usage.usageBuckets.get? key)

/-- What a call can do to the bucket of a key. -/
inductive Stepped (key : Nat) (rate : Int) (s : UsageSystem) : UsageCall → UsageSystem → Prop
  /-- A call that is not one of the key. -/
  | other {call : UsageCall} {s' : UsageSystem} (hclock : s.clock ≤ s'.clock)
      (hbucket : s'.usage.usageBuckets.get? key = s.usage.usageBuckets.get? key ∨
        s'.usage.usageBuckets.get? key = none)
      (haccepted : s'.accepted = s.accepted ∨
        ∃ apiKeyId, apiKeyId ≠ key ∧ s'.accepted = s.accepted ++ [(apiKeyId, s'.clock)]) :
      Stepped key rate s call s'
  | limited {now : Rat} {s' : UsageSystem} (hclock : s.clock ≤ now) (hnow : s'.clock = now)
      (hfew : available key rate now s < 1)
      (hbucket : s'.usage.usageBuckets.get? key = some (available key rate now s, now))
      (haccepted : s'.accepted = s.accepted) : Stepped key rate s (.record key rate now) s'
  | granted {now : Rat} {s' : UsageSystem} (hclock : s.clock ≤ now) (hnow : s'.clock = now)
      (henough : 1 ≤ available key rate now s)
      (hbucket : s'.usage.usageBuckets.get? key = some (available key rate now s - 1, now))
      (haccepted : s'.accepted = s.accepted ++ [(key, now)]) :
      Stepped key rate s (.record key rate now) s'

/-- Persisting a usage leaves the buckets alone. -/
theorem usageBuckets_recordUsage {u : UsageState} {apiKeyId : Nat} {rateLimitPerMin : Int} {now : Rat}
    (h : ¬ exceeded apiKeyId rateLimitPerMin now u) :
    ((u.recordUsage apiKeyId rateLimitPerMin now).1 ≠ .limited) ∧
      (u.recordUsage apiKeyId rateLimitPerMin now).2.usageBuckets =
        (u.spend apiKeyId rateLimitPerMin now).usageBuckets := by
  rw [recordUsage, if_neg h]
  dsimp only
  split
  · exact ⟨by simp, rfl⟩
  · exact ⟨by simp, rfl⟩

theorem get?_spend_of_ne {u : UsageState} {apiKeyId : Nat} (hne : key ≠ apiKeyId) (rateLimitPerMin : Int)
    (now : Rat) :
    (u.spend apiKeyId rateLimitPerMin now).usageBuckets.get? key = u.usageBuckets.get? key ∨
      (u.spend apiKeyId rateLimitPerMin now).usageBuckets.get? key = none := by
  rw [spend]
  split
  · rcases OrderedDict.get?_trim (d := u.usageBuckets.put apiKeyId
      (tokensAt rateLimitPerMin now (u.usageBuckets.get? apiKeyId) - 1, now)) usageStateMaxEntries key
      with hkept | hnone
    · refine .inl (hkept.trans ?_)
      rw [OrderedDict.get?_put, if_neg hne]
    · exact .inr hnone
  · left
    show (u.usageBuckets.pop apiKeyId).get? key = _
    rw [OrderedDict.get?_pop, if_neg hne]

theorem stepped_of_step (hrate : 0 < rate) (hcall : HasRate key rate call)
    (hstep : step s call = some s') : Stepped key rate s call s' := by
  cases call with
  | persistFailed apiKeyId recorded =>
    cases hstep
    refine .other (le_refl _) (.inl ?_) (.inl rfl)
    dsimp only
    rw [persistFailed]
    split
    · rfl
    · rfl
  | invalidate apiKeyId =>
    cases hstep
    refine .other (le_refl _) ?_ (.inl rfl)
    by_cases hkey : key = apiKeyId
    · right
      show (s.usage.usageBuckets.pop apiKeyId).get? key = none
      rw [OrderedDict.get?_pop, if_pos hkey]
    · left
      show (s.usage.usageBuckets.pop apiKeyId).get? key = _
      rw [OrderedDict.get?_pop, if_neg hkey]
  | record apiKeyId rateLimitPerMin now =>
    rw [step] at hstep
    split at hstep
    · rename_i hclock
      by_cases hexceeded : exceeded apiKeyId rateLimitPerMin now s.usage
      · rw [recordUsage, if_pos hexceeded] at hstep
        cases hstep
        by_cases hkey : apiKeyId = key
        · subst hkey
          have hsame : rateLimitPerMin = rate := hcall rfl
          subst hsame
          refine .limited hclock rfl hexceeded.2 ?_ rfl
          show (s.usage.usageBuckets.put apiKeyId _).get? apiKeyId = _
          rw [OrderedDict.get?_put, if_pos rfl]
          rfl
        · refine .other hclock (.inl ?_) (.inl rfl)
          show (s.usage.usageBuckets.put apiKeyId _).get? key = _
          rw [OrderedDict.get?_put, if_neg (Ne.symm hkey)]
      · obtain ⟨hreply, hbuckets⟩ := usageBuckets_recordUsage hexceeded
        dsimp only at hstep
        rw [if_neg hreply] at hstep
        cases hstep
        by_cases hkey : apiKeyId = key
        · subst hkey
          have hsame : rateLimitPerMin = rate := hcall rfl
          subst hsame
          refine .granted hclock rfl (not_lt.mp fun hfew => hexceeded ⟨hrate, hfew⟩) ?_ rfl
          dsimp only
          rw [hbuckets, spend, if_pos hrate]
          exact OrderedDict.get?_trim_put _
        · refine .other hclock ?_ (.inr ⟨apiKeyId, hkey, rfl⟩)
          dsimp only
          rw [hbuckets]
          exact get?_spend_of_ne (Ne.symm hkey) rateLimitPerMin now
    · cases hstep

/-! ## Tokens -/

/-- The bucket of a key was filled in the past, and neither overdrawn nor over-full. -/
structure Sound (key : Nat) (rate : Int) (s : UsageSystem) : Prop where
  bucket : ∀ tokens last, s.usage.usageBuckets.get? key = some (tokens, last) →
    0 ≤ tokens ∧ tokens ≤ rate ∧ last ≤ s.clock
  past : ∀ a ∈ s.accepted, a.2 ≤ s.clock

theorem available_le_rate (key : Nat) (rate : Int) (now : Rat) (s : UsageSystem) :
    available key rate now s ≤ rate := by
  unfold available tokensAt
  dsimp only
  split
  · exact le_refl _
  · exact TokenBucket.level_le_capacity

theorem available_nonneg (hrate : 0 < rate) (h : Sound key rate s) (now : Rat) :
    0 ≤ available key rate now s := by
  have hpos : (0 : Rat) ≤ rate := Int.cast_nonneg (le_of_lt hrate)
  unfold available tokensAt
  dsimp only
  split
  · exact hpos
  · rename_i tokens last hbucket
    exact TokenBucket.level_nonneg hpos (by positivity) (h.bucket tokens last hbucket).1
      (le_max_right _ _)

/-- Time adds what the rate allows. -/
theorem available_le_add (hrate : 0 < rate) (h : Sound key rate s) {now : Rat} (hnow : s.clock ≤ now) :
    available key rate now s ≤ available key rate s.clock s + (now - s.clock) * (rate / 60) := by
  have hpos : (0 : Rat) < rate := Int.cast_pos.mpr hrate
  have hmore : 0 ≤ now - s.clock := sub_nonneg.mpr hnow
  unfold available tokensAt
  dsimp only
  split
  · exact le_add_of_nonneg_right (by positivity)
  · rename_i tokens last hbucket
    obtain ⟨-, -, hlast⟩ := h.bucket tokens last hbucket
    have helapsed : now - last = (s.clock - last) + (now - s.clock) := by ring
    rw [max_eq_left (sub_nonneg.mpr (le_trans hlast hnow)), max_eq_left (sub_nonneg.mpr hlast), helapsed]
    exact TokenBucket.level_add_le (by positivity) hmore

/-- Asking in between changes nothing. -/
theorem tokensAt_tokensAt (hrate : 0 < rate) {bucket : Option (Rat × Rat)} {now later : Rat}
    (hlast : ∀ b ∈ bucket, b.2 ≤ now) (hlater : now ≤ later) :
    tokensAt rate later (some (tokensAt rate now bucket, now)) = tokensAt rate later bucket := by
  have hpos : (0 : Rat) < rate := Int.cast_pos.mpr hrate
  have hmore : 0 ≤ later - now := sub_nonneg.mpr hlater
  cases bucket with
  | none =>
    have hfull : (rate : Rat) ≤ rate + max (later - now) 0 * (rate / 60) :=
      le_add_of_nonneg_right (by positivity)
    exact min_eq_left hfull
  | some b =>
    obtain ⟨tokens, last⟩ := b
    have hlast : last ≤ now := hlast _ rfl
    have helapsed : later - last = (now - last) + (later - now) := by ring
    simp only [tokensAt]
    rw [max_eq_left hmore, max_eq_left (sub_nonneg.mpr hlast),
      max_eq_left (sub_nonneg.mpr (le_trans hlast hlater)), helapsed]
    exact TokenBucket.level_level (by positivity) hmore

theorem Sound.step (hrate : 0 < rate) (h : Sound key rate s) (hcall : HasRate key rate call)
    (hstep : UsageSystem.step s call = some s') : Sound key rate s' := by
  cases stepped_of_step hrate hcall hstep with
  | other hclock hbucket haccepted =>
    constructor
    · intro tokens last hget
      rcases hbucket with hkept | hnone
      · obtain ⟨hnonneg, hle, hlast⟩ := h.bucket tokens last (hkept ▸ hget)
        exact ⟨hnonneg, hle, le_trans hlast hclock⟩
      · rw [hnone] at hget
        cases hget
    · intro a ha
      rcases haccepted with haccepted | ⟨apiKeyId, -, haccepted⟩
      · exact le_trans (h.past a (haccepted ▸ ha)) hclock
      · rw [haccepted] at ha
        rcases List.mem_append.mp ha with ha | ha
        · exact le_trans (h.past a ha) hclock
        · rw [List.mem_singleton.mp ha]
  | @limited now _ hclock hnow hfew hbucket haccepted =>
    constructor
    · intro tokens last hget
      rw [hbucket] at hget
      cases hget
      exact ⟨available_nonneg hrate h now, available_le_rate key rate now s, le_of_eq hnow.symm⟩
    · intro a ha
      rw [hnow]
      exact le_trans (h.past a (haccepted ▸ ha)) hclock
  | @granted now _ hclock hnow henough hbucket haccepted =>
    constructor
    · intro tokens last hget
      rw [hbucket] at hget
      cases hget
      have hle := available_le_rate key rate now s
      exact ⟨by linarith, by linarith, le_of_eq hnow.symm⟩
    · intro a ha
      rw [haccepted] at ha
      rw [hnow]
      rcases List.mem_append.mp ha with ha | ha
      · exact le_trans (h.past a ha) hclock
      · rw [List.mem_singleton.mp ha]

theorem sound_start (key : Nat) (rate : Int) (clock : Rat) : Sound key rate (start clock) where
  bucket := by exact nofun
  past := by exact nofun

/-! ## Calls in a period -/

/-- The calls of a key that were granted after the first `n` of all. -/
def grantedSince (n key : Nat) (s : UsageSystem) : List Rat := EventLog.times key (s.accepted.drop n)

/-- How many of them were granted in a period. -/
def grantedWithin (n key : Nat) (since til : Rat) (s : UsageSystem) : Nat :=
  (grantedSince n key s).countP fun t => decide (since ≤ t ∧ t ≤ til)

/-- What the key was granted since a time, with the tokens it has left, is within what it had then (at
    most `budget`) and what the rate added. -/
structure Within (n key : Nat) (rate : Int) (since budget : Rat) (s : UsageSystem) : Prop where
  length : n ≤ s.accepted.length
  later : s.clock < since → rate ≤ budget
  potential : since ≤ s.clock →
    (grantedWithin n key since s.clock s : Rat) + available key rate s.clock s ≤
      budget + (s.clock - since) * (rate / 60)
  bounded : ∀ span : Rat, 0 ≤ span →
    (grantedWithin n key since (since + span) s : Rat) ≤ budget + span * (rate / 60)

variable {since budget : Rat}

theorem past_of_mem_grantedSince (h : ∀ a ∈ s.accepted, a.2 ≤ s.clock) {t : Rat}
    (ht : t ∈ grantedSince n key s) : t ≤ s.clock :=
  h (key, t) (List.mem_of_mem_drop (EventLog.mem_of_mem_times ht))

theorem grantedWithin_of_past (h : ∀ a ∈ s.accepted, a.2 ≤ s.clock) (hlate : s.clock < since)
    (til : Rat) : grantedWithin n key since til s = 0 := by
  rw [grantedWithin, List.countP_eq_zero]
  intro t ht hin
  exact absurd (lt_of_lt_of_le hlate (of_decide_eq_true hin).1)
    (not_lt.mpr (past_of_mem_grantedSince h ht))

/-- Nothing that was granted lies ahead of the clock. -/
theorem grantedWithin_le_clock (h : ∀ a ∈ s.accepted, a.2 ≤ s.clock) {now : Rat} (hnow : s.clock ≤ now)
    (til : Rat) : grantedWithin n key since til s ≤ grantedWithin n key since now s := by
  apply List.countP_mono_left
  intro t ht hin
  exact decide_eq_true ⟨(of_decide_eq_true hin).1, le_trans (past_of_mem_grantedSince h ht) hnow⟩

/-- The potential at a later time. -/
theorem Within.potential_at (hrate : 0 < rate) (hs : Sound key rate s)
    (h : Within n key rate since budget s) {now : Rat} (hnow : s.clock ≤ now) (hsince : since ≤ now) :
    (grantedWithin n key since now s : Rat) + available key rate now s ≤
      budget + (now - since) * (rate / 60) := by
  have hpos : (0 : Rat) < rate := Int.cast_pos.mpr hrate
  have hsame : grantedWithin n key since now s ≤ grantedWithin n key since s.clock s :=
    grantedWithin_le_clock hs.past (le_refl _) now
  rcases le_or_gt since s.clock with hle | hlt
  · have hadd := available_le_add hrate hs hnow
    have hpotential := h.potential hle
    have hcast : (grantedWithin n key since now s : Rat) ≤ grantedWithin n key since s.clock s :=
      Nat.cast_le.mpr hsame
    have hsplit : (now - since) * ((rate : Rat) / 60) =
        (s.clock - since) * (rate / 60) + (now - s.clock) * (rate / 60) := by ring
    linarith
  · rw [grantedWithin_of_past hs.past hlt, Nat.cast_zero, zero_add]
    have hfull : available key rate now s ≤ budget :=
      le_trans (available_le_rate key rate now s) (h.later hlt)
    have hadded : 0 ≤ (now - since) * ((rate : Rat) / 60) :=
      mul_nonneg (sub_nonneg.mpr hsince) (by positivity)
    linarith

/-- A step that grants nothing to the key and leaves its tokens as they would have been. -/
theorem Within.idle (hrate : 0 < rate) (hs : Sound key rate s) (h : Within n key rate since budget s)
    (hclock : s.clock ≤ s'.clock) (hlength : s.accepted.length ≤ s'.accepted.length)
    (hgranted : grantedSince n key s' = grantedSince n key s)
    (havailable : available key rate s'.clock s' = available key rate s'.clock s) :
    Within n key rate since budget s' := by
  have hwithin (til : Rat) : grantedWithin n key since til s' = grantedWithin n key since til s := by
    rw [grantedWithin, hgranted]
    rfl
  refine ⟨Nat.le_trans h.length hlength, fun hlt => h.later (lt_of_le_of_lt hclock hlt), ?_, ?_⟩
  · intro hsince
    rw [hwithin, havailable]
    exact h.potential_at hrate hs hclock hsince
  · intro span hspan
    rw [hwithin]
    exact h.bounded span hspan

/-- A call that is granted takes one token. -/
theorem Within.grant (hrate : 0 < rate) (hs : Sound key rate s) (h : Within n key rate since budget s)
    {now : Rat} (hclock : s.clock ≤ now) (hnow : s'.clock = now) (henough : 1 ≤ available key rate now s)
    (haccepted : s'.accepted = s.accepted ++ [(key, now)])
    (havailable : available key rate now s' = available key rate now s - 1) :
    Within n key rate since budget s' := by
  have hpos : (0 : Rat) < rate := Int.cast_pos.mpr hrate
  have hgranted : grantedSince n key s' = grantedSince n key s ++ [now] := by
    rw [grantedSince, haccepted, EventLog.times_drop_concat h.length, if_pos rfl]
    rfl
  have hwithin (til : Rat) : grantedWithin n key since til s' =
      grantedWithin n key since til s + if since ≤ now ∧ now ≤ til then 1 else 0 := by
    rw [grantedWithin, hgranted, List.countP_append, List.countP_singleton]
    simp [grantedWithin]
  refine ⟨?_, fun hlt => h.later (lt_of_le_of_lt hclock (hnow ▸ hlt)), ?_, ?_⟩
  · rw [haccepted, List.length_append]
    exact Nat.le_add_right_of_le h.length
  · intro hsince
    rw [hnow] at hsince ⊢
    have hpotential := h.potential_at hrate hs hclock hsince
    rw [hwithin, if_pos ⟨hsince, le_refl _⟩, havailable, Nat.cast_add, Nat.cast_one]
    linarith
  · intro span hspan
    rw [hwithin]
    by_cases hin : since ≤ now ∧ now ≤ since + span
    · have hpotential := h.potential_at hrate hs hclock hin.1
      have hcast : (grantedWithin n key since (since + span) s : Rat) ≤ grantedWithin n key since now s :=
        Nat.cast_le.mpr (grantedWithin_le_clock hs.past hclock _)
      have hadded : (now - since) * ((rate : Rat) / 60) ≤ span * (rate / 60) :=
        mul_le_mul_of_nonneg_right (by linarith [hin.2]) (by positivity)
      rw [if_pos hin, Nat.cast_add, Nat.cast_one]
      linarith
    · rw [if_neg hin, Nat.add_zero]
      exact h.bounded span hspan

theorem Within.step (hrate : 0 < rate) (hs : Sound key rate s) (h : Within n key rate since budget s)
    (hcall : HasRate key rate call) (hkeep : ¬ Evicts key s call)
    (hstep : UsageSystem.step s call = some s') : Within n key rate since budget s' := by
  cases stepped_of_step hrate hcall hstep with
  | other hclock hbucket haccepted =>
    have hsame : s'.usage.usageBuckets.get? key = s.usage.usageBuckets.get? key := by
      rcases hbucket with hkept | hnone
      · exact hkept
      · cases hget : s.usage.usageBuckets.get? key with
        | none => exact hnone
        | some bucket =>
          exact absurd ⟨by rw [hget]; rfl, s', hstep, hnone⟩ hkeep
    have havailable : available key rate s'.clock s' = available key rate s'.clock s := by
      rw [available, hsame]
      rfl
    rcases haccepted with haccepted | ⟨apiKeyId, hne, haccepted⟩
    · refine h.idle hrate hs hclock (le_of_eq (congrArg List.length haccepted.symm)) ?_ havailable
      rw [grantedSince, haccepted]
      rfl
    · refine h.idle hrate hs hclock ?_ ?_ havailable
      · rw [haccepted, List.length_append]
        exact Nat.le_add_right _ _
      · rw [grantedSince, haccepted, EventLog.times_drop_concat h.length, if_neg (Ne.symm hne),
          List.append_nil]
        rfl
  | @limited now _ hclock hnow hfew hbucket haccepted =>
    refine h.idle hrate hs (hnow ▸ hclock) (le_of_eq (congrArg List.length haccepted.symm)) ?_ ?_
    · rw [grantedSince, haccepted]
      rfl
    · rw [hnow, available, hbucket]
      refine tokensAt_tokensAt hrate (fun b hb => ?_) (le_refl _)
      exact le_trans (hs.bucket b.1 b.2 hb).2.2 hclock
  | @granted now _ hclock hnow henough hbucket haccepted =>
    refine h.grant hrate hs hclock hnow henough haccepted ?_
    have hle : available key rate now s - 1 ≤ rate := by
      linarith [available_le_rate key rate now s]
    rw [available, hbucket]
    simp only [tokensAt]
    rw [sub_self, max_self]
    exact TokenBucket.level_zero hle

/-- At the beginning of a period nothing has been granted in it. -/
theorem within_start {budget : Rat} (hrate : 0 < rate) (s : UsageSystem)
    (hlater : s.clock < since → rate ≤ budget)
    (hbudget : since ≤ s.clock → available key rate s.clock s ≤ budget) (hnonneg : 0 ≤ budget) :
    Within s.accepted.length key rate since budget s := by
  have hpos : (0 : Rat) < rate := Int.cast_pos.mpr hrate
  have hnone (til : Rat) : grantedWithin s.accepted.length key since til s = 0 := by
    rw [grantedWithin, grantedSince, List.drop_length]
    rfl
  refine ⟨le_refl _, hlater, ?_, ?_⟩
  · intro hsince
    have hadded : 0 ≤ (s.clock - since) * ((rate : Rat) / 60) :=
      mul_nonneg (sub_nonneg.mpr hsince) (by positivity)
    rw [hnone, Nat.cast_zero, zero_add]
    linarith [hbudget hsince]
  · intro span hspan
    have hadded : 0 ≤ span * ((rate : Rat) / 60) := by positivity
    rw [hnone, Nat.cast_zero]
    linarith

/-- A call that is limited leaves every key the tokens it would have had later. -/
theorem available_of_limited (hrate : 0 < rate) (hs : Sound key rate s) {now : Rat}
    (hstep : UsageSystem.step s (.record key rate now) = some s')
    (hlimited : (s.usage.recordUsage key rate now).1 = .limited) {later : Rat} (hlater : now ≤ later)
    {key' : Nat} {rate' : Int} (hsame : key' = key → rate' = rate) :
    available key' rate' later s' = available key' rate' later s := by
  have hexceeded : exceeded key rate now s.usage := by
    by_contra hroom
    exact (usageBuckets_recordUsage hroom).1 hlimited
  rw [UsageSystem.step] at hstep
  split at hstep
  · rename_i hclock
    rw [recordUsage, if_pos hexceeded] at hstep
    cases hstep
    rw [available, OrderedDict.get?_put]
    by_cases hkey : key' = key
    · rw [if_pos hkey, hsame hkey]
      refine (tokensAt_tokensAt hrate (fun b hb => ?_) hlater).trans ?_
      · exact le_trans (hs.bucket b.1 b.2 hb).2.2 hclock
      · rw [available, hkey]
    · rw [if_neg hkey]
      rfl
  · cases hstep

/-- Over calls at a constant rate the tokens of a key stay within the rate.  As long as its bucket is
    not evicted, the calls granted in a period are within the rate and what the period adds, and from
    now on within the tokens it has and what is added; a call that is limited takes none of these. -/
theorem usage_rate_bound {key : Nat} {rate : Int} (hrate : 0 < rate) {clock : Rat}
    {calls : List UsageCall} {s : UsageSystem} (hcalls : ∀ call ∈ calls, HasRate key rate call)
    (hrun : Transition.run UsageSystem.step (start clock) calls = some s) :
    (∀ tokens last, s.usage.usageBuckets.get? key = some (tokens, last) →
        0 ≤ tokens ∧ tokens ≤ rate) ∧
      (∀ (more : List UsageCall) (s' : UsageSystem), (∀ call ∈ more, HasRate key rate call) →
        Transition.Along UsageSystem.step (fun s call => ¬ Evicts key s call) s more →
        Transition.run UsageSystem.step s more = some s' → ∀ since span : Rat, 0 ≤ span →
          (grantedWithin s.accepted.length key since (since + span) s' : Rat) ≤
              rate + rate * span / 60 ∧
            (grantedWithin s.accepted.length key s.clock (s.clock + span) s' : Rat) ≤
              available key rate s.clock s + rate * span / 60) ∧
      ∀ (now : Rat) (s' : UsageSystem), UsageSystem.step s (.record key rate now) = some s' →
        (s.usage.recordUsage key rate now).1 = .limited → ∀ later, now ≤ later →
          ∀ (key' : Nat) (rate' : Int), (key' = key → rate' = rate) →
            available key' rate' later s' = available key' rate' later s := by
  have hall {s : UsageSystem} {calls : List UsageCall} (h : ∀ call ∈ calls, HasRate key rate call) :
      Transition.Along UsageSystem.step (fun _ call => HasRate key rate call) s calls :=
    Transition.along_of_forall fun call hcall _ => h call hcall
  have hsound : Sound key rate s :=
    Transition.run_invariant_along (fun _ _ _ h hcall hstep => h.step hrate hcall hstep)
      (sound_start key rate clock) (hall hcalls) hrun
  have hpos : (0 : Rat) ≤ rate := Int.cast_nonneg (le_of_lt hrate)
  refine ⟨fun tokens last hget => ?_, ?_, ?_⟩
  · obtain ⟨hnonneg, hle, -⟩ := hsound.bucket tokens last hget
    exact ⟨hnonneg, hle⟩
  · intro more s' hmoreCalls halong hmore since span hspan
    have hboth : ∀ since budget, Within s.accepted.length key rate since budget s →
        Within s.accepted.length key rate since budget s' := by
      intro since budget hstart
      have hstep : ∀ s₁ call s₂, (Sound key rate s₁ ∧ Within s.accepted.length key rate since budget s₁) →
          (HasRate key rate call ∧ ¬ Evicts key s₁ call) → UsageSystem.step s₁ call = some s₂ →
          Sound key rate s₂ ∧ Within s.accepted.length key rate since budget s₂ := by
        intro s₁ call s₂ h hcall hstep
        exact ⟨h.1.step hrate hcall.1 hstep, h.2.step hrate h.1 hcall.1 hcall.2 hstep⟩
      exact (Transition.run_invariant_along hstep ⟨hsound, hstart⟩ ((hall hmoreCalls).and halong) hmore).2
    have hrateBound := (hboth since rate (within_start hrate s (fun _ => le_refl _)
      (fun _ => available_le_rate key rate _ s) hpos)).bounded span hspan
    have htokenBound := (hboth s.clock (available key rate s.clock s) (within_start hrate s
      (fun hlt => absurd hlt (lt_irrefl _)) (fun _ => le_refl _)
      (available_nonneg hrate hsound s.clock))).bounded span hspan
    rw [show span * ((rate : Rat) / 60) = rate * span / 60 by ring] at hrateBound htokenBound
    exact ⟨hrateBound, htokenBound⟩
  · intro now s' hstep hlimited later hlater key' rate' hsame
    exact available_of_limited hrate hsound hstep hlimited hlater hsame

/-- A call that is limited, one of another key, and one after the minute. -/
def laterCalls : List UsageCall := [.record 7 1 30, .record 9 5 31, .record 7 1 60]

theorem usage_rate_bound_laterCalls :
    ∃ s s', Transition.run UsageSystem.step (start 0) [.record 7 1 0] = some s ∧
      Transition.run UsageSystem.step s laterCalls = some s' ∧
      grantedSince s.accepted.length 7 s' = [60] ∧
      (grantedWithin s.accepted.length 7 0 (0 + 60) s' : Rat) ≤ (1 : Int) + (1 : Int) * 60 / 60 ∧
      ∀ limited, UsageSystem.step s (.record 7 1 30) = some limited →
        available 7 1 60 limited = available 7 1 60 s := by
  obtain ⟨s, hrun⟩ : ∃ s, Transition.run UsageSystem.step (start 0) [.record 7 1 0] = some s :=
    ⟨_, rfl⟩
  have hcalls : ∀ call ∈ ([.record 7 1 0] : List UsageCall), HasRate 7 1 call := by decide
  have h := usage_rate_bound (by decide) hcalls hrun
  have halong : Transition.Along UsageSystem.step (fun s call => ¬ Evicts 7 s call) s laterCalls := by
    cases hrun
    decide +kernel
  obtain ⟨s', hmore⟩ : ∃ s', Transition.run UsageSystem.step s laterCalls = some s' := by
    cases hrun
    exact ⟨_, rfl⟩
  have hlimited : (s.usage.recordUsage 7 1 30).1 = .limited := by
    cases hrun
    decide +kernel
  refine ⟨s, s', hrun, hmore, ?_, (h.2.1 laterCalls s' (by decide) halong hmore 0 60 (by decide)).1,
    fun limited hstep => h.2.2 30 limited hstep hlimited 60 (by decide +kernel) 7 1 fun _ => rfl⟩
  cases hrun
  cases hmore
  decide +kernel

end UsageSystem
end RapidInbox
