import Mathlib.Data.List.TakeWhile
import Mathlib.Tactic.Linarith
import RapidInbox.Lib.EventLog
import RapidInbox.Ingest.ConnectionRate

/-!
# The windows of the SMTP connections

Both dictionaries of the limiter hold the same addresses, and the expiry order is the order of the last
accepted connections.  Evicting what is stale therefore ends at the first window that is not, and a
window that is kept has every accepted connection that still counts.
-/

namespace RapidInbox

/-! ## Sorted windows -/

theorem le_of_mem_of_getLast? {window : List Rat} (h : window.Pairwise (· ≤ ·)) {last t : Rat}
    (hlast : window.getLast? = some last) (ht : t ∈ window) : t ≤ last := by
  obtain ⟨before, rfl⟩ := List.getLast?_eq_some_iff.mp hlast
  rcases List.mem_append.mp ht with ht | ht
  · exact (List.pairwise_append.mp h).2.2 t ht last (List.mem_singleton_self last)
  · rw [List.mem_singleton.mp ht]

theorem getLast?_dropWhile {window : List Rat} {p : Rat → Bool} (h : window.dropWhile p ≠ []) :
    (window.dropWhile p).getLast? = window.getLast? := by
  obtain ⟨before, hbefore⟩ := List.dropWhile_suffix p (l := window)
  conv_rhs => rw [← hbefore]
  rw [List.getLast?_append_of_ne_nil _ h]

/-- The last time is not dropped while it is past the cutoff. -/
theorem dropWhile_ne_nil {window : List Rat} {last cutoff : Rat} (hlast : window.getLast? = some last)
    (h : cutoff < last) : window.dropWhile (fun t => decide (t ≤ cutoff)) ≠ [] := by
  intro hnil
  have := List.dropWhile_eq_nil_iff.mp hnil last (List.mem_of_getLast? hlast)
  exact absurd (of_decide_eq_true this) (not_le.mpr h)

/-- What is dropped does not count later. -/
theorem filter_dropWhile {window : List Rat} {cutoff x : Rat} (h : cutoff ≤ x) :
    (window.dropWhile fun t => decide (t ≤ cutoff)).filter (fun t => decide (x < t)) =
      window.filter fun t => decide (x < t) := by
  induction window with
  | nil => rfl
  | cons t window ih =>
    by_cases ht : t ≤ cutoff
    · rw [List.dropWhile_cons_of_pos (by simpa using ht), ih, List.filter_cons_of_neg]
      simpa using le_trans ht h
    · rw [List.dropWhile_cons_of_neg (by simpa using ht)]

/-! ## The last accepted connection -/

/-- When the last connection of an address was accepted. -/
def lastAccepted (accepted : List (Text × Rat)) (ip : Text) : Option Rat :=
  (EventLog.times ip accepted).getLast?

theorem lastAccepted_concat (accepted : List (Text × Rat)) (ip ip' : Text) (t : Rat) :
    lastAccepted (accepted ++ [(ip, t)]) ip' = if ip' = ip then some t else lastAccepted accepted ip' := by
  rw [lastAccepted, EventLog.times_append, EventLog.times_singleton]
  split
  · exact List.getLast?_concat
  · rw [List.append_nil]
    rfl

theorem mem_of_lastAccepted {accepted : List (Text × Rat)} {ip : Text} {t : Rat}
    (h : t ∈ lastAccepted accepted ip) : (ip, t) ∈ accepted :=
  EventLog.mem_of_mem_times (List.mem_of_getLast? h)

/-- Both dictionaries agree, each window ends with the last accepted connection of its address, and the
    expiry order follows these. -/
structure WindowsSound (last : Text → Option Rat) (windows : OrderedDict Text (List Rat))
    (expiryOrder : OrderedDict Text Unit) : Prop where
  keys : ∀ ip, (windows.get? ip).isSome ↔ (expiryOrder.get? ip).isSome
  window : ∀ ip window, windows.get? ip = some window →
    window ≠ [] ∧ window.Pairwise (· ≤ ·) ∧ window.getLast? = last ip
  order : expiryOrder.entries.Pairwise fun a b => ∀ ta ∈ last a.1, ∀ tb ∈ last b.1, ta ≤ tb

namespace WindowsSound

variable {last : Text → Option Rat} {windows : OrderedDict Text (List Rat)}
  {expiryOrder : OrderedDict Text Unit}

/-- An address is forgotten by both dictionaries. -/
theorem pop (h : WindowsSound last windows expiryOrder) (ip : Text) :
    WindowsSound last (windows.pop ip) (expiryOrder.pop ip) where
  keys ip' := by
    rw [OrderedDict.get?_pop, OrderedDict.get?_pop]
    split
    · exact Iff.rfl
    · exact h.keys ip'
  window ip' window hget := by
    rw [OrderedDict.get?_pop] at hget
    split at hget
    · cases hget
    · exact h.window ip' window hget
  order := h.order.filter _

theorem last_isSome (h : WindowsSound last windows expiryOrder) {ip : Text} {window : List Rat}
    (hget : windows.get? ip = some window) : ∃ t, last ip = some t ∧ t ∈ window := by
  obtain ⟨hne, -, hlast⟩ := h.window ip window hget
  obtain ⟨t, ht⟩ := Option.isSome_iff_exists.mp (List.getLast?_isSome.mpr hne)
  exact ⟨t, hlast ▸ ht, List.mem_of_getLast? ht⟩

/-- The window of an address is replaced by one that ends with the same connection. -/
theorem replace (h : WindowsSound last windows expiryOrder) {ip : Text} {window : List Rat}
    {windows' : OrderedDict Text (List Rat)} (hold : (windows.get? ip).isSome) (hne : window ≠ [])
    (hsorted : window.Pairwise (· ≤ ·)) (hlast : window.getLast? = last ip)
    (hget : ∀ ip', windows'.get? ip' = if ip' = ip then some window else windows.get? ip') :
    WindowsSound last windows' expiryOrder where
  keys ip' := by
    rw [hget ip']
    split
    · rename_i heq
      rw [← h.keys ip', heq]
      exact ⟨fun _ => hold, fun _ => rfl⟩
    · exact h.keys ip'
  window ip' found hfound := by
    rw [hget ip'] at hfound
    split at hfound
    · rename_i heq
      cases hfound
      rw [heq]
      exact ⟨hne, hsorted, hlast⟩
    · exact h.window ip' found hfound
  order := h.order

/-- A connection is accepted: its address becomes the last of the expiry order. -/
theorem accept (h : WindowsSound last windows expiryOrder) {ip : Text} {window : List Rat} {now : Rat}
    {windows' : OrderedDict Text (List Rat)} {last' : Text → Option Rat}
    (hsorted : window.Pairwise (· ≤ ·)) (hpast : ∀ t ∈ window, t ≤ now)
    (hlastPast : ∀ ip', ∀ t ∈ last ip', t ≤ now)
    (hget : ∀ ip', windows'.get? ip' = if ip' = ip then some (window ++ [now]) else windows.get? ip')
    (hlast : ∀ ip', last' ip' = if ip' = ip then some now else last ip') :
    WindowsSound last' windows' ((expiryOrder.pop ip).put ip ()) where
  keys ip' := by
    rw [hget ip', OrderedDict.get?_put, OrderedDict.get?_pop]
    split
    · exact ⟨fun _ => rfl, fun _ => rfl⟩
    · exact h.keys ip'
  window ip' found hfound := by
    rw [hget ip'] at hfound
    rw [hlast ip']
    split at hfound
    · rename_i heq
      cases hfound
      rw [if_pos heq]
      refine ⟨List.append_ne_nil_of_right_ne_nil _ (List.cons_ne_nil _ _), ?_, List.getLast?_concat⟩
      rw [List.pairwise_append]
      refine ⟨hsorted, List.pairwise_singleton _ _, ?_⟩
      intro t ht u hu
      rw [List.mem_singleton.mp hu]
      exact hpast t ht
    · rename_i hne
      rw [if_neg hne]
      exact h.window ip' found hfound
  order := by
    have hentries : ((expiryOrder.pop ip).put ip ()).entries = (expiryOrder.pop ip).entries ++ [(ip, ())] := by
      have hfilter : (expiryOrder.pop ip).entries.filter (fun e => decide (e.1 ≠ ip)) =
          (expiryOrder.pop ip).entries :=
        List.filter_eq_self.mpr fun e he => (OrderedDict.mem_keep.mp he).2
      exact congrArg (· ++ [(ip, ())]) hfilter
    rw [hentries, List.pairwise_append]
    refine ⟨?_, List.pairwise_singleton _ _, ?_⟩
    · refine List.Pairwise.imp_of_mem ?_ (h.pop ip).order
      intro a b ha hb hle ta hta tb htb
      have hane : a.1 ≠ ip := by simpa using (OrderedDict.mem_keep.mp ha).2
      have hbne : b.1 ≠ ip := by simpa using (OrderedDict.mem_keep.mp hb).2
      rw [hlast, if_neg hane] at hta
      rw [hlast, if_neg hbne] at htb
      exact hle ta hta tb htb
    · intro a ha b hb ta hta tb htb
      have hane : a.1 ≠ ip := by simpa using (OrderedDict.mem_keep.mp ha).2
      rw [List.mem_singleton.mp hb, hlast, if_pos rfl] at htb
      cases htb
      rw [hlast, if_neg hane] at hta
      exact hlastPast a.1 ta hta

end WindowsSound

namespace SmtpConnections

variable {last : Text → Option Rat} {c c' c'' : SmtpConnections} {cutoff : Rat}

/-- The limiter is in order. -/
def Sound (last : Text → Option Rat) (c : SmtpConnections) : Prop :=
  WindowsSound last c.smtpIpWindows c.smtpIpExpiryOrder

/-- Windows are given up, and nothing else changes. -/
structure Forgets (c c' : SmtpConnections) : Prop where
  active : c'.activeSmtpConnections = c.activeSmtpConnections
  kept : ∀ ip, c'.smtpIpWindows.get? ip = c.smtpIpWindows.get? ip ∨ c'.smtpIpWindows.get? ip = none
  length : c'.smtpIpWindows.entries.length ≤ c.smtpIpWindows.entries.length

theorem Forgets.refl (c : SmtpConnections) : Forgets c c := ⟨rfl, fun _ => .inl rfl, Nat.le_refl _⟩

theorem Forgets.trans (h : Forgets c c') (h' : Forgets c' c'') : Forgets c c'' where
  active := h'.active.trans h.active
  kept ip := by
    rcases h'.kept ip with hkept | hnone
    · rw [hkept]
      exact h.kept ip
    · exact .inr hnone
  length := Nat.le_trans h'.length h.length

/-- One address is forgotten by both dictionaries. -/
def forget (c : SmtpConnections) (ip : Text) : SmtpConnections :=
  { c with
    smtpIpWindows := c.smtpIpWindows.pop ip
    smtpIpExpiryOrder := c.smtpIpExpiryOrder.pop ip }

theorem forgets_forget (c : SmtpConnections) (ip : Text) : Forgets c (c.forget ip) where
  active := rfl
  kept ip' := by
    rw [forget, OrderedDict.get?_pop]
    split
    · exact .inr rfl
    · exact .inl rfl
  length := OrderedDict.length_pop_le

/-! ## Evictions -/

/-- What `_evict_stale_smtp_ip_windows` leaves: exactly the windows that still count. -/
structure StaleEvicted (last : Text → Option Rat) (cutoff : Rat) (c c' : SmtpConnections) : Prop where
  sound : c'.Sound last
  forgets : Forgets c c'
  fresh : ∀ ip, (c'.smtpIpWindows.get? ip).isSome → ∀ t ∈ last ip, cutoff < t
  stale : ∀ ip, c'.smtpIpWindows.get? ip = c.smtpIpWindows.get? ip ∨ ∀ t ∈ last ip, t ≤ cutoff

/-- The addresses behind the first fresh one are fresh too. -/
theorem staleEvicted_of_fresh (h : c.Sound last) {ip : Text} {rest : List (Text × Unit)}
    (hentries : c.smtpIpExpiryOrder.entries = (ip, ()) :: rest) (hfresh : ∃ t ∈ last ip, cutoff < t) :
    StaleEvicted last cutoff c c where
  sound := h
  forgets := .refl c
  fresh ip' hsome t ht := by
    obtain ⟨first, hfirst, hlt⟩ := hfresh
    have hmem : ip' ∈ c.smtpIpExpiryOrder.entries.map Prod.fst :=
      OrderedDict.get?_isSome.mp ((h.keys ip').mp hsome)
    have horder := h.order
    rw [hentries] at hmem horder
    rcases List.mem_cons.mp hmem with rfl | hmem
    · rw [Option.mem_unique ht hfirst]
      exact hlt
    · obtain ⟨e, he, rfl⟩ := List.mem_map.mp hmem
      exact lt_of_lt_of_le hlt ((List.pairwise_cons.mp horder).1 e he first hfirst t ht)
  stale _ := .inl rfl

theorem evictStaleFrom_spec (h : c.Sound last) {rounds : Nat}
    (hrounds : c.smtpIpExpiryOrder.entries.length ≤ rounds) :
    StaleEvicted last cutoff c (evictStaleFrom cutoff rounds c) := by
  induction rounds generalizing c with
  | zero =>
    refine ⟨h, .refl c, ?_, fun _ => .inl rfl⟩
    intro ip hsome
    have hmem := OrderedDict.get?_isSome.mp ((h.keys ip).mp hsome)
    rw [List.length_eq_zero_iff.mp (Nat.le_zero.mp hrounds)] at hmem
    cases hmem
  | succ rounds ih =>
    rw [evictStaleFrom]
    cases hentries : c.smtpIpExpiryOrder.entries with
    | nil =>
      refine ⟨h, .refl c, ?_, fun _ => .inl rfl⟩
      intro ip hsome
      have hmem := OrderedDict.get?_isSome.mp ((h.keys ip).mp hsome)
      rw [hentries] at hmem
      cases hmem
    | cons e rest =>
      obtain ⟨ip, ⟨⟩⟩ := e
      have hsome : (c.smtpIpExpiryOrder.get? ip).isSome := by
        rw [OrderedDict.get?_isSome, hentries]
        exact List.mem_cons_self
      obtain ⟨window, hwindow⟩ := Option.isSome_iff_exists.mp ((h.keys ip).mpr hsome)
      obtain ⟨-, -, hlast⟩ := h.window ip window hwindow
      obtain ⟨t, ht, -⟩ := h.last_isSome hwindow
      simp only [hwindow, hlast, ht, Option.any_some]
      by_cases hfresh : cutoff < t
      · rw [if_pos (by simpa using hfresh)]
        exact staleEvicted_of_fresh h hentries ⟨t, ht, hfresh⟩
      · rw [if_neg (by simpa using hfresh)]
        have hpop := OrderedDict.dropOldest_eq_pop hentries
        have hlength : (c.smtpIpExpiryOrder.pop ip).entries.length ≤ rounds := by
          rw [← hpop, OrderedDict.length_dropOldest]
          omega
        rw [hpop]
        have hrest : StaleEvicted last cutoff (c.forget ip) _ := ih (WindowsSound.pop h ip) hlength
        refine ⟨hrest.sound, (forgets_forget c ip).trans hrest.forgets, hrest.fresh, fun ip' => ?_⟩
        by_cases heq : ip' = ip
        · refine .inr fun t' ht' => ?_
          rw [heq] at ht'
          rw [Option.mem_unique ht' ht]
          exact not_lt.mp hfresh
        · rcases hrest.stale ip' with hkept | hstale
          · refine .inl (hkept.trans ?_)
            rw [forget, OrderedDict.get?_pop, if_neg heq]
          · exact .inr hstale

theorem evictOldest_spec (h : c.Sound last) :
    c.evictOldest.Sound last ∧ Forgets c c.evictOldest ∧
      c.evictOldest.smtpIpWindows.entries.length = c.smtpIpWindows.entries.length - 1 := by
  unfold evictOldest
  cases hentries : c.smtpIpWindows.entries with
  | nil =>
    refine ⟨h, .refl c, ?_⟩
    rw [hentries]
    rfl
  | cons e rest =>
    obtain ⟨ip, window⟩ := e
    have hpop := OrderedDict.dropOldest_eq_pop hentries
    have hforget : (⟨c.activeSmtpConnections, c.smtpIpWindows.dropOldest, c.smtpIpExpiryOrder.pop ip⟩ :
        SmtpConnections) = c.forget ip := by
      rw [forget, hpop]
    dsimp only
    rw [hforget]
    refine ⟨WindowsSound.pop h ip, forgets_forget c ip, ?_⟩
    rw [OrderedDict.length_dropOldest, hentries]

theorem iterate_evictOldest_spec (h : c.Sound last) (rounds : Nat) :
    (evictOldest^[rounds] c).Sound last ∧ Forgets c (evictOldest^[rounds] c) ∧
      (evictOldest^[rounds] c).smtpIpWindows.entries.length =
        c.smtpIpWindows.entries.length - rounds := by
  induction rounds generalizing c with
  | zero => exact ⟨h, .refl c, rfl⟩
  | succ rounds ih =>
    obtain ⟨hsound, hforgets, hlength⟩ := evictOldest_spec h
    obtain ⟨hsoundRest, hforgetsRest, hlengthRest⟩ := ih hsound
    rw [Function.iterate_succ_apply]
    exact ⟨hsoundRest, hforgets.trans hforgetsRest, by omega⟩

/-- The loop leaves room for one more window. -/
theorem evictToCapacity_spec (h : c.Sound last) {capacity : Int} (hpos : 0 < capacity) :
    (c.evictToCapacity capacity).Sound last ∧ Forgets c (c.evictToCapacity capacity) ∧
      ((c.evictToCapacity capacity).smtpIpWindows.entries.length : Int) < capacity := by
  obtain ⟨hsound, hforgets, hlength⟩ :=
    iterate_evictOldest_spec h (c.smtpIpWindows.entries.length + 1 - capacity).toNat
  exact ⟨hsound, hforgets, by rw [evictToCapacity, hlength]; omega⟩

/-! ## The window that is consulted -/

theorem smtpIpWindowCapacity_pos (settings : SmtpConnectionSettings) :
    0 < smtpIpWindowCapacity settings := by
  unfold smtpIpWindowCapacity smtpIpRateStateMaxEntries smtpIpRateStateMinEntries
  dsimp only
  omega

/-- After `openWindow` both dictionaries are those of a state `kept` in order, but for the window of
    the address itself, which may be empty. -/
structure Opened (last : Text → Option Rat) (settings : SmtpConnectionSettings) (cutoff : Rat)
    (ip : Text) (c kept opened : SmtpConnections) : Prop where
  sound : kept.Sound last
  active : opened.activeSmtpConnections = c.activeSmtpConnections
  expiryOrder : opened.smtpIpExpiryOrder = kept.smtpIpExpiryOrder
  get? : ∀ ip', opened.smtpIpWindows.get? ip' =
    if ip' = ip then some ((kept.smtpIpWindows.get? ip).getD []) else kept.smtpIpWindows.get? ip'
  capacity : (opened.smtpIpWindows.entries.length : Int) ≤ smtpIpWindowCapacity settings
  fresh : (kept.smtpIpWindows.get? ip).isSome → ∀ t ∈ last ip, cutoff < t
  forgotten : ∀ ip', kept.smtpIpWindows.get? ip' = c.smtpIpWindows.get? ip' ∨
    kept.smtpIpWindows.get? ip' = none ∧ ((∀ t ∈ last ip', t ≤ cutoff) ∨
      ((c.evictStaleSmtpIpWindows cutoff).smtpIpWindows.get? ip').isSome ∧
        opened.smtpIpWindows.get? ip' = none)

theorem openWindow_spec (h : c.Sound last) {settings : SmtpConnectionSettings} (cutoff : Rat) (ip : Text)
    (hcapacity : (c.smtpIpWindows.entries.length : Int) ≤ smtpIpWindowCapacity settings) :
    ∃ kept, Opened last settings cutoff ip c kept (c.openWindow settings cutoff ip) := by
  have hstale : StaleEvicted last cutoff c (c.evictStaleSmtpIpWindows cutoff) :=
    evictStaleFrom_spec h (Nat.le_refl _)
  have hforgotten (ip' : Text) : (c.evictStaleSmtpIpWindows cutoff).smtpIpWindows.get? ip' =
        c.smtpIpWindows.get? ip' ∨
      (c.evictStaleSmtpIpWindows cutoff).smtpIpWindows.get? ip' = none ∧ ∀ t ∈ last ip', t ≤ cutoff := by
    rcases hstale.stale ip' with hkept | hle
    · exact .inl hkept
    · rcases hstale.forgets.kept ip' with hkept | hnone
      · exact .inl hkept
      · exact .inr ⟨hnone, hle⟩
  cases hget : (c.evictStaleSmtpIpWindows cutoff).smtpIpWindows.get? ip with
  | some window =>
    have hopen : c.openWindow settings cutoff ip =
        { c.evictStaleSmtpIpWindows cutoff with
          smtpIpWindows := (c.evictStaleSmtpIpWindows cutoff).smtpIpWindows.moveToEnd ip } := by
      simp only [openWindow, hget]
    rw [hopen]
    refine ⟨c.evictStaleSmtpIpWindows cutoff, hstale.sound, hstale.forgets.active, rfl, ?_, ?_,
      hstale.fresh ip, ?_⟩
    · intro ip'
      dsimp only
      rw [OrderedDict.get?_moveToEnd]
      split
      · rename_i heq
        rw [heq, hget]
        rfl
      · rfl
    · have hmove : ((c.evictStaleSmtpIpWindows cutoff).smtpIpWindows.moveToEnd ip).entries.length ≤
          c.smtpIpWindows.entries.length :=
        Nat.le_trans OrderedDict.length_moveToEnd_le hstale.forgets.length
      exact le_trans (Int.ofNat_le.mpr hmove) hcapacity
    · intro ip'
      rcases hforgotten ip' with hkept | ⟨hnone, hle⟩
      · exact .inl hkept
      · exact .inr ⟨hnone, .inl hle⟩
  | none =>
    obtain ⟨hsound, hforgets, hlength⟩ :=
      evictToCapacity_spec hstale.sound (smtpIpWindowCapacity_pos settings)
    have hopen : c.openWindow settings cutoff ip =
        { (c.evictStaleSmtpIpWindows cutoff).evictToCapacity (smtpIpWindowCapacity settings) with
          smtpIpWindows := ((c.evictStaleSmtpIpWindows cutoff).evictToCapacity
            (smtpIpWindowCapacity settings)).smtpIpWindows.put ip [] } := by
      simp only [openWindow, hget]
    rw [hopen]
    have hnone : ((c.evictStaleSmtpIpWindows cutoff).evictToCapacity
        (smtpIpWindowCapacity settings)).smtpIpWindows.get? ip = none := by
      rcases hforgets.kept ip with hkept | hnone
      · exact hkept.trans hget
      · exact hnone
    refine ⟨_, hsound, hforgets.active.trans hstale.forgets.active, rfl, ?_, ?_, ?_, ?_⟩
    · intro ip'
      rw [OrderedDict.get?_put, hnone]
      rfl
    · have := OrderedDict.length_put_le (d := ((c.evictStaleSmtpIpWindows cutoff).evictToCapacity
        (smtpIpWindowCapacity settings)).smtpIpWindows) (k := ip) (v := ([] : List Rat))
      dsimp only
      omega
    · intro hsome
      rw [hnone] at hsome
      cases hsome
    · intro ip'
      rcases hforgets.kept ip' with hkept | hgone
      · rcases hforgotten ip' with hsame | ⟨hstaleNone, hle⟩
        · exact .inl (hkept.trans hsame)
        · exact .inr ⟨hkept.trans hstaleNone, .inl hle⟩
      · by_cases hsome : ((c.evictStaleSmtpIpWindows cutoff).smtpIpWindows.get? ip').isSome
        · refine .inr ⟨hgone, .inr ⟨hsome, ?_⟩⟩
          have hne : ip' ≠ ip := by
            rintro rfl
            rw [hget] at hsome
            cases hsome
          rw [OrderedDict.get?_put, if_neg hne]
          exact hgone
        · have hstaleNone : (c.evictStaleSmtpIpWindows cutoff).smtpIpWindows.get? ip' = none :=
            Option.not_isSome_iff_eq_none.mp hsome
          rcases hforgotten ip' with hsame | ⟨-, hle⟩
          · exact .inl (hgone.trans (hstaleNone.symm.trans hsame))
          · exact .inr ⟨hgone, .inl hle⟩

end SmtpConnections

namespace SmtpConnectionSystem

open SmtpConnections

variable {settings : SmtpConnectionSettings} {s s' : SmtpConnectionSystem} {call : SmtpConnectionCall}

/-! ## One call -/

/-- The limiter follows the connections that were accepted, and nothing grows beyond its limit. -/
structure Sound (settings : SmtpConnectionSettings) (s : SmtpConnectionSystem) : Prop where
  limiter : WindowsSound (lastAccepted s.accepted) s.connections.smtpIpWindows
    s.connections.smtpIpExpiryOrder
  past : ∀ a ∈ s.accepted, a.2 ≤ s.clock
  capacity : (s.connections.smtpIpWindows.entries.length : Int) ≤ smtpIpWindowCapacity settings
  active : 0 < settings.smtpMaxConcurrentConnections →
    (s.connections.activeSmtpConnections.entries.length : Int) ≤ settings.smtpMaxConcurrentConnections

/-- The times that `register_smtp_connection` keeps of a window. -/
def keptTimes (settings : SmtpConnectionSettings) (now : Rat) (window : Option (List Rat)) : List Rat :=
  (window.getD []).dropWhile fun t => decide (t ≤ now - settings.smtpConnectionRateLimitWindowSeconds)

/-- What a call can do. -/
inductive Stepped (settings : SmtpConnectionSettings) (s : SmtpConnectionSystem) :
    SmtpConnectionCall → SmtpConnectionSystem → Prop
  /-- The windows are not touched. -/
  | idle {call : SmtpConnectionCall} {s' : SmtpConnectionSystem} (haccepted : s'.accepted = s.accepted)
      (hwindows : s'.connections.smtpIpWindows = s.connections.smtpIpWindows)
      (hexpiry : s'.connections.smtpIpExpiryOrder = s.connections.smtpIpExpiryOrder)
      (hclock : s.clock ≤ s'.clock) (hactive : s'.connections.activeSmtpConnections.entries.length ≤
        s.connections.activeSmtpConnections.entries.length) : Stepped settings s call s'
  | rejected {sessionId ip : Text} {now : Rat} {kept opened : SmtpConnections}
      (hsettled : settled settings s.connections sessionId = none) (hclock : s.clock ≤ now)
      (hopen : opened = s.connections.openWindow settings
        (now - settings.smtpConnectionRateLimitWindowSeconds) ip)
      (hopened : Opened (lastAccepted s.accepted) settings
        (now - settings.smtpConnectionRateLimitWindowSeconds) ip s.connections kept opened)
      (hfull : settings.smtpConnectionRateLimitCount ≤
        (keptTimes settings now (kept.smtpIpWindows.get? ip)).length) :
      Stepped settings s (.register sessionId ip now)
        ⟨⟨opened.activeSmtpConnections,
            opened.smtpIpWindows.put ip (keptTimes settings now (kept.smtpIpWindows.get? ip)),
            opened.smtpIpExpiryOrder⟩, now, s.accepted⟩
  | accepted {sessionId ip : Text} {now : Rat} {kept opened : SmtpConnections}
      (hsettled : settled settings s.connections sessionId = none) (hclock : s.clock ≤ now)
      (hopen : opened = s.connections.openWindow settings
        (now - settings.smtpConnectionRateLimitWindowSeconds) ip)
      (hopened : Opened (lastAccepted s.accepted) settings
        (now - settings.smtpConnectionRateLimitWindowSeconds) ip s.connections kept opened)
      (hroom : ((keptTimes settings now (kept.smtpIpWindows.get? ip)).length : Int) <
        settings.smtpConnectionRateLimitCount) :
      Stepped settings s (.register sessionId ip now)
        ⟨⟨opened.activeSmtpConnections.put sessionId ip,
            opened.smtpIpWindows.put ip (keptTimes settings now (kept.smtpIpWindows.get? ip) ++ [now]),
            (opened.smtpIpExpiryOrder.pop ip).put ip ()⟩, now, s.accepted ++ [(ip, now)]⟩

theorem stepped_of_step (hlimited : limited settings) (h : Sound settings s)
    (hstep : step settings s call = some s') : Stepped settings s call s' := by
  cases call with
  | release sessionId =>
    cases hstep
    exact .idle rfl rfl rfl (le_refl _) OrderedDict.length_pop_le
  | register sessionId ip now =>
    rw [step] at hstep
    split at hstep
    · rename_i hclock
      cases hsettled : settled settings s.connections sessionId with
      | some reply =>
        have hregister : registerSmtpConnection settings sessionId ip now s.connections =
            (reply, s.connections) := by
          rw [registerSmtpConnection, hsettled]
        have hnew : ¬ (reply.1 = true ∧
            s.connections.activeSmtpConnections.get? sessionId = none) := by
          rintro ⟨hreply, hnone⟩
          rw [settled, hnone, if_neg (by simp)] at hsettled
          split at hsettled
          · cases hsettled
            cases hreply
          · cases hsettled
        rw [hregister] at hstep
        dsimp only at hstep
        rw [if_neg hnew] at hstep
        cases hstep
        exact .idle rfl rfl rfl hclock (Nat.le_refl _)
      | none =>
        obtain ⟨kept, hopened⟩ := openWindow_spec h.limiter
          (now - settings.smtpConnectionRateLimitWindowSeconds) ip h.capacity
        have hnone : s.connections.activeSmtpConnections.get? sessionId = none := by
          rw [← Option.not_isSome_iff_eq_none]
          intro hsome
          rw [settled, if_pos hsome] at hsettled
          cases hsettled
        have hwindow : ((s.connections.openWindow settings
            (now - settings.smtpConnectionRateLimitWindowSeconds) ip).smtpIpWindows.get? ip).getD [] =
            (kept.smtpIpWindows.get? ip).getD [] := by
          rw [hopened.get? ip, if_pos rfl]
          rfl
        rw [registerSmtpConnection, hsettled] at hstep
        dsimp only at hstep
        rw [if_pos hlimited, hwindow] at hstep
        split at hstep
        · rename_i hfull
          rw [if_neg (by simp)] at hstep
          cases hstep
          exact .rejected hsettled hclock rfl hopened hfull
        · rename_i hroom
          rw [if_pos ⟨rfl, hnone⟩] at hstep
          cases hstep
          exact .accepted hsettled hclock rfl hopened (not_le.mp hroom)
    · cases hstep

/-! ## The windows over a run -/

theorem keptTimes_sorted {kept : SmtpConnections} {last : Text → Option Rat} (h : kept.Sound last)
    (ip : Text) (now : Rat) :
    (keptTimes settings now (kept.smtpIpWindows.get? ip)).Pairwise (· ≤ ·) := by
  cases hget : kept.smtpIpWindows.get? ip with
  | none => exact List.Pairwise.nil
  | some window =>
    exact (h.window ip window hget).2.1.sublist (List.dropWhile_sublist _)

theorem keptTimes_past {kept : SmtpConnections} {last : Text → Option Rat} (h : kept.Sound last)
    {ip : Text} {now : Rat} (hpast : ∀ t ∈ last ip, t ≤ now) :
    ∀ t ∈ keptTimes settings now (kept.smtpIpWindows.get? ip), t ≤ now := by
  intro t ht
  cases hget : kept.smtpIpWindows.get? ip with
  | none =>
    rw [hget] at ht
    cases ht
  | some window =>
    rw [hget] at ht
    obtain ⟨u, hu, -⟩ := h.last_isSome hget
    obtain ⟨-, hsorted, hlast⟩ := h.window ip window hget
    have hmem : t ∈ window := (List.dropWhile_sublist _).subset ht
    exact le_trans (le_of_mem_of_getLast? hsorted (hlast.trans hu) hmem) (hpast u hu)

/-- A window that is there keeps its last connection. -/
theorem keptTimes_last {kept : SmtpConnections} {last : Text → Option Rat} (h : kept.Sound last)
    {ip : Text} {now : Rat} (hsome : (kept.smtpIpWindows.get? ip).isSome)
    (hfresh : ∀ t ∈ last ip, now - settings.smtpConnectionRateLimitWindowSeconds < t) :
    keptTimes settings now (kept.smtpIpWindows.get? ip) ≠ [] ∧
      (keptTimes settings now (kept.smtpIpWindows.get? ip)).getLast? = last ip := by
  obtain ⟨window, hget⟩ := Option.isSome_iff_exists.mp hsome
  obtain ⟨t, ht, -⟩ := h.last_isSome hget
  obtain ⟨-, -, hlast⟩ := h.window ip window hget
  have hne := dropWhile_ne_nil (hlast.trans ht) (hfresh t ht)
  rw [hget]
  exact ⟨hne, (getLast?_dropWhile hne).trans hlast⟩

theorem put_window {last : Text → Option Rat} {cutoff : Rat} {ip : Text} {c kept opened : SmtpConnections}
    (h : Opened last settings cutoff ip c kept opened) (window : List Rat) :
    (∀ ip', (opened.smtpIpWindows.put ip window).get? ip' =
        if ip' = ip then some window else kept.smtpIpWindows.get? ip') ∧
      ((opened.smtpIpWindows.put ip window).entries.length : Int) ≤ smtpIpWindowCapacity settings := by
  constructor
  · intro ip'
    rw [OrderedDict.get?_put, h.get? ip']
    split
    · rfl
    · rfl
  · have hsome : (opened.smtpIpWindows.get? ip).isSome := by
      rw [h.get? ip, if_pos rfl]
      rfl
    exact le_trans (Int.ofNat_le.mpr (OrderedDict.length_put_of_isSome hsome)) h.capacity

theorem Sound.step (hlimited : limited settings) (h : Sound settings s)
    (hstep : SmtpConnectionSystem.step settings s call = some s') : Sound settings s' := by
  have hlastPast : ∀ ip, ∀ t ∈ lastAccepted s.accepted ip, t ≤ s.clock := fun ip t ht =>
    h.past (ip, t) (mem_of_lastAccepted ht)
  cases stepped_of_step hlimited h hstep with
  | idle haccepted hwindows hexpiry hclock hactive =>
    refine ⟨?_, ?_, ?_, ?_⟩
    · rw [haccepted, hwindows, hexpiry]
      exact h.limiter
    · rw [haccepted]
      exact fun a ha => le_trans (h.past a ha) hclock
    · rw [hwindows]
      exact h.capacity
    · exact fun hpos => le_trans (Int.ofNat_le.mpr hactive) (h.active hpos)
  | @rejected sessionId ip now kept opened hsettled hclock hopen hopened hfull =>
    have hsome : (kept.smtpIpWindows.get? ip).isSome := by
      by_contra hsome
      rw [Option.not_isSome_iff_eq_none.mp hsome] at hfull
      exact absurd hlimited.1 (not_lt.mpr hfull)
    obtain ⟨hget, hcapacity⟩ := put_window hopened (keptTimes settings now (kept.smtpIpWindows.get? ip))
    obtain ⟨hne, hlast⟩ := keptTimes_last hopened.sound hsome (hopened.fresh hsome)
    refine ⟨?_, fun a ha => le_trans (h.past a ha) hclock, hcapacity, ?_⟩
    · have := hopened.sound.replace hsome hne (keptTimes_sorted hopened.sound ip now) hlast hget
      rw [← hopened.expiryOrder] at this
      exact this
    · rw [hopened.active]
      exact h.active
  | @accepted sessionId ip now kept opened hsettled hclock hopen hopened hroom =>
    obtain ⟨hget, hcapacity⟩ :=
      put_window hopened (keptTimes settings now (kept.smtpIpWindows.get? ip) ++ [now])
    have hpast : ∀ ip, ∀ t ∈ lastAccepted s.accepted ip, t ≤ now := fun ip t ht =>
      le_trans (hlastPast ip t ht) hclock
    refine ⟨?_, ?_, hcapacity, ?_⟩
    · rw [hopened.expiryOrder]
      exact hopened.sound.accept (keptTimes_sorted hopened.sound ip now)
        (keptTimes_past hopened.sound (hpast ip)) hpast hget
        (lastAccepted_concat s.accepted ip · now)
    · intro a ha
      rcases List.mem_append.mp ha with ha | ha
      · exact le_trans (h.past a ha) hclock
      · rw [List.mem_singleton.mp ha]
    · intro hpos
      have hroom : ¬ settings.smtpMaxConcurrentConnections ≤
          (s.connections.activeSmtpConnections.entries.length : Int) := by
        intro hle
        rw [settled] at hsettled
        split at hsettled
        · cases hsettled
        · rw [if_pos ⟨hpos, hle⟩] at hsettled
          cases hsettled
      have hput : (opened.activeSmtpConnections.put sessionId ip).entries.length ≤
          s.connections.activeSmtpConnections.entries.length + 1 := by
        rw [hopened.active]
        exact OrderedDict.length_put_le
      show ((opened.activeSmtpConnections.put sessionId ip).entries.length : Int) ≤ _
      omega

theorem sound_start (settings : SmtpConnectionSettings) (clock : Rat) :
    Sound settings (start clock) where
  limiter :=
    { keys := fun _ => Iff.rfl
      window := by exact nofun
      order := List.Pairwise.nil }
  past := by exact nofun
  capacity := le_of_lt (smtpIpWindowCapacity_pos settings)
  active hpos := le_of_lt hpos

/-! ## Connections in a period -/

/-- The connections of an address that were accepted after the first `n` of all. -/
def acceptedSince (n : Nat) (ip : Text) (s : SmtpConnectionSystem) : List Rat :=
  EventLog.times ip (s.accepted.drop n)

def windowOf (ip : Text) (c : SmtpConnections) : List Rat := (c.smtpIpWindows.get? ip).getD []

/-- The window holds what still counts, and no period has had too many. -/
structure Counted (settings : SmtpConnectionSettings) (n : Nat) (ip : Text)
    (s : SmtpConnectionSystem) : Prop where
  since : n ≤ s.accepted.length
  tracked : ∀ x, s.clock - settings.smtpConnectionRateLimitWindowSeconds ≤ x →
    ((acceptedSince n ip s).filter fun t => decide (x < t)).length ≤
      ((windowOf ip s.connections).filter fun t => decide (x < t)).length
  bounded : ∀ period : Rat → Bool,
    (∀ t u, period t → period u → u - settings.smtpConnectionRateLimitWindowSeconds < t) →
    (((acceptedSince n ip s).filter period).length : Int) ≤ settings.smtpConnectionRateLimitCount

theorem acceptedSince_concat {n : Nat} (h : n ≤ s.accepted.length) (ip ip' : Text) (now : Rat)
    (c : SmtpConnections) :
    acceptedSince n ip' ⟨c, now, s.accepted ++ [(ip, now)]⟩ =
      acceptedSince n ip' s ++ if ip' = ip then [now] else [] :=
  EventLog.times_drop_concat h ip ip' now

/-- What `openWindow` forgets of an address does not count any more, unless it is evicted. -/
theorem filter_kept {c kept opened : SmtpConnections} {last : Text → Option Rat} {cutoff x : Rat}
    {ip ip' : Text} (h : c.Sound last) (hopened : Opened last settings cutoff ip c kept opened)
    (hkept : ¬ (((c.evictStaleSmtpIpWindows cutoff).smtpIpWindows.get? ip').isSome ∧
      opened.smtpIpWindows.get? ip' = none)) (hx : cutoff ≤ x) :
    (windowOf ip' kept).filter (fun t => decide (x < t)) =
      (windowOf ip' c).filter fun t => decide (x < t) := by
  unfold windowOf
  rcases hopened.forgotten ip' with hsame | ⟨hnone, hstale | hevicted⟩
  · rw [hsame]
  · rw [hnone]
    cases hget : c.smtpIpWindows.get? ip' with
    | none => rfl
    | some window =>
      obtain ⟨u, hu, -⟩ := h.last_isSome hget
      obtain ⟨-, hsorted, hlast⟩ := h.window ip' window hget
      symm
      rw [Option.getD_some, Option.getD_none, List.filter_nil, List.filter_eq_nil_iff]
      intro t ht hlt
      have hle : t ≤ x := le_trans (le_of_mem_of_getLast? hsorted (hlast.trans hu) ht)
        (le_trans (hstale u hu) hx)
      exact absurd (of_decide_eq_true hlt) (not_lt.mpr hle)
  · exact absurd hevicted hkept

/-- A connection that is accepted finds fewer than the limit in its window. -/
theorem Counted.accept {n : Nat} {ip : Text} {now : Rat} {connections : SmtpConnections}
    {kept : Option (List Rat)} (h : Counted settings n ip s) (hclock : s.clock ≤ now)
    (hkept : ∀ x, now - settings.smtpConnectionRateLimitWindowSeconds ≤ x →
      (kept.getD []).filter (fun t => decide (x < t)) =
        (windowOf ip s.connections).filter fun t => decide (x < t))
    (hroom : ((keptTimes settings now kept).length : Int) < settings.smtpConnectionRateLimitCount)
    (hwindow : windowOf ip connections = keptTimes settings now kept ++ [now]) :
    Counted settings n ip ⟨connections, now, s.accepted ++ [(ip, now)]⟩ := by
  have htimes := acceptedSince_concat h.since ip ip now connections
  rw [if_pos rfl] at htimes
  have hbefore (x : Rat) (hx : now - settings.smtpConnectionRateLimitWindowSeconds ≤ x) :
      ((acceptedSince n ip s).filter fun t => decide (x < t)).length ≤
        ((keptTimes settings now kept).filter fun t => decide (x < t)).length := by
    rw [keptTimes, filter_dropWhile hx, hkept x hx]
    exact h.tracked x (le_trans (sub_le_sub_right hclock _) hx)
  refine ⟨?_, ?_, ?_⟩
  · rw [List.length_append]
    exact Nat.le_add_right_of_le h.since
  · intro x hx
    rw [htimes, hwindow, List.filter_append, List.filter_append, List.length_append,
      List.length_append]
    exact Nat.add_le_add_right (hbefore x hx) _
  · intro period hperiod
    rw [htimes, List.filter_append, List.length_append]
    by_cases hnow : period now = true
    · -- the whole period lies behind the cutoff
      have hlate : ((acceptedSince n ip s).filter period).length ≤
          ((acceptedSince n ip s).filter fun t => decide
            (now - settings.smtpConnectionRateLimitWindowSeconds < t)).length :=
        (List.monotone_filter_right _ fun t ht => by simpa using hperiod t now ht hnow).length_le
      have hfew := (hbefore _ (le_refl _)).trans (List.length_filter_le _ _)
      rw [List.filter_cons_of_pos hnow, List.filter_nil, List.length_singleton]
      omega
    · rw [List.filter_cons_of_neg hnow, List.filter_nil, List.length_nil]
      exact h.bounded period hperiod

theorem Counted.step {n : Nat} {ip : Text} (hlimited : limited settings) (hs : Sound settings s)
    (h : Counted settings n ip s) (hkeep : ¬ EvictsByCapacity settings ip s call)
    (hstep : SmtpConnectionSystem.step settings s call = some s') : Counted settings n ip s' := by
  cases stepped_of_step hlimited hs hstep with
  | idle haccepted hwindows hexpiry hclock hactive =>
    have htimes : acceptedSince n ip s' = acceptedSince n ip s := by
      rw [acceptedSince, haccepted]
      rfl
    refine ⟨haccepted ▸ h.since, fun x hx => ?_, fun period hperiod => htimes ▸ h.bounded period hperiod⟩
    rw [htimes, windowOf, hwindows]
    exact h.tracked x (le_trans (sub_le_sub_right hclock _) hx)
  | @rejected sessionId ip' now kept opened hsettled hclock hopen hopened hfull =>
    have hfilter : ∀ x, now - settings.smtpConnectionRateLimitWindowSeconds ≤ x →
        (windowOf ip kept).filter (fun t => decide (x < t)) =
          (windowOf ip s.connections).filter fun t => decide (x < t) := fun x hx =>
      filter_kept hs.limiter hopened (fun hevicted => hkeep ⟨hsettled, hlimited, hopen ▸ hevicted⟩) hx
    refine ⟨h.since, fun x hx => ?_, h.bounded⟩
    have htracked := h.tracked x (le_trans (sub_le_sub_right hclock _) hx)
    rw [← hfilter x hx] at htracked
    refine Nat.le_trans htracked (Nat.le_of_eq (congrArg List.length ?_))
    unfold windowOf
    rw [(put_window hopened _).1 ip]
    by_cases hip : ip = ip'
    · rw [if_pos hip, Option.getD_some, hip, keptTimes, filter_dropWhile hx]
    · rw [if_neg hip]
  | @accepted sessionId ip' now kept opened hsettled hclock hopen hopened hroom =>
    have hfilter : ∀ x, now - settings.smtpConnectionRateLimitWindowSeconds ≤ x →
        (windowOf ip kept).filter (fun t => decide (x < t)) =
          (windowOf ip s.connections).filter fun t => decide (x < t) := fun x hx =>
      filter_kept hs.limiter hopened (fun hevicted => hkeep ⟨hsettled, hlimited, hopen ▸ hevicted⟩) hx
    have hget := (put_window hopened (keptTimes settings now (kept.smtpIpWindows.get? ip') ++ [now])).1 ip
    by_cases hip : ip = ip'
    · subst hip
      refine h.accept hclock hfilter hroom ?_
      rw [windowOf, hget, if_pos rfl]
      rfl
    · have htimes := acceptedSince_concat h.since ip' ip now
        ⟨opened.activeSmtpConnections.put sessionId ip', opened.smtpIpWindows.put ip'
          (keptTimes settings now (kept.smtpIpWindows.get? ip') ++ [now]),
          (opened.smtpIpExpiryOrder.pop ip').put ip' ()⟩
      rw [if_neg hip, List.append_nil] at htimes
      refine ⟨?_, fun x hx => ?_, fun period hperiod => htimes ▸ h.bounded period hperiod⟩
      · rw [List.length_append]
        exact Nat.le_add_right_of_le h.since
      · rw [htimes, windowOf, hget, if_neg hip]
        have htracked := h.tracked x (le_trans (sub_le_sub_right hclock _) hx)
        rw [← hfilter x hx] at htracked
        exact htracked

theorem counted_start (ip : Text) (hlimited : limited settings) (s : SmtpConnectionSystem) :
    Counted settings s.accepted.length ip s := by
  have hnone : acceptedSince s.accepted.length ip s = [] := by
    rw [acceptedSince, List.drop_length]
    rfl
  refine ⟨Nat.le_refl _, ?_, ?_⟩
  · intro x hx
    rw [hnone]
    exact Nat.zero_le _
  · intro period hperiod
    rw [hnone]
    exact le_of_lt hlimited.1

/-- After any calls the limiter is in order; and in any further calls that do not evict the window of
    an address by capacity, no half-open period has more new connections of it than the limit. -/
theorem smtp_connection_limits (settings : SmtpConnectionSettings) (hlimited : limited settings)
    {clock : Rat} {calls : List SmtpConnectionCall} {s : SmtpConnectionSystem}
    (hrun : Transition.run (SmtpConnectionSystem.step settings) (start clock) calls = some s) :
    Sound settings s ∧
      ∀ (ip : Text) (more : List SmtpConnectionCall) (s' : SmtpConnectionSystem),
        Transition.Along (SmtpConnectionSystem.step settings)
          (fun s call => ¬ EvictsByCapacity settings ip s call) s more →
        Transition.run (SmtpConnectionSystem.step settings) s more = some s' → ∀ t : Rat,
          (((acceptedSince s.accepted.length ip s').filter fun u => decide
              (t ≤ u ∧ u < t + settings.smtpConnectionRateLimitWindowSeconds)).length : Int) ≤
            settings.smtpConnectionRateLimitCount ∧
          (((acceptedSince s.accepted.length ip s').filter fun u => decide
              (t < u ∧ u ≤ t + settings.smtpConnectionRateLimitWindowSeconds)).length : Int) ≤
            settings.smtpConnectionRateLimitCount := by
  have hsound : Sound settings s :=
    Transition.run_invariant (fun _ _ _ h hstep => h.step hlimited hstep) (sound_start settings clock) hrun
  refine ⟨hsound, fun ip more s' halong hmore t => ?_⟩
  have hboth : ∀ s₁ call s₂, (Sound settings s₁ ∧ Counted settings s.accepted.length ip s₁) →
      ¬ EvictsByCapacity settings ip s₁ call → SmtpConnectionSystem.step settings s₁ call = some s₂ →
      Sound settings s₂ ∧ Counted settings s.accepted.length ip s₂ := by
    intro s₁ call s₂ h hkeep hstep
    exact ⟨h.1.step hlimited hstep, h.2.step hlimited h.1 hkeep hstep⟩
  have hcounted : Sound settings s' ∧ Counted settings s.accepted.length ip s' :=
    Transition.run_invariant_along hboth ⟨hsound, counted_start ip hlimited s⟩ halong hmore
  constructor
  · apply hcounted.2.bounded
    intro u v hu hv
    have hu := of_decide_eq_true hu
    have hv := of_decide_eq_true hv
    linarith [hu.1, hv.2]
  · apply hcounted.2.bounded
    intro u v hu hv
    have hu := of_decide_eq_true hu
    have hv := of_decide_eq_true hv
    linarith [hu.1, hv.2]

/-- One connection a minute. -/
def oneAMinute : SmtpConnectionSettings := ⟨2, 1, 60⟩

def firstConnection : List SmtpConnectionCall :=
  [.register ['a'] ['x'] 0, .release ['a']]

/-- One connection too early and one after the minute. -/
def laterConnections : List SmtpConnectionCall :=
  [.register ['b'] ['x'] 30, .register ['c'] ['x'] 60]

theorem smtp_connection_limits_oneAMinute :
    ∃ s s', Transition.run (SmtpConnectionSystem.step oneAMinute) (start 0) firstConnection = some s ∧
      Transition.run (SmtpConnectionSystem.step oneAMinute) s laterConnections = some s' ∧
      Sound oneAMinute s ∧ acceptedSince s.accepted.length ['x'] s' = [60] ∧
      (((acceptedSince s.accepted.length ['x'] s').filter fun u => decide
        ((30 : Rat) ≤ u ∧ u < 30 + oneAMinute.smtpConnectionRateLimitWindowSeconds)).length : Int) ≤ 1 := by
  obtain ⟨s, hrun⟩ : ∃ s, Transition.run (SmtpConnectionSystem.step oneAMinute) (start 0)
      firstConnection = some s := ⟨_, rfl⟩
  have h := smtp_connection_limits oneAMinute (by decide) hrun
  have halong : Transition.Along (SmtpConnectionSystem.step oneAMinute)
      (fun s call => ¬ EvictsByCapacity oneAMinute ['x'] s call) s laterConnections := by
    cases hrun
    decide +kernel
  obtain ⟨s', hmore⟩ : ∃ s', Transition.run (SmtpConnectionSystem.step oneAMinute) s
      laterConnections = some s' := by
    cases hrun
    exact ⟨_, rfl⟩
  refine ⟨s, s', hrun, hmore, h.1, ?_, (h.2 ['x'] laterConnections s' halong hmore 30).1⟩
  cases hrun
  cases hmore
  decide +kernel

end SmtpConnectionSystem
end RapidInbox
