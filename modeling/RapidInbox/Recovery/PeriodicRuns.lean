import RapidInbox.Lib.Run
import RapidInbox.Recovery.FullScanRuns
import RapidInbox.Recovery.PeriodicScan

/-!
# No receipt is skipped

While every pass sees what the directories have, finds nothing that was written after it began, and no
manifest turns up that is older than the watermark, or than a pass that is past its directory, a manifest
that has not been handled stays behind the cursor.
-/

namespace RapidInbox.Recovery

variable {π δ : Type}

namespace ScanCursor

theorem latestMtime_le {m : Nat} {selected : List (π × Nat)} (hselected : ∀ w ∈ selected, w.2 ≤ m) :
    latestMtime selected ≤ m := by
  have hfold (latest : Int) (hlatest : latest ≤ m) :
      selected.foldl (fun latest item => max latest item.2) latest ≤ m := by
    induction selected generalizing latest with
    | nil => exact hlatest
    | cons w selected ih =>
      obtain ⟨hw, hselected⟩ := List.forall_mem_cons.mp hselected
      exact ih hselected _ (max_le hlatest (Int.ofNat_le.mpr hw))
  exact hfold (-1) (by omega)

theorem mem_pathsAt {selected : List (π × Nat)} {mtimeNs : Int} {p : π}
    (hp : p ∈ pathsAt selected mtimeNs) : ∃ w ∈ selected, w.1 = p := by
  obtain ⟨w, hw, heq⟩ := List.mem_map.mp hp
  exact ⟨w, List.mem_of_mem_filter hw, heq⟩

theorem boundByBytes_takes (charge : π → Nat) (batchBytes : Nat) (bounded : Bool) (admittedBytes : Nat)
    (items : List (π × Nat)) :
    boundByBytes charge batchBytes bounded admittedBytes items <+: items := by
  induction items generalizing bounded admittedBytes with
  | nil => exact List.prefix_rfl
  | cons item items ih =>
    unfold boundByBytes
    dsimp only
    split
    · exact List.nil_prefix
    · split
      · exact List.prefix_append [item] items
      · exact List.prefix_cons_inj item |>.mpr (ih _ _)

/-! ## The selection -/

variable [LinearOrder π] {c : ScanCursor π}

theorem inspected_subset (stat : π → Option Nat) (exclude : List π) (limit : Nat) (queue : List π) :
    ∀ p ∈ inspected stat exclude limit queue, p ∈ queue := by
  induction queue generalizing limit with
  | nil => simp [inspected]
  | cons path queue ih =>
    cases limit with
    | zero => simp [inspected]
    | succ limit =>
      intro p hp
      rcases List.mem_cons.mp hp with rfl | hp
      · exact List.mem_cons_self
      · exact List.mem_cons_of_mem _ (ih _ p hp)

theorem schedulePeriodicRetry_spec (c : ScanCursor π) (path : π) :
    path ∈ (c.schedulePeriodicRetry path).retries ∧
      ∀ p ∈ c.retries, p ∈ (c.schedulePeriodicRetry path).retries := by
  unfold schedulePeriodicRetry
  dsimp only
  split
  · exact ⟨‹_›, fun _ hp => hp⟩
  · exact ⟨List.mem_append_right _ List.mem_cons_self, fun _ hp => List.mem_append_left _ hp⟩

/-- A turn of the retries takes some of them, and loses only what cannot be found. -/
theorem takePeriodicRetries_spec (stat : π → Option Nat) (limit : Nat) (exclude : List π)
    (c : ScanCursor π) :
    (∀ item ∈ (c.takePeriodicRetries stat limit exclude).1, item.1 ∈ c.retries) ∧
      (∀ p ∈ (c.takePeriodicRetries stat limit exclude).2.retries, p ∈ c.retries) ∧
      ∀ p ∈ c.retries, p ∈ (c.takePeriodicRetries stat limit exclude).2.retries ∨ stat p = none := by
  have hfound {item : π × Nat} (hitem : item ∈ (inspected stat exclude limit c.retries).filterMap
      fun path => (stat path).map (path, ·)) : item.1 ∈ c.retries := by
    obtain ⟨path, hpath, heq⟩ := List.mem_filterMap.mp hitem
    obtain ⟨_, -, rfl⟩ := Option.map_eq_some_iff.mp heq
    exact inspected_subset _ _ _ _ path hpath
  refine ⟨fun item hitem => hfound (List.mem_of_mem_filter hitem), fun p hp => ?_, fun p hp => ?_⟩
  · rcases List.mem_append.mp hp with hp | hp
    · exact List.mem_of_mem_filter hp
    · obtain ⟨item, hitem, rfl⟩ := List.mem_map.mp hp
      exact hfound hitem
  · by_cases hpaths : p ∈ inspected stat exclude limit c.retries
    · cases hstat : stat p with
      | none => exact .inr rfl
      | some mtimeNs =>
        have hitem : (p, mtimeNs) ∈ (inspected stat exclude limit c.retries).filterMap
            fun path => (stat path).map (path, ·) := List.mem_filterMap.mpr ⟨p, hpaths, by simp [hstat]⟩
        exact .inl (List.mem_append_right _ (List.mem_map_of_mem hitem))
    · exact .inl (List.mem_append_left _ (List.mem_filter.mpr ⟨hp, decide_eq_true hpaths⟩))

/-- What the bytes admit, of the first fresh manifests and the retries behind them: a fresh manifest
    that is left has no smaller time than one that moves the watermark. -/
theorem bound_spec (charge : π → Nat) (batchBytes : Nat) {fresh : List (π × Nat)}
    (hsorted : fresh.Pairwise Before) (n : Nat) (retries : List (π × Nat))
    (hretries : ∀ item ∈ fresh, item.1 ∉ retries.map Prod.fst) :
    let bounded := boundSelectedPathsByBytes charge batchBytes (fresh.take n ++ retries) (fresh.take n)
    (∀ w ∈ bounded.2, w ∈ fresh ∧ w ∈ bounded.1) ∧
      ∀ item ∈ fresh, item ∈ bounded.1 ∨ ∀ w ∈ bounded.2, w.2 ≤ item.2 := by
  intro bounded
  obtain ⟨k, hk⟩ : ∃ k, bounded.1 = (fresh.take n ++ retries).take k :=
    ⟨_, List.prefix_iff_eq_take.mp (boundByBytes_takes charge batchBytes false 0 _)⟩
  have hmem (w : π × Nat) (hw : w ∈ bounded.2) : w ∈ bounded.1 ∧ w ∈ fresh.take (min k n) := by
    obtain ⟨hw, hpath⟩ := List.mem_filter.mp hw
    refine ⟨hw, ?_⟩
    have hw : w ∈ (fresh.take n ++ retries).take k := hk ▸ hw
    rw [List.take_append, List.mem_append, List.take_take] at hw
    refine hw.resolve_right fun hw => ?_
    obtain ⟨item, hitem, heq⟩ := List.mem_map.mp (of_decide_eq_true hpath)
    exact hretries item (List.mem_of_mem_take hitem) (heq ▸ List.mem_map_of_mem (List.mem_of_mem_take hw))
  refine ⟨fun w hw => ⟨List.mem_of_mem_take (hmem w hw).2, (hmem w hw).1⟩, fun item hitem => ?_⟩
  rw [← List.take_append_drop (min k n) fresh] at hitem hsorted
  rcases List.mem_append.mp hitem with hitem | hitem
  · refine .inl ?_
    rw [hk, List.take_append, List.take_take]
    exact List.mem_append_left _ hitem
  · refine .inr fun w hw => ?_
    rcases Prod.Lex.toLex_le_toLex.mp ((List.pairwise_append.mp hsorted).2.2 w (hmem w hw).2 item hitem) with
      hlt | ⟨heq, -⟩
    · exact hlt.le
    · exact heq.le

theorem mem_orderedFresh {discovered : List (π × Nat)} {item : π × Nat} :
    item ∈ c.orderedFresh discovered ↔ item ∈ discovered ∧ c.isFresh item = true := by
  unfold orderedFresh
  rw [List.mem_insertionSort, List.mem_filter]

theorem sorted_orderedFresh (c : ScanCursor π) (discovered : List (π × Nat)) :
    (c.orderedFresh discovered).Pairwise Before := by
  have : Std.Total (Before (π := π)) := ⟨fun _ _ => le_total _ _⟩
  have : IsTrans (π × Nat) Before := ⟨fun _ _ _ => le_trans⟩
  exact List.pairwise_insertionSort _ _

/-- What a selection does to the cursor, and what it leaves. -/
structure Selects (c : ScanCursor π) (stat : π → Option Nat) (discovered : List (π × Nat))
    (result : (List (π × Nat) × List (π × Nat)) × ScanCursor π) : Prop where
  cursor : result.2 = { c with retries := result.2.retries }
  lost : ∀ p ∈ c.retries, p ∈ result.2.retries ∨ stat p = none
  chosen : ∀ w ∈ result.1.2, w ∈ discovered ∧ w ∈ result.1.1
  left : ∀ item ∈ discovered, c.isFresh item = true →
    item ∈ result.1.1 ∨ ∀ w ∈ result.1.2, w.2 ≤ item.2

theorem selectManifestPaths_spec (B : PeriodicBounds) (stat : π → Option Nat) (charge : π → Nat)
    (discovered : List (π × Nat)) (c : ScanCursor π) :
    Selects c stat discovered (c.selectManifestPaths B stat charge discovered) := by
  have hfresh (item : π × Nat) (hitem : item ∈ c.orderedFresh discovered) : item.1 ∉ c.retries := by
    have hfresh := (mem_orderedFresh.mp hitem).2
    rw [isFresh, Bool.and_eq_true] at hfresh
    exact of_decide_eq_true hfresh.1
  have hselects (n : Nat) (retries : List (π × Nat)) (cursor : ScanCursor π)
      (hcursor : cursor = { c with retries := cursor.retries })
      (hlost : ∀ p ∈ c.retries, p ∈ cursor.retries ∨ stat p = none)
      (hretries : ∀ item ∈ retries, item.1 ∈ c.retries) :
      Selects c stat discovered (boundSelectedPathsByBytes charge B.batchBytes
        ((c.orderedFresh discovered).take n ++ retries) ((c.orderedFresh discovered).take n),
        cursor) := by
    have hdisjoint (item : π × Nat) (hitem : item ∈ c.orderedFresh discovered) :
        item.1 ∉ retries.map Prod.fst := by
      intro hmem
      obtain ⟨r, hr, heq⟩ := List.mem_map.mp hmem
      exact hfresh item hitem (heq ▸ hretries r hr)
    obtain ⟨hchosen, hleft⟩ := bound_spec charge B.batchBytes (c.sorted_orderedFresh discovered) n
      retries hdisjoint
    exact ⟨hcursor, hlost, fun w hw => ⟨(mem_orderedFresh.mp (hchosen w hw).1).1, (hchosen w hw).2⟩,
      fun item hitem h => hleft item (mem_orderedFresh.mpr ⟨hitem, h⟩)⟩
  unfold selectManifestPaths
  dsimp only
  split
  · have h := hselects B.batchSize [] c rfl (fun p hp => .inl hp) fun _ h => absurd h List.not_mem_nil
    rwa [List.append_nil] at h
  · split
    · rename_i hnone
      obtain ⟨hselected, -, hlost⟩ := c.takePeriodicRetries_spec stat B.batchSize []
      exact hselects 0 _ (c.takePeriodicRetries stat B.batchSize []).2 rfl hlost hselected
    · obtain ⟨hselected, hkept, hlost⟩ :=
        c.takePeriodicRetries_spec stat (max 1 (B.batchSize / B.retryShare)) []
      split
      · obtain ⟨hmore, -, hlost'⟩ := takePeriodicRetries_spec stat _ _
          (c.takePeriodicRetries stat (max 1 (B.batchSize / B.retryShare)) []).2
        refine hselects _ _ _ rfl (fun p hp => (hlost p hp).elim (hlost' p) .inr) fun item hitem => ?_
        rcases List.mem_append.mp hitem with hitem | hitem
        · exact hselected item hitem
        · exact hkept _ (hmore item hitem)
      · exact hselects _ _ _ rfl hlost hselected

/-! ## The watermark -/

/-- The watermark moves to the last of the selected times, or stays, and the paths seen at it are old
    ones or selected ones. -/
theorem advancePeriodicWatermark_spec (selected : List (π × Nat)) (c : ScanCursor π) :
    (c.advancePeriodicWatermark selected).retries = c.retries ∧
      ((c.advancePeriodicWatermark selected).watermarkNs = c.watermarkNs ∨
        (c.advancePeriodicWatermark selected).watermarkNs = latestMtime selected) ∧
      ∀ p ∈ (c.advancePeriodicWatermark selected).watermarkPaths, p ∈ c.watermarkPaths ∨
        ∃ w ∈ selected, w.1 = p := by
  unfold advancePeriodicWatermark
  dsimp only
  split
  · exact ⟨rfl, .inl rfl, fun p hp => .inl hp⟩
  · split
    · exact ⟨rfl, .inr rfl, fun p hp => .inr (mem_pathsAt hp)⟩
    · split
      · exact ⟨rfl, .inl rfl, fun p hp => (List.mem_union_iff.mp hp).imp id mem_pathsAt⟩
      · exact ⟨rfl, .inl rfl, fun p hp => .inl hp⟩

end ScanCursor

/-- The directories of the manifests, and those that every pass lists. -/
structure WatchedDirectories (π δ : Type) where
  directory : π → δ
  recent : δ → Bool

namespace ScanState

variable (D : WatchedDirectories π δ) {B : PeriodicBounds} {s s' : ScanState π δ} {P : ScanPass π δ}

/-! ## What a pass keeps -/

/-- A manifest is done with, or will be tried again. -/
def Handled (s : ScanState π δ) (p : π) : Prop :=
  p ∈ s.settled ∨ p ∈ s.cursor.retries ∨ p ∈ s.removed

instance [DecidableEq π] (s : ScanState π δ) (p : π) : Decidable (s.Handled p) :=
  inferInstanceAs (Decidable (_ ∨ _ ∨ _))

/-- A manifest in a directory that the passes list, older than the given time, that was not handled. -/
def Waits (s : ScanState π δ) (start : Nat) (item : π × Nat) : Prop :=
  item ∈ s.files ∧ D.recent (D.directory item.1) = true ∧ item.2 < start ∧ ¬s.Handled item.1

/-- What waits from before the pass is in its hands. -/
structure Covers (s : ScanState π δ) (P : ScanPass π δ) : Prop where
  start_le : P.start ≤ s.clock
  watermark_le : s.cursor.watermarkNs ≤ P.start
  found_le : ∀ item ∈ P.found, item.2 ≤ P.start
  seen : P.chosen = none → ∀ item, s.Waits D P.start item →
    D.directory item.1 ∈ P.directories ∨ item.1 ∈ P.listed ∨ item ∈ P.found
  chosen : ∀ W ∈ P.chosen, (∀ w ∈ W, w.2 ≤ P.start ∧ (w.1 ∈ P.pending ∨ s.Handled w.1)) ∧
    ∀ item, s.Waits D P.start item → item.1 ∈ P.pending ∨ ∀ w ∈ W, w.2 ≤ item.2

/-- Nothing waits before the watermark. -/
structure Tracks (s : ScanState π δ) : Prop where
  watermark_le : s.cursor.watermarkNs ≤ s.clock
  unique : ∀ a ∈ s.files, ∀ b ∈ s.files, a.1 = b.1 → a = b
  visible : ∀ item ∈ s.files, item.1 ∉ s.removed
  seen : ∀ p ∈ s.cursor.watermarkPaths, s.Handled p
  tracked : ∀ start item, s.Waits D start item → s.cursor.watermarkNs ≤ item.2
  pass : ∀ P ∈ s.pass, Covers D s P

/-- No listing and no `stat` misses a manifest that is there; a pass finds nothing that was written
    after it began; a manifest that becomes visible was not staged before the watermark, or before a
    pass that has listed its directory; and none that was removed becomes visible again. -/
def Quiet (s : ScanState π δ) : ScanAction π δ → Prop
  | .publish path mtimeNs => path ∉ s.removed ∧ s.cursor.watermarkNs ≤ mtimeNs ∧
      ∀ P ∈ s.pass, P.start ≤ mtimeNs ∨ P.chosen = none ∧ D.directory path ∈ P.directories
  | .begins directories => ∀ item ∈ s.files, D.recent (D.directory item.1) = true →
      D.directory item.1 ∈ directories
  | .list paths => ∀ P ∈ s.pass, ∀ d ∈ P.directories.head?, ∀ item ∈ s.files, D.directory item.1 = d →
      item.1 ∈ paths
  | .stat mtimeNs => ∀ P ∈ s.pass, (∀ m ∈ mtimeNs, m ≤ P.start) ∧
      (mtimeNs = none → ∀ p ∈ P.listed.head?, p ∈ s.removed)
  | .select stat _ => ∀ p ∈ s.cursor.retries, stat p = none → p ∈ s.removed
  | _ => True

instance [DecidableEq π] [DecidableEq δ] (s : ScanState π δ) (a : ScanAction π δ) :
    Decidable (Quiet D s a) := by
  cases a <;> (dsimp only [Quiet]; infer_instance)

variable {D}

theorem Waits.of {start : Nat} {item : π × Nat} (h : s'.Waits D start item)
    (hfiles : item ∈ s'.files → item ∈ s.files ∨ start ≤ item.2)
    (hhandled : ∀ p, s.Handled p → s'.Handled p) : s.Waits D start item :=
  ⟨(hfiles h.1).resolve_right h.2.2.1.not_ge, h.2.1, h.2.2.1, fun hp => h.2.2.2 (hhandled _ hp)⟩

/-- The clock, the writers and whoever removes manifests. -/
theorem Tracks.outside (h : Tracks D s) (hclock : s.clock ≤ s'.clock)
    (hcursor : s'.cursor = s.cursor) (hsettled : s'.settled = s.settled) (hpass : s'.pass = s.pass)
    (hremoved : ∀ p ∈ s.removed, p ∈ s'.removed)
    (hunique : ∀ a ∈ s'.files, ∀ b ∈ s'.files, a.1 = b.1 → a = b)
    (hvisible : ∀ item ∈ s'.files, item.1 ∉ s'.removed)
    (hfiles : ∀ item ∈ s'.files, item ∈ s.files ∨ s.cursor.watermarkNs ≤ item.2 ∧ ∀ P ∈ s.pass,
      P.start ≤ item.2 ∨ P.chosen = none ∧ D.directory item.1 ∈ P.directories) : Tracks D s' := by
  have hhandled (p : π) (hp : s.Handled p) : s'.Handled p := by
    unfold Handled
    rw [hcursor, hsettled]
    exact hp.imp id fun h => h.imp id (hremoved p)
  refine ⟨hcursor ▸ h.watermark_le.trans (Int.ofNat_le.mpr hclock), hunique, hvisible,
    fun p hp => hhandled p (h.seen p (hcursor ▸ hp)), ?_, ?_⟩
  · intro start item hitem
    rw [hcursor]
    rcases hfiles item hitem.1 with hold | hnew
    · exact h.tracked start item (hitem.of (fun _ => .inl hold) hhandled)
    · exact hnew.1
  · intro P hpassed
    rw [hpass] at hpassed
    have hP := h.pass P hpassed
    have hwaits (item : π × Nat) (hitem : s'.Waits D P.start item) :
        s.Waits D P.start item ∨ P.chosen = none ∧ D.directory item.1 ∈ P.directories := by
      rcases hfiles item hitem.1 with hold | ⟨-, hnew⟩
      · exact .inl (hitem.of (fun _ => .inl hold) hhandled)
      · exact .inr ((hnew P hpassed).resolve_left hitem.2.2.1.not_ge)
    refine ⟨hP.start_le.trans hclock, hcursor ▸ hP.watermark_le, hP.found_le,
      fun hnone item hitem => (hwaits item hitem).elim (hP.seen hnone item) fun hnew => .inl hnew.2,
      fun W hW => ?_⟩
    obtain ⟨hchosen, hleft⟩ := hP.chosen W hW
    refine ⟨fun w hw => (hchosen w hw).imp id fun h => h.imp id (hhandled _), fun item hitem => ?_⟩
    refine (hwaits item hitem).elim (hleft item) fun hnew => ?_
    rw [hnew.1] at hW
    cases hW

/-- A step of a pass that leaves the manifests and the watermark alone. -/
theorem Tracks.inside (h : Tracks D s) {settled : List π} {cursor : ScanCursor π}
    {pass : Option (ScanPass π δ)} (hwatermark : cursor.watermarkNs = s.cursor.watermarkNs)
    (hpaths : cursor.watermarkPaths = s.cursor.watermarkPaths)
    (hhandled : ∀ p, s.Handled p → p ∈ settled ∨ p ∈ cursor.retries ∨ p ∈ s.removed)
    (hpass : (∀ {start item}, Waits D { s with settled, cursor, pass } start item →
      s.Waits D start item) → ∀ P ∈ pass, Covers D { s with settled, cursor, pass } P) :
    Tracks D { s with settled, cursor, pass } := by
  have hwaits {start : Nat} {item : π × Nat}
      (hitem : Waits D { s with settled, cursor, pass } start item) : s.Waits D start item :=
    hitem.of .inl hhandled
  refine ⟨hwatermark ▸ h.watermark_le, h.unique, h.visible,
    fun p hp => hhandled p (h.seen p (hpaths ▸ hp)), ?_, hpass hwaits⟩
  exact fun start item hitem => hwatermark ▸ h.tracked start item (hwaits hitem)

/-- The watermark moves behind what waits. -/
theorem Tracks.moves (h : Tracks D s) (hP : Covers D s P) {c : ScanCursor π}
    (hretries : c.retries = s.cursor.retries) (hwatermark : c.watermarkNs ≤ P.start)
    (hpaths : ∀ p ∈ c.watermarkPaths, s.Handled p)
    (htracked : ∀ item, s.Waits D P.start item → c.watermarkNs ≤ item.2) :
    Tracks D { s with cursor := c, pass := none } := by
  have hhandled (p : π) : p ∈ s.settled ∨ p ∈ c.retries ∨ p ∈ s.removed ↔ s.Handled p := by
    rw [hretries]
    rfl
  refine ⟨hwatermark.trans (Int.ofNat_le.mpr hP.start_le), h.unique, h.visible,
    fun p hp => (hhandled p).mpr (hpaths p hp), fun start item hitem => ?_,
    fun P hP => absurd hP (by simp)⟩
  by_cases hold : item.2 < P.start
  · exact htracked item ⟨hitem.1, hitem.2.1, hold, fun hp => hitem.2.2.2 ((hhandled _).mpr hp)⟩
  · exact hwatermark.trans (Int.ofNat_le.mpr (Nat.le_of_not_lt hold))

/-! ## Steps -/

variable [LinearOrder π]

theorem Tracks.begins (h : Tracks D s) {directories : List δ} (hquiet : Quiet D s (.begins directories))
    (hstep : step B s (.begins directories) = some s') : Tracks D s' := by
  simp only [step] at hstep
  split at hstep <;> cases hstep
  refine h.inside rfl rfl (fun _ hp => hp) fun hwaits P hP => ?_
  cases hP
  exact ⟨le_rfl, h.watermark_le, fun _ h => absurd h List.not_mem_nil,
    fun _ item hitem => .inl (hquiet item hitem.1 hitem.2.1), fun _ hW => absurd hW (by simp)⟩

/-- What waits is a candidate. -/
theorem Tracks.isFresh (h : Tracks D s) {start : Nat} {item : π × Nat}
    (hitem : s.Waits D start item) : s.cursor.isFresh item = true := by
  have hle := h.tracked start item hitem
  have hretries : item.1 ∉ s.cursor.retries := fun hp => hitem.2.2.2 (.inr (.inl hp))
  have hunseen : item.1 ∉ s.cursor.watermarkPaths := fun hp => hitem.2.2.2 (h.seen _ hp)
  simp only [ScanCursor.isFresh, hretries, hunseen, not_false_eq_true, decide_true, Bool.true_and,
    Bool.and_true, Bool.or_eq_true, decide_eq_true_eq]
  omega

section
variable (h : Tracks D s) (hP : Covers D s P)
include h hP

theorem Tracks.list (hpass : s.pass = some P) {paths : List π}
    (hquiet : Quiet D s (.list paths)) (hstep : passStep B s P (.list paths) = some s') :
    Tracks D s' := by
  simp only [passStep] at hstep
  split at hstep <;> cases hstep
  rename_i d directories hdirectories
  refine h.inside rfl rfl (fun _ hp => hp) fun hwaits P' hP' => ?_
  cases hP'
  refine ⟨hP.start_le, hP.watermark_le, hP.found_le, fun hnone item hitem => ?_, hP.chosen⟩
  rcases hP.seen hnone item hitem with hd | hrest
  · rw [hdirectories] at hd
    rcases List.mem_cons.mp hd with heq | hd
    · have hpath := hquiet P hpass d (by rw [hdirectories]; rfl) item hitem.1 heq
      exact .inr (.inl (List.mem_append_right _ hpath))
    · exact .inl hd
  · exact .inr (hrest.imp (List.mem_append_left _) id)

theorem Tracks.stat (hpass : s.pass = some P) {mtimeNs : Option Nat}
    (hquiet : Quiet D s (.stat mtimeNs)) (hstep : passStep B s P (.stat mtimeNs) = some s') :
    Tracks D s' := by
  obtain ⟨hstart, hgone⟩ := hquiet P hpass
  simp only [passStep] at hstep
  split at hstep
  · cases hstep
  · rename_i path listed hlisted
    have hseen {found : List (π × Nat)} (hfound : ∀ item ∈ P.found, item ∈ found)
        (hpath : ∀ item ∈ s.files, item.1 = path → s.Handled path ∨ item ∈ found)
        (hnone : P.chosen = none) (item : π × Nat) (hitem : s.Waits D P.start item) :
        D.directory item.1 ∈ P.directories ∨ item.1 ∈ listed ∨ item ∈ found := by
      refine (hP.seen hnone item hitem).imp id fun h => ?_
      rcases h with hl | hfind
      · rw [hlisted] at hl
        rcases List.mem_cons.mp hl with heq | hl
        · exact .inr ((hpath item hitem.1 heq).resolve_left (heq ▸ hitem.2.2.2))
        · exact .inl hl
      · exact .inr (hfound item hfind)
    split at hstep
    · cases hstep
      refine h.inside rfl rfl (fun _ hp => hp) fun hwaits P' hP' => ?_
      cases hP'
      have hremoved : path ∈ s.removed := hgone rfl path (by rw [hlisted]; rfl)
      exact ⟨hP.start_le, hP.watermark_le, hP.found_le,
        hseen (fun _ h => h) fun _ _ _ => .inl (.inr (.inr hremoved)), hP.chosen⟩
    · rename_i m
      split at hstep <;> cases hstep
      rename_i hfile
      refine h.inside rfl rfl (fun _ hp => hp) fun hwaits P' hP' => ?_
      cases hP'
      refine ⟨hP.start_le, hP.watermark_le, ?_,
        hseen (fun _ h => List.mem_append_left _ h) ?_, hP.chosen⟩
      · intro item hitem
        rcases List.mem_append.mp hitem with hitem | hitem
        · exact hP.found_le item hitem
        · rw [List.mem_singleton.mp hitem]
          exact hstart m rfl
      · intro item hitem heq
        have hsame := h.unique item hitem (path, m) hfile heq
        exact .inr (List.mem_append_right _ (List.mem_singleton.mpr hsame))

theorem Tracks.select {stat : π → Option Nat} {charge : π → Nat}
    (hquiet : Quiet D s (.select stat charge))
    (hstep : passStep B s P (.select stat charge) = some s') : Tracks D s' := by
  simp only [passStep] at hstep
  split at hstep
  · rename_i hready
    obtain ⟨hdirectories, hlisted, hnone⟩ := hready
    have hselects := ScanCursor.selectManifestPaths_spec B stat charge P.found s.cursor
    generalize s.cursor.selectManifestPaths B stat charge P.found = result at hselects hstep
    cases hstep
    have hcursor := hselects.cursor
    have hwatermark : result.2.watermarkNs = s.cursor.watermarkNs := by rw [hcursor]
    have hhandled (p : π) (hp : s.Handled p) : p ∈ s.settled ∨ p ∈ result.2.retries ∨ p ∈ s.removed := by
      rcases hp with hp | hp | hp
      · exact .inl hp
      · exact .inr ((hselects.lost p hp).imp id (hquiet p hp))
      · exact .inr (.inr hp)
    refine h.inside hwatermark (by rw [hcursor]) hhandled fun hwaits P' hP' => ?_
    cases hP'
    refine ⟨hP.start_le, hwatermark ▸ hP.watermark_le, hP.found_le, fun h => absurd h (by simp),
      fun W hW => ?_⟩
    cases hW
    refine ⟨fun w hw => ?_, fun item hitem => ?_⟩
    · obtain ⟨hfound, hselected⟩ := hselects.chosen w hw
      exact ⟨hP.found_le w hfound, .inl (List.mem_map_of_mem hselected)⟩
    · rcases hP.seen hnone item (hwaits hitem) with h' | h' | h'
      · exact absurd (hdirectories ▸ h') List.not_mem_nil
      · exact absurd (hlisted ▸ h') List.not_mem_nil
      · exact (hselects.left item h' (h.isFresh (hwaits hitem))).imp (List.mem_map_of_mem ·) id
  · cases hstep

/-- A selected manifest leaves the hands of the pass once it is done with. -/
theorem Tracks.handled {i : Nat} {path : π} (hi : P.pending[i]? = some path) {settled : List π}
    {cursor : ScanCursor π} (hwatermark : cursor.watermarkNs = s.cursor.watermarkNs)
    (hpaths : cursor.watermarkPaths = s.cursor.watermarkPaths)
    (hpath : path ∈ settled ∨ path ∈ cursor.retries ∨ path ∈ s.removed)
    (hhandled : ∀ p, s.Handled p → p ∈ settled ∨ p ∈ cursor.retries ∨ p ∈ s.removed) :
    Tracks D { s with
      settled, cursor, pass := some { P with pending := P.pending.eraseIdx i } } := by
  have hmoves (p : π) (hp : p ∈ P.pending ∨ s.Handled p) :
      p ∈ P.pending.eraseIdx i ∨ p ∈ settled ∨ p ∈ cursor.retries ∨ p ∈ s.removed := by
    rcases hp with hp | hp
    · by_cases heq : p = path
      · exact .inr (heq ▸ hpath)
      · refine .inl (List.mem_eraseIdx_iff_getElem?.mpr ?_)
        obtain ⟨j, hj⟩ := List.getElem?_of_mem hp
        refine ⟨j, fun hij => heq ?_, hj⟩
        rw [hij, hi] at hj
        exact (Option.some.inj hj).symm
    · exact .inr (hhandled p hp)
  refine h.inside hwatermark hpaths hhandled fun hwaits P' hP' => ?_
  cases hP'
  refine ⟨hP.start_le, hwatermark ▸ hP.watermark_le, hP.found_le,
    fun hnone item hitem => hP.seen hnone item (hwaits hitem), fun W hW => ?_⟩
  obtain ⟨hchosen, hleft⟩ := hP.chosen W hW
  exact ⟨fun w hw => (hchosen w hw).imp id (hmoves w.1), fun item hitem =>
    (hleft item (hwaits hitem)).imp (fun h => (hmoves _ (.inl h)).resolve_right hitem.2.2.2) id⟩

theorem Tracks.handle {i : Nat} {outcome : ManifestOutcome}
    (hstep : passStep B s P (.handle i outcome) = some s') : Tracks D s' := by
  simp only [passStep] at hstep
  split at hstep
  · cases hstep
  · rename_i path hi
    cases outcome with
    | pinned =>
      cases hstep
      obtain ⟨hpath, hkept⟩ := s.cursor.schedulePeriodicRetry_spec path
      exact h.handled hP hi rfl rfl (.inr (.inl hpath))
        fun p hp => hp.imp id fun h => h.imp (hkept p) id
    | settled discard =>
      cases hstep
      have hsettled (p : π) (hp : p ∈ s.settled) : p ∈ path :: s.settled := .tail _ hp
      cases discard with
      | false =>
        exact h.handled hP hi rfl rfl (.inl List.mem_cons_self)
          fun p hp => hp.imp (hsettled p) id
      | true =>
        refine h.handled hP hi rfl rfl (.inl List.mem_cons_self) fun p hp => ?_
        by_cases heq : p = path
        · exact .inl (heq ▸ List.mem_cons_self)
        · exact hp.imp (hsettled p) fun h => h.imp
            (fun h => List.mem_filter.mpr ⟨h, decide_eq_true heq⟩) id

theorem Tracks.finish (hstep : passStep B s P .finish = some s') : Tracks D s' := by
  simp only [passStep] at hstep
  split at hstep
  · cases hstep
  · rename_i W hW
    split at hstep <;> cases hstep
    rename_i hpending
    obtain ⟨hchosen, hleft⟩ := hP.chosen W hW
    obtain ⟨hretries, hwatermark, hpaths⟩ := s.cursor.advancePeriodicWatermark_spec W
    refine h.moves hP hretries ?_ (fun p hp => ?_) fun item hitem => ?_
    · rcases hwatermark with heq | heq <;> rw [heq]
      · exact hP.watermark_le
      · exact ScanCursor.latestMtime_le fun w hw => (hchosen w hw).1
    · rcases hpaths p hp with hp | ⟨w, hw, rfl⟩
      · exact h.seen p hp
      · exact (hchosen w hw).2.resolve_left (hpending ▸ List.not_mem_nil)
    · rcases hwatermark with heq | heq <;> rw [heq]
      · exact h.tracked _ item hitem
      · exact ScanCursor.latestMtime_le ((hleft item hitem).resolve_left (hpending ▸ List.not_mem_nil))

end

theorem Tracks.step (h : Tracks D s) {a : ScanAction π δ} (hquiet : Quiet D s a)
    (hstep : step B s a = some s') : Tracks D s' := by
  have hpass (hstep : s.pass.bind (passStep B s · a) = some s') : ∃ P, s.pass = some P ∧
      Covers D s P ∧ passStep B s P a = some s' := by
    obtain ⟨P, hP, hstep⟩ := Option.bind_eq_some_iff.mp hstep
    exact ⟨P, hP, h.pass P hP, hstep⟩
  cases a with
  | tick ns =>
    cases hstep
    exact h.outside (Nat.le_add_right _ _) rfl rfl rfl (fun _ hp => hp) h.unique h.visible
      fun _ hitem => .inl hitem
  | stage path =>
    cases hstep
    exact h.outside le_rfl rfl rfl rfl (fun _ hp => hp) h.unique h.visible fun _ hitem => .inl hitem
  | publish path mtimeNs =>
    change (if (path, mtimeNs) ∈ s.staged then some _ else none) = some s' at hstep
    split at hstep <;> cases hstep
    obtain ⟨hremoved, hintime⟩ := hquiet
    have hcases (item : π × Nat) (hitem : item ∈ (path, mtimeNs) :: s.files.filter fun item =>
        item.1 ≠ path) : item = (path, mtimeNs) ∨ item ∈ s.files ∧ item.1 ≠ path := by
      rcases List.mem_cons.mp hitem with rfl | hitem
      · exact .inl rfl
      · obtain ⟨hitem, hne⟩ := List.mem_filter.mp hitem
        exact .inr ⟨hitem, by simpa using hne⟩
    refine h.outside le_rfl rfl rfl rfl (fun _ hp => hp) (fun a ha b hb heq => ?_)
      (fun item hitem => ?_) fun item hitem => ?_
    · rcases hcases a ha with rfl | ⟨ha, hane⟩ <;> rcases hcases b hb with rfl | ⟨hb, hbne⟩
      · rfl
      · exact absurd heq.symm hbne
      · exact absurd heq hane
      · exact h.unique a ha b hb heq
    · rcases hcases item hitem with rfl | ⟨hitem, -⟩
      · exact hremoved
      · exact h.visible item hitem
    · rcases hcases item hitem with rfl | ⟨hitem, -⟩
      · exact .inr hintime
      · exact .inl hitem
  | remove path =>
    cases hstep
    refine h.outside le_rfl rfl rfl rfl (fun _ hp => .tail _ hp) (fun a ha b hb => ?_)
      (fun item hitem => ?_) fun item hitem => .inl (List.mem_of_mem_filter hitem)
    · exact h.unique a (List.mem_of_mem_filter ha) b (List.mem_of_mem_filter hb)
    · obtain ⟨hitem, hne⟩ := List.mem_filter.mp hitem
      rintro (- | ⟨-, hp⟩)
      · exact absurd hne (by simp)
      · exact h.visible item hitem hp
  | begins directories => exact h.begins hquiet hstep
  | list paths =>
    obtain ⟨P, hP, hcovers, hstep⟩ := hpass hstep
    exact h.list hcovers hP hquiet hstep
  | stat mtimeNs =>
    obtain ⟨P, hP, hcovers, hstep⟩ := hpass hstep
    exact h.stat hcovers hP hquiet hstep
  | select stat charge =>
    obtain ⟨P, -, hcovers, hstep⟩ := hpass hstep
    exact h.select hcovers hquiet hstep
  | handle i outcome =>
    obtain ⟨P, -, hcovers, hstep⟩ := hpass hstep
    exact h.handle hcovers hstep
  | finish =>
    obtain ⟨P, -, hcovers, hstep⟩ := hpass hstep
    exact h.finish hcovers hstep
  | abort =>
    obtain ⟨P, -, -, hstep⟩ := hpass hstep
    cases hstep
    exact h.inside rfl rfl (fun _ hp => hp) fun _ P hP => absurd hP (by simp)

/-- No pass is under way, and nothing waits before the watermark. -/
structure Initial (D : WatchedDirectories π δ) (s : ScanState π δ) : Prop where
  watermark_le : s.cursor.watermarkNs ≤ s.clock
  unique : ∀ a ∈ s.files, ∀ b ∈ s.files, a.1 = b.1 → a = b
  visible : ∀ item ∈ s.files, item.1 ∉ s.removed
  seen : ∀ p ∈ s.cursor.watermarkPaths, s.Handled p
  tracked : ∀ item ∈ s.files, D.recent (D.directory item.1) = true →
    s.Handled item.1 ∨ s.cursor.watermarkNs ≤ item.2
  pass : s.pass = none

/-- The full scan hands its watermark to the passes.  What it has found was handled by its replay, and
    what it has not found is no older than the watermark. -/
theorem Initial.of_fullScan {D : WatchedDirectories PyStr δ} {s : ScanState PyStr δ} {E : ScanEnvironment}
    {B : BatchBounds} {paths : List ManifestPath} {state state' : PeriodicState} {retries : List PyStr}
    {spool : FullRecoverySpool} (h : buildFullRecoverySpool E B paths state = .ok (spool, state'))
    (hcursor : s.cursor = .ofPeriodicState (advanceFullPeriodicWatermark spool.watermarkNs state') retries)
    (hclock : spool.watermarkNs ≤ s.clock)
    (hunique : ∀ a ∈ s.files, ∀ b ∈ s.files, a.1 = b.1 → a = b)
    (hvisible : ∀ item ∈ s.files, item.1 ∉ s.removed)
    (hscanned : ∀ path ∈ paths, (E.stat path).isSome = true → s.Handled (E.pathText path))
    (hlate : ∀ item ∈ s.files, D.recent (D.directory item.1) = true →
      (∃ path ∈ paths, (E.stat path).isSome = true ∧ E.pathText path = item.1) ∨
        spool.watermarkNs ≤ item.2) (hpass : s.pass = none) : Initial D s := by
  have hwatermark : s.cursor.watermarkNs = spool.watermarkNs := by
    rw [hcursor]
    rfl
  refine ⟨hwatermark ▸ hclock, hunique, hvisible, fun p hp => ?_, fun item hitem hrecent => ?_, hpass⟩
  · rw [hcursor] at hp
    obtain ⟨path, hpath, stat, hstat, -, rfl⟩ := (mem_periodicWatermarkPaths h p).mp hp
    exact hscanned path hpath (by rw [hstat]; rfl)
  · rw [hwatermark]
    refine (hlate item hitem hrecent).imp (fun hfound => ?_) id
    obtain ⟨path, hpath, hstat, heq⟩ := hfound
    exact heq ▸ hscanned path hpath hstat

/-- However manifests are staged, renamed and removed while passes list, select, handle, end and raise: in a
    quiet run every visible manifest in a watched directory has been settled or will be tried again, or
    it is a candidate of the next pass. -/
theorem no_receipt_skipped (D : WatchedDirectories π δ) (B : PeriodicBounds)
    {actions : List (ScanAction π δ)} (hstart : Initial D s)
    (hquiet : Transition.Along (step B) (Quiet D) s actions)
    (hrun : Transition.run (step B) s actions = some s') :
    ∀ item ∈ s'.files, D.recent (D.directory item.1) = true →
      item.1 ∈ s'.settled ∨ item.1 ∈ s'.cursor.retries ∨ s'.cursor.isFresh item = true := by
  have hinitial : Tracks D s := by
    refine ⟨hstart.watermark_le, hstart.unique, hstart.visible, hstart.seen, fun start item hitem => ?_,
      fun P hP => absurd (hstart.pass ▸ hP) (by simp)⟩
    exact (hstart.tracked item hitem.1 hitem.2.1).resolve_left hitem.2.2.2
  have h : Tracks D s' :=
    Transition.run_invariant_along (fun _ _ _ h hquiet hstep => h.step hquiet hstep) hinitial hquiet hrun
  intro item hitem hrecent
  by_cases hp : s'.Handled item.1
  · exact hp.imp id fun hp => .inl (hp.resolve_right (h.visible item hitem))
  · exact .inr (.inr (h.isFresh ⟨hitem, hrecent, Nat.lt_succ_self _, hp⟩))

/-- Manifest 2 is renamed before the pass comes to its directory, and manifest 3 is written into a
    directory that the pass has listed: it is left for the next pass. -/
def lateManifest : List (ScanAction Nat Nat) :=
  [.tick 5, .stage 2, .tick 1, .begins [1, 0], .list [1], .publish 2 5, .tick 1, .stage 3, .publish 3 7,
   .list [2], .stat (some 0), .stat (some 5), .select (fun _ => none) (fun _ => 100),
   .handle 0 .pinned, .finish]

/-- The full scan has found manifest 1. -/
def lateStart : ScanState Nat Nat := ⟨0, [], [(1, 0)], [], [1], ⟨0, [1], []⟩, none⟩

theorem late_manifest_not_skipped :
    ∃ s, Transition.run (step periodicBounds) lateStart lateManifest = some s ∧
      (3, 7) ∈ s.files ∧ s.cursor.watermarkNs = 5 ∧ s.cursor.isFresh (3, 7) = true := by
  have hrun : (Transition.run (step periodicBounds) lateStart lateManifest).map (fun s =>
      (s.files, s.settled, s.cursor.retries, s.cursor.watermarkNs)) =
      some ([(3, 7), (2, 5), (1, 0)], [1], [2], 5) := by decide +kernel
  obtain ⟨s, hs, heq⟩ := Option.map_eq_some_iff.mp hrun
  simp only [Prod.mk.injEq] at heq
  obtain ⟨hfiles, hsettled, hretries, hwatermark⟩ := heq
  have hkept := no_receipt_skipped ⟨(· % 2), fun _ => true⟩ periodicBounds (s := lateStart)
    ⟨by decide, by decide, by decide, by decide, by decide, rfl⟩ (by decide +kernel) hs
  have hlate : (3, 7) ∈ s.files := by simp [hfiles]
  refine ⟨s, hs, hlate, hwatermark, ?_⟩
  have hfresh := hkept (3, 7) hlate rfl
  rw [hsettled, hretries] at hfresh
  simpa using hfresh

/-- Manifest 2 was staged before manifest 3, and is renamed when the pass has listed its directory: it is
    skipped. -/
example : (Transition.run (step periodicBounds) lateStart
    [.tick 5, .stage 2, .tick 1, .stage 3, .publish 3 6, .begins [0, 1], .list [], .publish 2 5,
     .list [1, 3], .stat (some 0), .stat (some 6), .select (fun _ => none) (fun _ => 100),
     .handle 0 (.settled true), .finish]).map (fun s => (s.files, s.settled, s.cursor.isFresh (2, 5))) =
      some ([(2, 5), (3, 6), (1, 0)], [3, 1], false) := by decide +kernel

end ScanState
end RapidInbox.Recovery
