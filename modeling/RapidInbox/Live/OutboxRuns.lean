import RapidInbox.Live.OutboxTail

/-!
# The tail publishes every row once

The cursor splits the outbox it belongs to: the rows behind it have been handled, and every row ahead
of it comes after all that have been handled.
-/

namespace RapidInbox

open Transition

/-! ## Pages -/

namespace OutboxTables

variable {t : OutboxTables}

/-- A delivery has its message and its mailbox, so a row with an active delivery is published. -/
theorem join_publishes (h : t.Wellformed) (e : LiveEventRow) : (t.join e).publishes = (t.join e).active := by
  cases hdelivery : t.deliveries.find? fun d => d.id = e.deliveryId with
  | none => simp [OutboxPageRow.publishes, OutboxPageRow.active, join, hdelivery]
  | some d =>
    have hparents := List.all_eq_true.mp h.parents d (List.mem_of_find?_eq_some hdelivery)
    rw [Bool.and_eq_true] at hparents
    have hmessage : (t.messages.find? fun m => m.id = d.messageId).isSome := by
      rw [List.find?_isSome]
      exact List.any_eq_true.mp hparents.1
    have hmailbox : (t.mailboxes.find? fun b => b.id = d.mailboxId).isSome := by
      rw [List.find?_isSome]
      exact List.any_eq_true.mp hparents.2
    simp [OutboxPageRow.publishes, OutboxPageRow.active, join, hdelivery, hmessage, hmailbox]

theorem eventsAfter_sorted (h : t.Wellformed) (cursor : Nat) :
    (t.eventsAfter cursor).Pairwise fun e e' => e.id < e'.id :=
  h.ascending.sublist List.filter_sublist

theorem mem_eventsAfter {cursor : Nat} {e : LiveEventRow} :
    e ∈ t.eventsAfter cursor ↔ e ∈ t.events ∧ cursor < e.id := by
  simp [eventsAfter]

theorem mem_page {cursor limit : Nat} {r : OutboxPageRow} (hr : r ∈ t.page cursor limit) :
    r.event ∈ t.eventsAfter cursor ∧ r = t.join r.event := by
  obtain ⟨e, he, rfl⟩ := List.mem_map.mp hr
  exact ⟨List.mem_of_mem_take he, rfl⟩

theorem page_sorted (h : t.Wellformed) (cursor limit : Nat) :
    (t.page cursor limit).Pairwise fun r r' => r.event.id < r'.event.id :=
  List.pairwise_map.mpr ((eventsAfter_sorted h cursor).sublist (List.take_sublist _ _))

/-- An event behind the cursor is in the page, or behind all of it. -/
theorem page_covers (h : t.Wellformed) {cursor limit : Nat} {e : LiveEventRow} (he : e ∈ t.events)
    (hcursor : cursor < e.id) :
    (∃ r ∈ t.page cursor limit, r.event = e) ∨ ∀ r ∈ t.page cursor limit, r.event.id < e.id := by
  have hmem : e ∈ (t.eventsAfter cursor).take limit ++ (t.eventsAfter cursor).drop limit := by
    rw [List.take_append_drop]
    exact mem_eventsAfter.mpr ⟨he, hcursor⟩
  rcases List.mem_append.mp hmem with htake | hdrop
  · exact .inl ⟨t.join e, List.mem_map_of_mem htake, rfl⟩
  · refine .inr ?_
    intro r hr
    obtain ⟨e', he', rfl⟩ := List.mem_map.mp hr
    have hsorted := eventsAfter_sorted h cursor
    rw [← List.take_append_drop limit (t.eventsAfter cursor)] at hsorted
    exact (List.pairwise_append.mp hsorted).2.2 e' he' e hdrop

theorem le_latestId {e : LiveEventRow} (he : e ∈ t.events) : e.id ≤ t.latestId := by
  unfold latestId
  generalize t.events = events at he
  induction events with
  | nil => exact absurd he List.not_mem_nil
  | cons e' events ih =>
    rw [List.map_cons, List.foldr_cons]
    rcases List.mem_cons.mp he with rfl | he
    · exact Nat.le_max_left _ _
    · exact Nat.le_trans (ih he) (Nat.le_max_right _ _)

theorem latestId_le (h : t.Wellformed) : t.latestId ≤ t.seq := by
  have hle := h.seq_le
  unfold latestId
  generalize t.seq = seq at hle
  generalize t.events = events at hle
  induction events with
  | nil => exact Nat.zero_le _
  | cons e events ih =>
    rw [List.map_cons, List.foldr_cons, Nat.max_le]
    exact ⟨hle e List.mem_cons_self, ih fun e he => hle e (List.mem_cons_of_mem _ he)⟩

end OutboxTables

/-! ## The invariant -/

/-- One row was handled before another: an earlier one of the same database, or a row of a database
    since replaced, under another generation. -/
def HandledRow.Before (h h' : HandledRow) : Prop :=
  h.database < h'.database ∧ h.generation ≠ h'.generation ∨
    h.database = h'.database ∧ h.row.event.id < h'.row.event.id

namespace OutboxTail

/-- The cursor and what has been handled; `first` is where the tail began. -/
structure Split (first : Nat) (s : OutboxTail) : Prop where
  tracked_le : s.tracked ≤ s.database
  identity : s.tracked = s.database → s.streamIdentity = s.identity
  known : s.live.generation ∈ s.generations
  order : s.handled.Pairwise HandledRow.Before
  handled : ∀ h ∈ s.handled, h.database ≤ s.tracked ∧ h.generation ∈ s.generations
  older : ∀ h ∈ s.handled, h.database < s.tracked → h.generation ≠ s.live.generation
  bound : ∀ h ∈ s.handled, h.database = s.database → h.row.event.id ≤ s.outbox.tables.seq
  cursor : s.tracked = s.database → s.cursor ≤ s.outbox.tables.seq
  ahead : s.tracked = s.database → ∀ e ∈ s.outbox.tables.events, s.cursor < e.id →
    ∀ h ∈ s.handled, h.database = s.database → h.row.event.id < e.id
  behind : s.tracked = s.database → ∀ e ∈ s.outbox.tables.events, e.id ≤ s.cursor →
    s.database = 0 ∧ e.id ≤ first ∨ ∃ h ∈ s.handled, h.database = s.database ∧ h.row.event = e
  published : s.published = s.handled.filter fun h => h.row.active

/-- The rows of a page that the loop may go on with. -/
structure RowsReady (s : OutboxTail) (rows : List OutboxPageRow) : Prop where
  sorted : rows.Pairwise fun r r' => r.event.id < r'.event.id
  after : ∀ r ∈ rows, s.cursor < r.event.id
  fresh : ∀ r ∈ rows, ∀ h ∈ s.handled, h.database = s.tracked → h.row.event.id < r.event.id
  publishes : ∀ r ∈ rows, r.publishes = r.active
  bound : s.tracked = s.database → ∀ r ∈ rows, r.event.id ≤ s.outbox.tables.seq
  covers : s.tracked = s.database → ∀ e ∈ s.outbox.tables.events, s.cursor < e.id →
    (∃ r ∈ rows, r.event = e) ∨ ∀ r ∈ rows, r.event.id < e.id

/-- What each phase has to remember. -/
inductive PhaseSound (s : OutboxTail) : TailPhase → Prop
  | waiting : PhaseSound s .waiting
  | polling {pages : Nat} : PhaseSound s (.polling pages)
  | loading {pages : Nat} : PhaseSound s (.loading pages s.streamIdentity)
  | loaded {pages highWater database : Nat} {rows : List OutboxPageRow}
      (hlow : s.tracked ≤ database) (hhigh : database ≤ s.database)
      (hwater : database = s.tracked → s.cursor ≤ highWater)
      (hready : database = s.tracked → s.RowsReady rows) :
      PhaseSound s (.loaded pages s.streamIdentity rows highWater database)
  | stopped : PhaseSound s .stopped
  | cleared (hall : s.tracked = s.database → ∀ e ∈ s.outbox.tables.events, ∀ h ∈ s.handled,
      h.database = s.database → h.row.event.id < e.id) : PhaseSound s .cleared

structure Sound (first : Nat) (s : OutboxTail) : Prop where
  split : s.Split first
  phase : s.PhaseSound s.phase

variable {first : Nat} {s s' : OutboxTail} {rows : List OutboxPageRow}

/-! ## One row -/

theorem generation_handleRow (s : OutboxTail) (r : OutboxPageRow) :
    (s.handleRow r).live.generation = s.live.generation := by
  unfold OutboxTail.handleRow
  dsimp only
  split <;> rfl

theorem Split.handleRow (h : s.Split first) {r : OutboxPageRow} (hready : s.RowsReady (r :: rows)) :
    (s.handleRow r).Split first ∧ (s.handleRow r).RowsReady rows := by
  have hafter : ∀ r' ∈ rows, r.event.id < r'.event.id :=
    fun _ hr' => List.rel_of_pairwise_cons hready.sorted hr'
  have hr : r ∈ r :: rows := List.mem_cons_self
  have hgeneration := generation_handleRow s r
  have hmem {h' : HandledRow} (hh : h' ∈ (s.handleRow r).handled) :
      h' ∈ s.handled ∨ h' = ⟨s.tracked, s.live.generation, r⟩ := by
    rcases List.mem_append.mp hh with hh | hh
    · exact .inl hh
    · exact .inr (List.mem_singleton.mp hh)
  constructor
  · refine ⟨h.tracked_le, h.identity, hgeneration ▸ h.known, ?_, ?_, ?_, ?_, ?_, ?_, ?_, ?_⟩
    · refine List.pairwise_append.mpr ⟨h.order, List.pairwise_singleton _ _, ?_⟩
      intro h' hh new hnew
      rw [List.mem_singleton.mp hnew]
      by_cases hsame : h'.database = s.tracked
      · exact .inr ⟨hsame, hready.fresh r hr h' hh hsame⟩
      · have hlt : h'.database < s.tracked := by
          have := (h.handled h' hh).1
          omega
        exact .inl ⟨hlt, h.older h' hh hlt⟩
    · intro h' hh
      rcases hmem hh with hh | rfl
      · exact h.handled h' hh
      · exact ⟨Nat.le_refl _, h.known⟩
    · rw [hgeneration]
      intro h' hh hlt
      rcases hmem hh with hh | rfl
      · exact h.older h' hh hlt
      · exact absurd hlt (Nat.lt_irrefl _)
    · intro h' hh hdatabase
      rcases hmem hh with hh | rfl
      · exact h.bound h' hh hdatabase
      · exact hready.bound hdatabase r hr
    · intro htracked
      exact hready.bound htracked r hr
    · intro htracked e he hcursor h' hh hdatabase
      rcases hmem hh with hh | rfl
      · exact h.ahead htracked e he (Nat.lt_trans (hready.after r hr) hcursor) h' hh hdatabase
      · exact hcursor
    · intro htracked e he hle
      by_cases hold : e.id ≤ s.cursor
      · rcases h.behind htracked e he hold with hfirst | ⟨h', hh, hrest⟩
        · exact .inl hfirst
        · exact .inr ⟨h', List.mem_append_left _ hh, hrest⟩
      · -- the row is the event's own: those after it are behind the event
        have hevent : r.event = e := by
          rcases hready.covers htracked e he (by omega) with ⟨r', hr', hevent⟩ | hall
          · rcases List.mem_cons.mp hr' with rfl | hr'
            · exact hevent
            · have hlt := hafter r' hr'
              rw [hevent] at hlt
              exact absurd hle (Nat.not_le_of_lt hlt)
          · exact absurd hle (Nat.not_le_of_lt (hall r hr))
        exact .inr ⟨_, List.mem_append_right _ (List.mem_singleton.mpr rfl), htracked, hevent⟩
    · have hpublishes := hready.publishes r hr
      unfold OutboxTail.handleRow
      dsimp only
      rw [List.filter_append, h.published, hpublishes]
      cases hactive : r.active <;> simp [hactive]
  · refine ⟨hready.sorted.of_cons, hafter, ?_, ?_, ?_, ?_⟩
    · intro r' hr' h' hh hdatabase
      rcases hmem hh with hh | rfl
      · exact hready.fresh r' (List.mem_cons_of_mem _ hr') h' hh hdatabase
      · exact hafter r' hr'
    · exact fun r' hr' => hready.publishes r' (List.mem_cons_of_mem _ hr')
    · exact fun htracked r' hr' => hready.bound htracked r' (List.mem_cons_of_mem _ hr')
    · intro htracked e he hcursor
      have hlow : r.event.id < e.id := hcursor
      rcases hready.covers htracked e he (Nat.lt_trans (hready.after r hr) hlow) with
        ⟨r', hr', hevent⟩ | hall
      · rcases List.mem_cons.mp hr' with rfl | hr'
        · rw [hevent] at hlow
          exact absurd hlow (Nat.lt_irrefl _)
        · exact .inl ⟨r', hr', hevent⟩
      · exact .inr fun r' hr' => hall r' (List.mem_cons_of_mem _ hr')

theorem Split.handleRows (h : s.Split first) (hready : s.RowsReady rows) :
    (rows.foldl OutboxTail.handleRow s).Split first := by
  induction rows generalizing s with
  | nil => exact h
  | cons r rows ih =>
    obtain ⟨hsplit, hrest⟩ := h.handleRow hready
    exact ih hsplit hrest

/-! ## The database changes -/

theorem Split.advance (h : s.Split first) {outbox : Outbox}
    (hadvance : OutboxTables.EventsAdvance s.outbox.tables outbox.tables) :
    Split first { s with outbox := outbox } where
  tracked_le := h.tracked_le
  identity := h.identity
  known := h.known
  order := h.order
  handled := h.handled
  older := h.older
  bound h' hh hdatabase := Nat.le_trans (h.bound h' hh hdatabase) hadvance.seq_le
  cursor htracked := Nat.le_trans (h.cursor htracked) hadvance.seq_le
  ahead htracked e he hcursor h' hh hdatabase := by
    rcases hadvance.origin e he with hold | ⟨hnew, -⟩
    · exact h.ahead htracked e hold hcursor h' hh hdatabase
    · exact Nat.lt_of_le_of_lt (h.bound h' hh hdatabase) hnew
  behind htracked e he hle := by
    rcases hadvance.origin e he with hold | ⟨hnew, -⟩
    · exact h.behind htracked e hold hle
    · exact absurd (Nat.le_trans hle (h.cursor htracked)) (Nat.not_le_of_lt hnew)
  published := h.published

theorem RowsReady.advance (h : s.RowsReady rows) {outbox : Outbox}
    (hadvance : OutboxTables.EventsAdvance s.outbox.tables outbox.tables) :
    RowsReady { s with outbox := outbox } rows :=
  { h with
    bound := fun htracked r hr => Nat.le_trans (h.bound htracked r hr) hadvance.seq_le
    covers := by
      intro htracked e he hcursor
      rcases hadvance.origin e he with hold | ⟨hnew, -⟩
      · exact h.covers htracked e hold hcursor
      · exact .inr fun r hr => Nat.lt_of_le_of_lt (h.bound htracked r hr) hnew }

theorem PhaseSound.advance {phase : TailPhase} (h : s.PhaseSound phase) (hsplit : s.Split first)
    {outbox : Outbox} (hadvance : OutboxTables.EventsAdvance s.outbox.tables outbox.tables) :
    PhaseSound { s with outbox := outbox } phase := by
  cases h with
  | waiting => exact .waiting
  | polling => exact .polling
  | loading => exact .loading
  | loaded hlow hhigh hwater hready =>
    exact .loaded hlow hhigh hwater fun hsame => (hready hsame).advance hadvance
  | stopped => exact .stopped
  | cleared hall =>
    refine .cleared ?_
    intro htracked e he h' hh hdatabase
    rcases hadvance.origin e he with hold | ⟨hnew, -⟩
    · exact hall htracked e hold h' hh hdatabase
    · exact Nat.lt_of_le_of_lt (hsplit.bound h' hh hdatabase) hnew

/-- What the cursor belongs to has been replaced. -/
theorem Split.replace (h : s.Split first) (outbox : Outbox) (identity : Nat) :
    Split first { s with outbox := outbox, identity := identity, database := s.database + 1 } := by
  have hle := h.tracked_le
  have hother : s.tracked ≠ s.database + 1 := by omega
  exact { h with
    tracked_le := Nat.le_succ_of_le hle
    identity := fun htracked => absurd htracked hother
    bound := by
      intro h' hh hdatabase
      have hlow := (h.handled h' hh).1
      dsimp only at hdatabase
      omega
    cursor := fun htracked => absurd htracked hother
    ahead := fun htracked => absurd htracked hother
    behind := fun htracked => absurd htracked hother }

theorem PhaseSound.replace {phase : TailPhase} (h : s.PhaseSound phase) (hsplit : s.Split first)
    (outbox : Outbox) (identity : Nat) :
    PhaseSound { s with outbox := outbox, identity := identity, database := s.database + 1 } phase := by
  have hother : s.tracked ≠ s.database + 1 := by
    have := hsplit.tracked_le
    omega
  cases h with
  | waiting => exact .waiting
  | polling => exact .polling
  | loading => exact .loading
  | loaded hlow hhigh hwater hready =>
    refine .loaded hlow (Nat.le_succ_of_le hhigh) hwater ?_
    intro hsame
    exact { hready hsame with
      bound := fun htracked => absurd htracked hother
      covers := fun htracked => absurd htracked hother }
  | stopped => exact .stopped
  | cleared _ => exact .cleared fun htracked => absurd htracked hother

/-! ## The cursor is reset -/

/-- The cursor is before the first row, and the rows that are there have not been handled. -/
theorem Split.clearLive (h : s.Split first) {generation : Text} (hnew : generation ∉ s.generations)
    (hall : s.tracked = s.database → ∀ e ∈ s.outbox.tables.events, ∀ h ∈ s.handled,
      h.database = s.database → h.row.event.id < e.id) :
    (s.clearLive generation).Split first where
  tracked_le := h.tracked_le
  identity := h.identity
  known := List.mem_append_right _ (List.mem_singleton.mpr rfl)
  order := h.order
  handled h' hh := ⟨(h.handled h' hh).1, List.mem_append_left _ (h.handled h' hh).2⟩
  older h' hh _ heq := by
    have hsame : h'.generation = generation := heq
    exact hnew (hsame ▸ (h.handled h' hh).2)
  bound := h.bound
  cursor _ := Nat.zero_le _
  ahead htracked e he _ h' hh hdatabase := hall htracked e he h' hh hdatabase
  behind _ e he hle := by
    have := s.outbox.wellformed.positive e he
    have : e.id ≤ 0 := hle
    omega
  published := h.published

/-- The stream goes over to a database of which no row has been handled. -/
theorem Split.resetStream (h : s.Split first) {generation : Text} (hnew : generation ∉ s.generations)
    (hother : s.tracked < s.database) : (s.resetStream generation).Split first := by
  have hcleared := h.clearLive hnew fun htracked => absurd htracked (Nat.ne_of_lt hother)
  have hnone : ∀ h' ∈ s.handled, h'.database ≠ s.database := by
    intro h' hh hsame
    have := (h.handled h' hh).1
    omega
  exact { hcleared with
    tracked_le := Nat.le_refl _
    identity := fun _ => rfl
    handled := fun h' hh =>
      ⟨Nat.le_trans (h.handled h' hh).1 h.tracked_le, (hcleared.handled h' hh).2⟩
    older := fun h' hh _ heq => by
      have hsame : h'.generation = generation := heq
      exact hnew (hsame ▸ (h.handled h' hh).2)
    cursor := fun _ => Nat.zero_le _
    ahead := fun _ _ _ _ h' hh hsame => absurd hsame (hnone h' hh)
    behind := by
      intro _ e he hle
      have := s.outbox.wellformed.positive e he
      have : e.id ≤ 0 := hle
      omega }

/-! ## Steps -/

theorem page_ready (h : s.Split first) (limit : Nat) (hsame : s.database = s.tracked) :
    s.RowsReady (s.outbox.tables.page s.cursor limit) where
  sorted := OutboxTables.page_sorted s.outbox.wellformed _ _
  after r hr := (OutboxTables.mem_eventsAfter.mp (OutboxTables.mem_page hr).1).2
  fresh r hr h' hh hdatabase := by
    obtain ⟨he, hcursor⟩ := OutboxTables.mem_eventsAfter.mp (OutboxTables.mem_page hr).1
    exact h.ahead hsame.symm _ he hcursor h' hh (hdatabase.trans hsame.symm)
  publishes r hr := by
    rw [(OutboxTables.mem_page hr).2]
    exact OutboxTables.join_publishes s.outbox.wellformed _
  bound _ r hr :=
    s.outbox.wellformed.seq_le _ (OutboxTables.mem_eventsAfter.mp (OutboxTables.mem_page hr).1).1
  covers _ e he hcursor := OutboxTables.page_covers s.outbox.wellformed he hcursor

theorem Split.setPhase (h : s.Split first) (phase : TailPhase) :
    Split first { s with phase := phase } :=
  { h with }

theorem Sound.resume {C : TailConfig} {generation : Text} {pages identityBefore highWater database : Nat}
    (h : Sound first s) (hphase : s.phase = .loaded pages identityBefore rows highWater database)
    (hregular : s.Regular (.resume generation)) :
    Sound first (s.resume C generation pages identityBefore rows highWater) := by
  have hsound := h.phase
  rw [Regular, hphase] at hregular
  rw [hphase] at hsound
  cases hsound with
  | loaded hlow hhigh hwater hready =>
    unfold OutboxTail.resume
    split
    · rename_i hdetected
      -- the page or the file is of another database than the cursor
      have hother : s.tracked < s.database := by
        have hle := h.split.tracked_le
        rcases hdetected with hidentity | hbelow
        · have hne : s.tracked ≠ s.database := fun htracked =>
            hidentity (h.split.identity htracked).symm
          omega
        · have hne : database ≠ s.tracked := fun hsame =>
            absurd (hwater hsame) (Nat.not_le_of_lt hbelow)
          omega
      exact ⟨(h.split.resetStream hregular.1 hother).setPhase _, .polling⟩
    · rename_i hundetected
      have hsame : database = s.tracked := by
        rcases hregular.2 with hsame | hdetected
        · exact hsame
        · exact absurd hdetected hundetected
      refine ⟨(h.split.handleRows (hready hsame)).setPhase _, ?_⟩
      dsimp only
      split
      · exact .waiting
      · exact .polling

theorem Sound.step {C : TailConfig} {a : TailAction} (h : Sound first s) (hregular : s.Regular a)
    (hstep : s.step C a = some s') : Sound first s' := by
  cases a with
  | transaction changes =>
    cases hstep
    have hadvance := s.outbox.transaction_advance changes
    exact ⟨h.split.advance hadvance, h.phase.advance h.split hadvance⟩
  | replace outbox identity =>
    cases hstep
    exact ⟨h.split.replace outbox identity, h.phase.replace h.split outbox identity⟩
  | poll =>
    rw [OutboxTail.step] at hstep
    split at hstep
    · cases hstep
      exact ⟨h.split.setPhase _, .polling⟩
    · cases hstep
  | request generation =>
    rw [OutboxTail.step] at hstep
    split at hstep
    · split at hstep
      · by_cases hidentity : s.identity ≠ s.streamIdentity
        · dsimp only at hstep
          rw [if_pos hidentity] at hstep
          cases hstep
          have hother : s.tracked < s.database := by
            have hle := h.split.tracked_le
            have hne : s.tracked ≠ s.database := fun htracked =>
              hidentity (h.split.identity htracked).symm
            omega
          exact ⟨(h.split.resetStream hregular hother).setPhase _, .loading⟩
        · dsimp only at hstep
          rw [if_neg hidentity] at hstep
          cases hstep
          refine ⟨h.split.setPhase _, ?_⟩
          rw [not_not] at hidentity
          dsimp only
          rw [hidentity]
          exact .loading
      · cases hstep
        exact ⟨h.split.setPhase _, .waiting⟩
    · cases hstep
  | read =>
    have hphase := h.phase
    rw [OutboxTail.step] at hstep
    split at hstep
    · rename_i pages identityBefore hp
      cases hstep
      rw [hp] at hphase
      cases hphase with
      | loading =>
        refine ⟨h.split.setPhase _, .loaded h.split.tracked_le (Nat.le_refl _) ?_ ?_⟩
        · exact fun hsame => h.split.cursor hsame.symm
        · intro hsame
          exact { page_ready h.split C.batchSize hsame with }
    · cases hstep
  | resume generation =>
    rw [OutboxTail.step] at hstep
    split at hstep
    · rename_i hp
      cases hstep
      exact h.resume hp hregular
    · cases hstep
  | cancel =>
    rw [OutboxTail.step] at hstep
    split at hstep
    · cases hstep
    · cases hstep
    · cases hstep
      exact ⟨h.split.setPhase _, .stopped⟩
  | clearTables =>
    rw [OutboxTail.step] at hstep
    split at hstep
    · cases hstep
      refine ⟨(h.split.advance s.outbox.clearMailTables_advance).setPhase _, .cleared ?_⟩
      intro _ e he
      exact absurd he List.not_mem_nil
    · cases hstep
  | resetCursor generation =>
    have hphase := h.phase
    rw [OutboxTail.step] at hstep
    split at hstep
    · rename_i hp
      cases hstep
      rw [hp] at hphase
      cases hphase with
      | cleared hall => exact ⟨(h.split.clearLive hregular hall).setPhase _, .stopped⟩
    · cases hstep
  | restart =>
    rw [OutboxTail.step] at hstep
    split at hstep
    · cases hstep
      exact ⟨h.split.setPhase _, .waiting⟩
    · cases hstep
      exact ⟨h.split.setPhase _, .waiting⟩
    · cases hstep

theorem sound_start (outbox : Outbox) (identity maxEvents : Nat) (generation : Text) :
    Sound outbox.tables.latestId (start outbox identity maxEvents generation) where
  split :=
    { tracked_le := Nat.le_refl _
      identity := fun _ => rfl
      known := List.mem_singleton.mpr rfl
      order := .nil
      handled := fun _ hh => absurd hh List.not_mem_nil
      older := fun _ hh => absurd hh List.not_mem_nil
      bound := fun _ hh => absurd hh List.not_mem_nil
      cursor := fun _ => OutboxTables.latestId_le outbox.wellformed
      ahead := fun _ _ _ _ _ hh => absurd hh List.not_mem_nil
      behind := fun _ _ he _ => .inl ⟨rfl, OutboxTables.le_latestId he⟩
      published := rfl }
  phase := .waiting

theorem Sound.run {C : TailConfig} {as : List TailAction} (h : Sound first s)
    (hregular : Along (OutboxTail.step C) Regular s as)
    (hrun : Transition.run (OutboxTail.step C) s as = some s') : Sound first s' :=
  run_invariant_along (fun _ _ _ h hregular hstep => h.step hregular hstep) h hregular hrun

/-! ## A page is handled whole -/

theorem handled_handleRow (s : OutboxTail) (r : OutboxPageRow) :
    (s.handleRow r).handled = s.handled ++ [⟨s.tracked, s.live.generation, r⟩] :=
  rfl

theorem handled_handleRows (s : OutboxTail) (rows : List OutboxPageRow) :
    (rows.foldl OutboxTail.handleRow s).handled =
      s.handled ++ rows.map (HandledRow.mk s.tracked s.live.generation) := by
  induction rows generalizing s with
  | nil => exact (List.append_nil _).symm
  | cons r rows ih =>
    rw [List.foldl_cons, ih, handled_handleRow, generation_handleRow, List.append_assoc]
    rfl

/-- A poll that is not disturbed handles the whole page ahead of the cursor. -/
theorem Split.pass {C : TailConfig} {pages : Nat} (h : s.Split first)
    (hphase : s.phase = .polling pages) (hpages : pages < C.maxPages)
    (htracked : s.tracked = s.database) (generation₁ generation₂ : Text) :
    ∃ s', Transition.run (OutboxTail.step C) s
        [.request generation₁, .read, .resume generation₂] = some s' ∧
      s'.handled = s.handled ++ (s.outbox.tables.page s.cursor C.batchSize).map
        (HandledRow.mk s.tracked s.live.generation) := by
  have hrequest : OutboxTail.step C s (.request generation₁) =
      some { s with phase := .loading pages s.identity } := by
    rw [OutboxTail.step, hphase]
    dsimp only
    rw [if_pos hpages, if_neg (not_not.mpr (h.identity htracked).symm)]
  have hundetected : ¬(s.identity ≠ s.identity ∨ s.outbox.tables.seq < s.cursor) := by
    rintro (hne | hlt)
    · exact hne rfl
    · exact absurd (h.cursor htracked) (Nat.not_le_of_lt hlt)
  rw [Transition.run, hrequest]
  refine ⟨_, rfl, ?_⟩
  rw [OutboxTail.resume, if_neg hundetected]
  exact handled_handleRows _ _

/-- The stream has gone over to the database that is there, from its first row on. -/
structure Replays (generation : Text) (s s' : OutboxTail) : Prop where
  cursor : s'.cursor = 0
  tracked : s'.tracked = s.database
  generation : s'.live.generation = generation
  handled : s'.handled = s.handled

/-- The file has another identity than the one the stream belongs to. -/
theorem request_replays {C : TailConfig} {pages : Nat} {generation : Text}
    (hphase : s.phase = .polling pages) (hpages : pages < C.maxPages)
    (hidentity : s.identity ≠ s.streamIdentity) :
    ∃ s', s.step C (.request generation) = some s' ∧ s.Replays generation s' := by
  refine ⟨{ s.resetStream generation with phase := .loading pages s.identity }, ?_,
    ⟨rfl, rfl, rfl, rfl⟩⟩
  rw [OutboxTail.step, hphase]
  dsimp only
  rw [if_pos hpages, if_pos hidentity]
  rfl

/-- The file has changed under the page, or its sequence is below the cursor. -/
theorem resume_replays {C : TailConfig} {pages identityBefore highWater database : Nat}
    {generation : Text} (hphase : s.phase = .loaded pages identityBefore rows highWater database)
    (hdetected : s.identity ≠ identityBefore ∨ highWater < s.cursor) :
    ∃ s', s.step C (.resume generation) = some s' ∧ s.Replays generation s' := by
  refine ⟨{ s.resetStream generation with phase := .polling pages }, ?_, ⟨rfl, rfl, rfl, rfl⟩⟩
  rw [OutboxTail.step, hphase]
  dsimp only
  rw [OutboxTail.resume, if_pos hdetected]

/-! ## The ring and what was published -/

/-- The rows published in the current generation. -/
def current (s : OutboxTail) : List HandledRow :=
  s.published.filter fun h => h.generation = s.live.generation

/-- The events of rows, numbered from the first. -/
def ringEvents (rows : List HandledRow) : List LiveEvent :=
  rows.mapIdx fun i h => ⟨h.row.entries, i + 1⟩

/-- The ring has the last of the rows published in its generation. -/
structure Rings (s : OutboxTail) : Prop where
  known : s.live.generation ∈ s.generations
  published : ∀ h ∈ s.published, h.generation ∈ s.generations
  next : s.live.nextSeq = s.current.length + 1
  events : s.live.events = (ringEvents s.current).drop (s.current.length - s.live.maxEvents)

theorem Rings.handleRow (h : s.Rings) (r : OutboxPageRow) : (s.handleRow r).Rings := by
  cases hpublishes : r.publishes with
  | false =>
    simp only [OutboxTail.handleRow, hpublishes]
    exact ⟨h.known, h.published, h.next, h.events⟩
  | true =>
    have hlive : (s.handleRow r).live = s.live.publish r.entries := by
      simp [OutboxTail.handleRow, hpublishes]
    have hpublished : (s.handleRow r).published =
        s.published ++ [⟨s.tracked, s.live.generation, r⟩] := by
      simp [OutboxTail.handleRow, hpublishes]
    have hcurrent : (s.handleRow r).current = s.current ++ [⟨s.tracked, s.live.generation, r⟩] := by
      simp [current, hlive, hpublished, LiveState.publish]
    have hlength : (ringEvents s.current).length = s.current.length := List.length_mapIdx
    refine ⟨?_, fun x hx => ?_, ?_, ?_⟩
    · rw [hlive]
      exact h.known
    · rw [hpublished] at hx
      rcases List.mem_append.mp hx with hx | hx
      · exact h.published x hx
      · rw [List.mem_singleton.mp hx]
        exact h.known
    · rw [hlive, hcurrent, List.length_append, List.length_singleton, ← h.next]
      rfl
    · rw [hlive, hcurrent]
      change (s.live.events ++ [_]).drop _ = (ringEvents _).drop (_ - s.live.maxEvents)
      have hconcat (x : HandledRow) : ringEvents (s.current ++ [x]) =
          ringEvents s.current ++ [⟨x.row.entries, s.current.length + 1⟩] := List.mapIdx_concat
      rw [h.events, h.next, hconcat, ← List.drop_append_of_le_length (by omega), List.drop_drop]
      congr 1
      simp only [List.length_drop, List.length_append, List.length_singleton, hlength]
      omega

theorem Rings.handleRows (h : s.Rings) (rows : List OutboxPageRow) :
    (rows.foldl OutboxTail.handleRow s).Rings := by
  induction rows generalizing s with
  | nil => exact h
  | cons r rows ih => exact ih (h.handleRow r)

theorem Rings.clearLive (h : s.Rings) {generation : Text} (hnew : generation ∉ s.generations) :
    (s.clearLive generation).Rings := by
  have hnone : (s.clearLive generation).current = [] := by
    refine List.filter_eq_nil_iff.mpr fun x hx => ?_
    rw [decide_eq_true_iff]
    rintro rfl
    exact hnew (h.published x hx)
  refine ⟨List.mem_append_right _ (List.mem_singleton_self _),
    fun x hx => List.mem_append_left _ (h.published x hx), ?_, ?_⟩
  · rw [hnone]
    rfl
  · rw [hnone]
    exact List.drop_nil.symm

/-- What else changes leaves the ring and the published rows alone. -/
theorem Rings.congr (h : s.Rings) (hlive : s'.live = s.live) (hpublished : s'.published = s.published)
    (hgenerations : s'.generations = s.generations) : s'.Rings := by
  have hcurrent : s'.current = s.current := by
    rw [current, current, hlive, hpublished]
  refine ⟨?_, ?_, ?_, ?_⟩
  · rw [hlive, hgenerations]
    exact h.known
  · rw [hpublished, hgenerations]
    exact h.published
  · rw [hlive, hcurrent]
    exact h.next
  · rw [hlive, hcurrent]
    exact h.events

theorem Rings.step {C : TailConfig} {a : TailAction} (h : s.Rings) (hregular : s.Regular a)
    (hstep : s.step C a = some s') : s'.Rings := by
  cases a with
  | request generation =>
    rw [OutboxTail.step] at hstep
    split at hstep
    · split at hstep <;> cases hstep
      · split
        · exact (h.clearLive hregular).congr rfl rfl rfl
        · exact h.congr rfl rfl rfl
      · exact h.congr rfl rfl rfl
    · cases hstep
  | resume generation =>
    rw [OutboxTail.step] at hstep
    split at hstep <;> cases hstep
    unfold OutboxTail.resume
    split
    · exact (h.clearLive hregular.1).congr rfl rfl rfl
    · exact (h.handleRows _).congr rfl rfl rfl
  | resetCursor generation =>
    rw [OutboxTail.step] at hstep
    split at hstep <;> cases hstep
    exact (h.clearLive hregular).congr rfl rfl rfl
  | transaction | replace =>
    cases hstep
    exact h.congr rfl rfl rfl
  | _ =>
    rw [OutboxTail.step] at hstep
    split at hstep <;> cases hstep
    all_goals exact h.congr rfl rfl rfl

/-- In every run the ring holds the last of the rows that were published in its generation. -/
theorem ring_holds_published {C : TailConfig} {outbox : Outbox} {identity maxEvents : Nat}
    {generation : Text} {as : List TailAction}
    (hregular : Along (step C) Regular (start outbox identity maxEvents generation) as)
    (hrun : run (step C) (start outbox identity maxEvents generation) as = some s) : s.Rings :=
  run_invariant_along (fun _ _ _ h hregular hstep => Rings.step h hregular hstep)
    ⟨List.mem_singleton_self _, fun _ hx => absurd hx List.not_mem_nil, rfl, List.drop_nil.symm⟩
    hregular hrun

/-- Along every run the published rows are the handled ones with an active delivery, no row of a
    database is handled twice or behind a later one, every row behind the cursor has been handled,
    a poll handles whatever is in its page, a replaced database is replayed from its first row
    under a new generation, and the ring holds the last rows published in its generation. -/
theorem outbox_tail_exactly_once {C : TailConfig} {outbox : Outbox} {identity maxEvents : Nat}
    {generation : Text} {as : List TailAction}
    (hregular : Along (step C) Regular (start outbox identity maxEvents generation) as)
    (hrun : run (step C) (start outbox identity maxEvents generation) as = some s) :
    s.published = s.handled.filter (fun h => h.row.active) ∧
      s.handled.Pairwise HandledRow.Before ∧
      (s.tracked = s.database → ∀ e ∈ s.outbox.tables.events, e.id ≤ s.cursor →
        s.database = 0 ∧ e.id ≤ outbox.tables.latestId ∨
          ∃ h ∈ s.handled, h.database = s.database ∧ h.row.event = e) ∧
      (∀ pages generation₁ generation₂, s.phase = .polling pages → pages < C.maxPages →
        s.tracked = s.database →
        ∃ s', run (step C) s [.request generation₁, .read, .resume generation₂] = some s' ∧
          s'.handled = s.handled ++ (s.outbox.tables.page s.cursor C.batchSize).map
            (HandledRow.mk s.tracked s.live.generation)) ∧
      (∀ pages generation', s.phase = .polling pages → pages < C.maxPages →
        s.identity ≠ s.streamIdentity →
        ∃ s', s.step C (.request generation') = some s' ∧ s.Replays generation' s') ∧
      (∀ pages identityBefore rows highWater database generation',
        s.phase = .loaded pages identityBefore rows highWater database →
        s.identity ≠ identityBefore ∨ highWater < s.cursor →
        ∃ s', s.step C (.resume generation') = some s' ∧ s.Replays generation' s') ∧ s.Rings := by
  have hsplit := ((sound_start outbox identity maxEvents generation).run hregular hrun).split
  refine ⟨hsplit.published, hsplit.order, hsplit.behind, ?_, ?_, ?_, ring_holds_published hregular hrun⟩
  · intro pages generation₁ generation₂ hphase hpages htracked
    exact hsplit.pass hphase hpages htracked generation₁ generation₂
  · intro pages generation' hphase hpages hidentity
    exact request_replays hphase hpages hidentity
  · intro pages identityBefore rows highWater database generation' hphase hdetected
    exact resume_replays hphase hdetected

/-! ## A cancelled poll, a lost delivery and a replaced database -/

def tailMessage : MessageRow :=
  { id := "m1".toList
    smtpSessionId := none
    rawPath := "m1.eml".toList
    rawSha256 := []
    rawSizeBytes := 0
    envelopeFrom := none
    receivedAt := 0
    content :=
      { parseStatus := .pending
        parseError := none
        indexedAt := none
        messageIdHeader := none
        subject := none
        fromName := none
        fromAddr := none
        replyTo := none
        dateHeader := none
        hasText := false
        hasHtml := false
        hasAttachments := false
        attachmentCount := 0
        textPreview := none
        textBodyPath := none
        htmlBodyPath := none
        headers := none
        verificationCode := none } }

def tailMailbox : MailboxRow :=
  { id := 1
    domainId := 1
    localPartCanonical := ['a']
    rcptDomainAscii := ['b']
    addressCanonical := "a@b".toList
    addressDisplay := "a@b".toList
    firstSeenAt := 0
    lastSeenAt := 0
    latestMessageAt := none
    messageCount := 0
    publicEnabled := true
    isHidden := false
    notes := none
    bulkDeleteGeneration := 0 }

def tailDelivery (rowid : Nat) (id : Text) : DeliveryRow :=
  { rowid := rowid
    id := id
    messageId := "m1".toList
    mailboxId := 1
    rcptTo := "a@b".toList
    deliveredAt := 0
    status := .active
    deletedAt := none
    expiresAt := none
    notes := none
    mailboxGeneration := 0 }

/-- Two deliveries arrive, and a poll is cancelled behind its page.  The next polls handle one row a
    page, the first without its delivery.  Then another file takes the place of the database. -/
def replacedTailActions : List TailAction :=
  [.transaction [.setMailboxes [tailMailbox], .setMessages [tailMessage],
      .insertDelivery (tailDelivery 1 ['c']), .insertDelivery (tailDelivery 2 ['d'])],
    .poll, .request ['h'], .read, .cancel, .restart,
    .transaction [.updateDeliveries (fun d => d.rowid = 1) fun d => { d with status := .hidden }],
    .poll, .request ['h'], .read, .resume ['h'], .request ['h'], .read, .resume ['h'],
    .request ['h'], .read, .resume ['h'],
    .replace (Outbox.empty.transaction [.setMailboxes [tailMailbox], .setMessages [tailMessage],
      .insertDelivery (tailDelivery 1 ['e'])]) 2,
    .poll, .request ['h'], .read, .resume ['i']]

theorem outbox_tail_exactly_once_replaced :
    ∃ s, run (step ⟨1, 8⟩) (start .empty 1 64 ['g']) replacedTailActions = some s ∧
      s.handled.map (fun h => (h.database, h.generation, h.row.event.id)) =
        [(0, ['g'], 1), (0, ['g'], 2), (1, ['h'], 1)] ∧
      s.published.map (fun h => (h.database, h.row.event.id)) = [(0, 2), (1, 1)] ∧
      s.published = s.handled.filter (fun h => h.row.active) ∧
      s.handled.Pairwise HandledRow.Before := by
  have hregular : Along (step ⟨1, 8⟩) Regular (start .empty 1 64 ['g']) replacedTailActions := by
    decide +kernel
  have hrun : (run (step ⟨1, 8⟩) (start .empty 1 64 ['g']) replacedTailActions).map
      (fun s => (s.handled.map fun h => (h.database, h.generation, h.row.event.id),
        s.published.map fun h => (h.database, h.row.event.id))) =
      some ([(0, ['g'], 1), (0, ['g'], 2), (1, ['h'], 1)], [(0, 2), (1, 1)]) := by decide +kernel
  obtain ⟨s, hs, hstate⟩ := Option.map_eq_some_iff.mp hrun
  obtain ⟨hhandled, hpublished⟩ := Prod.mk.inj hstate
  obtain ⟨hfilter, horder, -⟩ := outbox_tail_exactly_once hregular hs
  exact ⟨s, hs, hhandled, hpublished, hfilter, horder⟩

end OutboxTail
end RapidInbox
