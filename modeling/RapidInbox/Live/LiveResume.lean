import RapidInbox.Live.LiveRuns

/-!
# A client that resumes

What a client has received over all its connections: no event twice, no event out of order, and
none left out without a gap in its place.
-/

namespace RapidInbox

open Transition

namespace LiveLog

/-- The position a record leads to; a record of the history has none. -/
def position? (log : LiveLog) (r : LiveRecord) : Option Position :=
  match parseLiveCursor r.cursorText with
  | some (generation, .ofNat seq) => some ⟨log.generations.idxOf generation, seq⟩
  | _ => none

/-- A gap stands where a position is missing: what comes before it in the stream is before the
    position, and the gap leads from before the position past it. -/
def MissesAt (log : LiveLog) (rs : List LiveRecord) (x : Position) : Prop :=
  ∃ before gap after, ∃ p q : Position, rs = before ++ .gap gap :: after ∧
    (∀ y ∈ before.filterMap log.position?, y.Lt x) ∧
    log.generations[p.epoch]? = some gap.previousGeneration ∧ gap.previousSeq = p.seq ∧ p.Lt x ∧
    log.position? (.gap gap) = some q ∧ ¬q.Lt x

/-- The payload of an event, under the cursor of the event. -/
def DeliveredIn (log : LiveLog) (rs : List LiveRecord) (payload : LiveDict) (x : Position) : Prop :=
  ∃ cursor, log.cursor? x = some cursor ∧ .payload payload cursor ∈ rs

variable {log : LiveLog} {p q x : Position} {r : LiveRecord} {rs : List LiveRecord}

/-- The generations have names, all different. -/
structure Named (log : LiveLog) : Prop where
  named : ∀ g ∈ log.generations, g ≠ []
  distinct : log.generations.Nodup

theorem Named.position?_eq (h : log.Named) (hcursor : log.cursor? q = some r.cursorText) :
    log.position? r = some q := by
  obtain ⟨generation, hget, htext⟩ := Option.map_eq_some_iff.mp hcursor
  obtain ⟨hlt, rfl⟩ := List.getElem?_eq_some_iff.mp hget
  rw [position?, ← htext, parseLiveCursor_formatCursor (h.named _ (List.getElem_mem hlt))]
  change some (⟨_, _⟩ : Position) = _
  rw [h.distinct.idxOf_getElem]

/-- A record leads forward, or it is from the history. -/
theorem Carries.position (h : log.Carries r p q) (hnamed : log.Named) :
    log.position? r = some q ∧ p.Lt q ∨ log.position? r = none ∧ p = q := by
  cases h with
  | payload _ _ hlt _ hcursor => exact .inl ⟨hnamed.position?_eq hcursor, .inr ⟨rfl, hlt⟩⟩
  | cursor _ hlt _ hcursor => exact .inl ⟨hnamed.position?_eq hcursor, .inr ⟨rfl, hlt⟩⟩
  | history hgeneration =>
    refine .inr ⟨?_, rfl⟩
    rw [position?, LiveRecord.cursorText,
      parseLiveCursor_formatCursor (hnamed.named _ (List.mem_of_getElem? hgeneration))]
  | gap hreason _ _ _ _ hcursor =>
    refine .inl ⟨hnamed.position?_eq hcursor, ?_⟩
    rcases hreason with ⟨-, hlt⟩ | ⟨-, hsame, hlt⟩
    · exact .inl hlt
    · exact .inr ⟨hsame, hlt⟩

/-- The positions of a client ascend from where it began. -/
theorem Delivers.ascending (h : log.Delivers p rs q) (hnamed : log.Named) :
    (rs.filterMap log.position?).Pairwise Position.Lt ∧
      (∀ y ∈ rs.filterMap log.position?, p.Lt y) ∧
      ((rs.filterMap log.position?).getLast?).getD p = q := by
  induction h with
  | nil => exact ⟨.nil, fun _ hy => absurd hy List.not_mem_nil, rfl⟩
  | cons hr _ ih =>
    obtain ⟨hsorted, hafter, hlast⟩ := ih
    rcases hr.position hnamed with ⟨hposition, hlt⟩ | ⟨hposition, rfl⟩
    · rw [List.filterMap_cons_some hposition]
      refine ⟨List.pairwise_cons.mpr ⟨hafter, hsorted⟩, ?_, ?_⟩
      · intro y hy
        rcases List.mem_cons.mp hy with rfl | hy
        · exact hlt
        · exact hlt.trans (hafter y hy)
      · rw [List.getLast?_cons]
        exact hlast
    · rw [List.filterMap_cons_none hposition]
      exact ⟨hsorted, hafter, hlast⟩

theorem Follows.ascending (h : log.Follows p rs q) (hnamed : log.Named) :
    (rs.filterMap log.position?).Pairwise Position.Lt ∧
      ((rs.filterMap log.position?).getLast?).getD p = q := by
  rcases h with h | ⟨gap, rest, m, rfl, hahead, hrest⟩
  · exact ⟨(h.ascending hnamed).1, (h.ascending hnamed).2.2⟩
  · obtain ⟨hsorted, hafter, hlast⟩ := hrest.ascending hnamed
    have hposition : log.position? (.gap gap) = some m := hnamed.position?_eq hahead.cursor
    rw [List.filterMap_cons_some hposition]
    refine ⟨List.pairwise_cons.mpr ⟨hafter, hsorted⟩, ?_⟩
    rw [List.getLast?_cons]
    exact hlast

/-- A payload is that of the event at its position. -/
def Genuine (log : LiveLog) (rs : List LiveRecord) : Prop :=
  ∀ payload cursor y, .payload payload cursor ∈ rs → log.position? (.payload payload cursor) = some y →
    ∃ e, (y.epoch, e) ∈ log.events ∧ e.seq = y.seq ∧ normalizeSmtpLiveEvent e = some payload

theorem Delivers.genuine (h : log.Delivers p rs q) (hnamed : log.Named) : log.Genuine rs := by
  induction h with
  | nil =>
    intro _ _ _ hmem
    exact absurd hmem List.not_mem_nil
  | cons hr _ ih =>
    intro payload cursor y hmem hy
    rcases List.mem_cons.mp hmem with rfl | hmem
    · cases hr with
      | payload he hpayload _ _ hcursor =>
        rw [hnamed.position?_eq hcursor] at hy
        cases hy
        exact ⟨_, he, rfl, hpayload⟩
      | history hgeneration =>
        rw [position?, LiveRecord.cursorText,
          parseLiveCursor_formatCursor (hnamed.named _ (List.mem_of_getElem? hgeneration))] at hy
        cases hy
    · exact ih payload cursor y hmem hy

theorem Follows.genuine (h : log.Follows p rs q) (hnamed : log.Named) : log.Genuine rs := by
  rcases h with h | ⟨gap, rest, m, rfl, -, hrest⟩
  · exact h.genuine hnamed
  · intro payload cursor y hmem hy
    rcases List.mem_cons.mp hmem with heq | hmem
    · cases heq
    · exact hrest.genuine hnamed payload cursor y hmem hy

theorem MissesAt.cons (h : log.MissesAt rs x) (hr : ∀ y, log.position? r = some y → y.Lt x) :
    log.MissesAt (r :: rs) x := by
  obtain ⟨before, gap, after, p, q, rfl, hbefore, hrest⟩ := h
  refine ⟨r :: before, gap, after, p, q, rfl, ?_, hrest⟩
  intro y hy
  obtain ⟨r', hr', hy'⟩ := List.mem_filterMap.mp hy
  rcases List.mem_cons.mp hr' with rfl | hr'
  · exact hr y hy'
  · exact hbefore y (List.mem_filterMap.mpr ⟨r', hr', hy'⟩)

/-- A streamed event between two positions is delivered, or a gap stands in its place. -/
theorem Delivers.complete (h : log.Delivers p rs q) (hnamed : log.Named) (hunique : log.Unique)
    {epoch : Nat} {e : LiveEvent} {payload : LiveDict} (he : (epoch, e) ∈ log.events)
    (hpayload : normalizeSmtpLiveEvent e = some payload) (hlow : p.Lt ⟨epoch, e.seq⟩)
    (hhigh : ¬q.Lt ⟨epoch, e.seq⟩) :
    log.DeliveredIn rs payload ⟨epoch, e.seq⟩ ∨ log.MissesAt rs ⟨epoch, e.seq⟩ := by
  induction h with
  | nil => exact absurd hlow hhigh
  | @cons r rs p m q hr hrest ih =>
    by_cases hpast : m.Lt ⟨epoch, e.seq⟩
    · rcases ih hpast hhigh with ⟨cursor, hcursor, hmem⟩ | hmiss
      · exact .inl ⟨cursor, hcursor, List.mem_cons_of_mem _ hmem⟩
      · refine .inr (hmiss.cons ?_)
        intro y hy
        rcases hr.position hnamed with ⟨hposition, -⟩ | ⟨hposition, -⟩
        · rw [hposition] at hy
          cases hy
          exact hpast
        · rw [hposition] at hy
          cases hy
    · -- the record leads past the event
      cases hr with
      | @payload e' _ cursor epoch' seq he' hpayload' hlt hquiet hcursor =>
        have hsame : epoch = epoch' ∧ seq < e.seq ∧ e.seq ≤ e'.seq := by
          unfold Position.Lt at hlow hpast
          dsimp only at hlow hpast
          omega
        obtain ⟨rfl, hafter, hle⟩ := hsame
        have hseq : e.seq = e'.seq := by
          by_contra hne
          have hskipped := hquiet e he hafter (by omega)
          rw [hpayload] at hskipped
          cases hskipped
        obtain rfl := hunique _ _ _ he he' hseq
        rw [hpayload] at hpayload'
        cases hpayload'
        exact .inl ⟨cursor, hcursor, List.mem_cons_self⟩
      | @cursor e' _ epoch' seq he' hlt hquiet hcursor =>
        have hsame : epoch = epoch' ∧ seq < e.seq ∧ e.seq ≤ e'.seq := by
          unfold Position.Lt at hlow hpast
          dsimp only at hlow hpast
          omega
        obtain ⟨rfl, hafter, hle⟩ := hsame
        have hskipped := hquiet e he hafter hle
        rw [hpayload] at hskipped
        cases hskipped
      | history _ => exact absurd hlow hpast
      | @gap gap _ _ hreason hprevious hseq _ _ hcursor =>
        exact .inr ⟨[], gap, rs, p, m, rfl, fun _ hy => absurd hy List.not_mem_nil, hprevious, hseq,
          hlow, hnamed.position?_eq hcursor, hpast⟩

theorem Follows.complete (h : log.Follows p rs q) (hnamed : log.Named) (hunique : log.Unique)
    {epoch : Nat} {e : LiveEvent} {payload : LiveDict} (he : (epoch, e) ∈ log.events)
    (hpayload : normalizeSmtpLiveEvent e = some payload) (hlow : p.Lt ⟨epoch, e.seq⟩)
    (hhigh : ¬q.Lt ⟨epoch, e.seq⟩) :
    log.DeliveredIn rs payload ⟨epoch, e.seq⟩ ∨ log.MissesAt rs ⟨epoch, e.seq⟩ := by
  rcases h with h | ⟨gap, rest, m, rfl, hahead, hrest⟩
  · exact h.complete hnamed hunique he hpayload hlow hhigh
  · have hback : m.Lt p := .inr ⟨hahead.epoch, hahead.lt⟩
    rcases hrest.complete hnamed hunique he hpayload (hback.trans hlow) hhigh with
      ⟨cursor, hcursor, hmem⟩ | hmiss
    · exact .inl ⟨cursor, hcursor, List.mem_cons_of_mem _ hmem⟩
    · refine .inr (hmiss.cons ?_)
      intro y hy
      have hposition : log.position? (.gap gap) = some m := hnamed.position?_eq hahead.cursor
      rw [hposition] at hy
      cases hy
      exact hback.trans hlow

end LiveLog

namespace LiveFeed

/-- How far the client has come. -/
def served (s : LiveFeed) : Position :=
  ((s.received.filterMap s.log.position?).getLast?).getD s.origin

/-- The generator waits for the next event, and nothing is on its way. -/
def CaughtUp (s : LiveFeed) : Prop :=
  ∃ lastSeq, s.phase = some (.streaming [] s.live.generation lastSeq) ∧ s.sent = [] ∧
    lastSeq = s.live.latestSeq

variable {s s' : LiveFeed}

theorem Sound.named (h : Sound s) : s.log.Named := ⟨h.ring.named, h.ring.distinct⟩

theorem Sound.follows_served (h : Sound s) : s.log.Follows s.origin s.received s.served := by
  obtain ⟨p, hp⟩ := h.follows
  rw [served, (hp.ascending h.named).2]
  exact hp

theorem Sound.caughtUp (h : Sound s) (hcaught : s.CaughtUp) {epoch : Nat} {e : LiveEvent}
    (he : (epoch, e) ∈ s.log.events) : ¬s.served.Lt ⟨epoch, e.seq⟩ := by
  obtain ⟨lastSeq, hphase, hsent, hlatest⟩ := hcaught
  have hsound := h.phase
  rw [hphase] at hsound
  cases hsound with
  | @streaming _ _ current _ hgeneration hfollows =>
    rw [hsent, List.append_nil, List.append_nil] at hfollows
    have hserved : s.served = ⟨current, lastSeq⟩ := by
      rw [served, (hfollows.ascending h.named).2]
    have hcurrent := h.ring.epoch_eq hgeneration
    have hepoch := h.ring.epochs epoch e he
    rw [hserved, Position.Lt]
    dsimp only
    rw [LiveState.latestSeq] at hlatest
    rintro (hlt | ⟨rfl, hlt⟩)
    · omega
    · rw [hcurrent] at he
      have := (h.ring.seqs e he).2
      omega

/-! ## What is on its way arrives -/

theorem mem_afterWindow {w : StreamWindow} {generation : Text} {n : Nat} {e : LiveEvent}
    {payload : LiveDict} (he : e ∈ w.events) (hpayload : normalizeSmtpLiveEvent e = some payload) :
    .payload payload (formatCursor generation e.seq) ∈ (afterWindow w generation n).1 := by
  have hstreamed : (e, payload) ∈ streamedEvents w.events :=
    List.mem_filterMap.mpr ⟨e, he, by rw [hpayload]; rfl⟩
  unfold afterWindow
  cases hlast : w.events.getLast? with
  | none =>
    rw [List.getLast?_eq_none_iff.mp hlast] at he
    exact absurd he List.not_mem_nil
  | some last => exact List.mem_append_left _ (List.mem_map_of_mem hstreamed)

/-- A turn of the loop without a gap puts every streamed event behind the generator on its way. -/
theorem Sound.poll_pending (h : Sound s) {generation : Text} {lastSeq : Nat}
    (hgap : s.live.gapReason generation lastSeq = none) :
    ∃ pending, (s.poll generation lastSeq).phase =
        some (.streaming pending generation s.live.latestSeq) ∧
      ∀ e payload, (s.epoch, e) ∈ s.log.events → normalizeSmtpLiveEvent e = some payload →
        lastSeq < e.seq → .payload payload (formatCursor generation e.seq) ∈ pending := by
  obtain ⟨dropped, hnumbered⟩ := h.ring.numbered
  obtain ⟨records, hpoll⟩ := poll_phase hnumbered generation lastSeq
  rcases hnumbered.gapReason_cases generation lastSeq with
    ⟨-, rfl, hlow, -⟩ | ⟨hsome, -⟩ | ⟨hsome, -⟩ | ⟨hsome, -⟩
  · refine ⟨records, by rw [hpoll], fun e payload he hpayload hlt => ?_⟩
    have hrecords := congrArg LiveFeed.phase ((poll_nogap hgap).symm.trans hpoll)
    simp only [Option.some.injEq, StreamPhase.streaming.injEq] at hrecords
    rw [← hrecords.1]
    obtain ⟨e', he', hseq⟩ := hnumbered.exists_seq (by omega) (h.ring.seqs e he).2
    obtain rfl : e' = e := h.ring.unique _ _ _ (h.ring.ring e' he') he hseq
    refine mem_afterWindow ?_ hpayload
    rw [hnumbered.window_events hgap]
    exact List.mem_filter.mpr ⟨he', decide_eq_true hlt⟩
  all_goals
    rw [hgap] at hsome
    cases hsome

/-- By steps of its own the connection brings the client all that is on its way. -/
def Drains (s : LiveFeed) (generation : Text) (lastSeq : Nat) : Prop :=
  ∃ as s', (∀ a ∈ as, a = .yieldRecord ∨ a = .receive) ∧ Transition.run step s as = some s' ∧
    s'.phase = some (.streaming [] generation lastSeq) ∧ s'.sent = [] ∧ s'.live = s.live ∧
    s'.log = s.log

theorem Drains.cons {generation : Text} {lastSeq : Nat} (h : s'.Drains generation lastSeq)
    {a : LiveAction} (ha : a = .yieldRecord ∨ a = .receive) (hstep : s.step a = some s')
    (hlive : s'.live = s.live) (hlog : s'.log = s.log) : s.Drains generation lastSeq := by
  obtain ⟨as, s₁, has, hrun, hphase, hsent, hlive', hlog'⟩ := h
  refine ⟨a :: as, s₁, List.forall_mem_cons.mpr ⟨ha, has⟩, ?_, hphase, hsent, hlive'.trans hlive,
    hlog'.trans hlog⟩
  rw [Transition.run, hstep]
  exact hrun

theorem drains {pending : List LiveRecord} {generation : Text} {lastSeq : Nat}
    (hphase : s.phase = some (.streaming pending generation lastSeq)) :
    s.Drains generation lastSeq := by
  induction pending generalizing s with
  | cons record pending ih =>
    refine (ih (s := { s with
      phase := some (.streaming pending generation lastSeq), sent := s.sent ++ [record] })
      rfl).cons (.inl rfl) ?_ rfl rfl
    rw [step, hphase]
  | nil =>
    generalize hsent : s.sent = sent
    induction sent generalizing s with
    | nil => exact ⟨[], s, by simp, rfl, hphase, hsent, rfl, rfl⟩
    | cons record sent ih =>
      refine (ih (s := { s with
        sent, received := s.received ++ [record], cursor := some record.cursorText })
        hphase rfl).cons (.inr rfl) ?_ rfl rfl
      rw [step, hsent]

/-- With one turn of the loop the client catches up. -/
theorem Sound.catchesUp (h : Sound s) {pending : List LiveRecord} {generation : Text} {lastSeq : Nat}
    (hphase : s.phase = some (.streaming pending generation lastSeq)) :
    ∃ before after s', (∀ a ∈ before ++ after, a = .yieldRecord ∨ a = .receive) ∧
      Transition.run LiveFeed.step s (before ++ .poll :: after) = some s' ∧ s'.CaughtUp ∧ s'.log = s.log := by
  obtain ⟨dropped, hnumbered⟩ := h.ring.numbered
  obtain ⟨before, s₁, hbefore, hrun, hphase₁, -, hlive₁, hlog₁⟩ := drains hphase
  obtain ⟨records, hpoll⟩ := poll_phase (hlive₁ ▸ hnumbered) generation lastSeq
  have hstep : s₁.step .poll = some (s₁.poll generation lastSeq) := by rw [LiveFeed.step, hphase₁]
  obtain ⟨after, s', hafter, hrun', hphase', hsent, hlive, hlog⟩ :=
    drains (congrArg LiveFeed.phase hpoll)
  rw [hpoll] at hlive hlog
  refine ⟨before, after, s', fun a ha => (List.mem_append.mp ha).elim (hbefore a) (hafter a), ?_,
    ⟨s₁.live.latestSeq, by rw [hphase', hlive], hsent, by rw [hlive]⟩, hlog.trans hlog₁⟩
  rw [Transition.run_append, hrun, Option.bind_some, Transition.run, hstep]
  exact hrun'

/-- A client that keeps coming back with its last cursor, in any interleaving of its connections with
    what is published and cleared: positions ascend, so that no event comes twice or out of order;
    every payload is that of the event it names; a streamed event behind the start that the client
    has come past was delivered or a gap stands in its place, and a client that has caught up has
    come past every event; and a window that does not continue the last one begins with its gap. -/
theorem live_stream_exactly_once {maxEvents : Nat} {generation : Text} {cursor : Option Text}
    {as : List LiveAction} (hne : generation ≠ [])
    (hregular : Along step Regular (start maxEvents generation cursor) as)
    (hrun : Transition.run step (start maxEvents generation cursor) as = some s) :
    (s.received.filterMap s.log.position?).Pairwise Position.Lt ∧
      s.log.Genuine s.received ∧
      (∀ epoch e payload, (epoch, e) ∈ s.log.events → normalizeSmtpLiveEvent e = some payload →
        s.origin.Lt ⟨epoch, e.seq⟩ →
        s.served.Lt ⟨epoch, e.seq⟩ ∨ s.log.DeliveredIn s.received payload ⟨epoch, e.seq⟩ ∨
          s.log.MissesAt s.received ⟨epoch, e.seq⟩) ∧
      (s.CaughtUp → ∀ epoch e, (epoch, e) ∈ s.log.events → ¬s.served.Lt ⟨epoch, e.seq⟩) ∧
      (∀ generation lastSeq reason s', s.phase = some (.streaming [] generation lastSeq) →
        s.live.gapReason generation lastSeq = some reason → s.step .poll = some s' →
        ∃ gap rest current seq, s'.phase = some (.streaming (.gap gap :: rest) current seq) ∧
          gap.reason = reason ∧ gap.previousGeneration = generation ∧ gap.previousSeq = lastSeq) ∧
      (∀ generation lastSeq s', s.phase = some (.streaming [] generation lastSeq) →
        s.live.gapReason generation lastSeq = none → s.step .poll = some s' →
        ∃ pending, s'.phase = some (.streaming pending generation s.live.latestSeq) ∧
          ∀ e payload, (s.epoch, e) ∈ s.log.events → normalizeSmtpLiveEvent e = some payload →
            lastSeq < e.seq → .payload payload (formatCursor generation e.seq) ∈ pending) ∧
      ∀ pending generation lastSeq, s.phase = some (.streaming pending generation lastSeq) →
        ∃ before after s', (∀ a ∈ before ++ after, a = .yieldRecord ∨ a = .receive) ∧
          Transition.run step s (before ++ .poll :: after) = some s' ∧ s'.CaughtUp ∧
          s'.log = s.log := by
  have hsound : Sound s := (sound_start maxEvents hne cursor).run hregular hrun
  have hfollows := hsound.follows_served
  refine ⟨(hfollows.ascending hsound.named).1, hfollows.genuine hsound.named, ?_,
    fun hcaught _ _ he => hsound.caughtUp hcaught he, ?_, ?_, fun _ _ _ => hsound.catchesUp⟩
  · intro epoch e payload he hpayload horigin
    by_cases hahead : s.served.Lt ⟨epoch, e.seq⟩
    · exact .inl hahead
    · exact .inr (hfollows.complete hsound.named hsound.ring.unique he hpayload horigin hahead)
  · intro generation lastSeq reason s' hphase hgap hstep
    rw [LiveFeed.step, hphase] at hstep
    cases hstep
    rw [poll_gap hgap]
    exact ⟨_, _, _, _, rfl, rfl, rfl, rfl⟩
  · intro generation lastSeq s' hphase hgap hstep
    rw [LiveFeed.step, hphase] at hstep
    cases hstep
    exact hsound.poll_pending hgap

/-! ## A ring that overruns while the client is away -/

/-- An event of the given type. -/
def typedEvent (eventType : String) : LiveDict := [("type".toList, .text eventType.toList)]

/-- A ring of two events.  The client sees the first event, leaves, comes back after three more and
    gets the gap; then one that is not streamed and one that is are published, and the next window
    has them. -/
def overrunActions : List LiveAction :=
  [.publish (typedEvent "connect"), .connect, .begin, .snapshot, .yieldRecord, .receive, .disconnect,
    .publish (typedEvent "queued"), .publish (typedEvent "mailbox_delivery_updated"),
    .publish (typedEvent "disconnect"), .connect, .begin, .poll, .yieldRecord, .receive, .yieldRecord,
    .receive, .publish (typedEvent "mailbox_delivery_updated"), .publish (typedEvent "error")]

theorem live_stream_exactly_once_overrun :
    ∃ s s' s'' pending before after,
      Transition.run step (start 2 ['g'] none) overrunActions = some s ∧
      s.received.length = 3 ∧ s.step .poll = some s' ∧
      s'.phase = some (.streaming pending ['g'] 6) ∧
      .payload (typedEvent "error" ++ [("seq".toList, .int 6)]) "g:6".toList ∈ pending ∧
      Transition.run step s (before ++ .poll :: after) = some s'' ∧ s''.CaughtUp ∧
      (s.received.filterMap s.log.position?).Pairwise Position.Lt ∧
      ∀ epoch e payload, (epoch, e) ∈ s.log.events → normalizeSmtpLiveEvent e = some payload →
        s.origin.Lt ⟨epoch, e.seq⟩ →
        s.served.Lt ⟨epoch, e.seq⟩ ∨ s.log.DeliveredIn s.received payload ⟨epoch, e.seq⟩ ∨
          s.log.MissesAt s.received ⟨epoch, e.seq⟩ := by
  have hregular : Along step Regular (start 2 ['g'] none) overrunActions := by decide +kernel
  have hrun : (Transition.run step (start 2 ['g'] none) overrunActions).map (fun s =>
      (s.received.length, s.phase, s.live.gapReason ['g'] 4, s.live.latestSeq,
        decide ((s.epoch, ⟨typedEvent "error", 6⟩) ∈ s.log.events))) =
      some (3, some (.streaming [] ['g'] 4), none, 6, true) := by decide +kernel
  obtain ⟨s, hs, hstate⟩ := Option.map_eq_some_iff.mp hrun
  simp only [Prod.mk.injEq, decide_eq_true_eq] at hstate
  obtain ⟨hlength, hphase, hgap, hlatest, herror⟩ := hstate
  obtain ⟨hascending, -, hcomplete, -, -, hwindow, hcatch⟩ :=
    live_stream_exactly_once (by decide) hregular hs
  have hstep : s.step .poll = some (s.poll ['g'] 4) := by rw [step, hphase]
  obtain ⟨pending, hpending, hall⟩ := hwindow _ _ _ hphase hgap hstep
  obtain ⟨before, after, s'', -, hrun'', hcaught, -⟩ := hcatch _ _ _ hphase
  exact ⟨s, _, s'', pending, before, after, hs, hlength, hstep, hlatest ▸ hpending,
    hall _ _ herror rfl (by decide : 4 < 6), hrun'', hcaught, hascending, hcomplete⟩

end LiveFeed
end RapidInbox
