import Mathlib.Data.List.Nodup
import RapidInbox.Live.LiveDelivery

/-!
# Runs of the live stream

The ring holds the end of what has been published, and the client and its generator are at positions
that the records between them connect.
-/

namespace RapidInbox

open Transition

/-! ## The ring and the log -/

/-- The ring holds the last events of the current generation. -/
structure RingLogged (live : LiveState) (log : LiveLog) : Prop where
  numbered : ∃ dropped, live.Numbered dropped
  current : log.generations[log.generations.length - 1]? = some live.generation
  distinct : log.generations.Nodup
  named : ∀ g ∈ log.generations, g ≠ []
  epochs : ∀ epoch e, (epoch, e) ∈ log.events → epoch < log.generations.length
  ring : ∀ e ∈ live.events, (log.generations.length - 1, e) ∈ log.events
  reached : ∀ n, n < live.nextSeq → log.Reached ⟨log.generations.length - 1, n⟩
  seqs : ∀ e, (log.generations.length - 1, e) ∈ log.events → 0 < e.seq ∧ e.seq < live.nextSeq
  unique : log.Unique

namespace RingLogged

variable {live : LiveState} {log : LiveLog}

theorem init (maxEvents : Nat) {generation : Text} (hne : generation ≠ []) :
    RingLogged (.init maxEvents generation) ⟨[generation], []⟩ where
  numbered := ⟨0, LiveState.numbered_init maxEvents generation⟩
  current := rfl
  distinct := List.nodup_singleton _
  named := by simpa using hne
  epochs _ _ he := absurd he List.not_mem_nil
  ring _ he := absurd he List.not_mem_nil
  reached n hn := .inl (Nat.lt_one_iff.mp hn)
  seqs _ he := absurd he List.not_mem_nil
  unique _ _ _ he := absurd he List.not_mem_nil

theorem length_pos (h : RingLogged live log) : 0 < log.generations.length := by
  obtain ⟨hlt, -⟩ := List.getElem?_eq_some_iff.mp h.current
  omega

/-- The epoch of a generation is its only place. -/
theorem epoch_eq (h : RingLogged live log) {epoch : Nat}
    (hget : log.generations[epoch]? = some live.generation) :
    epoch = log.generations.length - 1 := by
  obtain ⟨hlt, hat⟩ := List.getElem?_eq_some_iff.mp hget
  obtain ⟨hlt', hat'⟩ := List.getElem?_eq_some_iff.mp h.current
  exact (List.Nodup.getElem_inj_iff h.distinct).mp (hat.trans hat'.symm)

theorem grows_publish (h : RingLogged live log) (entries : LiveDict) :
    log.Grows { log with
      events := log.events ++ [(log.generations.length - 1, ⟨entries, live.nextSeq⟩)] } where
  generations := List.prefix_rfl
  kept e he := List.mem_append_left _ he
  behind epoch e e' he he' hle := by
    rcases List.mem_append.mp he' with he' | he'
    · exact he'
    · obtain ⟨rfl, rfl⟩ := Prod.mk.inj (List.mem_singleton.mp he')
      have := (h.seqs e he).2
      dsimp only at hle
      omega

theorem publish (h : RingLogged live log) (entries : LiveDict) :
    RingLogged (live.publish entries)
      { log with
        events := log.events ++ [(log.generations.length - 1, ⟨entries, live.nextSeq⟩)] } where
  numbered := by
    obtain ⟨dropped, hnumbered⟩ := h.numbered
    exact hnumbered.publish entries
  current := h.current
  distinct := h.distinct
  named := h.named
  epochs epoch e he := by
    rcases List.mem_append.mp he with he | he
    · exact h.epochs epoch e he
    · obtain ⟨rfl, -⟩ := Prod.mk.inj (List.mem_singleton.mp he)
      have := h.length_pos
      dsimp only
      omega
  ring e he := by
    rcases List.mem_append.mp (List.mem_of_mem_drop he) with he | he
    · exact List.mem_append_left _ (h.ring e he)
    · rw [List.mem_singleton.mp he]
      exact List.mem_append_right _ (List.mem_singleton.mpr rfl)
  reached n hn := by
    by_cases hlast : n = live.nextSeq
    · exact .inr ⟨⟨entries, live.nextSeq⟩,
        List.mem_append_right _ (List.mem_singleton.mpr rfl), hlast.symm⟩
    · have hlt : n < live.nextSeq + 1 := hn
      exact (h.grows_publish entries).reached (h.reached n (by omega))
  seqs e he := by
    change 0 < e.seq ∧ e.seq < live.nextSeq + 1
    rcases List.mem_append.mp he with he | he
    · have := h.seqs e he
      omega
    · obtain ⟨-, rfl⟩ := Prod.mk.inj (List.mem_singleton.mp he)
      obtain ⟨dropped, hnumbered⟩ := h.numbered
      have := hnumbered.next
      dsimp only
      omega
  unique epoch e e' he he' hseq := by
    rcases List.mem_append.mp he with hold | hnew <;> rcases List.mem_append.mp he' with hold' | hnew'
    · exact h.unique epoch e e' hold hold' hseq
    · obtain ⟨rfl, rfl⟩ := Prod.mk.inj (List.mem_singleton.mp hnew')
      have := (h.seqs e hold).2
      dsimp only at hseq
      omega
    · obtain ⟨rfl, rfl⟩ := Prod.mk.inj (List.mem_singleton.mp hnew)
      have := (h.seqs e' hold').2
      dsimp only at hseq
      omega
    · rw [(Prod.mk.inj (List.mem_singleton.mp hnew)).2, (Prod.mk.inj (List.mem_singleton.mp hnew')).2]

theorem grows_clear (log : LiveLog) (generation : Text) :
    log.Grows { log with generations := log.generations ++ [generation] } where
  generations := List.prefix_append _ _
  kept _ he := he
  behind _ _ _ _ he' _ := he'

theorem clear (h : RingLogged live log) {generation : Text} (hne : generation ≠ [])
    (hnew : generation ∉ log.generations) :
    RingLogged (live.clear generation)
      { log with generations := log.generations ++ [generation] } := by
  have hlength : (log.generations ++ [generation]).length - 1 = log.generations.length := by
    rw [List.length_append, List.length_singleton]
    omega
  have hnone (e : LiveEvent) : (log.generations.length, e) ∉ log.events := by
    intro he
    exact absurd (h.epochs _ e he) (Nat.lt_irrefl _)
  exact {
    numbered := ⟨0, LiveState.numbered_clear generation⟩
    current := by
      dsimp only
      rw [hlength, List.getElem?_append_right (Nat.le_refl _), Nat.sub_self]
      rfl
    distinct := by
      rw [List.nodup_append]
      refine ⟨h.distinct, List.nodup_singleton _, ?_⟩
      rintro g hg g' hg' rfl
      exact hnew (List.mem_singleton.mp hg' ▸ hg)
    named := by
      intro g hg
      rcases List.mem_append.mp hg with hg | hg
      · exact h.named g hg
      · rw [List.mem_singleton.mp hg]
        exact hne
    epochs := by
      intro epoch e he
      have := h.epochs epoch e he
      rw [List.length_append]
      omega
    ring := fun _ he => absurd he List.not_mem_nil
    reached := fun n hn => .inl (Nat.lt_one_iff.mp hn)
    seqs := by
      intro e he
      dsimp only at he
      rw [hlength] at he
      exact absurd he (hnone e)
    unique := h.unique }

/-- The records of the window behind a number that the ring still reaches. -/
theorem afterWindow_delivers (h : RingLogged live log) {events : List LiveEvent} {n : Nat}
    (hseqs : events.map LiveEvent.seq = List.range' (n + 1) events.length)
    (hring : ∀ e ∈ events, e ∈ live.events) {w : StreamWindow} (hw : w.events = events) :
    log.Delivers ⟨log.generations.length - 1, n⟩
      (LiveFeed.afterWindow w live.generation n).1
      ⟨log.generations.length - 1, (LiveFeed.afterWindow w live.generation n).2⟩ := by
  subst hw
  unfold LiveFeed.afterWindow
  split
  · exact .nil
  · rename_i last hlast
    exact LiveLog.windowRecords_delivers h.unique h.current hseqs (fun e he => h.ring e (hring e he)) hlast

end RingLogged

/-! ## The client and its generator -/

namespace LiveFeed

/-- Where the generator is, with what is on its way, continues what the client has received. -/
inductive PhaseSound (s : LiveFeed) : Option StreamPhase → Prop
  | idle (hsent : s.sent = []) : PhaseSound s none
  | called (hsent : s.sent = []) : PhaseSound s (some (.called s.cursor))
  | replaying {generation : Text} (hsent : s.sent = []) (hnew : s.received = [])
      (hknown : generation ∈ s.log.generations) : PhaseSound s (some (.replaying generation))
  | loadingHistory {generation : Text} (hsent : s.sent = []) (hnew : s.received = [])
      (hknown : generation ∈ s.log.generations) : PhaseSound s (some (.loadingHistory generation))
  | streaming {pending : List LiveRecord} {generation : Text} {epoch lastSeq : Nat}
      (hgeneration : s.log.generations[epoch]? = some generation)
      (hfollows : s.log.Follows s.origin (s.received ++ s.sent ++ pending) ⟨epoch, lastSeq⟩) :
      PhaseSound s (some (.streaming pending generation lastSeq))

structure Sound (s : LiveFeed) : Prop where
  ring : RingLogged s.live s.log
  phase : s.PhaseSound s.phase
  follows : ∃ p, s.log.Follows s.origin s.received p
  cursor : ∀ r, s.received.getLast? = some r → s.cursor = some r.cursorText

variable {s s' : LiveFeed}

/-- More is published; the connection is where it was. -/
theorem PhaseSound.grows {phase : Option StreamPhase} (h : s.PhaseSound phase) {live : LiveState}
    {log : LiveLog} (hgrows : s.log.Grows log) :
    PhaseSound { s with live := live, log := log } phase := by
  cases h with
  | idle hsent => exact .idle hsent
  | called hsent => exact .called hsent
  | replaying hsent hnew hknown => exact .replaying hsent hnew (hgrows.generations.subset hknown)
  | loadingHistory hsent hnew hknown =>
    exact .loadingHistory hsent hnew (hgrows.generations.subset hknown)
  | streaming hgeneration hfollows =>
    exact .streaming (hgrows.getElem? hgeneration) (hfollows.grows hgrows)

theorem Sound.grows (h : Sound s) {live : LiveState} {log : LiveLog} (hring : RingLogged live log)
    (hgrows : s.log.Grows log) : Sound { s with live := live, log := log } where
  ring := hring
  phase := h.phase.grows hgrows
  follows := by
    obtain ⟨p, hp⟩ := h.follows
    exact ⟨p, hp.grows hgrows⟩
  cursor := h.cursor

/-- A generator starts to stream for a client that has received nothing. -/
theorem Sound.stream_first (h : Sound s) (hsent : s.sent = []) (hnew : s.received = [])
    {origin : Position} {records : List LiveRecord} {generation : Text} {epoch lastSeq : Nat}
    (hgeneration : s.log.generations[epoch]? = some generation)
    (hdelivers : s.log.Delivers origin records ⟨epoch, lastSeq⟩) :
    Sound (s.stream origin records generation lastSeq) := by
  have horigin : (s.stream origin records generation lastSeq).origin = origin := by
    simp [stream, hnew]
  refine ⟨h.ring, ?_, ?_, h.cursor⟩
  · refine .streaming hgeneration ?_
    rw [horigin]
    change s.log.Follows origin (s.received ++ s.sent ++ records) _
    rw [hnew, hsent]
    exact .inl hdelivers
  · refine ⟨origin, ?_⟩
    rw [horigin]
    change s.log.Follows origin s.received _
    rw [hnew]
    exact .inl .nil

/-- The client comes back to the position of its last record. -/
theorem Sound.begin (h : Sound s) (hsent : s.sent = [])
    (hregular : s.Regular .begin) : Sound (s.begin s.cursor) := by
  have hgeneration : s.live.generation ∈ s.log.generations := List.mem_of_getElem? h.ring.current
  have hreplay (hnew : s.received = []) :
      Sound { s with phase := some (.replaying s.live.generation) } :=
    ⟨h.ring, .replaying hsent hnew hgeneration, h.follows, h.cursor⟩
  unfold LiveFeed.begin
  split
  · rename_i generation seq hparsed
    split
    · rename_i hcurrent
      rw [hcurrent]
      cases hreceived : s.received.getLast? with
      | none =>
        rw [List.getLast?_eq_none_iff] at hreceived
        exact h.stream_first hsent hreceived h.ring.current .nil
      | some r =>
        obtain ⟨before, hbefore⟩ := List.getLast?_eq_some_iff.mp hreceived
        have hne : s.received.isEmpty = false := by
          rw [hbefore]
          simp
        obtain ⟨p, hp⟩ := h.follows
        rw [hbefore] at hp
        obtain ⟨⟨g, n, hg, hat, hn⟩, -⟩ := hp.last h.ring.named
        rw [h.cursor r hreceived, Option.bind_some, hg] at hparsed
        obtain ⟨rfl, rfl⟩ := Prod.mk.inj (Option.some.inj hparsed)
        have hposition : (⟨p.epoch, n.toNat⟩ : Position) = p := by rw [hn]
        rw [hcurrent] at hat
        refine ⟨h.ring, ?_, ?_, h.cursor⟩
        · refine .streaming hat ?_
          simp only [stream, hne]
          rw [hposition, hsent, List.append_nil, List.append_nil, hbefore]
          exact hp
        · refine ⟨p, ?_⟩
          simp only [stream, hne]
          rw [hbefore]
          exact hp
    · rename_i hcurrent
      -- a client that has received something comes back in its generation
      apply hreplay
      by_contra hne
      have hsame := hregular hne
      rw [hparsed] at hsame
      exact hcurrent (Option.some.inj hsame)
  · rename_i hnone
    apply hreplay
    by_contra hne
    have hsame := hregular hne
    rw [hnone] at hsame
    cases hsame

theorem Sound.snapshot (h : Sound s) {generation : Text} (hsent : s.sent = [])
    (hnew : s.received = []) : Sound (s.snapshot generation) := by
  have hne : s.live.generation ≠ [] := h.ring.named _ (List.mem_of_getElem? h.ring.current)
  obtain ⟨dropped, hnumbered⟩ := h.ring.numbered
  unfold LiveFeed.snapshot LiveState.snapshotState
  dsimp only
  rw [parseLiveCursor_formatCursor hne]
  split
  · exact ⟨h.ring, .loadingHistory hsent hnew (List.mem_of_getElem? h.ring.current), h.follows, h.cursor⟩
  · rename_i hstreamed
    cases hlast : s.live.events.getLast? with
    | none =>
      rw [List.getLast?_eq_none_iff] at hlast
      rw [hlast] at hstreamed
      exact absurd rfl hstreamed
    | some last =>
      have hgeneration : s.log.generations[s.epoch]? = some s.live.generation := h.ring.current
      refine h.stream_first hsent hnew hgeneration ?_
      rw [hnumbered.oldestSeq]
      exact LiveLog.windowRecords_delivers h.ring.unique h.ring.current hnumbered.seqs h.ring.ring hlast

theorem historyRecords_delivers {log : LiveLog} {generation : Text} {epoch : Nat}
    (hgeneration : log.generations[epoch]? = some generation) (events : List LiveDict) :
    log.Delivers ⟨epoch, 0⟩ (historyRecords generation events) ⟨epoch, 0⟩ := by
  have hall (records : List LiveRecord) (hrecords : ∀ r ∈ records, ∃ payload n,
      r = .payload payload (formatCursor generation (Int.negSucc n))) :
      log.Delivers ⟨epoch, 0⟩ records ⟨epoch, 0⟩ := by
    induction records with
    | nil => exact .nil
    | cons r records ih =>
      obtain ⟨payload, n, rfl⟩ := hrecords r List.mem_cons_self
      exact .cons (.history hgeneration) (ih fun r hr => hrecords r (List.mem_cons_of_mem _ hr))
  apply hall
  intro r hr
  obtain ⟨index, hindex, rfl⟩ := List.mem_mapIdx.mp hr
  refine ⟨events[index], events.length - index - 1, ?_⟩
  congr 2
  omega

/-- The gap record of a turn of the loop. -/
def gapRecord (s : LiveFeed) (reason : GapReason) (generation : Text) (lastSeq : Nat) : LiveGap :=
  { reason := reason
    previousGeneration := generation
    previousSeq := lastSeq
    oldestAvailableSeq := s.live.oldestSeq
    latestAvailableSeq := s.live.latestSeq
    cursor := formatCursor s.live.generation ((s.live.oldestSeq - 1 : Nat) : Int) }

theorem poll_gap {generation : Text} {lastSeq : Nat} {reason : GapReason}
    (hgap : s.live.gapReason generation lastSeq = some reason) :
    s.poll generation lastSeq =
      { s with
        phase := some (.streaming
          (.gap (s.gapRecord reason generation lastSeq) ::
            (afterWindow (s.live.snapshotStreamWindow generation lastSeq) s.live.generation
              (s.live.oldestSeq - 1)).1)
          s.live.generation
          (afterWindow (s.live.snapshotStreamWindow generation lastSeq) s.live.generation
            (s.live.oldestSeq - 1)).2) } := by
  have hreason : (s.live.snapshotStreamWindow generation lastSeq).gapReason = some reason := hgap
  unfold LiveFeed.poll
  dsimp only
  rw [hreason]
  rfl

theorem poll_nogap {generation : Text} {lastSeq : Nat}
    (hgap : s.live.gapReason generation lastSeq = none) :
    s.poll generation lastSeq =
      { s with
        phase := some (.streaming
          (afterWindow (s.live.snapshotStreamWindow generation lastSeq) generation lastSeq).1
          generation
          (afterWindow (s.live.snapshotStreamWindow generation lastSeq) generation lastSeq).2) } := by
  have hreason : (s.live.snapshotStreamWindow generation lastSeq).gapReason = none := hgap
  unfold LiveFeed.poll
  dsimp only
  rw [hreason]

theorem afterWindow_seq {w : StreamWindow} {n : Nat} (generation : Text)
    (hseqs : w.events.map LiveEvent.seq = List.range' (n + 1) w.events.length) :
    (afterWindow w generation n).2 = n + w.events.length := by
  unfold afterWindow
  cases hlast : w.events.getLast? with
  | none => simp [List.getLast?_eq_none_iff.mp hlast]
  | some e =>
    have hseq := congrArg List.getLast? hseqs
    rw [List.getLast?_map, hlast, List.getLast?_range'] at hseq
    split at hseq
    · cases hseq
    · have heq : e.seq = n + 1 + w.events.length - 1 := Option.some.inj hseq
      dsimp only
      omega

/-- A turn of the loop leads to the end of the ring. -/
theorem poll_phase {dropped : Nat} (h : s.live.Numbered dropped) (generation : Text) (lastSeq : Nat) :
    ∃ records, s.poll generation lastSeq =
      { s with phase := some (.streaming records s.live.generation s.live.latestSeq) } := by
  have hall {reason : GapReason} (hgap : s.live.gapReason generation lastSeq = some reason) :
      (afterWindow (s.live.snapshotStreamWindow generation lastSeq) s.live.generation
        (s.live.oldestSeq - 1)).2 = s.live.latestSeq := by
    rw [h.oldestSeq, Nat.add_sub_cancel, h.latestSeq, afterWindow_seq] <;>
      rw [LiveState.window_events_gap hgap]
    exact h.seqs
  rcases h.gapReason_cases generation lastSeq with
    ⟨hgap, rfl, hlow, hhigh⟩ | ⟨hgap, -⟩ | ⟨hgap, -⟩ | ⟨hgap, -⟩
  · have hseq : (afterWindow (s.live.snapshotStreamWindow s.live.generation lastSeq) s.live.generation
        lastSeq).2 = s.live.latestSeq := by
      have hlatest : s.live.latestSeq = s.live.nextSeq - 1 := rfl
      rw [afterWindow_seq] <;> rw [h.window_events hgap]
      · rw [h.filter_length hlow hhigh]
        omega
      · exact h.filter_seqs hlow hhigh
    rw [poll_nogap hgap, hseq]
    exact ⟨_, rfl⟩
  all_goals
    rw [poll_gap hgap, hall hgap]
    exact ⟨_, rfl⟩

/-- One turn of the loop goes on from where the generator is. -/
theorem Sound.poll (h : Sound s) {generation : Text} {epoch lastSeq : Nat}
    (hgeneration : s.log.generations[epoch]? = some generation)
    (hfollows : s.log.Follows s.origin (s.received ++ s.sent) ⟨epoch, lastSeq⟩) :
    Sound (s.poll generation lastSeq) := by
  obtain ⟨dropped, hnumbered⟩ := h.ring.numbered
  have hmove {records : List LiveRecord} {g : Text} {k n : Nat}
      (hg : s.log.generations[k]? = some g)
      (hrecords : s.log.Follows s.origin (s.received ++ s.sent ++ records) ⟨k, n⟩) :
      Sound { s with phase := some (.streaming records g n) } :=
    ⟨h.ring, .streaming hg hrecords, h.follows, h.cursor⟩
  have holdest : s.live.oldestSeq = dropped + 1 := hnumbered.oldestSeq
  have hreached : s.log.Reached ⟨s.epoch, dropped⟩ :=
    h.ring.reached dropped (by rw [hnumbered.next]; omega)
  have hcursor : s.log.cursor? ⟨s.epoch, dropped⟩ =
      some (formatCursor s.live.generation ((dropped + 1 - 1 : Nat) : Int)) := by
    rw [LiveLog.cursor?, LiveFeed.epoch, h.ring.current]
    rfl
  -- after a gap the whole ring follows
  have hall {reason : GapReason} (hgap : s.live.gapReason generation lastSeq = some reason) :
      s.log.Delivers ⟨s.epoch, dropped⟩
        (afterWindow (s.live.snapshotStreamWindow generation lastSeq) s.live.generation dropped).1
        ⟨s.epoch,
          (afterWindow (s.live.snapshotStreamWindow generation lastSeq) s.live.generation dropped).2⟩ :=
    h.ring.afterWindow_delivers hnumbered.seqs (fun _ he => he) (LiveState.window_events_gap hgap)
  rcases hnumbered.gapReason_cases generation lastSeq with
    ⟨hgap, rfl, hlow, hhigh⟩ | ⟨hgap, hchanged⟩ | ⟨hgap, rfl, hlow⟩ | ⟨hgap, rfl, hhigh⟩
  · obtain rfl := h.ring.epoch_eq hgeneration
    rw [poll_nogap hgap]
    apply hmove hgeneration
    refine hfollows.append ?_
    exact h.ring.afterWindow_delivers (hnumbered.filter_seqs hlow hhigh)
      (fun _ he => List.mem_of_mem_filter he) (hnumbered.window_events hgap)
  · rw [poll_gap hgap, holdest, Nat.add_sub_cancel]
    apply hmove h.ring.current
    refine hfollows.append (.cons ?_ (hall hgap))
    have hlt : epoch < s.epoch := by
      obtain ⟨hlt, -⟩ := List.getElem?_eq_some_iff.mp hgeneration
      have hne : epoch ≠ s.epoch := by
        rintro rfl
        exact hchanged (Option.some.inj (hgeneration.symm.trans h.ring.current))
      unfold LiveFeed.epoch at *
      omega
    refine .gap (.inl ⟨rfl, hlt⟩) hgeneration rfl holdest hreached ?_
    rw [hcursor, gapRecord, holdest]
  · obtain rfl := h.ring.epoch_eq hgeneration
    rw [poll_gap hgap, holdest, Nat.add_sub_cancel]
    apply hmove h.ring.current
    refine hfollows.append (.cons ?_ (hall hgap))
    refine .gap (.inr ⟨rfl, rfl, hlow⟩) hgeneration rfl holdest hreached ?_
    rw [hcursor, gapRecord, holdest]
  · obtain rfl := h.ring.epoch_eq hgeneration
    rw [poll_gap hgap, holdest, Nat.add_sub_cancel]
    apply hmove h.ring.current
    -- only the cursor the client came with can be ahead
    have hnil : s.received ++ s.sent = [] := by
      rcases List.eq_nil_or_concat (s.received ++ s.sent) with hnil | ⟨before, r, hlast⟩
      · exact hnil
      · rw [hlast, List.concat_eq_append] at hfollows
        have hnext := hnumbered.next
        rcases (hfollows.last h.ring.named).2 with hzero | ⟨e, he, hseq⟩
        · dsimp only at hzero
          omega
        · have := (h.ring.seqs e he).2
          dsimp only at hseq
          omega
    rw [hnil] at hfollows ⊢
    have horigin : s.origin = ⟨s.epoch, lastSeq⟩ := hfollows.eq_of_nil
    refine .inr ⟨_, _, ⟨s.epoch, dropped⟩, rfl, ?_, hall hgap⟩
    have hnext := hnumbered.next
    rw [horigin]
    exact {
      reason := rfl
      epoch := rfl
      previous := hgeneration
      seq := rfl
      lt := by
        dsimp only
        omega
      oldest := holdest
      reached := hreached
      cursor := by rw [hcursor, gapRecord, holdest] }

theorem Sound.step {a : LiveAction} (h : Sound s) (hregular : s.Regular a)
    (hstep : s.step a = some s') : Sound s' := by
  cases a with
  | publish entries =>
    cases hstep
    exact h.grows (h.ring.publish entries) (h.ring.grows_publish entries)
  | clear generation =>
    cases hstep
    exact h.grows (h.ring.clear hregular.1 hregular.2) (RingLogged.grows_clear s.log generation)
  | connect =>
    rw [LiveFeed.step] at hstep
    split at hstep
    · rename_i hphase
      cases hstep
      have hidle := h.phase
      rw [Option.isNone_iff_eq_none.mp hphase] at hidle
      cases hidle with
      | idle hsent => exact ⟨h.ring, .called hsent, h.follows, h.cursor⟩
    · cases hstep
  | begin =>
    have hphase := h.phase
    cases hp : s.phase with
    | none =>
      rw [LiveFeed.step, hp] at hstep
      cases hstep
    | some phase =>
      rw [LiveFeed.step, hp] at hstep
      rw [hp] at hphase
      cases hphase with
      | called hsent =>
        cases hstep
        exact h.begin hsent hregular
      | _ => cases hstep
  | snapshot =>
    have hphase := h.phase
    cases hp : s.phase with
    | none =>
      rw [LiveFeed.step, hp] at hstep
      cases hstep
    | some phase =>
      rw [LiveFeed.step, hp] at hstep
      rw [hp] at hphase
      cases hphase with
      | replaying hsent hnew _ =>
        cases hstep
        exact h.snapshot hsent hnew
      | _ => cases hstep
  | history events =>
    have hphase := h.phase
    cases hp : s.phase with
    | none =>
      rw [LiveFeed.step, hp] at hstep
      cases hstep
    | some phase =>
      rw [LiveFeed.step, hp] at hstep
      rw [hp] at hphase
      cases hphase with
      | loadingHistory hsent hnew hknown =>
        cases hstep
        have hget := List.getElem?_idxOf hknown
        exact h.stream_first hsent hnew hget (historyRecords_delivers hget events)
      | _ => cases hstep
  | yieldRecord =>
    have hphase := h.phase
    rw [LiveFeed.step] at hstep
    split at hstep
    · rename_i record pending generation lastSeq hp
      cases hstep
      rw [hp] at hphase
      cases hphase with
      | streaming hgeneration hfollows =>
        refine ⟨h.ring, .streaming hgeneration ?_, h.follows, h.cursor⟩
        dsimp only
        rw [← List.append_assoc, List.append_assoc _ [record], List.singleton_append]
        exact hfollows
    · cases hstep
  | poll =>
    have hphase := h.phase
    rw [LiveFeed.step] at hstep
    split at hstep
    · rename_i generation lastSeq hp
      cases hstep
      rw [hp] at hphase
      cases hphase with
      | streaming hgeneration hfollows =>
        rw [List.append_nil] at hfollows
        exact h.poll hgeneration hfollows
    · cases hstep
  | receive =>
    have hphase := h.phase
    rw [LiveFeed.step] at hstep
    split at hstep
    · rename_i record sent hsent
      cases hstep
      have hlast : ∀ r, (s.received ++ [record]).getLast? = some r →
          some record.cursorText = some r.cursorText := by
        intro r hr
        rw [List.getLast?_concat] at hr
        rw [← Option.some.inj hr]
      cases hp : s.phase with
      | none =>
        rw [hp] at hphase
        cases hphase with
        | idle hnil =>
          rw [hsent] at hnil
          cases hnil
      | some phase =>
        rw [hp] at hphase
        cases hphase with
        | streaming hgeneration hfollows =>
          rw [hsent, List.append_cons] at hfollows
          refine ⟨h.ring, ?_, ?_, hlast⟩
          · exact .streaming hgeneration hfollows
          · rw [List.append_assoc] at hfollows
            exact hfollows.split
        | called hnil =>
          rw [hsent] at hnil
          cases hnil
        | replaying hnil _ _ =>
          rw [hsent] at hnil
          cases hnil
        | loadingHistory hnil _ _ =>
          rw [hsent] at hnil
          cases hnil
    · cases hstep
  | disconnect =>
    cases hstep
    exact ⟨h.ring, .idle rfl, h.follows, h.cursor⟩

theorem sound_start (maxEvents : Nat) {generation : Text} (hne : generation ≠ [])
    (cursor : Option Text) : Sound (start maxEvents generation cursor) where
  ring := .init maxEvents hne
  phase := .idle rfl
  follows := ⟨_, .inl .nil⟩
  cursor _ h := by cases h

theorem Sound.run {as : List LiveAction} (h : Sound s) (hregular : Along LiveFeed.step Regular s as)
    (hrun : Transition.run LiveFeed.step s as = some s') : Sound s' :=
  run_invariant_along (fun _ _ _ hs hregular hstep => hs.step hregular hstep) h hregular hrun

end LiveFeed
end RapidInbox
