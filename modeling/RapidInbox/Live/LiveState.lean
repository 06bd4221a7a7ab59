import RapidInbox.Live.Cursor

/-!
# The live ring

`LiveState` of `app/smtp/live_state.py`: the last events of a process, numbered within a generation
that changes when the ring is cleared.  Every method runs under one lock.
-/

namespace RapidInbox

/-- A value of an event. -/
inductive LiveValue where
  | none
  | text (t : Text)
  | int (n : Int)
  deriving DecidableEq, Repr

/-- The keys of an event other than `seq`. -/
abbrev LiveDict := List (Text × LiveValue)

/-- An event of the ring, with the number `publish` gave it. -/
structure LiveEvent where
  entries : LiveDict
  seq : Nat
  deriving DecidableEq, Repr

structure LiveState where
  maxEvents : Nat
  events : List LiveEvent
  generation : Text
  nextSeq : Nat
  deriving DecidableEq, Repr

inductive GapReason where
  | generationChanged
  | ringOverrun
  | cursorAhead
  deriving DecidableEq, Repr

/-- What `snapshot_stream_window` returns. -/
structure StreamWindow where
  generation : Text
  events : List LiveEvent
  gapReason : Option GapReason
  oldestSeq : Nat
  latestSeq : Nat
  deriving DecidableEq, Repr

namespace LiveState

def init (maxEvents : Nat) (generation : Text) : LiveState := ⟨maxEvents, [], generation, 1⟩

/-- `publish`; the deque drops its oldest events beyond `maxlen`. -/
def publish (s : LiveState) (entries : LiveDict) : LiveState :=
  let events := s.events ++ [⟨entries, s.nextSeq⟩]
  { s with
    events := events.drop (events.length - s.maxEvents)
    nextSeq := s.nextSeq + 1 }

/-- `clear`, with the generation that `uuid4` draws. -/
def clear (s : LiveState) (generation : Text) : LiveState :=
  { s with events := [], generation := generation, nextSeq := 1 }

/-- `snapshot_state`. -/
def snapshotState (s : LiveState) : List LiveEvent × Text :=
  (s.events, formatCursor s.generation ((s.events.getLast?.map LiveEvent.seq).getD 0 : Nat))

def latestSeq (s : LiveState) : Nat := s.nextSeq - 1

/-- The oldest number in the ring, or the next one. -/
def oldestSeq (s : LiveState) : Nat := (s.events.head?.map LiveEvent.seq).getD s.nextSeq

/-- The gap between a cursor and the ring, if there is one. -/
def gapReason (s : LiveState) (expectedGeneration : Text) (seq : Nat) : Option GapReason :=
  if expectedGeneration ≠ s.generation then some .generationChanged
  else if seq < s.oldestSeq - 1 then some .ringOverrun
  else if s.latestSeq < seq then some .cursorAhead
  else none

/-- `snapshot_stream_window`. -/
def snapshotStreamWindow (s : LiveState) (expectedGeneration : Text) (seq : Nat) : StreamWindow :=
  let gap := s.gapReason expectedGeneration seq
  { generation := s.generation
    events :=
      if gap.isSome then s.events
      else if seq = s.latestSeq then []
      else s.events.filter fun e => seq < e.seq
    gapReason := gap
    oldestSeq := s.oldestSeq
    latestSeq := s.latestSeq }

/-! ## The numbers in the ring -/

/-- The ring holds the events after the first `dropped` ones, in order and without a hole. -/
structure Numbered (s : LiveState) (dropped : Nat) : Prop where
  seqs : s.events.map LiveEvent.seq = List.range' (dropped + 1) s.events.length
  next : s.nextSeq = dropped + s.events.length + 1

variable {s : LiveState} {dropped : Nat}

theorem numbered_init (maxEvents : Nat) (generation : Text) :
    Numbered (init maxEvents generation) 0 where
  seqs := rfl
  next := rfl

theorem numbered_clear (generation : Text) : Numbered (s.clear generation) 0 where
  seqs := rfl
  next := rfl

theorem drop_seqs {events : List LiveEvent} (h : events.map LiveEvent.seq =
    List.range' (dropped + 1) events.length) (k : Nat) :
    (events.drop k).map LiveEvent.seq =
      List.range' (dropped + k + 1) (events.drop k).length := by
  rw [List.map_drop, h, List.drop_range', List.length_drop]
  congr 1
  omega

theorem Numbered.publish (h : s.Numbered dropped) (entries : LiveDict) :
    ∃ dropped', (s.publish entries).Numbered dropped' := by
  have hseqs : (s.events ++ [(⟨entries, s.nextSeq⟩ : LiveEvent)]).map LiveEvent.seq =
      List.range' (dropped + 1) (s.events ++ [(⟨entries, s.nextSeq⟩ : LiveEvent)]).length := by
    have hone : 1 + dropped = dropped + 1 := by omega
    rw [List.map_append, h.seqs, List.length_append, List.length_singleton, List.range'_concat, h.next]
    simp [Nat.add_right_comm]
  refine ⟨_, drop_seqs hseqs _, ?_⟩
  change s.nextSeq + 1 = dropped + _ + (List.drop _ _).length + 1
  rw [List.length_drop, List.length_append, List.length_singleton, h.next]
  omega

theorem Numbered.latestSeq (h : s.Numbered dropped) :
    s.latestSeq = dropped + s.events.length := by
  rw [LiveState.latestSeq, h.next]
  omega

theorem Numbered.oldestSeq (h : s.Numbered dropped) : s.oldestSeq = dropped + 1 := by
  have hseqs := h.seqs
  have hnext := h.next
  rw [LiveState.oldestSeq]
  cases hevents : s.events with
  | nil =>
    rw [hevents] at hnext
    simpa using hnext
  | cons e events =>
    rw [hevents] at hseqs
    simpa [List.range'] using (List.cons.inj hseqs).1

theorem Numbered.bounds (h : s.Numbered dropped) {e : LiveEvent} (he : e ∈ s.events) :
    dropped < e.seq ∧ e.seq < s.nextSeq := by
  have hmem : e.seq ∈ s.events.map LiveEvent.seq := List.mem_map_of_mem he
  rw [h.seqs, List.mem_range'_1] at hmem
  rw [h.next]
  omega

theorem filter_range' {low n count : Nat} (hlow : low ≤ n) (hhigh : n ≤ low + count) :
    (List.range' (low + 1) count).filter (n < ·) = List.range' (n + 1) (low + count - n) := by
  have hsplit : List.range' (low + 1) count =
      List.range' (low + 1) (n - low) ++ List.range' (n + 1) (low + count - n) := by
    have hstart : n + 1 = low + 1 + (n - low) := by omega
    rw [hstart, List.range'_append_1]
    congr 1
    omega
  have hbefore : (List.range' (low + 1) (n - low)).filter (n < ·) = [] := by
    rw [List.filter_eq_nil_iff]
    intro k hk
    have := List.mem_range'_1.mp hk
    simp only [decide_eq_true_eq]
    omega
  have hafter : (List.range' (n + 1) (low + count - n)).filter (n < ·) =
      List.range' (n + 1) (low + count - n) := by
    rw [List.filter_eq_self]
    intro k hk
    have := List.mem_range'_1.mp hk
    simp only [decide_eq_true_eq]
    omega
  rw [hsplit, List.filter_append, hbefore, hafter, List.nil_append]

/-- The events after a number that the ring still reaches have no hole either. -/
theorem Numbered.filter_map (h : s.Numbered dropped) {n : Nat} (hlow : dropped ≤ n)
    (hhigh : n < s.nextSeq) :
    (s.events.filter fun e => n < e.seq).map LiveEvent.seq = List.range' (n + 1) (s.latestSeq - n) := by
  have hnext := h.next
  rw [h.latestSeq, ← filter_range' hlow (by omega), ← h.seqs, List.filter_map]
  rfl

theorem Numbered.filter_length (h : s.Numbered dropped) {n : Nat} (hlow : dropped ≤ n)
    (hhigh : n < s.nextSeq) : (s.events.filter fun e => n < e.seq).length = s.latestSeq - n := by
  have hlength := congrArg List.length (h.filter_map hlow hhigh)
  rwa [List.length_map, List.length_range'] at hlength

theorem Numbered.filter_seqs (h : s.Numbered dropped) {n : Nat} (hlow : dropped ≤ n)
    (hhigh : n < s.nextSeq) :
    (s.events.filter fun e => n < e.seq).map LiveEvent.seq =
      List.range' (n + 1) (s.events.filter fun e => n < e.seq).length := by
  rw [h.filter_length hlow hhigh]
  exact h.filter_map hlow hhigh

/-- Every number that the ring still reaches is that of an event. -/
theorem Numbered.exists_seq (h : s.Numbered dropped) {n : Nat} (hlow : dropped < n)
    (hhigh : n < s.nextSeq) : ∃ e ∈ s.events, e.seq = n := by
  have hnext := h.next
  have hmem : n ∈ s.events.map LiveEvent.seq := by
    rw [h.seqs, List.mem_range'_1]
    omega
  exact List.mem_map.mp hmem

/-! ## What a window says -/

/-- When a cursor meets no gap, and which gap it meets. -/
theorem Numbered.gapReason_cases (h : s.Numbered dropped) (generation : Text) (n : Nat) :
    (s.gapReason generation n = none ∧ generation = s.generation ∧ dropped ≤ n ∧ n < s.nextSeq) ∨
      (s.gapReason generation n = some .generationChanged ∧ generation ≠ s.generation) ∨
      (s.gapReason generation n = some .ringOverrun ∧ generation = s.generation ∧ n < dropped) ∨
      (s.gapReason generation n = some .cursorAhead ∧ generation = s.generation ∧ s.nextSeq ≤ n) := by
  have holdest := h.oldestSeq
  have hlatest := h.latestSeq
  have hnext := h.next
  unfold LiveState.gapReason
  by_cases hgeneration : generation = s.generation
  · rw [if_neg (not_not.mpr hgeneration)]
    by_cases hlow : n < dropped
    · rw [if_pos (by omega)]
      exact .inr (.inr (.inl ⟨rfl, hgeneration, hlow⟩))
    · rw [if_neg (by omega)]
      by_cases hhigh : n < s.nextSeq
      · rw [if_neg (by omega)]
        exact .inl ⟨rfl, hgeneration, by omega, hhigh⟩
      · rw [if_pos (by omega)]
        exact .inr (.inr (.inr ⟨rfl, hgeneration, by omega⟩))
  · rw [if_pos hgeneration]
    exact .inr (.inl ⟨rfl, hgeneration⟩)

theorem Numbered.window_events (h : s.Numbered dropped) {generation : Text} {n : Nat}
    (hgap : s.gapReason generation n = none) :
    (s.snapshotStreamWindow generation n).events = s.events.filter fun e => n < e.seq := by
  unfold snapshotStreamWindow
  rw [hgap]
  dsimp only [Option.isSome_none]
  rw [if_neg (by decide)]
  split
  · rename_i hlatest
    symm
    rw [List.filter_eq_nil_iff]
    intro e he
    have := (h.bounds he).2
    rw [LiveState.latestSeq] at hlatest
    simp only [decide_eq_true_eq]
    omega
  · rfl

theorem window_events_gap {generation : Text} {n : Nat} {reason : GapReason}
    (hgap : s.gapReason generation n = some reason) :
    (s.snapshotStreamWindow generation n).events = s.events := by
  unfold snapshotStreamWindow
  rw [hgap]
  rfl

end LiveState
end RapidInbox
