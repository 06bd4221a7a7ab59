import RapidInbox.Live.LiveStream

/-!
# The live stream skips nothing silently

The records a client gets, over all its connections, lead from one position of the stream to the
next: each is the next streamed event, a bare cursor over events that are not streamed, or a gap that
names the positions on both sides.
-/

namespace RapidInbox

open Transition

/-! ## Positions and what lies between them -/

/-- One position is before another. -/
def Position.Lt (p q : Position) : Prop := p.epoch < q.epoch ∨ p.epoch = q.epoch ∧ p.seq < q.seq

instance (p q : Position) : Decidable (p.Lt q) := inferInstanceAs (Decidable (_ ∨ _))

theorem Position.Lt.trans {p q r : Position} (h : p.Lt q) (h' : q.Lt r) : p.Lt r := by
  unfold Position.Lt at *
  omega

namespace LiveLog

/-- The cursor of a position. -/
def cursor? (log : LiveLog) (p : Position) : Option Text :=
  log.generations[p.epoch]?.map fun generation => formatCursor generation p.seq

/-- No streamed event of a generation has a number after `low` and up to `high`. -/
def Quiet (log : LiveLog) (epoch low high : Nat) : Prop :=
  ∀ e, (epoch, e) ∈ log.events → low < e.seq → e.seq ≤ high → normalizeSmtpLiveEvent e = none

/-- The start of a generation, or the position of an event. -/
def Reached (log : LiveLog) (p : Position) : Prop :=
  p.seq = 0 ∨ ∃ e, (p.epoch, e) ∈ log.events ∧ e.seq = p.seq

/-- A record leads from one position to another. -/
inductive Carries (log : LiveLog) : LiveRecord → Position → Position → Prop
  | payload {e : LiveEvent} {payload : LiveDict} {cursor : Text} {epoch seq : Nat}
      (he : (epoch, e) ∈ log.events) (hpayload : normalizeSmtpLiveEvent e = some payload)
      (hlt : seq < e.seq) (hquiet : log.Quiet epoch seq (e.seq - 1))
      (hcursor : log.cursor? ⟨epoch, e.seq⟩ = some cursor) :
      Carries log (.payload payload cursor) ⟨epoch, seq⟩ ⟨epoch, e.seq⟩
  | cursor {e : LiveEvent} {cursor : Text} {epoch seq : Nat} (he : (epoch, e) ∈ log.events)
      (hlt : seq < e.seq) (hquiet : log.Quiet epoch seq e.seq)
      (hcursor : log.cursor? ⟨epoch, e.seq⟩ = some cursor) :
      Carries log (.cursor cursor) ⟨epoch, seq⟩ ⟨epoch, e.seq⟩
  | history {payload : LiveDict} {generation : Text} {epoch n : Nat}
      (hgeneration : log.generations[epoch]? = some generation) :
      Carries log (.payload payload (formatCursor generation (Int.negSucc n))) ⟨epoch, 0⟩ ⟨epoch, 0⟩
  | gap {gap : LiveGap} {p q : Position}
      (hreason : gap.reason = .generationChanged ∧ p.epoch < q.epoch ∨
        gap.reason = .ringOverrun ∧ p.epoch = q.epoch ∧ p.seq < q.seq)
      (hprevious : log.generations[p.epoch]? = some gap.previousGeneration)
      (hseq : gap.previousSeq = p.seq) (holdest : gap.oldestAvailableSeq = q.seq + 1)
      (hreached : log.Reached q) (hcursor : log.cursor? q = some gap.cursor) :
      Carries log (.gap gap) p q

/-- Records lead from one position to another. -/
inductive Delivers (log : LiveLog) : Position → List LiveRecord → Position → Prop
  | nil {p : Position} : Delivers log p [] p
  | cons {r : LiveRecord} {rs : List LiveRecord} {p p' q : Position} (h : log.Carries r p p')
      (hrest : Delivers log p' rs q) : Delivers log p (r :: rs) q

/-- The gap of a cursor that is ahead of its generation. -/
structure Ahead (log : LiveLog) (gap : LiveGap) (p q : Position) : Prop where
  reason : gap.reason = .cursorAhead
  epoch : q.epoch = p.epoch
  previous : log.generations[p.epoch]? = some gap.previousGeneration
  seq : gap.previousSeq = p.seq
  lt : q.seq < p.seq
  oldest : gap.oldestAvailableSeq = q.seq + 1
  reached : log.Reached q
  cursor : log.cursor? q = some gap.cursor

/-- The records of a client: only the first may say that the client's own cursor was ahead. -/
def Follows (log : LiveLog) (origin : Position) (rs : List LiveRecord) (q : Position) : Prop :=
  log.Delivers origin rs q ∨
    ∃ gap rest p, rs = .gap gap :: rest ∧ log.Ahead gap origin p ∧ log.Delivers p rest q

variable {log log' : LiveLog} {p q : Position} {r : LiveRecord} {rs rs' : List LiveRecord}

theorem Delivers.append (h : log.Delivers p rs q) {q' : Position} (h' : log.Delivers q rs' q') :
    log.Delivers p (rs ++ rs') q' := by
  induction h with
  | nil => exact h'
  | cons hr _ ih => exact .cons hr (ih h')

theorem Delivers.split (h : log.Delivers p (rs ++ rs') q) :
    ∃ m, log.Delivers p rs m ∧ log.Delivers m rs' q := by
  induction rs generalizing p with
  | nil => exact ⟨p, .nil, h⟩
  | cons r rs ih =>
    cases h with
    | cons hr hrest =>
      obtain ⟨m, hm, hm'⟩ := ih hrest
      exact ⟨m, .cons hr hm, hm'⟩

theorem Follows.eq_of_nil (h : log.Follows p [] q) : p = q := by
  rcases h with h | ⟨_, _, _, hcons, -⟩
  · cases h
    rfl
  · cases hcons

theorem Follows.append (h : log.Follows p rs q) {q' : Position} (h' : log.Delivers q rs' q') :
    log.Follows p (rs ++ rs') q' := by
  rcases h with h | ⟨gap, rest, m, rfl, hahead, hrest⟩
  · exact .inl (h.append h')
  · exact .inr ⟨gap, rest ++ rs', m, rfl, hahead, hrest.append h'⟩

theorem Follows.split (h : log.Follows p (rs ++ rs') q) : ∃ m, log.Follows p rs m := by
  rcases h with h | ⟨gap, rest, m, heq, hahead, hrest⟩
  · obtain ⟨m, hm, -⟩ := h.split
    exact ⟨m, .inl hm⟩
  · cases rs with
    | nil => exact ⟨p, .inl .nil⟩
    | cons r rs =>
      obtain ⟨rfl, rfl⟩ := List.cons.inj heq
      obtain ⟨m', hm', -⟩ := hrest.split
      exact ⟨m', .inr ⟨gap, rs, m, rfl, hahead, hm'⟩⟩

/-! ## More is published -/

/-- The log grows: generations are added at the end, and events behind all those of their
    generation. -/
structure Grows (log log' : LiveLog) : Prop where
  generations : log.generations <+: log'.generations
  kept : ∀ e ∈ log.events, e ∈ log'.events
  behind : ∀ epoch e e', (epoch, e) ∈ log.events → (epoch, e') ∈ log'.events → e'.seq ≤ e.seq →
    (epoch, e') ∈ log.events

theorem Grows.getElem? (h : log.Grows log') {epoch : Nat} {generation : Text}
    (hget : log.generations[epoch]? = some generation) :
    log'.generations[epoch]? = some generation := by
  obtain ⟨rest, hrest⟩ := h.generations
  obtain ⟨hlt, -⟩ := List.getElem?_eq_some_iff.mp hget
  rw [← hrest, List.getElem?_append_left hlt, hget]

theorem Grows.cursor? (h : log.Grows log') {cursor : Text} (hcursor : log.cursor? p = some cursor) :
    log'.cursor? p = some cursor := by
  obtain ⟨generation, hget, rfl⟩ := Option.map_eq_some_iff.mp hcursor
  exact Option.map_eq_some_iff.mpr ⟨generation, h.getElem? hget, rfl⟩

theorem Grows.reached (h : log.Grows log') (hreached : log.Reached p) : log'.Reached p := by
  rcases hreached with hzero | ⟨e, he, hseq⟩
  · exact .inl hzero
  · exact .inr ⟨e, h.kept _ he, hseq⟩

theorem Grows.quiet (h : log.Grows log') {epoch low high : Nat} {e : LiveEvent}
    (he : (epoch, e) ∈ log.events) (hle : high ≤ e.seq) (hquiet : log.Quiet epoch low high) :
    log'.Quiet epoch low high := by
  intro e' he' hlow hhigh
  exact hquiet e' (h.behind epoch e e' he he' (by omega)) hlow hhigh

theorem Carries.grows (h : log.Carries r p q) (hgrows : log.Grows log') : log'.Carries r p q := by
  cases h with
  | payload he hpayload hlt hquiet hcursor =>
    exact .payload (hgrows.kept _ he) hpayload hlt (hgrows.quiet he (by omega) hquiet)
      (hgrows.cursor? hcursor)
  | cursor he hlt hquiet hcursor =>
    exact .cursor (hgrows.kept _ he) hlt (hgrows.quiet he (by omega) hquiet)
      (hgrows.cursor? hcursor)
  | history hgeneration => exact .history (hgrows.getElem? hgeneration)
  | gap hreason hprevious hseq holdest hreached hcursor =>
    exact .gap hreason (hgrows.getElem? hprevious) hseq holdest (hgrows.reached hreached)
      (hgrows.cursor? hcursor)

theorem Delivers.grows (h : log.Delivers p rs q) (hgrows : log.Grows log') :
    log'.Delivers p rs q := by
  induction h with
  | nil => exact .nil
  | cons hr _ ih => exact .cons (hr.grows hgrows) ih

theorem Follows.grows (h : log.Follows p rs q) (hgrows : log.Grows log') :
    log'.Follows p rs q := by
  rcases h with h | ⟨gap, rest, m, rfl, hahead, hrest⟩
  · exact .inl (h.grows hgrows)
  · refine .inr ⟨gap, rest, m, rfl, ?_, hrest.grows hgrows⟩
    exact { hahead with
      previous := hgrows.getElem? hahead.previous
      reached := hgrows.reached hahead.reached
      cursor := hgrows.cursor? hahead.cursor }

/-! ## Coming back -/

/-- A cursor names its position: the client may resume there. -/
def ResumesAt (log : LiveLog) (cursor : Text) (q : Position) : Prop :=
  ∃ generation seq, parseLiveCursor cursor = some (generation, seq) ∧
    log.generations[q.epoch]? = some generation ∧ seq.toNat = q.seq

theorem resumesAt_cursor? (hnamed : ∀ g ∈ log.generations, g ≠ []) {cursor : Text}
    (h : log.cursor? q = some cursor) : log.ResumesAt cursor q := by
  obtain ⟨generation, hget, rfl⟩ := Option.map_eq_some_iff.mp h
  exact ⟨generation, q.seq, parseLiveCursor_formatCursor (hnamed _ (List.mem_of_getElem? hget)) _, hget,
    Int.toNat_natCast _⟩

theorem Carries.resumesAt (hnamed : ∀ g ∈ log.generations, g ≠ []) (h : log.Carries r p q) :
    log.ResumesAt r.cursorText q := by
  cases h with
  | payload _ _ _ _ hcursor => exact resumesAt_cursor? hnamed hcursor
  | cursor _ _ _ hcursor => exact resumesAt_cursor? hnamed hcursor
  | history hgeneration =>
    exact ⟨_, _, parseLiveCursor_formatCursor (hnamed _ (List.mem_of_getElem? hgeneration)) _,
      hgeneration, rfl⟩
  | gap _ _ _ _ _ hcursor => exact resumesAt_cursor? hnamed hcursor

theorem Carries.reached (h : log.Carries r p q) : log.Reached q := by
  cases h with
  | payload he _ _ _ _ => exact .inr ⟨_, he, rfl⟩
  | cursor he _ _ _ => exact .inr ⟨_, he, rfl⟩
  | history _ => exact .inl rfl
  | gap _ _ _ _ hreached _ => exact hreached

theorem Delivers.last (hnamed : ∀ g ∈ log.generations, g ≠ []) (h : log.Delivers p (rs ++ [r]) q) :
    log.ResumesAt r.cursorText q ∧ log.Reached q := by
  obtain ⟨m, -, hlast⟩ := h.split
  cases hlast with
  | cons hr hnil =>
    cases hnil
    exact ⟨hr.resumesAt hnamed, hr.reached⟩

/-- The last record of a client leads to where it is. -/
theorem Follows.last (hnamed : ∀ g ∈ log.generations, g ≠ []) (h : log.Follows p (rs ++ [r]) q) :
    log.ResumesAt r.cursorText q ∧ log.Reached q := by
  rcases h with h | ⟨gap, rest, m, heq, hahead, hrest⟩
  · exact h.last hnamed
  · cases rs with
    | nil =>
      obtain ⟨rfl, rfl⟩ := List.cons.inj heq
      cases hrest
      exact ⟨resumesAt_cursor? hnamed hahead.cursor, hahead.reached⟩
    | cons r' rs =>
      obtain ⟨rfl, rfl⟩ := List.cons.inj heq
      exact hrest.last hnamed

/-! ## Windows -/

/-- No two events of a generation have one number. -/
def Unique (log : LiveLog) : Prop :=
  ∀ epoch e e', (epoch, e) ∈ log.events → (epoch, e') ∈ log.events → e.seq = e'.seq → e = e'

/-- The payloads of consecutive events lead to the last of them that is streamed. -/
theorem streamedEvents_delivers (hunique : log.Unique) {epoch : Nat} {generation : Text}
    (hgeneration : log.generations[epoch]? = some generation) {events : List LiveEvent} {m n : Nat}
    (hseqs : events.map LiveEvent.seq = List.range' (n + 1) events.length)
    (hlogged : ∀ e ∈ events, (epoch, e) ∈ log.events) (hle : m ≤ n) (hquiet : log.Quiet epoch m n) :
    ∃ m', m' = ((streamedEvents events).getLast?.map fun e => e.1.seq).getD m ∧
      m' ≤ n + events.length ∧ log.Quiet epoch m' (n + events.length) ∧
      log.Delivers ⟨epoch, m⟩ ((streamedEvents events).map fun e =>
        .payload e.2 (formatCursor generation e.1.seq)) ⟨epoch, m'⟩ := by
  induction events generalizing m n with
  | nil => exact ⟨m, rfl, hle, hquiet, .nil⟩
  | cons e events ih =>
    obtain ⟨hseq, hrest⟩ : e.seq = n + 1 ∧
        events.map LiveEvent.seq = List.range' (n + 1 + 1) events.length := by
      simpa [List.range'] using hseqs
    have he : (epoch, e) ∈ log.events := hlogged e List.mem_cons_self
    have hlogged' : ∀ e ∈ events, (epoch, e) ∈ log.events :=
      fun e he => hlogged e (List.mem_cons_of_mem _ he)
    have hlength : n + (e :: events).length = n + 1 + events.length := by
      rw [List.length_cons]
      omega
    rw [hlength]
    cases hnorm : normalizeSmtpLiveEvent e with
    | none =>
      have hquiet' : log.Quiet epoch m (n + 1) := by
        intro e' he' hlow hhigh
        by_cases hsame : e'.seq = n + 1
        · rw [hunique epoch e' e he' he (by omega)]
          exact hnorm
        · exact hquiet e' he' hlow (by omega)
      have hskip : streamedEvents (e :: events) = streamedEvents events := by
        simp [streamedEvents, hnorm]
      rw [hskip]
      exact ih hrest hlogged' (by omega) hquiet'
    | some payload =>
      have hkeep : streamedEvents (e :: events) = (e, payload) :: streamedEvents events := by
        simp [streamedEvents, hnorm]
      have hnone : log.Quiet epoch (n + 1) (n + 1) := fun _ _ hlow hhigh => by omega
      obtain ⟨m', hm', hle', hquiet', hdelivers⟩ := ih hrest hlogged' Nat.le.refl hnone
      refine ⟨m', ?_, hle', hquiet', ?_⟩
      · rw [hkeep, List.getLast?_cons, hm']
        cases (streamedEvents events).getLast? with
        | none => simp [hseq]
        | some e' => rfl
      · rw [hkeep, List.map_cons]
        refine .cons ?_ hdelivers
        rw [← hseq]
        refine .payload he hnorm (by omega) ?_ ?_
        · rw [hseq]
          exact hquiet
        · rw [cursor?, hgeneration]
          rfl

/-- The records of a window lead from its start to its end. -/
theorem windowRecords_delivers (hunique : log.Unique) {epoch : Nat} {generation : Text}
    (hgeneration : log.generations[epoch]? = some generation) {events : List LiveEvent}
    {last : LiveEvent} {n : Nat}
    (hseqs : events.map LiveEvent.seq = List.range' (n + 1) events.length)
    (hlogged : ∀ e ∈ events, (epoch, e) ∈ log.events) (hlast : events.getLast? = some last) :
    log.Delivers ⟨epoch, n⟩ (windowRecords generation events last.seq) ⟨epoch, last.seq⟩ := by
  have hmem : last ∈ events := List.mem_of_getLast? hlast
  have hend : last.seq = n + events.length := by
    have h : (events.map LiveEvent.seq).getLast? = some last.seq := by
      rw [List.getLast?_map, hlast]
      rfl
    rw [hseqs, List.getLast?_range'] at h
    have hpos : 0 < events.length := List.length_pos_of_mem hmem
    split at h
    · omega
    · have := Option.some.inj h
      omega
  have hpos : 0 < last.seq := by
    have := List.length_pos_of_mem hmem
    omega
  have hnone : log.Quiet epoch n n := fun _ _ hlow hhigh => by omega
  obtain ⟨m, hm, hle, hquiet, hdelivers⟩ :=
    streamedEvents_delivers hunique hgeneration hseqs hlogged Nat.le.refl hnone
  unfold windowRecords
  dsimp only
  rw [← hend] at hle hquiet
  split
  · rename_i hne
    refine hdelivers.append ?_
    have hlt : m < last.seq := by
      refine Nat.lt_of_le_of_ne hle ?_
      rintro rfl
      cases hstreamed : (streamedEvents events).getLast? with
      | none =>
        rw [hstreamed] at hm
        have : last.seq = n := hm
        have := List.length_pos_of_mem hmem
        omega
      | some e =>
        rw [hstreamed] at hm hne
        exact hne hm.symm
    refine .cons (.cursor (hlogged _ hmem) hlt hquiet ?_) .nil
    rw [cursor?, hgeneration]
    rfl
  · rename_i heq
    have hsame : m = last.seq := by
      cases hstreamed : (streamedEvents events).getLast? with
      | none =>
        rw [hstreamed] at heq
        simp at heq
        omega
      | some e =>
        rw [hstreamed] at hm heq
        rw [hm]
        simpa using heq
    rw [List.append_nil, ← hsame]
    exact hdelivers

end LiveLog
end RapidInbox
