import RapidInbox.Ingest.Envelope

/-!
# A client's connection

The loop of `handle_client` (`smtp_server.cpp:587-613`): lines are read from the socket and handled one
by one.  A server that stops, or a reply that cannot be sent, ends the loop at a line as the end of
the client's stream does; every such run is one of a shorter stream.
-/

namespace RapidInbox

open Conc

/-- `SMTP_MAX_LINE_LENGTH` in the range `config.cpp:212` admits. -/
structure LineLimit where
  length : Nat
  low : 512 ≤ length
  high : length ≤ 1048576

/-- What the loop has done with a line. -/
structure LineEvent where
  /-- The line was message data, or the end of it. -/
  asData : Bool
  /-- The session reads message data behind it. -/
  inData : Bool
  reply : Option Reply
  /-- What the client has sent behind the line. -/
  unread : Bytes
  deriving DecidableEq, Repr

namespace SmtpSession

open Conc.Act (get)

variable {P : Platform} {maxLength : Nat}

/-- The body of the loop: the reply to send, and whether the loop goes on. -/
def serveLine (P : Platform) (line : ClientLine) : SessionM (Option Reply × Bool) := do
  if line.tooLong then
    let s ← get
    if s.inData then
      let _ ← rejectOverlongDataLine
      return (none, true)
    else
      return (some (reply 500 "line too long"), false)
  else
    match ← handleLine P line.bytes with
    | none => return (none, true)
    | some r => return (some r, r.code != 221)

/-- One turn of the loop, with what it has done. -/
def serveTurn (P : Platform) (line : ClientLine) (unread : Bytes) : SessionM (LineEvent × Bool) := do
  let before ← get
  let (r, goesOn) ← serveLine P line
  let after ← get
  return (⟨before.inData, after.inData, r, unread⟩, goesOn)

/-- `handle_client` behind the greeting, for at most `fuel` lines. -/
def handleClient (P : Platform) (maxLength : Nat) : Nat → ClientLineReader → SessionM (List LineEvent)
  | 0, _ => pure []
  | fuel + 1, reader =>
    match reader.recvLine maxLength with
    | none => pure []
    | some (line, reader) => do
        let (event, goesOn) ← serveTurn P line reader.stream
        if goesOn then
          let events ← handleClient P maxLength fuel reader
          return event :: events
        else
          return [event]

/-- Every line takes a byte of the stream, so the stream is fuel enough. -/
def serve (P : Platform) (maxLength : Nat) (reader : ClientLineReader) : SessionM (List LineEvent) :=
  handleClient P maxLength reader.stream.length reader

/-- The loop over the lines of a stream; the flag says that it goes on. -/
def serveLines (P : Platform) (maxLength : Nat) :
    List (Bytes × Bytes) → SessionM (List LineEvent × Bool)
  | [] => pure ([], true)
  | (raw, unread) :: lines => do
      let (event, goesOn) ← serveTurn P (clientLine maxLength raw) unread
      if goesOn then
        let (events, goesOn) ← serveLines P maxLength lines
        return (event :: events, goesOn)
      else
        return ([event], false)

/-! ## The stream decides -/

theorem handleClient_eq {fuel : Nat} {reader : ClientLineReader} (h : reader.stream.length ≤ fuel) :
    handleClient P maxLength fuel reader =
      (serveLines P maxLength (Lines.ended lineFeed reader.stream) >>= fun (events, _) =>
        pure events) := by
  induction fuel generalizing reader with
  | zero =>
    have hempty : reader.stream = [] := List.eq_nil_of_length_eq_zero (Nat.le_zero.mp h)
    rw [hempty]
    rfl
  | succ fuel ih =>
    have hread := reader.recvLine_stream maxLength
    rw [handleClient, Lines.ended_eq]
    cases hsplit : Lines.split? lineFeed reader.stream with
    | none =>
      rw [hsplit, Option.map_none, Option.map_eq_none_iff] at hread
      rw [hread]
      rfl
    | some p =>
      obtain ⟨l, rest⟩ := p
      rw [hsplit] at hread
      obtain ⟨⟨line, reader'⟩, hline, heq⟩ := Option.map_eq_some_iff.mp hread
      cases heq
      obtain ⟨-, hstream⟩ := Lines.split?_eq_some.mp hsplit
      have hfuel : reader'.stream.length ≤ fuel := by
        rw [hstream, List.length_append, List.length_cons] at h
        omega
      rw [hline]
      simp only [serveLines, LawfulMonad.bind_assoc, ih hfuel]
      refine congrArg _ (funext fun p => ?_)
      obtain ⟨event, goesOn⟩ := p
      cases goesOn
      · rfl
      · simp

/-- What the loop does is decided by the stream, however it is cut into chunks. -/
theorem serve_eq (reader : ClientLineReader) :
    serve P maxLength reader =
      (serveLines P maxLength (Lines.ended lineFeed reader.stream) >>= fun (events, _) =>
        pure events) :=
  handleClient_eq (Nat.le_refl _)

theorem serveLines_append (before after : List (Bytes × Bytes)) :
    serveLines P maxLength (before ++ after) =
      (serveLines P maxLength before >>= fun (events, goesOn) =>
        if goesOn then
          serveLines P maxLength after >>= fun (events', goesOn') =>
            pure (events ++ events', goesOn')
        else pure (events, false)) := by
  induction before with
  | nil => simp [serveLines]
  | cons line before ih =>
    obtain ⟨raw, unread⟩ := line
    simp only [List.cons_append, serveLines, LawfulMonad.bind_assoc, ih]
    refine congrArg _ (funext fun p => ?_)
    obtain ⟨event, goesOn⟩ := p
    cases goesOn
    · simp
    · simp only [if_true, LawfulMonad.bind_assoc, pure_bind]
      refine congrArg _ (funext fun q => ?_)
      obtain ⟨events, goesOn'⟩ := q
      cases goesOn' <;> simp

/-! ## The envelope over a connection -/

variable {s : SmtpSession} {x : SessionLog}

theorem Envelope.serveTurn (h : Envelope P s) (line : ClientLine) (unread : Bytes) :
    swp (serveTurn P line unread) (fun s' _ _ => Envelope P s') s x := by
  unfold SmtpSession.serveTurn serveLine
  simp only [Act.wp_bind, Act.wp_get, Act.wp_ite, Act.wp_pure]
  by_cases hlong : line.tooLong
  · rw [if_pos hlong]
    split
    · exact h.rejectOverlongDataLine
    · exact h
  · rw [if_neg hlong]
    refine Prog.Follows.mono ?_ (h.handleLine line.bytes)
    intro s' r x' hdone
    cases r <;> exact hdone.envelope

theorem Envelope.serveLines (h : Envelope P s) (lines : List (Bytes × Bytes)) :
    swp (serveLines P maxLength lines) (fun s' _ _ => Envelope P s') s x := by
  induction lines generalizing s x with
  | nil => exact h
  | cons line lines ih =>
    obtain ⟨raw, unread⟩ := line
    simp only [SmtpSession.serveLines, Act.wp_bind]
    refine Prog.Follows.mono ?_ (h.serveTurn (clientLine maxLength raw) unread)
    rintro s' ⟨event, goesOn⟩ x' henvelope
    cases goesOn
    · exact henvelope
    · simp only [if_true, Act.wp_bind, Act.wp_pure]
      exact ih henvelope

/-! ## Lines of data -/

/-- The line that ends message data. -/
def terminator : ClientLine := ⟨[0x2E], false⟩

/-- A line of data, other than the end of it, keeps the session in its data. -/
theorem swp_serveTurn_data {Q : SmtpSession → LineEvent × Bool → SessionLog → Prop}
    {line : ClientLine} {unread : Bytes} (hdata : s.inData = true) (hline : line ≠ terminator)
    (hlong : line.tooLong = true →
      ∀ bytes, Q ({ s with dataTooLarge := true }.dropped bytes) (⟨true, true, none, unread⟩, true) x)
    (hwhole : line.tooLong = false → swp (handleDataLine line.bytes)
      (fun s' r x' => r = none ∧ s'.inData = true ∧ Q s' (⟨true, true, none, unread⟩, true) x') s x) :
    swp (serveTurn P line unread) Q s x := by
  unfold serveTurn serveLine
  simp only [Act.wp_bind, Act.wp_get, Act.wp_ite, Act.wp_pure, hdata, if_true]
  by_cases htooLong : line.tooLong
  · rw [if_pos htooLong]
    unfold rejectOverlongDataLine
    simp only [Act.wp_bind, Act.wp_get, Act.wp_ite, Act.wp_pure, hdata, if_true]
    refine swp_markDataTooLarge ?_
    intro bytes
    have hevent := hlong htooLong bytes
    unfold dropped at hevent ⊢
    simp only [hdata] at hevent ⊢
    exact hevent
  · have hnot : line.tooLong = false := by simpa using htooLong
    have hbytes : line.bytes ≠ [0x2E] := by
      intro hdot
      exact hline (by cases line; simp_all [terminator])
    rw [if_neg htooLong]
    unfold handleLine
    simp only [Act.wp_bind, Act.wp_get, Act.wp_ite, hdata, if_true, if_neg hbytes]
    refine Prog.Follows.mono ?_ (hwhole hnot)
    rintro s' r x' ⟨rfl, hin, hQ⟩
    simp only [Act.wp_pure, hin]
    exact hQ

/-- The reply to data that was given up. -/
def droppedReply (s : SmtpSession) : Reply :=
  if s.dataTooLarge then reply 552 "message too large" else reply 451 "temporary queue full"

/-- The end of the data: it is refused if it was given up, and finished otherwise. -/
theorem swp_serveTurn_terminator {Q : SmtpSession → LineEvent × Bool → SessionLog → Prop}
    {unread : Bytes} (h : Envelope P s) (hdata : s.inData = true)
    (hdropped : s.dataTooLarge = true ∨ s.dataQueueFull = true →
      ∀ bytes, Q (s.cleared bytes) (⟨true, false, some s.droppedReply, unread⟩, true) x)
    (hfinished : s.dataTooLarge = false → s.dataQueueFull = false →
      ∀ bytes r x', Finished P s x r x' →
        Q (s.cleared bytes) (⟨true, false, some r, unread⟩, true) x') :
    swp (serveTurn P terminator unread) Q s x := by
  unfold serveTurn serveLine handleLine
  simp only [Act.wp_bind, Act.wp_get, Act.wp_ite, Act.wp_pure, hdata, terminator, if_true,
    Bool.false_eq_true, if_false]
  by_cases hlarge : s.dataTooLarge
  · have hreply : s.droppedReply = reply 552 "message too large" := if_pos hlarge
    rw [hreply] at hdropped
    rw [if_pos hlarge]
    exact swp_clearAndReply _ (hdropped (.inl hlarge))
  · have hreply : s.droppedReply = reply 451 "temporary queue full" := if_neg hlarge
    rw [hreply] at hdropped
    rw [if_neg hlarge]
    by_cases hfull : s.dataQueueFull
    · rw [if_pos hfull]
      exact swp_clearAndReply _ (hdropped (.inr hfull))
    · rw [if_neg hfull]
      rw [Bool.not_eq_true] at hlarge hfull
      obtain ⟨hactive, hlength, hheld, hroom⟩ := h.kept hdata hlarge hfull
      refine swp_finishData hactive (by omega) (by rw [← h.limit]; omega) ?_
      intro bytes r x' hdone
      have hgoesOn : (r.code != 221) = true := by
        rcases hdone.settles with hcode | hcode <;> simp [hcode]
      simp only [Act.wp_pure, hgoesOn]
      exact hfinished hlarge hfull bytes r x' hdone

end SmtpSession

end RapidInbox
