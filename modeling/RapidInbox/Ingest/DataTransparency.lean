import RapidInbox.Ingest.DataEnd

/-!
# A message comes through as it was sent

A client sends the lines of a message dot-stuffed and ended by `CRLF`, then a dot.  The queued message
is these lines again, or nothing is queued and the reply says so; either way the next line is a
command.
-/

namespace RapidInbox

open Conc

/-! ## The message on the wire -/

/-- A line that starts with a dot is sent with one more. -/
def stuffed (line : Bytes) : Bytes := if line.head? = some 0x2E then 0x2E :: line else line

/-- The message as it was written. -/
def messageContent (lines : List Bytes) : Bytes :=
  lines.flatMap fun line => line ++ [carriageReturn, lineFeed]

/-- The message as it is sent, with its end and what the client sends behind it. -/
def sentMessage (lines : List Bytes) (rest : Bytes) : Bytes :=
  lines.flatMap (fun line => stuffed line ++ [carriageReturn, lineFeed]) ++
    (0x2E :: carriageReturn :: lineFeed :: rest)

/-- The lines of a sent message, each with what is behind it. -/
def sentLines : List Bytes → Bytes → List (Bytes × Bytes)
  | [], rest => [([0x2E, carriageReturn], rest)]
  | line :: lines, rest =>
    (stuffed line ++ [carriageReturn], sentMessage lines rest) :: sentLines lines rest

/-- The line with its stuffing and its carriage return is not too long. -/
def FitsLine (maxLength : Nat) (line : Bytes) : Prop := (stuffed line).length + 1 ≤ maxLength

theorem lineContent_stuffed (line : Bytes) : SmtpSession.lineContent (stuffed line) = line := by
  unfold SmtpSession.lineContent stuffed SmtpSession.contentOffset
  by_cases h : line.head? = some 0x2E
  · simp [h]
  · simp [h]

theorem stuffed_ne_dot (line : Bytes) : stuffed line ≠ [0x2E] := by
  unfold stuffed
  by_cases h : line.head? = some 0x2E
  · rw [if_pos h]
    intro heq
    rw [List.cons.injEq] at heq
    rw [heq.2] at h
    cases h
  · rw [if_neg h]
    rintro rfl
    exact h rfl

theorem not_mem_stuffed {line : Bytes} (h : lineFeed ∉ line) : lineFeed ∉ stuffed line := by
  unfold stuffed
  split
  · rw [List.mem_cons, not_or]
    exact ⟨by decide, h⟩
  · exact h

/-- The stream is cut into the lines that were sent, and what is behind them. -/
theorem ended_sentMessage {lines : List Bytes} (h : ∀ line ∈ lines, lineFeed ∉ line) (rest : Bytes) :
    Lines.ended lineFeed (sentMessage lines rest) =
      sentLines lines rest ++ Lines.ended lineFeed rest := by
  induction lines with
  | nil =>
    have hdot : lineFeed ∉ [0x2E, carriageReturn] := by decide
    exact Lines.ended_line hdot rest
  | cons line lines ih =>
    obtain ⟨hline, hlines⟩ := List.forall_mem_cons.mp h
    have hraw : lineFeed ∉ stuffed line ++ [carriageReturn] := by
      rw [List.mem_append, not_or]
      exact ⟨not_mem_stuffed hline, by decide⟩
    have hcut : sentMessage (line :: lines) rest =
        (stuffed line ++ [carriageReturn]) ++ lineFeed :: sentMessage lines rest := by
      simp [sentMessage]
    rw [hcut, Lines.ended_line hraw, ih hlines, sentLines, List.cons_append]

namespace SmtpSession

variable {P : Platform} {maxLength : Nat} {s₀ s : SmtpSession} {x : SessionLog}

theorem clientLine_sent (maxLength : Nat) (line : Bytes) :
    (FitsLine maxLength line →
      clientLine maxLength (stuffed line ++ [carriageReturn]) = ⟨stuffed line, false⟩) ∧
      (¬FitsLine maxLength line →
        (clientLine maxLength (stuffed line ++ [carriageReturn])).tooLong = true) := by
  unfold clientLine FitsLine
  constructor
  · intro h
    have hlength : (stuffed line ++ [carriageReturn]).length ≤ maxLength := by
      rw [List.length_append, List.length_singleton]
      exact h
    rw [List.take_of_length_le hlength, stripCarriageReturn, List.getLast?_concat, if_pos rfl,
      List.dropLast_concat, decide_eq_false (Nat.not_lt_of_le hlength)]
  · intro h
    simp only [List.length_append, List.length_singleton, decide_eq_true_eq]
    omega

theorem clientLine_sent_ne_terminator (hmax : 2 ≤ maxLength) (line : Bytes) :
    clientLine maxLength (stuffed line ++ [carriageReturn]) ≠ terminator := by
  intro heq
  rcases (clientLine_eq_terminator hmax).mp heq with hdot | hdot
  · have := congrArg List.getLast? hdot
    rw [List.getLast?_concat] at this
    exact absurd this (by decide)
  · have happend : stuffed line ++ [carriageReturn] = [0x2E] ++ [carriageReturn] := hdot
    exact stuffed_ne_dot line (List.append_cancel_right happend)

/-! ## The invariant of the data -/

/-- What the job of a message is made from, but for the data. -/
structure SameTransaction (s₀ s : SmtpSession) : Prop where
  limit : s.effectiveMessageSizeBytes = s₀.effectiveMessageSizeBytes
  recipients : s.recipients = s₀.recipients
  mailFrom : s.mailFrom = s₀.mailFrom
  sessionId : s.sessionId = s₀.sessionId
  remoteIp : s.remoteIp = s₀.remoteIp
  durableAck : s.durableAck = s₀.durableAck
  hasDurableWriter : s.hasDurableWriter = s₀.hasDurableWriter

/-- What a session keeps of the lines it has read since `DATA`. -/
structure DataKept (P : Platform) (maxLength : Nat) (s₀ : SmtpSession) (lines : List Bytes)
    (s : SmtpSession) (x : SessionLog) : Prop where
  envelope : Envelope P s
  inData : s.inData = true
  same : SameTransaction s₀ s
  pushed : x.pushed = []
  large : s.dataTooLarge = true → (∃ line ∈ lines, ¬FitsLine maxLength line) ∨
    s₀.effectiveMessageSizeBytes < (messageContent lines).length
  small : s.dataTooLarge = false → (∀ line ∈ lines, FitsLine maxLength line) ∧
    s.dataOctetsReceived = (messageContent lines).length ∧
    (messageContent lines).length ≤ s₀.effectiveMessageSizeBytes
  refused : s.dataQueueFull = x.growthFailed
  data : s.dataTooLarge = false → s.dataQueueFull = false → s.data = messageContent lines

/-- The job is made from the transaction and the data. -/
theorem SameTransaction.makeJob_eq (h : SameTransaction s₀ s) {content : Bytes}
    (hdata : s.data = content) (messageId : Text) (receivedAt : Timestamp) :
    makeJob P s messageId receivedAt = makeJob P { s₀ with data := content } messageId receivedAt := by
  unfold makeJob
  rw [h.recipients, h.mailFrom, h.sessionId, h.remoteIp, hdata]

theorem messageContent_append (lines : List Bytes) (line : Bytes) :
    messageContent (lines ++ [line]) =
      messageContent lines ++ line ++ [carriageReturn, lineFeed] := by
  simp [messageContent]

theorem DataKept.start (h : Envelope P s) (hawaits : s.AwaitsData) : DataKept P maxLength s [] s {} where
  envelope := h
  inData := hawaits.inData
  same := ⟨rfl, rfl, rfl, rfl, rfl, rfl, rfl⟩
  pushed := rfl
  large hlarge := by
    rw [hawaits.tooLarge] at hlarge
    cases hlarge
  small _ := ⟨fun _ hl => absurd hl List.not_mem_nil, hawaits.octets, Nat.zero_le _⟩
  refused := hawaits.queueFull
  data hlarge hfull := by
    obtain ⟨-, hlength, -, -⟩ := h.kept hawaits.inData hlarge hfull
    rw [hawaits.octets] at hlength
    exact List.eq_nil_of_length_eq_zero hlength

theorem length_messageContent_append (lines : List Bytes) (line : Bytes) :
    (messageContent (lines ++ [line])).length = (messageContent lines).length + (line.length + 2) := by
  rw [messageContent_append, List.length_append, List.length_append]
  rfl

/-- Data that was given up stays given up. -/
theorem DataKept.large_append {done : List Bytes} (h : DataKept P maxLength s₀ done s x)
    (hlarge : s.dataTooLarge = true) (line : Bytes) :
    (∃ line' ∈ done ++ [line], ¬FitsLine maxLength line') ∨
      s₀.effectiveMessageSizeBytes < (messageContent (done ++ [line])).length := by
  rcases h.large hlarge with ⟨line', hmem, hnot⟩ | hlt
  · exact .inl ⟨line', List.mem_append_left _ hmem, hnot⟩
  · rw [length_messageContent_append]
    exact .inr (by omega)

/-- A line that fits is kept, unless the message is too large or the queue has no room. -/
theorem DataKept.handleDataLine {done : List Bytes} (h : DataKept P maxLength s₀ done s x)
    {line : Bytes} (hfits : FitsLine maxLength line) :
    swp (SmtpSession.handleDataLine (stuffed line)) (fun s' r x' =>
      r = none ∧ s'.inData = true ∧ DataKept P maxLength s₀ (done ++ [line]) s' x') s x := by
  have hall (hsmall : s.dataTooLarge = false) : ∀ line' ∈ done ++ [line], FitsLine maxLength line' := by
    intro line' hmem
    rcases List.mem_append.mp hmem with hmem | hmem
    · exact (h.small hsmall).1 line' hmem
    · rw [List.mem_singleton.mp hmem]
      exact hfits
  have hlength := length_messageContent_append done line
  have hkept : swp (SmtpSession.handleDataLine (stuffed line)) (fun s' _ x' =>
      Envelope P s' → DataKept P maxLength s₀ (done ++ [line]) s' x') s x := by
    refine swp_handleDataLine h.envelope.effective_lt ?_ ?_ ?_ ?_ ?_ ?_
    · intro hsmall hopen
      obtain ⟨hactive, -, -, -⟩ := h.envelope.kept h.inData hsmall hopen
      exact ⟨hactive, h.envelope.reserved hactive⟩
    · intro hlarge _
      exact { h with
        large := fun _ => h.large_append hlarge line
        small := fun hsmall => by
          rw [hlarge] at hsmall
          cases hsmall
        data := fun hsmall => by
          rw [hlarge] at hsmall
          cases hsmall }
    · intro hsmall hover bytes henvelope
      obtain ⟨-, hoctets, -⟩ := h.small hsmall
      rw [lineContent_stuffed, hoctets, h.same.limit, ← hlength] at hover
      exact { h with
        envelope := henvelope
        same := { h.same with }
        large := fun _ => .inr hover
        small := fun hnot => nomatch hnot
        data := fun hnot => nomatch hnot }
    · intro hsmall hfull hroom henvelope
      obtain ⟨-, hoctets, -⟩ := h.small hsmall
      rw [lineContent_stuffed, hoctets, ← hlength] at hroom henvelope ⊢
      exact { h with
        envelope := henvelope
        same := { h.same with }
        large := fun hlarge => h.large_append hlarge line
        small := fun _ => ⟨hall hsmall, rfl, h.same.limit ▸ hroom⟩
        data := fun _ hopen => by
          dsimp only at hopen
          rw [hfull] at hopen
          cases hopen }
    · intro hsmall hopen hroom bytes henvelope
      obtain ⟨-, hoctets, -⟩ := h.small hsmall
      rw [lineContent_stuffed, hoctets, ← hlength] at hroom henvelope ⊢
      exact { h with
        envelope := henvelope
        same := { h.same with }
        large := fun hlarge => h.large_append hlarge line
        small := fun _ => ⟨hall hsmall, rfl, h.same.limit ▸ hroom⟩
        refused := rfl
        data := fun _ hnot => nomatch hnot }
    · intro hsmall hopen hroom bytes _ _ henvelope
      obtain ⟨-, hoctets, -⟩ := h.small hsmall
      rw [lineContent_stuffed, hoctets, ← hlength] at hroom henvelope ⊢
      exact { h with
        envelope := henvelope
        same := { h.same with }
        large := fun hlarge => h.large_append hlarge line
        small := fun _ => ⟨hall hsmall, rfl, h.same.limit ▸ hroom⟩
        data := fun _ _ => by
          rw [messageContent_append, h.data hsmall hopen]
          rfl }
  refine Prog.Follows.mono ?_ ((h.envelope.handleDataLine_inData (stuffed line) h.inData).and hkept)
  rintro s' r x' ⟨⟨hr, hin, henvelope, -⟩, hnext⟩
  exact ⟨hr, hin, hnext henvelope⟩

/-- One line of the message. -/
theorem DataKept.serveTurn {done : List Bytes} (h : DataKept P maxLength s₀ done s x)
    (hmax : 2 ≤ maxLength) (line unread : Bytes)
    {Q : SmtpSession → LineEvent × Bool → SessionLog → Prop}
    (hQ : ∀ s' x', DataKept P maxLength s₀ (done ++ [line]) s' x' →
      Q s' (⟨true, true, none, unread⟩, true) x') :
    swp (SmtpSession.serveTurn P (clientLine maxLength (stuffed line ++ [carriageReturn])) unread)
      Q s x := by
  obtain ⟨hshort, hlong⟩ := clientLine_sent maxLength line
  refine swp_serveTurn_data h.inData (clientLine_sent_ne_terminator hmax line) ?_ ?_
  · intro htooLong bytes
    have hnot : ¬FitsLine maxLength line := by
      intro hfits
      rw [hshort hfits] at htooLong
      cases htooLong
    exact hQ _ _ { h with
      envelope := (h.envelope.dropped bytes).1
      same := { h.same with }
      large := fun _ => .inl ⟨line, List.mem_append_right _ (List.mem_singleton.mpr rfl), hnot⟩
      small := fun hsmall => nomatch hsmall
      data := fun hsmall => nomatch hsmall }
  · intro hwhole
    have hfits : FitsLine maxLength line := by
      by_contra hnot
      rw [hlong hnot] at hwhole
      cases hwhole
    rw [hshort hfits]
    refine Prog.Follows.mono ?_ (h.handleDataLine hfits)
    rintro s' r x' ⟨hr, hin, hnext⟩
    exact ⟨hr, hin, hQ s' x' hnext⟩

/-! ## The end of the message -/

/-- What the reply to a message says of it. -/
structure Verdict (P : Platform) (maxLength : Nat) (s₀ : SmtpSession) (lines : List Bytes) (r : Reply)
    (x : SessionLog) : Prop where
  /-- Every line fits, the message is within its limit and no step failed: it is queued as it was
      written. -/
  whole : (∀ line ∈ lines, FitsLine maxLength line) →
    (messageContent lines).length ≤ s₀.effectiveMessageSizeBytes →
    x.growthFailed = false → x.failed = false →
    (s₀.durableAck = true → s₀.hasDurableWriter = true ∧
      ManifestFits (makeJob P { s₀ with data := messageContent lines } x.messageId x.receivedAt)) →
    ∃ job, x.pushed = [job] ∧ job.rawContent = messageContent lines ∧ r = queuedReply job.messageId
  /-- Otherwise it is refused. -/
  refused : (∃ line ∈ lines, ¬FitsLine maxLength line) ∨
      s₀.effectiveMessageSizeBytes < (messageContent lines).length ∨ x.growthFailed = true →
    (r.code = 552 ∨ r.code = 451) ∧ x.pushed = []

/-- The data was given up. -/
theorem DataKept.verdict_dropped {lines : List Bytes} (h : DataKept P maxLength s₀ lines s x)
    (hdropped : s.dataTooLarge = true ∨ s.dataQueueFull = true) :
    Verdict P maxLength s₀ lines s.droppedReply x where
  whole hfits hroom hgrowth _ _ := by
    exfalso
    cases hlarge : s.dataTooLarge with
    | true =>
      rcases h.large hlarge with ⟨line, hmem, hnot⟩ | hlt
      · exact hnot (hfits line hmem)
      · omega
    | false =>
      rcases hdropped with hlarge' | hfull
      · rw [hlarge] at hlarge'
        cases hlarge'
      · rw [h.refused, hgrowth] at hfull
        cases hfull
  refused _ := by
    refine ⟨?_, h.pushed⟩
    unfold droppedReply
    split
    · exact .inl rfl
    · exact .inr rfl

/-- The data was kept. -/
theorem DataKept.verdict_finished {lines : List Bytes} {r : Reply} {x' : SessionLog}
    (h : DataKept P maxLength s₀ lines s x) (hlarge : s.dataTooLarge = false)
    (hfull : s.dataQueueFull = false) (hdone : Finished P s x r x') :
    Verdict P maxLength s₀ lines r x' where
  whole _ _ _ hok hdurable := by
    have hjob := h.same.makeJob_eq (P := P) (h.data hlarge hfull) x'.messageId x'.receivedAt
    rw [← hjob, ← h.same.durableAck, ← h.same.hasDurableWriter] at hdurable
    obtain ⟨hreply, hpushed⟩ := hdone.queued hok hdurable
    rw [h.pushed, List.nil_append] at hpushed
    exact ⟨_, hpushed, h.data hlarge hfull, hreply⟩
  refused hcause := by
    exfalso
    obtain ⟨hfits, -, hroom⟩ := h.small hlarge
    rcases hcause with ⟨line, hmem, hnot⟩ | hlt | hgrowth
    · exact hnot (hfits line hmem)
    · omega
    · rw [hdone.growthFailed, ← h.refused, hfull] at hgrowth
      cases hgrowth

/-- What the loop has done with the lines of a message. -/
structure MessageServed (P : Platform) (maxLength : Nat) (s₀ : SmtpSession)
    (lines more : List Bytes) (rest : Bytes) (s' : SmtpSession) (r : List LineEvent × Bool)
    (x : SessionLog) : Prop where
  goesOn : r.2 = true
  inData : s'.inData = false
  count : r.1.length = more.length + 1
  asData : ∀ e ∈ r.1, e.asData = true
  verdict : ∃ reply, r.1.getLast? = some ⟨true, false, some reply, rest⟩ ∧
    Verdict P maxLength s₀ lines reply x

theorem DataKept.serveLines {done : List Bytes} (more : List Bytes)
    (h : DataKept P maxLength s₀ done s x) (hmax : 2 ≤ maxLength) (rest : Bytes) :
    swp (SmtpSession.serveLines P maxLength (sentLines more rest))
      (MessageServed P maxLength s₀ (done ++ more) more rest) s x := by
  induction more generalizing done s x with
  | nil =>
    have hdot : clientLine maxLength [0x2E, carriageReturn] = terminator :=
      (clientLine_eq_terminator hmax).mpr (.inr rfl)
    have hserved {bytes : Nat} {reply : Reply} {x' : SessionLog}
        (hverdict : Verdict P maxLength s₀ done reply x') :
        MessageServed P maxLength s₀ (done ++ []) [] rest (s.cleared bytes)
          ([⟨true, false, some reply, rest⟩], true) x' :=
      { goesOn := rfl
        inData := rfl
        count := rfl
        asData := fun e he => by rw [List.mem_singleton.mp he]
        verdict := ⟨reply, rfl, by rwa [List.append_nil]⟩ }
    simp only [sentLines, SmtpSession.serveLines, Act.wp_bind, hdot]
    refine swp_serveTurn_terminator h.envelope h.inData ?_ ?_
    · exact fun hdropped bytes => hserved (h.verdict_dropped hdropped)
    · exact fun hlarge hfull bytes r x' hdone => hserved (h.verdict_finished hlarge hfull hdone)
  | cons line more ih =>
    simp only [sentLines, SmtpSession.serveLines, Act.wp_bind]
    refine h.serveTurn hmax line _ ?_
    intro s' x' hnext
    rw [if_pos rfl]
    simp only [Act.wp_bind, Act.wp_pure]
    refine Prog.Follows.mono ?_ (ih hnext)
    rintro s'' ⟨events, goesOn⟩ x'' hserved
    obtain ⟨reply, hlast, hverdict⟩ := hserved.verdict
    rw [List.append_assoc, List.singleton_append] at hverdict
    refine ⟨hserved.goesOn, hserved.inData, congrArg (· + 1) hserved.count, ?_, reply, ?_, hverdict⟩
    · intro e he
      rcases List.mem_cons.mp he with rfl | he
      · rfl
      · exact hserved.asData e he
    · rw [List.getLast?_cons, hlast]
      rfl

/-- The lines of a message are data and decide what is queued and answered, and exactly what is sent
    behind its end is handled as commands, for every cut of the stream. -/
theorem message_transparent (h : Envelope P s) (hawaits : s.AwaitsData) (L : LineLimit)
    (lines : List Bytes) (hlines : ∀ line ∈ lines, lineFeed ∉ line) (rest : Bytes)
    (reader : ClientLineReader) (hstream : reader.stream = sentMessage lines rest) :
    serve P L.length reader =
        (SmtpSession.serveLines P L.length (sentLines lines rest) >>= fun (events, goesOn) =>
          if goesOn then
            SmtpSession.serveLines P L.length (Lines.ended lineFeed rest) >>= fun (events', _) =>
              pure (events ++ events')
          else pure events) ∧
      swp (SmtpSession.serveLines P L.length (sentLines lines rest))
        (MessageServed P L.length s lines lines rest) s {} := by
  constructor
  · rw [serve_eq, hstream, ended_sentMessage hlines, serveLines_append, LawfulMonad.bind_assoc]
    refine congrArg _ (funext fun p => ?_)
    obtain ⟨events, goesOn⟩ := p
    cases goesOn
    · rfl
    · simp
  · exact (DataKept.start h hawaits).serveLines lines (Nat.le_trans (by decide) L.low) rest

/-- Two lines, one of them starting with a dot and the other ending in a carriage return. -/
theorem message_transparent_dots : ∃ s : SmtpSession, s.AwaitsData ∧
    swp (SmtpSession.serveLines asciiPlatform 512
        (sentLines [Json.ascii ".a".toList, Json.ascii "b\r".toList] (Json.ascii "NOOP\r\n".toList)))
      (MessageServed asciiPlatform 512 s [Json.ascii ".a".toList, Json.ascii "b\r".toList]
        [Json.ascii ".a".toList, Json.ascii "b\r".toList] (Json.ascii "NOOP\r\n".toList)) s {} := by
  obtain ⟨s, henvelope, hawaits⟩ := exists_awaitsData
  have hserved := message_transparent henvelope hawaits ⟨512, by decide, by decide⟩
    [Json.ascii ".a".toList, Json.ascii "b\r".toList] (by decide)
    (Json.ascii "NOOP\r\n".toList) ⟨Json.ascii "..a\r".toList,
      [Json.ascii "\nb\r\r\n.".toList, Json.ascii "\r\nNOOP\r\n".toList]⟩ (by decide)
  exact ⟨s, hawaits, hserved.2⟩

end SmtpSession

end RapidInbox
