import RapidInbox.Ingest.Connection

/-!
# Where message data ends

The reply to `DATA` announces `CRLF.CRLF`.  The line reader drops the carriage return before a line
feed if there is one, so what the session takes for the end is the first line that is a dot with or
without it.
-/

namespace RapidInbox

open Conc

/-! ## The announced end -/

/-- What is behind the first occurrence of a pattern. -/
def afterFirst (pattern : Bytes) : Bytes → Option Bytes
  | [] => none
  | b :: bs =>
    if pattern.isPrefixOf (b :: bs) then some ((b :: bs).drop pattern.length)
    else afterFirst pattern bs

/-- `<CR><LF>.<CR><LF>`. -/
def endOfData : Bytes := [carriageReturn, lineFeed, 0x2E, carriageReturn, lineFeed]

/-- What the client has sent behind the announced end; `CRLF` has ended the `DATA` line. -/
def announcedEnd? (stream : Bytes) : Option Bytes :=
  afterFirst endOfData (carriageReturn :: lineFeed :: stream)

/-- What the client has sent behind the line at which the session has left its data. -/
def dataEnd? (events : List LineEvent) : Option Bytes :=
  (events.find? fun e => !e.inData).map LineEvent.unread

/-- A dot, with or without a carriage return. -/
def DotLine (raw : Bytes) : Prop := raw = [0x2E] ∨ raw = [0x2E, carriageReturn]

instance (raw : Bytes) : Decidable (DotLine raw) := inferInstanceAs (Decidable (_ ∨ _))

/-- The first line that is a dot has its carriage return, and so has the line before it. -/
def EndsAnnounced (stream : Bytes) : Prop :=
  ∀ before raw after, (Lines.ended lineFeed stream).map Prod.fst = before ++ raw :: after →
    DotLine raw → (∀ l ∈ before, ¬DotLine l) →
    raw = [0x2E, carriageReturn] ∧ ∀ l ∈ before.getLast?, l.getLast? = some carriageReturn

/-! ## The announced end, by lines -/

/-- The announced end among the lines behind a line. -/
def announcedLine? : Bytes → List (Bytes × Bytes) → Option Bytes
  | _, [] => none
  | previous, (raw, unread) :: lines =>
    if previous.getLast? = some carriageReturn ∧ raw = [0x2E, carriageReturn] then some unread
    else announcedLine? raw lines

theorem afterFirst_skip {b : UInt8} {bs : Bytes} (h : ¬endOfData.isPrefixOf (b :: bs)) :
    afterFirst endOfData (b :: bs) = afterFirst endOfData bs := by
  rw [afterFirst, if_neg h]

theorem afterFirst_line {previous stream : Bytes} (h : lineFeed ∉ previous) :
    afterFirst endOfData (previous ++ lineFeed :: stream) =
      if previous.getLast? = some carriageReturn ∧
          [0x2E, carriageReturn, lineFeed] <+: stream then some (stream.drop 3)
      else afterFirst endOfData stream := by
  have hskip : afterFirst endOfData (lineFeed :: stream) = afterFirst endOfData stream :=
    afterFirst_skip (by simp [endOfData, List.isPrefixOf, carriageReturn, lineFeed])
  induction previous with
  | nil =>
    rw [List.nil_append, hskip, if_neg]
    rintro ⟨hnone, -⟩
    cases hnone
  | cons a previous ih =>
    rw [List.mem_cons, not_or] at h
    cases previous with
    | nil =>
      by_cases ha : a = carriageReturn ∧ [0x2E, carriageReturn, lineFeed] <+: stream
      · obtain ⟨rfl, rest, rfl⟩ := ha
        simp [afterFirst, endOfData, List.isPrefixOf]
      · have hno : ¬endOfData.isPrefixOf (a :: lineFeed :: stream) := by
          rw [List.isPrefixOf_iff_prefix]
          rintro ⟨rest, heq⟩
          simp only [endOfData, List.cons_append, List.cons.injEq, List.nil_append] at heq
          obtain ⟨rfl, -, hstream⟩ := heq
          exact ha ⟨rfl, rest, hstream⟩
        rw [List.singleton_append, afterFirst_skip hno, hskip, if_neg]
        rintro ⟨hlast, hprefix⟩
        exact ha ⟨by simpa using hlast, hprefix⟩
    | cons b previous =>
      have hb : b ≠ lineFeed := fun heq => h.2 (heq ▸ List.mem_cons_self)
      have hno : ¬endOfData.isPrefixOf (a :: b :: previous ++ lineFeed :: stream) := by
        simp only [endOfData, List.cons_append, List.isPrefixOf, Bool.and_eq_true, beq_iff_eq]
        rintro ⟨-, heq, -⟩
        exact hb heq.symm
      rw [List.cons_append, List.cons_append, ← List.cons_append] at hno
      rw [List.cons_append, afterFirst_skip hno, ih h.2, List.getLast?_cons_cons]

theorem afterFirst_eq_none {stream : Bytes} (h : lineFeed ∉ stream) :
    afterFirst endOfData stream = none := by
  induction stream with
  | nil => rfl
  | cons b stream ih =>
    rw [List.mem_cons, not_or] at h
    rw [afterFirst_skip, ih h.2]
    rw [List.isPrefixOf_iff_prefix]
    rintro ⟨rest, heq⟩
    have hmem : lineFeed ∈ b :: stream := by
      rw [← heq]
      simp [endOfData]
    exact (List.mem_cons.mp hmem).elim h.1 h.2

/-- The pattern ends a line exactly when the line is the dot. -/
theorem dot_line {raw rest : Bytes} (h : lineFeed ∉ raw) :
    [0x2E, carriageReturn, lineFeed] <+: raw ++ lineFeed :: rest ↔ raw = [0x2E, carriageReturn] := by
  constructor
  · rintro ⟨tail, heq⟩
    have hsplit := congrArg (Lines.split? lineFeed) heq
    rw [Lines.split?_line h] at hsplit
    have hdot : lineFeed ∉ [0x2E, carriageReturn] := by decide
    have hpattern : [0x2E, carriageReturn, lineFeed] ++ tail =
        [0x2E, carriageReturn] ++ lineFeed :: tail := rfl
    rw [hpattern, Lines.split?_line hdot] at hsplit
    cases hsplit
    rfl
  · rintro rfl
    exact ⟨rest, rfl⟩

theorem afterFirst_lines {previous stream : Bytes} (h : lineFeed ∉ previous) :
    afterFirst endOfData (previous ++ lineFeed :: stream) =
      announcedLine? previous (Lines.ended lineFeed stream) := by
  induction hn : stream.length using Nat.strongRecOn generalizing previous stream with
  | _ n ih =>
    rw [afterFirst_line h, Lines.ended_eq]
    cases hsplit : Lines.split? lineFeed stream with
    | none =>
      have hno := Lines.split?_eq_none.mp hsplit
      rw [afterFirst_eq_none hno, if_neg, announcedLine?]
      rintro ⟨-, hpre⟩
      exact hno (hpre.subset (by simp))
    | some p =>
      obtain ⟨raw, rest⟩ := p
      obtain ⟨hraw, rfl⟩ := Lines.split?_eq_some.mp hsplit
      have hlt : rest.length < n := by
        rw [← hn, List.length_append, List.length_cons]
        omega
      simp only [dot_line hraw]
      rw [ih rest.length hlt hraw rfl, announcedLine?]
      by_cases hhere : previous.getLast? = some carriageReturn ∧ raw = [0x2E, carriageReturn]
      · rw [if_pos hhere, if_pos hhere, hhere.2]
        rfl
      · rw [if_neg hhere, if_neg hhere]

theorem announcedEnd?_eq (stream : Bytes) :
    announcedEnd? stream = announcedLine? [carriageReturn] (Lines.ended lineFeed stream) := by
  have hcarriage : lineFeed ∉ [carriageReturn] := by decide
  exact afterFirst_lines hcarriage

/-! ## The end the session takes -/

/-- What is behind the first line that is a dot. -/
def dotEnd? (lines : List (Bytes × Bytes)) : Option Bytes :=
  (lines.find? fun (raw, _) => DotLine raw).map Prod.snd

/-- The announced end is behind the first line. -/
theorem announcedLine?_length {previous stream unread : Bytes}
    (h : announcedLine? previous (Lines.ended lineFeed stream) = some unread) :
    unread.length < stream.length := by
  induction hn : stream.length using Nat.strongRecOn generalizing previous stream with
  | _ n ih =>
    rw [Lines.ended_eq] at h
    cases hsplit : Lines.split? lineFeed stream with
    | none =>
      rw [hsplit] at h
      cases h
    | some p =>
      obtain ⟨raw, rest⟩ := p
      obtain ⟨-, rfl⟩ := Lines.split?_eq_some.mp hsplit
      rw [hsplit, announcedLine?] at h
      have hlt : rest.length < n := by
        rw [← hn, List.length_append, List.length_cons]
        omega
      split at h
      · cases h
        exact hlt
      · exact Nat.lt_trans (ih rest.length hlt h rfl) hlt

/-- The two ends agree exactly when the first dot has its carriage return and the line before it too. -/
theorem dotEnd?_eq_iff {previous stream : Bytes} :
    dotEnd? (Lines.ended lineFeed stream) =
        announcedLine? previous (Lines.ended lineFeed stream) ↔
      ∀ before raw after, (Lines.ended lineFeed stream).map Prod.fst = before ++ raw :: after →
        DotLine raw → (∀ l ∈ before, ¬DotLine l) →
        raw = [0x2E, carriageReturn] ∧
          (before.getLast?.getD previous).getLast? = some carriageReturn := by
  induction hn : stream.length using Nat.strongRecOn generalizing previous stream with
  | _ n ih =>
    rw [Lines.ended_eq]
    cases hsplit : Lines.split? lineFeed stream with
    | none =>
      refine ⟨fun _ before raw after hlines => ?_, fun _ => rfl⟩
      exact absurd hlines (by simp)
    | some p =>
      obtain ⟨raw, rest⟩ := p
      obtain ⟨-, hstream⟩ := Lines.split?_eq_some.mp hsplit
      have hlt : rest.length < n := by
        rw [← hn, hstream, List.length_append, List.length_cons]
        omega
      dsimp only
      by_cases hdot : DotLine raw
      · have hfirst : dotEnd? ((raw, rest) :: Lines.ended lineFeed rest) = some rest := by
          simp [dotEnd?, hdot]
        rw [hfirst]
        constructor
        · intro heq before raw' after hlines hdot' hbefore
          cases before with
          | nil =>
            rw [List.map_cons, List.nil_append, List.cons.injEq] at hlines
            obtain ⟨rfl, -⟩ := hlines
            rw [announcedLine?] at heq
            split at heq
            · rename_i hhere
              exact ⟨hhere.2, hhere.1⟩
            · exact absurd (announcedLine?_length heq.symm) (Nat.lt_irrefl _)
          | cons l before =>
            rw [List.map_cons, List.cons_append, List.cons.injEq] at hlines
            exact absurd (hlines.1 ▸ hdot) (hbefore l List.mem_cons_self)
        · intro hall
          obtain ⟨hraw, hprevious⟩ := hall [] raw _ rfl hdot fun _ hl => absurd hl List.not_mem_nil
          rw [announcedLine?, if_pos ⟨hprevious, hraw⟩]
      · have hskip : dotEnd? ((raw, rest) :: Lines.ended lineFeed rest) =
            dotEnd? (Lines.ended lineFeed rest) := by
          simp [dotEnd?, hdot]
        have hnot : ¬(previous.getLast? = some carriageReturn ∧ raw = [0x2E, carriageReturn]) :=
          fun hhere => hdot (.inr hhere.2)
        rw [hskip, announcedLine?, if_neg hnot, ih rest.length hlt rfl]
        constructor
        · intro hall before raw' after hlines hdot' hbefore
          cases before with
          | nil =>
            rw [List.map_cons, List.nil_append, List.cons.injEq] at hlines
            have hraw : raw = raw' := hlines.1
            exact absurd (hraw ▸ hdot') hdot
          | cons l before =>
            rw [List.map_cons, List.cons_append, List.cons.injEq] at hlines
            obtain ⟨rfl, hlines⟩ := hlines
            have hrest := hall before raw' after hlines hdot'
              fun l hl => hbefore l (List.mem_cons_of_mem _ hl)
            rw [List.getLast?_cons, Option.getD_some]
            exact hrest
        · intro hall before raw' after hlines hdot' hbefore
          have hlonger : ((raw, rest) :: Lines.ended lineFeed rest).map Prod.fst =
              (raw :: before) ++ raw' :: after := by
            rw [List.map_cons, hlines, List.cons_append]
          have hrest := hall (raw :: before) raw' after hlonger hdot' ?_
          · rw [List.getLast?_cons, Option.getD_some] at hrest
            exact hrest
          · intro l hl
            rcases List.mem_cons.mp hl with rfl | hl
            · exact hdot
            · exact hbefore l hl

theorem endsAnnounced_iff {stream : Bytes} :
    dotEnd? (Lines.ended lineFeed stream) = announcedEnd? stream ↔ EndsAnnounced stream := by
  rw [announcedEnd?_eq, dotEnd?_eq_iff]
  have hlast (before : List Bytes) :
      (before.getLast?.getD [carriageReturn]).getLast? = some carriageReturn ↔
        ∀ l ∈ before.getLast?, l.getLast? = some carriageReturn := by
    cases before.getLast? <;> simp
  simp only [hlast]
  exact Iff.rfl

instance (stream : Bytes) : Decidable (EndsAnnounced stream) :=
  decidable_of_iff _ endsAnnounced_iff

namespace SmtpSession

variable {P : Platform} {s : SmtpSession} {x : SessionLog} {maxLength : Nat}

theorem stripCarriageReturn_eq_dot {raw : Bytes} : stripCarriageReturn raw = [0x2E] ↔ DotLine raw := by
  unfold stripCarriageReturn DotLine
  by_cases hlast : raw.getLast? = some carriageReturn
  · obtain ⟨front, rfl⟩ := List.getLast?_eq_some_iff.mp hlast
    rw [if_pos hlast, List.dropLast_concat]
    constructor
    · rintro rfl
      exact .inr rfl
    · rintro (hdot | hdot)
      · rw [hdot] at hlast
        exact absurd hlast (by decide)
      · have happend : front ++ [carriageReturn] = [0x2E] ++ [carriageReturn] := hdot
        exact List.append_cancel_right happend
  · rw [if_neg hlast]
    constructor
    · exact .inl
    · rintro (hdot | hdot)
      · exact hdot
      · rw [hdot] at hlast
        exact absurd rfl hlast

theorem clientLine_eq_terminator {raw : Bytes} (h : 2 ≤ maxLength) :
    clientLine maxLength raw = terminator ↔ DotLine raw := by
  unfold clientLine terminator
  rw [ClientLine.mk.injEq, decide_eq_false_iff_not]
  constructor
  · rintro ⟨hbytes, hlength⟩
    rw [List.take_of_length_le (Nat.le_of_not_lt hlength)] at hbytes
    exact stripCarriageReturn_eq_dot.mp hbytes
  · intro hdot
    have hlength : raw.length ≤ 2 := by rcases hdot with rfl | rfl <;> decide
    have hle := Nat.le_trans hlength h
    rw [List.take_of_length_le hle]
    exact ⟨stripCarriageReturn_eq_dot.mpr hdot, Nat.not_lt_of_le hle⟩

/-- The session leaves its data at the first line that is a dot. -/
theorem Envelope.serveLines_dataEnd (h : Envelope P s) (hdata : s.inData = true)
    (hmax : 2 ≤ maxLength) (lines : List (Bytes × Bytes)) :
    swp (SmtpSession.serveLines P maxLength lines)
      (fun _ r _ => dataEnd? r.1 = dotEnd? lines) s x := by
  induction lines generalizing s x with
  | nil => exact rfl
  | cons line lines ih =>
    obtain ⟨raw, unread⟩ := line
    simp only [SmtpSession.serveLines, Act.wp_bind]
    by_cases hdot : DotLine raw
    · have hend : dotEnd? ((raw, unread) :: lines) = some unread := by simp [dotEnd?, hdot]
      rw [(clientLine_eq_terminator hmax).mpr hdot, hend]
      -- whatever comes behind the end, the session goes on without a fault
      have hrest {s' : SmtpSession} {x' : SessionLog} {r : Option Reply} (henvelope : Envelope P s') :
          swp (if true = true then SmtpSession.serveLines P maxLength lines >>= fun p =>
              pure (⟨true, false, r, unread⟩ :: p.1, p.2) else pure ([⟨true, false, r, unread⟩], false))
            (fun _ r _ => dataEnd? r.1 = some unread) s' x' := by
        rw [if_pos rfl]
        simp only [Act.wp_bind, Act.wp_pure]
        exact Prog.Follows.mono (fun _ _ _ _ => by simp [dataEnd?]) (henvelope.serveLines lines)
      refine swp_serveTurn_terminator h hdata ?_ ?_
      · exact fun _ bytes => hrest (h.cleared bytes)
      · exact fun _ _ bytes r x' _ => hrest (h.cleared bytes)
    · have hline : clientLine maxLength raw ≠ terminator :=
        fun heq => hdot ((clientLine_eq_terminator hmax).mp heq)
      have hskip : dotEnd? ((raw, unread) :: lines) = dotEnd? lines := by simp [dotEnd?, hdot]
      rw [hskip]
      have hrest {s' : SmtpSession} {x' : SessionLog} (henvelope : Envelope P s')
          (hin : s'.inData = true) :
          swp (if true = true then SmtpSession.serveLines P maxLength lines >>= fun p =>
              pure (⟨true, true, none, unread⟩ :: p.1, p.2)
              else pure ([⟨true, true, none, unread⟩], false))
            (fun _ r _ => dataEnd? r.1 = dotEnd? lines) s' x' := by
        rw [if_pos rfl]
        simp only [Act.wp_bind, Act.wp_pure]
        exact Prog.Follows.mono (fun _ _ _ hrest => by simpa [dataEnd?] using hrest) (ih henvelope hin)
      refine swp_serveTurn_data hdata hline ?_ ?_
      · exact fun _ bytes => hrest (h.dropped bytes).1 hdata
      · intro _
        refine Prog.Follows.mono ?_ (h.handleDataLine_inData (clientLine maxLength raw).bytes hdata)
        rintro s' r x' ⟨rfl, hin, henvelope, -⟩
        exact ⟨rfl, hin, hrest henvelope hin⟩

/-- The session leaves its data at the first dot, whatever the other threads answer it. -/
theorem Envelope.serve_dataEnd (h : Envelope P s) (hdata : s.inData = true) (L : LineLimit)
    (reader : ClientLineReader) :
    swp (serve P L.length reader)
      (fun _ events _ => dataEnd? events = dotEnd? (Lines.ended lineFeed reader.stream)) s x := by
  rw [serve_eq]
  simp only [Act.wp_bind, Act.wp_pure]
  exact h.serveLines_dataEnd hdata (Nat.le_trans (by decide) L.low) _

/-- The session leaves its data at the announced end exactly when the first dot line of the stream and
    the line before it have their carriage returns. -/
theorem data_end_announced_iff (h : Envelope P s) (hdata : s.inData = true) (L : LineLimit)
    (reader : ClientLineReader) :
    swp (serve P L.length reader)
      (fun _ events _ => dataEnd? events = announcedEnd? reader.stream) s x ↔
      EndsAnnounced reader.stream := by
  have hend := h.serve_dataEnd (x := x) hdata L reader
  rw [← endsAnnounced_iff]
  constructor
  · intro hannounced
    obtain ⟨_, events, _, -, heq, heq'⟩ :=
      Prog.Follows.answered granting_allowed (hend.and hannounced)
    exact heq.symm.trans heq'
  · intro heq
    refine Prog.Follows.mono ?_ hend
    intro _ events _ hevents
    rw [hevents, heq]

/-- The session has answered `DATA` and read no line of it. -/
structure AwaitsData (s : SmtpSession) : Prop where
  inData : s.inData = true
  tooLarge : s.dataTooLarge = false
  queueFull : s.dataQueueFull = false
  octets : s.dataOctetsReceived = 0

theorem exists_awaitsData : ∃ s, Envelope asciiPlatform s ∧ s.AwaitsData := by
  obtain ⟨s, replies, x, hs, henvelope⟩ := Prog.Follows.answered granting_allowed
    ((envelope_cleared (P := asciiPlatform) (s := newSession 100 false) (by decide) 0).feedLines
      (x := {}) (transactionLines.take 5))
  have hdata : ((SmtpSession.feedLines asciiPlatform (transactionLines.take 5)
      (newSession 100 false)).answered granting).map (fun p =>
        (p.1.inData, p.1.dataTooLarge, p.1.dataQueueFull, p.1.dataOctetsReceived)) =
      some (true, false, false, 0) := by decide +kernel
  have hsame : (newSession 100 false).cleared 0 = newSession 100 false := rfl
  rw [← hsame, hs] at hdata
  simp only [Option.map_some, Option.some.injEq, Prod.mk.injEq] at hdata
  obtain ⟨hin, hlarge, hfull, hoctets⟩ := hdata
  exact ⟨s, henvelope, hin, hlarge, hfull, hoctets⟩

theorem data_end_announced_iff_crlf : ∃ s : SmtpSession, s.inData = true ∧
    swp (serve asciiPlatform 512 ⟨Json.ascii "a\r\n..\r\n".toList, [Json.ascii ".\r\nQUIT\r\n".toList]⟩)
      (fun _ events _ => dataEnd? events = some (Json.ascii "QUIT\r\n".toList)) s {} := by
  obtain ⟨s, henvelope, hawaits⟩ := exists_awaitsData
  refine ⟨s, hawaits.inData, ?_⟩
  exact (data_end_announced_iff henvelope hawaits.inData ⟨512, by decide, by decide⟩
    ⟨Json.ascii "a\r\n..\r\n".toList, [Json.ascii ".\r\nQUIT\r\n".toList]⟩).mpr (by decide)

/-- A dot behind a bare line feed ends the data, and what the message goes on with is a command. -/
theorem bareDot_ends_data :
    (((SmtpSession.feedLines asciiPlatform (transactionLines.take 5) >>= fun _ =>
        serve asciiPlatform 512 ⟨Json.ascii "a\n.\r\nMAIL FROM:<>\r\n.\r\n".toList, []⟩)
      (newSession 100 false)).answered granting).map (fun (_, events) =>
        (events.map LineEvent.asData, events.map fun e => e.reply.map Reply.code, dataEnd? events)) =
      some ([true, true, false, false], [none, some 250, some 250, some 502],
        some (Json.ascii "MAIL FROM:<>\r\n.\r\n".toList)) ∧
    announcedEnd? (Json.ascii "a\n.\r\nMAIL FROM:<>\r\n.\r\n".toList) = some [] := by
  decide +kernel

end SmtpSession

end RapidInbox
