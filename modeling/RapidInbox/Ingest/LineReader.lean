import RapidInbox.Lib.Lines
import RapidInbox.Ingest.MailJob

/-!
# Reading lines from a client

`ClientLineReader` (`smtp_server.cpp:77-127`) over what `recv` will return.  Whatever the chunks, the
lines are those of the stream they make up.
-/

namespace RapidInbox

def carriageReturn : UInt8 := 0x0D
def lineFeed : UInt8 := 0x0A

/-- A line as `recv_line` hands it over. -/
structure ClientLine where
  bytes : Bytes
  tooLong : Bool
  deriving DecidableEq, Repr

/-- The bytes of the buffer from `cursor_` to `end_`, and the chunks to come.  An empty chunk is a
    connection that was closed or failed. -/
structure ClientLineReader where
  buffered : Bytes
  incoming : List Bytes
  deriving DecidableEq, Repr

/-- `line.pop_back()` behind a carriage return. -/
def stripCarriageReturn (line : Bytes) : Bytes :=
  if line.getLast? = some carriageReturn then line.dropLast else line

namespace ClientLineReader

/-- The loop of `recv_line` over the buffer; what is left of the buffer if the line ends in it. -/
def scan (maxLength : Nat) : ClientLine → Bytes → ClientLine × Option Bytes
  | line, [] => (line, none)
  | line, ch :: buffered =>
    if ch = lineFeed then (line, some buffered)
    else if line.bytes.length < maxLength then
      scan maxLength { line with bytes := line.bytes ++ [ch] } buffered
    else scan maxLength { line with tooLong := true } buffered

/-- `recv_line`, refilling the buffer as it goes. -/
def recvFrom (maxLength : Nat) :
    ClientLine → Bytes → List Bytes → Option (ClientLine × ClientLineReader)
  | line, buffered, incoming =>
    match scan maxLength line buffered with
    | (line, some rest) =>
      some ({ line with bytes := stripCarriageReturn line.bytes }, ⟨rest, incoming⟩)
    | (line, none) =>
      match incoming with
      | [] => none
      | chunk :: incoming =>
        if chunk.isEmpty then none else recvFrom maxLength line chunk incoming

/-- `recv_line`. -/
def recvLine (maxLength : Nat) (r : ClientLineReader) : Option (ClientLine × ClientLineReader) :=
  recvFrom maxLength ⟨[], false⟩ r.buffered r.incoming

/-- Everything the client will be read to have sent. -/
def stream (r : ClientLineReader) : Bytes :=
  r.buffered ++ (r.incoming.takeWhile fun chunk => !chunk.isEmpty).flatten

end ClientLineReader

/-- The part of a line that is kept while it is read. -/
def keptLine (maxLength : Nat) (raw : Bytes) : ClientLine :=
  ⟨raw.take maxLength, decide (maxLength < raw.length)⟩

/-- The line read for the bytes before a line feed. -/
def clientLine (maxLength : Nat) (raw : Bytes) : ClientLine :=
  ⟨stripCarriageReturn (raw.take maxLength), decide (maxLength < raw.length)⟩

namespace ClientLineReader

variable {maxLength : Nat}

/-- One more byte of a line. -/
theorem keptLine_append (raw : Bytes) (ch : UInt8) :
    keptLine maxLength (raw ++ [ch]) =
      if (keptLine maxLength raw).bytes.length < maxLength then
        { keptLine maxLength raw with bytes := (keptLine maxLength raw).bytes ++ [ch] }
      else { keptLine maxLength raw with tooLong := true } := by
  unfold keptLine
  by_cases h : raw.length < maxLength
  · have hkept : (raw.take maxLength).length < maxLength := by
      rw [List.length_take]
      omega
    have hlonger : (raw ++ [ch]).length ≤ maxLength := by
      rw [List.length_append, List.length_singleton]
      exact h
    rw [if_pos hkept, List.take_of_length_le (Nat.le_of_lt h), List.take_of_length_le hlonger]
    simp only [List.length_append, List.length_singleton, ClientLine.mk.injEq, true_and,
      decide_eq_decide]
    omega
  · have hkept : ¬(raw.take maxLength).length < maxLength := by
      rw [List.length_take]
      omega
    rw [if_neg hkept, List.take_append_of_le_length (Nat.le_of_not_lt h)]
    simp only [List.length_append, List.length_singleton, ClientLine.mk.injEq, true_and,
      decide_eq_true_eq]
    omega

/-- The buffer is read as a piece of the line that was begun. -/
theorem scan_kept (raw buffered : Bytes) :
    scan maxLength (keptLine maxLength raw) buffered =
      match Lines.split? lineFeed buffered with
      | some (l, rest) => (keptLine maxLength (raw ++ l), some rest)
      | none => (keptLine maxLength (raw ++ buffered), none) := by
  induction buffered generalizing raw with
  | nil => simp [scan, Lines.split?]
  | cons ch buffered ih =>
    by_cases h : ch = lineFeed
    · subst h
      simp [scan, Lines.split?_cons_sep]
    · have hstep : scan maxLength (keptLine maxLength raw) (ch :: buffered) =
          scan maxLength (keptLine maxLength (raw ++ [ch])) buffered := by
        rw [scan, if_neg h, keptLine_append]
        split <;> rfl
      rw [hstep, ih, Lines.split?_cons_ne h]
      cases Lines.split? lineFeed buffered <;> simp

theorem recvFrom_kept (raw buffered : Bytes) (incoming : List Bytes) :
    (recvFrom maxLength (keptLine maxLength raw) buffered incoming).map
        (fun (line, r) => (line, r.stream)) =
      (Lines.split? lineFeed (stream ⟨buffered, incoming⟩)).map
        fun (l, rest) => (clientLine maxLength (raw ++ l), rest) := by
  induction incoming generalizing raw buffered with
  | nil =>
    rw [recvFrom, scan_kept, stream, List.takeWhile_nil, List.flatten_nil, List.append_nil]
    cases Lines.split? lineFeed buffered with
    | none => rfl
    | some p => simp [clientLine, keptLine, stream]
  | cons chunk incoming ih =>
    rw [recvFrom, scan_kept, stream, Lines.split?_append]
    cases hsplit : Lines.split? lineFeed buffered with
    | some p => simp [clientLine, keptLine, stream]
    | none =>
      by_cases hchunk : chunk.isEmpty
      · simp [hchunk, Lines.split?]
      · have hih := ih (raw ++ buffered) chunk
        rw [stream] at hih
        simp only [hchunk, Bool.false_eq_true, if_false, Bool.not_false,
          List.takeWhile_cons_of_pos, List.flatten_cons, Option.map_map]
        rw [hih]
        simp only [List.append_assoc]
        rfl

/-- `recv_line` reads the next line of the stream, however it is cut. -/
theorem recvLine_stream (r : ClientLineReader) (maxLength : Nat) :
    (r.recvLine maxLength).map (fun (line, r') => (line, r'.stream)) =
      (Lines.split? lineFeed r.stream).map
        fun (l, rest) => (clientLine maxLength l, rest) := by
  have hkept : (⟨[], false⟩ : ClientLine) = keptLine maxLength [] := by simp [keptLine]
  rw [recvLine, hkept, recvFrom_kept]
  rfl

end ClientLineReader

end RapidInbox
