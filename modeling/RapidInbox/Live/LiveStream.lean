import RapidInbox.Lib.Run
import RapidInbox.Live.LiveState

/-!
# The live stream

`iter_smtp_live_events` (`app/http/live.py:91-189`) as a generator that is suspended at its yields and
awaits, with the client that reads it.  The ring may change between any two steps.  A connection may
break at any time; the records on their way are then lost, and the client comes back with the last
cursor it has received.
-/

namespace RapidInbox

/-! ## Records -/

/-- `event.get(key)`. -/
def LiveDict.get (d : LiveDict) (key : String) : LiveValue := (d.lookup key.toList).getD .none

/-- Truth of a value, as `or` asks for it. -/
def LiveValue.truthy : LiveValue → Bool
  | .none => false
  | .text t => !t.isEmpty
  | .int n => n ≠ 0

/-- `str(value or "")`. -/
def LiveValue.str : LiveValue → Text
  | .none => []
  | .text t => t
  | .int n => if n = 0 then [] else intText n

/-- `_PROCESS_LOCAL_SMTP_EVENT_TYPES`. -/
def processLocalSmtpEventTypes : List Text :=
  ["connect".toList, "rcpt_accepted".toList, "rcpt_rejected".toList, "queued".toList,
    "disconnect".toList, "error".toList]

/-- `_normalize_smtp_live_event`: the payload of an event that is streamed. -/
def normalizeSmtpLiveEvent (event : LiveEvent) : Option LiveDict :=
  let eventType := (event.entries.get "type").str
  if eventType ∈ processLocalSmtpEventTypes then
    some (event.entries ++ [("seq".toList, .int event.seq)])
  else if eventType ≠ "mailbox_delivery".toList then none
  else
    let rcptTo := event.entries.get "rcpt_to"
    some
      [("type".toList, .text "delivery_committed".toList),
        ("session_id".toList, event.entries.get "session_id"),
        ("delivery_id".toList, event.entries.get "delivery_id"),
        ("message_id".toList, event.entries.get "message_id"),
        ("rcpt_to".toList, if rcptTo.truthy then rcptTo else event.entries.get "mailbox"),
        ("mail_from".toList, event.entries.get "mail_from"),
        ("parse_status".toList, event.entries.get "parse_status"),
        ("ts".toList, event.entries.get "ts"),
        ("source".toList, .text "committed_outbox".toList)]

structure LiveGap where
  reason : GapReason
  previousGeneration : Text
  previousSeq : Nat
  oldestAvailableSeq : Nat
  latestAvailableSeq : Nat
  cursor : Text
  deriving DecidableEq, Repr

/-- What the generator yields. -/
inductive LiveRecord where
  | payload (payload : LiveDict) (cursor : Text)
  | cursor (cursor : Text)
  | gap (gap : LiveGap)
  deriving DecidableEq, Repr

/-- The cursor of a record. -/
def LiveRecord.cursorText : LiveRecord → Text
  | .payload _ c => c
  | .cursor c => c
  | .gap g => g.cursor

/-- The streamed events of a window, with their payloads. -/
def streamedEvents (events : List LiveEvent) : List (LiveEvent × LiveDict) :=
  events.filterMap fun e => (normalizeSmtpLiveEvent e).map fun payload => (e, payload)

/-- The records of a window that ends at `lastSeq`: the payloads, and a bare cursor when the last
    event is not streamed. -/
def windowRecords (generation : Text) (events : List LiveEvent) (lastSeq : Nat) : List LiveRecord :=
  let streamed := streamedEvents events
  let lastPayloadSeq := (streamed.getLast?.map fun e => e.1.seq).getD 0
  streamed.map (fun e => .payload e.2 (formatCursor generation e.1.seq)) ++
    if lastPayloadSeq ≠ lastSeq then [.cursor (formatCursor generation lastSeq)] else []

/-- The records of `_recent_message_events`: positions before the first event. -/
def historyRecords (generation : Text) (events : List LiveDict) : List LiveRecord :=
  events.mapIdx fun index event =>
    .payload event (formatCursor generation (-((events.length - index : Nat) : Int)))

/-! ## The generator and its client -/

/-- Where the generator is. -/
inductive StreamPhase where
  | called (afterCursor : Option Text)
  /-- about to take the snapshot of the initial replay -/
  | replaying (generation : Text)
  /-- waiting for `_recent_message_events` -/
  | loadingHistory (generation : Text)
  /-- in a yield while records are pending, else about to ask for the next window -/
  | streaming (pending : List LiveRecord) (generation : Text) (lastSeq : Nat)
  deriving DecidableEq, Repr

/-- A place in the stream: a generation, counted from the first, and a number within it. -/
structure Position where
  epoch : Nat
  seq : Nat
  deriving DecidableEq, Repr

/-- All that has been published: the generations so far, and each event with its generation. -/
structure LiveLog where
  generations : List Text
  events : List (Nat × LiveEvent)
  deriving DecidableEq, Repr

structure LiveFeed where
  live : LiveState
  /-- the connection, if there is one -/
  phase : Option StreamPhase
  /-- records on their way -/
  sent : List LiveRecord
  received : List LiveRecord
  /-- what the client resumes with -/
  cursor : Option Text
  log : LiveLog
  /-- where the connection began that the first record came from -/
  origin : Position
  deriving DecidableEq, Repr

inductive LiveAction where
  | publish (entries : LiveDict)
  | clear (generation : Text)
  | connect
  /-- the generator compares the cursor with the generation -/
  | begin
  | snapshot
  | history (events : List LiveDict)
  | yieldRecord
  | poll
  | receive
  | disconnect
  deriving DecidableEq, Repr

namespace LiveFeed

/-- A new process, and a client that comes with a cursor or none. -/
def start (maxEvents : Nat) (generation : Text) (cursor : Option Text) : LiveFeed where
  live := .init maxEvents generation
  phase := none
  sent := []
  received := []
  cursor := cursor
  log := ⟨[generation], []⟩
  origin := ⟨0, 0⟩

/-- The current generation's place. -/
def epoch (s : LiveFeed) : Nat := s.log.generations.length - 1

/-- A generator starts to stream behind a position.  Before the first record arrives the connection
    decides where the client's stream begins. -/
def stream (s : LiveFeed) (origin : Position) (records : List LiveRecord) (generation : Text)
    (lastSeq : Nat) : LiveFeed :=
  { s with
    phase := some (.streaming records generation lastSeq)
    origin := if s.received.isEmpty then origin else s.origin }

/-- `iter_smtp_live_events` up to the snapshot. -/
def begin (s : LiveFeed) (afterCursor : Option Text) : LiveFeed :=
  match afterCursor.bind parseLiveCursor with
  | some (generation, seq) =>
    -- `max(seq, 0)`: a position in the history is before the first event
    if generation = s.live.generation then s.stream ⟨s.epoch, seq.toNat⟩ [] generation seq.toNat
    else { s with phase := some (.replaying s.live.generation) }
  | none => { s with phase := some (.replaying s.live.generation) }

/-- The snapshot of the initial replay. -/
def snapshot (s : LiveFeed) (generation : Text) : LiveFeed :=
  let (events, cursor) := s.live.snapshotState
  let parsed := parseLiveCursor cursor
  let generation := (parsed.map Prod.fst).getD generation
  let lastSeq := (parsed.map fun p => p.2.toNat).getD 0
  if (streamedEvents events).isEmpty then { s with phase := some (.loadingHistory generation) }
  else
    s.stream ⟨s.epoch, s.live.oldestSeq - 1⟩ (windowRecords generation events lastSeq) generation
      lastSeq

/-- The records after a window, and the position they lead to. -/
def afterWindow (w : StreamWindow) (generation : Text) (lastSeq : Nat) :
    List LiveRecord × Nat :=
  match w.events.getLast? with
  | none => ([], lastSeq)
  | some e => (windowRecords generation w.events e.seq, e.seq)

/-- One turn of the loop. -/
def poll (s : LiveFeed) (generation : Text) (lastSeq : Nat) : LiveFeed :=
  let w := s.live.snapshotStreamWindow generation lastSeq
  match w.gapReason with
  | none =>
    let (records, lastSeq) := afterWindow w generation lastSeq
    { s with phase := some (.streaming records generation lastSeq) }
  | some reason =>
    let seq := w.oldestSeq - 1
    let gap : LiveGap :=
      { reason := reason
        previousGeneration := generation
        previousSeq := lastSeq
        oldestAvailableSeq := w.oldestSeq
        latestAvailableSeq := w.latestSeq
        cursor := formatCursor w.generation seq }
    let (records, lastSeq) := afterWindow w w.generation seq
    { s with phase := some (.streaming (.gap gap :: records) w.generation lastSeq) }

/-- One step of anyone. -/
def step (s : LiveFeed) : LiveAction → Option LiveFeed
  | .publish entries =>
    some { s with
      live := s.live.publish entries
      log := { s.log with events := s.log.events ++ [(s.epoch, ⟨entries, s.live.nextSeq⟩)] } }
  | .clear generation =>
    some { s with
      live := s.live.clear generation
      log := { s.log with generations := s.log.generations ++ [generation] } }
  | .connect => if s.phase.isNone then some { s with phase := some (.called s.cursor) } else none
  | .begin =>
    match s.phase with
    | some (.called afterCursor) => some (s.begin afterCursor)
    | _ => none
  | .snapshot =>
    match s.phase with
    | some (.replaying generation) => some (s.snapshot generation)
    | _ => none
  | .history events =>
    match s.phase with
    | some (.loadingHistory generation) =>
      some (s.stream ⟨s.log.generations.idxOf generation, 0⟩ (historyRecords generation events)
        generation 0)
    | _ => none
  | .yieldRecord =>
    match s.phase with
    | some (.streaming (record :: pending) generation lastSeq) =>
      some { s with
        phase := some (.streaming pending generation lastSeq)
        sent := s.sent ++ [record] }
    | _ => none
  | .poll =>
    match s.phase with
    | some (.streaming [] generation lastSeq) => some (s.poll generation lastSeq)
    | _ => none
  | .receive =>
    match s.sent with
    | record :: sent =>
      some { s with
        sent := sent
        received := s.received ++ [record]
        cursor := some record.cursorText }
    | [] => none
  | .disconnect => some { s with phase := none, sent := [] }

/-- The generations that `uuid4` draws are new, and a client that has received a record resumes while
    the generation of its cursor is the current one. -/
def Regular (s : LiveFeed) : LiveAction → Prop
  | .clear generation => generation ≠ [] ∧ generation ∉ s.log.generations
  | .begin =>
    s.received ≠ [] →
      (s.cursor.bind parseLiveCursor).map Prod.fst = some s.live.generation
  | _ => True

instance (s : LiveFeed) (a : LiveAction) : Decidable (s.Regular a) := by
  cases a <;> unfold Regular <;> infer_instance

end LiveFeed
end RapidInbox
