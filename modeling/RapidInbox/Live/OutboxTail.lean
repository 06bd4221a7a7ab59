import RapidInbox.Lib.Run
import RapidInbox.Live.LiveState
import RapidInbox.Live.Outbox

/-!
# Tailing the outbox

`_publish_pending_mailbox_live_events` (`runtime.py:715-783`) and its loop, suspended where the code
awaits: for a page and in the sleep after it.  Between two steps other transactions commit, the
database file may be replaced, and the loop may be cancelled and started again; clear-all
(`runtime.py:321-384`) empties the table and resets the cursor while the loop is stopped.
-/

namespace RapidInbox

/-- A row of `_load_mailbox_live_event_page`: an event with the rows joined to it. -/
structure OutboxPageRow where
  event : LiveEventRow
  delivery : Option DeliveryRow
  message : Option MessageRow
  mailbox : Option MailboxRow
  deriving DecidableEq, Repr

namespace OutboxPageRow

/-- The delivery is active. -/
def active (r : OutboxPageRow) : Bool := r.delivery.any fun d => d.status = .active

/-- The row is published. -/
def publishes (r : OutboxPageRow) : Bool := r.active && r.mailbox.isSome && r.message.isSome

def typeText : LiveEventType → Text
  | .mailboxDelivery => "mailbox_delivery".toList
  | .mailboxDeliveryUpdated => "mailbox_delivery_updated".toList

def parseStatusText : ParseStatus → Text
  | .pending => "pending".toList
  | .parsed => "parsed".toList
  | .failed => "failed".toList

def optionalText (t : Option Text) : LiveValue := (t.map LiveValue.text).getD .none

/-- The event a row is published as. -/
def entries (r : OutboxPageRow) : LiveDict :=
  [("type".toList, .text (typeText r.event.eventType)),
    ("delivery_id".toList, .text r.event.deliveryId),
    ("message_id".toList, optionalText (r.message.map MessageRow.id)),
    ("session_id".toList, optionalText (r.message.bind MessageRow.smtpSessionId)),
    ("rcpt_to".toList, optionalText (r.delivery.map DeliveryRow.rcptTo)),
    ("mail_from".toList, optionalText (r.message.bind MessageRow.envelopeFrom)),
    ("mailbox".toList, optionalText (r.mailbox.map MailboxRow.addressCanonical)),
    ("parse_status".toList,
      optionalText (r.message.map fun m => parseStatusText m.content.parseStatus)),
    ("ts".toList,
      .text (utcText ((r.delivery.map DeliveryRow.deliveredAt).getD r.event.createdAt))),
    ("outbox_id".toList, .int r.event.id)]

end OutboxPageRow

namespace OutboxTables

/-- The joins of the page query. -/
def join (t : OutboxTables) (e : LiveEventRow) : OutboxPageRow :=
  let delivery := t.deliveries.find? fun d => d.id = e.deliveryId
  { event := e
    delivery := delivery
    message := delivery.bind fun d => t.messages.find? fun m => m.id = d.messageId
    mailbox := delivery.bind fun d => t.mailboxes.find? fun b => b.id = d.mailboxId }

/-- The events behind a cursor; the table is in the order of its ids. -/
def eventsAfter (t : OutboxTables) (cursor : Nat) : List LiveEventRow :=
  t.events.filter fun e => cursor < e.id

/-- `_load_mailbox_live_event_page`: one query, so one state of the database. -/
def page (t : OutboxTables) (cursor limit : Nat) : List OutboxPageRow :=
  ((t.eventsAfter cursor).take limit).map t.join

/-- `_latest_mailbox_live_event_id`. -/
def latestId (t : OutboxTables) : Nat := (t.events.map LiveEventRow.id).foldr max 0

end OutboxTables

/-- Where the loop is. -/
inductive TailPhase where
  /-- between two polls -/
  | waiting
  /-- at the head of the page loop -/
  | polling (pagesLoaded : Nat)
  | loading (pagesLoaded identityBefore : Nat)
  /-- the page of a database has been read and not been looked at -/
  | loaded (pagesLoaded identityBefore : Nat) (rows : List OutboxPageRow) (highWater database : Nat)
  /-- cancelled -/
  | stopped
  /-- the tables have been cleared while the loop is stopped -/
  | cleared
  deriving DecidableEq, Repr

/-- A row the loop has handled: the database it came from and the live generation at that time. -/
structure HandledRow where
  database : Nat
  generation : Text
  row : OutboxPageRow
  deriving DecidableEq, Repr

structure OutboxTail where
  outbox : Outbox
  /-- device and inode of the database file -/
  identity : Nat
  cursor : Nat
  /-- `_mailbox_live_event_database_identity` -/
  streamIdentity : Nat
  live : LiveState
  phase : TailPhase
  /-- how often the database has been replaced -/
  database : Nat
  /-- the database the cursor belongs to -/
  tracked : Nat
  generations : List Text
  handled : List HandledRow
  published : List HandledRow

/-- The sizes of a poll. -/
structure TailConfig where
  batchSize : Nat
  maxPages : Nat

inductive TailAction where
  | transaction (changes : List OutboxChange)
  /-- another file, or other contents in place -/
  | replace (outbox : Outbox) (identity : Nat)
  | poll
  /-- compare the identity and ask for a page; `generation` is drawn if the stream is reset -/
  | request (generation : Text)
  | read
  /-- go on with the page -/
  | resume (generation : Text)
  | cancel
  | clearTables
  | resetCursor (generation : Text)
  | restart

namespace OutboxTail

/-- The runtime has started: the rows that are there count as published. -/
def start (outbox : Outbox) (identity maxEvents : Nat) (generation : Text) : OutboxTail where
  outbox := outbox
  identity := identity
  cursor := outbox.tables.latestId
  streamIdentity := identity
  live := .init maxEvents generation
  phase := .waiting
  database := 0
  tracked := 0
  generations := [generation]
  handled := []
  published := []

/-- The ring and its generation start anew, and the cursor with them. -/
def clearLive (s : OutboxTail) (generation : Text) : OutboxTail :=
  { s with
    cursor := 0
    live := s.live.clear generation
    generations := s.generations ++ [generation] }

/-- `_reset_mailbox_live_event_stream`. -/
def resetStream (s : OutboxTail) (generation : Text) : OutboxTail :=
  { s.clearLive generation with streamIdentity := s.identity, tracked := s.database }

/-- One row of a page: it is published or not, and the cursor goes on in either case. -/
def handleRow (s : OutboxTail) (r : OutboxPageRow) : OutboxTail :=
  let handled : HandledRow := ⟨s.tracked, s.live.generation, r⟩
  { s with
    live := if r.publishes then s.live.publish r.entries else s.live
    published := if r.publishes then s.published ++ [handled] else s.published
    handled := s.handled ++ [handled]
    cursor := r.event.id }

/-- The page loop behind its await. -/
def resume (C : TailConfig) (s : OutboxTail) (generation : Text) (pages identityBefore : Nat)
    (rows : List OutboxPageRow) (highWater : Nat) : OutboxTail :=
  if s.identity ≠ identityBefore ∨ highWater < s.cursor then
    { s.resetStream generation with phase := .polling pages }
  else
    { rows.foldl handleRow s with
      phase := if rows.isEmpty || rows.length < C.batchSize then .waiting else .polling pages }

/-- The step of a phase. -/
def step (C : TailConfig) (s : OutboxTail) : TailAction → Option OutboxTail
  | .transaction changes => some { s with outbox := s.outbox.transaction changes }
  | .replace outbox identity =>
    some { s with outbox := outbox, identity := identity, database := s.database + 1 }
  | .poll =>
    match s.phase with
    | .waiting => some { s with phase := .polling 0 }
    | _ => none
  | .request generation =>
    match s.phase with
    | .polling pages =>
      if pages < C.maxPages then
        let s := if s.identity ≠ s.streamIdentity then s.resetStream generation else s
        some { s with phase := .loading pages s.identity }
      else some { s with phase := .waiting }
    | _ => none
  | .read =>
    match s.phase with
    | .loading pages identityBefore =>
      some { s with
        phase := .loaded (pages + 1) identityBefore (s.outbox.tables.page s.cursor C.batchSize)
          s.outbox.tables.seq s.database }
    | _ => none
  | .resume generation =>
    match s.phase with
    | .loaded pages identityBefore rows highWater _ =>
      some (s.resume C generation pages identityBefore rows highWater)
    | _ => none
  | .cancel =>
    match s.phase with
    | .stopped => none
    | .cleared => none
    | _ => some { s with phase := .stopped }
  | .clearTables =>
    match s.phase with
    | .stopped => some { s with outbox := s.outbox.clearMailTables, phase := .cleared }
    | _ => none
  | .resetCursor generation =>
    match s.phase with
    | .cleared => some { s.clearLive generation with phase := .stopped }
    | _ => none
  | .restart =>
    match s.phase with
    | .stopped => some { s with phase := .waiting }
    | .cleared => some { s with phase := .waiting }
    | _ => none

/-- The generations that `uuid4` draws are new, and a page of a replaced database is told by the
    identity of the file or by a sequence below the cursor. -/
def Regular (s : OutboxTail) : TailAction → Prop
  | .request generation => generation ∉ s.generations
  | .resetCursor generation => generation ∉ s.generations
  | .resume generation =>
    generation ∉ s.generations ∧
      match s.phase with
      | .loaded _ identityBefore _ highWater database =>
        database = s.tracked ∨ s.identity ≠ identityBefore ∨ highWater < s.cursor
      | _ => True
  | _ => True

instance (s : OutboxTail) (a : TailAction) : Decidable (s.Regular a) := by
  cases a <;> unfold Regular <;> try infer_instance
  cases s.phase <;> infer_instance

end OutboxTail
end RapidInbox
