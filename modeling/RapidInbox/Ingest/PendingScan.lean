import Mathlib.Data.Prod.Lex
import Mathlib.Data.List.Lex
import Mathlib.Data.Char
import RapidInbox.Ingest.ParseQueue
import RapidInbox.Lib.KeysetWalk
import RapidInbox.Store.Accept

/-!
# The scan for pending messages

`_next_pending_parse_task_page` (`app/runtime.py:2764-2808`) offers the messages that are still pending
to the parse queue again, a page at each call.
-/

namespace RapidInbox

open Table

/-- The position of a message in the scan. -/
abbrev ScanPosition := Timestamp × Text

def MessageRow.isPending (row : MessageRow) : Bool := row.content.parseStatus = .pending

/-- `received_at > ? OR (received_at = ? AND id > ?)`, where there is a cursor. -/
def MessageRow.isAfter (after : Option ScanPosition) (row : MessageRow) : Bool :=
  after.all fun p => p.1 < row.receivedAt || (row.receivedAt = p.1 && p.2 < row.id)

/-- `ORDER BY received_at ASC, id ASC` -/
def MessageRow.scannedBefore (a b : MessageRow) : Prop :=
  a.receivedAt < b.receivedAt ∨ a.receivedAt = b.receivedAt ∧ a.id ≤ b.id

instance (a b : MessageRow) : Decidable (a.scannedBefore b) := inferInstanceAs (Decidable (_ ∨ _))

namespace Db

variable (db : Db) (limit : Nat)

def pendingRows : List MessageRow := db.messages.filter MessageRow.isPending

/-- `select_page` -/
def selectPage (after : Option ScanPosition) : List MessageRow :=
  ((db.pendingRows.filter (MessageRow.isAfter after)).insertionSort MessageRow.scannedBefore).take limit

/-- `_find_pending_parse_task_page` -/
def findPendingParseTaskPage (cursor : Option ScanPosition) : List ParseTask × Option ScanPosition :=
  let rows := db.selectPage limit cursor
  let rows := if rows = [] ∧ cursor ≠ none then db.selectPage limit none else rows
  match rows.getLast? with
  | none => ([], none)
  | some lastRow =>
    (rows.map fun row => ⟨row.id, row.rawSizeBytes⟩, some (lastRow.receivedAt, lastRow.id))

end Db

/-- The tasks that `_next_pending_parse_task_page` returns at each of these states of the database. -/
def nextPendingParseTaskPages (limit : Nat) : Option ScanPosition → List Db → List (List ParseTask)
  | _, [] => []
  | cursor, db :: more =>
    let page := db.findPendingParseTaskPage limit cursor
    page.1 :: nextPendingParseTaskPages limit page.2 more

/-- Between two calls, the first of them from a cursor, the database changes as `gap` says. -/
def ScanRun (limit : Nat) (gap : Option ScanPosition → Db → Db → Prop) :
    Option ScanPosition → Db → List Db → Prop
  | _, _, [] => True
  | cursor, db, db' :: more =>
    gap cursor db db' ∧ ScanRun limit gap (db.findPendingParseTaskPage limit cursor).2 db' more

instance ScanRun.decidable (limit : Nat) (gap : Option ScanPosition → Db → Db → Prop)
    [∀ cursor db db', Decidable (gap cursor db db')] :
    ∀ cursor db more, Decidable (ScanRun limit gap cursor db more)
  | _, _, [] => isTrue trivial
  | cursor, db, db' :: more =>
    haveI := ScanRun.decidable limit gap (db.findPendingParseTaskPage limit cursor).2 db' more
    inferInstanceAs (Decidable (_ ∧ _))

/-! ## The scan is a keyset walk -/

/-- The place of a message in the order of the scan. -/
def MessageRow.scanKey (row : MessageRow) : Lex ScanPosition := toLex (row.receivedAt, row.id)

/-- The places of the pending messages. -/
def Db.pendingKeys (db : Db) : Finset (Lex ScanPosition) :=
  KeysetWalk.keys MessageRow.scanKey db.pendingRows

theorem MessageRow.scannedBefore_iff (a b : MessageRow) :
    a.scannedBefore b ↔ a.scanKey ≤ b.scanKey := by
  rw [scannedBefore, scanKey, scanKey, Prod.Lex.le_iff]
  rfl

theorem MessageRow.isAfter_iff (after : Option ScanPosition) (row : MessageRow) :
    row.isAfter after = true ↔ ∀ c ∈ after.map toLex, c < row.scanKey := by
  cases after with
  | none => simp [isAfter]
  | some p =>
    simp only [isAfter, Option.all_some, Option.map_some, Option.mem_some_iff, forall_eq', scanKey]
    rw [Prod.Lex.lt_iff, Bool.or_eq_true, Bool.and_eq_true, decide_eq_true_iff, decide_eq_true_iff,
      decide_eq_true_iff]
    exact or_congr_right (and_congr_left' eq_comm)

namespace Db

variable {db : Db} {limit : Nat}

theorem nodup_scanKey (h : UniqueKey MessageRow.id db.messages) {rows : List MessageRow}
    (hrows : rows.Sublist db.messages) : (rows.map MessageRow.scanKey).Nodup := by
  rw [UniqueKey, List.Nodup, List.pairwise_map] at h
  rw [List.Nodup, List.pairwise_map]
  refine (List.Pairwise.sublist hrows h).imp fun hne heq => hne ?_
  exact congrArg (fun k => (ofLex k).2) heq

theorem selectPage_keys (h : UniqueKey MessageRow.id db.messages) (after : Option ScanPosition) :
    (db.selectPage limit after).map MessageRow.scanKey =
      (KeysetWalk.ascending (KeysetWalk.beyond (after.map toLex) db.pendingKeys)).take limit := by
  have hnodup : ((db.pendingRows.filter (MessageRow.isAfter after)).map MessageRow.scanKey).Nodup :=
    nodup_scanKey h (List.filter_sublist.trans List.filter_sublist)
  rw [selectPage, List.map_take, KeysetWalk.map_insertionSort MessageRow.scannedBefore_iff hnodup,
    pendingKeys, KeysetWalk.beyond_keys (MessageRow.isAfter_iff after)]

/-- The rows of a page. -/
def pageRows (db : Db) (limit : Nat) (cursor : Option ScanPosition) : List MessageRow :=
  if db.selectPage limit cursor = [] ∧ cursor ≠ none then db.selectPage limit none
  else db.selectPage limit cursor

theorem findPendingParseTaskPage_eq (cursor : Option ScanPosition) :
    db.findPendingParseTaskPage limit cursor =
      ((db.pageRows limit cursor).map fun row => ⟨row.id, row.rawSizeBytes⟩,
        (db.pageRows limit cursor).getLast?.map fun row => (row.receivedAt, row.id)) := by
  show (match (db.pageRows limit cursor).getLast? with
    | none => ([], none)
    | some lastRow => _) = _
  cases hlast : (db.pageRows limit cursor).getLast? with
  | none => rw [List.getLast?_eq_none_iff.mp hlast]; rfl
  | some lastRow => rfl

theorem pageRows_keys (hlimit : 1 ≤ limit) (h : UniqueKey MessageRow.id db.messages)
    (cursor : Option ScanPosition) :
    (db.pageRows limit cursor).map MessageRow.scanKey =
      KeysetWalk.page limit (cursor.map toLex) db.pendingKeys := by
  have hnil : db.selectPage limit cursor = [] ↔
      KeysetWalk.beyond (cursor.map toLex) db.pendingKeys = ∅ := by
    rw [← List.map_eq_nil_iff (f := MessageRow.scanKey), selectPage_keys h, List.take_eq_nil_iff,
      ← List.length_eq_zero_iff, KeysetWalk.length_ascending, Finset.card_eq_zero]
    exact or_iff_right (by omega)
  have hall : KeysetWalk.beyond (Option.map toLex none) db.pendingKeys = db.pendingKeys :=
    Finset.filter_true_of_mem (by simp)
  rw [pageRows, KeysetWalk.page]
  by_cases hempty : KeysetWalk.beyond (cursor.map toLex) db.pendingKeys = ∅
  · rw [KeysetWalk.source_of_empty hempty]
    split
    · rw [selectPage_keys h, hall]
    · rename_i hnot
      obtain rfl : cursor = none := by
        by_contra hsome
        exact hnot ⟨hnil.mpr hempty, hsome⟩
      rw [selectPage_keys h, hall]
  · obtain ⟨k, hk⟩ := Finset.nonempty_iff_ne_empty.mpr hempty
    rw [KeysetWalk.source_of_mem hk, if_neg (fun hboth => hempty (hnil.mp hboth.1)), selectPage_keys h]

theorem findPendingParseTaskPage_ids (hlimit : 1 ≤ limit) (h : UniqueKey MessageRow.id db.messages)
    (cursor : Option ScanPosition) :
    (db.findPendingParseTaskPage limit cursor).1.map ParseTask.messageId =
      (KeysetWalk.page limit (cursor.map toLex) db.pendingKeys).map fun k => (ofLex k).2 := by
  rw [findPendingParseTaskPage_eq, ← pageRows_keys hlimit h, List.map_map, List.map_map]
  rfl

theorem findPendingParseTaskPage_cursor (hlimit : 1 ≤ limit)
    (h : UniqueKey MessageRow.id db.messages) (cursor : Option ScanPosition) :
    (db.findPendingParseTaskPage limit cursor).2.map toLex =
      KeysetWalk.next limit (cursor.map toLex) db.pendingKeys := by
  rw [findPendingParseTaskPage_eq, KeysetWalk.next, ← pageRows_keys hlimit h, List.getLast?_map,
    Option.map_map]
  rfl

end Db

/-- Each table keeps its primary key. -/
def KeepIds (dbs : List Db) : Prop := ∀ d ∈ dbs, UniqueKey MessageRow.id d.messages

instance (dbs : List Db) : Decidable (KeepIds dbs) :=
  inferInstanceAs (Decidable (∀ d ∈ dbs, (d.messages.map MessageRow.id).Nodup))

theorem nextPendingParseTaskPages_ids {limit : Nat} (hlimit : 1 ≤ limit) (more : List Db) :
    ∀ {cursor : Option ScanPosition} {db : Db}, KeepIds (db :: more) →
      (nextPendingParseTaskPages limit cursor (db :: more)).map (List.map ParseTask.messageId) =
        (KeysetWalk.pages limit (cursor.map toLex) db.pendingKeys (more.map Db.pendingKeys)).map
          (List.map fun k => (ofLex k).2) := by
  induction more with
  | nil =>
    intro cursor db hids
    have hpage := Db.findPendingParseTaskPage_ids hlimit (hids db List.mem_cons_self) cursor
    simp only [nextPendingParseTaskPages, List.map_cons, List.map_nil, KeysetWalk.pages, hpage]
  | cons db' more ih =>
    intro cursor db hids
    have hpage := Db.findPendingParseTaskPage_ids hlimit (hids db List.mem_cons_self) cursor
    have hcursor := Db.findPendingParseTaskPage_cursor hlimit (hids db List.mem_cons_self) cursor
    rw [nextPendingParseTaskPages, List.map_cons, ih fun d hd => hids d (List.mem_cons_of_mem _ hd),
      hpage, hcursor, List.map_cons, KeysetWalk.pages, List.map_cons]

theorem ScanRun.walk {limit : Nat} (hlimit : 1 ≤ limit)
    {gap : Option (Lex ScanPosition) → Finset (Lex ScanPosition) → Finset (Lex ScanPosition) → Prop}
    (more : List Db) :
    ∀ {cursor : Option ScanPosition} {db : Db}, KeepIds (db :: more) →
      (ScanRun limit (fun c d d' => gap (c.map toLex) d.pendingKeys d'.pendingKeys) cursor db more ↔
        KeysetWalk.Walk limit gap (cursor.map toLex) db.pendingKeys (more.map Db.pendingKeys)) := by
  induction more with
  | nil => exact fun _ => Iff.rfl
  | cons db' more ih =>
    intro cursor db hids
    have hcursor := Db.findPendingParseTaskPage_cursor hlimit (hids db List.mem_cons_self) cursor
    rw [ScanRun, ih fun d hd => hids d (List.mem_cons_of_mem _ hd), hcursor, List.map_cons,
      KeysetWalk.Walk]

/-! ## Who is served -/

/-- Fewer rows become pending between two calls than a page holds. -/
def FewInserted (limit : Nat) (cursor : Option ScanPosition) (db db' : Db) : Prop :=
  KeysetWalk.FewArrive limit (cursor.map toLex) db.pendingKeys db'.pendingKeys

/-- When fewer pending rows than a page holds, but at least one, lie beyond the cursor, and others do
    not, then none becomes pending beyond them before the next call. -/
def NotOvertaken (limit : Nat) (cursor : Option ScanPosition) (db db' : Db) : Prop :=
  KeysetWalk.NoneOvertakes limit (cursor.map toLex) db.pendingKeys db'.pendingKeys

instance (limit : Nat) (cursor : Option ScanPosition) (db db' : Db) :
    Decidable (FewInserted limit cursor db db' ∧ NotOvertaken limit cursor db db') :=
  inferInstanceAs (Decidable (KeysetWalk.FewArrive .. ∧ KeysetWalk.NoneOvertakes ..))

/-- Among `count` consecutive pages, the first read from a table with `n` pending rows, is one with each
    message that stays pending. -/
def ScanServes (limit n count : Nat) (gap : Option ScanPosition → Db → Db → Prop) : Prop :=
  ∀ (db : Db) (more : List Db) (cursor : Option ScanPosition), KeepIds (db :: more) →
    db.pendingRows.length = n → (db :: more).length = count → ScanRun limit gap cursor db more →
    ∀ position : ScanPosition, (∀ d ∈ db :: more, toLex position ∈ d.pendingKeys) →
      ∃ page ∈ nextPendingParseTaskPages limit cursor (db :: more),
        position.2 ∈ page.map ParseTask.messageId

/-- A scan that is not overtaken serves every message, however the table shrinks and grows. -/
theorem pending_scan_serves {limit : Nat} (hlimit : 1 ≤ limit) (n : Nat) :
    ScanServes limit n (n * limit + n + 1)
      (fun c d d' => FewInserted limit c d d' ∧ NotOvertaken limit c d d') := by
  intro db more cursor hids hn hcount hrun position hstay
  have hcard : db.pendingKeys.card = n := by
    rw [← hn]
    exact KeysetWalk.card_keys (Db.nodup_scanKey (hids db List.mem_cons_self) List.filter_sublist)
  rw [List.length_cons] at hcount
  obtain ⟨p, hp, hmem⟩ := KeysetWalk.mem_pages_of_card hlimit ((ScanRun.walk hlimit more hids).mp hrun)
    (hstay db List.mem_cons_self)
    (fun S hS => by
      obtain ⟨d, hd, rfl⟩ := List.mem_map.mp hS
      exact hstay d (List.mem_cons_of_mem _ hd))
    (by rw [hcard, List.length_map]; omega)
  have hpage : p.map (fun k => (ofLex k).2) ∈
      (nextPendingParseTaskPages limit cursor (db :: more)).map (List.map ParseTask.messageId) := by
    rw [nextPendingParseTaskPages_ids hlimit more hids]
    exact List.mem_map_of_mem hp
  obtain ⟨page, hpage, heq⟩ := List.mem_map.mp hpage
  refine ⟨page, hpage, ?_⟩
  rw [heq]
  exact List.mem_map.mpr ⟨toLex position, hmem, rfl⟩

/-! ## A scan that is overtaken -/

def waitingMessage (id : Text) (receivedAt : Timestamp) : MessageRow :=
  { id := id
    smtpSessionId := none
    rawPath := id
    rawSha256 := []
    rawSizeBytes := 1
    envelopeFrom := none
    receivedAt := receivedAt
    content := pendingContent none }

def waitingDb (rows : List (String × Timestamp)) : Db :=
  { Db.empty with messages := rows.map fun row => waitingMessage row.1.toList row.2 }

/-- What is pending at ten calls: rows leave and arrive, also behind and beyond the cursor. -/
def waitingDbs : List Db :=
  [waitingDb [("old", 0), ("a", 5), ("b", 6)], waitingDb [("old", 0), ("c", 7)],
    waitingDb [("old", 0), ("d", 2)]] ++ List.replicate 7 (waitingDb [("old", 0)])

/-- A full page, a short one, and the wrap: the old message is on the third page. -/
theorem pending_scan_serves_wrapped :
    ((nextPendingParseTaskPages 2 (some (3, "m".toList)) waitingDbs).map
        (List.map ParseTask.messageId)).take 3 =
      [["a".toList, "b".toList], ["c".toList], ["old".toList, "d".toList]] ∧
    ∃ page ∈ nextPendingParseTaskPages 2 (some (3, "m".toList)) waitingDbs,
      "old".toList ∈ page.map ParseTask.messageId :=
  ⟨by decide +kernel, pending_scan_serves (show 1 ≤ 2 by decide) 3 _ _ (some (3, "m".toList))
    (by decide +kernel) rfl rfl (by decide +kernel) (0, "old".toList) (by decide +kernel)⟩

/-- The message that arrives before call `i`. -/
def arrival (i : Nat) : MessageRow := waitingMessage (List.replicate (i + 1) 'm') (i + 1)

/-- The old message waits, and of the arrivals the newest. -/
def overtakenDb (i : Nat) : Db :=
  { Db.empty with messages := [waitingMessage "old".toList 0, arrival i] }

theorem pendingKeys_overtakenDb (i : Nat) :
    (overtakenDb i).pendingKeys =
      KeysetWalk.overtaken (toLex (0, "old".toList)) (fun i => (arrival i).scanKey) i := by
  ext k
  rw [Db.pendingKeys, KeysetWalk.mem_keys, KeysetWalk.mem_overtaken]
  constructor
  · rintro ⟨row, hrow, rfl⟩
    rcases List.mem_cons.mp (List.mem_of_mem_filter hrow) with rfl | hrow
    · exact .inl rfl
    · exact .inr (congrArg _ (List.mem_singleton.mp hrow))
  · rintro (rfl | rfl)
    · exact ⟨_, List.mem_cons_self, rfl⟩
    · exact ⟨arrival i, List.mem_cons_of_mem _ (List.mem_singleton_self _), rfl⟩

theorem arrival_id_ne (i : Nat) : (arrival i).id ≠ "old".toList := by
  rw [arrival, waitingMessage, List.replicate_succ]
  exact fun heq => absurd (List.cons.inj heq).1 (by decide)

theorem keepIds_overtaken (dbs : List Nat) : KeepIds (dbs.map overtakenDb) := by
  intro d hd
  obtain ⟨i, -, rfl⟩ := List.mem_map.mp hd
  refine List.nodup_cons.mpr ⟨fun hmem => ?_, List.nodup_singleton _⟩
  exact arrival_id_ne i (List.mem_singleton.mp hmem).symm

/-- Two pending rows, pages of two, and one arrival between two calls: no number of pages is enough. -/
theorem pending_scan_starves :
    ¬ ∀ limit, 1 ≤ limit → ∀ n, ∃ count, 1 ≤ count ∧
      ScanServes limit n count (FewInserted limit) := by
  intro hclaim
  obtain ⟨count, hcount, hserves⟩ := hclaim 2 (by omega) 2
  obtain ⟨rest, rfl⟩ := Nat.exists_eq_add_of_le' hcount
  have hmono : StrictMono fun i => (arrival i).scanKey :=
    fun i j hij => Prod.Lex.lt_iff.mpr (.inl (Nat.succ_lt_succ hij))
  have hlt : toLex (0, "old".toList) < (arrival 0).scanKey := Prod.Lex.lt_iff.mpr (.inl Nat.one_pos)
  have hids : KeepIds (overtakenDb 1 :: (List.range' 2 rest).map overtakenDb) :=
    keepIds_overtaken (1 :: List.range' 2 rest)
  have hkeys : ((List.range' 2 rest).map overtakenDb).map Db.pendingKeys =
      (List.range' 2 rest).map
        (KeysetWalk.overtaken (toLex (0, "old".toList)) fun i => (arrival i).scanKey) := by
    rw [List.map_map]
    exact List.map_congr_left fun i _ => pendingKeys_overtakenDb i
  have hrun : ScanRun 2 (FewInserted 2) (some (1, "m".toList)) (overtakenDb 1)
      ((List.range' 2 rest).map overtakenDb) := by
    refine (ScanRun.walk (by omega) _ hids).mpr ?_
    rw [hkeys, pendingKeys_overtakenDb]
    exact KeysetWalk.walk_overtaken (le_refl 2) _ _ rest 0 _
  have hstay : ∀ d ∈ overtakenDb 1 :: (List.range' 2 rest).map overtakenDb,
      toLex (0, "old".toList) ∈ d.pendingKeys := by
    intro d hd
    obtain ⟨i, -, rfl⟩ : ∃ i ∈ 1 :: List.range' 2 rest, overtakenDb i = d := List.mem_map.mp hd
    exact KeysetWalk.mem_keys.mpr ⟨_, List.mem_cons_self, rfl⟩
  obtain ⟨page, hpage, hold⟩ := hserves _ _ _ hids rfl
    (by rw [List.length_cons, List.length_map, List.length_range']) hrun _ hstay
  have hmem := List.mem_map_of_mem (f := List.map ParseTask.messageId) hpage
  rw [nextPendingParseTaskPages_ids (by omega) _ hids, hkeys, pendingKeys_overtakenDb] at hmem
  obtain ⟨p, hp, heq⟩ := List.mem_map.mp hmem
  rw [← heq] at hold
  obtain ⟨k, hk, hid⟩ := List.mem_map.mp hold
  obtain ⟨j, rfl⟩ := KeysetWalk.eq_of_mem_pages_overtaken (by omega) hlt hmono rest 0 p hp k hk
  exact arrival_id_ne j hid

end RapidInbox
