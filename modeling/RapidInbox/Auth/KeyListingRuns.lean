import RapidInbox.Auth.Delegation
import RapidInbox.Auth.KeyListing

/-!
# The list of API keys is complete

Wherever the scan is cut, the rows behind the continuation position are the rows it has left.
-/

namespace RapidInbox
namespace KeyDirectory

variable {E : StdText} {dir : KeyDirectory} {principal : PermissionContext} {wanted : Nat}

/-! ## The rows behind a position -/

/-- The position of a row in the order of the list. -/
def rank (dir : KeyDirectory) (row : ApiKeyRow) : Lex (Text × Nat) := toLex (dir.positionOf row)

/-- The rows that a scan from here on may meet. -/
def rowsAfter (dir : KeyDirectory) (position : Option (Text × Nat)) : List ApiKeyRow :=
  Keyset.rowsAfter dir.rank (position.map toLex) dir.db.apiKeys

theorem nodup_rank (dir : KeyDirectory) : (dir.db.apiKeys.map dir.rank).Nodup := by
  have h := dir.ids
  rw [List.Nodup, List.pairwise_map] at h ⊢
  refine h.imp fun hne heq => hne ?_
  exact congrArg (fun k => (ofLex k).2) heq

theorem fetchRows_eq (position : Option (Text × Nat)) (limit : Nat) :
    dir.fetchRows position limit = (dir.rowsAfter position).take limit := by
  have hbehind : dir.isBehind position = Keyset.behind dir.rank (position.map toLex) := by
    funext row
    cases position with
    | none => rfl
    | some p =>
      apply Bool.eq_iff_iff.mpr
      show dir.isBehind (some p) row = true ↔ decide (dir.rank row < toLex p) = true
      rw [decide_eq_true_iff, Prod.Lex.lt_iff, isBehind, Option.all_some, Bool.or_eq_true,
        Bool.and_eq_true, decide_eq_true_iff, decide_eq_true_iff, decide_eq_true_iff]
      rfl
  have horder : ∀ a b, dir.listedBefore a b ↔ dir.rank b ≤ dir.rank a := by
    intro a b
    rw [listedBefore, rank, rank, Prod.Lex.le_iff]
    rfl
  rw [fetchRows, Keyset.listing_eq horder, hbehind]
  rfl

/-- Behind the last of some rows come the rest. -/
theorem rowsAfter_of_getLast? {position : Option (Text × Nat)} {k : Nat} :
    dir.rowsAfter ((((dir.rowsAfter position).take k).getLast?.map dir.positionOf).or position) =
      (dir.rowsAfter position).drop k := by
  cases hlast : ((dir.rowsAfter position).take k).getLast? with
  | none =>
    rw [List.getLast?_eq_none_iff, List.take_eq_nil_iff] at hlast
    rcases hlast with rfl | hnil
    · rfl
    · rw [Option.map_none, Option.none_or, hnil, List.drop_nil]
  | some row =>
    obtain ⟨before, hbefore⟩ := List.getLast?_eq_some_iff.mp hlast
    have hsplit : dir.rowsAfter position = before ++ row :: (dir.rowsAfter position).drop k := by
      conv_lhs => rw [← List.take_append_drop k (dir.rowsAfter position), hbefore]
      rw [List.append_assoc]
      rfl
    exact Keyset.rowsAfter_split dir.nodup_rank hsplit

/-! ## One page -/

/-- The rows among these that the caller may see. -/
def visibleAmong (E : StdText) (dir : KeyDirectory) (principal : PermissionContext)
    (rows : List ApiKeyRow) : List ListedApiKey :=
  (rows.filter (dir.isVisible E principal)).map dir.hydrateApiKeyRow

theorem visibleAmong_append (rows more : List ApiKeyRow) :
    visibleAmong E dir principal (rows ++ more) =
      visibleAmong E dir principal rows ++ visibleAmong E dir principal more := by
  rw [visibleAmong, List.filter_append, List.map_append]
  rfl

/-- A page that has scanned the first rows behind its position. -/
structure IsPage (E : StdText) (dir : KeyDirectory) (principal : PermissionContext) (wanted : Nat)
    (position : Option (Text × Nat)) (page : ApiKeyScanPage) : Prop where
  scanned : page.scannedRows ≤ (dir.rowsAfter position).length
  items : page.items =
    visibleAmong E dir principal ((dir.rowsAfter position).take page.scannedRows)
  size : page.items.length ≤ wanted
  more : page.hasMore = true ↔ page.scannedRows < (dir.rowsAfter position).length
  progress : page.hasMore = true → 0 < page.scannedRows
  continuation : page.continuationPosition = if page.hasMore then
    ((dir.rowsAfter position).take page.scannedRows).getLast?.map dir.positionOf else none

/-- The loops after `k` rows. -/
structure Scanned (E : StdText) (dir : KeyDirectory) (principal : PermissionContext) (wanted : Nat)
    (position : Option (Text × Nat)) (k : Nat) (s : ScanState) : Prop where
  count : s.scannedRows = k
  le : k ≤ (dir.rowsAfter position).length
  visible : s.visible = visibleAmong E dir principal ((dir.rowsAfter position).take k)
  room : s.visible.length < wanted
  scanPosition : s.scanPosition =
    (((dir.rowsAfter position).take k).getLast?.map dir.positionOf).or position

variable {position : Option (Text × Nat)} {k : Nat} {s : ScanState}

theorem take_succ_of_drop {rows rest : List ApiKeyRow} {row : ApiKeyRow} (h : rows.drop k = row :: rest) :
    rows.take (k + 1) = rows.take k ++ [row] ∧ rows.drop (k + 1) = rest ∧ k < rows.length := by
  have hlt : k < rows.length := by
    by_contra hge
    rw [List.drop_eq_nil_of_le (not_lt.mp hge)] at h
    cases h
  have hget : rows[k]? = some row := by
    rw [← List.head?_drop, h]
    rfl
  refine ⟨?_, ?_, hlt⟩
  · rw [List.take_add_one, hget]
    rfl
  · rw [← List.tail_drop, h]
    rfl

/-- One more row has been scanned. -/
theorem Scanned.next {row : ApiKeyRow} {rest : List ApiKeyRow} {visible : List ListedApiKey}
    (h : Scanned E dir principal wanted position k s)
    (hdrop : (dir.rowsAfter position).drop k = row :: rest)
    (hvisible : visible = s.visible ++ visibleAmong E dir principal [row])
    (hroom : visible.length < wanted) :
    Scanned E dir principal wanted position (k + 1)
      ⟨visible, some (dir.positionOf row), s.scannedRows + 1⟩ := by
  obtain ⟨htake, -, hlt⟩ := take_succ_of_drop hdrop
  refine ⟨by rw [h.count], hlt, ?_, hroom, ?_⟩
  · rw [hvisible, h.visible, htake, visibleAmong_append]
  · rw [htake, List.getLast?_concat]
    rfl

/-- The rows of a batch: a page is returned when the last wanted row is met, else all of them have been
    scanned. -/
theorem processRows_spec {fetched rowIndex limit start : Nat} {rows : List ApiKeyRow}
    (h : Scanned E dir principal wanted position (start + rowIndex) s)
    (hrows : rows = ((dir.rowsAfter position).drop (start + rowIndex)).take (limit - rowIndex))
    (hfetched : fetched = min (limit + 1) ((dir.rowsAfter position).length - start)) :
    match dir.processRows E principal wanted fetched rowIndex rows s with
    | .inl page => IsPage E dir principal wanted position page
    | .inr s' =>
      Scanned E dir principal wanted position (start + rowIndex + rows.length) s' := by
  induction rows generalizing rowIndex s with
  | nil => exact h
  | cons row rows ih =>
    cases hdrop : (dir.rowsAfter position).drop (start + rowIndex) with
    | nil =>
      rw [hdrop, List.take_nil] at hrows
      cases hrows
    | cons first rest =>
      obtain ⟨htake, htail, hlt⟩ := take_succ_of_drop hdrop
      have hlimit : rowIndex < limit := by
        by_contra hge
        rw [Nat.sub_eq_zero_of_le (not_lt.mp hge), List.take_zero] at hrows
        cases hrows
      rw [hdrop, show limit - rowIndex = (limit - (rowIndex + 1)) + 1 by omega,
        List.take_succ_cons] at hrows
      obtain ⟨rfl, htailRows⟩ := List.cons.inj hrows
      have hrest : rows = ((dir.rowsAfter position).drop (start + (rowIndex + 1))).take
          (limit - (rowIndex + 1)) := by
        rw [htailRows, ← Nat.add_assoc, htail]
      have hlength : start + rowIndex + (row :: rows).length =
          start + (rowIndex + 1) + rows.length := by
        rw [List.length_cons]
        omega
      rw [processRows]
      dsimp only
      by_cases hvisible : dir.isVisible E principal row = true
      · have hone : visibleAmong E dir principal [row] = [dir.hydrateApiKeyRow row] := by
          rw [visibleAmong, List.filter_cons_of_pos hvisible]
          rfl
        rw [if_pos hvisible]
        by_cases hfull : wanted ≤ (s.visible ++ [dir.hydrateApiKeyRow row]).length
        · rw [if_pos hfull]
          -- the rows that were read tell whether there is one more
          have hmore : rowIndex + 1 < fetched ↔
              start + rowIndex + 1 < (dir.rowsAfter position).length := by
            omega
          have hroom := h.room
          refine ⟨?_, ?_, ?_, ?_, ?_, ?_⟩
          · dsimp only
            rw [h.count]
            exact hlt
          · dsimp only
            rw [h.count, htake, visibleAmong_append, hone, h.visible]
          · dsimp only
            rw [List.length_append, List.length_singleton]
            exact hroom
          · dsimp only
            rw [h.count, decide_eq_true_iff]
            exact hmore
          · exact fun _ => Nat.succ_pos _
          · dsimp only
            rw [h.count, htake, List.getLast?_concat]
            rfl
        · rw [if_neg hfull, hlength]
          exact ih (h.next hdrop (by rw [hone]) (not_le.mp hfull)) hrest
      · have hnone : visibleAmong E dir principal [row] = [] := by
          rw [visibleAmong, List.filter_cons_of_neg hvisible]
          rfl
        rw [if_neg hvisible, hlength]
        exact ih (h.next hdrop (by rw [hnone, List.append_nil]) h.room) hrest

/-- Everything has been scanned. -/
theorem Scanned.lastPage (h : Scanned E dir principal wanted position k s)
    (hk : k = (dir.rowsAfter position).length) :
    IsPage E dir principal wanted position ⟨s.visible, none, false, s.scannedRows⟩ where
  scanned := by
    rw [h.count]
    exact h.le
  items := by
    rw [h.count]
    exact h.visible
  size := Nat.le_of_lt h.room
  more := by
    rw [h.count, hk]
    exact ⟨nofun, fun hlt => absurd hlt (Nat.lt_irrefl _)⟩
  progress := by exact nofun
  continuation := rfl

/-- The budget is used up, and there are more rows. -/
theorem Scanned.budgetPage (h : Scanned E dir principal wanted position k s) (hpos : 0 < k)
    (hk : k < (dir.rowsAfter position).length) :
    IsPage E dir principal wanted position (KeyDirectory.budgetPage s) := by
  have hposition : s.scanPosition =
      ((dir.rowsAfter position).take k).getLast?.map dir.positionOf := by
    cases hlast : ((dir.rowsAfter position).take k).getLast? with
    | none =>
      rw [List.getLast?_eq_none_iff, List.take_eq_nil_iff] at hlast
      rcases hlast with rfl | hnil
      · exact absurd hpos (Nat.lt_irrefl _)
      · rw [hnil] at hk
        exact absurd hk (Nat.not_lt_zero _)
    | some row =>
      rw [h.scanPosition, hlast]
      rfl
  have hsome : s.scanPosition.isSome = true := by
    rw [hposition, Option.isSome_map, List.getLast?_isSome]
    intro hnil
    rcases List.take_eq_nil_iff.mp hnil with rfl | hnil
    · exact absurd hpos (Nat.lt_irrefl _)
    · rw [hnil] at hk
      exact absurd hk (Nat.not_lt_zero _)
  have hcount : (KeyDirectory.budgetPage s).scannedRows = k := h.count
  have hmore : (KeyDirectory.budgetPage s).hasMore = true := hsome
  refine ⟨?_, ?_, Nat.le_of_lt h.room, ?_, ?_, ?_⟩
  · rw [hcount]
    exact h.le
  · rw [hcount]
    exact h.visible
  · rw [hcount]
    exact ⟨fun _ => hk, fun _ => hmore⟩
  · rw [hcount]
    exact fun _ => hpos
  · rw [hcount, if_pos hmore]
    exact hposition

theorem scanBudget_pos (wanted : Nat) : 0 < scanBudget wanted := by
  unfold scanBudget apiKeyScanMaxRows apiKeyScanMinRows
  omega

theorem batchSize_pos (wanted : Nat) : 0 < batchSize wanted := by
  unfold batchSize
  omega

theorem scanBatches_spec {rounds : Nat} (h : Scanned E dir principal wanted position k s)
    (hrounds : scanBudget wanted ≤ rounds + k)
    (hmore : 0 < k → k < (dir.rowsAfter position).length) :
    IsPage E dir principal wanted position (dir.scanBatches E principal wanted rounds s) := by
  have hbudget := scanBudget_pos wanted
  induction rounds generalizing k s with
  | zero =>
    have hpos : 0 < k := by omega
    exact h.budgetPage hpos (hmore hpos)
  | succ rounds ih =>
    rw [scanBatches, h.count]
    by_cases hcontinue : s.visible.length < wanted ∧ k < scanBudget wanted
    · rw [if_pos hcontinue]
      dsimp only
      have hbatch := batchSize_pos wanted
      have hlimit : 0 < min (batchSize wanted) (scanBudget wanted - k) := by omega
      generalize min (batchSize wanted) (scanBudget wanted - k) = limit at hlimit
      have hfetch : dir.fetchRows s.scanPosition (limit + 1) =
          ((dir.rowsAfter position).drop k).take (limit + 1) := by
        rw [fetchRows_eq, h.scanPosition, rowsAfter_of_getLast?]
      have hlength : (((dir.rowsAfter position).drop k).take (limit + 1)).length =
          min (limit + 1) ((dir.rowsAfter position).length - k) := by
        rw [List.length_take, List.length_drop]
      have htake : (((dir.rowsAfter position).drop k).take (limit + 1)).take limit =
          ((dir.rowsAfter position).drop (k + 0)).take (limit - 0) := by
        rw [List.take_take, Nat.min_eq_left (Nat.le_succ limit)]
        rfl
      have hle := h.le
      rw [hfetch]
      by_cases hnil : ((dir.rowsAfter position).drop k).take (limit + 1) = []
      · rw [if_pos hnil]
        rw [hnil, List.length_nil] at hlength
        have := h.lastPage (by omega)
        rwa [h.count] at this
      · rw [if_neg hnil]
        have hprocessed := @processRows_spec _ _ _ _ _ _ _ 0 _ _ _ h htake hlength
        split
        · rename_i page hpage
          rw [hpage] at hprocessed
          exact hprocessed
        · rename_i s' hs'
          rw [hs'] at hprocessed
          dsimp only at hprocessed
          have hscanned : ((((dir.rowsAfter position).drop k).take (limit + 1)).take limit).length =
              min limit ((dir.rowsAfter position).length - k) := by
            rw [List.length_take, hlength]
            omega
          rw [hscanned] at hprocessed
          by_cases hlast : (((dir.rowsAfter position).drop k).take (limit + 1)).length ≤ limit
          · rw [if_pos hlast]
            rw [hlength] at hlast
            exact hprocessed.lastPage (by omega)
          · rw [if_neg hlast]
            rw [hlength] at hlast
            exact ih hprocessed (by omega) (fun _ => by omega)
    · rw [if_neg hcontinue]
      have hpos : 0 < k := by
        have := h.room
        omega
      exact h.budgetPage hpos (hmore hpos)

/-- A call scans from its position. -/
theorem listApiKeysKeyset_spec (E : StdText) (dir : KeyDirectory) (principal : PermissionContext)
    {wanted : Nat} (hwanted : 1 ≤ wanted) (position : Option (Text × Nat)) :
    ∃ page, dir.listApiKeysKeyset E principal wanted position = .ok page ∧
      IsPage E dir principal wanted position page := by
  rw [listApiKeysKeyset, if_neg (not_lt.mpr hwanted)]
  refine ⟨_, rfl, ?_⟩
  have hstart : Scanned E dir principal wanted position 0 ⟨[], position, 0⟩ :=
    ⟨rfl, Nat.zero_le _, rfl, hwanted, rfl⟩
  exact scanBatches_spec hstart (Nat.le_refl _) (fun h => absurd h (Nat.lt_irrefl _))

/-! ## All pages -/

variable {page : ApiKeyScanPage}

/-- The next page goes on where this one ended. -/
theorem IsPage.rowsAfter_continuation (h : IsPage E dir principal wanted position page)
    (hmore : page.hasMore = true) :
    ∃ row ∈ dir.rowsAfter position, page.continuationPosition = some (dir.positionOf row) ∧
      dir.rowsAfter page.continuationPosition = (dir.rowsAfter position).drop page.scannedRows := by
  have hne : (dir.rowsAfter position).take page.scannedRows ≠ [] := by
    have hpos := h.progress hmore
    have hlt := h.more.mp hmore
    intro hnil
    have hlength := congrArg List.length hnil
    rw [List.length_take, List.length_nil] at hlength
    omega
  obtain ⟨row, hrow⟩ := Option.isSome_iff_exists.mp (List.getLast?_isSome.mpr hne)
  have hcontinuation : page.continuationPosition = some (dir.positionOf row) := by
    rw [h.continuation, if_pos hmore, hrow]
    rfl
  refine ⟨row, List.mem_of_mem_take (List.mem_of_getLast? hrow), hcontinuation, ?_⟩
  rw [hcontinuation, ← rowsAfter_of_getLast?, hrow]
  rfl

/-- What the pages from a position on have listed. -/
structure Listed (E : StdText) (dir : KeyDirectory) (principal : PermissionContext)
    (position : Option (Text × Nat)) (sizes : List Nat) (pages : List ApiKeyScanPage) : Prop where
  items : pages.flatMap ApiKeyScanPage.items <+: visibleAmong E dir principal (dir.rowsAfter position)
  later : ∀ p ∈ position, ∀ q ∈ pages.filterMap ApiKeyScanPage.continuationPosition, toLex q < toLex p
  decreasing : (pages.filterMap ApiKeyScanPage.continuationPosition).Pairwise
    fun p q => toLex q < toLex p
  complete : (dir.rowsAfter position).length < sizes.length →
    pages.flatMap ApiKeyScanPage.items = visibleAmong E dir principal (dir.rowsAfter position) ∧
      pages.getLast?.map ApiKeyScanPage.hasMore = some false

theorem IsPage.listed_of_last (h : IsPage E dir principal wanted position page)
    (hmore : ¬ page.hasMore = true) (sizes : List Nat) :
    Listed E dir principal position sizes [page] := by
  have hall : page.items = visibleAmong E dir principal (dir.rowsAfter position) := by
    have hle : (dir.rowsAfter position).length ≤ page.scannedRows :=
      not_lt.mp fun hlt => hmore (h.more.mpr hlt)
    rw [h.items, List.take_of_length_le hle]
  have hnone : page.continuationPosition = none := by
    rw [h.continuation, if_neg hmore]
  have hpages : [page].flatMap ApiKeyScanPage.items = page.items := List.append_nil _
  have hpositions : [page].filterMap ApiKeyScanPage.continuationPosition = [] := by
    rw [List.filterMap_cons_none hnone]
    rfl
  refine ⟨?_, ?_, ?_, fun _ => ⟨hpages.trans hall, ?_⟩⟩
  · rw [hpages, hall]
  · rw [hpositions]
    exact fun _ _ _ hq => nomatch hq
  · rw [hpositions]
    exact List.Pairwise.nil
  · rw [List.getLast?_singleton, Option.map_some, Bool.eq_false_iff.mpr hmore]

theorem IsPage.listed_of_more (h : IsPage E dir principal wanted position page)
    (hmore : page.hasMore = true) {sizes : List Nat} {pages : List ApiKeyScanPage}
    (hrest : Listed E dir principal page.continuationPosition sizes pages) :
    Listed E dir principal position (wanted :: sizes) (page :: pages) := by
  obtain ⟨row, hrow, hcontinuation, hafter⟩ := h.rowsAfter_continuation hmore
  have hsplit : visibleAmong E dir principal (dir.rowsAfter position) =
      page.items ++ visibleAmong E dir principal (dir.rowsAfter page.continuationPosition) := by
    rw [hafter, h.items, ← visibleAmong_append, List.take_append_drop]
  have hpositions : (page :: pages).filterMap ApiKeyScanPage.continuationPosition =
      dir.positionOf row :: pages.filterMap ApiKeyScanPage.continuationPosition :=
    List.filterMap_cons_some hcontinuation
  refine ⟨?_, ?_, ?_, ?_⟩
  · rw [hsplit, List.flatMap_cons, List.prefix_append_right_inj]
    exact hrest.items
  · intro p hp q hq
    have hbehind : dir.rank row < toLex p := by
      rw [Option.mem_def.mp hp] at hrow
      exact Keyset.lt_of_mem_rowsAfter hrow
    rw [hpositions] at hq
    rcases List.mem_cons.mp hq with rfl | hq
    · exact hbehind
    · exact lt_trans (hrest.later _ hcontinuation q hq) hbehind
  · rw [hpositions, List.pairwise_cons]
    exact ⟨fun q hq => hrest.later _ hcontinuation q hq, hrest.decreasing⟩
  · intro hlength
    have hpos := h.progress hmore
    have hlt := h.more.mp hmore
    have hfew : (dir.rowsAfter page.continuationPosition).length < sizes.length := by
      rw [hafter, List.length_drop]
      rw [List.length_cons] at hlength
      omega
    obtain ⟨hitems, hlast⟩ := hrest.complete hfew
    refine ⟨by rw [hsplit, List.flatMap_cons, hitems], ?_⟩
    cases pages with
    | nil => cases hlast
    | cons next pages =>
      rw [List.getLast?_cons_cons]
      exact hlast

theorem followPages_spec (E : StdText) (dir : KeyDirectory) (principal : PermissionContext)
    {sizes : List Nat} (hsizes : ∀ wanted ∈ sizes, 1 ≤ wanted) (position : Option (Text × Nat)) :
    ∃ pages, dir.followPages E principal position sizes = .ok pages ∧
      Listed E dir principal position sizes pages := by
  induction sizes generalizing position with
  | nil =>
    refine ⟨[], rfl, ⟨List.nil_prefix, ?_, List.Pairwise.nil, ?_⟩⟩
    · exact fun _ _ _ hq => nomatch hq
    · exact fun hlt => absurd hlt (Nat.not_lt_zero _)
  | cons wanted sizes ih =>
    obtain ⟨hwanted, hsizes⟩ := List.forall_mem_cons.mp hsizes
    obtain ⟨page, hpage, hspec⟩ := listApiKeysKeyset_spec E dir principal hwanted position
    by_cases hmore : page.hasMore = true
    · obtain ⟨pages, hpages, hlisted⟩ := ih hsizes page.continuationPosition
      refine ⟨page :: pages, ?_, hspec.listed_of_more hmore hlisted⟩
      rw [followPages, hpage]
      show (if page.hasMore = true then _ else _) = _
      rw [if_pos hmore, hpages]
      rfl
    · refine ⟨[page], ?_, hspec.listed_of_last hmore _⟩
      rw [followPages, hpage]
      show (if page.hasMore = true then _ else _) = _
      rw [if_neg hmore]
      rfl

/-- The keys the caller may see, from the newest to the oldest. -/
def visibleKeys (E : StdText) (dir : KeyDirectory) (principal : PermissionContext) : List ListedApiKey :=
  visibleAmong E dir principal (Keyset.listing dir.rank dir.db.apiKeys)

theorem mem_visibleKeys {item : ListedApiKey} : item ∈ visibleKeys E dir principal ↔
    ∃ row ∈ dir.db.apiKeys, apiKeyIsWithinPrincipal E principal (dir.hydrateApiKeyRow row).policy = true ∧
      dir.hydrateApiKeyRow row = item := by
  simp only [visibleKeys, visibleAmong, List.mem_map, List.mem_filter, Keyset.listing_perm.mem_iff,
    isVisible, and_assoc]

theorem pairwise_visibleKeys : (visibleKeys E dir principal).Pairwise
    fun a b => toLex (b.createdAt, b.id) < toLex (a.createdAt, a.id) := by
  rw [visibleKeys, visibleAmong, List.pairwise_map]
  exact (Keyset.pairwise_listing dir.nodup_rank).filter _

/-- Each page scans from its position and says that there is more exactly when rows are left.  Whatever
    the sizes of the pages, the positions decrease and the items are those of the list, in order and
    without gaps; and after no more pages than there are rows, and one, all of them have been listed. -/
theorem api_key_listing_complete (E : StdText) (dir : KeyDirectory) (principal : PermissionContext) :
    ((visibleKeys E dir principal).Pairwise
        fun a b => toLex (b.createdAt, b.id) < toLex (a.createdAt, a.id)) ∧
      (∀ item, item ∈ visibleKeys E dir principal ↔ ∃ row ∈ dir.db.apiKeys,
        apiKeyIsWithinPrincipal E principal (dir.hydrateApiKeyRow row).policy = true ∧
          dir.hydrateApiKeyRow row = item) ∧
      (∀ wanted position, 1 ≤ wanted → ∃ page,
        dir.listApiKeysKeyset E principal wanted position = .ok page ∧
          IsPage E dir principal wanted position page) ∧
      ∀ sizes : List Nat, (∀ wanted ∈ sizes, 1 ≤ wanted) → ∃ pages,
        dir.followPages E principal none sizes = .ok pages ∧
          (pages.filterMap ApiKeyScanPage.continuationPosition).Pairwise
            (fun p q => toLex q < toLex p) ∧
          pages.flatMap ApiKeyScanPage.items <+: visibleKeys E dir principal ∧
          (dir.db.apiKeys.length < sizes.length →
            pages.flatMap ApiKeyScanPage.items = visibleKeys E dir principal ∧
              pages.getLast?.map ApiKeyScanPage.hasMore = some false) := by
  refine ⟨pairwise_visibleKeys, fun item => mem_visibleKeys, ?_, ?_⟩
  · intro wanted position hwanted
    exact listApiKeysKeyset_spec E dir principal hwanted position
  · intro sizes hsizes
    obtain ⟨pages, hpages, hlisted⟩ := followPages_spec E dir principal hsizes none
    have hall : dir.rowsAfter none = Keyset.listing dir.rank dir.db.apiKeys :=
      Keyset.rowsAfter_none _
    have hlength : (dir.rowsAfter none).length = dir.db.apiKeys.length := by
      rw [hall]
      exact Keyset.listing_perm.length_eq
    refine ⟨pages, hpages, hlisted.decreasing, ?_, ?_⟩
    · rw [visibleKeys, ← hall]
      exact hlisted.items
    · rw [visibleKeys, ← hall, ← hlength]
      exact hlisted.complete

/-- A key with nothing but its id. -/
def plainKey (id : Nat) : ApiKeyRow :=
  { id, publicId := [], name := [], kind := .admin, keyPrefix := [], secretHash := []
    ownerAdminId := none, createdByAdminId := none, status := .active, domainGrantMode := .none
    allowHeader := true, allowQuery := true, rateLimitPerMin := 0, allowedIpCidrs := .absent
    expiresAt := none, revokedAt := none }

/-- Three keys of the same time; the second may do more than a viewer. -/
def sampleDirectory : KeyDirectory where
  db := { AuthDb.empty with
    apiKeys := [plainKey 1, plainKey 2, plainKey 3]
    apiKeyScopes := [(2, "api_keys.write".toList)] }
  createdAt := fun _ => []
  ids := by decide

theorem api_key_listing_complete_sample :
    ∃ pages, sampleDirectory.followPages .sample (roleContext .viewer (some 1) none) none [1, 1, 1, 1] =
        .ok pages ∧
      (pages.flatMap ApiKeyScanPage.items).map ListedApiKey.id = [3, 1] ∧
      ∃ page, sampleDirectory.listApiKeysKeyset .sample (roleContext .viewer (some 1) none) 1 none =
          .ok page ∧
        IsPage .sample sampleDirectory (roleContext .viewer (some 1) none) 1 none page := by
  obtain ⟨-, -, hpage, hpages⟩ :=
    api_key_listing_complete .sample sampleDirectory (roleContext .viewer (some 1) none)
  obtain ⟨pages, hfollow, -, -, hcomplete⟩ := hpages [1, 1, 1, 1] (by decide)
  refine ⟨pages, hfollow, ?_, hpage 1 none (by decide)⟩
  rw [(hcomplete (by decide)).1]
  decide +kernel

end KeyDirectory
end RapidInbox
