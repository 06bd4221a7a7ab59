import Mathlib.Data.List.Nodup

/-!
# Tables with keys

A table is a list of rows, and a key is a function of a row that no two rows share.  The lemmas say
what a lookup by key finds and which changes of a table keep a key.
-/

namespace Table

variable {α β κ : Type*}

/-- No two rows have the same key. -/
def UniqueKey (key : α → κ) (rows : List α) : Prop := (rows.map key).Nodup

/-- `UPDATE … SET f WHERE p`. -/
def updateWhere (p : α → Bool) (f : α → α) (rows : List α) : List α :=
  rows.map fun a => if p a then f a else a

theorem mem_updateWhere {p : α → Bool} {f : α → α} {rows : List α} {b : α} :
    b ∈ updateWhere p f rows ↔ ∃ a ∈ rows, b = if p a then f a else a := by
  simp only [updateWhere, List.mem_map]
  constructor
  · rintro ⟨a, ha, rfl⟩
    exact ⟨a, ha, rfl⟩
  · rintro ⟨a, ha, rfl⟩
    exact ⟨a, ha, rfl⟩

/-- An update that leaves a column alone does not change the list of that column. -/
theorem map_updateWhere {p : α → Bool} {f : α → α} {g : α → β} (hf : ∀ a, g (f a) = g a)
    (rows : List α) : (updateWhere p f rows).map g = rows.map g := by
  rw [updateWhere, List.map_map]
  apply List.map_congr_left
  intro a _
  simp only [Function.comp_apply]
  split
  · exact hf a
  · rfl

namespace UniqueKey

variable {key : α → κ} {rows : List α}

theorem eq_of_mem (h : UniqueKey key rows) {a b : α} (ha : a ∈ rows) (hb : b ∈ rows)
    (hab : key a = key b) : a = b :=
  List.inj_on_of_nodup_map h ha hb hab

theorem updateWhere (h : UniqueKey key rows) {p : α → Bool} {f : α → α}
    (hf : ∀ a, key (f a) = key a) : UniqueKey key (updateWhere p f rows) := by
  unfold UniqueKey
  rw [map_updateWhere hf]
  exact h

theorem filter (h : UniqueKey key rows) (p : α → Bool) : UniqueKey key (rows.filter p) :=
  List.Nodup.sublist (List.filter_sublist.map key) h

theorem append_singleton (h : UniqueKey key rows) {a : α} (ha : ∀ b ∈ rows, key b ≠ key a) :
    UniqueKey key (rows ++ [a]) := by
  unfold UniqueKey
  rw [List.map_append, List.map_singleton, List.nodup_append]
  refine ⟨h, List.nodup_singleton _, ?_⟩
  intro k hk k' hk' heq
  obtain ⟨b, hb, rfl⟩ := List.mem_map.mp hk
  exact ha b hb (heq.trans (List.mem_singleton.mp hk'))

/-- Rows that are dropped or rewritten keep a key if rows with the same new key had the same old
    one. -/
theorem filterMap {κ' : Type*} {key' : β → κ'} {f : α → Option β} (h : UniqueKey key rows)
    (hf : ∀ a ∈ rows, ∀ a' ∈ rows, ∀ b ∈ f a, ∀ b' ∈ f a', key' b = key' b' → key a = key a') :
    UniqueKey key' (rows.filterMap f) := by
  unfold UniqueKey at h ⊢
  rw [List.Nodup, List.pairwise_map] at h ⊢
  rw [List.pairwise_filterMap]
  refine h.imp_of_mem ?_
  intro a a' ha ha' hne b hb b' hb' heq
  exact hne (hf a ha a' ha' b hb b' hb' heq)

variable [DecidableEq κ]

/-- A lookup by key finds the row that has it. -/
theorem find?_eq_some (h : UniqueKey key rows) {a : α} (ha : a ∈ rows) {k : κ} (hk : key a = k) :
    rows.find? (fun b => key b = k) = some a := by
  cases hfind : rows.find? (fun b => key b = k) with
  | none =>
    have hnone := List.find?_eq_none.mp hfind a ha
    simp [hk] at hnone
  | some b =>
    have hb : key b = k := by simpa using List.find?_some hfind
    have hmem := List.mem_of_find?_eq_some hfind
    rw [h.eq_of_mem hmem ha (hb.trans hk.symm)]

/-- An update of the row with a key writes one row. -/
theorem updateWhere_eq (h : UniqueKey key rows) {a : α} (ha : a ∈ rows) (f : α → α) :
    Table.updateWhere (fun b => key b = key a) f rows =
      Table.updateWhere (fun b => key b = key a) (fun _ => f a) rows := by
  apply List.map_congr_left
  intro b hb
  by_cases hk : key b = key a
  · rw [h.eq_of_mem hb ha hk]
  · simp [hk]

/-- All rows with a given key are the one row a lookup finds. -/
theorem filter_eq_toList (h : UniqueKey key rows) (k : κ) :
    rows.filter (fun b => key b = k) = (rows.find? (fun b => key b = k)).toList := by
  induction rows with
  | nil => rfl
  | cons a rows ih =>
    have hnodup := List.nodup_cons.mp h
    by_cases hk : key a = k
    · have hrest : rows.filter (fun b => key b = k) = [] := by
        apply List.filter_eq_nil_iff.mpr
        intro b hb hbk
        have : key b = k := by simpa using hbk
        exact hnodup.1 (List.mem_map.mpr ⟨b, hb, this.trans hk.symm⟩)
      simp [hk, hrest]
    · simpa [hk] using ih hnodup.2

end UniqueKey

/-- A lookup by key returns a row of the table with that key. -/
theorem find?_key [DecidableEq κ] {key : α → κ} {rows : List α} {k : κ} {a : α}
    (h : rows.find? (fun b => key b = k) = some a) : a ∈ rows ∧ key a = k :=
  ⟨List.mem_of_find?_eq_some h, by simpa using List.find?_some h⟩

/-- A lookup by key fails exactly when no row has the key. -/
theorem find?_key_none [DecidableEq κ] {key : α → κ} {rows : List α} {k : κ} :
    rows.find? (fun b => key b = k) = none ↔ ∀ b ∈ rows, key b ≠ k := by
  simp [List.find?_eq_none]

/-- The row with a key, after an update of that row. -/
theorem find?_updateWhere [DecidableEq κ] {key : α → κ} {f : α → α} (hf : ∀ a, key (f a) = key a)
    (rows : List α) (k : κ) :
    (updateWhere (fun a => key a = k) f rows).find? (fun a => key a = k) =
      (rows.find? fun a => key a = k).map f := by
  induction rows with
  | nil => rfl
  | cons a rows ih =>
    by_cases hk : key a = k
    · simp [updateWhere, hk, hf]
    · simpa [updateWhere, hk] using ih

/-- The row with a key, after an update of rows with another key. -/
theorem find?_updateWhere_ne [DecidableEq κ] {key : α → κ} {f : α → α} (hf : ∀ a, key (f a) = key a)
    {k k' : κ} (hne : k ≠ k') (rows : List α) :
    (updateWhere (fun a => key a = k') f rows).find? (fun a => key a = k) =
      rows.find? fun a => key a = k := by
  induction rows with
  | nil => rfl
  | cons a rows ih =>
    by_cases hk' : key a = k'
    · have hk : key a ≠ k := fun hk => hne (hk.symm.trans hk')
      simpa [updateWhere, hk', hf, hk, hne.symm] using ih
    · by_cases hk : key a = k
      · simp [updateWhere, hk, hne]
      · simpa [updateWhere, hk', hk] using ih

/-- `INSERT … ON CONFLICT(key) DO UPDATE SET f`: the row with the key of the new one is updated, or
    the new one is appended. -/
def upsert [DecidableEq κ] (key : α → κ) (f : α → α) (new : α) (rows : List α) : List α :=
  if rows.any fun a => key a = key new then updateWhere (fun a => key a = key new) f rows
  else rows ++ [new]

/-- The row with a key after an upsert. -/
theorem find?_upsert [DecidableEq κ] {key : α → κ} {f : α → α} (hf : ∀ a, key (f a) = key a)
    (new : α) (rows : List α) (k : κ) :
    (upsert key f new rows).find? (fun a => key a = k) =
      if key new = k then some (((rows.find? fun a => key a = k).map f).getD new)
      else rows.find? fun a => key a = k := by
  unfold upsert
  by_cases hk : key new = k
  · subst hk
    rw [if_pos rfl]
    cases hfind : rows.find? fun a => key a = key new with
    | none =>
      have hnone := find?_key_none.mp hfind
      have hany : ¬(rows.any fun a => key a = key new) = true := by simpa using hnone
      rw [if_neg hany, List.find?_append, hfind]
      simp
    | some old =>
      obtain ⟨hmem, hold⟩ := find?_key hfind
      have hany : (rows.any fun a => key a = key new) = true :=
        List.any_eq_true.mpr ⟨old, hmem, by simpa using hold⟩
      rw [if_pos hany, find?_updateWhere hf, hfind]
      rfl
  · rw [if_neg hk]
    split
    · exact find?_updateWhere_ne hf (Ne.symm hk) rows
    · rw [List.find?_append]
      simp [hk]

/-- The row with a key, after rows with another key are deleted. -/
theorem find?_filter_ne [DecidableEq κ] {key : α → κ} {k k' : κ} (hne : k ≠ k') (rows : List α) :
    (rows.filter fun a => key a ≠ k').find? (fun a => key a = k) =
      rows.find? fun a => key a = k := by
  rw [List.find?_filter]
  congr 1
  funext a
  by_cases hk : key a = k
  · simp [hk, hne]
  · simp [hk]

theorem findSome?_congr {f g : α → Option β} {rows : List α} (h : ∀ a ∈ rows, f a = g a) :
    rows.findSome? f = rows.findSome? g := by
  induction rows with
  | nil => rfl
  | cons a rows ih =>
    rw [List.findSome?_cons, List.findSome?_cons, h a List.mem_cons_self,
      ih fun b hb => h b (List.mem_cons_of_mem _ hb)]

/-- A row looked up by key among rows that were themselves looked up by key. -/
theorem find?_filterMap_key [DecidableEq κ] {key : α → κ} {f : κ → Option α} {keys : List κ} {k : κ}
    (hf : ∀ k a, f k = some a → key a = k) (hk : k ∈ keys) :
    (keys.filterMap f).find? (fun a => key a = k) = f k := by
  induction keys with
  | nil => cases hk
  | cons k' keys ih =>
    by_cases heq : k = k'
    · subst heq
      cases hfk : f k with
      | none =>
        rw [List.filterMap_cons_none hfk, List.find?_eq_none]
        intro a ha hkey
        obtain ⟨k', -, hfk'⟩ := List.mem_filterMap.mp ha
        rw [← hf k' a hfk', of_decide_eq_true hkey, hfk] at hfk'
        cases hfk'
      | some a =>
        rw [List.filterMap_cons_some hfk, List.find?_cons_of_pos]
        simpa using hf k a hfk
    · rw [← ih ((List.mem_cons.mp hk).resolve_left heq)]
      cases hfk : f k' with
      | none => rw [List.filterMap_cons_none hfk]
      | some a =>
        rw [List.filterMap_cons_some hfk, List.find?_cons_of_neg]
        simpa [hf k' a hfk] using Ne.symm heq

/-- A rewriting of the rows that leaves the selected ones alone and turns no other row into one. -/
theorem filter_filterMap_eq {p : α → Bool} {f : α → Option α} {rows : List α}
    (hsel : ∀ a ∈ rows, p a = true → f a = some a)
    (hother : ∀ a ∈ rows, p a = false → ∀ b ∈ f a, p b = false) :
    (rows.filterMap f).filter p = rows.filter p := by
  induction rows with
  | nil => rfl
  | cons a rows ih =>
    have htail := ih (fun b hb => hsel b (List.mem_cons_of_mem _ hb))
      fun b hb => hother b (List.mem_cons_of_mem _ hb)
    cases hp : p a with
    | true =>
      rw [List.filterMap_cons_some (hsel a List.mem_cons_self hp), List.filter_cons_of_pos hp,
        List.filter_cons_of_pos hp, htail]
    | false =>
      rw [List.filter_cons_of_neg (by simp [hp]), ← htail]
      cases hf : f a with
      | none => rw [List.filterMap_cons_none hf]
      | some b =>
        have hb := hother a List.mem_cons_self hp b hf
        rw [List.filterMap_cons_some hf, List.filter_cons_of_neg (by simp [hb])]

/-- In a sorted table, a row that the first page misses comes after a page that is full. -/
theorem take_of_not_mem {key : α → Nat} {rows : List α}
    (hsorted : rows.Pairwise fun a b => key a < key b) {n : Nat} {a : α} (ha : a ∈ rows)
    (hnot : a ∉ rows.take n) :
    (rows.take n).length = n ∧ ∀ b ∈ rows.take n, key b < key a := by
  have hsplit := List.take_append_drop n rows
  have hdrop : a ∈ rows.drop n := by
    rw [← hsplit] at ha
    exact (List.mem_append.mp ha).resolve_left hnot
  constructor
  · have hlen : 0 < (rows.drop n).length := List.length_pos_of_mem hdrop
    rw [List.length_drop] at hlen
    rw [List.length_take]
    omega
  · intro b hb
    rw [← hsplit, List.pairwise_append] at hsorted
    exact hsorted.2.2 b hb a hdrop

theorem foldr_max_lt {l : List Nat} {k : Nat} (hpos : 0 < k) (h : ∀ n ∈ l, n < k) :
    l.foldr max 0 < k := by
  induction l with
  | nil => exact hpos
  | cons m l ih =>
    rw [List.foldr_cons]
    exact Nat.max_lt.mpr ⟨h m List.mem_cons_self, ih fun n hn => h n (List.mem_cons_of_mem _ hn)⟩

/-- An element is at most the maximum of its list. -/
theorem le_foldr_max {n : Nat} {l : List Nat} (h : n ∈ l) : n ≤ l.foldr max 0 := by
  induction l with
  | nil => cases h
  | cons m l ih =>
    rw [List.foldr_cons]
    rcases List.mem_cons.mp h with rfl | h
    · exact Nat.le_max_left _ _
    · exact Nat.le_trans (ih h) (Nat.le_max_right _ _)

/-! ## Row-wise statements in a loop -/

theorem updateWhere_eq_filterMap (p : α → Bool) (f : α → α) (rows : List α) :
    updateWhere p f rows = rows.filterMap fun a => some (if p a then f a else a) := by
  rw [updateWhere, ← List.filterMap_eq_map]
  rfl

theorem filter_eq_filterMap (p : α → Bool) (rows : List α) :
    rows.filter p = rows.filterMap fun a => if p a then some a else none := by
  induction rows with
  | nil => rfl
  | cons a rows ih =>
    by_cases hp : p a
    · simp [hp, ih]
    · simp [hp, ih]

/-- A loop of row-wise statements is one row-wise statement. -/
theorem foldl_filterMap {σ : Type*} (g : σ → α → Option α) (steps : List σ) (rows : List α) :
    steps.foldl (fun rows s => rows.filterMap (g s)) rows =
      rows.filterMap fun a => steps.foldlM (fun a s => g s a) a := by
  induction steps generalizing rows with
  | nil => simp
  | cons s steps ih => simp [ih, List.filterMap_filterMap]

/-- A row that no statement of the loop is about stays. -/
theorem foldlM_untouched {σ : Type*} {g : σ → α → Option α} {steps : List σ} {a : α}
    (h : ∀ s ∈ steps, g s a = some a) : steps.foldlM (fun a s => g s a) a = some a := by
  induction steps with
  | nil => rfl
  | cons s steps ih =>
    rw [List.foldlM_cons, h s List.mem_cons_self]
    exact ih fun t ht => h t (List.mem_cons_of_mem _ ht)

/-- A row that one statement of the loop is about, before and after it. -/
theorem foldlM_touched_once {σ : Type*} {g : σ → α → Option α} {steps : List σ} {a : α} {s : σ}
    (hnodup : steps.Nodup) (hs : s ∈ steps) (hbefore : ∀ t ∈ steps, t ≠ s → g t a = some a)
    (hafter : ∀ b ∈ g s a, ∀ t ∈ steps, t ≠ s → g t b = some b) :
    steps.foldlM (fun a s => g s a) a = g s a := by
  induction steps with
  | nil => cases hs
  | cons t steps ih =>
    obtain ⟨hnot, hnodup⟩ := List.nodup_cons.mp hnodup
    rw [List.foldlM_cons]
    by_cases hts : t = s
    · subst hts
      cases hg : g t a with
      | none => rfl
      | some b =>
        refine foldlM_untouched ?_
        intro u hu
        exact hafter b hg u (List.mem_cons_of_mem _ hu) fun heq => hnot (heq ▸ hu)
    · rw [hbefore t List.mem_cons_self hts]
      exact ih hnodup ((List.mem_cons.mp hs).resolve_left (Ne.symm hts))
        (fun u hu => hbefore u (List.mem_cons_of_mem _ hu))
        fun b hb u hu => hafter b hb u (List.mem_cons_of_mem _ hu)

/-! ## Pages of a list in the order of its key -/

/-- The rows of a page are those up to its last row. -/
theorem mem_take_iff_le {l : List ℕ} (h : l.Pairwise (· < ·)) {n last : ℕ}
    (hlast : (l.take n).getLast? = some last) {x : ℕ} : x ∈ l.take n ↔ x ∈ l ∧ x ≤ last := by
  obtain ⟨init, hinit⟩ := List.getLast?_eq_some_iff.mp hlast
  have hsplit : l = init ++ last :: l.drop n := by
    conv_lhs => rw [← List.take_append_drop n l, hinit]
    simp
  rw [hinit]
  rw [hsplit, List.pairwise_append, List.pairwise_cons] at h
  obtain ⟨-, ⟨hrest, -⟩, hinitlt⟩ := h
  constructor
  · intro hx
    refine ⟨List.mem_of_mem_take (hinit ▸ hx), ?_⟩
    rcases List.mem_append.mp hx with hx | hx
    · exact Nat.le_of_lt (hinitlt x hx last List.mem_cons_self)
    · exact Nat.le_of_eq (List.mem_singleton.mp hx)
  · rintro ⟨hx, hle⟩
    rw [hsplit] at hx
    rcases List.mem_append.mp hx with hx | hx
    · exact List.mem_append_left _ hx
    · rcases List.mem_cons.mp hx with rfl | hx
      · simp
      · exact absurd (hrest x hx) (Nat.not_lt.mpr hle)

/-- The rows after the page are those beyond its last row. -/
theorem mem_drop_iff_lt {l : List ℕ} (h : l.Pairwise (· < ·)) {n last : ℕ}
    (hlast : (l.take n).getLast? = some last) {x : ℕ} : x ∈ l.drop n ↔ x ∈ l ∧ last < x := by
  have hdisjoint : ∀ y ∈ l.take n, ∀ z ∈ l.drop n, y < z := by
    rw [← List.take_append_drop n l, List.pairwise_append] at h
    exact h.2.2
  constructor
  · intro hx
    exact ⟨List.mem_of_mem_drop hx, hdisjoint last (List.mem_of_getLast? hlast) x hx⟩
  · rintro ⟨hx, hlt⟩
    rw [← List.take_append_drop n l] at hx
    rcases List.mem_append.mp hx with hx | hx
    · exact absurd ((mem_take_iff_le h hlast).mp hx).2 (Nat.not_le.mpr hlt)
    · exact hx

end Table
