import Mathlib.Data.List.Nodup

/-!
# Ordered dictionaries

A dictionary that keeps its entries from the least to the most recently used, as bounded caches do.
-/

/-- The entries, oldest first; no key has two. -/
structure OrderedDict (κ υ : Type) where
  entries : List (κ × υ)
  nodup : (entries.map Prod.fst).Nodup

namespace OrderedDict

variable {κ υ : Type}

def empty : OrderedDict κ υ := ⟨[], List.nodup_nil⟩

/-- Keep the entries that fit a condition. -/
def keep (p : κ × υ → Bool) (d : OrderedDict κ υ) : OrderedDict κ υ where
  entries := d.entries.filter p
  nodup := d.nodup.sublist (List.filter_sublist.map _)

/-- Drop the oldest entries until at most `max` are left. -/
def trim (max : Nat) (d : OrderedDict κ υ) : OrderedDict κ υ where
  entries := (d.entries.reverse.take max).reverse
  nodup := by
    have h : (d.entries.reverse.take max).reverse.Sublist d.entries.reverse.reverse :=
      (List.take_sublist max _).reverse
    rw [List.reverse_reverse] at h
    exact d.nodup.sublist (h.map _)

/-- `popitem(last=False)`: forget the oldest entry. -/
def dropOldest (d : OrderedDict κ υ) : OrderedDict κ υ where
  entries := d.entries.tail
  nodup := d.nodup.sublist ((List.tail_sublist d.entries).map _)

variable [DecidableEq κ]

def get? (d : OrderedDict κ υ) (k : κ) : Option υ :=
  (d.entries.find? fun e => e.1 = k).map Prod.snd

def pop (d : OrderedDict κ υ) (k : κ) : OrderedDict κ υ := d.keep fun e => e.1 ≠ k

/-- Set a key and make it the newest. -/
def put (d : OrderedDict κ υ) (k : κ) (v : υ) : OrderedDict κ υ where
  entries := d.entries.filter (fun e => e.1 ≠ k) ++ [(k, v)]
  nodup := by
    rw [List.map_append, List.nodup_append']
    refine ⟨d.nodup.sublist (List.filter_sublist.map _), List.nodup_singleton _, ?_⟩
    intro x hx hk
    obtain ⟨e, he, rfl⟩ := List.mem_map.mp hx
    simp_all

/-- Make a key the newest, if it is there. -/
def moveToEnd (d : OrderedDict κ υ) (k : κ) : OrderedDict κ υ :=
  match d.get? k with
  | none => d
  | some v => d.put k v

/-! ## Entries after an operation -/

variable {d : OrderedDict κ υ} {k k' : κ} {v v' : υ}

omit [DecidableEq κ] in
@[simp] theorem mem_keep {p : κ × υ → Bool} {e : κ × υ} :
    e ∈ (d.keep p).entries ↔ e ∈ d.entries ∧ p e = true :=
  List.mem_filter

omit [DecidableEq κ] in
theorem mem_of_mem_trim {max : Nat} {e : κ × υ} (h : e ∈ (d.trim max).entries) : e ∈ d.entries :=
  List.mem_reverse.mp (List.mem_of_mem_take (List.mem_reverse.mp h))

theorem mem_of_get? (h : d.get? k = some v) : (k, v) ∈ d.entries := by
  obtain ⟨⟨k₁, v₁⟩, hfind, rfl⟩ := Option.map_eq_some_iff.mp h
  have hk : k₁ = k := by simpa using List.find?_some hfind
  subst hk
  exact List.mem_of_find?_eq_some hfind

theorem get?_of_mem (h : (k, v) ∈ d.entries) : d.get? k = some v := by
  obtain ⟨entries, nodup⟩ := d
  induction entries with
  | nil => cases h
  | cons e rest ih =>
    rw [List.map_cons, List.nodup_cons] at nodup
    rcases List.mem_cons.mp h with rfl | h
    · simp [get?]
    · have hne : ¬ e.1 = k := by
        intro heq
        exact nodup.1 (heq ▸ List.mem_map_of_mem (f := Prod.fst) h)
      have := ih nodup.2 h
      simpa [get?, hne] using this

theorem get?_isSome : (d.get? k).isSome ↔ k ∈ d.entries.map Prod.fst := by
  constructor
  · intro h
    obtain ⟨v, hv⟩ := Option.isSome_iff_exists.mp h
    exact List.mem_map_of_mem (mem_of_get? hv)
  · intro h
    obtain ⟨⟨k₁, v⟩, hmem, rfl⟩ := List.mem_map.mp h
    rw [get?_of_mem hmem]
    rfl

/-- The oldest entry is forgotten by its key. -/
theorem dropOldest_eq_pop {rest : List (κ × υ)} (h : d.entries = (k, v) :: rest) :
    d.dropOldest = d.pop k := by
  obtain ⟨entries, nodup⟩ := d
  dsimp only at h
  subst h
  rw [List.map_cons, List.nodup_cons] at nodup
  have hrest : rest = rest.filter (fun e => !decide (e.1 = k)) := by
    rw [eq_comm, List.filter_eq_self]
    intro e he
    have hne : e.1 ≠ k := by
      rintro rfl
      have hmem : e.1 ∈ rest.map Prod.fst := List.mem_map_of_mem he
      exact nodup.1 hmem
    simpa using hne
  simpa [dropOldest, pop, keep] using hrest

theorem mem_pop : (k', v') ∈ (d.pop k).entries ↔ (k', v') ∈ d.entries ∧ k' ≠ k := by
  simp [pop]

theorem mem_put : (k', v') ∈ (d.put k v).entries ↔
    (k', v') ∈ d.entries ∧ k' ≠ k ∨ k' = k ∧ v' = v := by
  simp [put]

theorem mem_of_mem_moveToEnd (h : (k', v') ∈ (d.moveToEnd k).entries) : (k', v') ∈ d.entries := by
  unfold moveToEnd at h
  split at h
  · exact h
  · rename_i v hv
    rcases mem_put.mp h with ⟨h, -⟩ | ⟨rfl, rfl⟩
    · exact h
    · exact mem_of_get? hv

theorem get?_keep_of_pos {p : κ × υ → Bool} (h : ∀ v, p (k, v) = true) : (d.keep p).get? k = d.get? k := by
  unfold get? keep
  rw [List.find?_filter]
  refine congrArg (Option.map Prod.snd) (congrArg (List.find? · d.entries) (funext fun e => ?_))
  by_cases hk : e.1 = k
  · subst hk
    simp [h e.2]
  · simp [hk]

theorem get?_pop : (d.pop k).get? k' = if k' = k then none else d.get? k' := by
  by_cases hk : k' = k
  · subst hk
    rw [if_pos rfl, get?, Option.map_eq_none_iff, List.find?_eq_none]
    intro e he
    simpa using (mem_keep.mp he).2
  · rw [if_neg hk]
    exact get?_keep_of_pos fun v => by simpa using hk

theorem get?_put : (d.put k v).get? k' = if k' = k then some v else d.get? k' := by
  unfold get? put
  rw [List.find?_append]
  by_cases hk : k' = k
  · subst hk
    have hnone : (d.entries.filter fun e => e.1 ≠ k').find? (fun e => e.1 = k') = none := by
      rw [List.find?_eq_none]
      intro e he
      simpa using (List.mem_filter.mp he).2
    rw [hnone, if_pos rfl]
    simp
  · have hpop := d.get?_keep_of_pos (k := k') (p := fun e => e.1 ≠ k) fun v => by simpa using hk
    unfold get? keep at hpop
    have hlast : [(k, v)].find? (fun e => e.1 = k') = none := by
      simp [Ne.symm hk]
    rw [hlast, Option.or_none, if_neg hk]
    exact hpop

theorem get?_moveToEnd : (d.moveToEnd k).get? k' = d.get? k' := by
  unfold moveToEnd
  split
  · rfl
  · rename_i v hv
    rw [get?_put]
    split
    · rename_i heq
      rw [heq, hv]
    · rfl

/-- Trimming forgets keys and changes no value. -/
theorem get?_trim (max : Nat) (k : κ) :
    (d.trim max).get? k = d.get? k ∨ (d.trim max).get? k = none := by
  cases h : (d.trim max).get? k with
  | none => exact .inr rfl
  | some v => exact .inl (get?_of_mem (mem_of_mem_trim (mem_of_get? h))).symm

/-- The newest entry is kept. -/
theorem get?_trim_put (max : Nat) : ((d.put k v).trim (max + 1)).get? k = some v := by
  apply get?_of_mem
  show (k, v) ∈ (((d.entries.filter fun e => e.1 ≠ k) ++ [(k, v)]).reverse.take (max + 1)).reverse
  rw [List.reverse_append, List.reverse_singleton, List.singleton_append, List.take_succ_cons,
    List.mem_reverse]
  exact List.mem_cons_self

/-! ## Lengths -/

theorem length_pop_le : (d.pop k).entries.length ≤ d.entries.length :=
  List.length_filter_le _ _

omit [DecidableEq κ] in
theorem length_dropOldest : d.dropOldest.entries.length = d.entries.length - 1 := List.length_tail

theorem length_put_le : (d.put k v).entries.length ≤ d.entries.length + 1 := by
  rw [put, List.length_append]
  exact Nat.succ_le_succ (List.length_filter_le _ _)

theorem length_put_of_isSome (h : (d.get? k).isSome) : (d.put k v).entries.length ≤ d.entries.length := by
  have hlt : (d.entries.filter fun e => decide (e.1 ≠ k)).length < d.entries.length := by
    obtain ⟨w, hw⟩ := Option.isSome_iff_exists.mp h
    rw [List.length_filter_lt_length_iff_exists]
    exact ⟨(k, w), mem_of_get? hw, by simp⟩
  rw [put, List.length_append]
  exact hlt

theorem length_moveToEnd_le : (d.moveToEnd k).entries.length ≤ d.entries.length := by
  unfold moveToEnd
  split
  · exact Nat.le_refl _
  · rename_i v hv
    exact length_put_of_isSome (by rw [hv]; rfl)

end OrderedDict
