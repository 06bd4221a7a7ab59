import Mathlib.Algebra.Ring.Nat
import Mathlib.Data.List.Forall2

/-!
# One element of a list

Updating a list at an index changes one element and keeps what stands before and after it.  With the
list split there, sums, counts and pairwise relations follow from their `append` and `cons` lemmas.
-/

namespace List

variable {α β : Type}

/-- The list around index `i`. -/
theorem focus_getElem? {l : List α} {i : Nat} {a : α} (h : l[i]? = some a) :
    ∃ before after, l = before ++ a :: after ∧ (∀ b, l.set i b = before ++ b :: after) ∧
      l.eraseIdx i = before ++ after := by
  obtain ⟨hi, hget⟩ := List.getElem?_eq_some_iff.mp h
  refine ⟨l.take i, l.drop (i + 1), ?_, ?_, ?_⟩
  · rw [← hget]
    simp
  · intro b
    exact List.set_eq_take_append_cons_drop .. |>.trans (if_pos hi)
  · exact List.eraseIdx_eq_take_drop_succ ..

/-- Replacing one element moves a count by what the two elements weigh. -/
theorem countP_set_add {l : List α} {i : Nat} {a : α} (h : l[i]? = some a) (b : α) (p : α → Bool) :
    (l.set i b).countP p + (if p a then 1 else 0) = l.countP p + (if p b then 1 else 0) := by
  obtain ⟨before, after, hl, hset, -⟩ := focus_getElem? h
  rw [hset, hl]
  simp only [countP_append, countP_cons]
  omega

/-- Replacing one element moves a sum by what the two elements weigh. -/
theorem sum_map_set_add {l : List α} {i : Nat} {a : α} (h : l[i]? = some a) (b : α) (f : α → Nat) :
    ((l.set i b).map f).sum + f a = (l.map f).sum + f b := by
  obtain ⟨before, after, hl, hset, -⟩ := focus_getElem? h
  rw [hset, hl]
  simp only [map_append, map_cons, sum_append, sum_cons]
  omega

/-- A list related to a focused one is focused at the same place. -/
theorem Forall₂.focus {R : α → β → Prop} {before after : List α} {a : α} {bs : List β}
    (h : Forall₂ R (before ++ a :: after) bs) :
    ∃ before' b after', bs = before' ++ b :: after' ∧ Forall₂ R before before' ∧ R a b ∧
      Forall₂ R after after' := by
  induction before generalizing bs with
  | nil =>
    cases h with
    | cons hab hrest => exact ⟨[], _, _, rfl, .nil, hab, hrest⟩
  | cons x before ih =>
    cases h with
    | cons hxy hrest =>
      obtain ⟨before', b, after', rfl, hb, hab, ha⟩ := ih hrest
      exact ⟨_ :: before', b, after', rfl, .cons hxy hb, hab, ha⟩

/-- Put a new pair in focus. -/
theorem Forall₂.refocus {R : α → β → Prop} {before after : List α} {before' after' : List β}
    (hb : Forall₂ R before before') (ha : Forall₂ R after after') {a : α} {b : β} (hab : R a b) :
    Forall₂ R (before ++ a :: after) (before' ++ b :: after') := by
  induction hb with
  | nil => exact .cons hab ha
  | cons hxy _ ih => exact .cons hxy ih

/-- The partner of an element stands at the same index. -/
theorem Forall₂.getElem?_left {R : α → β → Prop} {as : List α} {bs : List β}
    (h : Forall₂ R as bs) {i : Nat} {a : α} (ha : as[i]? = some a) : ∃ b, bs[i]? = some b ∧ R a b := by
  induction h generalizing i with
  | nil => simp at ha
  | cons hab _ ih =>
    cases i with
    | zero =>
      obtain rfl := Option.some.inj ha
      exact ⟨_, rfl, hab⟩
    | succ i => exact ih ha

/-- Replace a pair. -/
theorem Forall₂.set {R : α → β → Prop} {as : List α} {bs : List β} (h : Forall₂ R as bs) (i : Nat)
    {a : α} {b : β} (hab : R a b) : Forall₂ R (as.set i a) (bs.set i b) := by
  induction h generalizing i with
  | nil => exact .nil
  | cons hxy hrest ih =>
    cases i with
    | zero => exact .cons hab hrest
    | succ i => exact .cons hxy (ih i)

/-- Drop a pair. -/
theorem Forall₂.eraseIdx {R : α → β → Prop} {as : List α} {bs : List β} (h : Forall₂ R as bs)
    (i : Nat) : Forall₂ R (as.eraseIdx i) (bs.eraseIdx i) := by
  induction h generalizing i with
  | nil => exact .nil
  | cons hxy hrest ih =>
    cases i with
    | zero => exact hrest
    | succ i => exact .cons hxy (ih i)

/-- Every element on the left has its partner on the right. -/
theorem Forall₂.exists_of_mem_left {R : α → β → Prop} {as : List α} {bs : List β}
    (h : Forall₂ R as bs) {a : α} (ha : a ∈ as) : ∃ b ∈ bs, R a b := by
  obtain ⟨before, after, rfl⟩ := List.append_of_mem ha
  obtain ⟨before', b, after', rfl, -, hab, -⟩ := h.focus
  exact ⟨b, by simp, hab⟩

end List
