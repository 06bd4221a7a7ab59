import Mathlib.Data.List.Sort
import Mathlib.Order.Basic

/-!
# Keyset pages

Rows with distinct keys, listed from the greatest key to the least.  A page begins behind a key, and the
rows behind the last key of a page are those that the page has left.
-/

namespace Keyset

variable {ρ κ : Type} [LinearOrder κ] (key : ρ → κ)

/-- `ORDER BY key DESC` -/
def listing (rows : List ρ) : List ρ := rows.insertionSort fun a b => key b ≤ key a

/-- A row lies behind a position; everything lies behind none. -/
def behind (position : Option κ) (row : ρ) : Bool := position.all fun k => decide (key row < k)

/-- `WHERE key < position ORDER BY key DESC` -/
def rowsAfter (position : Option κ) (rows : List ρ) : List ρ :=
  listing key (rows.filter (behind key position))

variable {key} {rows : List ρ}

/-- The order may be written in another way. -/
theorem listing_eq {r : ρ → ρ → Prop} [DecidableRel r] (h : ∀ a b, r a b ↔ key b ≤ key a)
    (rows : List ρ) : rows.insertionSort r = listing key rows := by
  have hr : r = fun a b => key b ≤ key a := funext₂ fun a b => propext (h a b)
  subst hr
  unfold listing
  congr

theorem listing_perm : (listing key rows).Perm rows := List.perm_insertionSort _ rows

/-- The keys decrease strictly. -/
theorem pairwise_listing (h : (rows.map key).Nodup) :
    (listing key rows).Pairwise fun a b => key b < key a := by
  have : Std.Total fun a b : ρ => key b ≤ key a := ⟨fun a b => le_total (key b) (key a)⟩
  have : IsTrans ρ fun a b => key b ≤ key a := ⟨fun _ _ _ hab hbc => le_trans hbc hab⟩
  have hsorted : (listing key rows).Pairwise fun a b => key b ≤ key a :=
    List.pairwise_insertionSort _ rows
  have hnodup : (listing key rows).Pairwise fun a b => key a ≠ key b := by
    rw [← List.pairwise_map (f := key) (R := (· ≠ ·))]
    exact (listing_perm.map key).nodup_iff.mpr h
  exact (hsorted.and hnodup).imp fun hab => lt_of_le_of_ne hab.1 (Ne.symm hab.2)

theorem eq_of_perm {l l' : List ρ} (h : l.Pairwise fun a b => key b < key a)
    (h' : l'.Pairwise fun a b => key b < key a) (hperm : l.Perm l') : l = l' :=
  List.Perm.eq_of_pairwise (fun _ _ _ _ hab hba => absurd hba (lt_asymm hab)) h h' hperm

/-- Filtering before or after the rows are listed is the same. -/
theorem listing_filter (h : (rows.map key).Nodup) (p : ρ → Bool) :
    listing key (rows.filter p) = (listing key rows).filter p := by
  refine eq_of_perm (pairwise_listing (h.sublist (List.filter_sublist.map _)))
    ((pairwise_listing h).filter _) ?_
  exact listing_perm.trans (listing_perm.symm.filter p)

theorem pairwise_rowsAfter (h : (rows.map key).Nodup) (position : Option κ) :
    (rowsAfter key position rows).Pairwise fun a b => key b < key a :=
  pairwise_listing (h.sublist (List.filter_sublist.map _))

theorem rowsAfter_none (rows : List ρ) : rowsAfter key none rows = listing key rows :=
  congrArg (listing key) (List.filter_eq_self.mpr fun _ _ => rfl)

theorem filter_behind_of_split {l before after : List ρ} {row : ρ}
    (h : l.Pairwise fun a b => key b < key a) (hl : l = before ++ row :: after) :
    l.filter (behind key (some (key row))) = after := by
  rw [hl, List.pairwise_append] at h
  obtain ⟨-, hafter, hbefore⟩ := h
  have hnone : before.filter (behind key (some (key row))) = [] := by
    rw [List.filter_eq_nil_iff]
    intro b hb hlt
    exact absurd (of_decide_eq_true hlt) (lt_asymm (hbefore b hb row List.mem_cons_self))
  have hall : after.filter (behind key (some (key row))) = after := by
    rw [List.filter_eq_self]
    intro a ha
    exact decide_eq_true ((List.pairwise_cons.mp hafter).1 a ha)
  rw [hl, List.filter_append, hnone, List.nil_append, List.filter_cons_of_neg, hall]
  intro hlt
  exact lt_irrefl _ (of_decide_eq_true hlt)

/-- What a page has left lies behind its last row. -/
theorem rowsAfter_split (h : (rows.map key).Nodup) {position : Option κ} {before after : List ρ} {row : ρ}
    (hrows : rowsAfter key position rows = before ++ row :: after) :
    rowsAfter key (some (key row)) rows = after := by
  have hbehind : behind key position row = true := by
    have hmem : row ∈ rowsAfter key position rows := by
      rw [hrows]
      exact List.mem_append_right _ List.mem_cons_self
    exact (List.mem_filter.mp (listing_perm.mem_iff.mp hmem)).2
  rw [← filter_behind_of_split (pairwise_rowsAfter h position) hrows, rowsAfter, rowsAfter,
    listing_filter h, listing_filter h, List.filter_filter]
  refine List.filter_congr fun r _ => ?_
  -- a row behind the last one lies behind the position, too
  by_cases hr : behind key (some (key row)) r = true
  · rw [hr, Bool.true_and, eq_comm]
    cases position with
    | none => rfl
    | some k =>
      exact decide_eq_true (lt_trans (of_decide_eq_true hr) (of_decide_eq_true hbehind))
  · rw [Bool.eq_false_iff.mpr hr, Bool.false_and]

/-- A row behind a position comes later. -/
theorem lt_of_mem_rowsAfter {k : κ} {row : ρ} (h : row ∈ rowsAfter key (some k) rows) : key row < k :=
  of_decide_eq_true (List.mem_filter.mp (listing_perm.mem_iff.mp h)).2

end Keyset
