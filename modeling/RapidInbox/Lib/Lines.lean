import Mathlib.Data.List.Basic

/-!
# Lines of a stream

A stream is cut at every separator.  A line that no separator ends is not a line yet.
-/

namespace Lines

variable {α : Type} [DecidableEq α] {sep : α}

/-- The elements before the first separator and those behind it. -/
def split? (sep : α) : List α → Option (List α × List α)
  | [] => none
  | a :: as => if a = sep then some ([], as) else (split? sep as).map fun (l, rest) => (a :: l, rest)

/-- Every line that is ended, each with the stream behind its separator. -/
def ended (sep : α) : List α → List (List α × List α)
  | [] => []
  | a :: as =>
    if a = sep then ([], as) :: ended sep as
    else
      match ended sep as with
      | [] => []
      | (l, rest) :: lines => (a :: l, rest) :: lines

theorem split?_cons_sep (as : List α) : split? sep (sep :: as) = some ([], as) := if_pos rfl

theorem split?_cons_ne {a : α} (h : a ≠ sep) (as : List α) :
    split? sep (a :: as) = (split? sep as).map fun (l, rest) => (a :: l, rest) := if_neg h

theorem split?_line {l : List α} (h : sep ∉ l) (rest : List α) :
    split? sep (l ++ sep :: rest) = some (l, rest) := by
  induction l with
  | nil => exact split?_cons_sep rest
  | cons a l ih =>
    rw [List.mem_cons, not_or] at h
    rw [List.cons_append, split?_cons_ne (Ne.symm h.1), ih h.2]
    rfl

/-- A line and what follows it can be told apart. -/
theorem eq_of_line_eq {l l' rest rest' : List α} (h : sep ∉ l) (h' : sep ∉ l')
    (heq : l ++ sep :: rest = l' ++ sep :: rest') : l = l' ∧ rest = rest' := by
  have hsplit : some (l, rest) = some (l', rest') := by
    rw [← split?_line h, ← split?_line h', heq]
  cases hsplit
  exact ⟨rfl, rfl⟩

theorem split?_eq_none {as : List α} : split? sep as = none ↔ sep ∉ as := by
  induction as with
  | nil => simp [split?]
  | cons a as ih =>
    by_cases h : a = sep
    · subst h
      simp [split?_cons_sep]
    · rw [split?_cons_ne h, Option.map_eq_none_iff, ih, List.mem_cons, not_or]
      exact ⟨fun hrest => ⟨Ne.symm h, hrest⟩, And.right⟩

/-- A stream with a separator starts with a line. -/
theorem split?_eq_some {as l rest : List α} :
    split? sep as = some (l, rest) ↔ sep ∉ l ∧ as = l ++ sep :: rest := by
  constructor
  · intro h
    induction as generalizing l with
    | nil => cases h
    | cons a as ih =>
      by_cases ha : a = sep
      · subst ha
        rw [split?_cons_sep] at h
        cases h
        exact ⟨List.not_mem_nil, rfl⟩
      · rw [split?_cons_ne ha, Option.map_eq_some_iff] at h
        obtain ⟨⟨l', rest'⟩, hsplit, heq⟩ := h
        cases heq
        obtain ⟨hl, has⟩ := ih hsplit
        refine ⟨?_, by rw [has, List.cons_append]⟩
        rw [List.mem_cons, not_or]
        exact ⟨Ne.symm ha, hl⟩
  · rintro ⟨hl, rfl⟩
    exact split?_line hl rest

/-- More of the stream ends the line that was begun. -/
theorem split?_append (as bs : List α) :
    split? sep (as ++ bs) =
      match split? sep as with
      | some (l, rest) => some (l, rest ++ bs)
      | none => (split? sep bs).map fun (l, rest) => (as ++ l, rest) := by
  cases has : split? sep as with
  | some p =>
    obtain ⟨hl, rfl⟩ := split?_eq_some.mp has
    rw [List.append_assoc, List.cons_append]
    exact split?_line hl _
  | none =>
    rw [split?_eq_none] at has
    cases hbs : split? sep bs with
    | none =>
      rw [split?_eq_none] at hbs
      exact split?_eq_none.mpr fun h => (List.mem_append.mp h).elim has hbs
    | some p =>
      obtain ⟨hl, rfl⟩ := split?_eq_some.mp hbs
      rw [← List.append_assoc]
      exact split?_line (fun h => (List.mem_append.mp h).elim has hl) _

theorem ended_eq (as : List α) :
    ended sep as =
      match split? sep as with
      | none => []
      | some (l, rest) => (l, rest) :: ended sep rest := by
  induction as with
  | nil => rfl
  | cons a as ih =>
    by_cases h : a = sep
    · subst h
      simp [ended, split?_cons_sep]
    · rw [ended, if_neg h, split?_cons_ne h, ih]
      cases split? sep as <;> rfl

theorem ended_line {l : List α} (h : sep ∉ l) (rest : List α) :
    ended sep (l ++ sep :: rest) = (l, rest) :: ended sep rest := by
  rw [ended_eq, split?_line h]

end Lines
