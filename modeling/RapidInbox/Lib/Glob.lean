import Mathlib.Data.List.Infix

/-!
# Wildcard patterns

A pattern is a word over an alphabet with two special letters: `star` stands for any word and `any`
for any one letter.
-/

namespace Glob

variable {α : Type*} [DecidableEq α]

/-- Whether a word matches a pattern. -/
def accepts (star any : α) : List α → List α → Bool
  | [], word => word.isEmpty
  | p :: pattern, word =>
    if p = star then word.tails.any (accepts star any pattern)
    else
      match word with
      | [] => false
      | c :: word => (p = any || p = c) && accepts star any pattern word

variable {star any : α}

/-- A pattern without special letters is matched by itself only. -/
theorem accepts_literal {pattern : List α} (hstar : star ∉ pattern) (hany : any ∉ pattern)
    (word : List α) : accepts star any pattern word = decide (word = pattern) := by
  induction pattern generalizing word with
  | nil =>
    cases word with
    | nil => rfl
    | cons c word => rfl
  | cons p pattern ih =>
    rw [List.mem_cons, not_or] at hstar hany
    have hp : ¬ p = star := fun heq => hstar.1 heq.symm
    have hpany : ¬ p = any := fun heq => hany.1 heq.symm
    cases word with
    | nil => simp [accepts, hp]
    | cons c word =>
      by_cases hc : p = c
      · subst hc
        simp [accepts, hp, ih hstar.2 hany.2]
      · simp [accepts, hp, hpany, hc, Ne.symm hc]

end Glob
