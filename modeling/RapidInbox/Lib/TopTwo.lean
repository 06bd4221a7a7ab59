import Mathlib.Data.List.Induction
import Mathlib.Data.List.Perm.Basic
import Mathlib.Order.Lattice

/-!
# The greatest two of a list

A scan keeps the greatest element it has seen and the runner-up.  Of equal elements the earlier one
stays.
-/

/-- The greatest element and the runner-up. -/
structure TopTwo (α : Type) where
  best : Option α
  runnerUp : Option α

namespace TopTwo

variable {α β : Type} [LinearOrder β]

section
variable (key : α → β)

/-- One more element. -/
def push (t : TopTwo α) (a : α) : TopTwo α :=
  match t.best with
  | none => ⟨some a, t.best⟩
  | some b =>
    if key b < key a then ⟨some a, t.best⟩
    else
      match t.runnerUp with
      | none => ⟨t.best, some a⟩
      | some r => if key r < key a then ⟨t.best, some a⟩ else t

/-- The scan. -/
def ofList (xs : List α) : TopTwo α := xs.foldl (push key) ⟨none, none⟩

/-- All elements of the list with the two on top of it. -/
inductive Ranks (xs : List α) : TopTwo α → Prop
  | none : xs = [] → Ranks xs ⟨none, none⟩
  | one (b : α) : xs = [b] → Ranks xs ⟨some b, none⟩
  | two (b r : α) (rest : List α) : xs.Perm (b :: r :: rest) → key r ≤ key b →
      (∀ c ∈ rest, key c ≤ key r) → Ranks xs ⟨some b, some r⟩

end

variable {key : α → β} {xs : List α}

/-- One step of the scan. -/
theorem Ranks.push {t : TopTwo α} (h : Ranks key xs t) (a : α) : Ranks key (xs ++ [a]) (t.push key a) := by
  cases h with
  | none hxs =>
    subst hxs
    exact .one a rfl
  | one b hxs =>
    subst hxs
    unfold TopTwo.push
    dsimp only
    split
    · rename_i hlt
      exact .two a b [] (List.Perm.swap a b []) hlt.le fun _ hc => absurd hc List.not_mem_nil
    · rename_i hge
      exact .two b a [] (.refl _) (not_lt.mp hge) fun _ hc => absurd hc List.not_mem_nil
  | two b r rest hperm hbest hrest =>
    have hmore : (xs ++ [a]).Perm (b :: r :: a :: rest) := by
      refine (List.perm_append_singleton a xs).trans ?_
      refine (hperm.cons a).trans ?_
      exact (List.Perm.swap b a _).trans ((List.Perm.swap r a _).cons b)
    unfold TopTwo.push
    dsimp only
    split
    · rename_i hlt
      refine .two a b (r :: rest) ?_ hlt.le ?_
      · refine hmore.trans ?_
        exact ((List.Perm.swap a r rest).cons b).trans (List.Perm.swap a b _)
      · intro c hc
        rcases List.mem_cons.mp hc with rfl | hc
        · exact hbest
        · exact (hrest c hc).trans hbest
    · rename_i hge
      split
      · rename_i hlt
        refine .two b a (r :: rest) ?_ (not_lt.mp hge) ?_
        · exact hmore.trans ((List.Perm.swap a r rest).cons b)
        · intro c hc
          rcases List.mem_cons.mp hc with rfl | hc
          · exact hlt.le
          · exact (hrest c hc).trans hlt.le
      · rename_i hle
        refine .two b r (a :: rest) hmore hbest ?_
        intro c hc
        rcases List.mem_cons.mp hc with rfl | hc
        · exact not_lt.mp hle
        · exact hrest c hc

theorem ranks_ofList (key : α → β) (xs : List α) : Ranks key xs (ofList key xs) := by
  induction xs using List.reverseRecOn with
  | nil => exact .none rfl
  | append_singleton xs a ih =>
    have hstep : ofList key (xs ++ [a]) = (ofList key xs).push key a := by
      unfold ofList
      rw [List.foldl_append]
      rfl
    rw [hstep]
    exact ih.push a

theorem Ranks.best_mem {t : TopTwo α} (h : Ranks key xs t) {b : α} (hb : t.best = some b) : b ∈ xs := by
  cases h with
  | none _ => cases hb
  | one b' hxs =>
    cases hb
    rw [hxs]
    exact List.mem_singleton_self b
  | two b' r rest hperm _ _ =>
    cases hb
    exact hperm.mem_iff.mpr List.mem_cons_self

/-- Every element whose label is not that of the best is at most the runner-up. -/
theorem Ranks.others {γ : Type} {label : α → γ} {t : TopTwo α} (h : Ranks key xs t) {b : α}
    (hb : t.best = some b) (hlabels : (xs.map label).Nodup) {c : α} (hc : c ∈ xs)
    (hne : label c ≠ label b) :
    ∃ r, t.runnerUp = some r ∧ label r ≠ label b ∧ key c ≤ key r ∧ key r ≤ key b := by
  cases h with
  | none _ => cases hb
  | one b' hxs =>
    cases hb
    rw [hxs] at hc
    exact absurd (congrArg label (List.mem_singleton.mp hc)) hne
  | two b' r rest hperm hbest hrest =>
    cases hb
    have hnodup : ((b :: r :: rest).map label).Nodup := (hperm.map label).nodup_iff.mp hlabels
    rw [List.map_cons, List.map_cons, List.nodup_cons] at hnodup
    have hdistinct : label r ≠ label b := fun heq =>
      hnodup.1 (List.mem_cons.mpr (.inl heq.symm))
    refine ⟨r, rfl, hdistinct, ?_, hbest⟩
    rcases List.mem_cons.mp (hperm.mem_iff.mp hc) with rfl | hc
    · exact absurd rfl hne
    · rcases List.mem_cons.mp hc with rfl | hc
      · exact le_refl _
      · exact hrest c hc

end TopTwo
