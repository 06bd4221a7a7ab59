import Mathlib.Data.List.Induction
import Mathlib.Order.Defs.Unbundled

/-!
# The last of the greatest values under a key

Values come one after the other, each with a key, and for every key one value is kept: a new one
takes the place of one that it is not below.
-/

namespace LastGreatest

variable {α κ : Type*} [DecidableEq κ]

/-- What is kept once a value has come. -/
def keep (le : α → α → Prop) [DecidableRel le] (current : Option α) (new : α) : Option α :=
  match current with
  | none => some new
  | some old => if le old new then some new else some old

/-- What is kept for a key. -/
def kept (key : α → κ) (le : α → α → Prop) [DecidableRel le] (k : κ) (values : List α) : Option α :=
  values.foldl (fun current new => if key new = k then keep le current new else current) none

/-- A value that no earlier value under its key exceeds, and that exceeds every later one. -/
structure IsLast (key : α → κ) (le : α → α → Prop) (k : κ) (values : List α) (a : α) : Prop where
  keyed : key a = k
  split : ∃ before after, values = before ++ a :: after ∧
    (∀ b ∈ before, key b = k → le b a) ∧ ∀ b ∈ after, key b = k → ¬le a b

variable {key : α → κ} {le : α → α → Prop} [DecidableRel le] {k : κ} {values : List α} {a : α}

@[simp] theorem kept_nil : kept key le k [] = none := rfl

theorem kept_concat (values : List α) (new : α) :
    kept key le k (values ++ [new]) =
      if key new = k then keep le (kept key le k values) new else kept key le k values := by
  rw [kept, List.foldl_append]
  rfl

theorem keep_ne_none (current : Option α) (new : α) : keep le current new ≠ none := by
  cases current with
  | none => exact nofun
  | some old =>
    rw [keep]
    split
    · exact nofun
    · exact nofun

theorem kept_eq_none_iff : kept key le k values = none ↔ ∀ a ∈ values, key a ≠ k := by
  induction values using List.reverseRecOn with
  | nil => simp
  | append_singleton values new ih =>
    rw [kept_concat]
    by_cases hnew : key new = k
    · rw [if_pos hnew]
      exact iff_of_false (keep_ne_none _ _) fun hnone => hnone new (by simp) hnew
    · rw [if_neg hnew, ih, List.forall_mem_append, List.forall_mem_singleton]
      exact (and_iff_left hnew).symm

omit [DecidableEq κ] [DecidableRel le] in
/-- A later value that the last one exceeds, or that is under another key. -/
theorem IsLast.concat (h : IsLast key le k values a) {new : α} (hnew : key new = k → ¬le a new) :
    IsLast key le k (values ++ [new]) a := by
  obtain ⟨hkey, before, after, rfl, hbefore, hafter⟩ := h
  refine ⟨hkey, before, after ++ [new], by simp, hbefore, ?_⟩
  intro b hb hk
  rcases List.mem_append.mp hb with hb | hb
  · exact hafter b hb hk
  · obtain rfl := List.mem_singleton.mp hb
    exact hnew hk

theorem mem_of_kept (h : kept key le k values = some a) : a ∈ values ∧ key a = k := by
  induction values using List.reverseRecOn with
  | nil => cases h
  | append_singleton values new ih =>
    rw [kept_concat] at h
    split at h
    · rename_i hnew
      cases hold : kept key le k values with
      | none =>
        rw [hold] at h
        cases h
        exact ⟨by simp, hnew⟩
      | some old =>
        rw [hold, keep] at h
        split at h
        · cases h
          exact ⟨by simp, hnew⟩
        · obtain ⟨hmem, hk⟩ := ih (hold.trans h)
          exact ⟨List.mem_append_left _ hmem, hk⟩
    · obtain ⟨hmem, hk⟩ := ih h
      exact ⟨List.mem_append_left _ hmem, hk⟩

theorem kept_of_isLast (h : IsLast key le k values a) : kept key le k values = some a := by
  obtain ⟨hkey, before, after, rfl, hbefore, hafter⟩ := h
  induction after using List.reverseRecOn with
  | nil =>
    rw [kept_concat, if_pos hkey]
    cases hold : kept key le k before with
    | none => rfl
    | some old =>
      obtain ⟨hmem, hk⟩ := mem_of_kept hold
      exact if_pos (hbefore old hmem hk)
  | append_singleton after new ih =>
    have hrest := ih fun b hb => hafter b (List.mem_append_left _ hb)
    rw [← List.cons_append, ← List.append_assoc, kept_concat, hrest]
    by_cases hnew : key new = k
    · rw [if_pos hnew, keep, if_neg (hafter new (by simp) hnew)]
    · rw [if_neg hnew]

/-- The value kept for a key is the last of the greatest under it. -/
theorem kept_eq_some_iff [Std.Total le] [IsTrans α le] :
    kept key le k values = some a ↔ IsLast key le k values a := by
  refine ⟨?_, kept_of_isLast⟩
  intro h
  induction values using List.reverseRecOn generalizing a with
  | nil => cases h
  | append_singleton values new ih =>
    rw [kept_concat] at h
    by_cases hnew : key new = k
    · rw [if_pos hnew] at h
      cases hold : kept key le k values with
      | none =>
        rw [hold] at h
        cases h
        have hnone := kept_eq_none_iff.mp hold
        exact ⟨hnew, values, [], rfl, fun b hb hk => absurd hk (hnone b hb), nofun⟩
      | some old =>
        have hlast := ih hold
        rw [hold, keep] at h
        by_cases hle : le old new
        · -- all values before are at most `old`, and so at most `new`
          rw [if_pos hle] at h
          cases h
          obtain ⟨-, before, after, rfl, hbefore, hafter⟩ := hlast
          refine ⟨hnew, before ++ old :: after, [], rfl, ?_, nofun⟩
          intro b hb hk
          rcases List.mem_append.mp hb with hb | hb
          · exact IsTrans.trans _ _ _ (hbefore b hb hk) hle
          · rcases List.mem_cons.mp hb with rfl | hb
            · exact hle
            · have hbelow := (Std.Total.total (r := le) old b).resolve_left (hafter b hb hk)
              exact IsTrans.trans _ _ _ hbelow hle
        · rw [if_neg hle] at h
          cases h
          exact hlast.concat fun _ => hle
    · rw [if_neg hnew] at h
      exact (ih h).concat fun hk => absurd hk hnew

/-- What is kept does not depend on how the values are represented. -/
theorem kept_map {β : Type*} {key' : β → κ} {le' : β → β → Prop} [DecidableRel le'] {f : α → β}
    (hkey : ∀ a, key' (f a) = key a) (hle : ∀ a b, le' (f a) (f b) ↔ le a b) :
    kept key' le' k (values.map f) = (kept key le k values).map f := by
  induction values using List.reverseRecOn with
  | nil => rfl
  | append_singleton values new ih =>
    rw [List.map_append, List.map_singleton, kept_concat, kept_concat, hkey, ih]
    by_cases hnew : key new = k
    · rw [if_pos hnew, if_pos hnew]
      cases kept key le k values with
      | none => rfl
      | some old =>
        rw [Option.map_some, keep, keep]
        by_cases hold : le old new
        · rw [if_pos hold, if_pos ((hle _ _).mpr hold)]
          rfl
        · rw [if_neg hold, if_neg fun h => hold ((hle _ _).mp h)]
          rfl
    · rw [if_neg hnew, if_neg hnew]

end LastGreatest
