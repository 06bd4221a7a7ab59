import Mathlib.Data.List.TakeWhile

/-!
# Words

A text is read as words with runs of separators around them.  How a text spells its words is told by
the run in front of each word and the run behind the last one.
-/

namespace Words

variable {α : Type} {sep : α → Bool}

/-- The words of a text, in order. -/
def words (sep : α → Bool) (s : List α) : List (List α) := (s.splitOnP sep).filter (!·.isEmpty)

/-- The text of words that stand behind runs of separators, with a run at the end. -/
def spell (written : List (List α × List α)) (trailing : List α) : List α :=
  written.flatMap (fun w => w.1 ++ w.2) ++ trailing

/-- Every run consists of separators and every word of other letters; only the last run may be empty. -/
structure IsSpelling (sep : α → Bool) (written : List (List α × List α)) (trailing : List α) : Prop where
  gap : ∀ w ∈ written, w.1 ≠ [] ∧ ∀ b ∈ w.1, sep b = true
  word : ∀ w ∈ written, w.2 ≠ [] ∧ ∀ b ∈ w.2, sep b = false
  trailing : ∀ b ∈ trailing, sep b = true

/-! ## Reading the words -/

@[simp] theorem words_nil : words sep [] = [] := by
  simp [words]

theorem words_gap_append {gap : List α} (h : ∀ b ∈ gap, sep b = true) (s : List α) :
    words sep (gap ++ s) = words sep s := by
  induction gap with
  | nil => rfl
  | cons b gap ih =>
    have hb : sep b = true := h b List.mem_cons_self
    have hrest := ih fun c hc => h c (List.mem_cons_of_mem _ hc)
    rw [← hrest]
    simp [words, List.splitOnP_cons_eq_if_modifyHead, hb]

theorem words_word {word : List α} (hne : word ≠ []) (h : ∀ b ∈ word, sep b = false) :
    words sep word = [word] := by
  have hsingle : word.splitOnP sep = [word] :=
    List.splitOnP_eq_singleton fun b hb => by simp [h b hb]
  simp [words, hsingle, hne]

/-- A word ends at the first separator behind it. -/
theorem words_word_append {word s : List α} (hne : word ≠ []) (h : ∀ b ∈ word, sep b = false)
    (hs : s.head?.all sep = true) : words sep (word ++ s) = word :: words sep s := by
  cases s with
  | nil => rw [List.append_nil, words_word hne h, words_nil]
  | cons b s =>
    have hb : sep b = true := hs
    have hsplit : (word ++ b :: s).splitOnP sep = word :: s.splitOnP sep :=
      List.splitOnP_append_cons_of_forall_mem h b hb s
    have hgap : words sep ([b] ++ s) = words sep s := words_gap_append (by simpa using hb) s
    rw [List.singleton_append] at hgap
    rw [hgap]
    simp [words, hsplit, hne]

theorem IsSpelling.head? {written : List (List α × List α)} {trailing : List α}
    (h : IsSpelling sep written trailing) : (spell written trailing).head?.all sep = true := by
  cases written with
  | nil =>
    cases trailing with
    | nil => rfl
    | cons b trailing => exact h.trailing b List.mem_cons_self
  | cons w written =>
    obtain ⟨hne, hgap⟩ := h.gap w List.mem_cons_self
    obtain ⟨b, gap, hw⟩ := List.exists_cons_of_ne_nil hne
    have hb : sep b = true := hgap b (by rw [hw]; exact List.mem_cons_self)
    simp [spell, hw, hb]

/-- The words are read as they were written. -/
theorem words_spell {written : List (List α × List α)} {trailing : List α}
    (h : IsSpelling sep written trailing) :
    words sep (spell written trailing) = written.map Prod.snd := by
  induction written with
  | nil =>
    have := words_gap_append h.trailing []
    rwa [List.append_nil, words_nil] at this
  | cons w written ih =>
    have htail : IsSpelling sep written trailing :=
      ⟨fun v hv => h.gap v (List.mem_cons_of_mem _ hv), fun v hv => h.word v (List.mem_cons_of_mem _ hv),
        h.trailing⟩
    obtain ⟨hne, hword⟩ := h.word w List.mem_cons_self
    have hcons : spell (w :: written) trailing = w.1 ++ (w.2 ++ spell written trailing) := by
      simp [spell]
    rw [hcons, words_gap_append (h.gap w List.mem_cons_self).2,
      words_word_append hne hword htail.head?, ih htail, List.map_cons]

/-! ## Every text is spelled -/

theorem all_head?_dropWhile (p : α → Bool) (s : List α) :
    (s.dropWhile p).head?.all (fun b => !p b) = true := by
  induction s with
  | nil => rfl
  | cons b s ih =>
    by_cases hb : p b = true
    · rw [List.dropWhile_cons_of_pos hb]
      exact ih
    · rw [List.dropWhile_cons_of_neg hb]
      simpa using hb

/-- A text that does not start with a word's letter is a spelling of its words. -/
theorem exists_spelling (s : List α) (hs : s.head?.all sep = true) :
    ∃ written trailing, IsSpelling sep written trailing ∧ spell written trailing = s := by
  induction hn : s.length using Nat.strongRecOn generalizing s with
  | _ n ih =>
    have hgap : ∀ b ∈ s.takeWhile sep, sep b = true := fun b hb => List.mem_takeWhile_imp hb
    have hsplit : s.takeWhile sep ++ s.dropWhile sep = s := List.takeWhile_append_dropWhile
    cases hrest : s.dropWhile sep with
    | nil =>
      rw [hrest, List.append_nil] at hsplit
      exact ⟨[], s, ⟨nofun, nofun, hsplit ▸ hgap⟩, rfl⟩
    | cons c rest =>
      have hc : sep c = false := by
        have := all_head?_dropWhile sep s
        rw [hrest] at this
        simpa using this
      have hne : s.takeWhile sep ≠ [] := by
        intro hnil
        rw [hnil, List.nil_append, hrest] at hsplit
        rw [← hsplit] at hs
        rw [show (c :: rest).head?.all sep = sep c from rfl, hc] at hs
        cases hs
      let word := (c :: rest).takeWhile fun b => !sep b
      let after := (c :: rest).dropWhile fun b => !sep b
      have hword : ∀ b ∈ word, sep b = false := fun b hb => by
        simpa using List.mem_takeWhile_imp hb
      have hwordne : word ≠ [] := by simp [word, hc]
      have hparts : word ++ after = c :: rest := List.takeWhile_append_dropWhile
      have hafter : after.head?.all sep = true := by
        simpa using all_head?_dropWhile (fun b => !sep b) (c :: rest)
      have hlength : after.length < n := by
        have hwhole := congrArg List.length hsplit
        have hpart := congrArg List.length hparts
        have hpos := List.length_pos_iff.mpr hwordne
        rw [hrest, List.length_append] at hwhole
        rw [List.length_append] at hpart
        omega
      obtain ⟨written, trailing, hspelling, hspell⟩ := ih _ hlength after hafter rfl
      refine ⟨(s.takeWhile sep, word) :: written, trailing, ⟨?_, ?_, hspelling.trailing⟩, ?_⟩
      · intro w hw
        rcases List.mem_cons.mp hw with rfl | hw
        · exact ⟨hne, hgap⟩
        · exact hspelling.gap w hw
      · intro w hw
        rcases List.mem_cons.mp hw with rfl | hw
        · exact ⟨hwordne, hword⟩
        · exact hspelling.word w hw
      · have hcons : spell ((s.takeWhile sep, word) :: written) trailing =
            s.takeWhile sep ++ (word ++ spell written trailing) := by
          simp [spell]
        rw [hcons, hspell, hparts, ← hrest, hsplit]

end Words
