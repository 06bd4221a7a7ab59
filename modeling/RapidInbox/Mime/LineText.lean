import RapidInbox.Mime.Parser

/-!
# Text made of lines

What the line loops of the parser see of a text that was written line by line, and what trimming
leaves alone.
-/

namespace RapidInbox
namespace Mime

/-- The lines, each with a newline. -/
def unlines (lines : List Bytes) : Bytes := lines.flatMap (· ++ [lineFeed])

@[simp] theorem unlines_nil : unlines [] = [] := rfl

@[simp] theorem unlines_cons (line : Bytes) (lines : List Bytes) :
    unlines (line :: lines) = line ++ lineFeed :: unlines lines := by
  simp [unlines]

theorem unlines_append (lines more : List Bytes) : unlines (lines ++ more) = unlines lines ++ unlines more :=
  List.flatMap_append

/-- Neither CR nor LF. -/
def NoLineBreak (text : Bytes) : Prop := carriageReturn ∉ text ∧ lineFeed ∉ text

instance (text : Bytes) : Decidable (NoLineBreak text) := inferInstanceAs (Decidable (_ ∧ _))

/-! ## Line endings -/

theorem normalizeLineEndings_line {line : Bytes} (h : carriageReturn ∉ line) (rest : Bytes) :
    normalizeLineEndings (line ++ carriageReturn :: lineFeed :: rest) =
      line ++ lineFeed :: normalizeLineEndings rest := by
  induction line with
  | nil => rfl
  | cons ch line ih =>
    rw [List.mem_cons, not_or] at h
    have hstep : ∀ next more, normalizeLineEndings (ch :: next :: more) =
        ch :: normalizeLineEndings (next :: more) := by
      intro next more
      rw [normalizeLineEndings, if_neg (Ne.symm h.1)]
    have ih := ih h.2
    cases line with
    | nil => exact (hstep _ _).trans (congrArg (ch :: ·) ih)
    | cons next line => exact (hstep _ _).trans (congrArg (ch :: ·) ih)

/-- A text with CRLF after every line. -/
def crlfLines (lines : List Bytes) : Bytes := lines.flatMap (· ++ [carriageReturn, lineFeed])

theorem normalizeLineEndings_crlfLines {lines : List Bytes}
    (h : ∀ line ∈ lines, NoLineBreak line) : normalizeLineEndings (crlfLines lines) = unlines lines := by
  induction lines with
  | nil => rfl
  | cons line lines ih =>
    have hline := h line List.mem_cons_self
    have hcrlf : crlfLines (line :: lines) =
        line ++ carriageReturn :: lineFeed :: crlfLines lines := by
      simp [crlfLines]
    rw [hcrlf, normalizeLineEndings_line hline.1, unlines_cons,
      ih fun line' hmem => h line' (List.mem_cons_of_mem _ hmem)]

/-! ## Splitting -/

theorem splitLines_line {line : Bytes} (h : lineFeed ∉ line) (rest : Bytes) :
    splitLines (line ++ lineFeed :: rest) = (line, true) :: splitLines rest := by
  induction line with
  | nil => exact if_pos rfl
  | cons ch line ih =>
    rw [List.mem_cons, not_or] at h
    rw [List.cons_append, splitLines, if_neg (Ne.symm h.1), ih h.2]

theorem splitLines_unlines_append {lines : List Bytes} (h : ∀ line ∈ lines, lineFeed ∉ line)
    (rest : Bytes) :
    splitLines (unlines lines ++ rest) = lines.map (fun line => (line, true)) ++ splitLines rest := by
  induction lines with
  | nil => rfl
  | cons line lines ih =>
    rw [unlines_cons, List.append_assoc, List.cons_append,
      splitLines_line (h line List.mem_cons_self),
      ih fun line' hmem => h line' (List.mem_cons_of_mem _ hmem)]
    rfl

theorem splitLines_unlines {lines : List Bytes} (h : ∀ line ∈ lines, lineFeed ∉ line) :
    splitLines (unlines lines) = lines.map (fun line => (line, true)) ++ [([], false)] := by
  have := splitLines_unlines_append h []
  rwa [List.append_nil] at this

theorem splitLines_ne_nil (text : Bytes) : splitLines text ≠ [] := by
  induction text with
  | nil => exact List.cons_ne_nil _ _
  | cons ch rest ih =>
    rw [splitLines]
    split
    · exact List.cons_ne_nil _ _
    · split
      · next h => exact absurd h ih
      · exact List.cons_ne_nil _ _

/-- The lines are the text. -/
theorem joinLines_splitLines (text : Bytes) : joinLines (splitLines text) = text := by
  induction text with
  | nil => rfl
  | cons ch rest ih =>
    rw [splitLines]
    by_cases hch : ch = lineFeed
    · rw [if_pos hch]
      change lineFeed :: joinLines (splitLines rest) = _
      rw [ih, hch]
    · rw [if_neg hch]
      cases hlines : splitLines rest with
      | nil => exact absurd hlines (splitLines_ne_nil rest)
      | cons line lines =>
        rw [hlines] at ih
        exact congrArg (ch :: ·) ih

/-! ## Trimming -/

theorem dropWhile_eq_self {p : UInt8 → Bool} {text : Bytes} (h : ∀ ch ∈ text.head?, p ch = false) :
    text.dropWhile p = text := by
  cases text with
  | nil => rfl
  | cons ch text => exact List.dropWhile_cons_of_neg (by rw [h ch rfl]; exact Bool.false_ne_true)

theorem rdropWhile_eq_self {p : UInt8 → Bool} {text : Bytes}
    (h : ∀ ch ∈ text.getLast?, p ch = false) : text.rdropWhile p = text := by
  rw [List.rdropWhile, dropWhile_eq_self, List.reverse_reverse]
  intro ch hch
  rw [List.head?_reverse] at hch
  exact h ch hch

/-- Trimming leaves a text alone that neither begins nor ends with white space. -/
theorem trim_eq_self {text : Bytes} (hfirst : ∀ ch ∈ text.head?, asciiSpace ch = false)
    (hlast : ∀ ch ∈ text.getLast?, asciiSpace ch = false) : trim text = text := by
  rw [trim, dropWhile_eq_self hfirst, rdropWhile_eq_self hlast]

theorem trim_of_noSpace {text : Bytes} (h : ∀ ch ∈ text, asciiSpace ch = false) : trim text = text :=
  trim_eq_self (fun ch hch => h ch (List.mem_of_mem_head? hch))
    (fun ch hch => h ch (List.mem_of_mem_getLast? hch))

theorem trim_space (text : Bytes) : trim (0x20 :: text) = trim text := rfl

/-- A text with a byte that is not white space is not blank. -/
theorem trim_ne_nil {text : Bytes} {ch : UInt8} (hmem : ch ∈ text) (h : asciiSpace ch = false) :
    trim text ≠ [] := by
  intro hnil
  rw [trim, List.rdropWhile_eq_nil_iff] at hnil
  have hall : ∀ x ∈ text, asciiSpace x = true := by
    by_contra hex
    push Not at hex
    obtain ⟨x, hx, hspace⟩ := hex
    have hne : text.dropWhile asciiSpace ≠ [] := by
      rw [ne_eq, List.dropWhile_eq_nil_iff]
      exact fun hall => hspace (hall x hx)
    have hhead := List.head_dropWhile_not asciiSpace hne
    have := hnil _ (List.head_mem hne)
    rw [hhead] at this
    exact Bool.false_ne_true this
  exact Bool.false_ne_true (h.symm.trans (hall ch hmem))

end Mime
end RapidInbox
