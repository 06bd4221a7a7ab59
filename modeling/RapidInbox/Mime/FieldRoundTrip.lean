import RapidInbox.Mime.Rendering

/-!
# Header fields read back

A field that was written with a quoted parameter is read back as its value and that parameter, and the
lookup of a field in the header block of an entity finds what was written.
-/

namespace RapidInbox
namespace Mime

/-! ## Quoted strings -/

theorem unescape_escapeQuoted (value : Bytes) : unescape false (value.flatMap escapeQuoted) = value := by
  induction value with
  | nil => rfl
  | cons ch value ih =>
    rw [List.flatMap_cons, escapeQuoted]
    by_cases hch : ch = 0x22 ∨ ch = 0x5C
    · rw [if_pos hch]
      change ch :: unescape false (value.flatMap escapeQuoted) = _
      rw [ih]
    · rw [if_neg hch]
      rw [not_or] at hch
      simp only [List.singleton_append, unescape, Bool.false_eq_true, if_false, if_neg hch.2, ih]

theorem trim_quoteParameter (value : Bytes) : trim (quoteParameter value) = quoteParameter value := by
  apply trim_eq_self
  · intro ch hch
    cases hch
    rfl
  · intro ch hch
    rw [quoteParameter, List.getLast?_concat] at hch
    cases hch
    rfl

theorem unquoteParameter_quoteParameter (value : Bytes) :
    unquoteParameter (quoteParameter value) = value := by
  have hlast : (quoteParameter value).getLast? = some 0x22 := List.getLast?_concat
  have hinner : ((quoteParameter value).drop 1).dropLast = value.flatMap escapeQuoted :=
    List.dropLast_concat
  have hlength : ¬ (quoteParameter value).length < 2 := by
    simp [quoteParameter]
  rw [unquoteParameter, trim_quoteParameter, if_neg, hinner, unescape_escapeQuoted]
  rintro (h | h | h)
  · exact hlength h
  · exact h rfl
  · exact h hlast

/-! ## Segments -/

/-- Put a text in front of the first segment. -/
def prependFirst (text : Bytes) : List Bytes → List Bytes
  | [] => [text]
  | segment :: segments => (text ++ segment) :: segments

theorem consFirst_prependFirst (ch : UInt8) (text : Bytes) (segments : List Bytes) :
    consFirst ch (prependFirst text segments) = prependFirst (ch :: text) segments := by
  cases segments <;> rfl

theorem consFirst_ne_nil (ch : UInt8) (segments : List Bytes) : consFirst ch segments ≠ [] := by
  cases segments <;> exact List.cons_ne_nil _ _

theorem rawSegments_ne_nil (quoted escaped : Bool) (text : Bytes) :
    rawSegments quoted escaped text ≠ [] := by
  cases text with
  | nil => exact List.cons_ne_nil _ _
  | cons ch rest =>
    rw [rawSegments]
    repeat' split
    all_goals first
      | exact consFirst_ne_nil _ _
      | exact List.cons_ne_nil _ _

theorem prependFirst_nil {segments : List Bytes} (h : segments ≠ []) :
    prependFirst [] segments = segments := by
  cases segments with
  | nil => exact absurd rfl h
  | cons segment segments => rfl

/-- Outside quotes, bytes that are neither quotes nor semicolons are copied. -/
theorem rawSegments_plain {text : Bytes} (h : ∀ ch ∈ text, ch ≠ 0x22 ∧ ch ≠ 0x3B) (rest : Bytes) :
    rawSegments false false (text ++ rest) = prependFirst text (rawSegments false false rest) := by
  induction text with
  | nil => exact (prependFirst_nil (rawSegments_ne_nil _ _ _)).symm
  | cons ch text ih =>
    obtain ⟨hquote, hsemicolon⟩ := h ch List.mem_cons_self
    rw [List.cons_append, rawSegments, ih fun x hx => h x (List.mem_cons_of_mem _ hx)]
    simp [hquote, hsemicolon, consFirst_prependFirst]

/-- Inside quotes everything is copied up to the closing quote. -/
theorem rawSegments_quoted (value rest : Bytes) :
    rawSegments true false (value.flatMap escapeQuoted ++ 0x22 :: rest) =
      prependFirst (value.flatMap escapeQuoted ++ [0x22]) (rawSegments false false rest) := by
  have hempty : ∀ segments, segments ≠ [] → consFirst 0x22 segments = prependFirst [0x22] segments := by
    intro segments hne
    cases segments with
    | nil => exact absurd rfl hne
    | cons segment segments => rfl
  induction value with
  | nil =>
    simp only [List.flatMap_nil, List.nil_append, rawSegments]
    exact hempty _ (rawSegments_ne_nil _ _ _)
  | cons ch value ih =>
    rw [List.flatMap_cons, escapeQuoted]
    by_cases hch : ch = 0x22 ∨ ch = 0x5C
    · rw [if_pos hch]
      simp only [List.cons_append, List.nil_append, rawSegments, Bool.true_and]
      simp [ih, consFirst_prependFirst]
    · rw [if_neg hch]
      rw [not_or] at hch
      simp only [List.cons_append, List.nil_append, rawSegments]
      simp [hch.1, hch.2, ih, consFirst_prependFirst]

/-- A value with a parameter is cut into the two. -/
theorem splitParameterSegments_parameterText {text key : Bytes} (htext : IsToken text)
    (hkey : IsToken key) (value : Bytes) :
    splitParameterSegments (text ++ parameterText key (some value)) =
      [text, key ++ 0x3D :: quoteParameter value] := by
  have hplain : ∀ {token}, IsToken token → ∀ ch ∈ token, ch ≠ (0x22 : UInt8) ∧ ch ≠ 0x3B :=
    fun h ch hch => (h.2 ch hch).2
  have hvalue : rawSegments false false (0x20 :: (key ++ 0x3D :: quoteParameter value)) =
      [0x20 :: (key ++ 0x3D :: quoteParameter value)] := by
    have hspace : ∀ ch ∈ 0x20 :: (key ++ [0x3D]), ch ≠ (0x22 : UInt8) ∧ ch ≠ 0x3B := by
      intro ch hch
      rcases List.mem_cons.mp hch with rfl | hch
      · decide
      · rcases List.mem_append.mp hch with hch | hch
        · exact hplain hkey ch hch
        · rw [List.mem_singleton.mp hch]
          decide
    have hsplit : 0x20 :: (key ++ 0x3D :: quoteParameter value) =
        (0x20 :: (key ++ [0x3D])) ++ quoteParameter value := by simp
    rw [hsplit, rawSegments_plain hspace]
    have hquoted := rawSegments_quoted value []
    rw [quoteParameter, List.cons_append]
    simp only [rawSegments, Bool.false_and, Bool.not_false, Bool.false_eq_true, if_false]
    rw [if_pos trivial, hquoted]
    simp [rawSegments, prependFirst, consFirst]
  have hcut : rawSegments false false (text ++ parameterText key (some value)) =
      [text, 0x20 :: (key ++ 0x3D :: quoteParameter value)] := by
    rw [rawSegments_plain (hplain htext)]
    have hsemicolon : parameterText key (some value) =
        0x3B :: 0x20 :: (key ++ 0x3D :: quoteParameter value) := rfl
    rw [hsemicolon, rawSegments]
    simp [hvalue, prependFirst]
  have htrim : trim (0x20 :: (key ++ 0x3D :: quoteParameter value)) =
      key ++ 0x3D :: quoteParameter value := by
    rw [trim_space]
    apply trim_eq_self
    · intro ch hch
      cases hk : key with
      | nil => exact absurd hk hkey.1
      | cons first key =>
        rw [hk] at hch
        cases hch
        exact (hkey.2 _ (hk ▸ List.mem_cons_self)).1
    · intro ch hch
      have hlast : (key ++ 0x3D :: quoteParameter value).getLast? = some 0x22 := by
        have : key ++ 0x3D :: quoteParameter value =
            (key ++ 0x3D :: 0x22 :: value.flatMap escapeQuoted) ++ [0x22] := by
          simp [quoteParameter]
        rw [this, List.getLast?_concat]
      rw [hlast] at hch
      cases hch
      rfl
  rw [splitParameterSegments, hcut, List.map_cons, List.map_cons, htrim,
    trim_of_noSpace fun ch hch => (htext.2 ch hch).1]
  rfl

theorem splitParameterSegments_none {text : Bytes} (htext : IsToken text) :
    splitParameterSegments text = [text] := by
  have hcut := rawSegments_plain (fun ch hch => (htext.2 ch hch).2) []
  rw [List.append_nil] at hcut
  rw [splitParameterSegments, hcut]
  change [trim (text ++ [])] = _
  rw [List.append_nil, trim_of_noSpace fun ch hch => (htext.2 ch hch).1]

/-! ## Encoded words -/

/-- A text without `=?` is not decoded. -/
theorem decodeWordsFrom_eq_self (P : MimePlatform) {text : Bytes} (h : NoEncodedWord text) {fuel : Nat}
    (hfuel : text.length ≤ fuel) : decodeWordsFrom P fuel text = text := by
  induction text generalizing fuel with
  | nil => cases fuel <;> rfl
  | cons ch rest ih =>
    cases fuel with
    | zero => exact absurd hfuel (Nat.not_succ_le_zero _)
    | succ fuel =>
      have hrest : NoEncodedWord rest := fun hpart => h (List.infix_cons hpart)
      have hword : decodeWordAt P (ch :: rest) = none := by
        cases rest with
        | nil => rfl
        | cons next rest =>
          rw [decodeWordAt, if_neg]
          rintro ⟨rfl, rfl⟩
          exact h ⟨[], rest, rfl⟩
      rw [decodeWordsFrom, hword]
      exact congrArg (ch :: ·) (ih hrest (Nat.le_of_succ_le_succ hfuel))

theorem decodeWords_eq_self (P : MimePlatform) {text : Bytes} (h : NoEncodedWord text) :
    decodeWords P text = text :=
  decodeWordsFrom_eq_self P h (Nat.le_refl _)

/-- What begins an encoded word in a string begins one in the quoted string. -/
theorem noEncodedWord_of_quoteParameter {value pre post : Bytes}
    (h : NoEncodedWord (pre ++ quoteParameter value ++ post)) : NoEncodedWord value := by
  rintro ⟨before, after, rfl⟩
  refine h ⟨pre ++ 0x22 :: before.flatMap escapeQuoted, after.flatMap escapeQuoted ++ 0x22 :: post, ?_⟩
  have hmiddle : [0x3D, 0x3F].flatMap escapeQuoted = [0x3D, 0x3F] := by decide
  simp only [quoteParameter, List.flatMap_append, hmiddle]
  simp

/-! ## Parameters -/

theorem parseParameter_parameterText (P : MimePlatform) {key value : Bytes} (hkey : IsToken key)
    (hequals : 0x3D ∉ key) (hlower : lowerAscii key = key) (hvalue : NoEncodedWord value) :
    parseParameter P (key ++ 0x3D :: quoteParameter value) = some (key, value) := by
  have htrim : trim key = key := trim_of_noSpace fun ch hch => (hkey.2 ch hch).1
  simp [parseParameter, Lines.split?_line hequals, htrim, hlower, hkey.1,
    unquoteParameter_quoteParameter, decodeWords_eq_self P hvalue]

/-- A token with an optional parameter is read back. -/
theorem parseParameterizedHeader_parameterText (P : MimePlatform) {text : Bytes} (key : Bytes)
    {value : Option Bytes} (htext : IsToken text) (hkey : IsToken key) (hequals : 0x3D ∉ key)
    (hlower : lowerAscii key = key) (hvalue : ∀ v ∈ value, NoEncodedWord v) :
    parseParameterizedHeader P (text ++ parameterText key value) =
      ⟨lowerAscii text, (value.map fun v => (key, v)).toList⟩ := by
  have htrim : trim text = text := trim_of_noSpace fun ch hch => (htext.2 ch hch).1
  cases value with
  | none =>
    rw [parameterText, List.append_nil, parseParameterizedHeader,
      splitParameterSegments_none htext]
    simp [htrim]
  | some value =>
    rw [parseParameterizedHeader, splitParameterSegments_parameterText htext hkey]
    simp [htrim, parseParameter_parameterText P hkey hequals hlower (hvalue value rfl)]

/-- A token with an optional parameter is not trimmed. -/
theorem trim_parameterText {text : Bytes} (htext : IsToken text) (key : Bytes)
    (value : Option Bytes) : trim (text ++ parameterText key value) = text ++ parameterText key value := by
  apply trim_eq_self
  · intro ch hch
    cases ht : text with
    | nil => exact absurd ht htext.1
    | cons first text =>
      rw [ht] at hch
      cases hch
      exact (htext.2 _ (ht ▸ List.mem_cons_self)).1
  · intro ch hch
    cases value with
    | none =>
      rw [parameterText, List.append_nil] at hch
      exact (htext.2 ch (List.mem_of_mem_getLast? hch)).1
    | some value =>
      have hlast : text ++ parameterText key (some value) =
          (text ++ (ascii "; " ++ key ++ 0x3D :: 0x22 :: value.flatMap escapeQuoted)) ++ [0x22] := by
        simp [parameterText, quoteParameter]
      rw [hlast, List.getLast?_concat] at hch
      cases hch
      rfl

end Mime
end RapidInbox
