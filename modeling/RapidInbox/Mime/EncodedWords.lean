import Mathlib.Data.FinEnum
import RapidInbox.Mime.TransferEncodings
import RapidInbox.Mime.RoundTrip

/-!
# Encoded words

`decode_rfc2047_word_at` and `decode_rfc2047_words` (`mime_parser.cpp:812-850, 922-954`) on headers
that are plain fragments with encoded words in between.
-/

namespace RapidInbox
namespace Mime

variable {P : MimePlatform}

/-! ## The loop comes to its end -/

theorem length_of_splitWordEnd {text word after : Bytes} (h : splitWordEnd text = some (word, after)) :
    after.length < text.length := by
  induction text using splitWordEnd.induct generalizing word with
  | case1 => cases h
  | case2 => cases h
  | case3 a b rest heq =>
    rw [splitWordEnd, if_pos heq] at h
    cases h
    simp only [List.length_cons]
    omega
  | case4 a b rest hne ih =>
    rw [splitWordEnd, if_neg hne, Option.map_eq_some_iff] at h
    obtain ⟨⟨word', after'⟩, hsplit, heq⟩ := h
    cases heq
    exact Nat.lt_succ_of_lt (ih hsplit)

theorem length_of_split? {sep : UInt8} {text line rest : Bytes}
    (h : Lines.split? sep text = some (line, rest)) : rest.length < text.length := by
  obtain ⟨-, rfl⟩ := Lines.split?_eq_some.mp h
  rw [List.length_append, List.length_cons]
  omega

/-- A word takes at least one byte. -/
theorem length_of_decodeWordAt {text word after : Bytes} (h : decodeWordAt P text = some (word, after)) :
    after.length < text.length := by
  unfold decodeWordAt at h
  split at h
  · rename_i a b rest
    split at h
    · simp only [Option.bind_eq_bind, Option.bind_eq_some_iff] at h
      obtain ⟨⟨charset, rest₁⟩, hcharset, ⟨encoding, rest₂⟩, hencoding, ⟨encoded, rest₃⟩, hend, h⟩ := h
      have h₁ : rest₁.length < rest.length := length_of_split? hcharset
      have h₂ : rest₂.length < rest₁.length := length_of_split? hencoding
      have h₃ : rest₃.length < rest₂.length := length_of_splitWordEnd hend
      have hafter : after = rest₃ := by
        dsimp only at h
        split at h
        · cases h
          rfl
        · split at h
          · cases h
            rfl
          · cases h
      rw [hafter, List.length_cons, List.length_cons]
      omega
    · cases h
  · cases h

/-- The rounds of the loop are no more than the bytes. -/
theorem decodeWordsFrom_fuel {text : Bytes} {fuel : Nat} (h : text.length ≤ fuel) :
    decodeWordsFrom P fuel text = decodeWords P text := by
  have hstep : ∀ (n : Nat) (text : Bytes), text.length ≤ n → ∀ fuel, text.length ≤ fuel →
      decodeWordsFrom P fuel text = decodeWordsFrom P text.length text := by
    intro n
    induction n with
    | zero =>
      intro text hn fuel _
      rw [List.length_eq_zero_iff.mp (Nat.le_zero.mp hn)]
      cases fuel <;> rfl
    | succ n ih =>
      intro text hn fuel hfuel
      cases text with
      | nil => cases fuel <;> rfl
      | cons ch rest =>
        cases fuel with
        | zero => exact absurd hfuel (Nat.not_succ_le_zero _)
        | succ fuel =>
          have hrest : rest.length ≤ n := Nat.le_of_succ_le_succ hn
          have hfuelRest : rest.length ≤ fuel := Nat.le_of_succ_le_succ hfuel
          rw [List.length_cons, decodeWordsFrom, decodeWordsFrom]
          cases hword : decodeWordAt P (ch :: rest) with
          | none => exact congrArg (ch :: ·) (ih rest hrest fuel hfuelRest)
          | some p =>
            obtain ⟨word, after⟩ := p
            have hafter : after.length ≤ rest.length :=
              Nat.le_of_lt_succ (length_of_decodeWordAt hword)
            have hnext : (after.dropWhile asciiSpace).length ≤ rest.length :=
              Nat.le_trans (List.dropWhile_sublist _).length_le hafter
            have hboth (more : Bytes) (hmore : more.length ≤ rest.length) :
                decodeWordsFrom P fuel more = decodeWordsFrom P rest.length more :=
              (ih more (Nat.le_trans hmore hrest) fuel (Nat.le_trans hmore hfuelRest)).trans
                (ih more (Nat.le_trans hmore hrest) rest.length hmore).symm
            dsimp only
            rw [hboth _ hnext, hboth _ hafter]
  exact hstep text.length text (Nat.le_refl _) fuel h

@[simp] theorem decodeWords_nil : decodeWords P [] = [] := rfl

theorem decodeWords_of_none {ch : UInt8} {rest : Bytes} (h : decodeWordAt P (ch :: rest) = none) :
    decodeWords P (ch :: rest) = ch :: decodeWords P rest := by
  rw [decodeWords, List.length_cons, decodeWordsFrom, h]
  rfl

theorem decodeWords_of_some {text word after : Bytes} (h : decodeWordAt P text = some (word, after)) :
    decodeWords P text =
      word ++ if (decodeWordAt P (after.dropWhile asciiSpace)).isSome then
        decodeWords P (after.dropWhile asciiSpace)
      else decodeWords P after := by
  cases text with
  | nil => cases h
  | cons ch rest =>
    have hafter : after.length ≤ rest.length := Nat.le_of_lt_succ (length_of_decodeWordAt h)
    have hnext : (after.dropWhile asciiSpace).length ≤ rest.length :=
      Nat.le_trans (List.dropWhile_sublist _).length_le hafter
    rw [decodeWords, List.length_cons, decodeWordsFrom, h]
    dsimp only
    rw [decodeWordsFrom_fuel hnext, decodeWordsFrom_fuel hafter]
    split <;> rfl

/-! ## Words as they are written -/

/-- The Q encoding of a byte string: letters stand for themselves, an underscore for a space, and
    every byte may be escaped. -/
inductive QEncoding : Bytes → Bytes → Prop
  | nil : QEncoding [] []
  | literal {b : UInt8} {bs text : Bytes} (hlow : 0x21 ≤ b) (hhigh : b ≤ 0x7E)
      (hb : b ≠ 0x3D ∧ b ≠ 0x3F ∧ b ≠ 0x5F) (h : QEncoding bs text) : QEncoding (b :: bs) (b :: text)
  | space {bs text : Bytes} (h : QEncoding bs text) : QEncoding (0x20 :: bs) (0x5F :: text)
  | escape {b high low : UInt8} {bs text : Bytes} (hhigh : high ∈ hexSpellings (b.toNat / 16))
      (hlow : low ∈ hexSpellings (b.toNat % 16)) (h : QEncoding bs text) :
      QEncoding (b :: bs) (0x3D :: high :: low :: text)

/-- What stands between the second and the third question mark, and then the text of the word. -/
inductive WordText (payload : Bytes) : UInt8 → Bytes → Prop
  | b {letter : UInt8} (hletter : letter = 0x42 ∨ letter = 0x62) (padded : Bool) :
      WordText payload letter (encodeBase64 padded payload)
  | q {letter : UInt8} (hletter : letter = 0x51 ∨ letter = 0x71) {text : Bytes}
      (h : QEncoding payload text) : WordText payload letter text

/-- An encoded word with a payload in UTF-8. -/
structure EncodedWord where
  charset : Bytes
  letter : UInt8
  text : Bytes
  payload : Bytes
  utf8 : lowerAscii charset = ascii "utf-8"
  encodes : WordText payload letter text

/-- The word on a header line. -/
def EncodedWord.render (w : EncodedWord) : Bytes :=
  0x3D :: 0x3F :: (w.charset ++ 0x3F :: (w.letter :: 0x3F :: (w.text ++ [0x3F, 0x3D])))

theorem hexSpelling_plain : ∀ digit < 16, ∀ ch ∈ hexSpellings digit, ch ≠ 0x3F ∧ ch ≠ 0x5F := by
  decide +kernel

/-- No question mark ends the text early. -/
theorem QEncoding.noMark {bs text : Bytes} (h : QEncoding bs text) : (0x3F : UInt8) ∉ text := by
  induction h with
  | nil => exact List.not_mem_nil
  | literal hlow hhigh hb h ih =>
    rw [List.mem_cons, not_or]
    exact ⟨Ne.symm hb.2.1, ih⟩
  | space h ih =>
    rw [List.mem_cons, not_or]
    exact ⟨by decide, ih⟩
  | @escape b high low bs text hhigh hlow h ih =>
    have hb := b.toNat_lt
    have hhigh := (hexSpelling_plain _ (by omega) high hhigh).1
    have hlow := (hexSpelling_plain _ (by omega) low hlow).1
    rw [List.mem_cons, List.mem_cons, List.mem_cons, not_or, not_or, not_or]
    exact ⟨by decide, Ne.symm hhigh, Ne.symm hlow, ih⟩

/-- With spaces for underscores it is quoted-printable text. -/
theorem QEncoding.quotedPrintable {bs text : Bytes} (h : QEncoding bs text) :
    QuotedPrintable bs (text.map fun ch => if ch = 0x5F then 0x20 else ch) := by
  induction h with
  | nil => exact .nil
  | literal hlow hhigh hb h ih =>
    rw [List.map_cons, if_neg hb.2.2]
    exact .literal hb.1 ih
  | space h ih =>
    rw [List.map_cons, if_pos rfl]
    exact .literal (by decide) ih
  | @escape b high low bs text hhigh hlow h ih =>
    have hb := b.toNat_lt
    have hhighPlain := (hexSpelling_plain _ (by omega) high hhigh).2
    have hlowPlain := (hexSpelling_plain _ (by omega) low hlow).2
    rw [List.map_cons, List.map_cons, List.map_cons, if_neg (by decide), if_neg hhighPlain,
      if_neg hlowPlain]
    exact .escape hhigh hlow ih

theorem base64Letter_plain : ∀ digit < 64, base64Letter digit ≠ 0x3F := by
  decide +kernel

theorem noMark_encodeBase64 (padded : Bool) (bs : Bytes) : (0x3F : UInt8) ∉ encodeBase64 padded bs := by
  rw [encodeBase64, Base64.encode, List.mem_append, not_or]
  constructor
  · intro hmem
    obtain ⟨digit, hdigit, heq⟩ := List.mem_map.mp hmem
    exact base64Letter_plain digit (Base64.lt_of_mem_digits hdigit) heq
  · cases padded with
    | false => exact List.not_mem_nil
    | true =>
      intro hmem
      exact absurd (List.eq_of_mem_replicate hmem) (by decide)

theorem base64Letter_space : ∀ digit < 64, asciiSpace (base64Letter digit) = false := fun digit h =>
  (base64_alphabet digit h).2.1

theorem filter_encodeBase64 (padded : Bool) (bs : Bytes) :
    ((encodeBase64 padded bs).filter fun ch => !asciiSpace ch) = encodeBase64 padded bs := by
  rw [List.filter_eq_self]
  intro ch hch
  rw [encodeBase64, Base64.encode, List.mem_append] at hch
  rcases hch with hch | hch
  · obtain ⟨digit, hdigit, rfl⟩ := List.mem_map.mp hch
    rw [base64Letter_space digit (Base64.lt_of_mem_digits hdigit)]
    rfl
  · cases padded with
    | false => cases hch
    | true =>
      rw [List.eq_of_mem_replicate hch]
      rfl

theorem splitWordEnd_text {text : Bytes} (h : (0x3F : UInt8) ∉ text) (rest : Bytes) :
    splitWordEnd (text ++ 0x3F :: 0x3D :: rest) = some (text, rest) := by
  induction text with
  | nil => exact if_pos ⟨rfl, rfl⟩
  | cons a text ih =>
    rw [List.mem_cons, not_or] at h
    have ih := ih h.2
    cases text with
    | nil =>
      rw [List.cons_append, List.nil_append, splitWordEnd, if_neg fun hboth => h.1 hboth.1.symm]
      rw [List.nil_append] at ih
      rw [ih]
      rfl
    | cons b text =>
      rw [List.cons_append, List.cons_append, splitWordEnd, if_neg fun hboth => h.1 hboth.1.symm]
      rw [List.cons_append] at ih
      rw [ih]
      rfl

theorem normalizedCharsetName_utf8 {charset : Bytes} (h : lowerAscii charset = ascii "utf-8") :
    normalizedCharsetName charset = ascii "UTF-8" := by
  have hspace : ∀ ch ∈ charset, asciiSpace ch = false := by
    intro ch hch
    have hall : (ascii "utf-8").all (fun lower => !asciiSpace lower) = true := rfl
    have hlower := List.all_eq_true.mp hall (toLower ch) (h ▸ List.mem_map_of_mem hch)
    rw [Bool.not_eq_true'] at hlower
    have htable : ∀ n < 256, asciiSpace (toLower (UInt8.ofNat n)) = asciiSpace (UInt8.ofNat n) := by
      decide +kernel
    have := htable ch.toNat ch.toNat_lt
    rw [UInt8.ofNat_toNat] at this
    rw [← this, hlower]
  rw [normalizedCharsetName, trim_of_noSpace hspace]
  exact if_pos (.inr (.inr (.inl h)))

theorem noMark_charset {charset : Bytes} (h : lowerAscii charset = ascii "utf-8") :
    (0x3F : UInt8) ∉ charset := by
  intro hmem
  have hall : (0x3F : UInt8) ∉ ascii "utf-8" := by decide
  have hlower : toLower 0x3F ∈ lowerAscii charset := List.mem_map_of_mem hmem
  rw [h] at hlower
  exact hall hlower

/-- No delimiter stands in the letter or in the text, and the decoder of the letter undoes the text. -/
theorem WordText.decoded {payload text : Bytes} {letter : UInt8} (h : WordText payload letter text) :
    (0x3F : UInt8) ∉ [letter] ∧ (0x3F : UInt8) ∉ text ∧
      (lowerAscii [letter] = ascii "b" ∧ decodeBase64 text = payload ∨
        lowerAscii [letter] = ascii "q" ∧
          decodeQuotedPrintable (text.map fun ch => if ch = 0x5F then 0x20 else ch) = payload) := by
  cases h with
  | b hletter padded =>
    refine ⟨?_, noMark_encodeBase64 padded payload, .inl ⟨?_, ?_⟩⟩
    · rcases hletter with rfl | rfl <;> decide
    · rcases hletter with rfl | rfl <;> rfl
    · exact decodeBase64_encode payload padded (filter_encodeBase64 padded payload)
  | q hletter hq =>
    refine ⟨?_, hq.noMark, .inr ⟨?_, decodeQuotedPrintable_of hq.quotedPrintable⟩⟩
    · rcases hletter with rfl | rfl <;> decide
    · rcases hletter with rfl | rfl <;> rfl

namespace EncodedWord

/-- The word is decoded wherever it stands. -/
theorem decodeWordAt_render (w : EncodedWord) (rest : Bytes) :
    decodeWordAt P (w.render ++ rest) = some (w.payload, rest) := by
  have hcharset : ∀ bytes, decodeCharset P bytes w.charset = bytes := by
    intro bytes
    rw [decodeCharset, if_pos (normalizedCharsetName_utf8 w.utf8), ite_self]
  have hrender : w.render ++ rest = 0x3D :: 0x3F :: (w.charset ++ 0x3F :: ([w.letter] ++ 0x3F ::
      (w.text ++ 0x3F :: 0x3D :: rest))) := by
    simp [render]
  obtain ⟨hletter, htext, hdecoded⟩ := w.encodes.decoded
  rw [hrender, decodeWordAt, if_pos ⟨rfl, rfl⟩, Lines.split?_line (noMark_charset w.utf8)]
  simp only [Option.bind_eq_bind, Option.bind_some]
  rw [Lines.split?_line hletter]
  simp only [Option.bind_some]
  rw [splitWordEnd_text htext]
  simp only [Option.bind_some, hcharset]
  rcases hdecoded with ⟨hb, hdecoded⟩ | ⟨hq, hdecoded⟩
  · rw [if_pos hb, hdecoded]
  · rw [if_neg (by rw [hq]; decide), if_pos hq, hdecoded]

end EncodedWord

/-! ## Headers of fragments and words -/

theorem noEncodedWord_of_append (before : Bytes) {after : Bytes} (h : NoEncodedWord (before ++ after)) :
    NoEncodedWord after :=
  fun hpart => h (hpart.trans (List.suffix_append before after).isInfix)

/-- No word begins in a plain fragment, also not with its last byte. -/
theorem decodeWordAt_plain {plain rest : Bytes} (h : NoEncodedWord plain) (hne : plain ≠ [])
    (hrest : rest.head? ≠ some 0x3F) : decodeWordAt P (plain ++ rest) = none := by
  cases plain with
  | nil => exact absurd rfl hne
  | cons a plain =>
    cases plain with
    | nil =>
      cases rest with
      | nil => rfl
      | cons b rest =>
        rw [List.cons_append, List.nil_append, decodeWordAt, if_neg]
        rintro ⟨-, rfl⟩
        exact hrest rfl
    | cons b plain =>
      rw [List.cons_append, List.cons_append, decodeWordAt, if_neg]
      rintro ⟨rfl, rfl⟩
      exact h ⟨[], plain, rfl⟩

theorem decodeWords_plain {plain rest : Bytes} (h : NoEncodedWord plain)
    (hrest : rest.head? ≠ some 0x3F) : decodeWords P (plain ++ rest) = plain ++ decodeWords P rest := by
  induction plain with
  | nil => rfl
  | cons ch plain ih =>
    have hword : decodeWordAt P (ch :: (plain ++ rest)) = none :=
      decodeWordAt_plain h (List.cons_ne_nil _ _) hrest
    rw [List.cons_append, decodeWords_of_none hword,
      ih (noEncodedWord_of_append [ch] h)]
    rfl

/-- Text without `=?`. -/
abbrev Plain := { text : Bytes // NoEncodedWord text }

/-- The words of a header, each with the text up to the next one. -/
def renderWords (words : List (EncodedWord × Plain)) : Bytes :=
  words.flatMap fun (w, gap) => w.render ++ gap.val

/-- What the words say: white space between two of them is not text. -/
def wordsMeaning : List (EncodedWord × Plain) → Bytes
  | [] => []
  | [(w, gap)] => w.payload ++ gap.val
  | (w, gap) :: next :: words =>
    w.payload ++ (if ∀ ch ∈ gap.val, asciiSpace ch = true then [] else gap.val) ++
      wordsMeaning (next :: words)

theorem renderWords_cons (w : EncodedWord) (gap : Plain) (words : List (EncodedWord × Plain)) :
    renderWords ((w, gap) :: words) = w.render ++ (gap.val ++ renderWords words) := by
  rw [renderWords, List.flatMap_cons, List.append_assoc]
  rfl

theorem head?_renderWords (words : List (EncodedWord × Plain)) :
    (renderWords words).head? ≠ some 0x3F := by
  cases words with
  | nil => exact nofun
  | cons next words =>
    obtain ⟨w, gap⟩ := next
    rw [renderWords_cons, EncodedWord.render, List.cons_append]
    intro h
    cases h

theorem decodeWordAt_renderWords (w : EncodedWord) (gap : Plain) (words : List (EncodedWord × Plain)) :
    decodeWordAt P (renderWords ((w, gap) :: words)) = some (w.payload, gap.val ++ renderWords words) := by
  rw [renderWords_cons, w.decodeWordAt_render]

/-- A word, when it is followed by text. -/
theorem decodeWords_word_text (w : EncodedWord) {gap : Plain} {rest : Bytes}
    (hgap : ¬ ∀ ch ∈ gap.val, asciiSpace ch = true) (hrest : rest.head? ≠ some 0x3F) :
    decodeWords P (w.render ++ (gap.val ++ rest)) = w.payload ++ (gap.val ++ decodeWords P rest) := by
  have hdrop : gap.val.dropWhile asciiSpace ≠ [] := by
    intro hnil
    exact hgap (List.dropWhile_eq_nil_iff.mp hnil)
  have htext : NoEncodedWord (gap.val.dropWhile asciiSpace) := by
    apply noEncodedWord_of_append (gap.val.takeWhile asciiSpace)
    rw [List.takeWhile_append_dropWhile]
    exact gap.property
  have hnone : decodeWordAt P ((gap.val ++ rest).dropWhile asciiSpace) = none := by
    rw [List.dropWhile_append, if_neg (by simpa using hdrop)]
    exact decodeWordAt_plain htext hdrop hrest
  rw [decodeWords_of_some (w.decodeWordAt_render _), hnone, if_neg (by exact nofun),
    decodeWords_plain gap.property hrest]

theorem decodeWords_renderWords (words : List (EncodedWord × Plain)) :
    decodeWords P (renderWords words) = wordsMeaning words := by
  induction words using wordsMeaning.induct with
  | case1 => rfl
  | case2 w gap =>
    rw [renderWords_cons, wordsMeaning]
    by_cases hspace : ∀ ch ∈ gap.val, asciiSpace ch = true
    · have hdrop : (gap.val ++ renderWords []).dropWhile asciiSpace = [] := by
        rw [renderWords, List.flatMap_nil, List.append_nil]
        exact List.dropWhile_eq_nil_iff.mpr hspace
      rw [decodeWords_of_some (w.decodeWordAt_render _), hdrop, if_neg (by exact nofun),
        decodeWords_plain gap.property (head?_renderWords [])]
      exact congrArg (w.payload ++ ·) (List.append_nil _)
    · rw [decodeWords_word_text w hspace (head?_renderWords [])]
      exact congrArg (w.payload ++ ·) (List.append_nil _)
  | case3 w gap next words ih =>
    obtain ⟨w', gap'⟩ := next
    rw [renderWords_cons, wordsMeaning]
    by_cases hspace : ∀ ch ∈ gap.val, asciiSpace ch = true
    · have hdrop : (gap.val ++ renderWords ((w', gap') :: words)).dropWhile asciiSpace =
          renderWords ((w', gap') :: words) := by
        rw [List.dropWhile_append_of_pos hspace, renderWords_cons, EncodedWord.render,
          List.cons_append]
        exact List.dropWhile_cons_of_neg (by decide)
      rw [decodeWords_of_some (w.decodeWordAt_render _), hdrop, decodeWordAt_renderWords,
        if_pos Option.isSome_some, if_pos hspace, List.append_nil, ih]
    · rw [decodeWords_word_text w hspace (head?_renderWords _), if_neg hspace, List.append_assoc, ih]

/-- `decode_rfc2047_words` reads a header as it was meant. Each round of its loop takes a byte at
    least, so that it comes to its end within as many rounds as there are bytes; text without `=?` is
    left as it is. -/
theorem decodeWords_meaning (P : MimePlatform) :
    (∀ (first : Plain) (words : List (EncodedWord × Plain)),
        decodeWords P (first.val ++ renderWords words) = first.val ++ wordsMeaning words) ∧
      (∀ text word after, decodeWordAt P text = some (word, after) → after.length < text.length) ∧
      (∀ (value : Bytes) (fuel : Nat), value.length ≤ fuel →
        decodeWordsFrom P fuel value = decodeWords P value) ∧
      ∀ plain : Plain, decodeWords P plain.val = plain.val := by
  refine ⟨?_, fun _ _ _ => length_of_decodeWordAt, fun _ _ => decodeWordsFrom_fuel, ?_⟩
  · intro first words
    rw [decodeWords_plain first.property (head?_renderWords words), decodeWords_renderWords]
  · intro plain
    exact decodeWords_eq_self P plain.property

/-- `é` in two words, one byte in each: `=?utf-8?Q?=C3?=` and `=?UTF-8?b?qQ==?=`. -/
def splitLetter : List (EncodedWord × Plain) :=
  [(⟨ascii "utf-8", 0x51, [0x3D, 0x43, 0x33], [0xC3], by decide,
      .q (.inl rfl) (.escape (by decide) (by decide) .nil)⟩, ⟨[0x0A, 0x20], by decide⟩),
    (⟨ascii "UTF-8", 0x62, encodeBase64 true [0xA9], [0xA9], by decide, .b (.inr rfl) true⟩,
      ⟨[0x21], by decide⟩)]

theorem wordsMeaning_splitLetter : wordsMeaning splitLetter = [0xC3, 0xA9, 0x21] := by
  rw [splitLetter, wordsMeaning, if_pos (by simp [asciiSpace]), wordsMeaning]
  rfl

theorem decodeWords_meaning_splitLetter :
    decodeWords MimeTree.plainPlatform ([0x61, 0x3D] ++ renderWords splitLetter) =
        [0x61, 0x3D] ++ [0xC3, 0xA9, 0x21] ∧
      decodeWordsFrom MimeTree.plainPlatform 3 [0x61] = decodeWords MimeTree.plainPlatform [0x61] := by
  have h := decodeWords_meaning MimeTree.plainPlatform
  constructor
  · rw [h.1 ⟨[0x61, 0x3D], by decide⟩ splitLetter, wordsMeaning_splitLetter]
  · exact h.2.2.1 [0x61] 3 (by decide)

end Mime
end RapidInbox
