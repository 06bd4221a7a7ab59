import RapidInbox.Domain.Address

/-!
# Live cursors

A cursor of the live stream is the text `generation:seq` (`app/smtp/live_state.py:87-88`), and
`_parse_live_cursor` (`app/http/live.py:51-61`) reads it back with `rsplit` and `int`.
-/

namespace RapidInbox

/-- The zeros of the decimal digits of Unicode 15.0, which `int` reads. -/
def decimalZeros : List Nat :=
  [0x30, 0x660, 0x6F0, 0x7C0, 0x966, 0x9E6, 0xA66, 0xAE6, 0xB66, 0xBE6, 0xC66, 0xCE6, 0xD66, 0xDE6,
    0xE50, 0xED0, 0xF20, 0x1040, 0x1090, 0x17E0, 0x1810, 0x1946, 0x19D0, 0x1A80, 0x1A90, 0x1B50,
    0x1BB0, 0x1C40, 0x1C50, 0xA620, 0xA8D0, 0xA900, 0xA9D0, 0xA9F0, 0xAA50, 0xABF0, 0xFF10, 0x104A0,
    0x10D30, 0x11066, 0x110F0, 0x11136, 0x111D0, 0x112F0, 0x11450, 0x114D0, 0x11650, 0x116C0,
    0x11730, 0x118E0, 0x11950, 0x11C50, 0x11D50, 0x11DA0, 0x11F50, 0x16A60, 0x16AC0, 0x16B50,
    0x1D7CE, 0x1D7D8, 0x1D7E2, 0x1D7EC, 0x1D7F6, 0x1E140, 0x1E2F0, 0x1E4F0, 0x1E950, 0x1FBF0]

/-- The value of a decimal digit. -/
def decimalDigit? (c : Char) : Option Nat :=
  (decimalZeros.find? fun z => z ≤ c.toNat && c.toNat < z + 10).map (c.toNat - ·)

/-- The digits after the first; an underscore stands between two digits. -/
def digitsAfter (n : Nat) : Text → Option Nat
  | [] => some n
  | '_' :: c :: cs => (decimalDigit? c).bind fun d => digitsAfter (10 * n + d) cs
  | c :: cs => (decimalDigit? c).bind fun d => digitsAfter (10 * n + d) cs

/-- A number without a sign. -/
def unsignedInt? : Text → Option Nat
  | [] => none
  | c :: cs => (decimalDigit? c).bind fun d => digitsAfter d cs

/-- `int(text)`, but for the limit on the number of digits. -/
def pyInt? (t : Text) : Option Int :=
  match stripUnicodeWhitespace t with
  | '-' :: cs => (unsignedInt? cs).map fun n : Nat => -(n : Int)
  | '+' :: cs => (unsignedInt? cs).map fun n : Nat => (n : Int)
  | cs => (unsignedInt? cs).map fun n : Nat => (n : Int)

/-- `str` of an integer. -/
def intText : Int → Text
  | .ofNat n => Nat.toDigits 10 n
  | .negSucc n => '-' :: Nat.toDigits 10 (n + 1)

/-- `_format_cursor`, for the generation given. -/
def formatCursor (generation : Text) (seq : Int) : Text := generation ++ ':' :: intText seq

/-- `cursor.rsplit(":", 1)`; one part alone is no pair. -/
def rsplitColon? (t : Text) : Option (Text × Text) :=
  match t.reverse.dropWhile (· != ':') with
  | [] => none
  | _ :: generation => some (generation.reverse, (t.reverse.takeWhile (· != ':')).reverse)

/-- `_parse_live_cursor` of a cursor that was given. -/
def parseLiveCursor (cursor : Text) : Option (Text × Int) :=
  (rsplitColon? cursor).bind fun (generation, seqText) =>
    if generation.isEmpty then none else (pyInt? seqText).map fun seq => (generation, seq)

/-! ## Reading back what was written -/

theorem decimalDigit?_digitChar {n : Nat} (h : n < 10) : decimalDigit? n.digitChar = some n := by
  have hall : ∀ m : Fin 10, decimalDigit? m.val.digitChar = some m.val := by decide +kernel
  exact hall ⟨n, h⟩

theorem ne_of_isDigit {c d : Char} (hc : c.isDigit = true) (hd : d.isDigit = false) : c ≠ d := by
  rintro rfl
  rw [hc] at hd
  cases hd

theorem exists_digitChar {c : Char} (hc : c.isDigit = true) : ∃ n < 10, c = n.digitChar := by
  have hrange : 48 ≤ c.toNat ∧ c.toNat ≤ 57 := by
    simpa [Char.isDigit, UInt32.le_iff_toNat_le] using hc
  refine ⟨c.toNat - 48, by omega, ?_⟩
  apply Char.toNat_inj.mp
  rw [Nat.toNat_digitChar_of_lt_ten (by omega)]
  omega

theorem digitsAfter_digits {cs : Text} (hcs : ∀ c ∈ cs, c.isDigit = true) (n : Nat) :
    digitsAfter n cs = some (Nat.ofDigitChars 10 cs n) := by
  induction cs generalizing n with
  | nil => rfl
  | cons c cs ih =>
    obtain ⟨d, hd, rfl⟩ := exists_digitChar (hcs c List.mem_cons_self)
    have hcs' : ∀ c ∈ cs, c.isDigit = true := fun c hc => hcs c (List.mem_cons_of_mem _ hc)
    rw [digitsAfter, decimalDigit?_digitChar hd, Option.bind_some, ih hcs',
      Nat.ofDigitChars_cons_digitChar_of_lt_ten hd]
    intro _ _ heq
    exact absurd heq (ne_of_isDigit (hcs _ List.mem_cons_self) rfl)

theorem unsignedInt?_toDigits (n : Nat) : unsignedInt? (Nat.toDigits 10 n) = some n := by
  have hdigits : ∀ c ∈ Nat.toDigits 10 n, c.isDigit = true := fun c hc =>
    Nat.isDigit_of_mem_toDigits (by decide) (by decide) hc
  have hvalue : Nat.ofDigitChars 10 (Nat.toDigits 10 n) 0 = n := Nat.ofDigitChars_ten_toDigits
  cases h : Nat.toDigits 10 n with
  | nil => exact absurd h Nat.toDigits_ne_nil
  | cons c cs =>
    rw [h] at hdigits hvalue
    obtain ⟨d, hd, rfl⟩ := exists_digitChar (hdigits c List.mem_cons_self)
    rw [Nat.ofDigitChars_cons_digitChar_of_lt_ten hd] at hvalue
    rw [unsignedInt?, decimalDigit?_digitChar hd, Option.bind_some,
      digitsAfter_digits fun c hc => hdigits c (List.mem_cons_of_mem _ hc), ← hvalue]
    simp

/-- A character of a written number. -/
theorem intText_char {n : Int} {c : Char} (hc : c ∈ intText n) : c = '-' ∨ c.isDigit = true := by
  have hdigits {m : Nat} (h : c ∈ Nat.toDigits 10 m) : c.isDigit = true :=
    Nat.isDigit_of_mem_toDigits (by decide) (by decide) h
  cases n with
  | ofNat m => exact .inr (hdigits hc)
  | negSucc m =>
    rcases List.mem_cons.mp hc with rfl | hc
    · exact .inl rfl
    · exact .inr (hdigits hc)

theorem isDigit_not_whitespace {c : Char} (hc : c.isDigit = true) : isPythonWhitespace c = false := by
  have hall : ∀ m : Fin 10, isPythonWhitespace m.val.digitChar = false := by decide +kernel
  obtain ⟨n, hn, rfl⟩ := exists_digitChar hc
  exact hall ⟨n, hn⟩

theorem pyInt?_intText (n : Int) : pyInt? (intText n) = some n := by
  have hstrip : stripUnicodeWhitespace (intText n) = intText n := by
    apply stripUnicodeWhitespace_eq_self
    intro c hc
    rcases intText_char hc with rfl | hc
    · decide
    · exact isDigit_not_whitespace hc
  rw [pyInt?, hstrip]
  cases n with
  | ofNat m =>
    have hdigits : ∀ c ∈ intText (.ofNat m), c.isDigit = true := fun c hc =>
      Nat.isDigit_of_mem_toDigits (by decide) (by decide) hc
    have hdigit : '-' ∉ intText (.ofNat m) ∧ '+' ∉ intText (.ofNat m) :=
      ⟨fun hc => absurd (hdigits _ hc) (by decide), fun hc => absurd (hdigits _ hc) (by decide)⟩
    split
    · rename_i h
      rw [h] at hdigit
      exact absurd List.mem_cons_self hdigit.1
    · rename_i h
      rw [h] at hdigit
      exact absurd List.mem_cons_self hdigit.2
    · rw [intText, unsignedInt?_toDigits]
      rfl
  | negSucc m =>
    change (unsignedInt? (Nat.toDigits 10 (m + 1))).map _ = _
    rw [unsignedInt?_toDigits]
    rfl

theorem rsplitColon?_append {generation seqText : Text} (h : ':' ∉ seqText) :
    rsplitColon? (generation ++ ':' :: seqText) = some (generation, seqText) := by
  have hall : ∀ c ∈ seqText.reverse, (c != ':') = true := by
    intro c hc
    rw [bne_iff_ne]
    rintro rfl
    exact h (List.mem_reverse.mp hc)
  have hrev : (generation ++ ':' :: seqText).reverse = seqText.reverse ++ ':' :: generation.reverse := by
    simp
  rw [rsplitColon?, hrev, List.dropWhile_append_of_pos hall, List.takeWhile_append_of_pos hall]
  simp

theorem parseLiveCursor_formatCursor {generation : Text} (h : generation ≠ []) (seq : Int) :
    parseLiveCursor (formatCursor generation seq) = some (generation, seq) := by
  have hcolon : ':' ∉ intText seq := by
    intro hc
    rcases intText_char hc with hc | hc
    · exact absurd hc (by decide)
    · exact absurd hc (by decide)
  rw [parseLiveCursor, formatCursor, rsplitColon?_append hcolon, Option.bind_some]
  dsimp only
  rw [if_neg (by simpa using h), pyInt?_intText]
  rfl

end RapidInbox
