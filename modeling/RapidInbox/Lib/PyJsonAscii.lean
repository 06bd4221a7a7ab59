import Mathlib.Data.List.Sort
import RapidInbox.Lib.PyJsonReader

/-!
# JSON in ASCII

`json.dumps` with `ensure_ascii`: a character outside the basic plane is written as two surrogates, and
`loads` reads a high and a low surrogate side by side as one character.  Where no string has such a pair,
what was written is read back.
-/

namespace PyStr

open CodePoint

/-- No high surrogate stands right before a low one. -/
def PairFree (s : PyStr) : Prop := s.IsChain fun c d => ¬ (isHigh c.val = true ∧ isLow d.val = true)

theorem isHigh_ofChar (c : Char) : isHigh (ofChar c).val = false := by
  have hplain := isSurrogate_ofChar c
  simp only [isSurrogate, isHigh, Bool.and_eq_false_iff, decide_eq_false_iff_not] at hplain ⊢
  omega

/-- A text without surrogates has no pair. -/
theorem pairFree_ofChars (t : List Char) : PairFree (ofChars t) := by
  induction t with
  | nil => exact List.IsChain.nil
  | cons c t ih =>
    cases t with
    | nil => exact List.IsChain.singleton _
    | cons d t =>
      refine List.isChain_cons_cons.mpr ⟨fun hpair => ?_, ih⟩
      rw [isHigh_ofChar] at hpair
      cases hpair.1

end PyStr

namespace PyJson

open CodePoint PyStr

/-! ## Writing -/

def hex4 (n : Nat) : List Char :=
  [Nat.digitChar (n / 4096 % 16), Nat.digitChar (n / 256 % 16), Nat.digitChar (n / 16 % 16),
    Nat.digitChar (n % 16)]

/-- `\uXXXX` -/
def unitEscape (n : Nat) : List Char := '\\' :: 'u' :: hex4 n

/-- One character of a string literal. -/
def escapeAscii (c : CodePoint) : List Char :=
  if c.val = 0x22 then ['\\', '"']
  else if c.val = 0x5C then ['\\', '\\']
  else if c.val = 0x08 then ['\\', 'b']
  else if c.val = 0x0C then ['\\', 'f']
  else if c.val = 0x0A then ['\\', 'n']
  else if c.val = 0x0D then ['\\', 'r']
  else if c.val = 0x09 then ['\\', 't']
  else if 0x20 ≤ c.val ∧ c.val ≤ 0x7E then [Char.ofNat c.val]
  else if c.val < 0x10000 then unitEscape c.val
  else
    unitEscape (0xD800 + (c.val - 0x10000) / 0x400) ++ unitEscape (0xDC00 + (c.val - 0x10000) % 0x400)

/-- A string literal. -/
def quoteAscii (s : PyStr) : List Char := '"' :: (s.flatMap escapeAscii ++ ['"'])

def intText : Int → List Char
  | .ofNat n => Nat.toDigits 10 n
  | .negSucc n => '-' :: Nat.toDigits 10 (n + 1)

mutual

/-- `json.dumps(value, separators=(",", ":"))` -/
def dumpsAscii : PyJson → List Char
  | .null => "null".toList
  | .bool true => "true".toList
  | .bool false => "false".toList
  | .int n => intText n
  | .float text => text
  | .str s => quoteAscii s
  | .list xs => '[' :: dumpsAsciiElems xs
  | .dict fields => '\x7b' :: dumpsAsciiFields fields

/-- The elements of an array with the closing bracket. -/
def dumpsAsciiElems : List PyJson → List Char
  | [] => [']']
  | [x] => dumpsAscii x ++ [']']
  | x :: y :: xs => dumpsAscii x ++ ',' :: dumpsAsciiElems (y :: xs)

/-- The members of an object with the closing brace. -/
def dumpsAsciiFields : List (PyStr × PyJson) → List Char
  | [] => ['\x7d']
  | [(key, x)] => quoteAscii key ++ ':' :: (dumpsAscii x ++ ['\x7d'])
  | (key, x) :: field :: fields =>
    quoteAscii key ++ ':' :: (dumpsAscii x ++ ',' :: dumpsAsciiFields (field :: fields))

end

/-- The order of keys, by code points. -/
def keyLe : PyStr → PyStr → Bool
  | [], _ => true
  | _ :: _, [] => false
  | c :: s, d :: t => c < d || (c = d && keyLe s t)

mutual

/-- `sort_keys=True` -/
def sortKeys : PyJson → PyJson
  | .list xs => .list (sortKeysElems xs)
  | .dict fields => .dict ((sortKeysFields fields).insertionSort fun a b => keyLe a.1 b.1)
  | value => value

def sortKeysElems : List PyJson → List PyJson
  | [] => []
  | x :: xs => sortKeys x :: sortKeysElems xs

def sortKeysFields : List (PyStr × PyJson) → List (PyStr × PyJson)
  | [] => []
  | (key, x) :: fields => (key, sortKeys x) :: sortKeysFields fields

end

/-! ## Strings are read back -/

theorem hexValue?_digitChar {d : Nat} (h : d < 16) : hexValue? d.digitChar = some d := by
  have hall : ∀ d : Fin 16, hexValue? d.val.digitChar = some d.val := by decide
  exact hall ⟨d, h⟩

theorem readUnit?_hex4 {n : Nat} (h : n < 0x10000) (rest : List Char) :
    readUnit? (hex4 n ++ rest) = some (n, rest) := by
  have hmod (m : Nat) : m % 16 < 16 := Nat.mod_lt m (by omega)
  simp only [hex4, List.cons_append, List.nil_append, readUnit?, hexValue?_digitChar (hmod _),
    Option.bind_eq_bind, Option.bind_some, Option.some.injEq, Prod.mk.injEq, and_true]
  omega

/-- What a high surrogate is not joined with. -/
theorem readLow?_unitEscape {n : Nat} (h : n < 0x10000) (rest : List Char) :
    readLow? (unitEscape n ++ rest) = if isLow n then some (n, rest) else none := by
  have hunit := readUnit?_hex4 h rest
  rw [unitEscape, List.cons_append, List.cons_append, readLow?, hunit, Option.filter_some]

theorem ofNat_val (c : CodePoint) : ofNat c.val = c := Fin.ext (Nat.mod_eq_of_lt c.isLt)

/-- A unit that is no high surrogate before a low one stands for itself. -/
theorem readChar?_unitEscape {n : Nat} (h : n < 0x10000) {rest : List Char}
    (hrest : isHigh n = true → readLow? rest = none) :
    readChar? (unitEscape n ++ rest) = some (ofNat n, rest) := by
  have hunit := readUnit?_hex4 h rest
  have hlow : (if isHigh n then readLow? rest else none) = none := by
    split
    · exact hrest ‹_›
    · rfl
  simp only [unitEscape, List.cons_append, readChar?, if_true, readEscape?, readUnicode?, hunit,
    Option.map_some, hlow]

/-- A high and a low surrogate are read as one character. -/
theorem readChar?_pair {high low : Nat} (hhigh : isHigh high = true) (hlow : isLow low = true)
    (rest : List Char) :
    readChar? (unitEscape high ++ (unitEscape low ++ rest)) = some (ofNat (join high low), rest) := by
  have hbound : high < 0x10000 ∧ low < 0x10000 := by
    simp only [isHigh, isLow, Bool.and_eq_true, decide_eq_true_eq] at hhigh hlow
    omega
  have hunit := readUnit?_hex4 hbound.1 (unitEscape low ++ rest)
  have hsecond := readLow?_unitEscape hbound.2 rest
  rw [if_pos hlow] at hsecond
  simp only [unitEscape, List.cons_append, readChar?, if_true, readEscape?, readUnicode?]
  simp only [unitEscape, List.cons_append] at hunit hsecond
  simp only [hunit, Option.map_some, hhigh, if_true, hsecond]

/-- How a character may be written, and what the reader makes of it. -/
inductive Escaped (c : CodePoint) : List Char → Prop
  | short (e : Char) (hu : e ≠ 'u') (h : ∀ rest, readEscape? (e :: rest) = some (c, rest)) :
      Escaped c ['\\', e]
  | plain (r : Char) (hquote : r ≠ '"') (hslash : r ≠ '\\') (hcontrol : ¬ r.toNat < 0x20)
      (hr : ofChar r = c) : Escaped c [r]
  | unit (h : c.val < 0x10000) : Escaped c (unitEscape c.val)
  | pair (high low : Nat) (hhigh : isHigh high = true) (hlow : isLow low = true)
      (hc : ofNat (join high low) = c) : Escaped c (unitEscape high ++ unitEscape low)

theorem join_split (d : Nat) : join (0xD800 + d / 0x400) (0xDC00 + d % 0x400) = 0x10000 + d := by
  have hsplit (high low base : Nat) :
      base + (high + d / 0x400 - high) * 0x400 + (low + d % 0x400 - low) = base + d := by
    rw [Nat.add_sub_cancel_left, Nat.add_sub_cancel_left, Nat.add_assoc, Nat.mul_comm,
      Nat.div_add_mod]
  exact hsplit _ _ _

theorem escaped_escapeAscii (c : CodePoint) : Escaped c (escapeAscii c) := by
  have hshort {e : Char} {n : Nat} (hu : e ≠ 'u') (hn : c.val = n)
      (h : ∀ rest, readEscape? (e :: rest) = some (ofNat n, rest)) : Escaped c ['\\', e] :=
    .short e hu fun rest => by rw [h rest, ← hn, ofNat_val]
  unfold escapeAscii
  split
  · exact hshort (n := 0x22) (by decide) ‹_› fun _ => rfl
  split
  · exact hshort (n := 0x5C) (by decide) ‹_› fun _ => rfl
  split
  · exact hshort (n := 0x08) (by decide) ‹_› fun _ => rfl
  split
  · exact hshort (n := 0x0C) (by decide) ‹_› fun _ => rfl
  split
  · exact hshort (n := 0x0A) (by decide) ‹_› fun _ => rfl
  split
  · exact hshort (n := 0x0D) (by decide) ‹_› fun _ => rfl
  split
  · exact hshort (n := 0x09) (by decide) ‹_› fun _ => rfl
  split
  · rename_i hquote hslash _ _ _ _ _ hrange
    have hvalid : c.val.isValidChar := .inl (by omega)
    have hnat : (Char.ofNat c.val).toNat = c.val := by
      rw [Char.ofNat, dif_pos hvalid]
      rfl
    refine .plain _ (fun heq => hquote ?_) (fun heq => hslash ?_) (by omega) (Fin.ext hnat)
    · rw [← hnat, heq]
      rfl
    · rw [← hnat, heq]
      rfl
  split
  · exact .unit ‹_›
  · rename_i hbig
    have hlt := c.isLt
    refine .pair _ _ ?_ ?_ ?_
    · simp only [isHigh, Bool.and_eq_true, decide_eq_true_eq]
      omega
    · simp only [isLow, Bool.and_eq_true, decide_eq_true_eq]
      omega
    · rw [join_split, Nat.add_comm, Nat.sub_add_cancel (Nat.le_of_not_lt hbig), ofNat_val]

/-- No escape but that of a low surrogate can be the second half of a pair. -/
theorem readLow?_escapeAscii {c : CodePoint} (h : isLow c.val = false) (rest : List Char) :
    readLow? (escapeAscii c ++ rest) = none := by
  have hescaped := escaped_escapeAscii c
  generalize escapeAscii c = text at hescaped
  cases hescaped with
  | short e hu _ => simp [readLow?, hu]
  | plain r _ hslash _ _ => simp [readLow?, hslash]
  | unit hlt => rw [readLow?_unitEscape hlt, h]; rfl
  | pair high low hhigh _ _ =>
    have hbound : high < 0x10000 ∧ isLow high = false := by
      simp only [isHigh, isLow, Bool.and_eq_true, Bool.and_eq_false_iff, decide_eq_true_eq,
        decide_eq_false_iff_not] at hhigh ⊢
      omega
    rw [List.append_assoc, readLow?_unitEscape hbound.1, hbound.2]
    rfl

/-- An escape is read back where it does not begin a pair. -/
theorem readChar?_escapeAscii (c : CodePoint) {rest : List Char}
    (hrest : isHigh c.val = true → readLow? rest = none) :
    readChar? (escapeAscii c ++ rest) = some (c, rest) := by
  have hescaped := escaped_escapeAscii c
  generalize escapeAscii c = text at hescaped
  cases hescaped with
  | short e _ h => exact h rest
  | plain r _ hslash hcontrol hr =>
    rw [List.singleton_append, readChar?, if_neg hslash, if_neg hcontrol, hr]
  | unit hlt => rw [readChar?_unitEscape hlt hrest, ofNat_val]
  | pair high low hhigh hlow hc => rw [List.append_assoc, readChar?_pair hhigh hlow, hc]

/-- No escape begins with a quote. -/
theorem head_escapeAscii (c : CodePoint) (rest : List Char) :
    (escapeAscii c ++ rest).head? ≠ some '"' := by
  have hescaped := escaped_escapeAscii c
  generalize escapeAscii c = text at hescaped
  cases hescaped with
  | short e _ _ => simp
  | plain r hquote _ _ _ => simpa using hquote
  | unit _ => simp [unitEscape]
  | pair high low _ _ _ => simp [unitEscape]

theorem one_le_length_escapeAscii (c : CodePoint) : 1 ≤ (escapeAscii c).length := by
  have hescaped := escaped_escapeAscii c
  generalize escapeAscii c = text at hescaped
  cases hescaped with
  | short e _ _ => simp
  | plain r _ _ _ _ => simp
  | unit _ => simp [unitEscape]
  | pair high low _ _ _ => simp [unitEscape]

theorem scanString_escapeAscii {s : PyStr} (hs : s.PairFree) (rest : List Char) :
    ∀ fuel, s.length < fuel →
      scanString fuel (s.flatMap escapeAscii ++ '"' :: rest) = some (s, rest) := by
  induction s with
  | nil =>
    intro fuel hfuel
    obtain ⟨fuel, rfl⟩ := Nat.exists_eq_add_of_lt hfuel
    simp [scanString]
  | cons c s ih =>
    intro fuel hfuel
    obtain ⟨fuel, rfl⟩ : ∃ n, fuel = n + 1 := ⟨fuel - 1, by simp at hfuel; omega⟩
    have hrest : isHigh c.val = true → readLow? (s.flatMap escapeAscii ++ '"' :: rest) = none := by
      intro hhigh
      cases s with
      | nil => rfl
      | cons d s =>
        have hlow : isLow d.val = false := by
          rw [PyStr.PairFree, List.isChain_cons_cons] at hs
          exact Bool.eq_false_iff.mpr fun hlow => hs.1 ⟨hhigh, hlow⟩
        rw [List.flatMap_cons, List.append_assoc]
        exact readLow?_escapeAscii hlow _
    have htail : PyStr.PairFree s := List.IsChain.of_cons hs
    rw [List.flatMap_cons, List.append_assoc, scanString, if_neg (head_escapeAscii c _),
      readChar?_escapeAscii c hrest]
    simp only [Option.bind_eq_bind, Option.bind_some]
    rw [ih htail fuel (by simp at hfuel; omega), Option.bind_some]

theorem length_le_flatMap_escapeAscii (s : PyStr) : s.length ≤ (s.flatMap escapeAscii).length := by
  induction s with
  | nil => exact Nat.le_refl 0
  | cons c s ih =>
    have hc := one_le_length_escapeAscii c
    rw [List.flatMap_cons, List.length_append, List.length_cons]
    omega

/-- A string literal behind its opening quote. -/
theorem scanString_quoteAscii {s : PyStr} (hs : s.PairFree) (rest : List Char) :
    scanString ((s.flatMap escapeAscii ++ '"' :: rest).length + 1)
      (s.flatMap escapeAscii ++ '"' :: rest) = some (s, rest) := by
  refine scanString_escapeAscii hs rest _ ?_
  have hlength := length_le_flatMap_escapeAscii s
  rw [List.length_append]
  omega

/-! ## Numbers are read back -/

/-- What may follow a number. -/
def EndsNumber (rest : List Char) : Prop :=
  ∀ c ∈ rest.head?, c.isDigit = false ∧ c ≠ '.' ∧ c ≠ 'e' ∧ c ≠ 'E'

theorem takeWhile_digits {cs rest : List Char} (hcs : ∀ c ∈ cs, c.isDigit = true)
    (hrest : EndsNumber rest) :
    (cs ++ rest).takeWhile Char.isDigit = cs ∧ (cs ++ rest).dropWhile Char.isDigit = rest := by
  have hstop : rest.takeWhile Char.isDigit = [] ∧ rest.dropWhile Char.isDigit = rest := by
    cases rest with
    | nil => exact ⟨rfl, rfl⟩
    | cons c rest =>
      have hc := (hrest c rfl).1
      simp [hc]
  rw [List.takeWhile_append_of_pos hcs, List.dropWhile_append_of_pos hcs, hstop.1, hstop.2,
    List.append_nil]
  exact ⟨rfl, rfl⟩

theorem isDigit_toDigits {n : Nat} {c : Char} (hc : c ∈ Nat.toDigits 10 n) : c.isDigit = true :=
  Nat.isDigit_of_mem_toDigits (by decide) (by decide) hc

/-- A number other than zero does not begin with one. -/
theorem head_toDigits {n : Nat} (hn : n ≠ 0) : (Nat.toDigits 10 n).head? ≠ some '0' := by
  induction n using Nat.strongRecOn with
  | ind n ih =>
    by_cases hlt : n < 10
    · have hall : ∀ m : Fin 10, m.val ≠ 0 → (Nat.toDigits 10 m.val).head? ≠ some '0' := by decide
      exact hall ⟨n, hlt⟩ hn
    · have hdiv : n / 10 ≠ 0 := by omega
      have hsplit := Nat.toDigits_of_base_le (b := 10) (n := n) (by decide) (by omega)
      rw [hsplit, List.head?_append]
      cases hhead : (Nat.toDigits 10 (n / 10)).head? with
      | none => exact absurd (List.head?_eq_none_iff.mp hhead) Nat.toDigits_ne_nil
      | some c =>
        have := ih (n / 10) (by omega) hdiv
        rw [hhead] at this
        simpa using this

theorem readInteger?_toDigits (n : Nat) {rest : List Char} (hrest : EndsNumber rest) :
    readInteger? (Nat.toDigits 10 n ++ rest) = some (Nat.toDigits 10 n, rest) := by
  by_cases hn : n = 0
  · subst hn
    rfl
  · have hhead := head_toDigits hn
    have hdigits : ∀ c ∈ Nat.toDigits 10 n, c.isDigit = true := fun c hc => isDigit_toDigits hc
    cases htext : Nat.toDigits 10 n with
    | nil => exact absurd htext Nat.toDigits_ne_nil
    | cons c cs =>
      rw [htext] at hhead hdigits
      have hc : c ≠ '0' := fun heq => hhead (congrArg some heq)
      obtain ⟨htake, hdrop⟩ := takeWhile_digits
        (fun d hd => hdigits d (List.mem_cons_of_mem _ hd)) hrest
      rw [List.cons_append, readInteger?, if_neg hc, if_pos (hdigits c List.mem_cons_self), htake,
        hdrop]

theorem readFraction_end {rest : List Char} (hrest : EndsNumber rest) :
    readFraction rest = ([], rest) := by
  cases rest with
  | nil => rfl
  | cons c rest =>
    have hc := (hrest c rfl).2.1
    rw [readFraction]
    exact fun _ heq => hc (List.cons.inj heq).1

theorem readExponent_end {rest : List Char} (hrest : EndsNumber rest) :
    readExponent rest = ([], rest) := by
  cases rest with
  | nil => rfl
  | cons c rest =>
    have hc := (hrest c rfl).2.2
    rw [readExponent]
    simp [hc.1, hc.2]

theorem readUnsigned?_toDigits (negative : Bool) (n : Nat) {rest : List Char}
    (hrest : EndsNumber rest) :
    readUnsigned? negative (Nat.toDigits 10 n ++ rest) =
      some (.int (if negative then -(n : Int) else n), rest) := by
  have hvalue : Nat.ofDigitChars 10 (Nat.toDigits 10 n) 0 = n := Nat.ofDigitChars_ten_toDigits
  rw [readUnsigned?, readInteger?_toDigits n hrest]
  simp only [Option.map_some, readFraction_end hrest, readExponent_end hrest, and_self, if_true, hvalue]

/-- A written integer begins with a digit, or with a sign and a digit. -/
theorem intText_head (n : Int) :
    ∃ c cs, c.isDigit = true ∧ (intText n = c :: cs ∨ intText n = '-' :: c :: cs) := by
  have hhead (m : Nat) : ∃ c cs, c.isDigit = true ∧ Nat.toDigits 10 m = c :: cs := by
    cases htext : Nat.toDigits 10 m with
    | nil => exact absurd htext Nat.toDigits_ne_nil
    | cons c cs => exact ⟨c, cs, isDigit_toDigits (htext ▸ List.mem_cons_self), rfl⟩
  cases n with
  | ofNat m =>
    obtain ⟨c, cs, hc, htext⟩ := hhead m
    exact ⟨c, cs, hc, .inl htext⟩
  | negSucc m =>
    obtain ⟨c, cs, hc, htext⟩ := hhead (m + 1)
    exact ⟨c, cs, hc, .inr (congrArg _ htext)⟩

theorem readNumber?_intText (n : Int) {rest : List Char} (hrest : EndsNumber rest) :
    readNumber? (intText n ++ rest) = some (.int n, rest) := by
  cases n with
  | ofNat m =>
    have hplain : readNumber? (Nat.toDigits 10 m ++ rest) =
        readUnsigned? false (Nat.toDigits 10 m ++ rest) := by
      cases htext : Nat.toDigits 10 m with
      | nil => exact absurd htext Nat.toDigits_ne_nil
      | cons c cs =>
        have hc : c.isDigit = true := isDigit_toDigits (htext ▸ List.mem_cons_self)
        rw [List.cons_append, readNumber?]
        rintro _ heq
        rw [(List.cons.inj heq).1] at hc
        exact absurd hc (by decide)
    rw [intText, hplain, readUnsigned?_toDigits false m hrest]
    rfl
  | negSucc m =>
    rw [intText, List.cons_append, readNumber?, readUnsigned?_toDigits true (m + 1) hrest]
    rfl

theorem readAtom?_intText (n : Int) {rest : List Char} (hrest : EndsNumber rest) :
    readAtom? (intText n ++ rest) = some (.int n, rest) := by
  have hnone : (constants.find? fun constant => constant.1.isPrefixOf (intText n ++ rest)) = none := by
    obtain ⟨c, cs, hc, htext | htext⟩ := intText_head n
    · have hne : c ≠ 'n' ∧ c ≠ 't' ∧ c ≠ 'f' ∧ c ≠ 'N' ∧ c ≠ 'I' ∧ c ≠ '-' := by
        refine ⟨?_, ?_, ?_, ?_, ?_, ?_⟩ <;> (rintro rfl; exact absurd hc (by decide))
      rw [htext]
      simp [constants, hne.1.symm, hne.2.1.symm, hne.2.2.1.symm, hne.2.2.2.1.symm,
        hne.2.2.2.2.1.symm, hne.2.2.2.2.2.symm]
    · have hne : c ≠ 'I' := by
        rintro rfl
        exact absurd hc (by decide)
      rw [htext]
      simp [constants, hne.symm]
  rw [readAtom?, hnone]
  exact readNumber?_intText n hrest

/-! ## Values are read back -/

mutual

/-- Values that are written so that they can be read back: the keys of an object differ, no string has a
    pair of surrogates, and there are no floats. -/
def Writable : PyJson → Prop
  | .float _ => False
  | .str s => s.PairFree
  | .list xs => WritableElems xs
  | .dict fields => (fields.map Prod.fst).Nodup ∧ WritableFields fields
  | _ => True

def WritableElems : List PyJson → Prop
  | [] => True
  | x :: xs => x.Writable ∧ WritableElems xs

def WritableFields : List (PyStr × PyJson) → Prop
  | [] => True
  | (key, x) :: fields => key.PairFree ∧ x.Writable ∧ WritableFields fields

end

theorem skipSpace_cons {c : Char} (hc : isSpace c = false) (cs : List Char) :
    skipSpace (c :: cs) = c :: cs := by
  rw [skipSpace, List.dropWhile_cons, hc]
  rfl

/-- The first character of a value. -/
theorem dumpsAscii_head {v : PyJson} (hv : v.Writable) :
    ∃ c cs, dumpsAscii v = c :: cs ∧ isSpace c = false ∧ c ≠ ']' ∧ c ≠ '\uFEFF' := by
  cases v with
  | null => exact ⟨_, _, rfl, by decide, by decide, by decide⟩
  | bool b =>
    cases b with
    | true => exact ⟨_, _, rfl, by decide, by decide, by decide⟩
    | false => exact ⟨_, _, rfl, by decide, by decide, by decide⟩
  | int n =>
    obtain ⟨c, cs, hc, htext | htext⟩ := intText_head n
    · refine ⟨c, cs, htext, ?_, ?_, ?_⟩
      · by_contra hspace
        rw [Bool.not_eq_false, isSpace] at hspace
        simp only [Bool.or_eq_true, decide_eq_true_eq] at hspace
        rcases hspace with ((rfl | rfl) | rfl) | rfl <;> exact absurd hc (by decide)
      · rintro rfl
        exact absurd hc (by decide)
      · rintro rfl
        exact absurd hc (by decide)
    · exact ⟨_, _, htext, by decide, by decide, by decide⟩
  | float text => exact absurd hv id
  | str s => exact ⟨_, _, rfl, by decide, by decide, by decide⟩
  | list xs => exact ⟨_, _, rfl, by decide, by decide, by decide⟩
  | dict fields => exact ⟨_, _, rfl, by decide, by decide, by decide⟩

theorem skipSpace_dumpsAscii {v : PyJson} (hv : v.Writable) (rest : List Char) :
    skipSpace (dumpsAscii v ++ rest) = dumpsAscii v ++ rest := by
  obtain ⟨c, cs, htext, hspace, -⟩ := dumpsAscii_head hv
  rw [htext, List.cons_append, skipSpace_cons hspace]

theorem dumpsAsciiElems_cons (x : PyJson) (xs : List PyJson) :
    dumpsAsciiElems (x :: xs) =
      dumpsAscii x ++ (match xs with | [] => [']'] | _ :: _ => ',' :: dumpsAsciiElems xs) := by
  cases xs <;> rfl

theorem dumpsAsciiFields_cons (field : PyStr × PyJson) (fields : PyDict) :
    dumpsAsciiFields (field :: fields) =
      quoteAscii field.1 ++ ':' :: (dumpsAscii field.2 ++
        (match fields with | [] => ['\x7d'] | _ :: _ => ',' :: dumpsAsciiFields fields)) := by
  cases fields <;> rfl

theorem set_append {d : PyDict} {key : PyStr} (h : key ∉ d.map Prod.fst) (x : PyJson) :
    d.set key x = d ++ [(key, x)] := by
  induction d with
  | nil => rfl
  | cons field d ih =>
    rw [List.map_cons, List.mem_cons, not_or] at h
    rw [PyDict.set, if_neg (Ne.symm h.1), ih h.2, List.cons_append]

theorem endsNumber_of {c : Char} {cs : List Char} (h : c = ',' ∨ c = ']' ∨ c = '\x7d') :
    EndsNumber (c :: cs) := by
  intro d hd
  obtain rfl : c = d := Option.some.inj hd
  rcases h with rfl | rfl | rfl <;> decide

theorem readValue_null (fuel : Nat) (rest : List Char) :
    readValue (fuel + 1) (dumpsAscii .null ++ rest) = some (.null, rest) := rfl

theorem readValue_bool (b : Bool) (fuel : Nat) (rest : List Char) :
    readValue (fuel + 1) (dumpsAscii (.bool b) ++ rest) = some (.bool b, rest) := by
  cases b <;> rfl

theorem readValue_int (n : Int) (fuel : Nat) {rest : List Char} (hrest : EndsNumber rest) :
    readValue (fuel + 1) (dumpsAscii (.int n) ++ rest) = some (.int n, rest) := by
  have hatom := readAtom?_intText n hrest
  have hne (c : Char) (hc : c.isDigit = true ∨ c = '-') : c ≠ '"' ∧ c ≠ '\x7b' ∧ c ≠ '[' := by
    refine ⟨?_, ?_, ?_⟩ <;> (rintro rfl; exact absurd hc (by decide))
  obtain ⟨c, cs, hc, htext | htext⟩ := intText_head n
  · obtain ⟨hquote, hbrace, hbracket⟩ := hne c (.inl hc)
    rw [htext, List.cons_append] at hatom
    rw [dumpsAscii, htext, List.cons_append, readValue, if_neg hquote, if_neg hbrace,
      if_neg hbracket, hatom]
  · obtain ⟨hquote, hbrace, hbracket⟩ := hne '-' (.inr rfl)
    rw [htext, List.cons_append] at hatom
    rw [dumpsAscii, htext, List.cons_append, readValue, if_neg hquote, if_neg hbrace,
      if_neg hbracket, hatom]

theorem readValue_str {s : PyStr} (hs : s.PairFree) (fuel : Nat) (rest : List Char) :
    readValue (fuel + 1) (dumpsAscii (.str s) ++ rest) = some (.str s, rest) := by
  rw [dumpsAscii, quoteAscii, List.cons_append, List.append_assoc, List.singleton_append, readValue,
    if_pos rfl, scanString_quoteAscii hs]
  rfl

/-- The readers with this fuel read back what was written within it. -/
structure Reads (fuel : Nat) : Prop where
  value : ∀ (v : PyJson), v.Writable → ∀ (rest : List Char), (dumpsAscii v).length ≤ fuel →
    EndsNumber rest → readValue fuel (dumpsAscii v ++ rest) = some (v, rest)
  elems : ∀ (x : PyJson) (xs : List PyJson), WritableElems (x :: xs) → ∀ (rest : List Char),
    (dumpsAsciiElems (x :: xs)).length ≤ fuel →
      readElems fuel (dumpsAsciiElems (x :: xs) ++ rest) = some (x :: xs, rest)
  fields : ∀ (field : PyStr × PyJson) (fields : PyDict), WritableFields (field :: fields) →
    ∀ (d : PyDict), ((d ++ field :: fields).map Prod.fst).Nodup → ∀ (rest : List Char),
      (dumpsAsciiFields (field :: fields)).length ≤ fuel →
      readFields fuel d (dumpsAsciiFields (field :: fields) ++ rest) =
        some (d ++ field :: fields, rest)

theorem Reads.succ_value {fuel : Nat} (h : Reads fuel) (v : PyJson) (hv : v.Writable)
    (rest : List Char) (hfuel : (dumpsAscii v).length ≤ fuel + 1) (hrest : EndsNumber rest) :
    readValue (fuel + 1) (dumpsAscii v ++ rest) = some (v, rest) := by
  cases v with
  | null => exact readValue_null fuel rest
  | bool b => exact readValue_bool b fuel rest
  | int n => exact readValue_int n fuel hrest
  | float text => exact absurd hv id
  | str s => exact readValue_str hv fuel rest
  | list xs =>
    cases xs with
    | nil => rfl
    | cons x xs =>
      obtain ⟨c, cs, htext, -, hbracket, -⟩ := dumpsAscii_head hv.1
      have hskip : skipSpace (dumpsAsciiElems (x :: xs) ++ rest) =
          dumpsAsciiElems (x :: xs) ++ rest := by
        rw [dumpsAsciiElems_cons, List.append_assoc, skipSpace_dumpsAscii hv.1]
      have hhead : (dumpsAsciiElems (x :: xs) ++ rest).head? ≠ some ']' := by
        rw [dumpsAsciiElems_cons, htext]
        simpa using hbracket
      have hread := h.elems x xs hv rest (Nat.le_of_succ_le_succ hfuel)
      rw [dumpsAscii, List.cons_append, readValue, if_neg (by decide), if_neg (by decide),
        if_pos rfl, hskip, if_neg hhead, hread]
      rfl
  | dict fields =>
    cases fields with
    | nil => rfl
    | cons field fields =>
      have hquote : ∃ cs, dumpsAsciiFields (field :: fields) ++ rest = '"' :: cs := by
        rw [dumpsAsciiFields_cons, quoteAscii]
        exact ⟨_, rfl⟩
      obtain ⟨cs, hcs⟩ := hquote
      have hread := h.fields field fields hv.2 [] hv.1 rest (Nat.le_of_succ_le_succ hfuel)
      rw [dumpsAscii, List.cons_append, readValue, if_neg (by decide), if_pos rfl, hcs,
        skipSpace_cons (by decide), if_neg (by simp), ← hcs, hread]
      rfl

theorem Reads.succ_elems {fuel : Nat} (h : Reads fuel) (x : PyJson) (xs : List PyJson)
    (hv : WritableElems (x :: xs)) (rest : List Char)
    (hfuel : (dumpsAsciiElems (x :: xs)).length ≤ fuel + 1) :
    readElems (fuel + 1) (dumpsAsciiElems (x :: xs) ++ rest) = some (x :: xs, rest) := by
  rw [dumpsAsciiElems_cons] at hfuel ⊢
  cases xs with
  | nil =>
    have hx := h.value x hv.1 (']' :: rest) (by simp at hfuel; omega)
      (endsNumber_of (.inr (.inl rfl)))
    simp only [readElems, List.append_assoc, List.singleton_append, hx]
    rfl
  | cons y ys =>
    have hx := h.value x hv.1 (',' :: (dumpsAsciiElems (y :: ys) ++ rest))
      (by simp at hfuel; omega) (endsNumber_of (.inl rfl))
    have hxs := h.elems y ys hv.2 rest (by simp at hfuel; omega)
    have hskip : skipSpace (dumpsAsciiElems (y :: ys) ++ rest) =
        dumpsAsciiElems (y :: ys) ++ rest := by
      rw [dumpsAsciiElems_cons, List.append_assoc, skipSpace_dumpsAscii hv.2.1]
    simp only [readElems, List.append_assoc, List.cons_append, hx, Option.bind_eq_bind,
      Option.bind_some, skipSpace_cons (c := ',') (by decide), hskip, hxs]

theorem Reads.succ_fields {fuel : Nat} (h : Reads fuel) (field : PyStr × PyJson) (fields : PyDict)
    (hv : WritableFields (field :: fields)) (d : PyDict)
    (hd : ((d ++ field :: fields).map Prod.fst).Nodup) (rest : List Char)
    (hfuel : (dumpsAsciiFields (field :: fields)).length ≤ fuel + 1) :
    readFields (fuel + 1) d (dumpsAsciiFields (field :: fields) ++ rest) =
      some (d ++ field :: fields, rest) := by
  obtain ⟨key, x⟩ := field
  obtain ⟨hkey, hx, hfields⟩ := hv
  have hset : d.set key x = d ++ [(key, x)] := by
    refine set_append (fun hmem => ?_) x
    rw [List.map_append, List.nodup_append] at hd
    exact hd.2.2 key hmem key List.mem_cons_self rfl
  rw [dumpsAsciiFields_cons, quoteAscii, List.cons_append] at hfuel ⊢
  cases fields with
  | nil =>
    have hkeyRead := scanString_quoteAscii hkey (':' :: (dumpsAscii x ++ ('\x7d' :: rest)))
    have hvalue := h.value x hx ('\x7d' :: rest) (by simp at hfuel; omega)
      (endsNumber_of (.inr (.inr rfl)))
    have hskip := skipSpace_dumpsAscii hx ('\x7d' :: rest)
    simp only [List.append_assoc, List.cons_append, List.nil_append]
    rw [readFields, if_neg (by decide)]
    simp only [Option.bind_eq_bind, hkeyRead, Option.bind_some, skipSpace_cons (c := ':') (by decide),
      hskip, hvalue, skipSpace_cons (c := '\x7d') (by decide), hset]
  | cons field fields =>
    have hkeyRead := scanString_quoteAscii hkey
      (':' :: (dumpsAscii x ++ (',' :: (dumpsAsciiFields (field :: fields) ++ rest))))
    have hvalue := h.value x hx (',' :: (dumpsAsciiFields (field :: fields) ++ rest))
      (by simp at hfuel; omega) (endsNumber_of (.inl rfl))
    have hskip := skipSpace_dumpsAscii hx (',' :: (dumpsAsciiFields (field :: fields) ++ rest))
    have hrest := h.fields field fields hfields (d ++ [(key, x)]) (by simpa using hd) rest
      (by simp at hfuel; omega)
    have hquote : skipSpace (dumpsAsciiFields (field :: fields) ++ rest) =
        dumpsAsciiFields (field :: fields) ++ rest := by
      rw [dumpsAsciiFields_cons, quoteAscii, List.cons_append, List.cons_append]
      exact skipSpace_cons (by decide) _
    simp only [List.append_assoc, List.cons_append, List.nil_append]
    rw [readFields, if_neg (by decide)]
    simp only [Option.bind_eq_bind, hkeyRead, Option.bind_some, skipSpace_cons (c := ':') (by decide),
      hskip, hvalue, skipSpace_cons (c := ',') (by decide), hset, hquote]
    rw [hrest, List.append_assoc]
    rfl

/-- By induction on the fuel, which every call spends one of. -/
theorem reads (fuel : Nat) : Reads fuel := by
  induction fuel with
  | zero =>
    refine ⟨fun v hv rest hfuel => ?_, fun x xs hv rest hfuel => ?_, fun field fields _ _ _ rest hfuel => ?_⟩
    · obtain ⟨c, cs, htext, -⟩ := dumpsAscii_head hv
      rw [htext] at hfuel
      cases hfuel
    · obtain ⟨c, cs, htext, -⟩ := dumpsAscii_head hv.1
      rw [dumpsAsciiElems_cons, htext] at hfuel
      cases hfuel
    · rw [dumpsAsciiFields_cons, quoteAscii] at hfuel
      cases hfuel
  | succ fuel ih => exact ⟨ih.succ_value, ih.succ_elems, ih.succ_fields⟩

/-- What was written is read back. -/
theorem loads_dumpsAscii {v : PyJson} (hv : v.Writable) : loads (dumpsAscii v) = some v := by
  obtain ⟨c, cs, htext, hspace, -, hmark⟩ := dumpsAscii_head hv
  have hskip := skipSpace_dumpsAscii hv []
  have hread := (reads ((dumpsAscii v).length + 1)).value v hv [] (Nat.le_succ _)
    (fun _ hc => nomatch hc)
  rw [List.append_nil] at hskip hread
  have hhead : (dumpsAscii v).head? ≠ some '\uFEFF' := by
    rw [htext]
    simpa using hmark
  rw [loads, if_neg hhead, hskip, hread]
  rfl

/-! ## Sorted keys -/

theorem sortKeysFields_eq (fields : PyDict) :
    sortKeysFields fields = fields.map fun field => (field.1, field.2.sortKeys) := by
  induction fields with
  | nil => rfl
  | cons field fields ih => rw [sortKeysFields, ih, List.map_cons]

theorem writableFields_iff (fields : PyDict) :
    WritableFields fields ↔ ∀ field ∈ fields, field.1.PairFree ∧ field.2.Writable := by
  induction fields with
  | nil => simp [WritableFields]
  | cons field fields ih => rw [WritableFields, ih, List.forall_mem_cons, and_assoc]

/-- An object of writable values with distinct keys, in whatever order. -/
theorem writable_dict_perm {d d' : PyDict} (h : d.Perm d') (hd : (dict d).Writable) :
    (dict d').Writable := by
  refine ⟨(h.map Prod.fst).nodup_iff.mp hd.1, ?_⟩
  rw [writableFields_iff]
  intro field hfield
  exact (writableFields_iff d).mp hd.2 field (h.mem_iff.mpr hfield)

mutual

theorem writable_sortKeys : ∀ v : PyJson, v.Writable → v.sortKeys.Writable
  | .null, _ => trivial
  | .bool _, _ => trivial
  | .int _, _ => trivial
  | .float _, hv => hv
  | .str _, hv => hv
  | .list xs, hv => writable_sortKeysElems xs hv
  | .dict fields, hv => by
      refine writable_dict_perm (List.perm_insertionSort _ _).symm ⟨?_, writable_sortKeysFields fields hv.2⟩
      rw [sortKeysFields_eq, List.map_map]
      exact hv.1

theorem writable_sortKeysElems : ∀ xs : List PyJson, WritableElems xs → WritableElems (sortKeysElems xs)
  | [], _ => trivial
  | x :: xs, hv => ⟨writable_sortKeys x hv.1, writable_sortKeysElems xs hv.2⟩

theorem writable_sortKeysFields : ∀ fields : List (PyStr × PyJson), WritableFields fields →
    WritableFields (sortKeysFields fields)
  | [], _ => trivial
  | (_, x) :: fields, hv =>
    ⟨hv.1, writable_sortKeys x hv.2.1, writable_sortKeysFields fields hv.2.2⟩

end

/-- A sorted object has the same members, their values sorted. -/
theorem sortKeys_dict (d : PyDict) :
    ∃ d', sortKeys (.dict d) = .dict d' ∧ d'.Perm (d.map fun field => (field.1, field.2.sortKeys)) := by
  refine ⟨_, rfl, ?_⟩
  rw [sortKeysFields_eq]
  exact List.perm_insertionSort _ _

/-- What a member of an object with distinct keys is found under. -/
theorem get?_of_mem {d : PyDict} (h : (d.map Prod.fst).Nodup) {key : String} {value : PyJson}
    (hmem : (ofChars key.toList, value) ∈ d) : PyDict.get? d key = some value := by
  have hfind : d.find? (fun field => field.1 = ofChars key.toList) = some (ofChars key.toList, value) := by
    induction d with
    | nil => cases hmem
    | cons field d ih =>
      rw [List.map_cons, List.nodup_cons] at h
      rcases List.mem_cons.mp hmem with rfl | hmem
      · rw [List.find?_cons_of_pos (by simp)]
      · have hne : field.1 ≠ ofChars key.toList := fun heq =>
          h.1 (heq ▸ List.mem_map_of_mem hmem)
        rw [List.find?_cons_of_neg (by simpa using hne), ih h.2 hmem]
  rw [PyDict.get?, hfind]
  rfl

end PyJson
