import RapidInbox.Codes.CppExtract
import RapidInbox.Codes.PyExtract

/-!
# A published code is unambiguous

Both extractors choose in the same way: the code that is published reaches the threshold, and each
other code misses it or trails by the margin.
-/

namespace RapidInbox

/-- The form of a code: four to ten letters or digits with a digit among them. -/
structure CodeForm {C : Type} (letter digit : C → Bool) (code : List C) : Prop where
  length_ge : 4 ≤ code.length
  length_le : code.length ≤ 10
  characters : ∀ ch ∈ code, letter ch = true ∨ digit ch = true
  has_digit : ∃ ch ∈ code, digit ch = true

/-- A code of a text that is that of its best candidate by far. -/
structure Unambiguous {C : Type} (R : CodeCandidate.Rules C) (letter digit : C → Bool) (text : List C)
    (candidates : List (CodeCandidate C)) (score : CodeCandidate C → ℚ) (code : List C) : Prop where
  form : CodeForm letter digit code
  distinct : (candidates.map CodeCandidate.code).Nodup
  prevails : ∃ c, c.code = code ∧ c.FoundIn R text ∧ CodeCandidate.Prevails score candidates c

theorem CodeCandidate.Recorded.unambiguous {C : Type} {R : Rules C} {letter digit : C → Bool}
    {text : List C} {candidates : List (CodeCandidate C)} {score : CodeCandidate C → ℚ} {code : List C}
    (h : Recorded R text candidates) (hform : ∀ c : CodeCandidate C, c.FoundIn R text →
      CodeForm letter digit c.code)
    (hprevails : ∃ c, c.code = code ∧ Prevails score candidates c) :
    Unambiguous R letter digit text candidates score code := by
  obtain ⟨c, rfl, hc⟩ := hprevails
  have hfound := h.found c hc.1
  exact ⟨hform c hfound, h.distinct, c, rfl, hfound, hc⟩

/-! ## C++ -/

namespace CppCode

def asciiLetter (ch : UInt8) : Bool := (0x41 ≤ ch && ch ≤ 0x5A) || (0x61 ≤ ch && ch ≤ 0x7A)

theorem asciiAlnum_toUpper {ch : UInt8} (h : asciiAlnum ch = true) : asciiAlnum (toUpper ch) = true := by
  unfold toUpper
  split
  · rename_i hlower
    simp only [asciiAlnum, asciiDigit, Bool.and_eq_true, Bool.or_eq_true, decide_eq_true_eq,
      UInt8.le_iff_toNat_le] at hlower ⊢
    have hsub : (ch - 32).toNat = ch.toNat - 32 :=
      UInt8.toNat_sub_of_le ch 32 (UInt8.le_iff_toNat_le.mpr (Nat.le_trans (by decide) hlower.1))
    rw [hsub]
    left
    right
    have h1 := hlower.1
    have h2 := hlower.2
    change 0x61 ≤ ch.toNat at h1
    change ch.toNat ≤ 0x7A at h2
    change 0x41 ≤ ch.toNat - 32 ∧ ch.toNat - 32 ≤ 0x5A
    omega
  · exact h

theorem canonicalDigits_form {display : Bytes}
    (hlength : 4 ≤ (canonicalDigits display).length ∧ (canonicalDigits display).length ≤ 10) :
    CodeForm asciiLetter asciiDigit (canonicalDigits display) := by
  have hdigits : ∀ ch ∈ canonicalDigits display, asciiDigit ch = true := fun ch hch =>
    (List.mem_filter.mp hch).2
  refine ⟨hlength.1, hlength.2, fun ch hch => .inr (hdigits ch hch), ?_⟩
  have hpos : 0 < (canonicalDigits display).length := Nat.lt_of_lt_of_le (by decide) hlength.1
  obtain ⟨ch, hch⟩ := List.exists_mem_of_length_pos hpos
  exact ⟨ch, hch, hdigits ch hch⟩

theorem canonicalAlnum_characters {display : Bytes} :
    ∀ ch ∈ canonicalAlnum display, asciiLetter ch = true ∨ asciiDigit ch = true := by
  intro ch hch
  obtain ⟨raw, hraw, rfl⟩ := List.mem_map.mp hch
  have halnum := asciiAlnum_toUpper (List.mem_filter.mp hraw).2
  unfold asciiAlnum at halnum
  unfold asciiLetter
  rw [Bool.or_assoc, Bool.or_eq_true] at halnum
  exact halnum.symm

/-- A candidate's code has the form of codes. -/
theorem code_form {text : Bytes} {c : CodeCandidate UInt8} (h : c.FoundIn rules text) :
    CodeForm asciiLetter asciiDigit c.code := by
  have hcode : c.code = if c.shape = .alnum then canonicalAlnum c.display else canonicalDigits c.display :=
    h.code
  have hadmits : admits c.shape c.code = true := h.admitted
  unfold admits at hadmits
  cases hshape : c.shape with
  | digits =>
    rw [hshape, if_neg (fun heq => nomatch heq)] at hcode
    rw [hshape] at hadmits
    have hlength := of_decide_eq_true hadmits
    rw [hcode] at hlength ⊢
    exact canonicalDigits_form ⟨hlength.1, hlength.2.trans (by decide)⟩
  | groupedDigits =>
    rw [hshape, if_neg (fun heq => nomatch heq)] at hcode
    rw [hshape] at hadmits
    have hlength := of_decide_eq_true hadmits
    rw [hcode] at hlength ⊢
    exact canonicalDigits_form hlength
  | alnum =>
    rw [hshape, if_pos rfl] at hcode
    rw [hshape] at hadmits
    simp only [Bool.and_eq_true, decide_eq_true_eq] at hadmits
    obtain ⟨⟨⟨hlength, hdigit⟩, -⟩, -⟩ := hadmits
    refine ⟨hlength.1, hlength.2, ?_, List.any_eq_true.mp hdigit⟩
    rw [hcode]
    exact canonicalAlnum_characters
  | hex =>
    rw [hshape] at hadmits
    cases hadmits

theorem Cleaned.code?_prevails {mail : Cleaned} {code : Bytes} (h : mail.code? = some code) :
    ∃ c, c.code = code ∧ CodeCandidate.Prevails mail.score (enumerateCandidates mail.text) c :=
  CodeCandidate.publish_prevails id mail.score (fun _ _ hle => hle)
    (List.map_id _) (recorded_enumerateCandidates mail.text).distinct h

end CppCode

/-! ## Python -/

namespace PyCode

theorem isDecimal_of_asciiDigit {c : CodePoint} (h : asciiDigit c = true) : isDecimal c = true := by
  unfold isDecimal decimalZeros
  rw [List.any_cons, Bool.or_eq_true]
  left
  simpa [asciiDigit, inRange, Nat.lt_succ_iff] using h

theorem asciiAlnum_upper {c : CodePoint} (h : asciiAlnum c = true) : asciiAlnum (upper c) = true := by
  unfold upper
  split
  · rename_i hlower
    have hbounds : 97 ≤ c.val ∧ c.val ≤ 122 := by
      simpa [inRange] using hlower
    have hsub : (c - 32).val = c.val - 32 := by
      apply Fin.sub_val_of_le
      exact Fin.le_def.mpr (Nat.le_trans (by decide) hbounds.1)
    have hupper : inRange 'A' 'Z' (c - 32) = true := by
      unfold inRange
      rw [hsub, Bool.and_eq_true, decide_eq_true_eq, decide_eq_true_eq]
      show 65 ≤ c.val - 32 ∧ c.val - 32 ≤ 90
      omega
    unfold asciiAlnum asciiLetter
    rw [hupper, Bool.or_true, Bool.or_true]
  · exact h

theorem decimals_form {token : PyStr}
    (hlength : 4 ≤ (token.filter isDecimal).length ∧ (token.filter isDecimal).length ≤ 10) :
    CodeForm asciiLetter isDecimal (token.filter isDecimal) := by
  have hdigits : ∀ c ∈ token.filter isDecimal, isDecimal c = true := fun c hc =>
    (List.mem_filter.mp hc).2
  refine ⟨hlength.1, hlength.2, fun c hc => .inr (hdigits c hc), ?_⟩
  have hpos : 0 < (token.filter isDecimal).length := Nat.lt_of_lt_of_le (by decide) hlength.1
  obtain ⟨c, hc⟩ := List.exists_mem_of_length_pos hpos
  exact ⟨c, hc, hdigits c hc⟩

theorem alnums_form {token : PyStr} {code : PyStr} (hcode : code = (token.filter asciiAlnum).map upper)
    (hadmits : admits .alnum code = true) : CodeForm asciiLetter isDecimal code := by
  have halnum : ∀ c ∈ code, asciiLetter c = true ∨ asciiDigit c = true := by
    intro c hc
    rw [hcode] at hc
    obtain ⟨raw, hraw, rfl⟩ := List.mem_map.mp hc
    have halnum := asciiAlnum_upper (List.mem_filter.mp hraw).2
    exact (Bool.or_eq_true _ _ ▸ halnum).symm
  simp only [admits, Bool.and_eq_true, decide_eq_true_eq] at hadmits
  obtain ⟨⟨⟨hlength, hletters⟩, -⟩, -⟩ := hadmits
  refine ⟨hlength.1, hlength.2, ?_, ?_⟩
  · intro c hc
    exact (halnum c hc).imp_right isDecimal_of_asciiDigit
  · rw [Bool.not_eq_true', List.all_eq_false] at hletters
    obtain ⟨c, hc, hletter⟩ := hletters
    exact ⟨c, hc, isDecimal_of_asciiDigit ((halnum c hc).resolve_left hletter)⟩

/-- A candidate's code has the form of codes; the digits are those of any script. -/
theorem code_form {source : PyStr} {c : CodeCandidate CodePoint} (h : c.FoundIn rules source) :
    CodeForm asciiLetter isDecimal c.code := by
  have hcode : c.code = canonicalize c.shape c.display := h.code
  have hadmits : admits c.shape c.code = true := h.admitted
  cases hshape : c.shape with
  | digits =>
    rw [hshape] at hcode hadmits
    have hlength := of_decide_eq_true hadmits
    rw [hcode] at hlength ⊢
    exact decimals_form ⟨hlength.1, hlength.2.trans (by decide)⟩
  | groupedDigits =>
    rw [hshape] at hcode hadmits
    have hlength := of_decide_eq_true hadmits
    rw [hcode] at hlength ⊢
    exact decimals_form hlength
  | alnum =>
    rw [hshape] at hcode hadmits
    exact alnums_form hcode hadmits
  | hex =>
    rw [hshape] at hcode hadmits
    exact alnums_form hcode hadmits

theorem Cleaned.code?_prevails {T : PyTables} {mail : Cleaned} {code : PyStr}
    (h : mail.code? T = some code) :
    ∃ c, c.code = code ∧
      CodeCandidate.Prevails (mail.score T) (enumerateCandidates T mail.text) c := by
  refine CodeCandidate.publish_prevails Prod.fst (mail.key T) ?_ ?_
    (recorded_enumerateCandidates T mail.text).distinct h
  · intro a b hle
    rcases Prod.Lex.toLex_le_toLex.mp hle with hlt | heq
    · exact hlt.le
    · exact heq.1.le
  · have hfilter := List.filter_map (f := Prod.fst)
      (p := fun c : CodeCandidate CodePoint => decide (0 < mail.score T c))
      (l := (enumerateCandidates T mail.text).zipIdx)
    rw [List.zipIdx_map_fst] at hfilter
    exact hfilter.symm

end PyCode

/-! ## Both -/

/-- In either implementation a code that is returned is unambiguous among the candidates of the cleaned
    text. -/
theorem extractVerificationCode_unambiguous :
    (∀ subject sender textBody htmlBody preview code : Bytes,
      CppCode.extractVerificationCode subject sender textBody htmlBody preview = some code →
        ∃ mail, CppCode.cleanedMail subject sender textBody htmlBody preview = some mail ∧
          Unambiguous CppCode.rules CppCode.asciiLetter CppCode.asciiDigit mail.text
            (CppCode.enumerateCandidates mail.text) mail.score code) ∧
    ∀ (T : PyTables) (subject sender textBody htmlBody preview : Option PyStr) (code : PyStr),
      PyCode.extractVerificationCode T subject sender textBody htmlBody preview = some code →
        ∃ mail, PyCode.cleanedMail T subject sender textBody htmlBody preview = some mail ∧
          Unambiguous PyCode.rules PyCode.asciiLetter PyCode.isDecimal mail.text
            (PyCode.enumerateCandidates T mail.text) (mail.score T) code := by
  constructor
  · intro subject sender textBody htmlBody preview code h
    obtain ⟨mail, hmail, hcode⟩ := Option.bind_eq_some_iff.mp h
    refine ⟨mail, hmail, ?_⟩
    exact (CppCode.recorded_enumerateCandidates mail.text).unambiguous
      (fun _ hfound => CppCode.code_form hfound) (CppCode.Cleaned.code?_prevails hcode)
  · intro T subject sender textBody htmlBody preview code h
    obtain ⟨mail, hmail, hcode⟩ := Option.bind_eq_some_iff.mp h
    refine ⟨mail, hmail, ?_⟩
    exact (PyCode.recorded_enumerateCandidates T mail.text).unambiguous
      (fun _ hfound => PyCode.code_form hfound) (PyCode.Cleaned.code?_prevails hcode)

/-- The tables as far as texts of ASCII without entities go. -/
def PyTables.ascii : PyTables where
  isWord c := PyCode.asciiAlnum c || PyCode.oneOf "_" c
  lower := PyCode.lower
  casefold := List.map PyCode.lower
  unescape source := source

theorem extractVerificationCode_unambiguous_otp :
    (∃ mail, CppCode.cleanedMail (Mime.ascii "otp") [] (Mime.ascii "4821") [] [] = some mail ∧
      Unambiguous CppCode.rules CppCode.asciiLetter CppCode.asciiDigit mail.text
        (CppCode.enumerateCandidates mail.text) mail.score (Mime.ascii "4821")) ∧
    ∃ mail, PyCode.cleanedMail .ascii (some (PyCode.text "otp")) none (some (PyCode.text "4821")) none
        none = some mail ∧
      Unambiguous PyCode.rules PyCode.asciiLetter PyCode.isDecimal mail.text
        (PyCode.enumerateCandidates .ascii mail.text) (mail.score .ascii) (PyCode.text "4821") :=
  ⟨extractVerificationCode_unambiguous.1 _ _ _ _ _ _ (by decide +kernel),
    extractVerificationCode_unambiguous.2 _ _ _ _ _ _ _ (by decide +kernel)⟩

end RapidInbox
