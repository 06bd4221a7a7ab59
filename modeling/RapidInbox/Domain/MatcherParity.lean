import RapidInbox.Domain.MatcherSources
import RapidInbox.Domain.Canonical

/-!
# The matchers agree

On ASCII both matchers are the one of `Matcher`, whatever their Unicode libraries, and so they are the
same function.
-/

namespace RapidInbox

/-! ## Characters -/

theorem cppWhitespace_eq (c : Char) : Cpp.isWhitespace c = isPythonWhitespace c := by
  unfold Cpp.isWhitespace Cpp.isAsciiPythonWhitespace Cpp.utf8PythonWhitespace isPythonWhitespace
  generalize c.toNat = n
  rw [Bool.eq_iff_iff]
  simp
  omega

theorem pySpace_eq (c : Char) : Py.isSpace c = isPythonWhitespace c := by
  unfold Py.isSpace Py.whitespace isPythonWhitespace
  generalize c.toNat = n
  rw [Bool.eq_iff_iff]
  simp
  omega

theorem cppStrip_eq (t : Text) : Cpp.stripUnicodeWhitespace t = stripUnicodeWhitespace t := by
  unfold Cpp.stripUnicodeWhitespace stripUnicodeWhitespace
  rw [funext cppWhitespace_eq]

theorem pyStrip_eq (t : Text) : Py.strip t = stripUnicodeWhitespace t := by
  unfold Py.strip stripUnicodeWhitespace
  rw [funext pySpace_eq]

theorem pyAlnum_eq (c : Char) : Py.isAsciiAlnum c =
    (('A' ≤ c && c ≤ 'Z') || ('a' ≤ c && c ≤ 'z') || ('0' ≤ c && c ≤ '9')) := by
  unfold Py.isAsciiAlnum Char.isAlphanum Char.isAlpha Char.isUpper Char.isLower Char.isDigit
  rw [Bool.eq_iff_iff]
  simp [Char.le_def, UInt32.le_iff_toNat_le]

theorem pyLabelChar_eq (c : Char) : (Py.isAsciiAlnum c || c == '-') = isLabelChar c := by
  rw [pyAlnum_eq, isLabelChar, Bool.or_comm ('A' ≤ c && c ≤ 'Z')]

theorem pyAtext_eq (c : Char) : (Py.isAsciiAlnum c || Py.asciiAtext.contains c) = isAsciiAtext c := by
  rw [pyAlnum_eq]
  rfl

/-! ## Labels -/

/-- The first label and the rest. -/
theorem splitOn_dot (t : Text) :
    t.splitOn '.' = t.takeWhile (· != '.') ::
      match t.dropWhile (· != '.') with
      | [] => []
      | _ :: rest => rest.splitOn '.' := by
  induction t with
  | nil => rfl
  | cons c t ih =>
    rw [List.splitOn_cons_eq_if_modifyHead]
    by_cases h : c = '.'
    · subst h
      simp
    · rw [if_neg (by simpa using h), ih, List.modifyHead_cons]
      simp [h]

/-- The loop over the labels tests each of them. -/
theorem rawLabelEdges_eq (t : Text) : Cpp.rawLabelEdges t = (t.splitOn '.').all labelEdgesOk := by
  induction hn : t.length using Nat.strongRecOn generalizing t with
  | _ n ih =>
    rw [Cpp.rawLabelEdges, splitOn_dot]
    by_cases hempty : t = []
    · subst hempty
      rfl
    · rw [if_neg hempty]
      have hedges (label : Text) : labelEdgesOk label =
          !(label.isEmpty || label.head? == some '-' || label.getLast? == some '-') := by
        simp [labelEdgesOk, bne]
      rw [List.all_cons, hedges]
      cases label : (t.takeWhile (· != '.')).isEmpty || (t.takeWhile (· != '.')).head? == some '-' ||
          (t.takeWhile (· != '.')).getLast? == some '-' with
      | true => simp [label]
      | false =>
        have hle := (List.dropWhile_suffix (l := t) (· != '.')).length_le
        cases hrest : t.dropWhile (· != '.') with
        | nil => simp [label]
        | cons c rest =>
          rw [hrest, List.length_cons] at hle
          simp only [label, Bool.false_eq_true, if_false, Bool.not_false, Bool.true_and]
          exact ih rest.length (by omega) rest rfl

/-- The checks of one label in the second loop. -/
theorem labelOk_eq (label : Text) : labelOk label =
    if label.length = 0 then false
    else if 63 < label.length then false
    else if label.head? == some '-' || label.getLast? == some '-' then false
    else label.all isLabelChar := by
  unfold labelOk labelEdgesOk
  by_cases hempty : label.length = 0
  · rw [List.eq_nil_of_length_eq_zero hempty]
    rfl
  · rw [if_neg hempty]
    have hne : label.isEmpty = false := by
      rw [List.isEmpty_eq_false_iff]
      exact fun heq => hempty (congrArg List.length heq)
    by_cases hlong : 63 < label.length
    · rw [if_pos hlong]
      simp [Nat.not_le_of_lt hlong]
    · rw [if_neg hlong]
      cases hhead : label.head? == some '-' <;> cases hlast : label.getLast? == some '-' <;>
        simp [bne, hhead, hlast, hne, Nat.le_of_not_lt hlong]

/-- The second loop, for a domain that does not end in a dot. -/
theorem asciiLabels_eq {t : Text} (hlast : t.getLast? ≠ some '.') (hne : t ≠ []) :
    Cpp.asciiLabels t = (t.splitOn '.').all labelOk := by
  induction hn : t.length using Nat.strongRecOn generalizing t with
  | _ n ih =>
    rw [Cpp.asciiLabels, splitOn_dot, if_neg hne, List.all_cons, labelOk_eq]
    have hcut := List.takeWhile_append_dropWhile (p := (· != '.')) (l := t)
    generalize t.takeWhile (· != '.') = label at hcut ⊢
    dsimp only
    split
    · rfl
    · split
      · rfl
      · split
        · rfl
        · cases label.all isLabelChar with
          | false => rfl
          | true =>
            simp only [Bool.not_true, Bool.false_eq_true, if_false, Bool.true_and]
            cases hrest : t.dropWhile (· != '.') with
            | nil => rfl
            | cons c rest =>
              dsimp only
              rw [hrest] at hcut
              have hrestne : rest ≠ [] := by
                rintro rfl
                have hc := List.head?_dropWhile_not (· != '.') t
                rw [hrest] at hc
                simp at hc
                rw [← hcut, hc, List.getLast?_concat] at hlast
                exact hlast rfl
              refine ih rest.length ?_ ?_ hrestne rfl
              · rw [← hn, ← hcut, List.length_append, List.length_cons]
                omega
              · rw [← hcut, List.getLast?_append, List.getLast?_cons] at hlast
                cases hlast' : rest.getLast? with
                | none => simp
                | some d =>
                  rw [hlast'] at hlast
                  simpa using hlast

/-! ## Domains -/

/-- A label is empty where a dot begins or ends the domain. -/
theorem not_validate_of_dot {t : Text} (h : t.isEmpty || t.head? == some '.' || t.getLast? == some '.') :
    (t.splitOn '.').all labelOk = false := by
  rw [List.all_eq_false]
  refine ⟨[], ?_, by decide⟩
  simp only [Bool.or_eq_true, List.isEmpty_iff, beq_iff_eq] at h
  rcases h with (rfl | hhead) | hlast
  · simp [List.splitOn_nil]
  · obtain ⟨rest, rfl⟩ := List.head?_eq_some_iff.mp hhead
    rw [splitOn_dot]
    simp
  · obtain ⟨front, rfl⟩ := List.getLast?_eq_some_iff.mp hlast
    rw [List.splitOn_append_cons_self]
    simp [List.splitOn_nil]

theorem cppValidate_eq (t : Text) :
    Cpp.validateAsciiDomainLabels t = validateAsciiDomainLabels t := by
  unfold Cpp.validateAsciiDomainLabels validateAsciiDomainLabels
  by_cases hdot : t.isEmpty || t.head? == some '.' || t.getLast? == some '.'
  · rw [if_pos hdot, not_validate_of_dot hdot, Bool.and_false]
  · rw [if_neg hdot]
    simp only [Bool.or_eq_true, List.isEmpty_iff, beq_iff_eq, not_or] at hdot
    rw [asciiLabels_eq hdot.2 hdot.1.1]
    by_cases hlong : kMaximumDomainBytes < t.length
    · rw [if_pos hlong, decide_eq_false (Nat.not_le_of_lt hlong), Bool.false_and]
    · rw [if_neg hlong, decide_eq_true (Nat.le_of_not_lt hlong), Bool.true_and]

theorem pyValidate_eq (t : Text) : Py.validateAsciiDomain t = validateAsciiDomainLabels t := by
  unfold Py.validateAsciiDomain validateAsciiDomainLabels
  by_cases hlong : kMaximumDomainBytes < t.length
  · rw [if_pos (by simp [hlong]), decide_eq_false (Nat.not_le_of_lt hlong), Bool.false_and]
  · rw [decide_eq_true (Nat.le_of_not_lt hlong), Bool.true_and]
    by_cases hempty : t.isEmpty
    · rw [if_pos (by simp [hempty]), not_validate_of_dot (by simp [hempty])]
    · rw [if_neg (by simp [hempty, hlong])]
      refine congrArg (t.splitOn '.').all (funext fun label => ?_)
      rw [labelOk_eq]
      have hchars : (!label.any fun c => !(Py.isAsciiAlnum c || c == '-')) = label.all isLabelChar := by
        simp only [pyLabelChar_eq]
        simp [List.all_eq_not_any_not]
      rw [hchars]
      by_cases hnil : label.length = 0
      · rw [if_pos hnil, List.eq_nil_of_length_eq_zero hnil]
        rfl
      · have hne : label.isEmpty = false := by
          rw [List.isEmpty_eq_false_iff]
          exact fun heq => hnil (congrArg List.length heq)
        rw [if_neg hnil, hne, Bool.false_or]
        by_cases hmany : 63 < label.length
        · rw [if_pos (by simpa using hmany), if_pos hmany]
        · rw [if_neg (by simpa using hmany), if_neg hmany]

theorem finishDomain_def (t : Text) : finishDomain t =
    if !isAsciiDomain t then none
    else if validateAsciiDomainLabels (asciiLower t) then some (asciiLower t) else none := by
  unfold finishDomain
  cases isAsciiDomain t <;> rfl

theorem cppNormalizeDomain_eq (U : UnicodeOps) (t : Text) :
    Cpp.normalizeDomain U t = normalizeDomainCpp U t := by
  unfold Cpp.normalizeDomain normalizeDomainCpp Cpp.validateRawDomainLabelEdges
    validateRawDomainLabelEdges
  simp only [cppStrip_eq, rawLabelEdges_eq, cppValidate_eq]
  generalize rstripDots (stripUnicodeWhitespace t) = domain
  have hascii (u : Text) (h : isAsciiDomain u = true) :
      (if validateAsciiDomainLabels (asciiLower u) then some (asciiLower u) else none) =
        finishDomain u := by
    rw [finishDomain_def, h]
    rfl
  by_cases h : isAsciiDomain domain
  · simp only [h, if_true, hascii domain h]
  · simp only [h, Bool.false_eq_true, if_false]
    cases U.idnToAscii (U.toLower domain) with
    | none => rfl
    | some u =>
      rw [Option.bind_some, finishDomain_def]

theorem asciiLowerChar_eq_dot (c : Char) : (asciiLowerChar c == '.') = (c == '.') := by
  have hiff : asciiLowerChar c = '.' ↔ c = '.' := asciiLowerChar_eq_iff (by decide) (by decide)
  rw [Bool.eq_iff_iff]
  simp [hiff]

theorem splitOn_asciiLower (t : Text) :
    (asciiLower t).splitOn '.' = (t.splitOn '.').map asciiLower := by
  induction t with
  | nil => rfl
  | cons c t ih =>
    have hsplit : (asciiLower (c :: t)).splitOn '.' =
        (asciiLowerChar c :: asciiLower t).splitOn '.' := rfl
    rw [hsplit, List.splitOn_cons_eq_if_modifyHead, List.splitOn_cons_eq_if_modifyHead,
      asciiLowerChar_eq_dot, ih]
    cases hlabels : t.splitOn '.' with
    | nil => exact absurd hlabels (List.splitOn_ne_nil _ _)
    | cons label labels =>
      cases c == '.' <;> rfl

/-- A domain that the codec refuses has a label that the validation refuses. -/
theorem finishDomain_eq_none {t label : Text} (hmem : label ∈ t.splitOn '.')
    (hbad : label.isEmpty ∨ 64 ≤ label.length) : finishDomain t = none := by
  have hlabel : labelOk (asciiLower label) = false := by
    rw [labelOk_eq]
    rcases hbad with hempty | hlong
    · rw [List.isEmpty_iff.mp hempty]
      rfl
    · rw [show (asciiLower label).length = label.length from List.length_map _,
        if_neg (by omega), if_pos (by omega)]
  have hlabels : validateAsciiDomainLabels (asciiLower t) = false := by
    rw [validateAsciiDomainLabels, splitOn_asciiLower, Bool.and_eq_false_iff, List.all_eq_false]
    exact .inr ⟨asciiLower label, List.mem_map_of_mem hmem, by simp [hlabel]⟩
  rw [finishDomain_def, hlabels]
  cases isAsciiDomain t <;> rfl

/-- The codec keeps an ASCII domain that the validation accepts. -/
theorem encodeIdna_ascii {U : UnicodeOps} {t : Text} (hascii : isAsciiDomain t = true) :
    (Py.encodeIdna U t).bind finishDomain = finishDomain t := by
  unfold Py.encodeIdna
  rw [if_pos hascii]
  dsimp only
  by_cases hinit : (t.splitOn '.').dropLast.any fun label => label.isEmpty || 64 ≤ label.length
  · rw [if_pos hinit]
    obtain ⟨label, hmem, hbad⟩ := List.any_eq_true.mp hinit
    rw [finishDomain_eq_none (List.dropLast_subset _ hmem) (by simpa using hbad)]
    rfl
  · rw [if_neg hinit]
    by_cases hlast : (t.splitOn '.').getLast?.any fun label => 64 ≤ label.length
    · rw [if_pos hlast]
      cases hlabel : (t.splitOn '.').getLast? with
      | none =>
        rw [hlabel] at hlast
        cases hlast
      | some label =>
        rw [hlabel] at hlast
        rw [finishDomain_eq_none (List.mem_of_getLast? hlabel) (.inr (by simpa using hlast))]
        rfl
    · rw [if_neg hlast]
      rfl

/-- What the codec returns is ASCII. -/
theorem encodeIdna_isAscii {U : UnicodeOps} {t ascii : Text} (h : Py.encodeIdna U t = some ascii) :
    isAsciiDomain ascii = true := by
  unfold Py.encodeIdna at h
  by_cases hascii : isAsciiDomain t
  · rw [if_pos hascii] at h
    dsimp only at h
    split at h
    · cases h
    · split at h
      · cases h
      · cases h
        exact hascii
  · rw [if_neg hascii] at h
    obtain ⟨u, -, hu⟩ := Option.bind_eq_some_iff.mp h
    cases hcase : isAsciiDomain u with
    | true =>
      rw [hcase] at hu
      cases hu
      exact hcase
    | false =>
      rw [hcase] at hu
      cases hu

theorem pyNormalizeDomain_eq (U : UnicodeOps) (t : Text) :
    Py.normalizeDomain U t = normalizeDomainPy U t := by
  unfold Py.normalizeDomain normalizeDomainPy validateRawDomainLabelEdges
  simp only [pyStrip_eq, pyValidate_eq]
  generalize lowerText U (rstripDots (stripUnicodeWhitespace t)) = domain
  have hedges : (((mapIdnaDotSeparators domain).splitOn '.').any fun label =>
      label.isEmpty || label.head? == some '-' || label.getLast? == some '-') =
        !((mapIdnaDotSeparators domain).splitOn '.').all labelEdgesOk := by
    rw [List.any_eq_not_all_not]
    refine congrArg (fun p => !List.all _ p) (funext fun label => ?_)
    simp [labelEdgesOk, bne]
  have hfinish : (Py.encodeIdna U domain).bind finishDomain =
      if isAsciiDomain domain then finishDomain domain
      else (U.idnToAscii domain).bind finishDomain := by
    by_cases hascii : isAsciiDomain domain
    · rw [if_pos hascii, encodeIdna_ascii hascii]
    · rw [if_neg hascii, Py.encodeIdna, if_neg hascii]
      cases U.idnToAscii domain with
      | none => rfl
      | some ascii =>
        rw [Option.bind_some, Option.bind_some, finishDomain_def]
        cases hcase : isAsciiDomain ascii with
        | false => rfl
        | true =>
          rw [if_pos rfl, Option.bind_some, finishDomain_def, hcase]
  rw [hedges, ← hfinish]
  cases hcodec : Py.encodeIdna U domain with
  | none => rfl
  | some ascii =>
    rw [Option.bind_some, finishDomain_def, encodeIdna_isAscii hcodec]
    rfl

/-! ## The two normalisations on ASCII -/

theorem isAsciiDomain_strip {t : Text} (h : isAsciiDomain t = true) :
    isAsciiDomain (rstripDots (stripUnicodeWhitespace t)) = true := by
  rw [isAsciiDomain, List.all_eq_true] at h ⊢
  intro c hc
  apply h
  unfold rstripDots stripUnicodeWhitespace at hc
  have h1 := (List.dropWhile_suffix _).mem (List.mem_reverse.mp hc)
  rw [List.reverse_reverse] at h1
  have h2 := (List.dropWhile_suffix _).mem h1
  exact (List.dropWhile_suffix _).mem (List.mem_reverse.mp h2)

theorem labelEdgesOk_asciiLower (label : Text) : labelEdgesOk (asciiLower label) = labelEdgesOk label := by
  have hhyphen (o : Option Char) : (o.map asciiLowerChar != some '-') = (o != some '-') := by
    cases o with
    | none => rfl
    | some c =>
      have hiff : asciiLowerChar c = '-' ↔ c = '-' :=
        asciiLowerChar_eq_iff (by decide) (by decide)
      rw [bne, bne, Bool.eq_iff_iff]
      simp [hiff]
  unfold labelEdgesOk asciiLower
  rw [List.head?_map, List.getLast?_map, hhyphen, hhyphen, List.isEmpty_map]

theorem validateRawDomainLabelEdges_asciiLower {t : Text} (h : isAsciiDomain t = true) :
    validateRawDomainLabelEdges (asciiLower t) = validateRawDomainLabelEdges t := by
  rw [validateRawDomainLabelEdges, validateRawDomainLabelEdges, mapIdnaDotSeparators_ascii h,
    mapIdnaDotSeparators_ascii (isAsciiDomain_asciiLower h).1, splitOn_asciiLower, List.all_map]
  exact congrArg (t.splitOn '.').all (funext labelEdgesOk_asciiLower)

theorem finishDomain_asciiLower {t : Text} (h : isAsciiDomain t = true) :
    finishDomain (asciiLower t) = finishDomain t := by
  obtain ⟨hlower, hidem⟩ := isAsciiDomain_asciiLower h
  rw [finishDomain_def, finishDomain_def, hlower, hidem, h]

/-- No label holds a NUL. -/
theorem finishDomain_nul {t : Text} (h : '\x00' ∈ t) : finishDomain t = none := by
  cases hfinish : finishDomain t with
  | none => rfl
  | some t' =>
    have hnorm := finishDomain_normalized hfinish
    have heq : t' = asciiLower t := by
      rw [finishDomain_def] at hfinish
      split at hfinish
      · cases hfinish
      · split at hfinish
        · exact (Option.some.inj hfinish).symm
        · cases hfinish
    have hmem : '\x00' ∈ t' := heq ▸ List.mem_map_of_mem (f := asciiLowerChar) h
    exact absurd rfl (labelChar_facts (hnorm.char hmem)).2.1

/-- The two `normalize_domain`s agree on ASCII. -/
theorem normalizeDomain_ascii {U V : UnicodeOps} {t : Text} (h : isAsciiDomain t = true) :
    normalizeDomainCpp U t = normalizeDomainPy V t := by
  unfold normalizeDomainCpp normalizeDomainPy
  have hascii := isAsciiDomain_strip h
  generalize rstripDots (stripUnicodeWhitespace t) = domain at hascii
  have hlower : lowerText V domain = asciiLower domain := by rw [lowerText, if_pos hascii]
  have hempty : (asciiLower domain).isEmpty = domain.isEmpty := List.isEmpty_map
  have hstar : asciiLower domain = ['*'] ↔ domain = ['*'] := by
    unfold asciiLower
    rw [List.map_eq_singleton_iff]
    constructor
    · rintro ⟨c, rfl, hc⟩
      rw [(asciiLowerChar_eq_iff (by decide) (by decide)).mp hc]
    · rintro rfl
      exact ⟨'*', rfl, rfl⟩
  dsimp only
  rw [hlower, hempty, validateRawDomainLabelEdges_asciiLower hascii, if_pos hascii,
    if_pos (isAsciiDomain_asciiLower hascii).1, finishDomain_asciiLower hascii]
  by_cases hs : domain = ['*']
  · rw [hs]
    rfl
  · rw [if_neg hs, if_neg (fun hl => hs (hstar.mp hl))]
    by_cases hnul : domain.contains '\x00'
    · rw [if_pos hnul, finishDomain_nul (List.contains_iff_mem.mp hnul)]
      simp
    · rw [if_neg hnul]

end RapidInbox
