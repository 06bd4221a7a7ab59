import RapidInbox.Lib.Words
import RapidInbox.Ingest.SmtpSession

/-!
# The lines that MAIL and RCPT accept

The grammar of `parse_path_command` (`smtp_session.cpp:79-168`): a line is accepted if and only if it
can be put together from the parts below, and its result is read off the parts.
-/

namespace RapidInbox
namespace SmtpSession

/-! ## Bytes -/

theorem isAsciiSpace_upperAsciiByte (b : UInt8) : isAsciiSpace (upperAsciiByte b) = isAsciiSpace b := by
  unfold upperAsciiByte
  split
  · rename_i hb
    simp only [Bool.and_eq_true, decide_eq_true_eq, UInt8.le_iff_toNat_le] at hb
    have hsub : (b - 32).toNat = b.toNat - 32 :=
      UInt8.toNat_sub_of_le _ _ (UInt8.le_iff_toNat_le.mpr (Nat.le_trans (by decide) hb.1))
    have hlow : 97 ≤ b.toNat := hb.1
    have hne {c : UInt8} (hc : c.toNat < 65) : (b - 32 == c) = false ∧ (b == c) = false := by
      constructor
      · exact beq_eq_false_iff_ne.mpr fun heq => by rw [← heq, hsub] at hc; omega
      · exact beq_eq_false_iff_ne.mpr fun heq => by rw [← heq] at hc; omega
    rw [isAsciiSpace, isAsciiSpace, (hne (c := 0x20) (by decide)).1, (hne (c := 0x20) (by decide)).2,
      (hne (c := 0x09) (by decide)).1, (hne (c := 0x09) (by decide)).2]
  · rfl

theorem length_eq_of_upperAscii {s t : Bytes} (h : upperAscii s = upperAscii t) :
    s.length = t.length := by
  simpa [upperAscii] using congrArg List.length h

@[simp] theorem upperAsciiByte_upperAsciiByte (b : UInt8) :
    upperAsciiByte (upperAsciiByte b) = upperAsciiByte b := by
  by_cases hb : (0x61 ≤ b && b ≤ 0x7A) = true
  · rw [show upperAsciiByte b = b - 32 from if_pos hb, upperAsciiByte, if_neg]
    simp only [Bool.and_eq_true, decide_eq_true_eq, UInt8.le_iff_toNat_le] at hb ⊢
    have hsub : (b - 32).toNat = b.toNat - 32 :=
      UInt8.toNat_sub_of_le _ _ (UInt8.le_iff_toNat_le.mpr (Nat.le_trans (by decide) hb.1))
    have hhigh : b.toNat ≤ 122 := hb.2
    rintro ⟨hlow, -⟩
    have hlow : 97 ≤ (b - 32).toNat := hlow
    omega
  · rw [show upperAsciiByte b = b from if_neg hb, show upperAsciiByte b = b from if_neg hb]

@[simp] theorem upperAscii_upperAscii (s : Bytes) : upperAscii (upperAscii s) = upperAscii s := by
  simp [upperAscii]

theorem isKeywordAlnum_upperAsciiByte {b : UInt8} (h : isKeywordAlnum b = true) :
    isKeywordAlnum (upperAsciiByte b) = true := by
  by_cases hb : (0x61 ≤ b && b ≤ 0x7A) = true
  · rw [show upperAsciiByte b = b - 32 from if_pos hb]
    simp only [Bool.and_eq_true, decide_eq_true_eq, UInt8.le_iff_toNat_le] at hb
    have hsub : (b - 32).toNat = b.toNat - 32 :=
      UInt8.toNat_sub_of_le _ _ (UInt8.le_iff_toNat_le.mpr (Nat.le_trans (by decide) hb.1))
    have hlow : 97 ≤ b.toNat := hb.1
    have hhigh : b.toNat ≤ 122 := hb.2
    have hletter : (0x41 : UInt8) ≤ b - 32 ∧ b - 32 ≤ (0x5A : UInt8) := by
      rw [UInt8.le_iff_toNat_le, UInt8.le_iff_toNat_le, hsub]
      exact ⟨show 65 ≤ b.toNat - 32 by omega, show b.toNat - 32 ≤ 90 by omega⟩
    simp [isKeywordAlnum, hletter]
  · rwa [show upperAsciiByte b = b from if_neg hb]

/-- A byte of a parameter's name. -/
def isKeywordByte (b : UInt8) : Bool := isKeywordAlnum b || b == 0x2D

theorem isKeywordByte_upperAsciiByte {b : UInt8} (h : isKeywordByte b = true) :
    isKeywordByte (upperAsciiByte b) = true := by
  rw [isKeywordByte, Bool.or_eq_true] at h ⊢
  rcases h with h | h
  · exact .inl (isKeywordAlnum_upperAsciiByte h)
  · rw [beq_iff_eq] at h
    subst h
    exact .inr (by decide)

/-- A byte of a name is printable and no equals sign. -/
theorem printable_of_isKeywordByte {b : UInt8} (h : isKeywordByte b = true) :
    0x21 ≤ b ∧ b ≤ 0x7E ∧ b ≠ 0x3D := by
  have hne : b ≠ 0x3D := by
    rintro rfl
    exact absurd h (by decide)
  rw [isKeywordByte, isKeywordAlnum] at h
  simp only [Bool.or_eq_true, Bool.and_eq_true, decide_eq_true_eq, beq_iff_eq] at h
  rcases h with ((⟨hlow, hhigh⟩ | ⟨hlow, hhigh⟩) | ⟨hlow, hhigh⟩) | rfl
  · exact ⟨UInt8.le_trans (by decide) hlow, UInt8.le_trans hhigh (by decide), hne⟩
  · exact ⟨UInt8.le_trans (by decide) hlow, UInt8.le_trans hhigh (by decide), hne⟩
  · exact ⟨UInt8.le_trans (by decide) hlow, UInt8.le_trans hhigh (by decide), hne⟩
  · exact ⟨by decide, by decide, hne⟩

/-! ## Parameters -/

/-- `NAME` or `NAME=VALUE` as it stands on a line. -/
structure WrittenParameter where
  name : Bytes
  value : Option Bytes
  first : name.head?.any isKeywordAlnum = true
  keyword : ∀ b ∈ name, isKeywordByte b = true
  printable : ∀ v ∈ value, v ≠ [] ∧ ∀ b ∈ v, 0x21 ≤ b ∧ b ≤ 0x7E ∧ b ≠ 0x3D

namespace WrittenParameter

def text (p : WrittenParameter) : Bytes :=
  p.name ++ match p.value with
    | none => []
    | some value => 0x3D :: value

def read (p : WrittenParameter) : EsmtpParameter := ⟨upperAscii p.name, p.value⟩

theorem name_ne_nil (p : WrittenParameter) : p.name ≠ [] := by
  intro hnil
  have hfirst := p.first
  rw [hnil] at hfirst
  cases hfirst

theorem text_ne_nil (p : WrittenParameter) : p.text ≠ [] := by
  simp [text, p.name_ne_nil]

theorem printable_of_mem_text {p : WrittenParameter} {b : UInt8} (hb : b ∈ p.text) :
    0x21 ≤ b ∧ b ≤ 0x7E := by
  rw [text, List.mem_append] at hb
  rcases hb with hb | hb
  · have := printable_of_isKeywordByte (p.keyword b hb)
    exact ⟨this.1, this.2.1⟩
  · cases hvalue : p.value with
    | none =>
      rw [hvalue] at hb
      cases hb
    | some value =>
      rw [hvalue] at hb
      rcases List.mem_cons.mp hb with rfl | hb
      · decide
      · have := (p.printable value hvalue).2 b hb
        exact ⟨this.1, this.2.1⟩

theorem isAsciiSpace_of_mem_text {p : WrittenParameter} {b : UInt8} (hb : b ∈ p.text) :
    isAsciiSpace b = false := by
  have hlow := (printable_of_mem_text hb).1
  cases hspace : isAsciiSpace b with
  | false => rfl
  | true =>
    rw [isAsciiSpace, Bool.or_eq_true, beq_iff_eq, beq_iff_eq] at hspace
    rcases hspace with rfl | rfl
    · exact absurd hlow (by decide)
    · exact absurd hlow (by decide)

/-- The parameter with its name in upper case. -/
def upper (p : WrittenParameter) : WrittenParameter where
  name := upperAscii p.name
  value := p.value
  first := by
    obtain ⟨b, name, hname⟩ := List.exists_cons_of_ne_nil p.name_ne_nil
    have hfirst := p.first
    rw [hname] at hfirst ⊢
    exact isKeywordAlnum_upperAsciiByte hfirst
  keyword := by
    intro b hb
    obtain ⟨c, hc, rfl⟩ := List.mem_map.mp hb
    exact isKeywordByte_upperAsciiByte (p.keyword c hc)
  printable := p.printable

@[simp] theorem read_upper (p : WrittenParameter) : p.upper.read = p.read := by
  simp [upper, read]

end WrittenParameter

theorem takeWhile_name {p : WrittenParameter} :
    p.text.takeWhile (· != 0x3D) = p.name ∧
      p.text.dropWhile (· != 0x3D) =
        match p.value with
        | none => []
        | some value => 0x3D :: value := by
  have hname : ∀ b ∈ p.name, (b != 0x3D) = true := fun b hb =>
    bne_iff_ne.mpr (printable_of_isKeywordByte (p.keyword b hb)).2.2
  rw [WrittenParameter.text, List.takeWhile_append_of_pos hname, List.dropWhile_append_of_pos hname]
  cases p.value with
  | none => simp
  | some value => simp

/-- A token is a parameter if and only if it is one that can be written. -/
theorem parseParameter_eq_some {token : Bytes} {p : EsmtpParameter} :
    parseParameter token = some p ↔ ∃ w : WrittenParameter, w.text = token ∧ w.read = p := by
  constructor
  · intro h
    have hsplit : token.takeWhile (· != 0x3D) ++ token.dropWhile (· != 0x3D) = token :=
      List.takeWhile_append_dropWhile
    unfold parseParameter at h
    dsimp only at h
    split at h
    · cases h
    · rename_i hprintable
      split at h
      · cases h
      · rename_i hname
        simp only [Bool.or_eq_true, Bool.not_eq_true', not_or, Bool.not_eq_false,
          List.all_eq_true] at hname
        have hkeyword : ∀ b ∈ token.takeWhile (· != 0x3D), isKeywordByte b = true := fun b hb =>
          Bool.or_eq_true _ _ ▸ hname.2 b hb
        have hrange : ∀ b ∈ token, 0x21 ≤ b ∧ b ≤ 0x7E := by
          simpa [not_or, UInt8.not_lt] using hprintable
        cases hvalue : token.dropWhile (· != 0x3D) with
        | nil =>
          rw [hvalue] at h hsplit
          cases h
          refine ⟨⟨_, none, hname.1, hkeyword, nofun⟩, ?_, rfl⟩
          rw [WrittenParameter.text]
          exact hsplit
        | cons b raw =>
          rw [hvalue] at h hsplit
          dsimp only at h
          split at h
          · cases h
          · rename_i hraw
            cases h
            rw [Bool.or_eq_true, not_or, List.isEmpty_iff, List.contains_iff_mem] at hraw
            have hb : b = 0x3D := by
              have := Words.all_head?_dropWhile (fun c : UInt8 => c != 0x3D) token
              rw [hvalue] at this
              simpa using this
            subst hb
            refine ⟨⟨_, some raw, hname.1, hkeyword, ?_⟩, ?_, rfl⟩
            · rintro v ⟨⟩
              refine ⟨hraw.1, fun c hc => ?_⟩
              have hmem : c ∈ token := by
                rw [← hsplit]
                exact List.mem_append_right _ (List.mem_cons_of_mem _ hc)
              exact ⟨(hrange c hmem).1, (hrange c hmem).2, fun heq => hraw.2 (heq ▸ hc)⟩
            · rw [WrittenParameter.text]
              exact hsplit
  · rintro ⟨w, rfl, rfl⟩
    have hprintable : ¬(w.text.any fun b => b < 0x21 || 0x7E < b) = true := by
      rw [List.any_eq_true]
      rintro ⟨b, hb, hout⟩
      obtain ⟨hlow, hhigh⟩ := WrittenParameter.printable_of_mem_text hb
      rw [Bool.or_eq_true, decide_eq_true_eq, decide_eq_true_eq] at hout
      rcases hout with hout | hout
      · exact absurd hlow (UInt8.not_le.mpr hout)
      · exact absurd hhigh (UInt8.not_le.mpr hout)
    have hname : ¬(!(w.name.head?.any isKeywordAlnum) ||
        !(w.name.all fun b => isKeywordAlnum b || b == 0x2D)) = true := by
      have hall : (w.name.all fun b => isKeywordAlnum b || b == 0x2D) = true :=
        List.all_eq_true.mpr w.keyword
      rw [w.first, hall]
      decide
    unfold parseParameter
    dsimp only
    rw [takeWhile_name.1, takeWhile_name.2, if_neg hprintable, if_neg hname]
    cases hvalue : w.value with
    | none => simp [WrittenParameter.read, hvalue]
    | some value =>
      obtain ⟨hne, hbytes⟩ := w.printable value hvalue
      have hequals : 0x3D ∉ value := fun hmem => (hbytes _ hmem).2.2 rfl
      simp [WrittenParameter.read, hvalue, hne, hequals]

/-- The loop over the tokens: each is read, and no name comes twice. -/
theorem parseParameters_eq_some {seen tokens : List Bytes} {ps : List EsmtpParameter} :
    parseParameters seen tokens = some ps ↔
      tokens.map parseParameter = ps.map some ∧ (ps.map EsmtpParameter.name).Nodup ∧
        ∀ p ∈ ps, p.name ∉ seen := by
  induction tokens generalizing seen ps with
  | nil =>
    cases ps with
    | nil => simp [parseParameters]
    | cons p ps => simp [parseParameters]
  | cons token tokens ih =>
    rw [parseParameters]
    cases hp : parseParameter token with
    | none =>
      cases ps with
      | nil => simp
      | cons p ps => simp [hp]
    | some p =>
      cases ps with
      | nil => by_cases hseen : seen.contains p.name <;> simp
      | cons q ps =>
        by_cases hseen : p.name ∈ seen
        · dsimp only
          rw [if_pos (List.contains_iff_mem.mpr hseen)]
          refine ⟨nofun, ?_⟩
          rintro ⟨hmap, -, hnew⟩
          have hq : p = q := by simpa [hp] using (List.cons.inj hmap).1
          exact absurd hseen (hq ▸ hnew q List.mem_cons_self)
        · simp only [List.contains_iff_mem, hseen, if_false, Option.map_eq_some_iff]
          constructor
          · rintro ⟨ps', hps, heq⟩
            cases heq
            obtain ⟨hmap, hnodup, hnew⟩ := ih.mp hps
            refine ⟨by simp [hp, hmap], ?_, ?_⟩
            · rw [List.map_cons, List.nodup_cons]
              refine ⟨?_, hnodup⟩
              rintro hmem
              obtain ⟨r, hr, hname⟩ := List.mem_map.mp hmem
              exact hnew r hr (by rw [hname]; exact List.mem_cons_self)
            · intro r hr
              rcases List.mem_cons.mp hr with rfl | hr
              · exact hseen
              · exact fun hmem => hnew r hr (List.mem_cons_of_mem _ hmem)
          · rintro ⟨hmap, hnodup, hnew⟩
            rw [List.map_cons, List.map_cons, hp, List.cons.injEq, Option.some_inj] at hmap
            obtain ⟨rfl, hmap⟩ := hmap
            rw [List.map_cons, List.nodup_cons] at hnodup
            refine ⟨ps, ih.mpr ⟨hmap, hnodup.2, fun r hr hmem => ?_⟩, rfl⟩
            rcases List.mem_cons.mp hmem with heq | hmem
            · exact hnodup.1 (heq ▸ List.mem_map_of_mem hr)
            · exact hnew r (List.mem_cons_of_mem _ hr) hmem

/-- Parameters of distinct names are read from their texts, and nothing else is. -/
theorem parseParameters_texts {tokens : List Bytes} {ps : List EsmtpParameter} :
    parseParameters [] tokens = some ps ↔
      ∃ ws : List WrittenParameter, ws.map WrittenParameter.text = tokens ∧
        ws.map WrittenParameter.read = ps ∧ (ws.map fun w => upperAscii w.name).Nodup := by
  rw [parseParameters_eq_some]
  constructor
  · rintro ⟨hmap, hnodup, -⟩
    induction tokens generalizing ps with
    | nil =>
      cases ps with
      | nil => exact ⟨[], rfl, rfl, List.nodup_nil⟩
      | cons p ps => cases hmap
    | cons token tokens ih =>
      cases ps with
      | nil => cases hmap
      | cons p ps =>
        obtain ⟨hp, hrest⟩ := List.cons.inj hmap
        obtain ⟨w, rfl, rfl⟩ := parseParameter_eq_some.mp hp
        rw [List.map_cons, List.nodup_cons] at hnodup
        obtain ⟨ws, rfl, rfl, hws⟩ := ih hrest hnodup.2
        refine ⟨w :: ws, rfl, rfl, ?_⟩
        rw [List.map_cons, List.nodup_cons]
        refine ⟨fun hmem => hnodup.1 ?_, hws⟩
        rw [List.map_map]
        exact hmem
  · rintro ⟨ws, rfl, rfl, hnodup⟩
    refine ⟨?_, ?_, fun p _ => List.not_mem_nil⟩
    · rw [List.map_map, List.map_map]
      exact List.map_congr_left fun w _ => parseParameter_eq_some.mpr ⟨w, rfl, rfl⟩
    · rw [List.map_map]
      exact hnodup

/-! ## Lines -/

/-- A path between the angle brackets. -/
def IsPath (allowEmptyPath : Bool) (path : Bytes) : Prop :=
  (path = [] → allowEmptyPath = true) ∧ ∀ b ∈ path, 0x20 < b ∧ b ≠ 0x7F ∧ b ≠ 0x3C ∧ b ≠ 0x3E

/-- Spaces and tabs. -/
def IsBlank (s : Bytes) : Prop := ∀ b ∈ s, isAsciiSpace b = true

/-- The parts of a line: the command word, a gap, the path keyword, the path in its brackets, and
    parameters with a gap in front of each. -/
structure PathSpelling (command pathKeyword : Bytes) (allowEmptyPath : Bool) where
  word : Bytes
  gap : Bytes
  keyword : Bytes
  space : Bytes
  path : Bytes
  parameters : List (Bytes × WrittenParameter)
  trailing : Bytes
  word_eq : upperAscii word = upperAscii command
  gap_ne : gap ≠ []
  gap_blank : IsBlank gap
  keyword_eq : upperAscii keyword = upperAscii pathKeyword
  space_blank : IsBlank space
  path_ok : IsPath allowEmptyPath path
  parameter_gap : ∀ p ∈ parameters, p.1 ≠ [] ∧ IsBlank p.1
  trailing_blank : IsBlank trailing
  distinct : (parameters.map fun p => upperAscii p.2.name).Nodup

namespace PathSpelling

variable {command pathKeyword : Bytes} {allowEmptyPath : Bool}

/-- What follows the closing bracket. -/
def tail (s : PathSpelling command pathKeyword allowEmptyPath) : Bytes :=
  Words.spell (s.parameters.map fun p => (p.1, p.2.text)) s.trailing

def line (s : PathSpelling command pathKeyword allowEmptyPath) : Bytes :=
  s.word ++ (s.gap ++ (s.keyword ++ (s.space ++ 0x3C :: (s.path ++ 0x3E :: s.tail))))

def result (s : PathSpelling command pathKeyword allowEmptyPath) : ParsedPathCommand :=
  ⟨s.path, s.parameters.map fun p => p.2.read⟩

theorem isSpelling_tail (s : PathSpelling command pathKeyword allowEmptyPath) :
    Words.IsSpelling isAsciiSpace (s.parameters.map fun p => (p.1, p.2.text)) s.trailing where
  gap := by
    intro w hw
    obtain ⟨p, hp, rfl⟩ := List.mem_map.mp hw
    exact s.parameter_gap p hp
  word := by
    intro w hw
    obtain ⟨p, hp, rfl⟩ := List.mem_map.mp hw
    exact ⟨p.2.text_ne_nil, fun b hb => WrittenParameter.isAsciiSpace_of_mem_text hb⟩
  trailing := s.trailing_blank

theorem parseParameters_tail (s : PathSpelling command pathKeyword allowEmptyPath) :
    parseParameters [] (Words.words isAsciiSpace s.tail) = some s.result.parameters := by
  refine parseParameters_texts.mpr ⟨s.parameters.map Prod.snd, ?_, ?_, ?_⟩
  · rw [tail, Words.words_spell s.isSpelling_tail, List.map_map, List.map_map]
    rfl
  · rw [List.map_map]
    rfl
  · rw [List.map_map]
    exact s.distinct

end PathSpelling

theorem isSpace_of_isAsciiSpace {b : UInt8} (h : isAsciiSpace b = true) : isSpace b = true := by
  rw [isAsciiSpace, Bool.or_eq_true, beq_iff_eq, beq_iff_eq] at h
  rcases h with rfl | rfl
  · decide
  · decide

theorem dropWhile_blank_append {blank s : Bytes} (h : IsBlank blank)
    (hs : s.head?.all (fun b => !isAsciiSpace b) = true) :
    (blank ++ s).dropWhile isAsciiSpace = s := by
  rw [List.dropWhile_append_of_pos h]
  cases s with
  | nil => rfl
  | cons b s => exact List.dropWhile_cons_of_neg (by simpa using hs)

/-- A text that equals a keyword in upper case does not start with a blank either. -/
theorem exists_cons_of_upperAscii {s t : Bytes} (h : upperAscii s = upperAscii t)
    (ht : t.head?.any (fun b => !isAsciiSpace b) = true) :
    ∃ c rest, s = c :: rest ∧ isAsciiSpace c = false := by
  cases t with
  | nil => cases ht
  | cons k t =>
    cases s with
    | nil => cases h
    | cons c s =>
      refine ⟨c, s, rfl, ?_⟩
      rw [← isAsciiSpace_upperAsciiByte c, (List.cons.inj h).1, isAsciiSpace_upperAsciiByte]
      simpa using ht

/-- A line of these parts is read as its path and its parameters. -/
theorem parsePathCommand_line {command pathKeyword : Bytes} {allowEmptyPath : Bool}
    (hkeyword : pathKeyword.head?.any (fun b => !isAsciiSpace b) = true)
    (s : PathSpelling command pathKeyword allowEmptyPath) :
    parsePathCommand s.line command pathKeyword allowEmptyPath = some s.result := by
  obtain ⟨g, gap, hgap⟩ := List.exists_cons_of_ne_nil s.gap_ne
  have hg : isAsciiSpace g = true := s.gap_blank g (by rw [hgap]; exact List.mem_cons_self)
  let bracket := s.space ++ 0x3C :: (s.path ++ 0x3E :: s.tail)
  have hdrop : s.line.drop command.length = s.gap ++ (s.keyword ++ bracket) := by
    rw [← length_eq_of_upperAscii s.word_eq, PathSpelling.line, List.drop_left]
  have htake : s.line.take command.length = s.word := by
    rw [← length_eq_of_upperAscii s.word_eq, PathSpelling.line, List.take_left]
  have hmatch : matchesCommandCi s.line command = true := by
    rw [matchesCommandCi, startsWithCi, htake, hdrop, s.word_eq, beq_self_eq_true, Bool.true_and, hgap]
    exact isSpace_of_isAsciiSpace hg
  have hfirst : (s.keyword ++ bracket).head?.all (fun b => !isAsciiSpace b) = true := by
    obtain ⟨c, rest, hc, hspace⟩ := exists_cons_of_upperAscii s.keyword_eq hkeyword
    rw [hc, List.cons_append]
    exact congrArg (!·) hspace
  have hkeywordAt : (s.gap ++ (s.keyword ++ bracket)).dropWhile isAsciiSpace = s.keyword ++ bracket :=
    dropWhile_blank_append s.gap_blank hfirst
  have hlength := length_eq_of_upperAscii s.keyword_eq
  have hbracket : bracket.dropWhile isAsciiSpace = 0x3C :: (s.path ++ 0x3E :: s.tail) :=
    dropWhile_blank_append s.space_blank rfl
  have hpath : ∀ b ∈ s.path, (b != 0x3E) = true := fun b hb => bne_iff_ne.mpr (s.path_ok.2 b hb).2.2.2
  have htakePath : (s.path ++ 0x3E :: s.tail).takeWhile (· != 0x3E) = s.path := by
    rw [List.takeWhile_append_of_pos hpath]
    simp
  have hdropPath : (s.path ++ 0x3E :: s.tail).dropWhile (· != 0x3E) = 0x3E :: s.tail := by
    rw [List.dropWhile_append_of_pos hpath]
    simp
  have hbad : ¬((!allowEmptyPath && s.path.isEmpty) || s.path.contains 0x3C ||
      s.path.any (fun b => b ≤ 0x20 || b == 0x7F)) = true := by
    simp only [Bool.or_eq_true, Bool.and_eq_true, Bool.not_eq_true', List.isEmpty_iff,
      List.contains_iff_mem, List.any_eq_true, decide_eq_true_eq, beq_iff_eq, not_or]
    refine ⟨⟨?_, fun hmem => (s.path_ok.2 _ hmem).2.2.1 rfl⟩, ?_⟩
    · rintro ⟨hallow, hempty⟩
      rw [s.path_ok.1 hempty] at hallow
      cases hallow
    · rintro ⟨b, hb, hout⟩
      obtain ⟨hlow, hdel, -⟩ := s.path_ok.2 b hb
      rcases hout with hout | hout
      · exact absurd hlow (UInt8.not_lt.mpr hout)
      · exact hdel hout
  have hparameters := s.parseParameters_tail
  unfold parsePathCommand
  dsimp only
  rw [hdrop, hkeywordAt, ← hlength, List.take_left, List.drop_left, hbracket, List.tail_cons,
    htakePath, hdropPath, List.tail_cons, hmatch, s.keyword_eq, if_neg (by decide),
    if_neg (by rw [hgap]; simp [hg]), if_neg (by simp), if_neg (by simp), if_neg (by simp), if_neg hbad,
    if_neg (by rw [PathSpelling.tail, s.isSpelling_tail.head?]; decide)]
  rw [Words.words] at hparameters
  rw [hparameters]
  rfl

theorem dropWhile_ne_of_mem {b : UInt8} {s : Bytes} (h : b ∈ s) :
    s.dropWhile (· != b) = b :: (s.dropWhile (· != b)).tail := by
  induction s with
  | nil => cases h
  | cons c s ih =>
    by_cases hc : c = b
    · subst hc
      rw [List.dropWhile_cons_of_neg (by simp), List.tail_cons]
    · rw [List.dropWhile_cons_of_pos (by simpa using hc)]
      exact ih ((List.mem_cons.mp h).resolve_left (Ne.symm hc))

theorem exists_pairs {written : List (Bytes × Bytes)} {ws : List WrittenParameter}
    (h : ws.map WrittenParameter.text = written.map Prod.snd) :
    ∃ ps : List (Bytes × WrittenParameter),
      ps.map (fun p => (p.1, p.2.text)) = written ∧ ps.map Prod.snd = ws := by
  induction ws generalizing written with
  | nil =>
    cases written with
    | nil => exact ⟨[], rfl, rfl⟩
    | cons w written => cases h
  | cons p ws ih =>
    cases written with
    | nil => cases h
    | cons w written =>
      obtain ⟨hp, hrest⟩ := List.cons.inj h
      obtain ⟨ps, rfl, rfl⟩ := ih hrest
      exact ⟨(w.1, p) :: ps, by rw [List.map_cons, hp], rfl⟩

/-- What follows the closing bracket of a line that is read. -/
theorem exists_tail {rest : Bytes} {ps : List EsmtpParameter}
    (hrest : rest.head?.all isAsciiSpace = true)
    (h : parseParameters [] (Words.words isAsciiSpace rest) = some ps) :
    ∃ (parameters : List (Bytes × WrittenParameter)) (trailing : Bytes),
      (∀ p ∈ parameters, p.1 ≠ [] ∧ IsBlank p.1) ∧ IsBlank trailing ∧
      (parameters.map fun p => upperAscii p.2.name).Nodup ∧
      Words.spell (parameters.map fun p => (p.1, p.2.text)) trailing = rest ∧
      (parameters.map fun p => p.2.read) = ps := by
  obtain ⟨written, trailing, hspelling, rfl⟩ := Words.exists_spelling rest hrest
  rw [Words.words_spell hspelling] at h
  obtain ⟨ws, htexts, rfl, hnodup⟩ := parseParameters_texts.mp h
  obtain ⟨parameters, rfl, rfl⟩ := exists_pairs htexts
  refine ⟨parameters, trailing, ?_, hspelling.trailing, ?_, rfl, ?_⟩
  · intro p hp
    exact hspelling.gap (p.1, p.2.text) (List.mem_map_of_mem hp)
  · rw [List.map_map] at hnodup
    exact hnodup
  · rw [List.map_map]
    rfl

/-- A line that is read was put together from these parts. -/
theorem exists_spelling_of_parsePathCommand {line command pathKeyword : Bytes} {allowEmptyPath : Bool}
    {result : ParsedPathCommand}
    (h : parsePathCommand line command pathKeyword allowEmptyPath = some result) :
    ∃ s : PathSpelling command pathKeyword allowEmptyPath, s.line = line ∧ s.result = result := by
  unfold parsePathCommand at h
  dsimp only at h
  set afterCommand := line.drop command.length with hafter
  set keywordAt := afterCommand.dropWhile isAsciiSpace with hkeywordAt
  set bracketAt := (keywordAt.drop pathKeyword.length).dropWhile isAsciiSpace with hbracketAt
  split at h
  · cases h
  · rename_i hmatch
    split at h
    · cases h
    · rename_i hgap
      split at h
      · cases h
      · rename_i hkeyword
        split at h
        · cases h
        · rename_i hopen
          split at h
          · cases h
          · rename_i hclose
            split at h
            · cases h
            · rename_i hpath
              split at h
              · cases h
              · rename_i htail
                have hword : upperAscii (line.take command.length) = upperAscii command := by
                  rw [Bool.not_eq_true', Bool.not_eq_false, matchesCommandCi, Bool.and_eq_true,
                    startsWithCi, beq_iff_eq] at hmatch
                  exact hmatch.1
                have hline : line.take command.length ++ afterCommand = line := List.take_append_drop ..
                have hkeywordSplit : afterCommand.takeWhile isAsciiSpace ++ keywordAt = afterCommand :=
                  List.takeWhile_append_dropWhile
                have hspaceSplit : (keywordAt.drop pathKeyword.length).takeWhile isAsciiSpace ++ bracketAt =
                    keywordAt.drop pathKeyword.length := List.takeWhile_append_dropWhile
                have hkeywordTake : keywordAt.take pathKeyword.length ++ keywordAt.drop pathKeyword.length =
                    keywordAt := List.take_append_drop ..
                have hbracket : bracketAt = 0x3C :: bracketAt.tail := by
                  cases hb : bracketAt with
                  | nil => simp [hb] at hopen
                  | cons b more =>
                    rw [hb] at hopen
                    simp only [List.head?_cons, bne_iff_ne, ne_eq, not_not, Option.some_inj] at hopen
                    rw [hopen, List.tail_cons]
                have hmem : (0x3E : UInt8) ∈ bracketAt.tail := by simpa using hclose
                have hpathSplit : bracketAt.tail.takeWhile (· != 0x3E) ++
                    bracketAt.tail.dropWhile (· != 0x3E) = bracketAt.tail :=
                  List.takeWhile_append_dropWhile
                have hend : bracketAt.tail.dropWhile (· != 0x3E) =
                    0x3E :: (bracketAt.tail.dropWhile (· != 0x3E)).tail :=
                  dropWhile_ne_of_mem hmem
                obtain ⟨ps, hps, rfl⟩ := Option.map_eq_some_iff.mp h
                obtain ⟨parameters, trailing, hgaps, htrailing, hdistinct, hspell, rfl⟩ :=
                  exists_tail (by simpa using htail) hps
                refine ⟨⟨line.take command.length, afterCommand.takeWhile isAsciiSpace,
                  keywordAt.take pathKeyword.length,
                  (keywordAt.drop pathKeyword.length).takeWhile isAsciiSpace,
                  bracketAt.tail.takeWhile (· != 0x3E), parameters, trailing, hword, ?_,
                  fun b hb => List.mem_takeWhile_imp hb, by simpa using hkeyword,
                  fun b hb => List.mem_takeWhile_imp hb, ?_, hgaps, htrailing, hdistinct⟩, ?_, rfl⟩
                · cases ha : afterCommand with
                  | nil => simp [ha] at hgap
                  | cons b more =>
                    have hb : isAsciiSpace b = true := by simpa [ha] using hgap
                    simp [hb]
                · simp only [Bool.or_eq_true, Bool.and_eq_true, Bool.not_eq_true', List.isEmpty_iff,
                    List.contains_iff_mem, List.any_eq_true, decide_eq_true_eq, beq_iff_eq, not_or] at hpath
                  refine ⟨fun hempty => ?_, fun b hb => ⟨?_, ?_, ?_, ?_⟩⟩
                  · by_contra hallow
                    exact hpath.1.1 ⟨by simpa using hallow, hempty⟩
                  · exact UInt8.not_le.mp fun hle => hpath.2 ⟨b, hb, .inl hle⟩
                  · exact fun heq => hpath.2 ⟨b, hb, .inr heq⟩
                  · exact fun heq => hpath.1.2 (heq ▸ hb)
                  · simpa using List.mem_takeWhile_imp hb
                · rw [PathSpelling.line, PathSpelling.tail]
                  dsimp only
                  rw [hspell, ← hend, hpathSplit, ← hbracket, hspaceSplit, hkeywordTake, hkeywordSplit, hline]

/-! ## The canonical line -/

namespace EsmtpParameter

def text (p : EsmtpParameter) : Bytes :=
  p.name ++ match p.value with
    | none => []
    | some value => 0x3D :: value

end EsmtpParameter

/-- The line with one space where a gap has to be and none elsewhere. -/
def canonicalLine (command pathKeyword : Bytes) (result : ParsedPathCommand) : Bytes :=
  command ++ 0x20 :: (pathKeyword ++ 0x3C :: (result.path ++ 0x3E ::
    result.parameters.flatMap fun p => 0x20 :: p.text))

namespace PathSpelling

variable {command pathKeyword : Bytes} {allowEmptyPath : Bool}

/-- The canonical spelling of the same result. -/
def canonical (s : PathSpelling command pathKeyword allowEmptyPath) :
    PathSpelling command pathKeyword allowEmptyPath where
  word := command
  gap := [0x20]
  keyword := pathKeyword
  space := []
  path := s.path
  parameters := s.parameters.map fun p => ([0x20], p.2.upper)
  trailing := []
  word_eq := rfl
  gap_ne := List.cons_ne_nil _ _
  gap_blank := fun b hb => by rw [List.mem_singleton.mp hb]; rfl
  keyword_eq := rfl
  space_blank := nofun
  path_ok := s.path_ok
  parameter_gap := by
    intro p hp
    obtain ⟨q, -, rfl⟩ := List.mem_map.mp hp
    exact ⟨List.cons_ne_nil _ _, fun b hb => by rw [List.mem_singleton.mp hb]; rfl⟩
  trailing_blank := nofun
  distinct := by
    rw [List.map_map]
    have hnames : s.parameters.map ((fun p : Bytes × WrittenParameter => upperAscii p.2.name) ∘
        fun p => ([0x20], p.2.upper)) = s.parameters.map fun p => upperAscii p.2.name :=
      List.map_congr_left fun p _ => upperAscii_upperAscii p.2.name
    rw [hnames]
    exact s.distinct

theorem canonical_result (s : PathSpelling command pathKeyword allowEmptyPath) :
    s.canonical.result = s.result := by
  simp [canonical, result]

theorem canonical_line (s : PathSpelling command pathKeyword allowEmptyPath) :
    s.canonical.line = canonicalLine command pathKeyword s.result := by
  have htail : s.canonical.tail = s.result.parameters.flatMap fun p => 0x20 :: p.text := by
    simp only [tail, Words.spell, canonical, result, List.map_map, List.flatMap_map, List.append_nil]
    rfl
  rw [line, htail]
  rfl

end PathSpelling

/-- The two commands that carry a path. -/
inductive PathVerb where
  | mail
  | rcpt

namespace PathVerb

def command : PathVerb → Bytes
  | .mail => Json.ascii "MAIL".toList
  | .rcpt => Json.ascii "RCPT".toList

def pathKeyword : PathVerb → Bytes
  | .mail => Json.ascii "FROM:".toList
  | .rcpt => Json.ascii "TO:".toList

/-- Only the reverse path may be empty. -/
def allowEmptyPath : PathVerb → Bool
  | .mail => true
  | .rcpt => false

theorem pathKeyword_head (verb : PathVerb) :
    verb.pathKeyword.head?.any (fun b => !isAsciiSpace b) = true := by
  cases verb <;> decide

end PathVerb

/-- The parser accepts exactly the lines that are spelled from the parts, with the result that the
    parts have, and it reads the canonical line of a result back as the same result. -/
theorem parsePathCommand_grammar (verb : PathVerb) (line : Bytes) (result : ParsedPathCommand) :
    (parsePathCommand line verb.command verb.pathKeyword verb.allowEmptyPath = some result ↔
      ∃ s : PathSpelling verb.command verb.pathKeyword verb.allowEmptyPath,
        s.line = line ∧ s.result = result) ∧
    (parsePathCommand line verb.command verb.pathKeyword verb.allowEmptyPath = some result →
      parsePathCommand (canonicalLine verb.command verb.pathKeyword result) verb.command
        verb.pathKeyword verb.allowEmptyPath = some result) := by
  constructor
  · constructor
    · exact exists_spelling_of_parsePathCommand
    · rintro ⟨s, rfl, rfl⟩
      exact parsePathCommand_line verb.pathKeyword_head s
  · intro h
    obtain ⟨s, -, rfl⟩ := exists_spelling_of_parsePathCommand h
    rw [← s.canonical_line, ← s.canonical_result]
    exact parsePathCommand_line verb.pathKeyword_head s.canonical

theorem parsePathCommand_grammar_size :
    parsePathCommand (canonicalLine PathVerb.mail.command PathVerb.mail.pathKeyword
        ⟨Json.ascii "a@b".toList, [⟨Json.ascii "SIZE".toList, some (Json.ascii "10".toList)⟩]⟩)
      PathVerb.mail.command PathVerb.mail.pathKeyword PathVerb.mail.allowEmptyPath =
    some ⟨Json.ascii "a@b".toList, [⟨Json.ascii "SIZE".toList, some (Json.ascii "10".toList)⟩]⟩ :=
  (parsePathCommand_grammar .mail (Json.ascii "mail \t from: <a@b>  size=10 ".toList) _).2
    (by decide +kernel)

end SmtpSession
end RapidInbox
