import RapidInbox.Mime.FieldRoundTrip

/-!
# Entities read back

The header block and the body of an entity that was written line by line, the fields of a leaf, and
the parts between the delimiters of a multipart body.
-/

namespace RapidInbox
namespace Mime

/-! ## Header block and body -/

theorem splitAtBlankLine_lines {header : List Bytes} (h : ∀ line ∈ header, trim line ≠ [])
    (rest : List (Bytes × Bool)) :
    splitAtBlankLine (header.map (fun line => (line, true)) ++ ([], true) :: rest) =
      (unlines header, joinLines rest) := by
  induction header with
  | nil => exact if_pos rfl
  | cons line header ih =>
    rw [List.map_cons, List.cons_append, splitAtBlankLine, if_neg (h line List.mem_cons_self),
      ih fun line' hmem => h line' (List.mem_cons_of_mem _ hmem)]
    simp [lineText]

/-- The first blank line separates header and body. -/
theorem splitHeaderBody_lines {header : List Bytes}
    (h : ∀ line ∈ header, lineFeed ∉ line ∧ trim line ≠ []) (body : Bytes) :
    splitHeaderBody (unlines header ++ lineFeed :: body) = (unlines header, body) := by
  rw [splitHeaderBody, splitLines_unlines_append fun line hmem => (h line hmem).1]
  have hblank : splitLines (lineFeed :: body) = ([], true) :: splitLines body := if_pos rfl
  rw [hblank, splitAtBlankLine_lines fun line hmem => (h line hmem).2, joinLines_splitLines]

/-- A field name: no white space, no colon. -/
def IsFieldName (name : Bytes) : Prop :=
  name ≠ [] ∧ ∀ ch ∈ name, asciiSpace ch = false ∧ ch ≠ 0x3A

instance (name : Bytes) : Decidable (IsFieldName name) := inferInstanceAs (Decidable (_ ∧ _))

theorem isFieldName_of_all {name : Bytes} (hne : name ≠ [])
    (h : name.all fun ch => !asciiSpace ch && ch != 0x3A) : IsFieldName name :=
  ⟨hne, fun ch hch => by simpa using List.all_eq_true.mp h ch hch⟩

theorem headerField_headerLine {field : Bytes × Bytes} (h : IsFieldName field.1) :
    headerField (headerLine field) = some (field.1, trim field.2) := by
  have hcolon : (0x3A : UInt8) ∉ field.1 := fun hmem => (h.2 _ hmem).2 rfl
  have htrim : trim field.1 = field.1 := trim_of_noSpace fun ch hch => (h.2 ch hch).1
  rw [headerField, headerLine, Lines.split?_line hcolon, Option.map_some]
  simp only [htrim, trim_space]

theorem isLwsp_of_not_asciiSpace {ch : UInt8} (h : asciiSpace ch = false) : isLwsp ch = false := by
  simp only [asciiSpace, Bool.or_eq_false_iff] at h
  rw [isLwsp, h.1, Bool.false_or]
  by_contra hne
  rw [Bool.not_eq_false, beq_iff_eq] at hne
  rw [hne] at h
  exact nomatch h.2

/-- The first byte of a header line does not fold it. -/
theorem headerLine_eq_cons {field : Bytes × Bytes} (h : IsFieldName field.1) :
    ∃ ch text, headerLine field = ch :: text ∧ asciiSpace ch = false := by
  cases hname : field.1 with
  | nil => exact absurd hname h.1
  | cons ch name =>
    refine ⟨ch, name ++ 0x3A :: 0x20 :: field.2, ?_, (h.2 ch (hname ▸ List.mem_cons_self)).1⟩
    rw [headerLine, hname]
    rfl

/-- Fields with their values trimmed. -/
def parsedFields (fields : HeaderBlock) : HeaderBlock := fields.map fun f => (f.1, trim f.2)

theorem headerFields_headerLines {fields : HeaderBlock} (h : ∀ f ∈ fields, IsFieldName f.1)
    (current : Option (Bytes × Bytes)) :
    headerFields current ((fields.map headerLine).map (fun line => (line, true)) ++ [([], false)]) =
      current.toList ++ parsedFields fields := by
  induction fields generalizing current with
  | nil => cases current <;> rfl
  | cons field fields ih =>
    have hname := h field List.mem_cons_self
    have ih := ih (fun f hf => h f (List.mem_cons_of_mem _ hf)) (some (field.1, trim field.2))
    obtain ⟨ch, text, hline, hspace⟩ := headerLine_eq_cons hname
    have hfield := headerField_headerLine hname
    rw [hline] at hfield
    rw [List.map_cons, List.map_cons, List.cons_append, hline]
    cases current with
    | none =>
      rw [headerFields]
      simp only [hfield]
      exact ih
    | some previous =>
      rw [headerFields]
      simp only [isLwsp_of_not_asciiSpace hspace, Bool.false_eq_true, if_false, hfield]
      rw [ih]
      rfl

/-- A written header block is read back field by field. -/
theorem parseHeaders_headerLines {fields : HeaderBlock} (hname : ∀ f ∈ fields, IsFieldName f.1)
    (hline : ∀ f ∈ fields, lineFeed ∉ headerLine f) :
    parseHeaders (unlines (fields.map headerLine)) = parsedFields fields := by
  rw [parseHeaders, splitLines_unlines, headerFields_headerLines hname none]
  · rfl
  · intro line hmem
    obtain ⟨f, hf, rfl⟩ := List.mem_map.mp hmem
    exact hline f hf

theorem trim_headerLine_ne_nil {field : Bytes × Bytes} (h : IsFieldName field.1) :
    trim (headerLine field) ≠ [] := by
  obtain ⟨ch, text, hline, hspace⟩ := headerLine_eq_cons h
  rw [hline]
  exact trim_ne_nil List.mem_cons_self hspace

/-! ## Lookups -/

theorem headerValue_append (headers more : HeaderBlock) (name : Bytes) :
    headerValue (headers ++ more) name = (headerValue headers name).or (headerValue more name) := by
  rw [headerValue, List.find?_append, headerValue, headerValue]
  cases List.find? (fun h => decide (lowerAscii h.1 = lowerAscii name)) headers <;> rfl

/-- The lookup of a field in a block that has it at most once. -/
theorem headerValue_optional (name : Bytes) (value : Option Bytes) (wanted : Bytes) :
    headerValue (parsedFields (value.map fun v => (name, v)).toList) wanted =
      if lowerAscii name = lowerAscii wanted then value.map trim else none := by
  cases value with
  | none => simp [parsedFields, headerValue]
  | some value =>
    by_cases h : lowerAscii name = lowerAscii wanted <;> simp [parsedFields, headerValue, h]

theorem parsedFields_append (fields more : HeaderBlock) :
    parsedFields (fields ++ more) = parsedFields fields ++ parsedFields more :=
  List.map_append

/-- A trimmed text is a part of the text. -/
theorem trim_isPart (text : Bytes) : trim text <:+: text :=
  (List.rdropWhile_prefix asciiSpace _).isInfix.trans (List.dropWhile_suffix asciiSpace).isInfix

theorem noEncodedWord_trim {text : Bytes} (h : NoEncodedWord text) : NoEncodedWord (trim text) :=
  fun hpart => h (hpart.trans (trim_isPart text))

/-- A parameter of a field without `=?` has none either. -/
theorem noEncodedWord_parameter {text key : Bytes} {value : Option Bytes}
    (h : NoEncodedWord (text ++ parameterText key value)) : ∀ v ∈ value, NoEncodedWord v := by
  rintro v rfl
  have hsplit : text ++ parameterText key (some v) =
      (text ++ (ascii "; " ++ key ++ [0x3D])) ++ quoteParameter v ++ [] := by
    simp [parameterText]
  rw [hsplit] at h
  exact noEncodedWord_of_quoteParameter h

/-! ## Values -/

theorem lowerAscii_ne_nil {text : Bytes} (h : IsToken text) : lowerAscii text ≠ [] := by
  rw [lowerAscii, ne_eq, List.map_eq_nil_iff]
  exact h.1

/-- The parameter that was written is found under its key. -/
theorem nonemptyParameter_written (text key : Bytes) {value : Option Bytes} (h : IsQuotable value) :
    nonemptyParameter ⟨text, (value.map fun v => (lowerAscii key, v)).toList⟩ key = value := by
  cases value with
  | none => rfl
  | some value =>
    have hne := (h value rfl).1
    simp [nonemptyParameter, parameterValue, Option.filter, hne]

theorem decodeCharset_utf8 (P : MimePlatform) (bytes : Bytes) :
    decodeCharset P bytes (ascii "UTF-8") = bytes := by
  rw [decodeCharset, if_pos (by decide : normalizedCharsetName (ascii "UTF-8") = ascii "UTF-8"),
    ite_self]

/-! ## Line breaks -/

theorem noLineBreak_append {text more : Bytes} :
    NoLineBreak (text ++ more) ↔ NoLineBreak text ∧ NoLineBreak more := by
  simp only [NoLineBreak, List.mem_append, not_or]
  exact ⟨fun h => ⟨⟨h.1.1, h.2.1⟩, h.1.2, h.2.2⟩, fun h => ⟨⟨h.1.1, h.2.1⟩, h.1.2, h.2.2⟩⟩

theorem noLineBreak_headerLine {name value : Bytes} (hname : NoLineBreak name)
    (hvalue : NoLineBreak value) : NoLineBreak (headerLine (name, value)) := by
  have hsplit : headerLine (name, value) = name ++ [0x3A, 0x20] ++ value := by
    simp [headerLine]
  rw [hsplit, noLineBreak_append, noLineBreak_append]
  exact ⟨⟨hname, by decide⟩, hvalue⟩

theorem noLineBreak_token {text : Bytes} (h : IsToken text) : NoLineBreak text := by
  constructor
  · intro hmem
    exact absurd (h.2 _ hmem).1 (by decide)
  · intro hmem
    exact absurd (h.2 _ hmem).1 (by decide)

theorem noLineBreak_quoteParameter {value : Bytes} (h : NoLineBreak value) :
    NoLineBreak (quoteParameter value) := by
  have hescape : ∀ ch, ch ∉ value → ch ≠ 0x22 → ch ≠ 0x5C → ch ∉ quoteParameter value := by
    intro ch hmem hquote hslash hch
    rw [quoteParameter, List.mem_append, List.mem_cons, List.mem_flatMap, List.mem_singleton] at hch
    rcases hch with (rfl | ⟨x, hx, hch⟩) | rfl
    · exact hquote rfl
    · rw [escapeQuoted] at hch
      split at hch
      · rcases List.mem_cons.mp hch with rfl | hch
        · exact hslash rfl
        · exact hmem (List.mem_singleton.mp hch ▸ hx)
      · exact hmem (List.mem_singleton.mp hch ▸ hx)
    · exact hquote rfl
  exact ⟨hescape _ h.1 (by decide) (by decide), hescape _ h.2 (by decide) (by decide)⟩

theorem noLineBreak_parameterText {text key : Bytes} {value : Option Bytes} (htext : IsToken text)
    (hkey : NoLineBreak key) (hvalue : IsQuotable value) :
    NoLineBreak (text ++ parameterText key value) := by
  rw [noLineBreak_append]
  refine ⟨noLineBreak_token htext, ?_⟩
  cases value with
  | none => exact ⟨List.not_mem_nil, List.not_mem_nil⟩
  | some value =>
    have hsplit : parameterText key (some value) =
        ascii "; " ++ key ++ [0x3D] ++ quoteParameter value := by
      simp [parameterText]
    rw [hsplit, noLineBreak_append, noLineBreak_append, noLineBreak_append]
    exact ⟨⟨⟨by decide, hkey⟩, by decide⟩, noLineBreak_quoteParameter (hvalue value rfl).2⟩

end Mime

open Mime

namespace MimeLeaf

/-! ## The fields of a leaf -/

/-- The value written for the content type. -/
def contentTypeText (l : MimeLeaf) : Bytes := l.contentType ++ parameterText (ascii "name") l.name

/-- The value written for a disposition. -/
def dispositionText (d : Bytes × Option Bytes) : Bytes := d.1 ++ parameterText (ascii "filename") d.2

theorem fields_eq (l : MimeLeaf) : l.fields =
    ((some l.contentTypeText).map fun v => (ascii "Content-Type", v)).toList ++
      ((l.disposition.map dispositionText).map fun v => (ascii "Content-Disposition", v)).toList ++
      (l.contentId.map fun v => (ascii "Content-ID", v)).toList ++
      (l.transferEncoding.map fun v => (ascii "Content-Transfer-Encoding", v)).toList := by
  rw [fields, Option.map_map]
  rfl

theorem headerValue_fields (l : MimeLeaf) (wanted : Bytes) :
    headerValue (parsedFields l.fields) wanted =
      (((if lowerAscii (ascii "Content-Type") = lowerAscii wanted then
            (some l.contentTypeText).map trim else none).or
          (if lowerAscii (ascii "Content-Disposition") = lowerAscii wanted then
            (l.disposition.map dispositionText).map trim else none)).or
        (if lowerAscii (ascii "Content-ID") = lowerAscii wanted then l.contentId.map trim else none)).or
      (if lowerAscii (ascii "Content-Transfer-Encoding") = lowerAscii wanted then
        l.transferEncoding.map trim else none) := by
  rw [fields_eq, parsedFields_append, parsedFields_append, parsedFields_append, headerValue_append,
    headerValue_append, headerValue_append, headerValue_optional, headerValue_optional,
    headerValue_optional, headerValue_optional]

theorem headerValue_contentType (l : MimeLeaf) :
    headerValue (parsedFields l.fields) (ascii "Content-Type") = some (trim l.contentTypeText) := by
  rw [headerValue_fields, if_pos rfl]
  rfl

theorem headerValue_contentDisposition (l : MimeLeaf) :
    headerValue (parsedFields l.fields) (ascii "Content-Disposition") =
      (l.disposition.map dispositionText).map trim := by
  rw [headerValue_fields, if_neg (by decide), if_pos rfl, if_neg (by decide), if_neg (by decide)]
  simp

theorem headerValue_contentId (l : MimeLeaf) :
    headerValue (parsedFields l.fields) (ascii "Content-ID") = l.contentId.map trim := by
  rw [headerValue_fields, if_neg (by decide), if_neg (by decide), if_pos rfl, if_neg (by decide)]
  simp

/-! ## What the leaf says -/

/-- The content type, in lower case. -/
def mediaType (l : MimeLeaf) : Bytes := lowerAscii l.contentType

/-- The disposition, in lower case. -/
def dispositionType (l : MimeLeaf) : Option Bytes := l.disposition.map fun d => lowerAscii d.1

/-- The file name of the disposition, else the name of the content type. -/
def filename (l : MimeLeaf) : Option Bytes := (l.disposition.bind Prod.snd).or l.name

/-- The body, decoded as the leaf says. -/
def content (l : MimeLeaf) : Bytes := decodeTransferBody (unlines l.body) (parsedFields l.fields)

variable {l : MimeLeaf}

theorem WellFormed.contentType_read (h : l.WellFormed) (P : MimePlatform) :
    contentTypeFor P (parsedFields l.fields) =
      ⟨l.mediaType, (l.name.map fun v => (ascii "name", v)).toList⟩ := by
  have hvalue : NoEncodedWord l.contentTypeText := h.values (_, _) List.mem_cons_self
  have hparsed := parseParameterizedHeader_parameterText P (ascii "name") h.contentType
    (isToken_of_all (by decide) (by decide)) (by decide) (by decide)
    (noEncodedWord_parameter hvalue)
  have hne : lowerAscii l.contentType ≠ [] := by
    rw [lowerAscii, ne_eq, List.map_eq_nil_iff]
    exact h.contentType.1
  rw [contentTypeFor, headerValue_contentType, Option.getD_some, contentTypeText,
    trim_parameterText h.contentType, hparsed, if_neg hne]
  rfl

theorem mem_fields_disposition {d : Bytes × Option Bytes} (hd : l.disposition = some d) :
    (ascii "Content-Disposition", dispositionText d) ∈ l.fields := by
  rw [fields_eq, hd]
  simp

theorem mem_fields_contentId {id : Bytes} (hid : l.contentId = some id) :
    (ascii "Content-ID", id) ∈ l.fields := by
  rw [fields_eq, hid]
  simp

theorem WellFormed.disposition_read (h : l.WellFormed) (P : MimePlatform) :
    contentDispositionFor P (parsedFields l.fields) =
      l.disposition.map fun d =>
        ⟨lowerAscii d.1, (d.2.map fun v => (ascii "filename", v)).toList⟩ := by
  rw [contentDispositionFor, headerValue_contentDisposition]
  cases hd : l.disposition with
  | none => rfl
  | some d =>
    have htoken := (h.disposition d hd).1
    have hvalue : NoEncodedWord (dispositionText d) := h.values (_, _) (mem_fields_disposition hd)
    have hparsed := parseParameterizedHeader_parameterText P (ascii "filename") htoken
      (isToken_of_all (by decide) (by decide)) (by decide) (by decide)
      (noEncodedWord_parameter hvalue)
    simp only [Option.map_some, dispositionText, trim_parameterText htoken, hparsed,
      if_neg (lowerAscii_ne_nil htoken)]

theorem WellFormed.contentId_read (h : l.WellFormed) (P : MimePlatform) :
    decodedHeaderValue P (parsedFields l.fields) (ascii "Content-ID") = l.contentId.map trim := by
  rw [decodedHeaderValue, headerValue_contentId]
  cases hid : l.contentId with
  | none => rfl
  | some id =>
    have hvalue : NoEncodedWord id := h.values (_, _) (mem_fields_contentId hid)
    rw [Option.map_some, Option.map_some, decodeWords_eq_self P (noEncodedWord_trim hvalue)]

theorem WellFormed.filename_read (h : l.WellFormed) (P : MimePlatform) :
    partFilename (contentTypeFor P (parsedFields l.fields))
      (contentDispositionFor P (parsedFields l.fields)) = l.filename := by
  have hname : nonemptyParameter ⟨l.mediaType, (l.name.map fun v => (ascii "name", v)).toList⟩
      (ascii "name") = l.name :=
    nonemptyParameter_written l.mediaType (ascii "name") h.name
  rw [h.contentType_read, h.disposition_read, partFilename, hname, filename]
  cases hd : l.disposition with
  | none => rfl
  | some d =>
    have hfilename : nonemptyParameter
        ⟨lowerAscii d.1, (d.2.map fun v => (ascii "filename", v)).toList⟩ (ascii "filename") = d.2 :=
      nonemptyParameter_written (lowerAscii d.1) (ascii "filename") (h.disposition d hd).2
    simp only [Option.map_some, Option.bind_some, hfilename]

/-- No character set is written, so the text is taken as UTF-8. -/
theorem WellFormed.charset_read (h : l.WellFormed) (P : MimePlatform) :
    parameterValue (contentTypeFor P (parsedFields l.fields)) (ascii "charset") = none := by
  rw [h.contentType_read]
  cases l.name with
  | none => rfl
  | some name => rfl

/-- The names of the fields. -/
theorem isFieldName_of_mem {f : Bytes × Bytes} (hf : f ∈ l.fields) : IsFieldName f.1 := by
  rw [fields_eq] at hf
  simp only [List.mem_append, Option.mem_toList, Option.map_eq_some_iff] at hf
  rcases hf with ((⟨_, -, rfl⟩ | ⟨_, -, rfl⟩) | ⟨_, -, rfl⟩) | ⟨_, -, rfl⟩
  · exact (isFieldName_of_all (by decide) (by decide) : IsFieldName (ascii "Content-Type"))
  · exact (isFieldName_of_all (by decide) (by decide) : IsFieldName (ascii "Content-Disposition"))
  · exact (isFieldName_of_all (by decide) (by decide) : IsFieldName (ascii "Content-ID"))
  · exact (isFieldName_of_all (by decide) (by decide) : IsFieldName (ascii "Content-Transfer-Encoding"))

/-- A written field stands on one line. -/
theorem WellFormed.noLineBreak_of_mem (h : l.WellFormed) {f : Bytes × Bytes} (hf : f ∈ l.fields) :
    NoLineBreak (headerLine f) := by
  rw [fields_eq] at hf
  simp only [List.mem_append, Option.mem_toList, Option.map_eq_some_iff] at hf
  rcases hf with ((⟨_, heq, rfl⟩ | ⟨_, heq, rfl⟩) | ⟨_, heq, rfl⟩) | ⟨_, heq, rfl⟩
  · cases heq
    exact noLineBreak_headerLine (by decide) (noLineBreak_parameterText h.contentType (by decide) h.name)
  · obtain ⟨d, hd, rfl⟩ := heq
    obtain ⟨htoken, hfilename⟩ := h.disposition d hd
    exact noLineBreak_headerLine (by decide) (noLineBreak_parameterText htoken (by decide) hfilename)
  · exact noLineBreak_headerLine (by decide) (h.contentId _ heq)
  · exact noLineBreak_headerLine (by decide) (h.transferEncoding _ heq)

end MimeLeaf
end RapidInbox
