import RapidInbox.Mime.EntityRoundTrip

/-!
# Trees read back

The recursion of the parser over a written tree: it visits the leaves in order, each with the headers
and the body that were written for it.
-/

namespace RapidInbox

open Mime

namespace Mime

/-! ## Delimiters -/

variable {boundary : Bytes}

theorem trimTrailingLwsp_concat (text : Bytes) {more : Bytes} (hne : more ≠ [])
    (hlast : ∀ ch ∈ more.getLast?, isLwsp ch = false) :
    trimTrailingLwsp (text ++ more) = text ++ more := by
  apply rdropWhile_eq_self
  intro ch hch
  rw [List.getLast?_append_of_ne_nil _ hne] at hch
  exact hlast ch hch

/-- The delimiters are not changed by trimming. -/
theorem trimTrailingLwsp_delimiters {subtype : Bytes} (h : WellFormedMultipart subtype boundary) :
    trimTrailingLwsp (delimiter boundary) = delimiter boundary ∧
      trimTrailingLwsp (closingDelimiter boundary) = closingDelimiter boundary :=
  ⟨trimTrailingLwsp_concat _ h.boundary_ne h.boundary_last,
    trimTrailingLwsp_concat _ (by decide) (by simp [ascii, Json.ascii, isLwsp])⟩

theorem delimiter_ne_closing (boundary : Bytes) : delimiter boundary ≠ closingDelimiter boundary := by
  intro h
  have hlength := congrArg List.length h
  simp [closingDelimiter, ascii, Json.ascii] at hlength

/-! ## Parts -/

/-- Lines that are no delimiters belong to the current part. -/
theorem collectParts_lines {lines : List Bytes} (h : ∀ line ∈ lines, ¬ IsDelimiterLine boundary line)
    (current : Bytes) (rest : List (Bytes × Bool)) :
    collectParts boundary (some current) (lines.map (fun line => (line, true)) ++ rest) =
      collectParts boundary (some (current ++ unlines lines)) rest := by
  induction lines generalizing current with
  | nil => rw [unlines_nil, List.append_nil]; rfl
  | cons line lines ih =>
    have hline := h line List.mem_cons_self
    rw [IsDelimiterLine, not_or] at hline
    rw [List.map_cons, List.cons_append, collectParts]
    simp only [delimiter, closingDelimiter] at hline
    rw [if_neg hline.2, if_neg hline.1, Option.map_some,
      ih fun line' hmem => h line' (List.mem_cons_of_mem _ hmem)]
    simp [lineText]

/-- The parts that were written between the delimiters are collected. -/
theorem collectParts_partLines {subtype : Bytes} (hmultipart : WellFormedMultipart subtype boundary)
    {parts : List MimeTree} (h : MimeTree.AllWellFormed boundary parts) (current : Option Bytes)
    (rest : List (Bytes × Bool)) :
    collectParts boundary current
        ((MimeTree.partLines boundary parts).map (fun line => (line, true)) ++ rest) =
      some (current.toList ++ parts.map fun p => unlines p.lines) := by
  obtain ⟨hdelimiter, hclosing⟩ := trimTrailingLwsp_delimiters hmultipart
  induction parts generalizing current with
  | nil =>
    rw [MimeTree.partLines, List.map_cons, List.cons_append, collectParts, hclosing]
    simp [closingDelimiter, delimiter]
  | cons p parts ih =>
    obtain ⟨-, hlines, hparts⟩ := h
    have hne := delimiter_ne_closing boundary
    rw [MimeTree.partLines, List.cons_append, List.map_cons, List.cons_append, collectParts,
      hdelimiter]
    simp only [delimiter, closingDelimiter] at hne ⊢
    rw [if_neg hne, if_pos trivial, List.map_append, List.append_assoc, collectParts_lines hlines,
      ih hparts]
    simp

end Mime

namespace MimeTree

/-! ## The lines of a tree -/

/-- The header fields of an entity. -/
def fields : MimeTree → HeaderBlock
  | .leaf l => l.fields
  | .multipart subtype boundary _ => multipartFields subtype boundary

/-- The lines behind the blank line. -/
def bodyLines : MimeTree → List Bytes
  | .leaf l => l.body
  | .multipart _ boundary parts => partLines boundary parts

theorem lines_eq (t : MimeTree) : t.lines = t.fields.map headerLine ++ [] :: t.bodyLines := by
  cases t <;> rfl

theorem unlines_lines (t : MimeTree) :
    unlines t.lines = unlines (t.fields.map headerLine) ++ lineFeed :: unlines t.bodyLines := by
  rw [lines_eq, unlines_append, unlines_cons]
  rfl

theorem isToken_multipart {subtype boundary : Bytes} (h : WellFormedMultipart subtype boundary) :
    IsToken (ascii "multipart/" ++ subtype) := by
  refine ⟨nofun, fun ch hch => ?_⟩
  rcases List.mem_append.mp hch with hch | hch
  · have hmain : IsToken (ascii "multipart/") := isToken_of_all (by decide) (by decide)
    exact hmain.2 ch hch
  · rcases h.subtype with rfl | htoken
    · exact nomatch hch
    · exact htoken.2 ch hch

theorem isFieldName_of_mem {t : MimeTree} {f : Bytes × Bytes} (hf : f ∈ t.fields) :
    IsFieldName f.1 := by
  cases t with
  | leaf l => exact MimeLeaf.isFieldName_of_mem hf
  | multipart subtype boundary parts =>
    cases List.mem_singleton.mp hf
    exact (isFieldName_of_all (by decide) (by decide) : IsFieldName (ascii "Content-Type"))

theorem WellFormed.noLineBreak_field {t : MimeTree} (h : t.WellFormed) {f : Bytes × Bytes}
    (hf : f ∈ t.fields) : NoLineBreak (headerLine f) := by
  cases t with
  | leaf l => exact MimeLeaf.WellFormed.noLineBreak_of_mem h hf
  | multipart subtype boundary parts =>
    cases List.mem_singleton.mp hf
    refine noLineBreak_headerLine (by decide)
      (noLineBreak_parameterText (isToken_multipart h.1) (by decide) ?_)
    rintro value ⟨⟩
    exact ⟨h.1.boundary_ne, h.1.boundary_line⟩

/-- No line of a tree contains a line break. -/
theorem WellFormed.noLineBreak {t : MimeTree} (h : t.WellFormed) : ∀ line ∈ t.lines, NoLineBreak line := by
  induction t using MimeTree.induction with
  | hleaf l =>
    intro line hline
    rw [lines_eq, List.mem_append, List.mem_cons] at hline
    rcases hline with hline | rfl | hline
    · obtain ⟨f, hf, rfl⟩ := List.mem_map.mp hline
      exact h.noLineBreak_field hf
    · exact ⟨List.not_mem_nil, List.not_mem_nil⟩
    · exact MimeLeaf.WellFormed.body h line hline
  | hmultipart subtype boundary parts ih =>
    have hparts := allWellFormed_iff.mp h.2
    intro line hline
    rw [lines_eq, List.mem_append, List.mem_cons] at hline
    rcases hline with hline | rfl | hline
    · obtain ⟨f, hf, rfl⟩ := List.mem_map.mp hline
      exact h.noLineBreak_field hf
    · exact ⟨List.not_mem_nil, List.not_mem_nil⟩
    · exact noLineBreak_partLines h.1.boundary_line (fun p hp => ih p hp (hparts p hp).1) line hline
where
  noLineBreak_partLines {boundary : Bytes} (hboundary : NoLineBreak boundary) {parts : List MimeTree}
      (h : ∀ p ∈ parts, ∀ line ∈ p.lines, NoLineBreak line) :
      ∀ line ∈ partLines boundary parts, NoLineBreak line := by
    have hdelimiter : NoLineBreak (delimiter boundary) :=
      noLineBreak_append.mpr ⟨by decide, hboundary⟩
    induction parts with
    | nil =>
      intro line hline
      rw [partLines, List.mem_singleton] at hline
      rw [hline]
      exact noLineBreak_append.mpr ⟨hdelimiter, by decide⟩
    | cons p parts ih =>
      intro line hline
      rw [partLines, List.cons_append, List.mem_cons, List.mem_append] at hline
      rcases hline with rfl | hline | hline
      · exact hdelimiter
      · exact h p List.mem_cons_self line hline
      · exact ih (fun q hq => h q (List.mem_cons_of_mem _ hq)) line hline

/-! ## Reading an entity -/

/-- Header block and body of a written entity. -/
theorem WellFormed.splitHeaderBody {t : MimeTree} (h : t.WellFormed) :
    Mime.splitHeaderBody (unlines t.lines) =
      (unlines (t.fields.map headerLine), unlines t.bodyLines) := by
  rw [unlines_lines]
  refine splitHeaderBody_lines ?_ _
  intro line hline
  obtain ⟨f, hf, rfl⟩ := List.mem_map.mp hline
  exact ⟨(h.noLineBreak_field hf).2, trim_headerLine_ne_nil (isFieldName_of_mem hf)⟩

theorem WellFormed.parseHeaders {t : MimeTree} (h : t.WellFormed) :
    Mime.parseHeaders (unlines (t.fields.map headerLine)) = parsedFields t.fields :=
  parseHeaders_headerLines (fun _ hf => isFieldName_of_mem hf) fun _ hf => (h.noLineBreak_field hf).2

/-- The content type of a written multipart entity. -/
theorem contentType_multipart (P : MimePlatform) {subtype boundary : Bytes}
    (h : WellFormedMultipart subtype boundary) :
    contentTypeFor P (parsedFields (multipartFields subtype boundary)) =
      ⟨lowerAscii (ascii "multipart/" ++ subtype), [(ascii "boundary", boundary)]⟩ := by
  have htoken := isToken_multipart h
  have hvalue : ∀ v ∈ some boundary, NoEncodedWord v := by
    rintro v ⟨⟩
    exact h.value
  have hparsed := parseParameterizedHeader_parameterText P (ascii "boundary") htoken
    (isToken_of_all (by decide) (by decide)) (by decide) (by decide) hvalue
  have hheader : headerValue (parsedFields (multipartFields subtype boundary)) (ascii "Content-Type") =
      some (ascii "multipart/" ++ subtype ++ parameterText (ascii "boundary") (some boundary)) :=
    congrArg some (trim_parameterText htoken _ _)
  rw [contentTypeFor, hheader, Option.getD_some, hparsed, if_neg (lowerAscii_ne_nil htoken)]
  rfl

theorem startsWithIgnoreCase_multipart (subtype : Bytes) :
    startsWithIgnoreCase (lowerAscii (ascii "multipart/" ++ subtype)) (ascii "multipart/") = true := by
  have hlower : lowerAscii (ascii "multipart/" ++ subtype) = ascii "multipart/" ++ lowerAscii subtype :=
    List.map_append
  rw [hlower, startsWithIgnoreCase, List.take_left]
  simp

/-- Lower case does not make a multipart type of another one. -/
theorem startsWithIgnoreCase_lowerAscii (value start : Bytes) :
    startsWithIgnoreCase (lowerAscii value) start = startsWithIgnoreCase value start := by
  have hidempotent : ∀ ch, toLower (toLower ch) = toLower ch := by
    intro ch
    have hall : ∀ n < 256, toLower (toLower (UInt8.ofNat n)) = toLower (UInt8.ofNat n) := by
      decide +kernel
    have := hall ch.toNat ch.toNat_lt
    rwa [UInt8.ofNat_toNat] at this
  have hlower : ∀ text, lowerAscii (lowerAscii text) = lowerAscii text := by
    intro text
    simp [lowerAscii, hidempotent]
  have htake : (lowerAscii value).take start.length = lowerAscii (value.take start.length) :=
    (List.map_take ..).symm
  rw [startsWithIgnoreCase, startsWithIgnoreCase, htake, hlower, lowerAscii, List.length_map]

/-- The parts of a written multipart body. -/
theorem splitMultipartBody_partLines {subtype boundary : Bytes} {parts : List MimeTree}
    (h : (MimeTree.multipart subtype boundary parts).WellFormed) :
    splitMultipartBody (unlines (partLines boundary parts)) boundary =
      .ok (parts.map fun p => unlines p.lines) := by
  have hlines : ∀ line ∈ partLines boundary parts, lineFeed ∉ line := by
    intro line hline
    have hmem : line ∈ (MimeTree.multipart subtype boundary parts).lines := by
      rw [lines_eq]
      exact List.mem_append_right _ (List.mem_cons_of_mem _ hline)
    exact (h.noLineBreak line hmem).2
  rw [splitMultipartBody, splitLines_unlines hlines, collectParts_partLines h.1 h.2]
  rfl

/-- What the parser does with a leaf. -/
def visit (P : MimePlatform) (context : ParseContext) (l : MimeLeaf) : ParseContext :=
  parseLeaf P (parsedFields l.fields) (contentTypeFor P (parsedFields l.fields)) (unlines l.body) context

/-- The top-level headers are taken from the root. -/
def enter (P : MimePlatform) (t : MimeTree) (context : ParseContext) (root : Bool) : ParseContext :=
  if root then { context with mail := assignTopLevelHeaders P (parsedFields t.fields) context.mail }
  else context

theorem length_unlines_lt {subtype boundary : Bytes} {parts : List MimeTree} {p : MimeTree}
    (hp : p ∈ parts) :
    (unlines p.lines).length < (unlines (MimeTree.multipart subtype boundary parts).lines).length := by
  have hpart : ∀ parts : List MimeTree, p ∈ parts →
      (unlines p.lines).length ≤ (unlines (partLines boundary parts)).length := by
    intro parts hp
    induction parts with
    | nil => exact nomatch hp
    | cons q parts ih =>
      have hsplit : unlines (partLines boundary (q :: parts)) =
          unlines [delimiter boundary] ++ unlines q.lines ++ unlines (partLines boundary parts) := by
        rw [← unlines_append, ← unlines_append]
        rfl
      rw [hsplit, List.length_append, List.length_append]
      rcases List.mem_cons.mp hp with rfl | hp
      · omega
      · have := ih hp
        omega
  have := hpart parts hp
  rw [unlines_lines (.multipart subtype boundary parts), List.length_append, List.length_cons]
  exact Nat.lt_of_le_of_lt this (by simp only [bodyLines]; omega)

/-- If each part is read as its leaves, all of them are, one after the other. -/
theorem foldlM_parts (P : MimePlatform) {fuel : Nat} {parts : List MimeTree}
    (h : ∀ p ∈ parts, ∀ context, Mime.parseEntity P fuel (unlines p.lines) context false =
      .ok (p.leaves.foldl (visit P) context)) (context : ParseContext) :
    (parts.map fun p => unlines p.lines).foldlM
        (fun context part => Mime.parseEntity P fuel part context false) context =
      .ok ((partLeaves parts).foldl (visit P) context) := by
  induction parts generalizing context with
  | nil => rfl
  | cons p parts ih =>
    rw [List.map_cons, List.foldlM_cons, h p List.mem_cons_self, partLeaves, List.foldl_append]
    exact ih (fun q hq => h q (List.mem_cons_of_mem _ hq)) _

/-- The parser visits the leaves of a written tree in order. -/
theorem WellFormed.parseEntity (P : MimePlatform) {t : MimeTree} (h : t.WellFormed) {fuel : Nat}
    (hfuel : (unlines t.lines).length < fuel) (context : ParseContext) (root : Bool) :
    Mime.parseEntity P fuel (unlines t.lines) context root =
      .ok (t.leaves.foldl (visit P) (enter P t context root)) := by
  induction t using MimeTree.induction generalizing fuel context root with
  | hleaf l =>
    cases fuel with
    | zero => exact absurd hfuel (Nat.not_lt_zero _)
    | succ fuel =>
      have hleaf : l.WellFormed := h
      have hmultipart : startsWithIgnoreCase
          (contentTypeFor P (parsedFields l.fields)).value (ascii "multipart/") = false := by
        rw [hleaf.contentType_read, MimeLeaf.mediaType, startsWithIgnoreCase_lowerAscii]
        exact hleaf.notMultipart
      rw [Mime.parseEntity, h.splitHeaderBody]
      simp only [h.parseHeaders]
      rw [show (MimeTree.leaf l).fields = l.fields from rfl, if_neg (by rw [hmultipart]; decide)]
      rfl
  | hmultipart subtype boundary parts ih =>
    cases fuel with
    | zero => exact absurd hfuel (Nat.not_lt_zero _)
    | succ fuel =>
      have hboundary : nonemptyParameter (contentTypeFor P
          (parsedFields (multipartFields subtype boundary))) (ascii "boundary") = some boundary := by
        rw [contentType_multipart P h.1]
        have hquotable : IsQuotable (some boundary) := by
          rintro value ⟨⟩
          exact ⟨h.1.boundary_ne, h.1.boundary_line⟩
        exact nonemptyParameter_written _ (ascii "boundary") hquotable
      have hstart : startsWithIgnoreCase (contentTypeFor P
          (parsedFields (multipartFields subtype boundary))).value (ascii "multipart/") = true := by
        rw [contentType_multipart P h.1]
        exact startsWithIgnoreCase_multipart subtype
      rw [Mime.parseEntity, h.splitHeaderBody]
      simp only [h.parseHeaders]
      rw [show (MimeTree.multipart subtype boundary parts).fields =
        multipartFields subtype boundary from rfl, if_pos hstart]
      simp only [hboundary, show (MimeTree.multipart subtype boundary parts).bodyLines =
        partLines boundary parts from rfl, splitMultipartBody_partLines h]
      exact foldlM_parts P (fun p hp context => ih p hp (allWellFormed_iff.mp h.2 p hp).1
        (Nat.lt_of_lt_of_le (length_unlines_lt hp) (Nat.le_of_lt_succ hfuel)) context false) _

end MimeTree
end RapidInbox
