import RapidInbox.Mime.TreeRoundTrip

/-!
# The round trip of MIME trees

What the parser collects while it visits the leaves: the first text and the first HTML leaf as bodies,
and the other leaves that say they are attachments, each with its position among the leaves.
-/

namespace RapidInbox

open Mime

/-! ## What a tree says -/

namespace MimeLeaf

/-- A leaf of this type that is not an attachment. -/
def IsBody (type : String) (l : MimeLeaf) : Prop :=
  l.dispositionType ≠ some (ascii "attachment") ∧ l.mediaType = ascii type

instance (type : String) (l : MimeLeaf) : Decidable (l.IsBody type) :=
  inferInstanceAs (Decidable (_ ∧ _))

/-- A leaf with the disposition `attachment` or `inline`, a content id or a file name. -/
def Attaches (l : MimeLeaf) : Prop :=
  l.dispositionType = some (ascii "attachment") ∨ l.dispositionType = some (ascii "inline") ∨
    l.contentId.isSome ∨ l.filename.isSome

instance (l : MimeLeaf) : Decidable l.Attaches := inferInstanceAs (Decidable (_ ∨ _))

/-- The attachment a leaf becomes: the `ordinal`-th of the message, from the leaf at `index`. -/
def attachment (P : MimePlatform) (l : MimeLeaf) (ordinal index : Nat) : ParsedAttachment :=
  let contentId := l.contentId.map trim
  let name := l.filename.getD (synthesizedAttachmentFilename index l.mediaType contentId)
  { attachmentId := P.attachmentId ordinal
    partIndex := index
    filename := some name
    safeFilename := safeFilename name
    contentType := l.mediaType
    contentDisposition := l.dispositionType
    contentId := contentId
    storagePath := []
    sha256 := P.sha256Hex l.content
    content := l.content
    isInline := l.dispositionType = some (ascii "inline") }

/-- The leaf at `index` is the first of its kind among the leaves. -/
def IsFirstBody (leaves : List MimeLeaf) (type : String) (leaf : MimeLeaf × Nat) : Prop :=
  leaf.1.IsBody type ∧ ∀ l ∈ leaves.take leaf.2, ¬ l.IsBody type

instance (leaves : List MimeLeaf) (type : String) (leaf : MimeLeaf × Nat) :
    Decidable (IsFirstBody leaves type leaf) :=
  inferInstanceAs (Decidable (_ ∧ _))

/-- The leaves that are attachments, with their positions: all that say so, but not the two that
    are taken as bodies. -/
def listed (leaves : List MimeLeaf) : List (MimeLeaf × Nat) :=
  leaves.zipIdx.filter fun leaf => leaf.1.Attaches ∧ ¬ IsFirstBody leaves "text/plain" leaf ∧
    ¬ IsFirstBody leaves "text/html" leaf

/-- The body taken from the leaves: that of the first of its kind. -/
def bodyOf (type : String) (leaves : List MimeLeaf) : Option Bytes :=
  (leaves.find? (IsBody type)).map content

end MimeLeaf

open MimeLeaf

namespace Mime

/-! ## One leaf -/

/-- Where a leaf goes. -/
def collect (P : MimePlatform) (mail : ParsedMail) (index : Nat) (l : MimeLeaf) : ParsedMail :=
  if l.IsBody "text/plain" ∧ mail.hasText = false then
    { mail with textBody := l.content, hasText := true }
  else if l.IsBody "text/html" ∧ mail.hasHtml = false then
    { mail with htmlBody := l.content, hasHtml := true }
  else if l.Attaches then
    { mail with attachments := mail.attachments ++ [l.attachment P mail.attachments.length index] }
  else mail

theorem dispositionValue_eq_iff {disposition : Option Bytes} {value : Bytes} (hne : value ≠ []) :
    disposition.getD [] = value ↔ disposition = some value := by
  cases disposition with
  | none => exact ⟨fun h => absurd h.symm hne, nofun⟩
  | some disposition => exact ⟨congrArg some, Option.some.inj⟩

/-- The parser's reading of a leaf is the leaf. -/
theorem visit_eq (P : MimePlatform) {l : MimeLeaf} (h : l.WellFormed) (context : ParseContext) :
    MimeTree.visit P context l =
      ⟨collect P context.mail context.nextPartIndex l, context.nextPartIndex + 1⟩ := by
  have hdisposition : (contentDispositionFor P (parsedFields l.fields)).map ParameterizedHeader.value =
      l.dispositionType := by
    rw [h.disposition_read, Option.map_map]
    rfl
  have htype : (contentTypeFor P (parsedFields l.fields)).value = l.mediaType := by
    rw [h.contentType_read]
  have hattachment : ascii "attachment" ≠ [] := by decide
  have hinline : ascii "inline" ≠ [] := by decide
  have hcontentId : (l.contentId.map trim).isSome = l.contentId.isSome := Option.isSome_map
  simp only [MimeTree.visit, parseLeaf, collect, IsBody, Attaches, addAttachment, newAttachment,
    attachment, hdisposition, htype, h.filename_read, h.charset_read, h.contentId_read, hcontentId,
    Option.getD_none, decodeCharset_utf8, content, ne_eq, dispositionValue_eq_iff hattachment,
    dispositionValue_eq_iff hinline, and_assoc]
  congr

end Mime

/-! ## All leaves -/

namespace MimeLeaf

variable {leaves : List MimeLeaf} {l : MimeLeaf} {type : String}

theorem bodyOf_eq_none : bodyOf type leaves = none ↔ ∀ l ∈ leaves, ¬ l.IsBody type := by
  simp [bodyOf]

theorem bodyOf_concat_of_isBody (h : l.IsBody type) (hnone : bodyOf type leaves = none) :
    bodyOf type (leaves ++ [l]) = some l.content := by
  have hfind : leaves.find? (IsBody type) = none := Option.map_eq_none_iff.mp hnone
  simp [bodyOf, List.find?_append, hfind, h]

theorem bodyOf_concat_of_not (h : ¬ (l.IsBody type ∧ bodyOf type leaves = none)) :
    bodyOf type (leaves ++ [l]) = bodyOf type leaves := by
  cases hfind : leaves.find? (IsBody type) with
  | none =>
    have hbody : ¬ l.IsBody type := fun hbody => h ⟨hbody, by rw [bodyOf, hfind]; rfl⟩
    simp [bodyOf, List.find?_append, hfind, hbody]
  | some first => simp [bodyOf, List.find?_append, hfind]

theorem isFirstBody_concat : IsFirstBody (leaves ++ [l]) type (l, leaves.length) ↔
    l.IsBody type ∧ bodyOf type leaves = none := by
  rw [IsFirstBody, List.take_left, bodyOf_eq_none]

/-- A later leaf does not change which of the earlier ones are listed. -/
theorem listed_concat (leaves : List MimeLeaf) (l : MimeLeaf) :
    listed (leaves ++ [l]) = listed leaves ++
      if l.Attaches ∧ ¬ (l.IsBody "text/plain" ∧ bodyOf "text/plain" leaves = none) ∧
        ¬ (l.IsBody "text/html" ∧ bodyOf "text/html" leaves = none) then [(l, leaves.length)] else [] := by
  have hearlier : ∀ leaf ∈ leaves.zipIdx, ∀ type,
      IsFirstBody (leaves ++ [l]) type leaf ↔ IsFirstBody leaves type leaf := by
    intro leaf hleaf type
    have hlt : leaf.2 ≤ leaves.length := by
      have := List.snd_lt_of_mem_zipIdx hleaf
      omega
    rw [IsFirstBody, IsFirstBody, List.take_append_of_le_length hlt]
  rw [listed, List.zipIdx_append, List.filter_append]
  congr 1
  · apply List.filter_congr
    intro leaf hleaf
    simp only [hearlier leaf hleaf]
  · simp only [List.zipIdx_cons, List.zipIdx_nil, Nat.zero_add, List.filter_cons, List.filter_nil,
      isFirstBody_concat, decide_eq_true_eq]

end MimeLeaf

namespace Mime

/-- The context holds what the leaves say. -/
structure Collected (P : MimePlatform) (leaves : List MimeLeaf) (context : ParseContext) : Prop where
  index : context.nextPartIndex = leaves.length
  hasText : context.mail.hasText = (bodyOf "text/plain" leaves).isSome
  textBody : context.mail.textBody = (bodyOf "text/plain" leaves).getD []
  hasHtml : context.mail.hasHtml = (bodyOf "text/html" leaves).isSome
  htmlBody : context.mail.htmlBody = (bodyOf "text/html" leaves).getD []
  attachments : context.mail.attachments =
    (listed leaves).mapIdx fun ordinal leaf => leaf.1.attachment P ordinal leaf.2

theorem free_iff {found : Bool} {type : String} {leaves : List MimeLeaf}
    (h : found = (bodyOf type leaves).isSome) : found = false ↔ bodyOf type leaves = none := by
  rw [h, Option.isSome_eq_false_iff, Option.isNone_iff_eq_none]

theorem not_isBody_both {l : MimeLeaf} (htext : l.IsBody "text/plain") (hhtml : l.IsBody "text/html") :
    False := by
  have := htext.2.symm.trans hhtml.2
  exact absurd this (by decide)

/-- One more leaf. -/
theorem Collected.visit {P : MimePlatform} {leaves : List MimeLeaf} {context : ParseContext}
    (h : Collected P leaves context) {l : MimeLeaf} (hl : l.WellFormed) :
    Collected P (leaves ++ [l]) (MimeTree.visit P context l) := by
  have hindex : leaves.length + 1 = (leaves ++ [l]).length := by
    rw [List.length_append]
    rfl
  have htextFree := free_iff h.hasText
  have hhtmlFree := free_iff h.hasHtml
  rw [visit_eq P hl, collect, h.index]
  by_cases htext : l.IsBody "text/plain" ∧ context.mail.hasText = false
  · rw [if_pos htext]
    have hnone := htextFree.mp htext.2
    have hbody := bodyOf_concat_of_isBody htext.1 hnone
    have hother : ¬ (l.IsBody "text/html" ∧ bodyOf "text/html" leaves = none) :=
      fun hhtml => not_isBody_both htext.1 hhtml.1
    have hlisted : listed (leaves ++ [l]) = listed leaves := by
      rw [listed_concat, if_neg fun hcond => hcond.2.1 ⟨htext.1, hnone⟩, List.append_nil]
    exact ⟨hindex, by rw [hbody]; rfl, by rw [hbody]; rfl,
      by rw [bodyOf_concat_of_not hother]; exact h.hasHtml,
      by rw [bodyOf_concat_of_not hother]; exact h.htmlBody, by rw [hlisted]; exact h.attachments⟩
  rw [if_neg htext]
  have hplain : ¬ (l.IsBody "text/plain" ∧ bodyOf "text/plain" leaves = none) :=
    fun hbody => htext ⟨hbody.1, htextFree.mpr hbody.2⟩
  by_cases hhtml : l.IsBody "text/html" ∧ context.mail.hasHtml = false
  · rw [if_pos hhtml]
    have hnone := hhtmlFree.mp hhtml.2
    have hbody := bodyOf_concat_of_isBody hhtml.1 hnone
    have hlisted : listed (leaves ++ [l]) = listed leaves := by
      rw [listed_concat, if_neg fun hcond => hcond.2.2 ⟨hhtml.1, hnone⟩, List.append_nil]
    exact ⟨hindex, by rw [bodyOf_concat_of_not hplain]; exact h.hasText,
      by rw [bodyOf_concat_of_not hplain]; exact h.textBody, by rw [hbody]; rfl,
      by rw [hbody]; rfl, by rw [hlisted]; exact h.attachments⟩
  rw [if_neg hhtml]
  have hother : ¬ (l.IsBody "text/html" ∧ bodyOf "text/html" leaves = none) :=
    fun hbody => hhtml ⟨hbody.1, hhtmlFree.mpr hbody.2⟩
  by_cases hattaches : l.Attaches
  · rw [if_pos hattaches]
    have hlisted : listed (leaves ++ [l]) = listed leaves ++ [(l, leaves.length)] := by
      rw [listed_concat, if_pos ⟨hattaches, hplain, hother⟩]
    refine ⟨hindex, by rw [bodyOf_concat_of_not hplain]; exact h.hasText,
      by rw [bodyOf_concat_of_not hplain]; exact h.textBody,
      by rw [bodyOf_concat_of_not hother]; exact h.hasHtml,
      by rw [bodyOf_concat_of_not hother]; exact h.htmlBody, ?_⟩
    rw [hlisted, List.mapIdx_concat, h.attachments, List.length_mapIdx]
  · rw [if_neg hattaches]
    have hlisted : listed (leaves ++ [l]) = listed leaves := by
      rw [listed_concat, if_neg fun hcond => hattaches hcond.1, List.append_nil]
    exact ⟨hindex, by rw [bodyOf_concat_of_not hplain]; exact h.hasText,
      by rw [bodyOf_concat_of_not hplain]; exact h.textBody,
      by rw [bodyOf_concat_of_not hother]; exact h.hasHtml,
      by rw [bodyOf_concat_of_not hother]; exact h.htmlBody, by rw [hlisted]; exact h.attachments⟩

/-- All leaves, from an empty mail. -/
theorem collected_foldl (P : MimePlatform) {leaves : List MimeLeaf} (h : ∀ l ∈ leaves, l.WellFormed)
    {context : ParseContext} (hempty : Collected P [] context) :
    Collected P leaves (leaves.foldl (MimeTree.visit P) context) := by
  induction leaves using List.reverseRecOn with
  | nil => exact hempty
  | append_singleton leaves l ih =>
    rw [List.foldl_append]
    exact (ih fun l' hl' => h l' (List.mem_append_left _ hl')).visit
      (h l (List.mem_append_right _ List.mem_cons_self))

end Mime

namespace MimeTree

theorem WellFormed.leaves {t : MimeTree} (h : t.WellFormed) : ∀ l ∈ t.leaves, l.WellFormed := by
  induction t using MimeTree.induction with
  | hleaf leaf =>
    intro l hl
    cases List.mem_singleton.mp hl
    exact h
  | hmultipart subtype boundary parts ih =>
    intro l hl
    rw [MimeTree.leaves, partLeaves_eq, List.mem_flatMap] at hl
    obtain ⟨p, hp, hl⟩ := hl
    exact ih p hp (allWellFormed_iff.mp h.2 p hp).1 l hl

/-- The parser recovers a written tree: its leaves in order, the first text and HTML leaves as bodies,
    and the others that say so as attachments with their positions. -/
theorem parse_render (P : MimePlatform) (t : MimeTree) (h : t.WellFormed) :
    ∃ mail, parse P t.render = .ok mail ∧
      mail.hasText = (bodyOf "text/plain" t.leaves).isSome ∧
      mail.textBody = (bodyOf "text/plain" t.leaves).getD [] ∧
      mail.hasHtml = (bodyOf "text/html" t.leaves).isSome ∧
      mail.htmlBody = (bodyOf "text/html" t.leaves).getD [] ∧
      mail.attachments =
        (listed t.leaves).mapIdx (fun ordinal leaf => leaf.1.attachment P ordinal leaf.2) := by
  have hempty : Collected P [] (enter P t ⟨emptyMail, 0⟩ true) := ⟨rfl, rfl, rfl, rfl, rfl, rfl⟩
  have hcollected := collected_foldl P h.leaves hempty
  have hnormal : normalizeLineEndings t.render = unlines t.lines :=
    normalizeLineEndings_crlfLines h.noLineBreak
  have hparse := h.parseEntity P (Nat.lt_succ_self _) ⟨emptyMail, 0⟩ true
  rw [parse, hnormal, hparse]
  exact ⟨_, rfl, hcollected.hasText, hcollected.textBody, hcollected.hasHtml, hcollected.htmlBody,
    hcollected.attachments⟩

/-- A plain text, its HTML version, and a picture whose name has a quote in it; the inner boundary
    begins with the outer one. -/
def letter : MimeTree :=
  let textLeaf (type body : String) : MimeLeaf :=
    ⟨ascii type, none, none, none, none, [ascii body, []]⟩
  let picture : MimeLeaf :=
    { contentType := ascii "image/PNG"
      name := none
      disposition := some (ascii "attachment", some (ascii "a \"b\".png"))
      contentId := none
      transferEncoding := some (ascii "base64")
      body := [ascii "aGk="] }
  .multipart (ascii "mixed") (ascii "x")
    [.multipart (ascii "alternative") (ascii "x-y")
      [.leaf (textLeaf "text/plain" "--x y"), .leaf (textLeaf "text/html" "<p>")],
    .leaf picture]

/-- Libraries for the letter, which asks for none of them but the hash and the identifiers. -/
def plainPlatform : MimePlatform where
  iconv _ _ := none
  nextOrFffd ch _ := (Char.ofNat ch.toNat, 0)
  sha256Hex _ := []
  attachmentId ordinal := "att_".toList ++ (toString ordinal).toList

theorem parse_render_letter : ∃ mail, parse plainPlatform letter.render = .ok mail ∧
    mail.textBody = ascii "--x y\n\n" ∧ mail.htmlBody = ascii "<p>\n\n" ∧
    mail.attachments.map (fun a => (a.partIndex, a.filename, a.content)) =
      [(2, some (ascii "a \"b\".png"), ascii "hi")] := by
  obtain ⟨mail, hparse, -, htext, -, hhtml, hattachments⟩ :=
    parse_render plainPlatform letter (by decide +kernel)
  refine ⟨mail, hparse, ?_, ?_, ?_⟩
  · rw [htext]
    decide +kernel
  · rw [hhtml]
    decide +kernel
  · rw [hattachments]
    decide +kernel

end MimeTree
end RapidInbox
