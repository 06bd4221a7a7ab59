import Mathlib.Algebra.Order.BigOperators.Group.List
import Mathlib.Algebra.Order.Group.Nat
import RapidInbox.Mime.RoundTrip

/-!
# Bounds of the MIME parser

`parse_entity` and what it calls (`mime_parser.cpp:95-129, 424-471, 661-706`) on arbitrary bytes: the
recursion comes to its end, and each leaf of the message is used once.
-/

namespace RapidInbox
namespace Mime

/-! ## Lengths -/

theorem length_normalizeLineEndings (text : Bytes) :
    (normalizeLineEndings text).length ≤ text.length := by
  induction text using normalizeLineEndings.induct with
  | case1 => exact Nat.le_refl _
  | case2 ch => exact Nat.le_refl _
  | case3 rest ih =>
    rw [normalizeLineEndings, if_pos rfl, if_pos rfl]
    simp only [List.length_cons]
    omega
  | case4 next rest hnext ih =>
    rw [normalizeLineEndings, if_pos rfl, if_neg hnext]
    simp only [List.length_cons] at ih ⊢
    omega
  | case5 ch next rest hch ih =>
    rw [normalizeLineEndings, if_neg hch]
    simp only [List.length_cons] at ih ⊢
    omega

theorem length_joinLines_cons (line : Bytes × Bool) (lines : List (Bytes × Bool)) :
    (joinLines (line :: lines)).length = (lineText line).length + (joinLines lines).length := by
  rw [joinLines, List.flatMap_cons, List.length_append]
  rfl

theorem length_splitAtBlankLine (lines : List (Bytes × Bool)) :
    (splitAtBlankLine lines).2.length ≤ (joinLines lines).length := by
  induction lines with
  | nil => exact Nat.le_refl _
  | cons line lines ih =>
    rw [length_joinLines_cons, splitAtBlankLine]
    split
    · exact Nat.le_add_left _ _
    · exact Nat.le_trans ih (Nat.le_add_left _ _)

theorem length_splitHeaderBody (entity : Bytes) : (splitHeaderBody entity).2.length ≤ entity.length := by
  have h := length_splitAtBlankLine (splitLines entity)
  rw [joinLines_splitLines] at h
  exact h

/-- The two dashes of a delimiter are not part of anything. -/
theorem two_le_length_delimiter {line : Bytes × Bool} {rest : Bytes}
    (h : trimTrailingLwsp line.1 = ascii "--" ++ rest) : 2 ≤ (lineText line).length := by
  have htrim : (trimTrailingLwsp line.1).length ≤ line.1.length :=
    (List.rdropWhile_prefix isLwsp line.1).length_le
  have hdashes : (ascii "--").length = 2 := rfl
  rw [h, List.length_append, hdashes] at htrim
  rw [lineText, List.length_append]
  omega

/-- A line goes into one part at most, and a delimiter into none. -/
theorem length_collectParts {boundary : Bytes} {current : Option Bytes} {lines : List (Bytes × Bool)}
    {parts : List Bytes} (h : collectParts boundary current lines = some parts) :
    (parts.map List.length).sum + (if current = none then 2 else 0) ≤
      (current.getD []).length + (joinLines lines).length := by
  induction lines generalizing current parts with
  | nil =>
    cases current with
    | none => cases h
    | some part =>
      cases h
      simp
  | cons line lines ih =>
    have htoList : (current.toList.map List.length).sum = (current.getD []).length := by
      cases current <;> simp
    have hslack : (if current = none then 2 else 0) ≤ 2 := by
      split <;> omega
    rw [length_joinLines_cons]
    rw [collectParts] at h
    split at h
    · rename_i hclosing
      cases h
      rw [List.append_assoc] at hclosing
      have := two_le_length_delimiter hclosing
      omega
    · split at h
      · rename_i hmarker
        cases h
        have := two_le_length_delimiter hmarker
        rw [List.map_append, List.sum_append, htoList]
        cases hmore : collectParts boundary (some []) lines with
        | none =>
          simp only [Option.getD_none, List.map_nil, List.sum_nil]
          omega
        | some more =>
          have hrest := ih hmore
          simp only [Option.getD_some, List.length_nil, reduceCtorEq, if_false] at hrest ⊢
          omega
      · have hrest := ih h
        cases current with
        | none =>
          simp only [Option.map_none, Option.getD_none, List.length_nil, if_true] at hrest ⊢
          omega
        | some part =>
          simp only [Option.map_some, Option.getD_some, List.length_append, reduceCtorEq,
            if_false] at hrest ⊢
          omega

/-- All parts together are shorter than the body. -/
theorem sum_length_parts {body boundary : Bytes} {parts : List Bytes}
    (h : splitMultipartBody body boundary = .ok parts) : (parts.map List.length).sum < body.length := by
  rw [splitMultipartBody] at h
  cases hparts : collectParts boundary none (splitLines body) with
  | none =>
    rw [hparts] at h
    cases h
  | some found =>
    rw [hparts] at h
    cases h
    have := length_collectParts hparts
    rw [joinLines_splitLines, if_pos rfl, Option.getD_none, List.length_nil] at this
    omega

/-! ## The recursion -/

/-- `parse_entity` calls itself on `part` when it is given `entity`. -/
def IsPart (P : MimePlatform) (part entity : Bytes) : Prop :=
  let contentType := contentTypeFor P (parseHeaders (splitHeaderBody entity).1)
  startsWithIgnoreCase contentType.value (ascii "multipart/") = true ∧
    ∃ boundary parts, nonemptyParameter contentType (ascii "boundary") = some boundary ∧
      splitMultipartBody (splitHeaderBody entity).2 boundary = .ok parts ∧ part ∈ parts

theorem IsPart.length_lt {P : MimePlatform} {part entity : Bytes} (h : IsPart P part entity) :
    part.length < entity.length := by
  obtain ⟨-, boundary, parts, -, hsplit, hpart⟩ := h
  have hle : part.length ≤ (parts.map List.length).sum :=
    List.single_le_sum (fun _ _ => Nat.zero_le _) _ (List.mem_map_of_mem hpart)
  exact Nat.lt_of_lt_of_le (Nat.lt_of_le_of_lt hle (sum_length_parts hsplit))
    (length_splitHeaderBody entity)

/-- What `parse_entity` reads of an entity that is not a multipart. -/
structure EntityLeaf where
  headers : HeaderBlock
  contentType : ParameterizedHeader
  body : Bytes

/-- The leaves of an entity in the order in which they are visited. -/
def entityLeaves (P : MimePlatform) : Nat → Bytes → List EntityLeaf
  | 0, _ => []
  | fuel + 1, entity =>
    let (headerBlock, body) := splitHeaderBody entity
    let headers := parseHeaders headerBlock
    let contentType := contentTypeFor P headers
    if startsWithIgnoreCase contentType.value (ascii "multipart/") then
      match nonemptyParameter contentType (ascii "boundary") with
      | none => []
      | some boundary =>
        match splitMultipartBody body boundary with
        | .error _ => []
        | .ok parts => parts.flatMap (entityLeaves P fuel)
    else [⟨headers, contentType, body⟩]

/-- The leaves of a message. -/
def messageLeaves (P : MimePlatform) (rawMessage : Bytes) : List EntityLeaf :=
  entityLeaves P ((normalizeLineEndings rawMessage).length + 1) (normalizeLineEndings rawMessage)

namespace EntityLeaf

/-- What `parse_entity` does with a leaf. -/
def visit (P : MimePlatform) (context : ParseContext) (leaf : EntityLeaf) : ParseContext :=
  parseLeaf P leaf.headers leaf.contentType leaf.body context

/-- `decoded_body` -/
def content (leaf : EntityLeaf) : Bytes := decodeTransferBody leaf.body leaf.headers

/-- The leaf as the text of a message. -/
def text (P : MimePlatform) (leaf : EntityLeaf) : Bytes :=
  decodeCharset P leaf.content ((parameterValue leaf.contentType (ascii "charset")).getD (ascii "UTF-8"))

end EntityLeaf

/-- The top-level headers are taken from the root. -/
def enterEntity (P : MimePlatform) (entity : Bytes) (context : ParseContext) (root : Bool) :
    ParseContext :=
  if root then
    { context with
      mail := assignTopLevelHeaders P (parseHeaders (splitHeaderBody entity).1) context.mail }
  else context

variable {P : MimePlatform}

/-- The parser visits the leaves, and nothing else changes its context. -/
theorem parseEntity_eq_ok {fuel : Nat} {entity : Bytes} {context out : ParseContext} {root : Bool}
    (h : parseEntity P fuel entity context root = .ok out) :
    out = (entityLeaves P fuel entity).foldl (EntityLeaf.visit P) (enterEntity P entity context root) := by
  induction fuel generalizing entity context out root with
  | zero => cases h
  | succ fuel ih =>
    have hparts : ∀ (parts : List Bytes) (context out : ParseContext),
        parts.foldlM (fun context part => parseEntity P fuel part context false) context = .ok out →
        out = (parts.flatMap (entityLeaves P fuel)).foldl (EntityLeaf.visit P) context := by
      intro parts
      induction parts with
      | nil =>
        intro context out h
        cases h
        rfl
      | cons part parts ihParts =>
        intro context out h
        rw [List.foldlM_cons] at h
        cases hpart : parseEntity P fuel part context false with
        | error stop =>
          rw [hpart] at h
          cases h
        | ok next =>
          rw [hpart] at h
          rw [ihParts next out h, ih hpart, List.flatMap_cons, List.foldl_append]
          rfl
    rw [parseEntity] at h
    rw [entityLeaves]
    dsimp only at h ⊢
    split at h
    · rename_i hmultipart
      rw [if_pos hmultipart]
      cases hboundary : nonemptyParameter (contentTypeFor P (parseHeaders (splitHeaderBody entity).1))
          (ascii "boundary") with
      | none =>
        rw [hboundary] at h
        cases h
      | some boundary =>
        rw [hboundary] at h
        dsimp only at h ⊢
        cases hsplit : splitMultipartBody (splitHeaderBody entity).2 boundary with
        | error message =>
          rw [hsplit] at h
          cases h
        | ok parts =>
          rw [hsplit] at h
          exact hparts parts _ out h
    · rename_i hleaf
      rw [if_neg hleaf]
      cases h
      rfl

/-- The fuel is enough when it exceeds the length. -/
theorem parseEntity_ne_outOfFuel {fuel : Nat} {entity : Bytes} {context : ParseContext} {root : Bool}
    (hfuel : entity.length < fuel) : parseEntity P fuel entity context root ≠ .error .outOfFuel := by
  induction fuel generalizing entity context root with
  | zero => exact absurd hfuel (Nat.not_lt_zero _)
  | succ fuel ih =>
    have hparts : ∀ (parts : List Bytes) (context : ParseContext),
        (∀ part ∈ parts, part.length < fuel) →
        parts.foldlM (fun context part => parseEntity P fuel part context false) context ≠
          .error .outOfFuel := by
      intro parts
      induction parts with
      | nil =>
        intro _ _ heq
        cases heq
      | cons part parts ihParts =>
        intro context hlt
        rw [List.foldlM_cons]
        cases hpart : parseEntity P fuel part context false with
        | error stop =>
          intro heq
          have hstop : stop = .outOfFuel := Except.error.inj heq
          exact ih (hlt part List.mem_cons_self) (hstop ▸ hpart)
        | ok next => exact ihParts next fun p hp => hlt p (List.mem_cons_of_mem _ hp)
    rw [parseEntity]
    dsimp only
    split
    · rename_i hmultipart
      cases hboundary : nonemptyParameter (contentTypeFor P (parseHeaders (splitHeaderBody entity).1))
          (ascii "boundary") with
      | none =>
        intro heq
        cases heq
      | some boundary =>
        dsimp only
        cases hsplit : splitMultipartBody (splitHeaderBody entity).2 boundary with
        | error message =>
          intro heq
          cases heq
        | ok parts =>
          refine hparts parts _ fun part hpart => ?_
          have hlt : IsPart P part entity :=
            ⟨hmultipart, boundary, parts, hboundary, hsplit, hpart⟩
          exact Nat.lt_of_lt_of_le hlt.length_lt (Nat.le_of_lt_succ hfuel)
    · intro heq
      cases heq

/-- No byte of a body belongs to two leaves. -/
theorem sum_length_leaves (P : MimePlatform) (fuel : Nat) (entity : Bytes) :
    ((entityLeaves P fuel entity).map fun leaf => leaf.body.length).sum ≤ entity.length := by
  induction fuel generalizing entity with
  | zero => exact Nat.zero_le _
  | succ fuel ih =>
    have hparts : ∀ parts : List Bytes,
        ((parts.flatMap (entityLeaves P fuel)).map fun leaf => leaf.body.length).sum ≤
          (parts.map List.length).sum := by
      intro parts
      induction parts with
      | nil => exact Nat.le_refl _
      | cons part parts ihParts =>
        rw [List.flatMap_cons, List.map_append, List.sum_append, List.map_cons, List.sum_cons]
        exact Nat.add_le_add (ih part) ihParts
    have hbody := length_splitHeaderBody entity
    rw [entityLeaves]
    dsimp only
    split
    · split
      · exact Nat.zero_le _
      · split
        · exact Nat.zero_le _
        · rename_i hsplit
          have := sum_length_parts hsplit
          exact Nat.le_trans (hparts _) (by omega)
    · simpa using hbody

/-! ## What becomes of the leaves -/

/-- A body of the mail is the text of the leaf at this index, or there is none. -/
def IsBodySource (P : MimePlatform) (leaves : List EntityLeaf) (source : Option Nat) (present : Bool)
    (body : Bytes) : Prop :=
  match source with
  | none => present = false ∧ body = []
  | some i => present = true ∧ ∃ leaf, leaves[i]? = some leaf ∧ body = leaf.text P

/-- Everything in the mail comes from a leaf, and no leaf is used twice: the text body is that of the
    leaf at `text`, the HTML body that of the leaf at `html`, and each attachment that of the leaf at
    its part index. -/
structure Attributed (P : MimePlatform) (leaves : List EntityLeaf) (text html : Option Nat)
    (mail : ParsedMail) : Prop where
  text_source : IsBodySource P leaves text mail.hasText mail.textBody
  html_source : IsBodySource P leaves html mail.hasHtml mail.htmlBody
  attachment_source : ∀ a ∈ mail.attachments,
    ∃ leaf, leaves[a.partIndex]? = some leaf ∧ a.content = leaf.content
  increasing : (mail.attachments.map (·.partIndex)).Pairwise (· < ·)
  text_once : ∀ i ∈ text, i ∉ html ∧ ∀ a ∈ mail.attachments, a.partIndex ≠ i
  html_once : ∀ i ∈ html, ∀ a ∈ mail.attachments, a.partIndex ≠ i

theorem getElem?_concat_of_eq_some {leaves : List EntityLeaf} {i : Nat} {leaf : EntityLeaf}
    (h : leaves[i]? = some leaf) (more : EntityLeaf) : (leaves ++ [more])[i]? = some leaf := by
  obtain ⟨hi, -⟩ := List.getElem?_eq_some_iff.mp h
  rw [List.getElem?_append_left hi]
  exact h

theorem IsBodySource.concat {leaves : List EntityLeaf} {source : Option Nat} {present : Bool}
    {body : Bytes} (h : IsBodySource P leaves source present body) (leaf : EntityLeaf) :
    IsBodySource P (leaves ++ [leaf]) source present body := by
  cases source with
  | none => exact h
  | some i =>
    obtain ⟨hpresent, found, hfound, hbody⟩ := h
    exact ⟨hpresent, found, getElem?_concat_of_eq_some hfound leaf, hbody⟩

theorem IsBodySource.lt {leaves : List EntityLeaf} {source : Option Nat} {present : Bool}
    {body : Bytes} (h : IsBodySource P leaves source present body) : ∀ i ∈ source, i < leaves.length := by
  rintro i ⟨⟩
  obtain ⟨-, found, hfound, -⟩ := h
  exact (List.getElem?_eq_some_iff.mp hfound).1

theorem isBodySource_last (leaves : List EntityLeaf) (leaf : EntityLeaf) :
    IsBodySource P (leaves ++ [leaf]) (some leaves.length) true (leaf.text P) :=
  ⟨rfl, leaf, List.getElem?_concat_length, rfl⟩

namespace Attributed

variable {leaves : List EntityLeaf} {text html : Option Nat} {mail : ParsedMail}

theorem attachment_lt (h : Attributed P leaves text html mail) {a : ParsedAttachment}
    (ha : a ∈ mail.attachments) : a.partIndex < leaves.length := by
  obtain ⟨found, hfound, -⟩ := h.attachment_source a ha
  exact (List.getElem?_eq_some_iff.mp hfound).1

/-- A leaf that is not used. -/
theorem concat (h : Attributed P leaves text html mail) (leaf : EntityLeaf) :
    Attributed P (leaves ++ [leaf]) text html mail where
  text_source := h.text_source.concat leaf
  html_source := h.html_source.concat leaf
  attachment_source a ha := by
    obtain ⟨found, hfound, hcontent⟩ := h.attachment_source a ha
    exact ⟨found, getElem?_concat_of_eq_some hfound leaf, hcontent⟩
  increasing := h.increasing
  text_once := h.text_once
  html_once := h.html_once

theorem takeText (h : Attributed P leaves text html mail) (leaf : EntityLeaf) :
    Attributed P (leaves ++ [leaf]) (some leaves.length) html
      { mail with textBody := leaf.text P, hasText := true } where
  text_source := isBodySource_last leaves leaf
  html_source := h.html_source.concat leaf
  attachment_source := (h.concat leaf).attachment_source
  increasing := h.increasing
  text_once := by
    rintro i ⟨⟩
    refine ⟨fun hi => Nat.lt_irrefl _ (h.html_source.lt _ hi), fun a ha heq => ?_⟩
    exact Nat.lt_irrefl _ (heq ▸ h.attachment_lt ha)
  html_once := h.html_once

theorem takeHtml (h : Attributed P leaves text html mail) (leaf : EntityLeaf) :
    Attributed P (leaves ++ [leaf]) text (some leaves.length)
      { mail with htmlBody := leaf.text P, hasHtml := true } where
  text_source := h.text_source.concat leaf
  html_source := isBodySource_last leaves leaf
  attachment_source := (h.concat leaf).attachment_source
  increasing := h.increasing
  text_once i hi := by
    refine ⟨fun hhtml => ?_, (h.text_once i hi).2⟩
    cases hhtml
    exact Nat.lt_irrefl _ (h.text_source.lt _ hi)
  html_once := by
    rintro i ⟨⟩ a ha heq
    exact Nat.lt_irrefl _ (heq ▸ h.attachment_lt ha)

theorem attach (h : Attributed P leaves text html mail) (leaf : EntityLeaf) {a : ParsedAttachment}
    (hindex : a.partIndex = leaves.length) (hcontent : a.content = leaf.content) :
    Attributed P (leaves ++ [leaf]) text html { mail with attachments := mail.attachments ++ [a] } where
  text_source := h.text_source.concat leaf
  html_source := h.html_source.concat leaf
  attachment_source b hb := by
    rcases List.mem_append.mp hb with hb | hb
    · exact (h.concat leaf).attachment_source b hb
    · rw [List.mem_singleton.mp hb, hindex]
      exact ⟨leaf, List.getElem?_concat_length, hcontent⟩
  increasing := by
    rw [List.map_append, List.pairwise_append]
    refine ⟨h.increasing, List.pairwise_singleton _ _, ?_⟩
    intro i hi j hj
    obtain ⟨b, hb, rfl⟩ := List.mem_map.mp hi
    rw [List.mem_singleton.mp hj]
    change b.partIndex < a.partIndex
    rw [hindex]
    exact h.attachment_lt hb
  text_once i hi := by
    refine ⟨(h.text_once i hi).1, fun b hb => ?_⟩
    rcases List.mem_append.mp hb with hb | hb
    · exact (h.text_once i hi).2 b hb
    · rw [List.mem_singleton.mp hb, hindex]
      exact Nat.ne_of_gt (h.text_source.lt i hi)
  html_once i hi b hb := by
    rcases List.mem_append.mp hb with hb | hb
    · exact h.html_once i hi b hb
    · rw [List.mem_singleton.mp hb, hindex]
      exact Nat.ne_of_gt (h.html_source.lt i hi)

/-- One more leaf: it is a body, an attachment or nothing. -/
theorem visit {context : ParseContext} (h : Attributed P leaves text html context.mail)
    (hindex : context.nextPartIndex = leaves.length) (leaf : EntityLeaf) :
    ∃ text' html', Attributed P (leaves ++ [leaf]) text' html' (leaf.visit P context).mail := by
  rw [EntityLeaf.visit, parseLeaf]
  dsimp only
  split
  · exact ⟨some leaves.length, html, h.takeText leaf⟩
  · split
    · exact ⟨text, some leaves.length, h.takeHtml leaf⟩
    · split
      · exact ⟨text, html, h.attach leaf hindex rfl⟩
      · exact ⟨text, html, h.concat leaf⟩

theorem foldl_visit {context : ParseContext} (h : Attributed P leaves text html context.mail)
    (hindex : context.nextPartIndex = leaves.length) (more : List EntityLeaf) :
    ∃ text' html', Attributed P (leaves ++ more) text' html' (more.foldl (EntityLeaf.visit P) context).mail := by
  induction more generalizing leaves text html context with
  | nil =>
    rw [List.append_nil]
    exact ⟨text, html, h⟩
  | cons leaf more ih =>
    obtain ⟨text', html', hvisit⟩ := h.visit hindex leaf
    have hnext : (leaf.visit P context).nextPartIndex = (leaves ++ [leaf]).length := by
      rw [List.length_append, ← hindex]
      rfl
    have := ih hvisit hnext
    rwa [List.append_assoc] at this

/-- Nothing is taken before the first leaf; the columns of the top-level headers do not matter. -/
theorem start (P : MimePlatform) (entity : Bytes) :
    Attributed P [] none none (enterEntity P entity ⟨emptyMail, 0⟩ true).mail where
  text_source := ⟨rfl, rfl⟩
  html_source := ⟨rfl, rfl⟩
  attachment_source := by exact nofun
  increasing := List.Pairwise.nil
  text_once := by exact nofun
  html_once := by exact nofun

end Attributed

/-- `MimeParser::parse` on any bytes: each entity it calls itself on is shorter, so that it ends, with
    a `ParseFailure` or a mail; the attachments are numbered in order; each leaf is used once at most;
    and the bodies of the leaves are no longer than the message. -/
theorem parse_bounds (P : MimePlatform) (rawMessage : Bytes) :
    (∀ part entity, IsPart P part entity → part.length < entity.length) ∧
      parse P rawMessage ≠ .error .outOfFuel ∧
      ((messageLeaves P rawMessage).map fun leaf => leaf.body.length).sum ≤ rawMessage.length ∧
      ∀ mail, parse P rawMessage = .ok mail →
        (mail.attachments.map (·.partIndex)).Pairwise (· < ·) ∧
          ∃ text html, Attributed P (messageLeaves P rawMessage) text html mail := by
  refine ⟨fun _ _ => IsPart.length_lt, ?_, ?_, ?_⟩
  · rw [parse]
    cases hentity : parseEntity P ((normalizeLineEndings rawMessage).length + 1)
        (normalizeLineEndings rawMessage) ⟨emptyMail, 0⟩ true with
    | error stop =>
      intro heq
      have hstop : stop = .outOfFuel := Except.error.inj heq
      exact parseEntity_ne_outOfFuel (Nat.lt_succ_self _) (hstop ▸ hentity)
    | ok context =>
      intro heq
      cases heq
  · exact Nat.le_trans (sum_length_leaves P _ _) (length_normalizeLineEndings rawMessage)
  · intro mail hparse
    rw [parse] at hparse
    cases hentity : parseEntity P ((normalizeLineEndings rawMessage).length + 1)
        (normalizeLineEndings rawMessage) ⟨emptyMail, 0⟩ true with
    | error stop =>
      simp only [hentity] at hparse
      cases hparse
    | ok context =>
      simp only [hentity] at hparse
      cases hparse
      rw [parseEntity_eq_ok hentity]
      obtain ⟨text, html, h⟩ := (Attributed.start P (normalizeLineEndings rawMessage)).foldl_visit rfl
        (messageLeaves P rawMessage)
      exact ⟨h.increasing, text, html, ⟨h.text_source, h.html_source, h.attachment_source,
        h.increasing, h.text_once, h.html_once⟩⟩

/-- A text, and a part with a content id. -/
def twoPartMessage : Bytes :=
  ascii "Content-Type: multipart/x; boundary=b\n\n--b\n\nhi\n--b\nContent-ID: x\n\n--b--"

theorem parse_bounds_twoPartMessage :
    (ascii "\nhi\n").length < twoPartMessage.length ∧
      ∃ mail, parse MimeTree.plainPlatform twoPartMessage = .ok mail ∧
        (mail.attachments.map (·.partIndex)).Pairwise (· < ·) := by
  have h := parse_bounds MimeTree.plainPlatform twoPartMessage
  constructor
  · exact h.1 _ _ ⟨rfl, ascii "b", [ascii "\nhi\n", ascii "Content-ID: x\n\n"], rfl, rfl, by simp⟩
  · obtain ⟨mail, hparse⟩ : ∃ mail, parse MimeTree.plainPlatform twoPartMessage = .ok mail := ⟨_, rfl⟩
    exact ⟨mail, hparse, (h.2.2.2 mail hparse).1⟩

end Mime
end RapidInbox
