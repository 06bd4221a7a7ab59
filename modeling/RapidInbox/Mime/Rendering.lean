import Mathlib.Data.FinEnum
import RapidInbox.Mime.LineText

/-!
# MIME trees and their text

A message as a tree: inner nodes are multipart entities with a boundary, leaves carry a content type,
a disposition, a file name, a content id and a body of lines.  `render` writes it down; what the parser
has to recover is stated of the tree (`leaves`, `listed`).
-/

namespace RapidInbox

/-- An entity that is not a multipart.  `name` is the parameter of the content type, the second
    component of `disposition` its file name. -/
structure MimeLeaf where
  contentType : Bytes
  name : Option Bytes
  disposition : Option (Bytes × Option Bytes)
  contentId : Option Bytes
  transferEncoding : Option Bytes
  body : List Bytes
  deriving DecidableEq, Repr

inductive MimeTree where
  | leaf (leaf : MimeLeaf)
  | multipart (subtype boundary : Bytes) (parts : List MimeTree)

/-- Induction over a tree and all its parts. -/
theorem MimeTree.induction {motive : MimeTree → Prop} (hleaf : ∀ l, motive (.leaf l))
    (hmultipart : ∀ subtype boundary parts, (∀ p ∈ parts, motive p) →
      motive (.multipart subtype boundary parts)) (t : MimeTree) : motive t :=
  match t with
  | .leaf l => hleaf l
  | .multipart subtype boundary parts => hmultipart subtype boundary parts (all parts)
where
  all : (parts : List MimeTree) → ∀ p ∈ parts, motive p
  | [] => nofun
  | p :: parts => fun q hq =>
    (List.mem_cons.mp hq).elim (fun h => h ▸ MimeTree.induction hleaf hmultipart p)
      fun h => all parts q h

namespace Mime

/-! ## Writing -/

/-- A byte inside a quoted string. -/
def escapeQuoted (ch : UInt8) : Bytes := if ch = 0x22 ∨ ch = 0x5C then [0x5C, ch] else [ch]

def quoteParameter (value : Bytes) : Bytes := 0x22 :: value.flatMap escapeQuoted ++ [0x22]

/-- `; key="value"`, for a parameter that is there. -/
def parameterText (key : Bytes) : Option Bytes → Bytes
  | none => []
  | some value => ascii "; " ++ key ++ 0x3D :: quoteParameter value

def headerLine (field : Bytes × Bytes) : Bytes := field.1 ++ 0x3A :: 0x20 :: field.2

/-- The delimiter of a boundary. -/
def delimiter (boundary : Bytes) : Bytes := ascii "--" ++ boundary

/-- The delimiter behind the last part. -/
def closingDelimiter (boundary : Bytes) : Bytes := delimiter boundary ++ ascii "--"

end Mime

open Mime

/-- The header fields of a leaf. -/
def MimeLeaf.fields (l : MimeLeaf) : HeaderBlock :=
  (ascii "Content-Type", l.contentType ++ parameterText (ascii "name") l.name) ::
    (l.disposition.map fun d =>
      (ascii "Content-Disposition", d.1 ++ parameterText (ascii "filename") d.2)).toList ++
    (l.contentId.map fun id => (ascii "Content-ID", id)).toList ++
    (l.transferEncoding.map fun encoding => (ascii "Content-Transfer-Encoding", encoding)).toList

def MimeLeaf.lines (l : MimeLeaf) : List Bytes := l.fields.map headerLine ++ [] :: l.body

/-- The header field of a multipart entity. -/
def multipartFields (subtype boundary : Bytes) : HeaderBlock :=
  [(ascii "Content-Type",
    ascii "multipart/" ++ subtype ++ parameterText (ascii "boundary") (some boundary))]

namespace MimeTree

mutual

/-- The lines of an entity. -/
def lines : MimeTree → List Bytes
  | .leaf l => l.lines
  | .multipart subtype boundary parts =>
    (multipartFields subtype boundary).map headerLine ++ [] :: partLines boundary parts

/-- The parts between their delimiters. -/
def partLines (boundary : Bytes) : List MimeTree → List Bytes
  | [] => [closingDelimiter boundary]
  | p :: parts => delimiter boundary :: p.lines ++ partLines boundary parts

end

/-- The message, with CRLF after every line. -/
def render (t : MimeTree) : Bytes := crlfLines t.lines

mutual

/-- The leaves in order. -/
def leaves : MimeTree → List MimeLeaf
  | .leaf l => [l]
  | .multipart _ _ parts => partLeaves parts

def partLeaves : List MimeTree → List MimeLeaf
  | [] => []
  | p :: parts => p.leaves ++ partLeaves parts

end

theorem partLeaves_eq (parts : List MimeTree) : partLeaves parts = parts.flatMap leaves := by
  induction parts with
  | nil => rfl
  | cons p parts ih => rw [partLeaves, ih, List.flatMap_cons]

end MimeTree

/-! ## Trees that can be written -/

namespace Mime

/-- A token: no white space, quotes or semicolons. -/
def IsToken (text : Bytes) : Prop :=
  text ≠ [] ∧ ∀ ch ∈ text, asciiSpace ch = false ∧ ch ≠ 0x22 ∧ ch ≠ 0x3B

instance (text : Bytes) : Decidable (IsToken text) := inferInstanceAs (Decidable (_ ∧ _))

theorem isToken_of_all {text : Bytes} (hne : text ≠ [])
    (h : text.all fun ch => !asciiSpace ch && (ch != 0x22 && ch != 0x3B)) : IsToken text :=
  ⟨hne, fun ch hch => by simpa using List.all_eq_true.mp h ch hch⟩

/-- No `=?`, which could begin an encoded word. -/
def NoEncodedWord (text : Bytes) : Prop := ¬ [0x3D, 0x3F] <:+: text

instance (text : Bytes) : Decidable (NoEncodedWord text) := inferInstanceAs (Decidable (¬ _))

/-- A quoted string that is there is not empty and on one line. -/
def IsQuotable (value : Option Bytes) : Prop := ∀ text ∈ value, text ≠ [] ∧ NoLineBreak text

instance (value : Option Bytes) : Decidable (IsQuotable value) :=
  inferInstanceAs (Decidable (∀ text ∈ value, _))

/-- A line that a reader with this boundary would take for a delimiter. -/
def IsDelimiterLine (boundary line : Bytes) : Prop :=
  trimTrailingLwsp line = delimiter boundary ∨ trimTrailingLwsp line = closingDelimiter boundary

instance (boundary line : Bytes) : Decidable (IsDelimiterLine boundary line) :=
  inferInstanceAs (Decidable (_ ∨ _))

end Mime

structure MimeLeaf.WellFormed (l : MimeLeaf) : Prop where
  contentType : IsToken l.contentType
  notMultipart : startsWithIgnoreCase l.contentType (ascii "multipart/") = false
  name : IsQuotable l.name
  disposition : ∀ d ∈ l.disposition, IsToken d.1 ∧ IsQuotable d.2
  contentId : ∀ id ∈ l.contentId, NoLineBreak id
  transferEncoding : ∀ encoding ∈ l.transferEncoding, NoLineBreak encoding
  body : ∀ line ∈ l.body, NoLineBreak line
  values : ∀ f ∈ l.fields, NoEncodedWord f.2

instance (l : MimeLeaf) : Decidable l.WellFormed :=
  decidable_of_iff
    (IsToken l.contentType ∧ startsWithIgnoreCase l.contentType (ascii "multipart/") = false ∧
      IsQuotable l.name ∧ (∀ d ∈ l.disposition, IsToken d.1 ∧ IsQuotable d.2) ∧
      (∀ id ∈ l.contentId, NoLineBreak id) ∧
      (∀ encoding ∈ l.transferEncoding, NoLineBreak encoding) ∧
      (∀ line ∈ l.body, NoLineBreak line) ∧ ∀ f ∈ l.fields, NoEncodedWord f.2)
    ⟨fun ⟨h₁, h₂, h₃, h₄, h₅, h₆, h₇, h₈⟩ => ⟨h₁, h₂, h₃, h₄, h₅, h₆, h₇, h₈⟩,
      fun ⟨h₁, h₂, h₃, h₄, h₅, h₆, h₇, h₈⟩ => ⟨h₁, h₂, h₃, h₄, h₅, h₆, h₇, h₈⟩⟩

/-- A subtype and a boundary that can be written. -/
structure Mime.WellFormedMultipart (subtype boundary : Bytes) : Prop where
  subtype : subtype = [] ∨ IsToken subtype
  boundary_ne : boundary ≠ []
  boundary_line : NoLineBreak boundary
  boundary_last : ∀ ch ∈ boundary.getLast?, isLwsp ch = false
  value : NoEncodedWord boundary

instance (subtype boundary : Bytes) : Decidable (WellFormedMultipart subtype boundary) :=
  decidable_of_iff
    ((subtype = [] ∨ IsToken subtype) ∧ boundary ≠ [] ∧ NoLineBreak boundary ∧
      (∀ ch ∈ boundary.getLast?, isLwsp ch = false) ∧ NoEncodedWord boundary)
    ⟨fun ⟨h₁, h₂, h₃, h₄, h₅⟩ => ⟨h₁, h₂, h₃, h₄, h₅⟩,
      fun ⟨h₁, h₂, h₃, h₄, h₅⟩ => ⟨h₁, h₂, h₃, h₄, h₅⟩⟩

namespace MimeTree

mutual

/-- Every field can be written, and no line inside the parts of a node looks like its delimiter. -/
def WellFormed : MimeTree → Prop
  | .leaf l => l.WellFormed
  | .multipart subtype boundary parts =>
    WellFormedMultipart subtype boundary ∧ AllWellFormed boundary parts

def AllWellFormed (boundary : Bytes) : List MimeTree → Prop
  | [] => True
  | p :: parts =>
    p.WellFormed ∧ (∀ line ∈ p.lines, ¬ IsDelimiterLine boundary line) ∧
      AllWellFormed boundary parts

end

mutual

def decideWellFormed : (t : MimeTree) → Decidable t.WellFormed
  | .leaf l => inferInstanceAs (Decidable l.WellFormed)
  | .multipart subtype boundary parts =>
    @instDecidableAnd _ _ (inferInstanceAs (Decidable (WellFormedMultipart subtype boundary)))
      (decideAllWellFormed boundary parts)

def decideAllWellFormed (boundary : Bytes) :
    (parts : List MimeTree) → Decidable (AllWellFormed boundary parts)
  | [] => isTrue trivial
  | p :: parts =>
    @instDecidableAnd _ _ (decideWellFormed p)
      (@instDecidableAnd _ _ inferInstance (decideAllWellFormed boundary parts))

end

instance (t : MimeTree) : Decidable t.WellFormed := decideWellFormed t

theorem allWellFormed_iff {boundary : Bytes} {parts : List MimeTree} :
    AllWellFormed boundary parts ↔
      ∀ p ∈ parts, p.WellFormed ∧ ∀ line ∈ p.lines, ¬ IsDelimiterLine boundary line := by
  induction parts with
  | nil => simp [AllWellFormed]
  | cons p parts ih => rw [AllWellFormed, ih, List.forall_mem_cons, and_assoc]

end MimeTree
end RapidInbox
