import Mathlib.Logic.Basic

/-!
# Backtracking regular expressions

Expressions as the backtracking engines of scripting languages match them: the alternatives of a
choice and the counts of a repetition are tried in an order, and the first way to match wins.  All
ways, in this order, make the meaning; an expression has one group at most.
-/

/-- A regular expression over any alphabet. -/
inductive Regex (α : Type) where
  /-- One letter of a class. -/
  | one (p : α → Bool)
  /-- A condition on the text and a position in it: an anchor, a boundary, a look to either side. -/
  | assert (p : List α → Nat → Bool)
  | seq (r s : Regex α)
  | alt (r s : Regex α)
  /-- Between `least` and `most` times; as often as possible, or as rarely. -/
  | rep (greedy : Bool) (least : Nat) (most : Option Nat) (r : Regex α)
  | group (r : Regex α)
  /-- The text of the group again, letter by letter up to `same`. -/
  | backref (same : α → α → Bool)

namespace Regex

variable {α : Type}

/-- Where the group has matched. -/
abbrev Capture := Option (Nat × Nat)

/-- Ways to match, in the order in which they are tried. -/
abbrev Ways := List (Capture × Nat)

/-- The part of a text between two positions. -/
def slice (text : List α) (start stop : Nat) : List α := (text.drop start).take (stop - start)

/-- `once` is repeated; it is taken to consume a letter, so that `most` need not exceed the length of
    the text. -/
def repWays (once : Capture → Nat → Ways) (greedy : Bool) : Nat → Nat → Capture → Nat → Ways
  | 0, 0, g, i => [(g, i)]
  | _ + 1, 0, _, _ => []
  | 0, most + 1, g, i =>
    let more := (once g i).flatMap fun w => repWays once greedy 0 most w.1 w.2
    if greedy then more ++ [(g, i)] else (g, i) :: more
  | least + 1, most + 1, g, i =>
    (once g i).flatMap fun w => repWays once greedy least most w.1 w.2

/-- The ways to match from a position on: the group, and where the match ends. -/
def ways (text : List α) : Regex α → Capture → Nat → Ways
  | .one p, g, i => if text[i]?.any p then [(g, i + 1)] else []
  | .assert p, g, i => if p text i then [(g, i)] else []
  | .seq r s, g, i => (ways text r g i).flatMap fun w => ways text s w.1 w.2
  | .alt r s, g, i => ways text r g i ++ ways text s g i
  | .rep greedy least most r, g, i =>
    repWays (ways text r) greedy least (most.getD text.length) g i
  | .group r, g, i => (ways text r g i).map fun w => (some (i, w.2), w.2)
  | .backref same, g, i =>
    match g with
    | none => []
    | some (start, stop) =>
      let again := slice text i (i + (stop - start))
      if again.length = stop - start ∧ (again.zip (slice text start stop)).all fun x => same x.1 x.2
      then [(g, i + (stop - start))]
      else []

/-! ## Matches -/

/-- Where an expression has matched, and its group. -/
structure Match where
  start : Nat
  stop : Nat
  group : Capture
  deriving DecidableEq, Repr

/-- The first way to match at a position. -/
def matchAt? (r : Regex α) (text : List α) (i : Nat) : Option Match :=
  (ways text r none i).head?.map fun w => ⟨i, w.2, w.1⟩

/-- The matches at these positions that begin no earlier than `next`. -/
def scan (r : Regex α) (text : List α) : Nat → List Nat → List Match
  | _, [] => []
  | next, i :: rest =>
    if i < next then scan r text next rest
    else
      match r.matchAt? text i with
      | some m => m :: scan r text (max m.stop (i + 1)) rest
      | none => scan r text next rest

/-- The matches from left to right, none of which overlaps an earlier one; for expressions that do not
    match the empty text. -/
def finditer (r : Regex α) (text : List α) : List Match := scan r text 0 (List.range (text.length + 1))

/-- The expression matches somewhere. -/
def search (r : Regex α) (text : List α) : Bool :=
  (List.range (text.length + 1)).any fun i => (r.matchAt? text i).isSome

/-- The expression matches the whole text in some way. -/
def fullmatch (r : Regex α) (text : List α) : Bool :=
  (ways text r none 0).any fun w => w.2 = text.length

/-- The text from `next` on, with another text in place of each match. -/
def replaceMatches (replacement text : List α) : Nat → List Match → List α
  | next, [] => text.drop next
  | next, m :: rest =>
    slice text next m.start ++ (replacement ++ replaceMatches replacement text m.stop rest)

/-- Each match is replaced. -/
def sub (r : Regex α) (replacement text : List α) : List α :=
  replaceMatches replacement text 0 (r.finditer text)

/-! ## Building expressions -/

/-- One after the other. -/
def cat : List (Regex α) → Regex α
  | [] => .assert fun _ _ => true
  | [r] => r
  | r :: rest => .seq r (cat rest)

/-- The first that matches. -/
def choice : List (Regex α) → Regex α
  | [] => .assert fun _ _ => false
  | [r] => r
  | r :: rest => .alt r (choice rest)

def star (r : Regex α) : Regex α := .rep true 0 none r
def plus (r : Regex α) : Regex α := .rep true 1 none r
def optional (r : Regex α) : Regex α := .rep true 0 (some 1) r
def lazyStar (r : Regex α) : Regex α := .rep false 0 none r

/-- At least and at most so often. -/
def between (least most : Nat) (r : Regex α) : Regex α := .rep true least (some most) r

/-- The letter before, if there is one, is not of the class. -/
def notBehind (p : α → Bool) : Regex α := .assert fun text i => i = 0 || !text[i - 1]?.any p

/-- The letter at the position, if there is one, is not of the class. -/
def notAhead (p : α → Bool) : Regex α := .assert fun text i => !text[i]?.any p

/-- Between a letter of the class and one that is not, or an end of the text. -/
def boundary (p : α → Bool) : Regex α :=
  .assert fun text i => (decide (0 < i) && text[i - 1]?.any p) != text[i]?.any p

def atStart : Regex α := .assert fun _ i => i = 0

/-! ## Where matches lie -/

/-- A capture lies in the text. -/
def Within (text : List α) (g : Capture) : Prop := ∀ x ∈ g, x.1 ≤ x.2 ∧ x.2 ≤ text.length

/-- What matching keeps: the match does not go backwards and ends in the text, as does the group. -/
def Advances (text : List α) (i : Nat) (w : Capture × Nat) : Prop :=
  i ≤ w.2 ∧ w.2 ≤ text.length ∧ Within text w.1

variable {text : List α}

theorem Advances.trans {i : Nat} {v w : Capture × Nat} (hv : Advances text i v)
    (hw : Advances text v.2 w) : Advances text i w :=
  ⟨Nat.le_trans hv.1 hw.1, hw.2⟩

theorem repWays_advance {once : Capture → Nat → Ways}
    (honce : ∀ g i, Within text g → i ≤ text.length → ∀ w ∈ once g i, Advances text i w)
    {greedy : Bool} {least most : Nat} {g : Capture} {i : Nat} (hg : Within text g)
    (hi : i ≤ text.length) : ∀ w ∈ repWays once greedy least most g i, Advances text i w := by
  have hmore (least most : Nat) (g : Capture) (i : Nat) (hg : Within text g) (hi : i ≤ text.length)
      (ih : ∀ (g : Capture) (i : Nat), Within text g → i ≤ text.length →
        ∀ w ∈ repWays once greedy least most g i, Advances text i w) :
      ∀ w ∈ (once g i).flatMap fun v => repWays once greedy least most v.1 v.2, Advances text i w := by
    intro w hw
    obtain ⟨v, hv, hw⟩ := List.mem_flatMap.mp hw
    have hfirst := honce g i hg hi v hv
    exact hfirst.trans (ih v.1 v.2 hfirst.2.2 hfirst.2.1 w hw)
  have hstop : Advances text i (g, i) := ⟨Nat.le_refl _, hi, hg⟩
  induction most generalizing least g i with
  | zero =>
    cases least with
    | zero =>
      intro w hw
      rw [List.mem_singleton.mp hw]
      exact hstop
    | succ least => exact fun w hw => absurd hw List.not_mem_nil
  | succ most ih =>
    have ih' (least : Nat) (g : Capture) (i : Nat) (hg : Within text g) (hi : i ≤ text.length) :
        ∀ w ∈ repWays once greedy least most g i, Advances text i w :=
      ih hg hi ⟨Nat.le_refl _, hi, hg⟩
    cases least with
    | zero =>
      intro w hw
      have hrest := hmore 0 most g i hg hi (ih' 0)
      unfold repWays at hw
      dsimp only at hw
      split at hw
      · rcases List.mem_append.mp hw with hw | hw
        · exact hrest w hw
        · rw [List.mem_singleton.mp hw]
          exact hstop
      · rcases List.mem_cons.mp hw with rfl | hw
        · exact hstop
        · exact hrest w hw
    | succ least => exact hmore least most g i hg hi (ih' least)

theorem ways_advance (r : Regex α) {g : Capture} {i : Nat} (hg : Within text g)
    (hi : i ≤ text.length) : ∀ w ∈ ways text r g i, Advances text i w := by
  induction r generalizing g i with
  | one p =>
    intro w hw
    unfold ways at hw
    split at hw
    · rename_i hletter
      rw [List.mem_singleton.mp hw]
      have hlt : i < text.length := by
        apply Nat.lt_of_not_le
        intro hge
        rw [List.getElem?_eq_none hge] at hletter
        cases hletter
      exact ⟨Nat.le_succ i, hlt, hg⟩
    · exact absurd hw List.not_mem_nil
  | assert p =>
    intro w hw
    unfold ways at hw
    split at hw
    · rw [List.mem_singleton.mp hw]
      exact ⟨Nat.le_refl _, hi, hg⟩
    · exact absurd hw List.not_mem_nil
  | seq r s ihr ihs =>
    intro w hw
    obtain ⟨v, hv, hw⟩ := List.mem_flatMap.mp hw
    have hfirst := ihr hg hi v hv
    exact hfirst.trans (ihs hfirst.2.2 hfirst.2.1 w hw)
  | alt r s ihr ihs =>
    intro w hw
    rcases List.mem_append.mp hw with hw | hw
    · exact ihr hg hi w hw
    · exact ihs hg hi w hw
  | rep greedy least most r ih =>
    exact repWays_advance (fun g i hg hi => ih hg hi) hg hi
  | group r ih =>
    intro w hw
    obtain ⟨v, hv, rfl⟩ := List.mem_map.mp hw
    have hinner := ih hg hi v hv
    refine ⟨hinner.1, hinner.2.1, ?_⟩
    intro x hx
    cases hx
    exact ⟨hinner.1, hinner.2.1⟩
  | backref same =>
    intro w hw
    unfold ways at hw
    split at hw
    · exact absurd hw List.not_mem_nil
    · rename_i start stop
      dsimp only at hw
      split at hw
      · rename_i hagain
        rw [List.mem_singleton.mp hw]
        have hlength := hagain.1
        unfold slice at hlength
        rw [List.length_take, List.length_drop] at hlength
        refine ⟨Nat.le_add_right _ _, ?_, hg⟩
        show i + (stop - start) ≤ text.length
        omega
      · exact absurd hw List.not_mem_nil

/-- A match lies in the text, and so does its group. -/
structure Match.Lies (text : List α) (m : Match) : Prop where
  le : m.start ≤ m.stop
  stop_le : m.stop ≤ text.length
  group : Within text m.group

theorem matchAt?_lies {r : Regex α} {i : Nat} {m : Match} (hi : i ≤ text.length)
    (h : r.matchAt? text i = some m) : m.Lies text := by
  obtain ⟨w, hw, rfl⟩ := Option.map_eq_some_iff.mp h
  have hadvance := ways_advance r (g := none) (fun _ hx => nomatch hx) hi w (List.mem_of_head? hw)
  exact ⟨hadvance.1, hadvance.2.1, hadvance.2.2⟩

theorem finditer_lies (r : Regex α) (text : List α) : ∀ m ∈ r.finditer text, m.Lies text := by
  have hscan (positions : List Nat) (hpositions : ∀ i ∈ positions, i ≤ text.length) (next : Nat) :
      ∀ m ∈ scan r text next positions, m.Lies text := by
    induction positions generalizing next with
    | nil => exact fun m hm => absurd hm List.not_mem_nil
    | cons i rest ih =>
      obtain ⟨hi, hrest⟩ := List.forall_mem_cons.mp hpositions
      intro m hm
      unfold scan at hm
      split at hm
      · exact ih hrest next m hm
      · split at hm
        · rename_i found hfound
          rcases List.mem_cons.mp hm with rfl | hm
          · exact matchAt?_lies hi hfound
          · exact ih hrest _ m hm
        · exact ih hrest next m hm
  exact hscan _ (fun i hi => Nat.le_of_lt_succ (List.mem_range.mp hi)) 0

end Regex
