import Mathlib.Algebra.Order.Ring.Rat
import Mathlib.Data.Prod.Lex
import Mathlib.Tactic.Linarith
import RapidInbox.Lib.Regex
import RapidInbox.Lib.Search
import RapidInbox.Lib.TopTwo

/-!
# Verification codes

What `verification_code.cpp` and `verification_code.py` have in common: the candidates, the distance of
the next hint, the line of a candidate, and the choice of one code.  The texts are bytes in one and code
points in the other; the scores are taken to be rational.
-/

namespace RapidInbox

inductive CodeShape where
  | digits
  | groupedDigits
  | alnum
  | hex
  deriving DecidableEq, Repr

/-- `Candidate`; `length` is that of the code. -/
structure CodeCandidate (C : Type) where
  code : List C
  display : List C
  start : Nat
  stop : Nat
  shape : CodeShape
  deriving DecidableEq

def kScoreThreshold : ℚ := 5
def kTieMargin : ℚ := 1

namespace CodeCandidate

variable {C : Type} [DecidableEq C]

def length (c : CodeCandidate C) : Nat := c.code.length

/-! ## Enumeration -/

/-- How an implementation makes codes of displays. -/
structure Rules (C : Type) where
  canonical : CodeShape → List C → List C
  admits : CodeShape → List C → Bool

/-- `record_candidate`: a code that is admitted and new. -/
def record (R : Rules C) (text : List C) (results : List (CodeCandidate C))
    (span : Nat × Nat × CodeShape) : List (CodeCandidate C) :=
  let display := Regex.slice text span.1 span.2.1
  let code := R.canonical span.2.2 display
  if R.admits span.2.2 code = false then results
  else if code ∈ results.map CodeCandidate.code then results
  else results ++ [⟨code, display, span.1, span.2.1, span.2.2⟩]

/-- The candidates of the spans, in order. -/
def recordAll (R : Rules C) (text : List C) (spans : List (Nat × Nat × CodeShape)) :
    List (CodeCandidate C) :=
  spans.foldl (record R text) []

/-- A candidate is a part of the text with its code. -/
structure FoundIn (R : Rules C) (text : List C) (c : CodeCandidate C) : Prop where
  le : c.start ≤ c.stop
  stop_le : c.stop ≤ text.length
  display : c.display = Regex.slice text c.start c.stop
  code : c.code = R.canonical c.shape c.display
  admitted : R.admits c.shape c.code = true

variable {R : Rules C} {text : List C}

/-- What the list of results keeps: candidates of the text with distinct codes. -/
structure Recorded (R : Rules C) (text : List C) (results : List (CodeCandidate C)) : Prop where
  found : ∀ c ∈ results, c.FoundIn R text
  distinct : (results.map CodeCandidate.code).Nodup

theorem Recorded.record {results : List (CodeCandidate C)} (h : Recorded R text results)
    {span : Nat × Nat × CodeShape} (hspan : span.1 ≤ span.2.1 ∧ span.2.1 ≤ text.length) :
    Recorded R text (record R text results span) := by
  unfold CodeCandidate.record
  dsimp only
  split
  · exact h
  · rename_i hadmits
    split
    · exact h
    · rename_i hnew
      constructor
      · intro c hc
        rcases List.mem_append.mp hc with hc | hc
        · exact h.found c hc
        · rw [List.mem_singleton.mp hc]
          exact ⟨hspan.1, hspan.2, rfl, rfl, by simpa using hadmits⟩
      · rw [List.map_append, List.nodup_append]
        refine ⟨h.distinct, List.pairwise_singleton _ _, ?_⟩
        intro code hcode code' hcode' heq
        rw [List.map_singleton, List.mem_singleton] at hcode'
        apply hnew
        have hsame := heq.trans hcode'
        subst hsame
        exact hcode

theorem recorded_recordAll {spans : List (Nat × Nat × CodeShape)}
    (hspans : ∀ span ∈ spans, span.1 ≤ span.2.1 ∧ span.2.1 ≤ text.length) :
    Recorded R text (recordAll R text spans) := by
  have hfold (results : List (CodeCandidate C)) (h : Recorded R text results) :
      Recorded R text (spans.foldl (CodeCandidate.record R text) results) := by
    induction spans generalizing results with
    | nil => exact h
    | cons span rest ih =>
      obtain ⟨hspan, hrest⟩ := List.forall_mem_cons.mp hspans
      exact ih hrest _ (h.record hspan)
  exact hfold [] ⟨fun c hc => absurd hc List.not_mem_nil, List.nodup_nil⟩

/-! ## Context -/

/-- `context_hit_nearby`: the distance of the nearest hint around a candidate. -/
def contextHitNearby (radius : Nat) (hints : List (List C)) (lowered : List C) (start stop : Nat) :
    Option Nat :=
  let windowStart := start - radius
  let window := Regex.slice lowered windowStart (min lowered.length (stop + radius))
  Search.least? (hints.map fun hint =>
    (Search.find? hint window).map fun found =>
      let absolute := windowStart + found
      if absolute ≤ stop then start - (absolute + hint.length) else absolute - stop)

/-- The line of a candidate, before white space is trimmed. -/
def lineAround (newline : C) (text : List C) (before stop : Nat) : List C :=
  let lineStart := before - ((text.take before).reverse.takeWhile (· ≠ newline)).length
  let lineEnd := stop + ((text.drop stop).takeWhile (· ≠ newline)).length
  Regex.slice text lineStart lineEnd

/-- What a hint at this distance is worth; `far` bounds the last step. -/
def hintScore (far : Nat) : Option Nat → ℚ
  | none => 0
  | some distance =>
    4 + if distance ≤ 6 then 4 else if distance ≤ 20 then 2 else if distance ≤ far then 1 else 0

def shapeScore (c : CodeCandidate C) : ℚ :=
  match c.shape with
  | .digits =>
    if c.length = 6 then 2
    else if c.length = 4 ∨ c.length = 5 ∨ c.length = 7 then 1
    else if c.length = 8 then 4 / 5
    else 0
  | .groupedDigits => 9 / 5
  | .alnum => 3 / 5
  | .hex => 2 / 5

/-- A candidate that is alone on its line, or nearly so. -/
def lineScore (c : CodeCandidate C) (line : List C) : ℚ :=
  if line = c.display then 5 / 2
  else if line.length ≤ 24 ∧ Search.contains c.display line = true then 1
  else 0

/-- Years and codes that are no codes. -/
def dummyPenalty (value : List C → Nat) (dummies : List (List C)) (c : CodeCandidate C) : ℚ :=
  if c.shape = .digits then
    (if c.length = 4 ∧ 1900 ≤ value c.code ∧ value c.code ≤ 2100 then 1 else 0) +
      (if c.code ∈ dummies then 2 else 0) + if c.code.dedup.length = 1 then 2 else 0
  else 0

/-! ## The choice -/

/-- The end of `extract_verification_code`: a best candidate that reaches the threshold, is not tied
    with the runner-up and is no alternative. -/
def publish {α : Type} (candidate : α → CodeCandidate C) (score : CodeCandidate C → ℚ)
    (inDisjunction : CodeCandidate C → Bool) (top : TopTwo α) : Option (List C) :=
  match top.best with
  | none => none
  | some best =>
    let chosen := candidate best
    if score chosen < kScoreThreshold then none
    else if top.runnerUp.any fun r => decide (kScoreThreshold ≤ score (candidate r)) &&
        decide (|score chosen - score (candidate r)| < kTieMargin) &&
        decide ((candidate r).code ≠ chosen.code) then none
    else if inDisjunction chosen then none
    else some chosen.code

/-- The candidate reaches the threshold, and every other candidate misses it or trails. -/
def Prevails (score : CodeCandidate C → ℚ) (candidates : List (CodeCandidate C))
    (c : CodeCandidate C) : Prop :=
  c ∈ candidates ∧ kScoreThreshold ≤ score c ∧
    ∀ other ∈ candidates, other.code ≠ c.code →
      score other < kScoreThreshold ∨ score other + kTieMargin ≤ score c

/-- What is published prevails, whatever the key that ranks the candidates, if it orders them as the
    scores do. -/
theorem publish_prevails {α β : Type} [LinearOrder β] (candidate : α → CodeCandidate C) (key : α → β)
    {score : CodeCandidate C → ℚ} {inDisjunction : CodeCandidate C → Bool} {positive : List α}
    {candidates : List (CodeCandidate C)}
    (hkey : ∀ a b, key a ≤ key b → score (candidate a) ≤ score (candidate b))
    (hpositive : positive.map candidate = candidates.filter fun c => decide (0 < score c))
    (hdistinct : (candidates.map CodeCandidate.code).Nodup) {code : List C}
    (h : publish candidate score inDisjunction (TopTwo.ofList key positive) = some code) :
    ∃ c, c.code = code ∧ Prevails score candidates c := by
  have hranks := TopTwo.ranks_ofList key positive
  have hlabels : (positive.map fun a => (candidate a).code).Nodup := by
    have hsub : ((positive.map candidate).map CodeCandidate.code).Nodup := by
      rw [hpositive]
      exact hdistinct.sublist (List.filter_sublist.map _)
    rwa [List.map_map] at hsub
  unfold publish at h
  split at h
  · cases h
  · rename_i best hbest
    dsimp only at h
    split at h
    · cases h
    · rename_i hthreshold
      split at h
      · cases h
      · rename_i hties
        split at h
        · cases h
        · cases h
          have hmem : candidate best ∈ candidates := by
            have hmem := List.mem_map_of_mem (f := candidate) (hranks.best_mem hbest)
            rw [hpositive] at hmem
            exact List.mem_of_mem_filter hmem
          refine ⟨candidate best, rfl, hmem, not_lt.mp hthreshold, ?_⟩
          intro other hother hne
          by_cases hscore : 0 < score other
          · have hin : other ∈ positive.map candidate := by
              rw [hpositive]
              exact List.mem_filter.mpr ⟨hother, decide_eq_true hscore⟩
            obtain ⟨a, ha, rfl⟩ := List.mem_map.mp hin
            obtain ⟨r, hrunner, hcode, hle, hbelow⟩ := hranks.others hbest hlabels ha hne
            have hother := hkey a r hle
            have hsecond := hkey r best hbelow
            rw [hrunner] at hties
            by_cases hreaches : kScoreThreshold ≤ score (candidate r)
            · right
              have hfar : ¬|score (candidate best) - score (candidate r)| < kTieMargin := by
                intro htie
                apply hties
                simp [hreaches, htie, hcode]
              rw [abs_of_nonneg (by linarith)] at hfar
              linarith
            · left
              linarith
          · left
            have hthreshold : (0 : ℚ) < kScoreThreshold := by
              unfold kScoreThreshold
              norm_num
            linarith

end CodeCandidate
end RapidInbox
