import Mathlib.Logic.Basic

/-!
# Searching a list for another

`find` of strings: the first position at which a list begins with the needle.
-/

namespace Search

variable {α : Type} [DecidableEq α]

/-- The first position of the needle. -/
def find? (needle : List α) : List α → Option Nat
  | [] => if needle = [] then some 0 else none
  | a :: as =>
    if needle.isPrefixOf (a :: as) then some 0 else (find? needle as).map (· + 1)

def contains (needle text : List α) : Bool := (find? needle text).isSome

/-- One of the needles occurs. -/
def containsAny (needles : List (List α)) (text : List α) : Bool := needles.any (contains · text)

/-- The least of the values that are there. -/
def least? : List (Option Nat) → Option Nat
  | [] => none
  | none :: rest => least? rest
  | some n :: rest =>
    match least? rest with
    | none => some n
    | some m => some (min n m)

end Search
