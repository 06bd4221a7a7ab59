import Mathlib.Algebra.Ring.Nat
import Mathlib.Logic.Basic

/-!
# JSON values in Python

A Python string is a sequence of code points, surrogates among them: the JSON reader makes one of
every `\ud800` that pairs with nothing.  Such a string is a value like any other until it is encoded
as UTF-8.
-/

/-- A code point, a surrogate or not. -/
abbrev CodePoint := Fin 0x110000

instance instNeZeroCodePoints : NeZero 0x110000 := inferInstance

instance : LawfulBEq CodePoint := inferInstance

namespace CodePoint

def isSurrogate (c : CodePoint) : Bool := decide (0xD800 ≤ c.val) && decide (c.val ≤ 0xDFFF)

theorem lt_of_valid {n : UInt32} (h : n.isValidChar) : n.toNat < 0x110000 := by
  rcases h with h | h
  · exact Nat.lt_trans h (by decide)
  · exact h.2

def ofChar (c : Char) : CodePoint := ⟨c.toNat, lt_of_valid c.valid⟩

/-- A `Char` is no surrogate. -/
@[simp] theorem isSurrogate_ofChar (c : Char) : (ofChar c).isSurrogate = false := by
  rcases c.valid with h | h
  · have hlow : ¬0xD800 ≤ (ofChar c).val := Nat.not_le_of_lt h
    rw [isSurrogate, decide_eq_false hlow, Bool.false_and]
  · have hhigh : ¬(ofChar c).val ≤ 0xDFFF := Nat.not_le_of_lt h.1
    rw [isSurrogate, decide_eq_false hhigh, Bool.and_false]

end CodePoint

/-- A string. -/
abbrev PyStr := List CodePoint

instance : LawfulBEq PyStr := inferInstance

namespace PyStr

/-- `s.encode("utf-8")` does not raise. -/
def encodable (s : PyStr) : Bool := s.all fun c => !c.isSurrogate

def ofChars (t : List Char) : PyStr := t.map CodePoint.ofChar

@[simp] theorem encodable_nil : encodable [] = true := rfl

@[simp] theorem encodable_cons (c : CodePoint) (s : PyStr) :
    encodable (c :: s) = (!c.isSurrogate && encodable s) := rfl

@[simp] theorem encodable_append (s t : PyStr) : encodable (s ++ t) = (encodable s && encodable t) :=
  List.all_append

@[simp] theorem encodable_ofChars (t : List Char) : encodable (ofChars t) = true := by
  simp [encodable, ofChars]

end PyStr

/-- A value that the reader returns; of a float only its text is kept. -/
inductive PyJson where
  | null
  | bool (b : Bool)
  | int (n : Int)
  | float (text : List Char)
  | str (s : PyStr)
  | list (xs : List PyJson)
  | dict (fields : List (PyStr × PyJson))

/-- The entries of an object. -/
abbrev PyDict := List (PyStr × PyJson)

namespace PyDict

/-- `d.get(key)`. -/
def get? (d : PyDict) (key : String) : Option PyJson :=
  (d.find? fun field => field.1 = PyStr.ofChars key.toList).map Prod.snd

end PyDict

namespace PyJson

open CodePoint PyStr

/-! ## Writing -/

/-- `\u00XX`, for a control character. -/
def unicodeEscape (n : Nat) : PyStr :=
  ofChars ['\\', 'u', '0', '0', Nat.digitChar (n / 16), Nat.digitChar (n % 16)]

/-- One character of a string literal that keeps what is not ASCII. -/
def escapeChar (c : CodePoint) : PyStr :=
  if c = ofChar '"' then ofChars ['\\', '"']
  else if c = ofChar '\\' then ofChars ['\\', '\\']
  else if c.val = 0x0A then ofChars ['\\', 'n']
  else if c.val = 0x0D then ofChars ['\\', 'r']
  else if c.val = 0x09 then ofChars ['\\', 't']
  else if c.val = 0x0C then ofChars ['\\', 'f']
  else if c.val = 0x08 then ofChars ['\\', 'b']
  else if c.val < 0x20 then unicodeEscape c.val
  else [c]

/-- A string literal. -/
def quote (s : PyStr) : PyStr := ofChars ['"'] ++ (s.flatMap escapeChar ++ ofChars ['"'])

mutual

/-- `json.dumps(value, ensure_ascii=False, separators=(",", ":"))`. -/
def dumps : PyJson → PyStr
  | .null => ofChars "null".toList
  | .bool true => ofChars "true".toList
  | .bool false => ofChars "false".toList
  | .int n => ofChars (toString n).toList
  | .float text => ofChars text
  | .str s => quote s
  | .list xs => ofChars ['['] ++ dumpsElems xs
  | .dict fields => ofChars ['\x7b'] ++ dumpsFields fields

/-- The elements of an array with the closing bracket. -/
def dumpsElems : List PyJson → PyStr
  | [] => ofChars [']']
  | [x] => dumps x ++ ofChars [']']
  | x :: y :: xs => dumps x ++ (ofChars [','] ++ dumpsElems (y :: xs))

/-- The members of an object with the closing brace. -/
def dumpsFields : List (PyStr × PyJson) → PyStr
  | [] => ofChars ['\x7d']
  | [(key, x)] => quote key ++ (ofChars [':'] ++ (dumps x ++ ofChars ['\x7d']))
  | (key, x) :: field :: fields =>
    quote key ++ (ofChars [':'] ++ (dumps x ++ (ofChars [','] ++ dumpsFields (field :: fields))))

end

/-! ## Which values can be encoded -/

mutual

/-- No string in the value has a surrogate. -/
def encodable : PyJson → Bool
  | .str s => PyStr.encodable s
  | .list xs => encodableElems xs
  | .dict fields => encodableFields fields
  | _ => true

def encodableElems : List PyJson → Bool
  | [] => true
  | x :: xs => x.encodable && encodableElems xs

def encodableFields : List (PyStr × PyJson) → Bool
  | [] => true
  | (key, x) :: fields => PyStr.encodable key && (x.encodable && encodableFields fields)

end

theorem encodable_escapeChar (c : CodePoint) : PyStr.encodable (escapeChar c) = !c.isSurrogate := by
  by_cases hascii : c.val < 0x80
  · -- every escape is ASCII, and so is what it stands for
    have hplain : c.isSurrogate = false := by
      rw [isSurrogate, Bool.and_eq_false_iff]
      exact .inl (by simp; omega)
    have hself : PyStr.encodable [c] = true := by simp [hplain]
    unfold escapeChar
    rw [hplain]
    repeat' split
    all_goals first | exact encodable_ofChars _ | exact hself
  · have hquote : c ≠ ofChar '"' := by
      rintro rfl
      exact hascii (by decide)
    have hslash : c ≠ ofChar '\\' := by
      rintro rfl
      exact hascii (by decide)
    have hescape : escapeChar c = [c] := by
      unfold escapeChar
      rw [if_neg hquote, if_neg hslash, if_neg (by omega), if_neg (by omega), if_neg (by omega),
        if_neg (by omega), if_neg (by omega), if_neg (by omega)]
    rw [hescape]
    simp

@[simp] theorem encodable_quote (s : PyStr) : PyStr.encodable (quote s) = PyStr.encodable s := by
  rw [quote, encodable_append, encodable_append, encodable_ofChars, Bool.true_and, Bool.and_true]
  induction s with
  | nil => rfl
  | cons c s ih => rw [List.flatMap_cons, encodable_append, encodable_escapeChar, ih, encodable_cons]

mutual

/-- The text of a value has a surrogate exactly when a string in it has one. -/
theorem encodable_dumps : ∀ value : PyJson, PyStr.encodable (dumps value) = value.encodable
  | .null => encodable_ofChars _
  | .bool true => encodable_ofChars _
  | .bool false => encodable_ofChars _
  | .int _ => encodable_ofChars _
  | .float _ => encodable_ofChars _
  | .str s => encodable_quote s
  | .list xs => by
      rw [dumps, encodable_append, encodable_ofChars, Bool.true_and, encodable_dumpsElems xs]
      rfl
  | .dict fields => by
      rw [dumps, encodable_append, encodable_ofChars, Bool.true_and, encodable_dumpsFields fields]
      rfl

theorem encodable_dumpsElems : ∀ xs : List PyJson,
    PyStr.encodable (dumpsElems xs) = encodableElems xs
  | [] => encodable_ofChars _
  | [x] => by
      simp [dumpsElems, encodableElems, encodable_dumps x]
  | x :: y :: xs => by
      have hrest := encodable_dumpsElems (y :: xs)
      rw [dumpsElems, encodable_append, encodable_append, encodable_ofChars, Bool.true_and, hrest,
        encodable_dumps x]
      rfl

theorem encodable_dumpsFields : ∀ fields : List (PyStr × PyJson),
    PyStr.encodable (dumpsFields fields) = encodableFields fields
  | [] => encodable_ofChars _
  | [(key, x)] => by
      simp [dumpsFields, encodableFields, encodable_dumps x]
  | (key, x) :: field :: fields => by
      have hrest := encodable_dumpsFields (field :: fields)
      rw [dumpsFields, encodable_append, encodable_append, encodable_append, encodable_append,
        encodable_quote, encodable_ofChars, encodable_ofChars, Bool.true_and, Bool.true_and, hrest,
        encodable_dumps x]
      rfl

end

theorem encodable_mem_elems {xs : List PyJson} (h : encodableElems xs = true) :
    ∀ x ∈ xs, x.encodable = true := by
  induction xs with
  | nil => nofun
  | cons x xs ih =>
    obtain ⟨hx, hxs⟩ := Bool.and_eq_true_iff.mp h
    exact List.forall_mem_cons.mpr ⟨hx, ih hxs⟩

/-- A field of an object that can be encoded. -/
theorem encodable_get? {d : PyDict} (h : encodableFields d = true) {key : String} {value : PyJson}
    (hget : d.get? key = some value) : value.encodable = true := by
  have hmem : ∀ field ∈ d, field.2.encodable = true := by
    clear hget
    induction d with
    | nil => nofun
    | cons field d ih =>
      obtain ⟨hkey, hrest⟩ := Bool.and_eq_true_iff.mp h
      obtain ⟨hfield, hd⟩ := Bool.and_eq_true_iff.mp hrest
      exact List.forall_mem_cons.mpr ⟨hfield, ih hd⟩
  obtain ⟨field, hfind, rfl⟩ := Option.map_eq_some_iff.mp hget
  exact hmem field (List.mem_of_find?_eq_some hfind)

end PyJson
