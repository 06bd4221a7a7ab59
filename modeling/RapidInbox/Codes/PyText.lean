import Mathlib.Data.List.DropRight
import RapidInbox.Codes.Candidate
import RapidInbox.Domain.MatcherSources
import RapidInbox.Lib.PyJson
import RapidInbox.Live.Cursor

/-!
# The text of a mail in Python

`verification_code.py:227-259, 300-352`: the expressions that clean a text.  What the tables of Unicode
and of HTML entities say is a parameter.
-/

namespace RapidInbox

/-- What the interpreter's tables say of texts. -/
structure PyTables where
  /-- `\w` -/
  isWord : CodePoint → Bool
  /-- The simple lower case, by which expressions ignore case. -/
  lower : CodePoint → CodePoint
  /-- `str.casefold` -/
  casefold : PyStr → PyStr
  /-- `html.unescape` -/
  unescape : PyStr → PyStr

namespace PyCode

variable (T : PyTables)

def text (s : String) : PyStr := PyStr.ofChars s.toList

/-! ## Classes -/

/-- `\s`, and what `strip` removes. -/
def isSpace (c : CodePoint) : Bool := Py.whitespace.contains c.val

/-- `\d` -/
def isDecimal (c : CodePoint) : Bool := decimalZeros.any fun z => z ≤ c.val && decide (c.val < z + 10)

def inRange (first last : Char) (c : CodePoint) : Bool := first.toNat ≤ c.val && c.val ≤ last.toNat

def asciiDigit : CodePoint → Bool := inRange '0' '9'

def asciiLetter (c : CodePoint) : Bool := inRange 'a' 'z' c || inRange 'A' 'Z' c

def asciiAlnum (c : CodePoint) : Bool := asciiDigit c || asciiLetter c

/-- `[...]` without ranges. -/
def oneOf (s : String) (c : CodePoint) : Bool := (text s).contains c

/-- `c` matches the letter `p` of an expression that ignores case: `i` and `s` have a variant each that
    is a lower case letter too. -/
def ignoresCase (p c : CodePoint) : Bool :=
  if inRange 'a' 'z' p then
    T.lower c == p || (p == .ofChar 'i' && T.lower c == .ofChar 'ı') ||
      (p == .ofChar 's' && T.lower c == .ofChar 'ſ')
  else c == p

/-- `[a-z]` where case is ignored. -/
def anyLetter (c : CodePoint) : Bool :=
  inRange 'a' 'z' (T.lower c) || T.lower c == .ofChar 'ı' || T.lower c == .ofChar 'ſ'

/-! ## Expressions -/

def cls (p : CodePoint → Bool) : Regex CodePoint := .one p

/-- The letters of a text, case ignored. -/
def word (s : String) : Regex CodePoint := .cat ((text s).map fun p => .one (ignoresCase T p))

def words (names : List String) : Regex CodePoint := .choice (names.map (word T))

def spaces : Regex CodePoint := .plus (cls isSpace)

/-- `<[^>]+>` -/
def tagRe : Regex CodePoint := .cat [cls (oneOf "<"), .plus (cls fun c => !oneOf ">" c), cls (oneOf ">")]

/-- `<(script|style)\b[^>]*>.*?</\1>` -/
def scriptStyleRe : Regex CodePoint :=
  .cat [cls (oneOf "<"), .group (words T ["script", "style"]), .boundary T.isWord,
    .star (cls fun c => !oneOf ">" c), cls (oneOf ">"), .lazyStar (cls fun _ => true), word T "</",
    .backref fun a b => T.lower a == T.lower b, cls (oneOf ">")]

/-- `</?(?:p|div|h[1-6]|...)[^>]*>` -/
def blockTagRe : Regex CodePoint :=
  .cat [cls (oneOf "<"), .optional (cls (oneOf "/")),
    .choice [words T ["p", "div"], .seq (word T "h") (cls (inRange '1' '6')),
      words T ["li", "ul", "ol", "tr", "td", "th", "table", "br", "hr", "blockquote", "article",
        "section"]],
    .star (cls fun c => !oneOf ">" c), cls (oneOf ">")]

/-- `\s(?:style|class|id|src|href|data-[\w-]+)="[^"]*"` -/
def styleAttrRe : Regex CodePoint :=
  .cat [cls isSpace,
    .choice [words T ["style", "class", "id", "src", "href"],
      .seq (word T "data-") (.plus (cls fun c => T.isWord c || oneOf "-" c))],
    word T "=\"", .star (cls fun c => !oneOf "\"" c), cls (oneOf "\"")]

/-- `https?://\S+` -/
def urlRe : Regex CodePoint :=
  .cat [word T "http", .optional (word T "s"), word T "://", .plus (cls fun c => !isSpace c)]

/-- `[\w.+-]+@[\w.-]+\.\w+` -/
def emailRe : Regex CodePoint :=
  .cat [.plus (cls fun c => T.isWord c || oneOf ".+-" c), cls (oneOf "@"),
    .plus (cls fun c => T.isWord c || oneOf ".-" c), cls (oneOf "."), .plus (cls T.isWord)]

/-- `(?<!\d)\d{9,}(?!\d)` -/
def longDigitRe : Regex CodePoint :=
  .cat [.notBehind isDecimal, .rep true 9 none (cls isDecimal), .notAhead isDecimal]

/-- `[¥$€£￥]\s?\d[\d,.]*` -/
def currencyRe : Regex CodePoint :=
  .cat [cls (oneOf "¥$€£￥"), .optional (cls isSpace), cls isDecimal,
    .star (cls fun c => isDecimal c || oneOf ",." c)]

/-- `(?<!\d)(?:19|20)\d{2}(?!\d)` -/
def yearRe : Regex CodePoint :=
  .cat [.notBehind isDecimal,
    .choice [.cat [cls (oneOf "1"), cls (oneOf "9")], .cat [cls (oneOf "2"), cls (oneOf "0")]],
    .between 2 2 (cls isDecimal), .notAhead isDecimal]

/-! ## Normalization -/

def strip (s : PyStr) : PyStr := (s.dropWhile isSpace).rdropWhile isSpace

def normalizeWhitespace (source : PyStr) : PyStr :=
  if source.isEmpty then [] else strip (spaces.sub (text " ") source)

def htmlToText (source : PyStr) : PyStr :=
  if source.isEmpty then []
  else
    let cleaned := (scriptStyleRe T).sub (text " ") source
    let cleaned := (blockTagRe T).sub (text "\n") cleaned
    let cleaned := (styleAttrRe T).sub (text " ") cleaned
    T.unescape (tagRe.sub (text " ") cleaned)

def stripIrrelevantTokens (source : PyStr) : PyStr :=
  let cleaned := (urlRe T).sub (text " ") source
  let cleaned := (emailRe T).sub (text " ") cleaned
  let cleaned := currencyRe.sub (text " ") cleaned
  let cleaned := longDigitRe.sub (text " ") cleaned
  normalizeWhitespace (yearRe.sub (text " ") cleaned)

end PyCode
end RapidInbox
