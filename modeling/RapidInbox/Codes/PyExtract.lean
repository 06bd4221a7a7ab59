import RapidInbox.Codes.PyText

/-!
# Verification codes in Python

`verification_code.py:33-109, 152-226, 261-299, 355-614`: the hints, the expressions that find
candidates, their scores, and `extract_verification_code`.
-/

namespace RapidInbox
namespace PyCode

variable (T : PyTables)

/-! ## Context detection -/

/-- `_HINTS_CORE` -/
def hintsCore : List PyStr :=
  ["验证码", "校验码", "动态密码", "动态码", "安全码", "授权码", "确认码", "确认代码", "操作确认码", "验证代码",
    "代码为", "您的代码", "你的代码", "openai 代码", "代码", "登录码", "登入码", "登录验证码", "注册码",
    "一次性密码", "短信验证码", "邮件验证码", "邮箱验证码", "验证您的", "验证你的", "以验证", "请使用以下",
    "请使用下方", "请输入下方",
    "verification code", "verify code", "verification pin", "security code", "login code",
    "sign in code", "sign-in code", "signin code", "access code", "authentication code",
    "authorization code", "confirmation code", "one-time code", "one time code",
    "one-time password", "one time password", "otp", "passcode", "pass code", "temporary code",
    "magic code", "activation code", "please use the code", "use the code", "use this code",
    "enter this code", "enter the code", "enter the following", "your code is", "code:", "code is",
    "code to verify", "code to confirm", "code to continue", "code to sign in",
    "confirm your sign-in", "confirm your sign in", "confirm your signin", "confirm your login",
    "confirm your identity", "verify your email", "verify your account", "confirm your email",
    "confirm your identity", "to complete the sign-in", "to complete sign-in",
    "to complete the signin", "to finish signing",
    "認証コード", "確認コード", "検証コード", "一時検証コード", "一時的な認証コード", "ワンタイム", "コード",
    "인증 코드", "인증코드", "확인 코드", "임시 인증 코드", "코드는", "코드",
    "código de verificación", "codigo de verificacion", "código de verificação",
    "codigo de verificacao", "code de vérification", "code de verification", "votre code",
    "seu código", "seu codigo", "código do openai", "codigo do openai", "dein code",
    "code für openai", "code fur openai", "code openai", "your openai code", "bestätigungscode",
    "bestaetigungscode", "codice di verifica", "codice verifica"].map text

/-- `_HINT_TOPIC_PATTERNS` -/
def hintTopicPatterns : List (Regex CodePoint) :=
  let gap (most : Nat) (p : CodePoint → Bool) := Regex.between 0 most (cls p)
  [.cat [word T "verify", gap 40 fun c => !oneOf "." c, word T "email"],
    .cat [word T "verify", gap 40 fun c => !oneOf "." c, word T "account"],
    .cat [word T "your", spaces, .plus (cls (anyLetter T)), spaces,
      words T ["verification", "login", "sign-in", "sign in", "passcode"], spaces, word T "code"],
    .cat [word T "temporary", spaces, .plus (cls (anyLetter T)), spaces, word T "code"],
    .cat [words T ["登录", "注册", "验证", "绑定", "找回", "解绑", "重置"],
      gap 14 fun c => !oneOf "\n" c, words T ["验证码", "动态密码", "安全码"]]]

def senderHints : List PyStr :=
  ["verify", "verification", "otp", "noreply", "no-reply", "account", "security", "accounts"].map text

def subjectKeywords : List PyStr :=
  ["code", "otp", "verify", "verification", "confirm", "sign in", "sign-in", "signin", "登录", "验证",
    "确认", "代码", "验证码", "コード", "認証", "認証コード", "検証", "検証コード", "確認コード", "인증",
    "인증 코드", "코드", "código", "codigo", "vérification", "verificação", "bestätigung",
    "bestätigungscode", "codice", "verifica"].map text

def looksLikeVerificationMessage (sender subject source : PyStr) : Bool :=
  let loweredSubject := T.casefold subject
  Search.containsAny hintsCore (T.casefold source) || Search.containsAny hintsCore loweredSubject ||
    (hintTopicPatterns T).any (·.search source) ||
    (Search.containsAny subjectKeywords loweredSubject &&
      Search.containsAny senderHints (T.casefold sender))

/-! ## Candidates -/

/-- `[\w\d]` -/
def wordOrDigit (c : CodePoint) : Bool := T.isWord c || isDecimal c

/-- An expression between characters that are no letter and no digit. -/
def otpRe (r : Regex CodePoint) : Regex CodePoint :=
  .cat [.notBehind (wordOrDigit T), .group r, .notAhead (wordOrDigit T)]

/-- `\d{4,8}` -/
def digitOtpRe : Regex CodePoint := otpRe T (.between 4 8 (cls isDecimal))

/-- `\d{2,4}(?:[-\s]\d{2,4}){1,3}` -/
def groupedOtpRe : Regex CodePoint :=
  let digits := Regex.between 2 4 (cls isDecimal)
  otpRe T (.seq digits (.between 1 3 (.seq (cls fun c => oneOf "-" c || isSpace c) digits)))

/-- `[A-Za-z][A-Za-z0-9]{3,9}|[A-Za-z0-9]{4,10}` -/
def alnumOtpRe : Regex CodePoint :=
  otpRe T (.alt (.seq (cls asciiLetter) (.between 3 9 (cls asciiAlnum)))
    (.between 4 10 (cls asciiAlnum)))

/-- `[0-9a-fA-F]+` -/
def hexRe : Regex CodePoint := .plus (cls fun c => asciiDigit c || inRange 'a' 'f' c || inRange 'A' 'F' c)

def stopWords : List PyStr :=
  ["http", "https", "mail", "email", "gmail", "yahoo", "inbox", "code", "codes", "login", "signup",
    "subject", "header", "sender", "client", "please", "thanks", "regards", "replies",
    "unsubscribe", "support", "notice", "noreply", "account", "action", "update", "updates",
    "confirm", "verify", "welcome", "friend", "family", "expire", "expired", "expires", "token",
    "secret", "please", "minutes", "minute", "seconds", "hours", "today", "false", "true", "null",
    "color", "style", "width", "height", "table", "title", "class", "theme", "link", "links",
    "message", "messages", "content", "media", "report", "server", "tracking", "order", "orders",
    "shipment", "shipped", "delivered", "invoice", "receipt", "amount"].map text

/-- `str.upper` of a letter or digit of ASCII. -/
def upper (c : CodePoint) : CodePoint := if inRange 'a' 'z' c then c - 32 else c

/-- `str.lower` of a letter or digit of ASCII. -/
def lower (c : CodePoint) : CodePoint := if inRange 'A' 'Z' c then c + 32 else c

/-- `_canonicalize` -/
def canonicalize (shape : CodeShape) (token : PyStr) : PyStr :=
  match shape with
  | .digits | .groupedDigits => token.filter isDecimal
  | .alnum | .hex => (token.filter asciiAlnum).map upper

/-- What `_record` asks of a code. -/
def admits (shape : CodeShape) (code : PyStr) : Bool :=
  match shape with
  | .digits => decide (4 ≤ code.length ∧ code.length ≤ 8)
  | .groupedDigits => decide (4 ≤ code.length ∧ code.length ≤ 10)
  | .alnum | .hex =>
    decide (4 ≤ code.length ∧ code.length ≤ 10) && !code.all asciiLetter && !code.all asciiDigit &&
      !stopWords.contains (code.map lower)

def rules : CodeCandidate.Rules CodePoint where
  canonical := canonicalize
  admits := admits

/-- `match.span(1)` -/
def matchSpan (m : Regex.Match) : Nat × Nat := m.group.getD (m.start, m.stop)

def spansOf (r : Regex CodePoint) (shape : PyStr → CodeShape) (source : PyStr) :
    List (Nat × Nat × CodeShape) :=
  (r.finditer source).map fun m =>
    let span := matchSpan m
    (span.1, span.2, shape (Regex.slice source span.1 span.2))

def enumerateCandidates (source : PyStr) : List (CodeCandidate CodePoint) :=
  CodeCandidate.recordAll rules source
    (spansOf (groupedOtpRe T) (fun _ => .groupedDigits) source ++
      spansOf (digitOtpRe T) (fun _ => .digits) source ++
      spansOf (alnumOtpRe T) (fun token => if hexRe.fullmatch token then .hex else .alnum) source)

/-! ## Scores -/

def contextRadius : Nat := 140

/-- The value of a digit. -/
def digitValue (c : CodePoint) : Nat :=
  ((decimalZeros.find? fun z => z ≤ c.val && decide (c.val < z + 10)).map (c.val - ·)).getD 0

/-- `int` of decimal digits. -/
def decimalValue (code : PyStr) : Nat := code.foldl (fun value c => value * 10 + digitValue c) 0

def dummies : List PyStr :=
  ["0000", "00000", "000000", "1111", "111111", "123456", "12345678"].map text

/-- Wrapped by asterisks, brackets or quote marks. -/
def emphasisScore (surrounding : PyStr) : ℚ :=
  if (text "**").isPrefixOf surrounding ∧ (text "**").isSuffixOf surrounding then 1
  else if surrounding.head?.any (oneOf "[【「“\"") ∧ surrounding.getLast?.any (oneOf "]】」”\"") then 3 / 5
  else 0

/-- `_score_candidate` -/
def scoreCandidate (subject fullText htmlPlain : PyStr) (c : CodeCandidate CodePoint) : ℚ :=
  let nearby := CodeCandidate.contextHitNearby contextRadius hintsCore (T.casefold fullText) c.start c.stop
  let line := strip (CodeCandidate.lineAround (.ofChar '\n') fullText c.start c.stop)
  let surrounding := Regex.slice fullText (c.start - 2) (min fullText.length (c.stop + 2))
  CodeCandidate.hintScore 60 nearby +
    (if !subject.isEmpty && Search.contains c.display subject then 5 / 2 else 0) +
    (if Search.containsAny hintsCore (T.casefold subject) then 3 / 2 else 0) + c.shapeScore +
    c.lineScore line + emphasisScore surrounding - c.dummyPenalty decimalValue dummies +
    (if !htmlPlain.isEmpty && Search.contains c.display htmlPlain then 1 / 5 else 0)

/-- `$`: at the end, or before a line feed that ends the text. -/
def atEnd : Regex CodePoint :=
  .assert fun source i => source.drop i == [] || source.drop i == text "\n"

/-- `(?:\s|^)(?:or|either|/|\\|、|或|或者|又或者)(?:\s|$)` -/
def disjunctionRe : Regex CodePoint :=
  .cat [.alt (cls isSpace) .atStart, words T ["or", "either", "/", "\\", "、", "或", "或者", "又或者"],
    .alt (cls isSpace) atEnd]

def isInDisjunction (source : PyStr) (candidates : List (CodeCandidate CodePoint))
    (chosen : CodeCandidate CodePoint) : Bool :=
  let peers := candidates.filter fun c => decide (c.code ≠ chosen.code)
  let window := Regex.slice source (chosen.start - 80) (min source.length (chosen.stop + 80))
  !peers.isEmpty && (disjunctionRe T).search window &&
    peers.any fun peer =>
      Search.contains peer.display window && decide (peer.display ≠ chosen.display)

/-! ## The extractor -/

/-- A mail as it is looked at: the subject, the page without tags, and the cleaned text. -/
structure Cleaned where
  subject : PyStr
  htmlPlain : PyStr
  text : PyStr

/-- The first half of `extract_verification_code`: a mail that may hold a code. -/
def cleanedMail (subject sender textBody htmlBody preview : Option PyStr) : Option Cleaned :=
  let subjectText := normalizeWhitespace (subject.getD [])
  let senderText := strip (sender.getD [])
  let plainText := normalizeWhitespace (textBody.getD [])
  let htmlPlain := normalizeWhitespace (htmlToText T (htmlBody.getD []))
  let previewText := normalizeWhitespace (preview.getD [])
  let parts := [subjectText, plainText, htmlPlain].filter fun part => !part.isEmpty
  let parts :=
    if plainText.isEmpty ∧ htmlPlain.isEmpty ∧ previewText.isEmpty = false then parts ++ [previewText]
    else parts
  let context := (text "\n").intercalate parts
  if context.isEmpty ∨ looksLikeVerificationMessage T senderText subjectText context = false then none
  else
    let cleaned := stripIrrelevantTokens T context
    if cleaned.isEmpty then none else some ⟨subjectText, htmlPlain, cleaned⟩

/-- What the candidates of a mail score. -/
def Cleaned.score (mail : Cleaned) : CodeCandidate CodePoint → ℚ :=
  scoreCandidate T mail.subject mail.text mail.htmlPlain

/-- The key that ranks a candidate and its index: `(score, -index)`. -/
def Cleaned.key (mail : Cleaned) (c : CodeCandidate CodePoint × Nat) : ℚ ×ₗ ℤ :=
  toLex (mail.score T c.1, -(c.2 : ℤ))

/-- The second half. -/
def Cleaned.code? (mail : Cleaned) : Option PyStr :=
  let candidates := enumerateCandidates T mail.text
  let positive := candidates.zipIdx.filter fun c => decide (0 < mail.score T c.1)
  CodeCandidate.publish Prod.fst (mail.score T) (isInDisjunction T mail.text candidates)
    (TopTwo.ofList (mail.key T) positive)

def extractVerificationCode (subject sender textBody htmlBody preview : Option PyStr) :
    Option PyStr :=
  (cleanedMail T subject sender textBody htmlBody preview).bind (Cleaned.code? T)

/-! ## What is found -/

theorem spansOf_lie (r : Regex CodePoint) (shape : PyStr → CodeShape) (source : PyStr) :
    ∀ span ∈ spansOf r shape source, span.1 ≤ span.2.1 ∧ span.2.1 ≤ source.length := by
  intro span h
  obtain ⟨m, hm, rfl⟩ := List.mem_map.mp h
  have hlies := Regex.finditer_lies r source m hm
  show (matchSpan m).1 ≤ (matchSpan m).2 ∧ (matchSpan m).2 ≤ source.length
  unfold matchSpan
  cases hgroup : m.group with
  | none => exact ⟨hlies.le, hlies.stop_le⟩
  | some span => exact hlies.group span hgroup

/-- The candidates are parts of the text and have distinct codes. -/
theorem recorded_enumerateCandidates (source : PyStr) :
    CodeCandidate.Recorded rules source (enumerateCandidates T source) := by
  apply CodeCandidate.recorded_recordAll
  intro span h
  rcases List.mem_append.mp h with h | h
  · rcases List.mem_append.mp h with h | h
    · exact spansOf_lie _ _ source span h
    · exact spansOf_lie _ _ source span h
  · exact spansOf_lie _ _ source span h

end PyCode
end RapidInbox
