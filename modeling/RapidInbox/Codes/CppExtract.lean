import RapidInbox.Codes.CppText

/-!
# Verification codes in C++

`verification_code.cpp:169-198, 512-860`: the hints, the two passes that find candidates, their scores,
and `extract_verification_code`.
-/

namespace RapidInbox
namespace CppCode

open Mime (asciiSpace trim lowerAscii ascii)

def kContextRadius : Nat := 48

/-- `hints()` -/
def hints : List Bytes :=
  ["验证码", "确认码", "登录码", "安全码", "动态密码", "授权码", "验证代码", "代码为", "您的代码", "你的代码",
    "openai 代码", "代码", "認証コード", "確認コード", "検証コード", "一時検証コード", "一時的な認証コード",
    "コード", "인증 코드", "인증코드", "확인 코드", "임시 인증 코드", "코드는", "코드",
    "código de verificación", "codigo de verificacion", "código de verificação",
    "codigo de verificacao", "code de vérification", "code de verification", "votre code",
    "seu código", "seu codigo", "código do openai", "codigo do openai", "dein code",
    "code für openai", "code fur openai", "code openai", "your openai code", "bestätigungscode",
    "bestaetigungscode", "codice di verifica", "codice verifica", "verification code", "verify code",
    "security code", "login code", "sign-in code", "sign in code", "signin code", "one-time code",
    "one time code", "otp", "passcode", "pass code", "confirmation code", "temporary code",
    "authentication code", "authorization code", "verify your email", "verify your account",
    "confirm your email", "confirm your sign-in", "confirm your sign in", "your code is", "code is",
    "code:", "enter this code", "enter the code", "use this code", "please use the code"].map utf8

def senderHints : List Bytes :=
  ["verify", "verification", "otp", "noreply", "no-reply", "account", "security", "accounts"].map utf8

def subjectHints : List Bytes :=
  ["code", "otp", "verify", "verification", "confirm", "sign in", "sign-in", "signin", "登录", "验证",
    "确认", "代码", "验证码", "コード", "認証", "認証コード", "検証", "検証コード", "確認コード", "인증",
    "인증 코드", "코드", "código", "codigo", "vérification", "verificação", "bestätigung",
    "bestätigungscode", "codice", "verifica"].map utf8

def looksLikeVerificationMessage (sender subject text : Bytes) : Bool :=
  let loweredSubject := lowerAscii subject
  Search.containsAny hints (lowerAscii text) || Search.containsAny hints loweredSubject ||
    (Search.containsAny subjectHints loweredSubject &&
      Search.containsAny senderHints (lowerAscii sender))

/-! ## Candidates -/

def canonicalDigits (value : Bytes) : Bytes := value.filter asciiDigit

/-- `std::toupper` in the C locale. -/
def toUpper (ch : UInt8) : UInt8 := if 0x61 ≤ ch && ch ≤ 0x7A then ch - 32 else ch

def canonicalAlnum (value : Bytes) : Bytes := (value.filter asciiAlnum).map toUpper

def stopWords : List Bytes :=
  ["http", "https", "mail", "email", "gmail", "yahoo", "inbox", "code", "codes", "login", "signup",
    "subject", "header", "sender", "client", "please", "thanks", "support", "notice", "noreply",
    "account", "action", "update", "confirm", "verify", "welcome", "expire", "expires", "token",
    "secret", "minutes", "minute", "style", "width", "height", "table", "title", "class", "message",
    "content", "report", "server", "tracking", "order", "orders", "shipment", "invoice",
    "receipt"].map utf8

def isStopWord (value : Bytes) : Bool := stopWords.contains (lowerAscii value)

/-- What `record_candidate` asks of a code.  No pass finds a candidate of the shape `hex`. -/
def admits (shape : CodeShape) (code : Bytes) : Bool :=
  match shape with
  | .digits => decide (4 ≤ code.length ∧ code.length ≤ 8)
  | .groupedDigits => decide (4 ≤ code.length ∧ code.length ≤ 10)
  | .alnum =>
    decide (4 ≤ code.length ∧ code.length ≤ 10) && code.any asciiDigit && !code.all asciiDigit &&
      !isStopWord code
  | .hex => false

def rules : CodeCandidate.Rules UInt8 where
  canonical shape display := if shape = .alnum then canonicalAlnum display else canonicalDigits display
  admits := admits

/-- The loop of a pass.  A run of bytes starts with one that `starts` admits behind no letter and no
    digit; `spanOf` is given the text from there and the length of the run, which is passed in any
    case. -/
def spansFrom (starts inRun : UInt8 → Bool) (spanOf : Bytes → Nat → Option (Nat × CodeShape)) :
    Nat → Nat → Option UInt8 → Bytes → List (Nat × Nat × CodeShape)
  | _, _, _, [] => []
  | index, skip + 1, _, ch :: rest => spansFrom starts inRun spanOf (index + 1) skip (some ch) rest
  | index, 0, before, ch :: rest =>
    if starts ch = false ∨ before.any asciiAlnum = true then
      spansFrom starts inRun spanOf (index + 1) 0 (some ch) rest
    else
      let run := (ch :: rest).takeWhile inRun
      let found := (spanOf (ch :: rest) run.length).toList.map fun span =>
        (index, index + span.1, span.2)
      found ++ spansFrom starts inRun spanOf (index + 1) (run.length - 1) (some ch) rest

def digitSeparator (ch : UInt8) : Bool := ch == 0x2D || ch == 0x20

/-- The run without the separators at its end; nothing if a letter follows it. -/
def digitSpan (text : Bytes) (length : Nat) : Option (Nat × CodeShape) :=
  let run := text.take length
  let width := (run.rdropWhile digitSeparator).length
  if width = 0 ∨ text[width]?.any asciiAlnum = true then none
  else some (width, if run.any digitSeparator then .groupedDigits else .digits)

def digitSpans (text : Bytes) : List (Nat × Nat × CodeShape) :=
  spansFrom asciiDigit (fun ch => asciiDigit ch || digitSeparator ch) digitSpan 0 0 none text

def alnumSpans (text : Bytes) : List (Nat × Nat × CodeShape) :=
  spansFrom asciiAlnum asciiAlnum (fun _ length => some (length, .alnum)) 0 0 none text

def enumerateCandidates (text : Bytes) : List (CodeCandidate UInt8) :=
  CodeCandidate.recordAll rules text (digitSpans text ++ alnumSpans text)

/-! ## Scores -/

def decimalValue (code : Bytes) : Nat := code.foldl (fun value ch => value * 10 + (ch - 0x30).toNat) 0

def dummies : List Bytes :=
  ["0000", "00000", "000000", "1111", "111111", "123456", "12345678"].map utf8

/-- `score_candidate`.  The search for the line feed before a candidate begins at the candidate. -/
def scoreCandidate (subject fullText htmlPlain : Bytes) (c : CodeCandidate UInt8) : ℚ :=
  let nearby := CodeCandidate.contextHitNearby kContextRadius hints (lowerAscii fullText) c.start c.stop
  let inSubject := !subject.isEmpty &&
    (Search.contains c.display subject || Search.contains c.code subject)
  let line := trim (CodeCandidate.lineAround 0x0A fullText (c.start + 1) c.stop)
  CodeCandidate.hintScore kContextRadius nearby + (if inSubject then 5 / 2 else 0) +
    (if Search.containsAny hints (lowerAscii subject) then 3 / 2 else 0) + c.shapeScore +
    c.lineScore line +
    (if !htmlPlain.isEmpty && Search.contains c.display htmlPlain then 1 / 5 else 0) -
    c.dummyPenalty decimalValue dummies

def isInDisjunction (text : Bytes) (candidates : List (CodeCandidate UInt8))
    (chosen : CodeCandidate UInt8) : Bool :=
  let window := lowerAscii (Regex.slice text (chosen.start - 80) (min text.length (chosen.stop + 80)))
  Search.containsAny ([" or ", "/", "\\", "或", "或者"].map utf8) window &&
    candidates.any fun peer =>
      decide (peer.code ≠ chosen.code) && Search.contains (lowerAscii peer.display) window

/-! ## The extractor -/

/-- The parts that are there, each on a line of its own. -/
def contextText (parts : List Bytes) : Bytes :=
  [0x0A].intercalate (parts.filter fun part => !part.isEmpty)

/-- A mail as it is looked at: the subject, the page without tags, and the cleaned text. -/
structure Cleaned where
  subject : Bytes
  htmlPlain : Bytes
  text : Bytes

/-- The first half of `extract_verification_code`: a mail that may hold a code. -/
def cleanedMail (subject sender textBody htmlBody preview : Bytes) : Option Cleaned :=
  let subjectText := normalizeWhitespace subject
  let plainText := normalizeBodyText textBody
  let htmlPlain := normalizeBodyText (htmlToText htmlBody)
  let previewText := if plainText.isEmpty && htmlPlain.isEmpty then normalizeBodyText preview else []
  let context := contextText [subjectText, plainText, htmlPlain, previewText]
  if context.isEmpty ∨ looksLikeVerificationMessage sender subjectText context = false then none
  else
    let text := stripIrrelevantTokens context
    if text.isEmpty then none else some ⟨subjectText, htmlPlain, text⟩

/-- What the candidates of a mail score. -/
def Cleaned.score (mail : Cleaned) : CodeCandidate UInt8 → ℚ :=
  scoreCandidate mail.subject mail.text mail.htmlPlain

/-- The second half. -/
def Cleaned.code? (mail : Cleaned) : Option Bytes :=
  let candidates := enumerateCandidates mail.text
  let positive := candidates.filter fun c => decide (0 < mail.score c)
  CodeCandidate.publish id mail.score (isInDisjunction mail.text candidates)
    (TopTwo.ofList mail.score positive)

def extractVerificationCode (subject sender textBody htmlBody preview : Bytes) : Option Bytes :=
  (cleanedMail subject sender textBody htmlBody preview).bind Cleaned.code?

/-! ## What is found -/

theorem spansFrom_lie {starts inRun : UInt8 → Bool} {spanOf : Bytes → Nat → Option (Nat × CodeShape)}
    (hspan : ∀ text width shape, spanOf text (text.takeWhile inRun).length = some (width, shape) →
      width ≤ text.length)
    {index skip : Nat} {before : Option UInt8} {text : Bytes} :
    ∀ span ∈ spansFrom starts inRun spanOf index skip before text,
      span.1 ≤ span.2.1 ∧ span.2.1 ≤ index + text.length := by
  induction text generalizing index skip before with
  | nil =>
    intro span h
    cases skip <;> exact absurd h List.not_mem_nil
  | cons ch rest ih =>
    have hlonger : index + 1 + rest.length = index + (ch :: rest).length := by
      rw [List.length_cons]
      omega
    cases skip with
    | succ skip =>
      intro span h
      rw [← hlonger]
      exact ih span h
    | zero =>
      intro span h
      unfold spansFrom at h
      split at h
      · rw [← hlonger]
        exact ih span h
      · dsimp only at h
        rcases List.mem_append.mp h with h | h
        · obtain ⟨found, hfound, rfl⟩ := List.mem_map.mp h
          have hlie := hspan (ch :: rest) found.1 found.2 (Option.mem_toList.mp hfound)
          exact ⟨Nat.le_add_right _ _, Nat.add_le_add_left hlie index⟩
        · rw [← hlonger]
          exact ih span h

theorem digitSpan_lies {text : Bytes} {length width : Nat} {shape : CodeShape}
    (h : digitSpan text length = some (width, shape)) : width ≤ text.length := by
  unfold digitSpan at h
  dsimp only at h
  split at h
  · cases h
  · cases h
    refine (List.rdropWhile_prefix digitSeparator (text.take length)).length_le.trans ?_
    exact List.length_take_le' length text

theorem spans_lie (text : Bytes) : ∀ span ∈ digitSpans text ++ alnumSpans text,
    span.1 ≤ span.2.1 ∧ span.2.1 ≤ text.length := by
  have halnum (text : Bytes) (width : Nat) (shape : CodeShape)
      (h : some ((text.takeWhile asciiAlnum).length, CodeShape.alnum) = some (width, shape)) :
      width ≤ text.length := by
    cases h
    exact (List.takeWhile_prefix asciiAlnum).length_le
  intro span h
  rcases List.mem_append.mp h with h | h
  · have hlie := spansFrom_lie (fun _ _ _ => digitSpan_lies) span h
    exact ⟨hlie.1, by simpa using hlie.2⟩
  · have hlie := spansFrom_lie halnum span h
    exact ⟨hlie.1, by simpa using hlie.2⟩

/-- The candidates are parts of the text and have distinct codes. -/
theorem recorded_enumerateCandidates (text : Bytes) :
    CodeCandidate.Recorded rules text (enumerateCandidates text) :=
  CodeCandidate.recorded_recordAll (spans_lie text)

end CppCode
end RapidInbox
