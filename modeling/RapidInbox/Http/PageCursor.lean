import RapidInbox.Domain.MatcherSources
import RapidInbox.Ingest.MailJob
import RapidInbox.Lib.Base64
import RapidInbox.Lib.PyJsonAscii
import RapidInbox.Lib.Result
import RapidInbox.Lib.Utf8

/-!
# Page cursors

`_encode_cursor` and `_decode_cursor` (`app/http/api_v2.py:322-408`).  A cursor is a payload and its
HMAC, each in base64url without padding, with a dot between them.
-/

namespace RapidInbox

open CodePoint PyStr PyJson

/-- `ApiProblem` -/
structure ApiProblem where
  statusCode : Nat
  code : String
  detail : String
  deriving DecidableEq, Repr

/-- `hmac.digest` with SHA-256, `hashlib.sha256` and the comparison of a float with an integer. -/
structure CursorEnv where
  hmac : Bytes → Bytes → Bytes
  hmac_length : ∀ key message, (hmac key message).length = 32
  sha256 : Bytes → Bytes
  floatEq : List Char → Int → Bool

/-- The settings that the signing key depends on. -/
structure CursorSettings where
  apiCursorSecret : Text
  externallyBound : Bool
  databasePath : Text

namespace ApiV2

variable (E : CursorEnv) (settings : CursorSettings)

def invalidCursor : ApiProblem := ⟨400, "invalid_cursor", "The pagination cursor is invalid."⟩

def invalidCursorForQuery : ApiProblem :=
  ⟨400, "invalid_cursor", "The pagination cursor is invalid for this query."⟩

/-! ## Signing and base64url -/

/-- `hexdigest` -/
def hexdigest (bs : Bytes) : List Char :=
  bs.flatMap fun b => [Nat.digitChar (b.toNat / 16), Nat.digitChar (b.toNat % 16)]

/-- `json.dumps(value, sort_keys=True, separators=(",", ":"))` as UTF-8. -/
def dumpsSorted (value : PyDict) : Bytes := Utf8.encode (dumpsAscii (sortKeys (.dict value)))

/-- `_filter_fingerprint` -/
def filterFingerprint (filters : PyDict) : PyStr :=
  PyStr.ofChars ((hexdigest (E.sha256 (dumpsSorted filters))).take 24)

/-- `_cursor_signing_key` -/
def cursorSigningKey : Except ApiProblem Bytes :=
  let configuredSecret := Py.strip settings.apiCursorSecret
  let label := Utf8.encode "rapid-inbox-api-v2-cursor-v1".toList
  if configuredSecret ≠ [] then .ok (E.hmac (Utf8.encode configuredSecret) label)
  else if settings.externallyBound then
    .error ⟨500, "cursor_signing_unavailable", "API cursor signing is not configured."⟩
  else
    .ok (E.hmac (Utf8.encode ("rapid-inbox-loopback-cursor:".toList ++ settings.databasePath)) label)

def b64urlAlphabet : List Char :=
  "ABCDEFGHIJKLMNOPQRSTUVWXYZabcdefghijklmnopqrstuvwxyz0123456789-_".toList

def b64urlLetter (digit : Nat) : CodePoint := ofChar (b64urlAlphabet.getD digit 'A')

/-- `_b64url_encode` -/
def b64urlEncode (value : Bytes) : PyStr :=
  ((Base64.encode b64urlLetter (ofChar '=') true value).reverse.dropWhile (· = ofChar '=')).reverse

/-- The digit of a letter after `altchars` was translated; `+` and `/` are still there. -/
def b64Digit? (c : CodePoint) : Option Nat :=
  if c = ofChar '+' then some 62
  else if c = ofChar '/' then some 63
  else b64urlAlphabet.findIdx? fun letter => ofChar letter = c

/-- `base64.b64decode(padded.encode("ascii"), altchars=b"-_", validate=True)`, of a text without its
    padding: another character, and a group of one letter, is an error. -/
def b64decode? (value : PyStr) : Option Bytes :=
  if value.length % 4 = 1 then none else (value.mapM b64Digit?).map Base64.bytes

/-- `_b64url_decode` -/
def b64urlDecode (value : PyStr) : Except String Bytes :=
  if value = [] ∨ ofChar '=' ∈ value then .error "non-canonical base64url"
  else
    match b64decode? value with
    | none => .error "invalid base64"
    | some decoded =>
      if b64urlEncode decoded ≠ value then .error "non-canonical base64url" else .ok decoded

/-! ## The cursor -/

/-- The payload of a cursor before it is written. -/
def cursorPayload (resource : PyStr) (position filters : PyDict) : PyDict :=
  [(PyStr.ofChars "v".toList, .int 2), (PyStr.ofChars "resource".toList, .str resource),
    (PyStr.ofChars "filter".toList, .str (filterFingerprint E filters)),
    (PyStr.ofChars "position".toList, .dict position)]

/-- `_encode_cursor` -/
def encodeCursor (resource : PyStr) (position filters : PyDict) : Except ApiProblem PyStr := do
  let encoded := dumpsSorted (cursorPayload E resource position filters)
  let key ← cursorSigningKey E settings
  let signature := E.hmac key encoded
  return b64urlEncode encoded ++ ofChar '.' :: b64urlEncode signature

/-- `cursor.split(".", 1)` and the check of the two parts. -/
def cursorParts (cursor : PyStr) : Except String (PyStr × PyStr) :=
  match cursor.dropWhile (· ≠ ofChar '.') with
  | [] => .error "not enough values to unpack"
  | _ :: encodedSignature =>
    let encodedPayload := cursor.takeWhile (· ≠ ofChar '.')
    if encodedPayload = [] ∨ encodedSignature = [] ∨ ofChar '.' ∈ encodedSignature then
      .error "invalid cursor framing"
    else .ok (encodedPayload, encodedSignature)

/-- The payload and the signature that a cursor carries. -/
def cursorBytes (cursor : PyStr) : Except String (Bytes × Bytes) := do
  let parts ← cursorParts cursor
  let payloadBytes ← b64urlDecode parts.1
  let providedSignature ← b64urlDecode parts.2
  return (payloadBytes, providedSignature)

/-- The `try` block of `_decode_cursor`; only a problem with the key is not an invalid cursor. -/
def readCursor (cursor : PyStr) : Except ApiProblem PyJson :=
  match cursorBytes cursor with
  | .error _ => .error invalidCursor
  | .ok (payloadBytes, providedSignature) => do
      let key ← cursorSigningKey E settings
      if providedSignature ≠ E.hmac key payloadBytes then .error invalidCursor
      else
        match (Utf8.decode? payloadBytes).bind loads with
        | none => .error invalidCursor
        | some payload => return payload

/-- `value == 2` -/
def isTwo : Option PyJson → Bool
  | some (.int n) => n = 2
  | some (.float text) => E.floatEq text 2
  | _ => false

/-- `value == text` -/
def isText (text : PyStr) : Option PyJson → Bool
  | some (.str s) => s = text
  | _ => false

/-- The position in a payload that belongs to the query. -/
def acceptedPosition (resource : PyStr) (filters : PyDict) : PyJson → Option PyDict
  | .dict payload =>
    if isTwo E (PyDict.get? payload "v") && isText resource (PyDict.get? payload "resource") &&
        isText (filterFingerprint E filters) (PyDict.get? payload "filter") then
      match PyDict.get? payload "position" with
      | some (.dict position) => some position
      | _ => none
    else none
  | _ => none

/-- `_decode_cursor` -/
def decodeCursor (cursor : Option PyStr) (resource : PyStr) (filters : PyDict) :
    Except ApiProblem (Option PyDict) :=
  match cursor with
  | none => .ok none
  | some cursor =>
    if cursor = [] ∨ 2048 < cursor.length then .error invalidCursor
    else do
      let payload ← readCursor E settings cursor
      match acceptedPosition E resource filters payload with
      | none => .error invalidCursorForQuery
      | some position => return some position

/-! ## base64url is read back, and nothing else is -/

theorem b64Digit?_letter {d : Nat} (h : d < 64) :
    b64Digit? (b64urlLetter d) = some d ∧ b64urlLetter d ≠ ofChar '=' ∧ b64urlLetter d ≠ ofChar '.' := by
  have hall : ∀ d : Fin 64, b64Digit? (b64urlLetter d.val) = some d.val ∧
      b64urlLetter d.val ≠ ofChar '=' ∧ b64urlLetter d.val ≠ ofChar '.' := by
    decide +kernel
  exact hall ⟨d, h⟩

/-- The text without its padding. -/
theorem b64urlEncode_eq (bs : Bytes) : b64urlEncode bs = (Base64.digits bs).map b64urlLetter := by
  have hletters : ∀ c ∈ ((Base64.digits bs).map b64urlLetter).reverse, c ≠ ofChar '=' := by
    intro c hc
    obtain ⟨d, hd, rfl⟩ := List.mem_map.mp (List.mem_reverse.mp hc)
    exact (b64Digit?_letter (Base64.lt_of_mem_digits hd)).2.1
  have hkeep : ((Base64.digits bs).map b64urlLetter).reverse.dropWhile (· = ofChar '=') =
      ((Base64.digits bs).map b64urlLetter).reverse := by
    cases hrev : ((Base64.digits bs).map b64urlLetter).reverse with
    | nil => rfl
    | cons c cs =>
      rw [hrev] at hletters
      rw [List.dropWhile_cons_of_neg]
      simpa using hletters c List.mem_cons_self
  rw [b64urlEncode, Base64.encode, if_pos rfl, List.reverse_append, List.reverse_replicate,
    List.dropWhile_append_of_pos, hkeep, List.reverse_reverse]
  intro c hc
  rw [List.eq_of_mem_replicate hc]
  exact decide_eq_true rfl

theorem length_digits_mod (bs : List UInt8) : (Base64.digits bs).length % 4 ≠ 1 := by
  induction bs using Base64.digits.induct with
  | case1 => decide
  | case2 a => simp [Base64.digits]
  | case3 a b => simp [Base64.digits]
  | case4 a b c rest ih =>
    simp only [Base64.digits, List.length_cons]
    omega

theorem b64decode?_encode (bs : Bytes) : b64decode? (b64urlEncode bs) = some bs := by
  have hdigits : ∀ ds : List Nat, (∀ d ∈ ds, d < 64) → (ds.map b64urlLetter).mapM b64Digit? = some ds := by
    intro ds hds
    induction ds with
    | nil => rfl
    | cons d ds ih =>
      have hd := (b64Digit?_letter (hds d List.mem_cons_self)).1
      have hrest := ih fun e he => hds e (List.mem_cons_of_mem _ he)
      rw [List.map_cons, List.mapM_cons, hd, hrest]
      rfl
  have hlength : ((Base64.digits bs).map b64urlLetter).length % 4 ≠ 1 := by
    rw [List.length_map]
    exact length_digits_mod bs
  rw [b64urlEncode_eq, b64decode?, if_neg hlength, hdigits _ fun d hd => Base64.lt_of_mem_digits hd,
    Option.map_some, Base64.bytes_digits]

theorem b64urlEncode_ne_nil {bs : Bytes} (h : bs ≠ []) : b64urlEncode bs ≠ [] := by
  intro hnil
  have hdecode := b64decode?_encode bs
  rw [hnil] at hdecode
  exact h (Option.some.inj hdecode).symm

theorem not_mem_b64urlEncode (bs : Bytes) :
    ofChar '=' ∉ b64urlEncode bs ∧ ofChar '.' ∉ b64urlEncode bs := by
  rw [b64urlEncode_eq]
  constructor
  all_goals
    intro hmem
    obtain ⟨d, hd, heq⟩ := List.mem_map.mp hmem
  · exact (b64Digit?_letter (Base64.lt_of_mem_digits hd)).2.1 heq
  · exact (b64Digit?_letter (Base64.lt_of_mem_digits hd)).2.2 heq

theorem b64urlDecode_encode {bs : Bytes} (h : bs ≠ []) : b64urlDecode (b64urlEncode bs) = .ok bs := by
  have hpad : ¬ (b64urlEncode bs = [] ∨ ofChar '=' ∈ b64urlEncode bs) :=
    not_or.mpr ⟨b64urlEncode_ne_nil h, (not_mem_b64urlEncode bs).1⟩
  rw [b64urlDecode, if_neg hpad, b64decode?_encode]
  simp

/-- Only the spelling that encoding gives is read. -/
theorem eq_encode_of_b64urlDecode {value : PyStr} {bs : Bytes} (h : b64urlDecode value = .ok bs) :
    value = b64urlEncode bs := by
  unfold b64urlDecode at h
  split at h
  · cases h
  split at h
  · cases h
  split at h
  · cases h
  · rename_i hcanonical
    obtain rfl := Except.ok.inj h
    exact (not_not.mp hcanonical).symm

/-! ## The two parts -/

theorem cursorParts_append {front back : PyStr} (hfront : front ≠ []) (hback : back ≠ [])
    (hdot : ofChar '.' ∉ front) (hdot' : ofChar '.' ∉ back) :
    cursorParts (front ++ ofChar '.' :: back) = .ok (front, back) := by
  have hkeep : ∀ c ∈ front, decide (c ≠ ofChar '.') = true := fun c hc =>
    decide_eq_true fun heq => hdot (heq ▸ hc)
  have hdrop : (front ++ ofChar '.' :: back).dropWhile (· ≠ ofChar '.') = ofChar '.' :: back := by
    rw [List.dropWhile_append_of_pos hkeep, List.dropWhile_cons_of_neg (by simp)]
  have htake : (front ++ ofChar '.' :: back).takeWhile (· ≠ ofChar '.') = front := by
    rw [List.takeWhile_append_of_pos hkeep, List.takeWhile_cons_of_neg (by simp), List.append_nil]
  simp only [cursorParts, hdrop, htake]
  rw [if_neg]
  simp [hfront, hback, hdot']

/-- A cursor with two parts is these with a dot between them. -/
theorem eq_of_cursorParts {cursor front back : PyStr} (h : cursorParts cursor = .ok (front, back)) :
    cursor = front ++ ofChar '.' :: back := by
  unfold cursorParts at h
  split at h
  · cases h
  · rename_i c rest hdrop
    dsimp only at h
    split at h
    · cases h
    · obtain ⟨rfl, rfl⟩ := Prod.mk.inj (Except.ok.inj h)
      have hdot : c = ofChar '.' := by
        have hhead := List.head?_dropWhile_not (· ≠ ofChar '.') cursor
        rw [hdrop] at hhead
        simpa using hhead
      have hsplit := List.takeWhile_append_dropWhile (p := (· ≠ ofChar '.')) (l := cursor)
      rw [hdrop, hdot] at hsplit
      exact hsplit.symm

theorem cursorBytes_encode {payload signature : Bytes} (hpayload : payload ≠ [])
    (hsignature : signature ≠ []) :
    cursorBytes (b64urlEncode payload ++ ofChar '.' :: b64urlEncode signature) =
      .ok (payload, signature) := by
  have hparts := cursorParts_append (b64urlEncode_ne_nil hpayload) (b64urlEncode_ne_nil hsignature)
    (not_mem_b64urlEncode payload).2 (not_mem_b64urlEncode signature).2
  rw [cursorBytes, hparts, Except.ok_bind, b64urlDecode_encode hpayload, Except.ok_bind,
    b64urlDecode_encode hsignature, Except.ok_bind]
  rfl

/-- What carries a payload and a signature is their one spelling. -/
theorem eq_of_cursorBytes {cursor : PyStr} {payload signature : Bytes}
    (h : cursorBytes cursor = .ok (payload, signature)) :
    cursor = b64urlEncode payload ++ ofChar '.' :: b64urlEncode signature := by
  obtain ⟨⟨front, back⟩, hparts, h⟩ := Except.bind_ok_iff.mp h
  obtain ⟨payload', hfront, h⟩ := Except.bind_ok_iff.mp h
  obtain ⟨signature', hback, h⟩ := Except.bind_ok_iff.mp h
  obtain ⟨rfl, rfl⟩ := Prod.mk.inj (Except.ok.inj h)
  rw [eq_of_cursorParts hparts, ← eq_encode_of_b64urlDecode hfront, ← eq_encode_of_b64urlDecode hback]

/-! ## Positions -/

/-- A value of a position. -/
inductive PositionValue where
  | text (s : PyStr)
  | number (n : Int)
  deriving DecidableEq

def PositionValue.json : PositionValue → PyJson
  | text s => .str s
  | number n => .int n

/-- A position: a map from strings to strings or integers. -/
structure CursorPosition where
  entries : List (PyStr × PositionValue)
  keys : (entries.map Prod.fst).Nodup

def CursorPosition.dict (position : CursorPosition) : PyDict :=
  position.entries.map fun entry => (entry.1, entry.2.json)

/-- No string of a position has a high surrogate right before a low one. -/
def CursorPosition.PairFree (position : CursorPosition) : Prop :=
  ∀ entry ∈ position.entries, entry.1.PairFree ∧ ∀ s, entry.2 = .text s → s.PairFree

theorem sortKeys_json (value : PositionValue) : value.json.sortKeys = value.json := by
  cases value <;> rfl

theorem writable_position {position : CursorPosition} (h : position.PairFree) :
    (PyJson.dict position.dict).Writable := by
  constructor
  · rw [CursorPosition.dict, List.map_map]
    exact position.keys
  · rw [writableFields_iff]
    intro field hfield
    obtain ⟨entry, hentry, rfl⟩ := List.mem_map.mp hfield
    obtain ⟨hkey, hvalue⟩ := h entry hentry
    refine ⟨hkey, ?_⟩
    cases hcase : entry.2 with
    | text s => exact hvalue s hcase
    | number n => trivial

/-- A sorted position is the same map. -/
theorem sortKeys_position (position : CursorPosition) :
    ∃ d, sortKeys (.dict position.dict) = .dict d ∧ d.Perm position.dict := by
  obtain ⟨d, heq, hperm⟩ := sortKeys_dict position.dict
  refine ⟨d, heq, hperm.trans ?_⟩
  rw [CursorPosition.dict, List.map_map]
  refine List.Perm.of_eq (List.map_congr_left fun entry _ => ?_)
  rw [Function.comp_apply, sortKeys_json]

section Payload

variable {E : CursorEnv} {settings : CursorSettings} {resource : PyStr} {position : CursorPosition}
  {filters : PyDict}

theorem writable_payload (hresource : resource.PairFree) (hposition : position.PairFree) :
    (PyJson.dict (cursorPayload E resource position.dict filters)).Writable := by
  refine ⟨?_, ?_⟩
  · simp only [cursorPayload, List.map_cons, List.map_nil]
    decide
  · exact ⟨pairFree_ofChars _, trivial, pairFree_ofChars _, hresource, pairFree_ofChars _,
      pairFree_ofChars _, pairFree_ofChars _, writable_position hposition, trivial⟩

/-- What the reader makes of a payload, and what its members are. -/
theorem loads_payload (E : CursorEnv) (filters : PyDict) (hresource : resource.PairFree)
    (hposition : position.PairFree) :
    ∃ payload d, (Utf8.decode? (dumpsSorted (cursorPayload E resource position.dict filters))).bind
        loads = some (.dict payload) ∧ d.Perm position.dict ∧
      PyDict.get? payload "v" = some (.int 2) ∧
      PyDict.get? payload "resource" = some (.str resource) ∧
      PyDict.get? payload "filter" = some (.str (filterFingerprint E filters)) ∧
      PyDict.get? payload "position" = some (.dict d) := by
  have hwritable : (sortKeys (.dict (cursorPayload E resource position.dict filters))).Writable :=
    writable_sortKeys _ (writable_payload hresource hposition)
  obtain ⟨payload, heq, hperm⟩ := sortKeys_dict (cursorPayload E resource position.dict filters)
  obtain ⟨d, hd, hperm'⟩ := sortKeys_position position
  rw [heq] at hwritable
  have hmem {key : String} {value : PyJson}
      (h : (ofChars key.toList, value) ∈ (cursorPayload E resource position.dict filters).map
        fun field => (field.1, field.2.sortKeys)) : PyDict.get? payload key = some value :=
    get?_of_mem hwritable.1 (hperm.mem_iff.mpr h)
  refine ⟨payload, d, ?_, hperm', hmem ?_, hmem ?_, hmem ?_, hmem ?_⟩
  · rw [dumpsSorted, Utf8.decode?_encode, Option.bind_some, heq, loads_dumpsAscii hwritable]
  · exact List.mem_cons_self
  · exact List.mem_cons_of_mem _ List.mem_cons_self
  · exact List.mem_cons_of_mem _ (List.mem_cons_of_mem _ List.mem_cons_self)
  · rw [← hd]
    exact List.mem_cons_of_mem _ (List.mem_cons_of_mem _ (List.mem_cons_of_mem _ List.mem_cons_self))

end Payload

/-! ## What is accepted -/

/-- A call of `_encode_cursor`, with strings that can be read back. -/
structure CursorCall where
  resource : PyStr
  position : CursorPosition
  filters : PyDict
  resource_pairFree : resource.PairFree
  position_pairFree : position.PairFree

/-- The bytes that a call signs. -/
def CursorCall.payload (E : CursorEnv) (call : CursorCall) : Bytes :=
  dumpsSorted (cursorPayload E call.resource call.position.dict call.filters)

/-- Tags are only known for payloads that were signed: the one in a cursor is no exception. -/
def TagsOnlyForSigned (E : CursorEnv) (settings : CursorSettings) (issued : List CursorCall)
    (token : PyStr) : Prop :=
  ∀ payload signature key, cursorBytes token = .ok (payload, signature) →
    cursorSigningKey E settings = .ok key → signature = E.hmac key payload →
      payload ∈ issued.map (CursorCall.payload E)

section Accepted

variable {E : CursorEnv} {settings : CursorSettings} {resource token : PyStr} {filters d : PyDict}

theorem encodeCursor_ok_iff {position : PyDict} :
    encodeCursor E settings resource position filters = .ok token ↔
      ∃ key, cursorSigningKey E settings = .ok key ∧
        token = b64urlEncode (dumpsSorted (cursorPayload E resource position filters)) ++ ofChar '.' ::
          b64urlEncode (E.hmac key (dumpsSorted (cursorPayload E resource position filters))) := by
  rw [encodeCursor, Except.bind_ok_iff]
  exact exists_congr fun key => and_congr_right fun _ =>
    ⟨fun h => (Except.ok.inj h).symm, fun h => congrArg Except.ok h.symm⟩

theorem readCursor_ok_iff {payload : PyJson} :
    readCursor E settings token = .ok payload ↔
      ∃ payloadBytes key, cursorBytes token = .ok (payloadBytes, E.hmac key payloadBytes) ∧
        cursorSigningKey E settings = .ok key ∧
        (Utf8.decode? payloadBytes).bind loads = some payload := by
  unfold readCursor
  constructor
  · intro h
    split at h
    · cases h
    · rename_i payloadBytes signature hbytes
      obtain ⟨key, hkey, hrest⟩ := Except.bind_ok_iff.mp h
      clear h
      split at hrest
      · cases hrest
      · rename_i hsignature
        rw [not_not] at hsignature
        subst hsignature
        split at hrest
        · cases hrest
        · rename_i payload' hload
          obtain rfl := Except.ok.inj hrest
          exact ⟨payloadBytes, key, hbytes, hkey, hload⟩
  · rintro ⟨payloadBytes, key, hbytes, hkey, hload⟩
    rw [hbytes]
    simp only [hkey, Except.ok_bind, ne_eq, not_true_eq_false, if_false, hload]
    rfl

theorem decodeCursor_ok_iff :
    decodeCursor E settings (some token) resource filters = .ok (some d) ↔
      token ≠ [] ∧ token.length ≤ 2048 ∧ ∃ payload, readCursor E settings token = .ok payload ∧
        acceptedPosition E resource filters payload = some d := by
  unfold decodeCursor
  dsimp only
  by_cases hlength : token = [] ∨ 2048 < token.length
  · rw [if_pos hlength]
    refine ⟨nofun, fun h => ?_⟩
    rcases hlength with hnil | hlong
    · exact absurd hnil h.1
    · exact absurd h.2.1 (Nat.not_le_of_lt hlong)
  · rw [if_neg hlength, Except.bind_ok_iff]
    rw [not_or, Nat.not_lt] at hlength
    constructor
    · rintro ⟨payload, hread, h⟩
      cases haccepted : acceptedPosition E resource filters payload with
      | none => rw [haccepted] at h; cases h
      | some position =>
        rw [haccepted] at h
        obtain rfl := Option.some.inj (Except.ok.inj h)
        exact ⟨hlength.1, hlength.2, payload, hread, haccepted⟩
    · rintro ⟨-, -, payload, hread, haccepted⟩
      refine ⟨payload, hread, ?_⟩
      rw [haccepted]
      rfl

theorem acceptedPosition_eq {payload : PyDict} (hv : PyDict.get? payload "v" = some (.int 2))
    {resource' fingerprint : PyStr} (hresource : PyDict.get? payload "resource" = some (.str resource'))
    (hfilter : PyDict.get? payload "filter" = some (.str fingerprint))
    {position : PyDict} (hposition : PyDict.get? payload "position" = some (.dict position)) :
    acceptedPosition E resource filters (.dict payload) =
      if resource' = resource ∧ fingerprint = filterFingerprint E filters then some position
      else none := by
  simp only [acceptedPosition, hv, hresource, hfilter, hposition, isTwo, isText, decide_true,
    Bool.true_and, Bool.and_eq_true, decide_eq_true_eq]

/-- A cursor is decoded to its position. -/
theorem decode_encode (call : CursorCall)
    (h : encodeCursor E settings call.resource call.position.dict call.filters = .ok token)
    (hlength : token.length ≤ 2048) :
    ∃ d, decodeCursor E settings (some token) call.resource call.filters = .ok (some d) ∧
      d.Perm call.position.dict := by
  obtain ⟨key, hkey, rfl⟩ := encodeCursor_ok_iff.mp h
  obtain ⟨payload, d, hload, hperm, hv, hresource, hfilter, hposition⟩ :=
    loads_payload E call.filters call.resource_pairFree call.position_pairFree
  have hpayload : dumpsSorted (cursorPayload E call.resource call.position.dict call.filters) ≠ [] := by
    intro hnil
    rw [hnil] at hload
    cases hload
  have hsignature : E.hmac key
      (dumpsSorted (cursorPayload E call.resource call.position.dict call.filters)) ≠ [] := by
    intro hnil
    have hsize := E.hmac_length key
      (dumpsSorted (cursorPayload E call.resource call.position.dict call.filters))
    rw [hnil] at hsize
    cases hsize
  refine ⟨d, decodeCursor_ok_iff.mpr ⟨by simp, hlength, _, readCursor_ok_iff.mpr
    ⟨_, key, cursorBytes_encode hpayload hsignature, hkey, hload⟩, ?_⟩, hperm⟩
  rw [acceptedPosition_eq hv hresource hfilter hposition, if_pos ⟨rfl, rfl⟩]

/-- An accepted cursor was issued, character for character. -/
theorem issued_of_decode {issued : List CursorCall}
    (hknown : TagsOnlyForSigned E settings issued token)
    (h : decodeCursor E settings (some token) resource filters = .ok (some d)) :
    ∃ call ∈ issued, call.resource = resource ∧
      filterFingerprint E call.filters = filterFingerprint E filters ∧
      encodeCursor E settings call.resource call.position.dict call.filters = .ok token ∧
      d.Perm call.position.dict := by
  obtain ⟨-, -, payload, hread, haccepted⟩ := decodeCursor_ok_iff.mp h
  obtain ⟨payloadBytes, key, hbytes, hkey, hload⟩ := readCursor_ok_iff.mp hread
  obtain ⟨call, hcall, rfl⟩ := List.mem_map.mp (hknown _ _ key hbytes hkey rfl)
  obtain ⟨payload', d', hload', hperm, hv, hresource, hfilter, hposition⟩ :=
    loads_payload E call.filters call.resource_pairFree call.position_pairFree
  obtain rfl : PyJson.dict payload' = payload := Option.some.inj (hload'.symm.trans hload)
  rw [acceptedPosition_eq hv hresource hfilter hposition] at haccepted
  split at haccepted
  · rename_i hsame
    obtain rfl := Option.some.inj haccepted
    exact ⟨call, hcall, hsame.1, hsame.2,
      encodeCursor_ok_iff.mpr ⟨key, hkey, eq_of_cursorBytes hbytes⟩, hperm⟩
  · cases haccepted

/-- A payload is accepted in one spelling only. -/
theorem eq_of_decode {token' resource' : PyStr} {filters' d' : PyDict} {payload signature signature' : Bytes}
    (h : decodeCursor E settings (some token) resource filters = .ok (some d))
    (h' : decodeCursor E settings (some token') resource' filters' = .ok (some d'))
    (hbytes : cursorBytes token = .ok (payload, signature))
    (hbytes' : cursorBytes token' = .ok (payload, signature')) : token = token' := by
  obtain ⟨-, -, _, hread, -⟩ := decodeCursor_ok_iff.mp h
  obtain ⟨-, -, _, hread', -⟩ := decodeCursor_ok_iff.mp h'
  obtain ⟨_, key, hsigned, hkey, -⟩ := readCursor_ok_iff.mp hread
  obtain ⟨_, key', hsigned', hkey', -⟩ := readCursor_ok_iff.mp hread'
  obtain rfl : key = key' := Except.ok.inj (hkey.symm.trans hkey')
  obtain ⟨rfl, rfl⟩ := Prod.mk.inj (Except.ok.inj (hbytes.symm.trans hsigned))
  obtain ⟨rfl, rfl⟩ := Prod.mk.inj (Except.ok.inj (hbytes'.symm.trans hsigned'))
  rw [eq_of_cursorBytes hbytes, eq_of_cursorBytes hbytes']

/-- The payload of an accepted cursor was signed. -/
theorem signed_of_decode {issued : List CursorCall} {payload signature : Bytes}
    (hknown : TagsOnlyForSigned E settings issued token)
    (h : decodeCursor E settings (some token) resource filters = .ok (some d))
    (hbytes : cursorBytes token = .ok (payload, signature)) :
    ∃ call : CursorCall, call.payload E = payload := by
  obtain ⟨-, -, _, hread, -⟩ := decodeCursor_ok_iff.mp h
  obtain ⟨_, key, hsigned, hkey, -⟩ := readCursor_ok_iff.mp hread
  obtain ⟨rfl, rfl⟩ := Prod.mk.inj (Except.ok.inj (hbytes.symm.trans hsigned))
  obtain ⟨call, -, hcall⟩ := List.mem_map.mp (hknown _ _ key hbytes hkey rfl)
  exact ⟨call, hcall⟩

/-- A payload that was signed is how its value is written. -/
theorem loads_signed (call : CursorCall) :
    (Utf8.decode? (call.payload E)).bind loads =
      some (sortKeys (.dict (cursorPayload E call.resource call.position.dict call.filters))) := by
  rw [CursorCall.payload, dumpsSorted, Utf8.decode?_encode, Option.bind_some]
  exact loads_dumpsAscii
    (writable_sortKeys _ (writable_payload call.resource_pairFree call.position_pairFree))

/-- A payload is accepted in one serialization only. -/
theorem eq_of_loads {issued : List CursorCall} {token' resource' : PyStr} {filters' d' : PyDict}
    {payload payload' signature signature' : Bytes} (hknown : TagsOnlyForSigned E settings issued token)
    (hknown' : TagsOnlyForSigned E settings issued token')
    (h : decodeCursor E settings (some token) resource filters = .ok (some d))
    (h' : decodeCursor E settings (some token') resource' filters' = .ok (some d'))
    (hbytes : cursorBytes token = .ok (payload, signature))
    (hbytes' : cursorBytes token' = .ok (payload', signature'))
    (hloads : (Utf8.decode? payload).bind loads = (Utf8.decode? payload').bind loads) :
    token = token' := by
  obtain ⟨call, rfl⟩ := signed_of_decode hknown h hbytes
  obtain ⟨call', rfl⟩ := signed_of_decode hknown' h' hbytes'
  rw [loads_signed, loads_signed] at hloads
  have hpayload : call'.payload E = call.payload E := by
    rw [CursorCall.payload, CursorCall.payload, dumpsSorted, dumpsSorted, Option.some.inj hloads]
  exact eq_of_decode h h' hbytes (hpayload ▸ hbytes')

end Accepted

/-- Cursors are authentic and have one spelling. -/
theorem page_cursors_authentic (E : CursorEnv) (settings : CursorSettings) :
    (∀ (call : CursorCall) (token : PyStr),
      encodeCursor E settings call.resource call.position.dict call.filters = .ok token →
      token.length ≤ 2048 →
        ∃ d, decodeCursor E settings (some token) call.resource call.filters = .ok (some d) ∧
          d.Perm call.position.dict) ∧
    (∀ (issued : List CursorCall) (token resource : PyStr) (filters d : PyDict),
      TagsOnlyForSigned E settings issued token →
      decodeCursor E settings (some token) resource filters = .ok (some d) →
        ∃ call ∈ issued, call.resource = resource ∧
          filterFingerprint E call.filters = filterFingerprint E filters ∧
          encodeCursor E settings call.resource call.position.dict call.filters = .ok token ∧
          d.Perm call.position.dict) ∧
    (∀ (token token' resource resource' : PyStr) (filters filters' d d' : PyDict)
      (payload signature signature' : Bytes),
      decodeCursor E settings (some token) resource filters = .ok (some d) →
      decodeCursor E settings (some token') resource' filters' = .ok (some d') →
      cursorBytes token = .ok (payload, signature) → cursorBytes token' = .ok (payload, signature') →
        token = token') ∧
    ∀ (issued : List CursorCall) (token token' resource resource' : PyStr)
      (filters filters' d d' : PyDict) (payload payload' signature signature' : Bytes),
      TagsOnlyForSigned E settings issued token → TagsOnlyForSigned E settings issued token' →
      decodeCursor E settings (some token) resource filters = .ok (some d) →
      decodeCursor E settings (some token') resource' filters' = .ok (some d') →
      cursorBytes token = .ok (payload, signature) → cursorBytes token' = .ok (payload', signature') →
      (Utf8.decode? payload).bind loads = (Utf8.decode? payload').bind loads → token = token' := by
  refine ⟨fun call token h hlength => decode_encode call h hlength, ?_, ?_, ?_⟩
  · intro issued token resource filters d hknown h
    exact issued_of_decode hknown h
  · intro token token' resource resource' filters filters' d d' payload signature signature' h h' hbytes
      hbytes'
    exact eq_of_decode h h' hbytes hbytes'
  · intro issued token token' resource resource' filters filters' d d' payload payload' signature
      signature' hknown hknown' h h' hbytes hbytes'
    exact eq_of_loads hknown hknown' h h' hbytes hbytes'

/-! ## A position with a pair of surrogates -/

def loopbackSettings : CursorSettings := ⟨[], false, "/mail.sqlite3".toList⟩

/-- The position `{"id": s}`. -/
def idPosition (s : PyStr) : CursorPosition := ⟨[(ofChars "id".toList, .text s)], List.nodup_singleton _⟩

def joinedCall : CursorCall where
  resource := ofChars "messages".toList
  position := idPosition [ofNat 0x1F600]
  filters := []
  resource_pairFree := pairFree_ofChars _
  position_pairFree := by
    intro entry hentry
    rw [List.mem_singleton.mp hentry]
    exact ⟨pairFree_ofChars _, fun s hs => PositionValue.text.inj hs ▸ List.IsChain.singleton _⟩

/-- The key that the loopback settings give. -/
def sampleKey : Bytes :=
  [82, 171, 33, 36, 89, 2, 88, 48, 244, 40, 193, 26, 211, 209, 86, 177, 41, 179, 238, 94, 4, 32, 3, 90,
    249, 183, 100, 93, 190, 82, 133, 82]

/-- The tag of the payload of `joinedCall` under `sampleKey`. -/
def sampleTag : Bytes :=
  [39, 238, 75, 251, 30, 244, 53, 146, 73, 98, 134, 249, 190, 48, 191, 9, 75, 66, 94, 208, 36, 22, 61,
    192, 234, 137, 28, 202, 167, 133, 59, 146]

/-- HMAC-SHA256 and SHA-256 where the sample asks for them: the key, the tag and the hash of an empty
    filter are the real ones. -/
def sampleEnv : CursorEnv where
  hmac key message :=
    if key = Utf8.encode "rapid-inbox-loopback-cursor:/mail.sqlite3".toList ∧
        message = Utf8.encode "rapid-inbox-api-v2-cursor-v1".toList then sampleKey
    else if key = sampleKey ∧ message = Utf8.encode ("\x7b\"filter\":\"44136fa355b3678a1146ad16\"," ++
        "\"position\":\x7b\"id\":\"\\ud83d\\ude00\"\x7d,\"resource\":\"messages\",\"v\":2\x7d").toList
      then sampleTag
    else List.replicate 32 0
  hmac_length key message := by
    split
    · rfl
    · split <;> rfl
  sha256 message :=
    if message = Utf8.encode "\x7b\x7d".toList then
      [68, 19, 111, 163, 85, 179, 103, 138, 17, 70, 173, 22, 247, 232, 100, 158, 148, 251, 79, 194, 31, 231,
        126, 131, 16, 192, 96, 246, 28, 170, 255, 138]
    else List.replicate 32 0
  floatEq _ _ := false

/-- A high and a low surrogate are written as the character they stand for. -/
theorem dumps_joined :
    dumpsSorted (cursorPayload sampleEnv (ofChars "messages".toList)
        (idPosition [ofNat 0xD83D, ofNat 0xDE00]).dict []) = joinedCall.payload sampleEnv := by
  decide +kernel

def joinedToken : PyStr :=
  ofChars ("eyJmaWx0ZXIiOiI0NDEzNmZhMzU1YjM2NzhhMTE0NmFkMTYiLCJwb3NpdGlvbiI6eyJpZCI6Ilx1ZDgzZFx1ZGUwMCJ9" ++
    "LCJyZXNvdXJjZSI6Im1lc3NhZ2VzIiwidiI6Mn0.J-5L-x70NZJJYob5vjC_CUtCXtAkFj3A6okcyqeFO5I").toList

theorem length_joinedToken : joinedToken.length ≤ 2048 := by decide +kernel

theorem sampleKey_eq : cursorSigningKey sampleEnv loopbackSettings = .ok sampleKey := by
  have hkey : sampleEnv.hmac (Utf8.encode ("rapid-inbox-loopback-cursor:".toList ++
      "/mail.sqlite3".toList)) (Utf8.encode "rapid-inbox-api-v2-cursor-v1".toList) = sampleKey := by
    decide +kernel
  exact congrArg Except.ok hkey

theorem sampleTag_eq : sampleEnv.hmac sampleKey (joinedCall.payload sampleEnv) = sampleTag := by
  decide +kernel

theorem joinedToken_eq :
    joinedToken = b64urlEncode (joinedCall.payload sampleEnv) ++ ofChar '.' :: b64urlEncode sampleTag := by
  decide +kernel

theorem encode_joined : encodeCursor sampleEnv loopbackSettings joinedCall.resource
    joinedCall.position.dict joinedCall.filters = .ok joinedToken :=
  encodeCursor_ok_iff.mpr ⟨sampleKey, sampleKey_eq, joinedToken_eq.trans (by rw [← sampleTag_eq]; rfl)⟩

/-- The sample position is decoded from its cursor, and what is accepted for it while no other payload
    has been signed is this cursor. -/
theorem page_cursors_authentic_joined :
    (∃ d, decodeCursor sampleEnv loopbackSettings (some joinedToken) (ofChars "messages".toList) [] =
      .ok (some d) ∧ d.Perm (idPosition [ofNat 0x1F600]).dict) ∧
    TagsOnlyForSigned sampleEnv loopbackSettings [joinedCall] joinedToken ∧
    ∀ token resource filters d, TagsOnlyForSigned sampleEnv loopbackSettings [joinedCall] token →
      decodeCursor sampleEnv loopbackSettings (some token) resource filters = .ok (some d) →
        token = joinedToken ∧ resource = ofChars "messages".toList := by
  obtain ⟨hround, hauthentic, -⟩ := page_cursors_authentic sampleEnv loopbackSettings
  refine ⟨hround joinedCall joinedToken encode_joined length_joinedToken, ?_, ?_⟩
  · intro payload signature key hbytes hkey hsignature
    have hjoined : cursorBytes joinedToken = .ok (joinedCall.payload sampleEnv, sampleTag) :=
      joinedToken_eq ▸ cursorBytes_encode (by decide +kernel) (by decide)
    obtain ⟨rfl, rfl⟩ := Prod.mk.inj (Except.ok.inj (hbytes.symm.trans hjoined))
    exact List.mem_singleton_self _
  · intro token resource filters d hknown h
    obtain ⟨call, hcall, hresource, -, hissued, -⟩ := hauthentic _ token resource filters d hknown h
    obtain rfl := List.mem_singleton.mp hcall
    exact ⟨Except.ok.inj (hissued.symm.trans encode_joined), hresource.symm⟩

/-- A position with a high surrogate right before a low one is decoded to another. -/
theorem page_cursor_joins_surrogates :
    ¬ ∀ (E : CursorEnv) (settings : CursorSettings) (resource : PyStr) (position : CursorPosition)
      (filters : PyDict) (token : PyStr),
      encodeCursor E settings resource position.dict filters = .ok token → token.length ≤ 2048 →
        ∃ d, decodeCursor E settings (some token) resource filters = .ok (some d) ∧
          d.Perm position.dict := by
  intro hclaim
  obtain ⟨d, hdecode, hperm⟩ := hclaim sampleEnv loopbackSettings (ofChars "messages".toList)
    (idPosition [ofNat 0xD83D, ofNat 0xDE00]) [] joinedToken
    (by rw [encodeCursor, dumps_joined]; exact encode_joined) length_joinedToken
  obtain ⟨d', hdecode', hperm'⟩ := decode_encode joinedCall encode_joined length_joinedToken
  obtain rfl : d = d' := Option.some.inj (Except.ok.inj (hdecode.symm.trans hdecode'))
  have hsame := List.perm_singleton.mp (hperm.symm.trans hperm')
  have hvalue := congrArg Prod.snd (List.cons.inj hsame).1
  exact absurd (PyJson.str.inj hvalue) (by decide)

end ApiV2
end RapidInbox
