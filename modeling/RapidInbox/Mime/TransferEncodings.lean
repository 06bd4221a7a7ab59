import Mathlib.Tactic.IntervalCases
import RapidInbox.Lib.Base64
import RapidInbox.Mime.Text

/-!
# The transfer decoders undo the encodings

`decode_base64` and `decode_quoted_printable` (`mime_parser.cpp:708-738, 854-920`) on the texts that
an encoder may write.
-/

namespace RapidInbox
namespace Mime

/-! ## Base 64 -/

/-- The standard alphabet. -/
def base64Letter (digit : Nat) : UInt8 :=
  if digit < 26 then UInt8.ofNat (0x41 + digit)
  else if digit < 52 then UInt8.ofNat (0x61 + (digit - 26))
  else if digit < 62 then UInt8.ofNat (0x30 + (digit - 52))
  else if digit = 62 then 0x2B
  else 0x2F

/-- Base 64 as it is written without line breaks, with or without its padding. -/
def encodeBase64 (padded : Bool) (bs : Bytes) : Bytes := Base64.encode base64Letter 0x3D padded bs

theorem base64_alphabet : ∀ digit < 64,
    base64Value (base64Letter digit) = some (UInt32.ofNat digit) ∧
      asciiSpace (base64Letter digit) = false ∧ base64Letter digit ≠ 0x3D := by
  decide +kernel

/-- The accumulator after one more digit: its bits are never cleared, the upper ones fall off. -/
def pushDigit (buffer : UInt32) (digit : Nat) : UInt32 := (buffer <<< 6) ||| UInt32.ofNat digit

theorem toNat_pushDigit (buffer : UInt32) {digit : Nat} (h : digit < 64) :
    (pushDigit buffer digit).toNat = (buffer.toNat * 64 + digit) % 2 ^ 32 := by
  have hdigit : (UInt32.ofNat digit).toNat = digit := by
    rw [UInt32.toNat_ofNat']
    omega
  have hshift : (buffer <<< 6).toNat = (buffer.toNat % 2 ^ 26) <<< 6 := by
    rw [UInt32.toNat_shiftLeft, Nat.shiftLeft_eq, Nat.shiftLeft_eq]
    have hsix : (6 : UInt32).toNat % 32 = 6 := rfl
    rw [hsix]
    omega
  rw [pushDigit, UInt32.toNat_or, hshift, hdigit,
    ← Nat.shiftLeft_add_eq_or_of_lt (i := 6) (by omega), Nat.shiftLeft_eq]
  omega

/-- The byte that is taken out of the accumulator. -/
theorem shiftRight_toUInt8 (buffer : UInt32) {bits : Nat} (h : bits < 32) :
    (buffer >>> UInt32.ofNat bits).toUInt8 = UInt8.ofNat (buffer.toNat / 2 ^ bits) := by
  have hbits : (UInt32.ofNat bits).toNat % 32 = bits := by
    rw [UInt32.toNat_ofNat']
    omega
  apply UInt8.toNat_inj.mp
  rw [UInt32.toNat_toUInt8, UInt32.toNat_shiftRight, hbits, Nat.shiftRight_eq_div_pow,
    UInt8.toNat_ofNat']

theorem decodeBase64From_letter (buffer : UInt32) (bits : Int) {digit : Nat} (h : digit < 64)
    (rest : Bytes) :
    decodeBase64From buffer bits (base64Letter digit :: rest) =
      if 0 ≤ bits + 6 then
        (pushDigit buffer digit >>> UInt32.ofNat (bits + 6).toNat).toUInt8 ::
          decodeBase64From (pushDigit buffer digit) (bits + 6 - 8) rest
      else decodeBase64From (pushDigit buffer digit) (bits + 6) rest := by
  obtain ⟨hvalue, hspace, hpad⟩ := base64_alphabet digit h
  rw [decodeBase64From, if_neg (by rw [hspace]; decide), if_neg hpad, hvalue]
  rfl

/-- A byte that the last two digits complete. -/
theorem emit_eq (buffer : UInt32) (bits : Nat) {p q byte : Nat} (hp : p < 64) (hq : q < 64)
    (hbits : bits < 5) (hbyte : (p * 64 + q) / 2 ^ bits % 256 = byte % 256) :
    (pushDigit (pushDigit buffer p) q >>> UInt32.ofNat bits).toUInt8 = UInt8.ofNat byte := by
  rw [shiftRight_toUInt8 _ (by omega)]
  apply UInt8.toNat_inj.mp
  rw [UInt8.toNat_ofNat', UInt8.toNat_ofNat', toNat_pushDigit _ hq, toNat_pushDigit _ hp]
  interval_cases bits <;> omega

/-- Each group of four letters gives three bytes, whatever bits the accumulator still holds. -/
theorem decodeBase64From_digits {ds : List Nat} (hds : ∀ d ∈ ds, d < 64) (buffer : UInt32) {rest : Bytes}
    (hrest : ∀ buffer bits, decodeBase64From buffer bits rest = []) :
    decodeBase64From buffer (-8) (ds.map base64Letter ++ rest) = Base64.bytes ds := by
  induction ds using Base64.bytes.induct generalizing buffer with
  | case1 p q r s ds ih =>
    have hp : p < 64 := hds p (by simp)
    have hq : q < 64 := hds q (by simp)
    have hr : r < 64 := hds r (by simp)
    have hs : s < 64 := hds s (by simp)
    have hrest := ih (fun d hd => hds d (by simp [hd]))
      (pushDigit (pushDigit (pushDigit (pushDigit buffer p) q) r) s)
    simp only [List.map_cons, List.cons_append]
    rw [decodeBase64From_letter _ _ hp, if_neg (by decide), decodeBase64From_letter _ _ hq,
      if_pos (by decide), decodeBase64From_letter _ _ hr, if_pos (by decide),
      decodeBase64From_letter _ _ hs, if_pos (by decide), Base64.bytes]
    congr 1
    · exact emit_eq buffer 4 hp hq (by decide) (by omega)
    · congr 1
      · exact emit_eq _ 2 hq hr (by decide) (by omega)
      · congr 1
        exact emit_eq _ 0 hr hs (by decide) (by omega)
  | case2 p q r =>
    have hp : p < 64 := hds p (by simp)
    have hq : q < 64 := hds q (by simp)
    have hr : r < 64 := hds r (by simp)
    simp only [List.map_cons, List.map_nil, List.cons_append, List.nil_append]
    rw [decodeBase64From_letter _ _ hp, if_neg (by decide), decodeBase64From_letter _ _ hq,
      if_pos (by decide), decodeBase64From_letter _ _ hr, if_pos (by decide), hrest, Base64.bytes]
    congr 1
    · exact emit_eq buffer 4 hp hq (by decide) (by omega)
    · congr 1
      exact emit_eq _ 2 hq hr (by decide) (by omega)
  | case3 p q =>
    have hp : p < 64 := hds p (by simp)
    have hq : q < 64 := hds q (by simp)
    simp only [List.map_cons, List.map_nil, List.cons_append, List.nil_append]
    rw [decodeBase64From_letter _ _ hp, if_neg (by decide), decodeBase64From_letter _ _ hq,
      if_pos (by decide), hrest, Base64.bytes]
    congr 1
    exact emit_eq buffer 4 hp hq (by decide) (by omega)
  | case4 ds hfour hthree htwo =>
    cases ds with
    | nil => exact hrest _ _
    | cons p ds =>
      cases ds with
      | nil =>
        have hp : p < 64 := hds p (by simp)
        rw [List.map_cons, List.map_nil, List.cons_append, List.nil_append,
          decodeBase64From_letter _ _ hp, if_neg (by decide), hrest]
        rfl
      | cons q ds =>
        cases ds with
        | nil => exact absurd rfl (htwo p q)
        | cons r ds =>
          cases ds with
          | nil => exact absurd rfl (hthree p q r)
          | cons s ds => exact absurd rfl (hfour p q r s ds)

/-- White space is passed over. -/
theorem decodeBase64From_filter (buffer : UInt32) (bits : Int) (text : Bytes) :
    decodeBase64From buffer bits text =
      decodeBase64From buffer bits (text.filter fun ch => !asciiSpace ch) := by
  induction text generalizing buffer bits with
  | nil => rfl
  | cons ch text ih =>
    by_cases hspace : asciiSpace ch = true
    · rw [decodeBase64From, if_pos hspace, ih, List.filter_cons_of_neg (by simp [hspace])]
    · rw [List.filter_cons_of_pos (by simp [hspace]), decodeBase64From, decodeBase64From,
        if_neg hspace, if_neg hspace]
      split
      · rfl
      · cases base64Value ch with
        | none => exact ih _ _
        | some decoded =>
          dsimp only
          split
          · rw [ih]
          · exact ih _ _

theorem decodeBase64From_padding (buffer : UInt32) (bits : Int) (n : Nat) :
    decodeBase64From buffer bits (List.replicate n 0x3D) = [] := by
  cases n with
  | zero => rfl
  | succ n =>
    rw [List.replicate_succ, decodeBase64From, if_neg (by decide), if_pos rfl]

/-- White space may stand anywhere in the text. -/
theorem decodeBase64_encode (bs : Bytes) (padded : Bool) {text : Bytes}
    (h : (text.filter fun ch => !asciiSpace ch) = encodeBase64 padded bs) : decodeBase64 text = bs := by
  rw [decodeBase64, decodeBase64From_filter, h, encodeBase64, Base64.encode,
    decodeBase64From_digits fun d hd => Base64.lt_of_mem_digits hd]
  · exact Base64.bytes_digits bs
  · intro buffer bits
    cases padded with
    | false => rfl
    | true => exact decodeBase64From_padding buffer bits _

/-! ## Quoted-printable -/

/-- The two spellings of a hexadecimal digit. -/
def hexSpellings (digit : Nat) : List UInt8 :=
  if digit < 10 then [UInt8.ofNat (0x30 + digit)]
  else [UInt8.ofNat (0x61 + (digit - 10)), UInt8.ofNat (0x41 + (digit - 10))]

/-- The texts that stand for a byte string: each byte literally or escaped, with soft line breaks
    anywhere in between. -/
inductive QuotedPrintable : Bytes → Bytes → Prop
  | nil : QuotedPrintable [] []
  | literal {b : UInt8} {bs text : Bytes} (hb : b ≠ 0x3D) (h : QuotedPrintable bs text) :
      QuotedPrintable (b :: bs) (b :: text)
  | escape {b high low : UInt8} {bs text : Bytes} (hhigh : high ∈ hexSpellings (b.toNat / 16))
      (hlow : low ∈ hexSpellings (b.toNat % 16)) (h : QuotedPrintable bs text) :
      QuotedPrintable (b :: bs) (0x3D :: high :: low :: text)
  | softLf {bs text : Bytes} (h : QuotedPrintable bs text) :
      QuotedPrintable bs (0x3D :: lineFeed :: text)
  | softCrLf {bs text : Bytes} (h : QuotedPrintable bs text) :
      QuotedPrintable bs (0x3D :: carriageReturn :: lineFeed :: text)

theorem hexValue_spelling : ∀ digit < 16, ∀ ch ∈ hexSpellings digit,
    hexValue ch = some (UInt8.ofNat digit) ∧ ch ≠ lineFeed ∧ ch ≠ carriageReturn := by
  decide +kernel

theorem joinNibbles (b : UInt8) :
    (UInt8.ofNat (b.toNat / 16) <<< 4) ||| UInt8.ofNat (b.toNat % 16) = b := by
  have hb := b.toNat_lt
  apply UInt8.toNat_inj.mp
  have hhigh : (UInt8.ofNat (b.toNat / 16) <<< 4).toNat = (b.toNat / 16) <<< 4 := by
    rw [UInt8.toNat_shiftLeft, UInt8.toNat_ofNat', Nat.shiftLeft_eq, Nat.shiftLeft_eq]
    have hfour : (4 : UInt8).toNat % 8 = 4 := rfl
    rw [hfour]
    omega
  have hlow : (UInt8.ofNat (b.toNat % 16)).toNat = b.toNat % 16 := by
    rw [UInt8.toNat_ofNat']
    omega
  rw [UInt8.toNat_or, hhigh, hlow, ← Nat.shiftLeft_add_eq_or_of_lt (i := 4) (by omega), Nat.shiftLeft_eq]
  omega

theorem quotedPrintableEscape_spelling {b high low : UInt8} (hhigh : high ∈ hexSpellings (b.toNat / 16))
    (hlow : low ∈ hexSpellings (b.toNat % 16)) (text : Bytes) :
    quotedPrintableEscape (high :: low :: text) = some (some b, 2) := by
  have hb := b.toNat_lt
  obtain ⟨hhighValue, hhighLf, hhighCr⟩ := hexValue_spelling _ (by omega) high hhigh
  obtain ⟨hlowValue, -, -⟩ := hexValue_spelling _ (by omega) low hlow
  rw [quotedPrintableEscape, if_neg hhighLf]
  simp only [hhighCr, false_and, if_false, hhighValue, hlowValue, joinNibbles]

theorem decodeQuotedPrintable_of {bs text : Bytes} (h : QuotedPrintable bs text) :
    decodeQuotedPrintable text = bs := by
  unfold decodeQuotedPrintable
  induction h with
  | nil => rfl
  | literal hb h ih => rw [decodeQuotedPrintableFrom, if_pos hb, ih]
  | @escape b high low bs text hhigh hlow h ih =>
    rw [decodeQuotedPrintableFrom, if_neg (by decide), quotedPrintableEscape_spelling hhigh hlow]
    exact congrArg (b :: ·) ih
  | softLf h ih =>
    rw [decodeQuotedPrintableFrom, if_neg (by decide)]
    exact ih
  | softCrLf h ih =>
    rw [decodeQuotedPrintableFrom, if_neg (by decide)]
    exact ih

/-- Both decoders give back the bytes that were encoded. -/
theorem transfer_decoders_undo (bs : Bytes) :
    (∀ (padded : Bool) (text : Bytes),
        (text.filter fun ch => !asciiSpace ch) = encodeBase64 padded bs → decodeBase64 text = bs) ∧
      ∀ text, QuotedPrintable bs text → decodeQuotedPrintable text = bs :=
  ⟨fun padded _ => decodeBase64_encode bs padded, fun _ => decodeQuotedPrintable_of⟩

theorem transfer_decoders_undo_hi :
    decodeBase64 [0x53, 0x47, 0x20, 0x6B, 0x0A, 0x3D] = [0x48, 0x69] ∧
      decodeQuotedPrintable [0x48, 0x3D, 0x0D, 0x0A, 0x3D, 0x36, 0x39] = [0x48, 0x69] :=
  ⟨(transfer_decoders_undo [0x48, 0x69]).1 true _ (by decide),
    (transfer_decoders_undo [0x48, 0x69]).2 _
      (.literal (by decide) (.softCrLf (.escape (by decide) (by decide) .nil)))⟩

end Mime
end RapidInbox
