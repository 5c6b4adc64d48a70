import Mathlib.Data.List.Basic

namespace LibXmtp.Data

abbrev Bytes := List UInt8

def isLowerHexDigit (c : Char) : Bool :=
  ('0' ≤ c && c ≤ '9') || ('a' ≤ c && c ≤ 'f')

def isAsciiHexDigit (c : Char) : Bool :=
  isLowerHexDigit c || ('A' ≤ c && c ≤ 'F')

/-- What is used of the `hex` crate: text is written with two lower-case digits a byte, and
reads back as the bytes it was written from. -/
structure Hex where
  encode : Bytes → String
  decode : String → Option Bytes
  decode_encode : ∀ bytes, decode (encode bytes) = some bytes
  encode_digits : ∀ bytes, (encode bytes).toList.all isLowerHexDigit

namespace Hex

theorem encode_inj (hex : Hex) {a b : Bytes} : hex.encode a = hex.encode b ↔ a = b := by
  constructor
  · intro h
    have hdec := congrArg hex.decode h
    simpa [hex.decode_encode] using hdec
  · rintro rfl
    rfl

theorem mem_encode (hex : Hex) {bytes : Bytes} {c : Char} (h : c ∈ (hex.encode bytes).toList) :
    isLowerHexDigit c = true :=
  List.all_eq_true.mp (hex.encode_digits bytes) c h

def digit (n : Nat) : Char := if n < 10 then Char.ofNat (48 + n) else Char.ofNat (87 + n)

def digitValue (c : Char) : Option Nat :=
  if '0' ≤ c ∧ c ≤ '9' then some (c.toNat - 48)
  else if 'a' ≤ c ∧ c ≤ 'f' then some (c.toNat - 87)
  else if 'A' ≤ c ∧ c ≤ 'F' then some (c.toNat - 55)
  else none

def encodeDigits (bytes : Bytes) : List Char :=
  bytes.flatMap fun b => [digit (b.toNat / 16), digit (b.toNat % 16)]

def decodeDigits : List Char → Option Bytes
  | [] => some []
  | [_] => none
  | c :: d :: rest => do
    let high ← digitValue c
    let low ← digitValue d
    let bytes ← decodeDigits rest
    return UInt8.ofNat (16 * high + low) :: bytes

theorem digitValue_digit : ∀ n < 16, digitValue (digit n) = some n := by decide

theorem isLowerHexDigit_digit : ∀ n < 16, isLowerHexDigit (digit n) = true := by decide

theorem high_lt (b : UInt8) : b.toNat / 16 < 16 := by
  have hb := b.toNat_lt
  omega

theorem low_lt (b : UInt8) : b.toNat % 16 < 16 := Nat.mod_lt _ (by decide)

theorem decodeDigits_encodeDigits (bytes : Bytes) :
    decodeDigits (encodeDigits bytes) = some bytes := by
  induction bytes with
  | nil => rfl
  | cons b bytes ih =>
    have hvalue : 16 * (b.toNat / 16) + b.toNat % 16 = b.toNat := Nat.div_add_mod _ _
    simp only [encodeDigits, List.flatMap_cons, List.cons_append, List.nil_append] at ih ⊢
    simp only [decodeDigits, digitValue_digit _ (high_lt b), digitValue_digit _ (low_lt b), ih,
      Option.bind_eq_bind, Option.bind_some, hvalue, UInt8.ofNat_toNat]
    rfl

theorem all_encodeDigits (bytes : Bytes) : (encodeDigits bytes).all isLowerHexDigit = true := by
  induction bytes with
  | nil => rfl
  | cons b bytes ih =>
    simp only [encodeDigits, List.flatMap_cons, List.all_append, List.all_cons] at ih ⊢
    simp [isLowerHexDigit_digit _ (high_lt b), isLowerHexDigit_digit _ (low_lt b), ih]

/-- The bytes of a text, each as the character it is looked up as. -/
def byteChars (text : String) : List Char :=
  text.toUTF8.data.toList.map fun b => Char.ofNat b.toNat

theorem byteChars_digit : ∀ n < 16,
    (String.utf8EncodeChar (digit n)).map (fun b => Char.ofNat b.toNat) = [digit n] := by decide

theorem byteChars_ofList (chars : List Char) : byteChars (String.ofList chars) =
    chars.flatMap fun c => (String.utf8EncodeChar c).map fun b => Char.ofNat b.toNat := by
  rw [byteChars, String.toUTF8_eq_toByteArray, String.toByteArray_ofList, List.utf8Encode,
    List.data_toByteArray, List.map_flatMap]

theorem byteChars_encodeDigits (bytes : Bytes) :
    byteChars (String.ofList (encodeDigits bytes)) = encodeDigits bytes := by
  rw [byteChars_ofList]
  induction bytes with
  | nil => rfl
  | cons b bytes ih =>
    simp only [encodeDigits, List.flatMap_cons, List.cons_append, List.nil_append] at ih ⊢
    rw [byteChars_digit _ (high_lt b), byteChars_digit _ (low_lt b), ih]
    rfl

def lower : Hex where
  encode bytes := String.ofList (encodeDigits bytes)
  decode text := decodeDigits (byteChars text)
  decode_encode bytes := by rw [byteChars_encodeDigits, decodeDigits_encodeDigits]
  encode_digits bytes := by simp [all_encodeDigits]

example : lower.encode [0xab, 0x07] = "ab07" := by decide
example : lower.decode "aB0" = none := by decide

end Hex

end LibXmtp.Data
