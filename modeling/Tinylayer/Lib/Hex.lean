import Mathlib.Data.Fintype.Basic
import Mathlib.Data.Nat.Notation

/-!
# Hexadecimal text

Byte strings as lower case hexadecimal text, and back. Decoding accepts both cases and works on the
UTF-8 bytes of the text.
-/

namespace Hex

/-- The lower case digit of `n < 16`. -/
def digit (n : Nat) : Char := Char.ofNat (if n < 10 then 48 + n else 87 + n)

/-- The value of a digit, given by its ASCII code. -/
def value (c : UInt8) : Option UInt8 :=
  if 48 ≤ c ∧ c ≤ 57 then some (c - 48)
  else if 97 ≤ c ∧ c ≤ 102 then some (c - 87)
  else if 65 ≤ c ∧ c ≤ 70 then some (c - 55)
  else none

/-- The two digits of a byte. -/
def digits (b : UInt8) : List Char := [digit (b.toNat / 16), digit (b.toNat % 16)]

def encode (bytes : List UInt8) : String := String.ofList (bytes.flatMap digits)

/-- The bytes whose digits have the given ASCII codes. -/
def decodeCodes : List UInt8 → Option (List UInt8)
  | [] => some []
  | [_] => none
  | a :: b :: codes =>
    match value a, value b, decodeCodes codes with
    | some x, some y, some bytes => some ((16 * x + y) :: bytes)
    | _, _, _ => none

def decode (text : String) : Option (List UInt8) := decodeCodes text.toByteArray.data.toList

/-- The ASCII code of a digit. -/
def code (n : Nat) : UInt8 := UInt8.ofNat (if n < 10 then 48 + n else 87 + n)

theorem utf8EncodeChar_digit {n : Nat} (h : n < 16) : String.utf8EncodeChar (digit n) = [code n] := by
  have hall : ∀ i : Fin 16, String.utf8EncodeChar (digit i) = [code i] := by decide
  exact hall ⟨n, h⟩

theorem value_code {n : Nat} (h : n < 16) : value (code n) = some (UInt8.ofNat n) := by
  have hall : ∀ i : Fin 16, value (code i) = some (UInt8.ofNat i) := by decide
  exact hall ⟨n, h⟩

/-- The codes of the two digits of a byte. -/
def codes (b : UInt8) : List UInt8 := [code (b.toNat / 16), code (b.toNat % 16)]

theorem utf8Encode_digits (b : UInt8) : (digits b).flatMap String.utf8EncodeChar = codes b := by
  have hb : b.toNat < 256 := b.toNat_lt
  have h1 := utf8EncodeChar_digit (n := b.toNat / 16) (by omega)
  have h2 := utf8EncodeChar_digit (n := b.toNat % 16) (by omega)
  simp [digits, codes, h1, h2]

theorem toByteArray_encode (bytes : List UInt8) :
    (encode bytes).toByteArray.data.toList = bytes.flatMap codes := by
  have h : (bytes.flatMap digits).flatMap String.utf8EncodeChar = bytes.flatMap codes := by
    rw [List.flatMap_assoc]
    exact congrArg (List.flatMap · bytes) (funext utf8Encode_digits)
  rw [encode, String.toByteArray_ofList, List.utf8Encode, h]
  simp

/-- Encoded bytes are read back. -/
@[simp] theorem decode_encode (bytes : List UInt8) : decode (encode bytes) = some bytes := by
  rw [decode, toByteArray_encode]
  induction bytes with
  | nil => rfl
  | cons b bytes ih =>
    have hb : b.toNat < 256 := b.toNat_lt
    have h1 := value_code (n := b.toNat / 16) (by omega)
    have h2 := value_code (n := b.toNat % 16) (by omega)
    have hsum : 16 * UInt8.ofNat (b.toNat / 16) + UInt8.ofNat (b.toNat % 16) = b := by
      rw [← UInt8.toNat_inj]
      simp
      omega
    simp [codes, decodeCodes, h1, h2, ih, hsum]

theorem encode_injective : Function.Injective encode := by
  intro a b h
  have := congrArg decode h
  simpa using this

theorem length_codes (bytes : List UInt8) : (bytes.flatMap codes).length = 2 * bytes.length := by
  induction bytes with
  | nil => rfl
  | cons b bytes ih =>
    rw [List.flatMap_cons, List.length_append, ih, List.length_cons]
    simp only [codes, List.length_cons, List.length_nil]
    omega

/-- Hexadecimal text has two characters for each byte. -/
theorem utf8ByteSize_encode (bytes : List UInt8) :
    (encode bytes).utf8ByteSize = 2 * bytes.length := by
  have h : (encode bytes).utf8ByteSize = (encode bytes).toByteArray.data.toList.length := by
    rw [← String.size_toByteArray, Array.length_toList]
    rfl
  rw [h, toByteArray_encode, length_codes]

/-- Hexadecimal text has no quotation marks. -/
theorem quote_notMem_encode (bytes : List UInt8) :
    0x22 ∉ (encode bytes).toByteArray.data.toList := by
  have hcode : ∀ i : Fin 16, (0x22 : UInt8) ≠ code i := by decide
  rw [toByteArray_encode]
  simp only [codes, List.mem_flatMap, not_exists, not_and]
  rintro b - h
  have hlt := b.toNat_lt
  rcases List.mem_cons.1 h with h | h
  · exact hcode ⟨b.toNat / 16, by omega⟩ h
  · exact hcode ⟨b.toNat % 16, by omega⟩ (List.mem_singleton.1 h)

end Hex
