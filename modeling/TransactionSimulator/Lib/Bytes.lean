import Mathlib.Data.List.Basic

/-!
# Bytes

Sequences of bytes and their spelling in hexadecimal digits.  `toHex` writes two digits for each
byte; `ofHex` reads pairs of digits up to the first pair that is none, as `Buffer.from(text, 'hex')`
does.  `utf8` encodes a text, and `text?` decodes the bytes of one.  `ofHex_toHex`, `text?_utf8`: what was
written is read back.
-/

namespace Bytes

/-- A digit of a hexadecimal number. -/
def hexDigit (n : Fin 16) : Char := "0123456789abcdef".toList.getD n '0'

def hexValue (c : Char) : Option Nat :=
  if '0' ≤ c && c ≤ '9' then some (c.toNat - '0'.toNat)
  else if 'a' ≤ c && c ≤ 'f' then some (c.toNat - 'a'.toNat + 10)
  else if 'A' ≤ c && c ≤ 'F' then some (c.toNat - 'A'.toNat + 10)
  else none

theorem hexValue_hexDigit (n : Fin 16) : hexValue (hexDigit n) = some n.val := by
  revert n
  decide

/-- The two digits of a byte. -/
def digitsOf (b : UInt8) : List Char :=
  [hexDigit (Fin.ofNat 16 (b.toNat / 16)), hexDigit (Fin.ofNat 16 b.toNat)]

def toHex (bytes : List UInt8) : String := String.ofList (bytes.flatMap digitsOf)

/-- The bytes of the pairs of digits at the start. -/
def readDigits : List Char → List UInt8
  | high :: low :: rest =>
    match hexValue high, hexValue low with
    | some h, some l => UInt8.ofNat (16 * h + l) :: readDigits rest
    | _, _ => []
  | _ => []

def ofHex (text : String) : List UInt8 := readDigits text.toList

theorem readDigits_digitsOf (b : UInt8) (rest : List Char) :
    readDigits (digitsOf b ++ rest) = b :: readDigits rest := by
  have hlt : b.toNat < 256 := b.toNat_lt
  have hvalue : 16 * (b.toNat / 16 % 16) + b.toNat % 16 = b.toNat := by omega
  simp only [digitsOf, List.cons_append, List.nil_append, readDigits, hexValue_hexDigit, Fin.ofNat]
  rw [hvalue, UInt8.ofNat_toNat]

/-- **What was written is read back.** -/
theorem ofHex_toHex (bytes : List UInt8) : ofHex (toHex bytes) = bytes := by
  rw [ofHex, toHex, String.toList_ofList]
  induction bytes with
  | nil => rfl
  | cons b bytes ih => rw [List.flatMap_cons, readDigits_digitsOf, ih]

theorem toHex_injective {a b : List UInt8} (h : toHex a = toHex b) : a = b := by
  rw [← ofHex_toHex a, h, ofHex_toHex]

theorem length_toHex (bytes : List UInt8) : (toHex bytes).length = 2 * bytes.length := by
  rw [toHex, String.length_ofList]
  induction bytes with
  | nil => rfl
  | cons b bytes ih =>
    rw [List.flatMap_cons, List.length_append, ih, List.length_cons, digitsOf, List.length_cons,
      List.length_singleton]
    omega

/-! ## Texts -/

/-- The bytes of a text in UTF-8. -/
def utf8 (text : String) : List UInt8 := text.toByteArray.data.toList

/-- The text of these bytes, if they are one. -/
def text? (bytes : List UInt8) : Option String := String.fromUTF8? ⟨bytes.toArray⟩

theorem text?_utf8 (text : String) : text? (utf8 text) = some text := by
  rw [text?, utf8, Array.toArray_toList, String.fromUTF8?, dif_pos text.isValidUTF8]
  rfl

theorem utf8_ofList (cs : List Char) : utf8 (String.ofList cs) = cs.flatMap String.utf8EncodeChar := by
  rw [utf8, String.toByteArray_ofList, List.utf8Encode]
  simp

theorem length_utf8_le (cs : List Char) : (utf8 (String.ofList cs)).length ≤ 4 * cs.length := by
  rw [utf8_ofList]
  induction cs with
  | nil => exact Nat.le_refl _
  | cons c cs ih =>
    have hc := c.utf8Size_le_four
    rw [List.flatMap_cons, List.length_append, String.length_utf8EncodeChar, List.length_cons]
    omega

theorem utf8_injective : Function.Injective utf8 := by
  intro a b h
  rw [← Option.some.injEq, ← text?_utf8 a, h, text?_utf8]

end Bytes
