import TransactionSimulator.Lib.Bytes

/-!
# Base64url

Bytes as texts over an alphabet of 64 characters that are safe in URLs, without padding.  Three bytes are
written as four digits; one or two bytes at the end, as two or three.  Reading takes the digits of both
usual alphabets and passes over every other character.

* `ofBase64url_toBase64url`: what was written is read back.
* `mem_alphabet64`: only digits are written.
-/

namespace Bytes

def alphabet64 : List Char := "ABCDEFGHIJKLMNOPQRSTUVWXYZabcdefghijklmnopqrstuvwxyz0123456789-_".toList

def digit64 (n : Nat) : Char := alphabet64.getD n 'A'

/-- The value of a digit; `+` and `/` are digits of the other alphabet. -/
def value64 (c : Char) : Option Nat :=
  if c = '+' then some 62
  else if c = '/' then some 63
  else if alphabet64.idxOf c < 64 then some (alphabet64.idxOf c)
  else none

/-- The six-bit groups of bytes. -/
def groups64 : List UInt8 → List Nat
  | a :: b :: c :: rest =>
    a.toNat / 4 :: (a.toNat % 4 * 16 + b.toNat / 16) :: (b.toNat % 16 * 4 + c.toNat / 64) :: c.toNat % 64 ::
      groups64 rest
  | [a, b] => [a.toNat / 4, a.toNat % 4 * 16 + b.toNat / 16, b.toNat % 16 * 4]
  | [a] => [a.toNat / 4, a.toNat % 4 * 16]
  | [] => []

/-- The bytes of six-bit groups; the bits that are left over are dropped. -/
def ofGroups64 : List Nat → List UInt8
  | p :: q :: r :: s :: rest =>
    UInt8.ofNat (p * 4 + q / 16) :: UInt8.ofNat (q % 16 * 16 + r / 4) :: UInt8.ofNat (r % 4 * 64 + s) ::
      ofGroups64 rest
  | [p, q, r] => [UInt8.ofNat (p * 4 + q / 16), UInt8.ofNat (q % 16 * 16 + r / 4)]
  | [p, q] => [UInt8.ofNat (p * 4 + q / 16)]
  | _ => []

def toBase64url (bytes : List UInt8) : String := String.ofList ((groups64 bytes).map digit64)

def ofBase64url (text : String) : List UInt8 := ofGroups64 (text.toList.filterMap value64)

/-! ## What was written is read back -/

theorem value64_digit64 : ∀ n < 64, value64 (digit64 n) = some n := by decide +kernel

theorem groups64_lt (bytes : List UInt8) : ∀ n ∈ groups64 bytes, n < 64 := by
  induction bytes using groups64.induct with
  | case1 a b c rest ih =>
    have ha := a.toNat_lt
    have hb := b.toNat_lt
    have hc := c.toNat_lt
    simp only [groups64, List.forall_mem_cons]
    exact ⟨by omega, by omega, by omega, by omega, ih⟩
  | case2 a b =>
    have ha := a.toNat_lt
    have hb := b.toNat_lt
    simp only [groups64, List.forall_mem_cons]
    exact ⟨by omega, by omega, by omega, List.forall_mem_nil _⟩
  | case3 a =>
    have ha := a.toNat_lt
    simp only [groups64, List.forall_mem_cons]
    exact ⟨by omega, by omega, List.forall_mem_nil _⟩
  | case4 => exact List.forall_mem_nil _

theorem ofNat_eq {b : UInt8} {n : Nat} (h : n = b.toNat) : UInt8.ofNat n = b := by
  rw [h, UInt8.ofNat_toNat]

theorem ofGroups64_groups64 (bytes : List UInt8) : ofGroups64 (groups64 bytes) = bytes := by
  induction bytes using groups64.induct with
  | case1 a b c rest ih =>
    have ha := a.toNat_lt
    have hb := b.toNat_lt
    have hc := c.toNat_lt
    simp only [groups64, ofGroups64, ih]
    rw [ofNat_eq (b := a) (by omega), ofNat_eq (b := b) (by omega), ofNat_eq (b := c) (by omega)]
  | case2 a b =>
    have ha := a.toNat_lt
    have hb := b.toNat_lt
    simp only [groups64, ofGroups64]
    rw [ofNat_eq (b := a) (by omega), ofNat_eq (b := b) (by omega)]
  | case3 a =>
    have ha := a.toNat_lt
    simp only [groups64, ofGroups64]
    rw [ofNat_eq (b := a) (by omega)]
  | case4 => rfl

/-- **What was written is read back.** -/
theorem ofBase64url_toBase64url (bytes : List UInt8) : ofBase64url (toBase64url bytes) = bytes := by
  have hread : ∀ ns : List Nat, (∀ n ∈ ns, n < 64) → (ns.map digit64).filterMap value64 = ns := by
    intro ns hns
    induction ns with
    | nil => rfl
    | cons n ns ih =>
      rw [List.forall_mem_cons] at hns
      rw [List.map_cons, List.filterMap_cons, value64_digit64 n hns.1, ih hns.2]
  rw [ofBase64url, toBase64url, String.toList_ofList, hread _ (groups64_lt bytes), ofGroups64_groups64]

/-- A byte becomes two digits at most. -/
theorem length_toBase64url_le (bytes : List UInt8) : (toBase64url bytes).length ≤ 2 * bytes.length := by
  rw [toBase64url, String.length_ofList, List.length_map]
  induction bytes using groups64.induct with
  | case1 a b c rest ih =>
    simp only [groups64, List.length_cons]
    omega
  | case2 a b => simp [groups64]
  | case3 a => simp [groups64]
  | case4 => exact Nat.le_refl _

theorem mem_alphabet64 {bytes : List UInt8} {c : Char} (h : c ∈ (toBase64url bytes).toList) :
    c ∈ alphabet64 := by
  rw [toBase64url, String.toList_ofList, List.mem_map] at h
  obtain ⟨n, hn, rfl⟩ := h
  have hlt : n < alphabet64.length := groups64_lt bytes n hn
  rw [digit64, List.getD_eq_getElem?_getD, List.getElem?_eq_getElem hlt, Option.getD_some]
  exact List.getElem_mem hlt

end Bytes
