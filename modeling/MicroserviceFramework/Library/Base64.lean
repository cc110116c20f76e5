import Mathlib.Data.List.Basic
import Mathlib.Tactic.Common

/-!
# Base64

Three bytes are four digits of six bits each, and a rest of one or two bytes is padded with `=`.
-/

namespace MicroserviceFramework.Library.Base64

def alphabet : List Char :=
  ['A', 'B', 'C', 'D', 'E', 'F', 'G', 'H', 'I', 'J', 'K', 'L', 'M', 'N', 'O', 'P',
    'Q', 'R', 'S', 'T', 'U', 'V', 'W', 'X', 'Y', 'Z', 'a', 'b', 'c', 'd', 'e', 'f',
    'g', 'h', 'i', 'j', 'k', 'l', 'm', 'n', 'o', 'p', 'q', 'r', 's', 't', 'u', 'v',
    'w', 'x', 'y', 'z', '0', '1', '2', '3', '4', '5', '6', '7', '8', '9', '+', '/']

/-- The last six bits of a number. -/
def digit (n : Nat) : Char := alphabet.getD (n % 64) 'A'

def value (c : Char) : Option Nat := alphabet.idxOf? c

def pad : Char := '='

def encode : List UInt8 → List Char
  | a :: b :: c :: rest =>
    let n := a.toNat * 65536 + b.toNat * 256 + c.toNat
    digit (n / 262144) :: digit (n / 4096) :: digit (n / 64) :: digit n :: encode rest
  | [a, b] =>
    let n := a.toNat * 1024 + b.toNat * 4
    [digit (n / 4096), digit (n / 64), digit n, pad]
  | [a] =>
    let n := a.toNat * 16
    [digit (n / 64), digit n, pad, pad]
  | [] => []

/-- The bytes of a text of whole groups. -/
def decode : List Char → Option (List UInt8)
  | w :: x :: y :: z :: rest =>
    match value w, value x, value y, value z with
    | some w, some x, some y, some z =>
      let n := w * 262144 + x * 4096 + y * 64 + z
      (decode rest).map fun bytes =>
        .ofNat (n / 65536) :: .ofNat (n / 256) :: .ofNat n :: bytes
    | some w, some x, some y, none =>
      let n := w * 4096 + x * 64 + y
      if z = pad ∧ rest = [] then some [.ofNat (n / 1024), .ofNat (n / 4)] else none
    | some w, some x, none, none =>
      let n := w * 64 + x
      if y = pad ∧ z = pad ∧ rest = [] then some [.ofNat (n / 16)] else none
    | _, _, _, _ => none
  | [] => some []
  | _ => none

theorem value_digit (n : Nat) : value (digit n) = some (n % 64) := by
  have table : ∀ i < 64, value (alphabet.getD i 'A') = some i := by decide +kernel
  exact table _ (Nat.mod_lt _ (by decide))

theorem value_pad : value pad = none := by decide +kernel

theorem ofNat_eq {n : Nat} {a : UInt8} (same : n % 256 = a.toNat) : UInt8.ofNat n = a := by
  apply UInt8.toNat_inj.mp
  rw [UInt8.toNat_ofNat', same]

theorem decode_encode (bytes : List UInt8) : decode (encode bytes) = some bytes := by
  fun_induction encode bytes with
  | case1 a b c rest n ih =>
    have low := a.toNat_lt
    have middle := b.toNat_lt
    have high := c.toNat_lt
    have whole : n / 262144 % 64 * 262144 + n / 4096 % 64 * 4096 + n / 64 % 64 * 64 + n % 64 = n := by
      omega
    have first : UInt8.ofNat (n / 65536) = a := ofNat_eq (by omega)
    have second : UInt8.ofNat (n / 256) = b := ofNat_eq (by omega)
    have third : UInt8.ofNat n = c := ofNat_eq (by omega)
    simp only [decode, value_digit, whole, ih, Option.map_some, first, second, third]
  | case2 a b n =>
    have low := a.toNat_lt
    have high := b.toNat_lt
    have whole : n / 4096 % 64 * 4096 + n / 64 % 64 * 64 + n % 64 = n := by omega
    have first : UInt8.ofNat (n / 1024) = a := ofNat_eq (by omega)
    have second : UInt8.ofNat (n / 4) = b := ofNat_eq (by omega)
    simp only [decode, value_digit, value_pad, whole, and_self, if_true, first, second]
  | case3 a n =>
    have low := a.toNat_lt
    have whole : n / 64 % 64 * 64 + n % 64 = n := by omega
    have first : UInt8.ofNat (n / 16) = a := ofNat_eq (by omega)
    simp only [decode, value_digit, value_pad, whole, and_self, if_true, first]
  | case4 => rfl

theorem encode_inj {bytes bytes' : List UInt8} : encode bytes = encode bytes' ↔ bytes = bytes' := by
  refine ⟨fun same => ?_, congrArg encode⟩
  have read := congrArg decode same
  rw [decode_encode, decode_encode] at read
  exact Option.some.inj read

theorem length_encode (bytes : List UInt8) :
    (encode bytes).length = (bytes.length + 2) / 3 * 4 := by
  fun_induction encode bytes with
  | case1 a b c rest n ih =>
    simp only [List.length_cons, ih]
    omega
  | case2 => simp
  | case3 => simp
  | case4 => rfl

theorem digit_mem (n : Nat) : digit n ∈ alphabet := by
  have bound : n % 64 < alphabet.length := Nat.lt_of_lt_of_eq (Nat.mod_lt _ (by decide)) (by decide)
  rw [digit, List.getD_eq_getElem?_getD, List.getElem?_eq_getElem bound, Option.getD_some]
  exact List.getElem_mem bound

/-- The text has no other characters. -/
theorem mem_encode {bytes : List UInt8} {c : Char} (mem : c ∈ encode bytes) :
    c ∈ alphabet ∨ c = pad := by
  fun_induction encode bytes with
  | case1 => grind [digit_mem]
  | case2 => grind [digit_mem]
  | case3 => grind [digit_mem]
  | case4 => cases mem

end MicroserviceFramework.Library.Base64
