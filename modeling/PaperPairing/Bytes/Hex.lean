import PaperPairing.Bytes.Basic

/-!
# Hexadecimal text

A byte is written as two lowercase digits.  Reading takes digits of either
case and needs an even number of them; what was written reads back.
-/

namespace PaperPairing
namespace Hex

def digit (n : Nat) : Char :=
  if n < 10 then Char.ofNat (48 + n) else Char.ofNat (87 + n)

def value? (c : Char) : Option Nat :=
  let n := c.toNat
  if 48 ≤ n ∧ n ≤ 57 then some (n - 48)
  else if 97 ≤ n ∧ n ≤ 102 then some (n - 87)
  else if 65 ≤ n ∧ n ≤ 70 then some (n - 55)
  else none

def encode : Bytes -> List Char
  | [] => []
  | x :: rest => digit (x.toNat / 16) :: digit (x.toNat % 16) :: encode rest

def decode? : List Char -> Option Bytes
  | [] => some []
  | high :: low :: rest => do
      let h ← value? high
      let l ← value? low
      return UInt8.ofNat (16 * h + l) :: (← decode? rest)
  | [_] => none

theorem value?_digit {n : Nat} (h : n < 16) : value? (digit n) = some n := by
  revert n
  decide

@[simp] theorem length_encode (b : Bytes) : (encode b).length = 2 * b.length := by
  induction b with
  | nil => rfl
  | cons x rest ih =>
      simp [encode, ih]
      omega

theorem decode?_encode (b : Bytes) : decode? (encode b) = some b := by
  induction b with
  | nil => rfl
  | cons x rest ih =>
      have hhigh : x.toNat / 16 < 16 := by
        have := x.toNat_lt
        omega
      have hlow : x.toNat % 16 < 16 := Nat.mod_lt _ (by decide)
      have hsum : 16 * (x.toNat / 16) + x.toNat % 16 = x.toNat := by omega
      simp [encode, decode?, value?_digit hhigh, value?_digit hlow, ih, hsum,
        -UInt8.ofNat_add, -UInt8.ofNat_mul]

def ofNumber (n : Nat) : List Char :=
  Nat.toDigits 16 n

end Hex
end PaperPairing
