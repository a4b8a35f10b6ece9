import PaperPairing.Bytes.Basic

/-!
# Base64

Standard alphabet, padding required.  Three bytes become four symbols; a rest
of one or two bytes is padded with `=`, and the bits that the padding leaves
unused must be zero.  So every byte string has exactly one written form, and
reading accepts no other.
-/

namespace PaperPairing
namespace Base64

/-!
## The alphabet
-/

def symbol (n : Nat) : Char :=
  if n < 26 then Char.ofNat (65 + n)
  else if n < 52 then Char.ofNat (71 + n)
  else if n < 62 then Char.ofNat (n - 4)
  else if n = 62 then '+'
  else '/'

/-- The six-bit value of a symbol; the padding sign has none. -/
def value? (c : Char) : Option Nat :=
  let n := c.toNat
  if 65 ≤ n ∧ n ≤ 90 then some (n - 65)
  else if 97 ≤ n ∧ n ≤ 122 then some (n - 71)
  else if 48 ≤ n ∧ n ≤ 57 then some (n + 4)
  else if n = 43 then some 62
  else if n = 47 then some 63
  else none

theorem value?_symbol {n : Nat} (h : n < 64) : value? (symbol n) = some n := by
  revert n
  decide

theorem symbol_ne_pad {n : Nat} (h : n < 64) : symbol n ≠ '=' := by
  revert n
  decide

/-!
## Writing
-/

def encode : Bytes -> List Char
  | [] => []
  | [a] =>
      let n := a.toNat * 65536
      [symbol (n / 262144), symbol (n / 4096 % 64), '=', '=']
  | [a, b] =>
      let n := a.toNat * 65536 + b.toNat * 256
      [symbol (n / 262144), symbol (n / 4096 % 64), symbol (n / 64 % 64), '=']
  | a :: b :: c :: rest =>
      let n := a.toNat * 65536 + b.toNat * 256 + c.toNat
      symbol (n / 262144) :: symbol (n / 4096 % 64) :: symbol (n / 64 % 64) ::
        symbol (n % 64) :: encode rest

/-!
## Reading
-/

/-- The bytes of a last group, whose unused bits must be zero. -/
def decodeLast? (a b c d : Char) : Option Bytes := do
  let x ← value? a
  let y ← value? b
  if d = '=' then
    if c = '=' then
      if y % 16 = 0 then some [UInt8.ofNat (x * 4 + y / 16)] else none
    else
      let z ← value? c
      if z % 4 = 0 then
        some [UInt8.ofNat (x * 4 + y / 16), UInt8.ofNat (y * 16 + z / 4)]
      else
        none
  else
    let z ← value? c
    let w ← value? d
    some [UInt8.ofNat (x * 4 + y / 16), UInt8.ofNat (y * 16 + z / 4),
      UInt8.ofNat (z * 64 + w)]

/-- Padding can stand in the last group only. -/
def decode? : List Char -> Option Bytes
  | [] => some []
  | [a, b, c, d] => decodeLast? a b c d
  | a :: b :: c :: d :: rest => do
      let x ← value? a
      let y ← value? b
      let z ← value? c
      let w ← value? d
      return UInt8.ofNat (x * 4 + y / 16) :: UInt8.ofNat (y * 16 + z / 4) ::
        UInt8.ofNat (z * 64 + w) :: (← decode? rest)
  | _ => none

end Base64
end PaperPairing
