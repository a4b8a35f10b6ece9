/-!
# Numerals

Unsigned numerals in a base up to sixteen.  One plus sign may stand in front,
leading zeros are allowed, and a numeral whose value reaches the bound is
refused.
-/

namespace PaperPairing
namespace Numeral

/-- The value of a digit of either case, if it is a digit of the base. -/
def digit? (base : Nat) (c : Char) : Option Nat :=
  let n := c.toNat
  let d :=
    if 48 ≤ n ∧ n ≤ 57 then n - 48
    else if 97 ≤ n ∧ n ≤ 102 then n - 87
    else if 65 ≤ n ∧ n ≤ 70 then n - 55
    else base
  if d < base then some d else none

/-- The value of a row of digits after a number already read. -/
def digits? (base : Nat) (n : Nat) : List Char -> Option Nat
  | [] => some n
  | c :: rest =>
      match digit? base c with
      | some d => digits? base (n * base + d) rest
      | none => none

def unsigned : List Char -> List Char
  | '+' :: rest => rest
  | cs => cs

def read? (base bound : Nat) (cs : List Char) : Option Nat :=
  if unsigned cs = [] then none
  else
    match digits? base 0 (unsigned cs) with
    | some n => if n < bound then some n else none
    | none => none

end Numeral
end PaperPairing
