/-!
# Inverses modulo a number

Euclid's algorithm, carrying one of the two coefficients along.
-/

namespace PaperPairing

namespace Inverse

/-- Two remainders and the multiples of the starting number that they are. -/
def euclid (r s : Nat) (x y : Int) : Nat × Int :=
  if h : s = 0 then (r, x)
  else
    have : r % s < s := Nat.mod_lt r (Nat.pos_of_ne_zero h)
    euclid s (r % s) y (x - (r / s : Nat) * y)
termination_by s

end Inverse

/-- The number below `m` whose product with `a` is 1 modulo `m`, if the two
have no common factor. -/
def inverse? (a m : Nat) : Option Nat :=
  match Inverse.euclid (a % m) m 1 0 with
  | (g, x) => if g = 1 then some (x % (m : Int)).toNat else none

end PaperPairing
