/-!
# Powers modulo a number

Square and multiply, from the most significant bit of the exponent down.
-/

namespace PaperPairing

namespace PowMod

def power (base modulus : Nat) : (bits exponent : Nat) -> Nat
  | 0, _ => 1 % modulus
  | bits + 1, exponent =>
      let root := power base modulus bits (exponent / 2)
      let square := root * root % modulus
      if exponent % 2 = 1 then square * base % modulus else square

end PowMod

/-- `base ^ exponent % modulus`, without the large power in between. -/
def powMod (base exponent modulus : Nat) : Nat :=
  PowMod.power base modulus (exponent.log2 + 1) exponent

end PaperPairing
