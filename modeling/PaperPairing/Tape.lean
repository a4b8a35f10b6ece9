import PaperPairing.Bytes.Basic

/-!
# Random tapes

Randomness is a tape of bytes that draws use up from the front.  A tape never
runs dry: past its end every byte is zero.
-/

namespace PaperPairing

structure Tape where
  bytes : Bytes
deriving DecidableEq

namespace Tape

/-- The next `n` bytes, and the tape behind them. -/
def draw (n : Nat) (t : Tape) : Fixed n × Tape :=
  (Fixed.resize n t.bytes, ⟨t.bytes.drop n⟩)

end Tape
end PaperPairing
