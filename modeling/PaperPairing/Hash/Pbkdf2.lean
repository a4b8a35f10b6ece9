import PaperPairing.Hash.Hmac

/-!
# PBKDF2

Key stretching with HMAC-SHA256: a block of output is the exclusive or of a
chain of tags, each the tag of the one before it.
-/

namespace PaperPairing
namespace Pbkdf2

open Sha256 (Digest)

def xor (x y : Digest) : Digest :=
  ⟨x.a ^^^ y.a, x.b ^^^ y.b, x.c ^^^ y.c, x.d ^^^ y.d,
   x.e ^^^ y.e, x.f ^^^ y.f, x.g ^^^ y.g, x.h ^^^ y.h⟩

/-- Go on with the chain for `n` tags; `last` is the tag reached, `sum` the
exclusive or so far. -/
def chain (key : Hmac.Key) : Nat -> (last sum : Digest) -> Digest
  | 0, _, sum => sum
  | n + 1, last, sum =>
      let next := key.digestAgain last
      chain key n next (xor sum next)

def block (key : Hmac.Key) (salt : Bytes) (iterations index : Nat) : Digest :=
  let first := key.digest (salt ++ Bytes.ofNat 4 index)
  chain key (iterations - 1) first first

def derive (password salt : Bytes) (iterations length : Nat) : Bytes :=
  let key := Hmac.Key.ofBytes password
  ((List.range ((length + 31) / 32)).flatMap
    (fun i => (block key salt iterations (i + 1)).toBytes)).take length

@[simp] theorem length_derive (password salt : Bytes) (iterations length : Nat) :
    (derive password salt iterations length).length = length := by
  simp [derive, List.length_flatMap, List.map_const']
  omega

end Pbkdf2
end PaperPairing
