import PaperPairing.Hash.Sha256

/-!
# HMAC-SHA256

A key is kept as the two chaining values that stand after its inner and its
outer pad block, so that each message costs no more than its own blocks.
-/

namespace PaperPairing
namespace Hmac

open Sha256 (Digest)

/-- The chaining values after the two pad blocks of a key. -/
structure Key where
  inner : Digest
  outer : Digest

/-- A key longer than a block is hashed first; a shorter one is filled up with
zero bytes. -/
def keyBlock (key : Bytes) : Bytes :=
  (Fixed.resize 64 (if 64 < key.length then (Sha256.hash key).toBytes else key)).bytes

def Key.ofBytes (key : Bytes) : Key where
  inner := Sha256.absorb Sha256.initial (Sha256.words ((keyBlock key).map (· ^^^ 0x36)))
  outer := Sha256.absorb Sha256.initial (Sha256.words ((keyBlock key).map (· ^^^ 0x5C)))

def Key.digest (key : Key) (message : Bytes) : Digest :=
  Sha256.finish key.outer 64 (Sha256.finish key.inner 64 message).toBytes

def tag (key message : Bytes) : Fixed 32 :=
  ((Key.ofBytes key).digest message).toFixed

/-!
## Tags of digests

Key stretching takes tags of tags.  Such a message is a single block: the
digest, its padding and the length of 96 bytes.
-/

/-- The last block of a message of one block and a digest. -/
def digestBlock (x : Digest) : Sha256.Block :=
  ⟨x.a, x.b, x.c, x.d, x.e, x.f, x.g, x.h, 0x80000000, 0, 0, 0, 0, 0, 0, 768⟩

def Key.digestAgain (key : Key) (x : Digest) : Digest :=
  Sha256.compress key.outer (digestBlock (Sha256.compress key.inner (digestBlock x)))

end Hmac
end PaperPairing
