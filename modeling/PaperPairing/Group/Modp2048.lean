import PaperPairing.Bytes.Basic
import PaperPairing.Group.PowMod

/-!
# The 2048-bit group

The key exchange works in the prime-order subgroup of the 2048-bit MODP group
(group 14 of RFC 3526).  Public values are checked for membership before they
are used, and every value travels as a string of 256 bytes; the client's own
value has one zero byte more in front.
-/

namespace PaperPairing
namespace Modp2048

/-!
## Parameters
-/

def modulusWords : List Nat :=
  [0xFFFFFFFFFFFFFFFF, 0xC90FDAA22168C234, 0xC4C6628B80DC1CD1, 0x29024E088A67CC74,
   0x020BBEA63B139B22, 0x514A08798E3404DD, 0xEF9519B3CD3A431B, 0x302B0A6DF25F1437,
   0x4FE1356D6D51C245, 0xE485B576625E7EC6, 0xF44C42E9A637ED6B, 0x0BFF5CB6F406B7ED,
   0xEE386BFB5A899FA5, 0xAE9F24117C4B1FE6, 0x49286651ECE45B3D, 0xC2007CB8A163BF05,
   0x98DA48361C55D39A, 0x69163FA8FD24CF5F, 0x83655D23DCA3AD96, 0x1C62F356208552BB,
   0x9ED529077096966D, 0x670C354E4ABC9804, 0xF1746C08CA18217C, 0x32905E462E36CE3B,
   0xE39E772C180E8603, 0x9B2783A2EC07A28F, 0xB5C55DF06F4C52C9, 0xDE2BCBF695581718,
   0x3995497CEA956AE5, 0x15D2261898FA0510, 0x15728E5A8AACAA68, 0xFFFFFFFFFFFFFFFF]

def modulus : Nat :=
  modulusWords.foldl (fun n w => n * UInt64.size + w) 0

def generator : Nat := 2

/-- The order of the subgroup: the modulus is a safe prime. -/
def order : Nat := (modulus - 1) / 2

def width : Nat := 256

/-!
## Checking public values
-/

inductive Fault where
  | tooWide
  | outOfRange
  | outsideSubgroup
deriving DecidableEq

def Fault.message : Fault -> String
  | .tooWide => "value wider than 2048 bits"
  | .outOfRange => "out of range [2, p-2]"
  | .outsideSubgroup => "not in prime-order subgroup"

/-- A public value lies between 2 and `modulus - 2` and in the subgroup. -/
def validate (y : Nat) : Except Fault Unit :=
  if y < 2 ∨ modulus - 2 < y then .error .outOfRange
  else if powMod y order modulus ≠ 1 then .error .outsideSubgroup
  else .ok ()

/-- A value in 256 bytes: zero bytes in front are added or taken away. -/
def project (peer : Bytes) : Except Fault Bytes :=
  let excess := peer.length - width
  if (peer.take excess).all (· = 0) then .ok (Bytes.padLeft width (peer.drop excess))
  else .error .tooWide

theorem length_of_project {peer b : Bytes} (h : project peer = .ok b) : b.length = width := by
  unfold project at h
  simp only at h
  split at h
  · rw [← Except.ok.inj h]
    apply Bytes.length_padLeft
    rw [List.length_drop]
    omega
  · cases h

/-!
## Key pairs
-/

structure KeyPair where
  exponent : Nat

namespace KeyPair

def ofBytes (b : Bytes) : KeyPair :=
  ⟨b.toNat⟩

def publicKey (k : KeyPair) : Bytes :=
  0 :: Bytes.ofNat width (powMod generator k.exponent modulus)

@[simp] theorem length_publicKey (k : KeyPair) : k.publicKey.length = 257 := by
  simp [publicKey, width]

/-- The secret shared with the holder of a public value, in 256 bytes. -/
def sharedSecret (k : KeyPair) (peer : Bytes) : Except Fault Bytes := do
  let y := (← project peer).toNat
  validate y
  return Bytes.ofNat width (powMod y k.exponent modulus)

end KeyPair

end Modp2048
end PaperPairing
