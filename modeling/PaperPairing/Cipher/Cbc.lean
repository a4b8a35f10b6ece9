import PaperPairing.Cipher.Aes128

/-!
# Cipher block chaining

Each block is combined with the ciphertext of the one before it, the first one
with the initialisation vector.  Text is padded to full blocks first: `n` bytes
of value `n`, never none, so that the padding can be told from the text.
-/

namespace PaperPairing
namespace Cbc

open Aes128 (Block)

/-!
## Chains of blocks
-/

def encipher (keys : List Block) (previous : Block) : List Block -> List Block
  | [] => []
  | s :: rest =>
      let c := Aes128.encipher keys (s.xor previous)
      c :: encipher keys c rest

def decipher (keys : List Block) (previous : Block) : List Block -> List Block
  | [] => []
  | c :: rest => (Aes128.decipher keys c).xor previous :: decipher keys c rest

def blocks? (b : Bytes) : Option (List Block) :=
  match _h : Block.split? b with
  | some (s, rest) => (blocks? rest).map (s :: ·)
  | none => if b = [] then some [] else none
termination_by b.length
decreasing_by
  have := Block.length_of_split? _h
  omega

def toBytes (blocks : List Block) : Bytes :=
  blocks.flatMap Block.toBytes

/-!
## Padding
-/

def padLength (length : Nat) : Nat :=
  16 - length % 16

def pad (b : Bytes) : Bytes :=
  b ++ List.replicate (padLength b.length) (UInt8.ofNat (padLength b.length))

/-- The last byte tells how many bytes, all equal to it, are to be dropped:
one to sixteen. -/
def unpad? (b : Bytes) : Option Bytes :=
  match b.getLast? with
  | none => none
  | some last =>
      let n := last.toNat
      let kept := b.take (b.length - n)
      if 1 ≤ n ∧ n ≤ 16 ∧ n ≤ b.length ∧ b.drop (b.length - n) = List.replicate n last then
        some kept
      else
        none

/-!
## Strings
-/

def encrypt (key iv : Fixed 16) (text : Bytes) : Bytes :=
  let blocks := (blocks? (pad text)).getD []
  toBytes (encipher (Aes128.roundKeys key) (Block.ofFixed iv) blocks)

/-- The text of a ciphertext; none if it has incomplete blocks or ends in bad
padding. -/
def decrypt? (key iv : Fixed 16) (ciphertext : Bytes) : Option Bytes := do
  let blocks ← blocks? ciphertext
  unpad? (toBytes (decipher (Aes128.roundKeys key) (Block.ofFixed iv) blocks))

end Cbc
end PaperPairing
