import PaperPairing.Cipher.Cbc
import PaperPairing.Proofs.Cipher.Aes128

/-!
# Decryption undoes encryption

Chains of blocks are undone block by block, since each block is combined again
with the ciphertext that it was combined with.  Padding always completes a
block and always tells its own length.
-/

namespace PaperPairing
namespace Cbc

open Aes128 (Block)

/-!
## Chains
-/

theorem decipher_encipher (keys : List Block) (previous : Block) (blocks : List Block) :
    decipher keys previous (encipher keys previous blocks) = blocks := by
  induction blocks generalizing previous with
  | nil => rfl
  | cons s rest ih =>
      rw [encipher, decipher, Aes128.decipher_encipher, Block.xor_xor, ih]

@[simp] theorem length_encipher (keys : List Block) (previous : Block)
    (blocks : List Block) : (encipher keys previous blocks).length = blocks.length := by
  induction blocks generalizing previous with
  | nil => rfl
  | cons s rest ih => simp [encipher, ih]

@[simp] theorem length_toBytes (blocks : List Block) :
    (toBytes blocks).length = 16 * blocks.length := by
  induction blocks with
  | nil => rfl
  | cons s rest ih =>
      have htail : (rest.flatMap Block.toBytes).length = 16 * rest.length := ih
      rw [toBytes, List.flatMap_cons, List.length_append, htail, Block.length_toBytes,
        List.length_cons]
      omega

theorem blocks?_toBytes_append (s : Block) (rest : Bytes) :
    blocks? (s.toBytes ++ rest) = (blocks? rest).map (s :: ·) := by
  rw [blocks?]
  split
  · next s' rest' h =>
      rw [Block.split?_toBytes] at h
      cases h
      rfl
  · next h =>
      rw [Block.split?_toBytes] at h
      cases h

theorem blocks?_toBytes (blocks : List Block) : blocks? (toBytes blocks) = some blocks := by
  induction blocks with
  | nil =>
      rw [toBytes, List.flatMap_nil, blocks?]
      rfl
  | cons s rest ih =>
      have htail : blocks? (rest.flatMap Block.toBytes) = some rest := ih
      rw [toBytes, List.flatMap_cons, blocks?_toBytes_append, htail]
      rfl

theorem exists_blocks {n : Nat} {b : Bytes} (hb : b.length = 16 * n) :
    exists blocks, b = toBytes blocks ∧ blocks.length = n := by
  induction n generalizing b with
  | zero =>
      have hnil : b = [] := List.length_eq_zero_iff.mp hb
      exact ⟨[], hnil, rfl⟩
  | succ n ih =>
      match b, hb with
      | a0 :: a1 :: a2 :: a3 :: b0 :: b1 :: b2 :: b3 ::
          c0 :: c1 :: c2 :: c3 :: d0 :: d1 :: d2 :: d3 :: rest, hb =>
          have hrest : rest.length = 16 * n := by
            simp only [List.length_cons] at hb
            omega
          rcases ih hrest with ⟨blocks, hblocks, hlength⟩
          refine ⟨⟨⟨a0, a1, a2, a3⟩, ⟨b0, b1, b2, b3⟩, ⟨c0, c1, c2, c3⟩,
            ⟨d0, d1, d2, d3⟩⟩ :: blocks, ?_, by rw [List.length_cons, hlength]⟩
          rw [hblocks]
          rfl

/-!
## Padding
-/

theorem length_pad (b : Bytes) : (pad b).length = 16 * (b.length / 16 + 1) := by
  rw [pad, List.length_append, List.length_replicate, padLength]
  omega

theorem getLast?_pad (b : Bytes) :
    (pad b).getLast? = some (UInt8.ofNat (padLength b.length)) := by
  have hpositive : padLength b.length = (padLength b.length - 1) + 1 := by
    simp only [padLength]
    omega
  have hlast : forall (n : Nat) (x : UInt8), (b ++ List.replicate (n + 1) x).getLast? = some x := by
    intro n x
    rw [List.replicate_succ', ← List.append_assoc, List.getLast?_concat]
  rw [pad]
  conv => lhs; rw [hpositive]
  rw [hlast, ← hpositive]

theorem unpad?_pad (b : Bytes) : unpad? (pad b) = some b := by
  have hlow : 1 ≤ padLength b.length := by
    simp only [padLength]
    omega
  have hhigh : padLength b.length ≤ 16 := by
    simp only [padLength]
    omega
  have hvalue : (UInt8.ofNat (padLength b.length)).toNat = padLength b.length := by
    rw [UInt8.toNat_ofNat']
    omega
  have hkept : (pad b).length - padLength b.length = b.length := by
    rw [pad, List.length_append, List.length_replicate]
    omega
  have hfits : padLength b.length ≤ (pad b).length := by
    rw [pad, List.length_append, List.length_replicate]
    omega
  simp only [unpad?, getLast?_pad, hvalue, hkept]
  rw [if_pos ⟨hlow, hhigh, hfits, by rw [pad, List.drop_left]⟩, pad, List.take_left]

/-!
## Strings
-/

theorem blocks?_pad (b : Bytes) :
    exists blocks, blocks? (pad b) = some blocks ∧ pad b = toBytes blocks ∧
      blocks.length = b.length / 16 + 1 := by
  rcases exists_blocks (length_pad b) with ⟨blocks, hblocks, hlength⟩
  exact ⟨blocks, by rw [hblocks, blocks?_toBytes], hblocks, hlength⟩

theorem decrypt?_encrypt (key iv : Fixed 16) (text : Bytes) :
    decrypt? key iv (encrypt key iv text) = some text := by
  rcases blocks?_pad text with ⟨blocks, hblocks, hbytes, _⟩
  rw [decrypt?, encrypt, hblocks]
  simp only [Option.getD_some, blocks?_toBytes, Option.bind_eq_bind, Option.bind_some,
    decipher_encipher]
  rw [← hbytes, unpad?_pad]

@[simp] theorem length_encrypt (key iv : Fixed 16) (text : Bytes) :
    (encrypt key iv text).length = 16 * (text.length / 16 + 1) := by
  rcases blocks?_pad text with ⟨blocks, hblocks, _, hlength⟩
  rw [encrypt, hblocks]
  simp only [Option.getD_some, length_toBytes, length_encipher, hlength]

end Cbc
end PaperPairing
