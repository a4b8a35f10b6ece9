import Mathlib.Data.Finite.Prod
import Mathlib.Data.Fintype.Card
import PaperPairing.Proofs.Cipher.Cbc

/-!
# Enciphering undoes deciphering

A block has finitely many values, so what undoes enciphering on one side undoes
it on the other.  Hence a ciphertext that decrypts is the encryption of its own
text, and two initialisation vectors never lead from one text to one ciphertext.
-/

namespace PaperPairing
namespace Aes128

/-!
## Blocks
-/

instance finiteByte : Finite UInt8 :=
  Finite.of_injective UInt8.toFin (fun _ _ h => UInt8.toFin_inj.mp h)

instance : Finite Column := by
  refine Finite.of_injective (fun c : Column => (c.b0, c.b1, c.b2, c.b3)) ?_
  intro c d h
  cases c
  cases d
  cases h
  rfl

instance : Finite Block := by
  refine Finite.of_injective (fun s : Block => (s.c0, s.c1, s.c2, s.c3)) ?_
  intro s t h
  cases s
  cases t
  cases h
  rfl

theorem encipher_injective (keys : List Block) : Function.Injective (encipher keys) :=
  Function.LeftInverse.injective (decipher_encipher keys)

theorem encipher_decipher (keys : List Block) (s : Block) :
    encipher keys (decipher keys s) = s := by
  have hsurjective : Function.Surjective (encipher keys) :=
    Finite.injective_iff_surjective.mp (encipher_injective keys)
  rcases hsurjective s with ⟨t, rfl⟩
  rw [decipher_encipher]

theorem Block.toBytes_ofFixed (b : Fixed 16) : (ofFixed b).toBytes = b.bytes := by
  rcases Cbc.exists_blocks (n := 1) b.length_bytes with ⟨blocks, hblocks, hlength⟩
  rcases List.length_eq_one_iff.mp hlength with ⟨s, rfl⟩
  have hbytes : b.bytes = s.toBytes ++ [] := by
    rw [hblocks]
    rfl
  rw [ofFixed, hbytes, split?_toBytes, List.append_nil]

theorem Block.ofFixed_injective : Function.Injective ofFixed := by
  intro a b h
  have hbytes := congrArg toBytes h
  rw [toBytes_ofFixed, toBytes_ofFixed] at hbytes
  exact Fixed.eq_of_bytes_eq hbytes

theorem Block.xor_comm (s t : Block) : s.xor t = t.xor s := by
  simp [xor, Column.xor, UInt8.xor_comm]

theorem Block.xor_left_injective (s : Block) : Function.Injective s.xor := by
  intro k k' h
  rw [← xor_xor k s, ← xor_xor k' s, xor_comm k, xor_comm k', h]

end Aes128

namespace Cbc

open Aes128 (Block)

/-!
## Chains
-/

theorem encipher_decipher (keys : List Block) (previous : Block) (blocks : List Block) :
    encipher keys previous (decipher keys previous blocks) = blocks := by
  induction blocks generalizing previous with
  | nil => rfl
  | cons c rest ih => rw [decipher, encipher, Block.xor_xor, Aes128.encipher_decipher, ih]

theorem toBytes_injective : Function.Injective toBytes := by
  intro blocks more h
  have hread := congrArg blocks? h
  rw [blocks?_toBytes, blocks?_toBytes] at hread
  exact Option.some.inj hread

theorem eq_toBytes_of_blocks? {b : Bytes} {blocks : List Block} (h : blocks? b = some blocks) :
    b = toBytes blocks := by
  fun_induction blocks? b generalizing blocks with
  | case1 b s rest hsplit ih =>
      rcases Option.map_eq_some_iff.mp h with ⟨more, hmore, rfl⟩
      rw [Block.eq_of_split? hsplit, ih hmore]
      rfl
  | case2 =>
      cases h
      rfl
  | case3 => cases h

/-!
## Padding
-/

/-- Full blocks end in one padding only: its length is told by its last byte. -/
theorem eq_pad_of_unpad? {b text : Bytes} (hfull : b.length % 16 = 0)
    (h : unpad? b = some text) : b = pad text := by
  rw [unpad?] at h
  split at h
  · cases h
  next last hlast =>
    rcases Option.ite_none_right_eq_some.mp h with ⟨⟨hlow, hhigh, hfits, hpadding⟩, htext⟩
    have hlength : text.length = b.length - last.toNat := by
      rw [← Option.some.inj htext, List.length_take]
      omega
    have hpadLength : padLength text.length = last.toNat := by
      rw [padLength, hlength]
      omega
    rw [pad, hpadLength, UInt8.ofNat_toNat, ← hpadding, ← Option.some.inj htext,
      List.take_append_drop]

/-!
## Strings
-/

theorem eq_encrypt_of_decrypt? {key iv : Fixed 16} {ciphertext text : Bytes}
    (h : decrypt? key iv ciphertext = some text) : ciphertext = encrypt key iv text := by
  rcases Option.bind_eq_some_iff.mp h with ⟨blocks, hblocks, htext⟩
  have hpad := eq_pad_of_unpad? (by rw [length_toBytes, Nat.mul_mod_right]) htext
  rw [encrypt, ← hpad, blocks?_toBytes, Option.getD_some, encipher_decipher]
  exact eq_toBytes_of_blocks? hblocks

theorem decrypt?_eq_some_iff {key iv : Fixed 16} {ciphertext text : Bytes} :
    decrypt? key iv ciphertext = some text ↔ ciphertext = encrypt key iv text := by
  constructor
  · exact eq_encrypt_of_decrypt?
  · rintro rfl
    exact decrypt?_encrypt key iv text

/-- The first block alone tells the initialisation vector. -/
theorem iv_eq_of_encrypt_eq {key iv iv' : Fixed 16} {text : Bytes}
    (h : encrypt key iv text = encrypt key iv' text) : iv = iv' := by
  rcases blocks?_pad text with ⟨blocks, hblocks, -, hlength⟩
  cases blocks with
  | nil => cases hlength
  | cons s rest =>
      simp only [encrypt, hblocks, Option.getD_some] at h
      have hfirst := (List.cons.inj (toBytes_injective h)).1
      have hsum := Aes128.encipher_injective _ hfirst
      exact Block.ofFixed_injective (s.xor_left_injective hsum)

end Cbc
end PaperPairing
