import PaperPairing.Cipher.Aes128

/-!
# Deciphering undoes enciphering

Each layer of a round is undone by its inverse.  The mixing of columns is
linear over exclusive or and turns with the column, so its inverse has to be
checked only on the 256 columns that have nothing below their top byte.
-/

namespace PaperPairing
namespace Aes128

/-!
## The substitution
-/

theorem map_inverseTable :
    substitutionTable.toList.map (fun y => inverseTable.toList.getD y.toNat 0) =
      (List.range 256).map UInt8.ofNat := by
  decide +kernel

theorem size_substitutionTable : substitutionTable.size = 256 := by
  have hlength := congrArg List.length map_inverseTable
  rwa [List.length_map, List.length_map, List.length_range, Array.length_toList] at hlength

@[simp] theorem invSubstitute_substitute (x : UInt8) : invSubstitute (substitute x) = x := by
  have hx : x.toNat < substitutionTable.size := by
    rw [size_substitutionTable]
    exact x.toNat_lt
  have hentry := congrArg (fun l => l[x.toNat]?) map_inverseTable
  simp only [List.getElem?_map, Array.getElem?_toList, Array.getElem?_eq_getElem hx,
    List.getElem?_range x.toNat_lt, Option.map_some, UInt8.ofNat_toNat,
    Option.some.injEq, List.getD_eq_getElem?_getD] at hentry
  rw [substitute, invSubstitute, Array.getD_eq_getD_getElem?, Array.getD_eq_getD_getElem?,
    Array.getElem?_eq_getElem hx]
  exact hentry

/-!
## Linearity
-/

theorem lt_half_iff (x : UInt8) : x < 0x80 ↔ x.toBitVec.msb = false := by
  rw [BitVec.msb_eq_false_iff_two_mul_lt, UInt8.lt_iff_toNat_lt]
  show x.toNat < 128 ↔ 2 * x.toNat < 256
  omega

theorem xor_lt_half_iff (x y : UInt8) : x ^^^ y < 0x80 ↔ (x < 0x80 ↔ y < 0x80) := by
  rw [lt_half_iff, lt_half_iff, lt_half_iff, UInt8.toBitVec_xor, BitVec.msb_xor]
  cases x.toBitVec.msb <;> cases y.toBitVec.msb <;> decide

theorem shiftLeft_xor (x y : UInt8) : (x ^^^ y) <<< 1 = (x <<< 1) ^^^ (y <<< 1) := by
  apply UInt8.toBitVec_inj.mp
  simp [BitVec.shiftLeft_xor_distrib]

/-- The reduction is applied to a sum exactly if it is applied to one of its two
summands. -/
theorem double_xor (x y : UInt8) : double (x ^^^ y) = double x ^^^ double y := by
  unfold double
  rw [shiftLeft_xor]
  generalize x <<< 1 = x'
  generalize y <<< 1 = y'
  by_cases hx : x < 0x80
  · by_cases hy : y < 0x80
    · simp [hx, hy, xor_lt_half_iff]
    · simp only [hx, hy, xor_lt_half_iff, if_true, if_false, iff_false, not_true]
      ac_rfl
  · by_cases hy : y < 0x80
    · simp only [hx, hy, xor_lt_half_iff, if_true, if_false, false_iff, not_true]
      ac_rfl
    · have hswap : (x' ^^^ (0x1B : UInt8)) ^^^ (y' ^^^ 0x1B) =
          (x' ^^^ y') ^^^ (0x1B ^^^ 0x1B) := by
        ac_rfl
      simp only [hx, hy, xor_lt_half_iff, if_true, if_false]
      rw [hswap, UInt8.xor_self, UInt8.xor_zero]

theorem times9_xor (x y : UInt8) : times9 (x ^^^ y) = times9 x ^^^ times9 y := by
  simp only [times9, double_xor]
  ac_rfl

theorem times11_xor (x y : UInt8) : times11 (x ^^^ y) = times11 x ^^^ times11 y := by
  simp only [times11, double_xor]
  ac_rfl

theorem times13_xor (x y : UInt8) : times13 (x ^^^ y) = times13 x ^^^ times13 y := by
  simp only [times13, double_xor]
  ac_rfl

theorem times14_xor (x y : UInt8) : times14 (x ^^^ y) = times14 x ^^^ times14 y := by
  simp only [times14, double_xor]
  ac_rfl

theorem mixColumn_xor (c d : Column) :
    mixColumn (c.xor d) = (mixColumn c).xor (mixColumn d) := by
  simp only [mixColumn, Column.xor, double_xor, Column.mk.injEq]
  refine ⟨?_, ?_, ?_, ?_⟩ <;> ac_rfl

theorem invMixColumn_xor (c d : Column) :
    invMixColumn (c.xor d) = (invMixColumn c).xor (invMixColumn d) := by
  simp only [invMixColumn, Column.xor, times9_xor, times11_xor, times13_xor, times14_xor,
    Column.mk.injEq]
  refine ⟨?_, ?_, ?_, ?_⟩ <;> ac_rfl

/-!
## Columns
-/

theorem eq_xor_single (c : Column) :
    c = ((Column.mk c.b0 0 0 0).xor ⟨0, c.b1, 0, 0⟩).xor
      ((Column.mk 0 0 c.b2 0).xor ⟨0, 0, 0, c.b3⟩) := by
  simp [Column.xor]

def Column.turn (c : Column) : Column :=
  ⟨c.b3, c.b0, c.b1, c.b2⟩

theorem mixColumn_turn (c : Column) : mixColumn c.turn = (mixColumn c).turn := by
  simp only [mixColumn, Column.turn, Column.mk.injEq]
  refine ⟨?_, ?_, ?_, ?_⟩ <;> ac_rfl

theorem invMixColumn_turn (c : Column) : invMixColumn c.turn = (invMixColumn c).turn := by
  simp only [invMixColumn, Column.turn, Column.mk.injEq]
  refine ⟨?_, ?_, ?_, ?_⟩ <;> ac_rfl

theorem invMixColumn_mixColumn_top (x : UInt8) :
    invMixColumn (mixColumn ⟨x, 0, 0, 0⟩) = ⟨x, 0, 0, 0⟩ := by
  have hall : forall n : Fin 256,
      invMixColumn (mixColumn ⟨UInt8.ofNat n.val, 0, 0, 0⟩) = ⟨UInt8.ofNat n.val, 0, 0, 0⟩ := by
    decide +kernel
  have hx := hall ⟨x.toNat, x.toNat_lt⟩
  rwa [UInt8.ofNat_toNat] at hx

theorem invMixColumn_mixColumn_of_turn {c : Column}
    (hc : invMixColumn (mixColumn c) = c) : invMixColumn (mixColumn c.turn) = c.turn := by
  rw [mixColumn_turn, invMixColumn_turn, hc]

@[simp] theorem invMixColumn_mixColumn (c : Column) : invMixColumn (mixColumn c) = c := by
  have h0 := invMixColumn_mixColumn_top c.b0
  have h1 := invMixColumn_mixColumn_of_turn (invMixColumn_mixColumn_top c.b1)
  have h2 := invMixColumn_mixColumn_of_turn
    (invMixColumn_mixColumn_of_turn (invMixColumn_mixColumn_top c.b2))
  have h3 := invMixColumn_mixColumn_of_turn (invMixColumn_mixColumn_of_turn
    (invMixColumn_mixColumn_of_turn (invMixColumn_mixColumn_top c.b3)))
  simp only [Column.turn] at h1 h2 h3
  rw [eq_xor_single c]
  simp only [mixColumn_xor, invMixColumn_xor, h0, h1, h2, h3]

/-!
## Blocks
-/

@[simp] theorem Column.xor_xor (c k : Column) : (c.xor k).xor k = c := by
  simp only [Column.xor, UInt8.xor_assoc, UInt8.xor_self, UInt8.xor_zero]

@[simp] theorem Block.xor_xor (s k : Block) : (s.xor k).xor k = s := by
  simp [Block.xor]

@[simp] theorem Block.map_substitute (s : Block) :
    (s.map substitute).map invSubstitute = s := by
  simp [Block.map, Column.map]

@[simp] theorem Block.mapColumns_mixColumn (s : Block) :
    (s.mapColumns mixColumn).mapColumns invMixColumn = s := by
  simp [Block.mapColumns]

theorem decipherRounds_singleton (k s : Block) :
    decipherRounds [k] s = (invShiftRows (s.xor k)).map invSubstitute := rfl

theorem decipherRounds_cons_cons (k k' : Block) (rest : List Block) (s : Block) :
    decipherRounds (k :: k' :: rest) s =
      (invShiftRows (((decipherRounds (k' :: rest) s).xor k).mapColumns invMixColumn)).map
        invSubstitute := rfl

theorem decipherRounds_encipherRounds (keys : List Block) (s : Block) :
    decipherRounds keys (encipherRounds keys s) = s := by
  induction keys generalizing s with
  | nil => rfl
  | cons k rest ih =>
      cases rest with
      | nil =>
          rw [encipherRounds, decipherRounds_singleton, Block.xor_xor,
            invShiftRows_shiftRows, Block.map_substitute]
      | cons k' rest =>
          rw [encipherRounds, decipherRounds_cons_cons, ih, Block.xor_xor,
            Block.mapColumns_mixColumn, invShiftRows_shiftRows, Block.map_substitute]
          simp

/-- Whatever the round keys are, deciphering with them undoes enciphering. -/
theorem decipher_encipher (keys : List Block) (s : Block) :
    decipher keys (encipher keys s) = s := by
  cases keys with
  | nil => rfl
  | cons k rest =>
      show (decipherRounds rest (encipherRounds rest (s.xor k))).xor k = s
      rw [decipherRounds_encipherRounds, Block.xor_xor]

end Aes128
end PaperPairing
