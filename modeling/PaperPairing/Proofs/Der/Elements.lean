import PaperPairing.Der.Basic
import PaperPairing.Proofs.Group.Projection

/-!
# Elements read back

What is written as an element is read as its tag and content, with the rest of the input
behind it, as long as the content is no longer than a document may be.  Integers and rows
of integers follow.
-/

namespace PaperPairing

/-!
## Shortest spellings
-/

namespace Bytes

theorem toNat_minimal (n : Nat) : toNat (minimal n) = n := by
  have hlog : n < 2 ^ (n.log2 + 1) := Nat.lt_log2_self
  have hwidth : n.log2 + 1 ≤ 8 * (n.log2 / 8 + 1) := by omega
  have hpow : (256 : Nat) ^ (n.log2 / 8 + 1) = 2 ^ (8 * (n.log2 / 8 + 1)) := by
    rw [Nat.pow_mul]
  rw [minimal, toNat_ofNat_of_lt]
  rw [hpow]
  exact Nat.lt_of_lt_of_le hlog (Nat.pow_le_pow_right (by decide) hwidth)

theorem length_minimal (n : Nat) : (minimal n).length = n.log2 / 8 + 1 := by
  rw [minimal, length_ofNat]

theorem toNat_zero_cons (b : Bytes) : toNat (0 :: b) = toNat b := by
  rw [← List.singleton_append, toNat_append]
  simp [toNat]

end Bytes

namespace Der

/-!
## Lengths
-/

theorem length_minimal_le {n : Nat} (h : n ≤ maxLength) : (Bytes.minimal n).length ≤ 4 := by
  have hlog : n.log2 < 28 := by
    by_cases hzero : n = 0
    · rw [hzero]
      decide
    · rw [Nat.log2_lt hzero]
      exact Nat.lt_of_le_of_lt h (by decide)
  rw [Bytes.length_minimal]
  omega

theorem readLength?_encodeLength {n : Nat} (h : n ≤ maxLength) (rest : Bytes) :
    readLength? (encodeLength n ++ rest) = some (n, rest) := by
  by_cases hshort : n < 128
  · have hvalue : (UInt8.ofNat n).toNat = n := by
      rw [UInt8.toNat_ofNat']
      omega
    have hlt : UInt8.ofNat n < 0x80 := by
      rw [UInt8.lt_iff_toNat_lt, hvalue]
      exact hshort
    rw [encodeLength, if_pos hshort, List.singleton_append, readLength?, if_pos hlt, hvalue]
  · have hwidth := length_minimal_le h
    have hvalue : (UInt8.ofNat (128 + (Bytes.minimal n).length)).toNat =
        128 + (Bytes.minimal n).length := by
      rw [UInt8.toNat_ofNat']
      omega
    have hlong : ¬ UInt8.ofNat (128 + (Bytes.minimal n).length) < 0x80 := by
      rw [UInt8.lt_iff_toNat_lt, hvalue]
      simp
    have hencoded : encodeLength n =
        UInt8.ofNat (128 + (Bytes.minimal n).length) :: Bytes.minimal n := by
      rw [encodeLength, if_neg hshort]
    rw [hencoded, List.cons_append, readLength?, if_neg hlong, hvalue, Nat.add_sub_cancel_left,
      List.take_left, List.drop_left]
    simp only [Bytes.toNat_minimal, if_pos hencoded]

/-!
## Elements
-/

theorem length_le_length_element (tag : UInt8) (content : Bytes) :
    content.length ≤ (element tag content).length := by
  rw [element, List.length_append]
  omega

section

variable {tag : UInt8} {content : Bytes} (htag : isTag tag = true)
  (hlength : content.length ≤ maxLength)

include htag hlength

theorem readElement?_element (rest : Bytes) :
    readElement? (element tag content ++ rest) = some (tag, content, rest) := by
  rw [element, List.append_assoc, List.cons_append, readElement?,
    readLength?_encodeLength hlength]
  simp [htag]

theorem expect?_element (rest : Bytes) :
    expect? tag (element tag content ++ rest) = some (content, rest) := by
  rw [expect?, readElement?_element htag hlength]
  exact if_pos rfl

theorem only?_element : only? tag (element tag content) = some content := by
  have hread := expect?_element htag hlength []
  rw [List.append_nil] at hread
  rw [only?, hread]

end

/-!
## Integers
-/

theorem toNat_unsignedContent (n : Nat) : Bytes.toNat (unsignedContent n) = n := by
  have hminimal := Bytes.toNat_minimal n
  rw [unsignedContent]
  split
  next hnil =>
    rw [hnil] at hminimal
    exact hminimal
  next x rest hcons =>
    rw [hcons] at hminimal
    split
    · exact hminimal
    · rw [Bytes.toNat_zero_cons]
      exact hminimal

theorem readInteger?_integer {n : Nat} (h : (integer n).length ≤ maxLength) (rest : Bytes) :
    readInteger? (integer n ++ rest) = some (n, rest) := by
  have hcontent := Nat.le_trans (length_le_length_element integerTag (unsignedContent n)) h
  rw [readInteger?, integer, expect?_element (by decide) hcontent, Option.bind_eq_bind,
    Option.bind_some]
  simp only [toNat_unsignedContent, if_true]

theorem readIntegers?_integers {ns : List Nat} (h : (ns.flatMap integer).length ≤ maxLength) :
    readIntegers? ns.length (ns.flatMap integer) = some ns := by
  induction ns with
  | nil => rfl
  | cons n ns ih =>
      rw [List.flatMap_cons, List.length_append] at h
      rw [List.length_cons, List.flatMap_cons, readIntegers?, readInteger?_integer (by omega),
        Option.bind_eq_bind, Option.bind_some]
      simp only [ih (by omega)]
      rfl

end Der
end PaperPairing
