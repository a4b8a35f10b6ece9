import Mathlib.Data.List.Induction
import Mathlib.Tactic.Ring
import PaperPairing.Proofs.Group.Agreement

/-!
# Projection looks at the number only

A byte string is projected to the 256 bytes that spell the same number, however
many zero bytes stand in front of it, and is refused just if that number needs
more bytes.
-/

namespace PaperPairing

/-!
## Numbers of byte strings
-/

namespace Bytes

theorem toNat_append (a b : Bytes) : toNat (a ++ b) = toNat a * 256 ^ b.length + toNat b := by
  induction b using List.reverseRecOn with
  | nil => simp
  | append_singleton b x ih =>
      rw [← List.append_assoc, toNat_append_singleton, toNat_append_singleton, ih,
        List.length_append, List.length_singleton, Nat.pow_succ]
      ring

theorem toNat_lt (b : Bytes) : toNat b < 256 ^ b.length := by
  induction b using List.reverseRecOn with
  | nil => exact Nat.one_pos
  | append_singleton b x ih =>
      have hx := x.toNat_lt
      rw [toNat_append_singleton, List.length_append, List.length_singleton, Nat.pow_succ]
      omega

theorem ofNat_toNat (b : Bytes) : ofNat b.length (toNat b) = b := by
  induction b using List.reverseRecOn with
  | nil => rfl
  | append_singleton b x ih =>
      have hx := x.toNat_lt
      have hdiv : (toNat b * 256 + x.toNat) / 256 = toNat b := by omega
      have hlast : UInt8.ofNat (toNat b * 256 + x.toNat) = x := by
        apply UInt8.toNat_inj.mp
        rw [UInt8.toNat_ofNat']
        omega
      rw [List.length_append, List.length_singleton, toNat_append_singleton, ofNat, hdiv,
        hlast, ih]

theorem toNat_replicate_zero (n : Nat) : toNat (List.replicate n 0) = 0 := by
  induction n with
  | zero => rfl
  | succ n ih =>
      rw [List.replicate_succ', toNat_append_singleton, ih]
      rfl

theorem toNat_padLeft (width : Nat) (b : Bytes) : toNat (padLeft width b) = toNat b := by
  rw [padLeft, toNat_append, toNat_replicate_zero, Nat.zero_mul, Nat.zero_add]

theorem toNat_eq_zero_iff {b : Bytes} : toNat b = 0 ↔ b = List.replicate b.length 0 := by
  constructor
  · intro h
    have hspelled := ofNat_toNat b
    have hzeros := ofNat_toNat (List.replicate b.length 0)
    rw [List.length_replicate, toNat_replicate_zero] at hzeros
    rw [h] at hspelled
    exact hspelled.symm.trans hzeros
  · intro h
    rw [h, toNat_replicate_zero]

end Bytes

/-!
## Projection
-/

namespace Modp2048

/-- What stands in front of the last 256 bytes makes a number too wide unless it is zero. -/
theorem le_toNat_of_front {front back : Bytes} (hfront : front.toNat ≠ 0)
    (hback : back.length = width) : 256 ^ width ≤ (front ++ back).toNat := by
  rw [Bytes.toNat_append, hback]
  calc 256 ^ width ≤ front.toNat * 256 ^ width :=
        Nat.le_mul_of_pos_left _ (Nat.pos_of_ne_zero hfront)
    _ ≤ front.toNat * 256 ^ width + back.toNat := Nat.le_add_right _ _

theorem all_eq_zero_iff {b : Bytes} : b.all (· = 0) = true ↔ b.toNat = 0 := by
  rw [Bytes.toNat_eq_zero_iff, List.eq_replicate_iff, List.all_eq_true]
  simp

/-- Projection looks at the number only. -/
theorem project_eq (peer : Bytes) :
    project peer =
      if peer.toNat < 256 ^ width then .ok (Bytes.ofNat width peer.toNat)
      else .error .tooWide := by
  generalize hfront : peer.take (peer.length - width) = front
  generalize hback : peer.drop (peer.length - width) = back
  have hsplit : front ++ back = peer := by
    rw [← hfront, ← hback, List.take_append_drop]
  have hlength : back.length ≤ width := by
    rw [← hback, List.length_drop]
    omega
  rw [project, hfront, hback]
  by_cases hzero : Bytes.toNat front = 0
  · have hvalue : peer.toNat = Bytes.toNat back := by
      rw [← hsplit, Bytes.toNat_append, hzero, Nat.zero_mul, Nat.zero_add]
    have hfits : peer.toNat < 256 ^ width := by
      rw [hvalue]
      exact Nat.lt_of_lt_of_le (Bytes.toNat_lt back) (Nat.pow_le_pow_right (by decide) hlength)
    have hspelled := Bytes.ofNat_toNat (Bytes.padLeft width back)
    rw [Bytes.length_padLeft hlength, Bytes.toNat_padLeft, ← hvalue] at hspelled
    rw [if_pos (all_eq_zero_iff.mpr hzero), if_pos hfits, hspelled]
  · have hfull : back.length = width := by
      have hne : front ≠ [] := by
        intro h
        rw [h] at hzero
        exact hzero rfl
      have hpos := List.length_pos_iff.mpr hne
      rw [← hfront, List.length_take] at hpos
      rw [← hback, List.length_drop]
      omega
    have hwide : ¬ peer.toNat < 256 ^ width := by
      rw [← hsplit]
      exact Nat.not_lt.mpr (le_toNat_of_front hzero hfull)
    rw [if_neg (mt all_eq_zero_iff.mp hzero), if_neg hwide]

end Modp2048
end PaperPairing
