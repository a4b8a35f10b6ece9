import Mathlib.Algebra.Group.Nat.Defs
import PaperPairing.Group.Modp2048

/-!
# Both sides compute one secret

A public value is written in 257 bytes and projected to 256, and neither
changes the number it spells.  Two pairs whose public values are accepted raise
each other's value to the same power.
-/

namespace PaperPairing

/-!
## Numbers and powers
-/

namespace Bytes

theorem toNat_ofNat (width n : Nat) : toNat (ofNat width n) = n % 256 ^ width := by
  induction width generalizing n with
  | zero => simp [ofNat, Nat.mod_one]
  | succ width ih =>
      have h : n % (256 * 256 ^ width) = n % 256 + 256 * (n / 256 % 256 ^ width) :=
        Nat.mod_mul
      have hpow : 256 ^ (width + 1) = 256 * 256 ^ width := by
        rw [Nat.pow_succ, Nat.mul_comm]
      rw [ofNat, toNat_append_singleton, ih, UInt8.toNat_ofNat', hpow, h]
      simp only [Nat.reducePow]
      omega

theorem toNat_ofNat_of_lt {width n : Nat} (h : n < 256 ^ width) :
    toNat (ofNat width n) = n := by
  rw [toNat_ofNat, Nat.mod_eq_of_lt h]

theorem ofNat_succ_of_lt {width n : Nat} (h : n < 256 ^ width) :
    ofNat (width + 1) n = 0 :: ofNat width n := by
  induction width generalizing n with
  | zero =>
      have hzero : n = 0 := Nat.lt_one_iff.mp h
      rw [hzero]
      rfl
  | succ width ih =>
      have hhigh : n / 256 < 256 ^ width := by
        rw [Nat.pow_succ] at h
        exact Nat.div_lt_of_lt_mul (by rwa [Nat.mul_comm] at h)
      rw [ofNat, ih hhigh, List.cons_append, ofNat]

end Bytes

/-- What square and multiply computes, for an exponent of at most `bits` bits. -/
theorem PowMod.power_eq (base modulus : Nat) {bits exponent : Nat} (h : exponent < 2 ^ bits) :
    power base modulus bits exponent = base ^ exponent % modulus := by
  induction bits generalizing exponent with
  | zero =>
      have hzero : exponent = 0 := by
        simpa using h
      subst hzero
      rfl
  | succ bits ih =>
      have hhalf : exponent / 2 < 2 ^ bits := by
        rw [Nat.pow_succ] at h
        omega
      have hsplit := Nat.div_add_mod exponent 2
      simp only [power, ih hhalf]
      split
      · next hodd =>
          rw [hodd] at hsplit
          conv => rhs; rw [← hsplit, Nat.pow_succ, Nat.mul_comm 2, Nat.pow_mul, Nat.pow_two]
          simp [Nat.mul_mod]
      · next heven =>
          have hzero : exponent % 2 = 0 := by omega
          rw [hzero, Nat.add_zero] at hsplit
          conv => rhs; rw [← hsplit, Nat.mul_comm 2, Nat.pow_mul, Nat.pow_two]
          simp [Nat.mul_mod]

theorem powMod_eq (base exponent modulus : Nat) :
    powMod base exponent modulus = base ^ exponent % modulus :=
  PowMod.power_eq base modulus Nat.lt_log2_self

/-!
## The group
-/

namespace Modp2048

theorem modulus_pos : 0 < modulus := by
  decide

theorem modulus_lt_pow : modulus < 256 ^ width := by
  decide

theorem powMod_lt_pow (base exponent : Nat) : powMod base exponent modulus < 256 ^ width := by
  rw [powMod_eq]
  exact Nat.lt_trans (Nat.mod_lt _ modulus_pos) modulus_lt_pow

theorem validate_generator : validate generator = .ok () := by
  have hrange : ¬ (2 < 2 ∨ modulus - 2 < 2) := by decide
  have hmember : powMod 2 order modulus = 1 := by decide +kernel
  rw [generator, validate, if_neg hrange, if_neg (not_not_intro hmember)]

theorem project_of_length {b : Bytes} (hb : b.length = width) : project b = .ok b := by
  simp [project, hb, Bytes.padLeft]

namespace KeyPair

def publicBytes (k : KeyPair) : Bytes :=
  Bytes.ofNat width (powMod generator k.exponent modulus)

@[simp] theorem length_publicBytes (k : KeyPair) : k.publicBytes.length = width := by
  rw [publicBytes, Bytes.length_ofNat]

theorem publicKey_eq (k : KeyPair) : k.publicKey = 0 :: k.publicBytes := rfl

theorem publicKey_eq_ofNat (k : KeyPair) :
    k.publicKey = Bytes.ofNat 257 (generator ^ k.exponent % modulus) := by
  rw [← powMod_eq]
  exact (Bytes.ofNat_succ_of_lt (powMod_lt_pow _ _)).symm

theorem toNat_publicBytes (k : KeyPair) :
    k.publicBytes.toNat = powMod generator k.exponent modulus := by
  rw [publicBytes, Bytes.toNat_ofNat_of_lt (powMod_lt_pow _ _)]

theorem toNat_publicKey (k : KeyPair) : k.publicKey.toNat = k.publicBytes.toNat := by
  rw [publicKey_eq, Bytes.toNat, List.foldl_cons]
  rfl

theorem toNat_publicKey_eq_pow (k : KeyPair) :
    k.publicKey.toNat = generator ^ k.exponent % modulus := by
  rw [toNat_publicKey, toNat_publicBytes, powMod_eq]

theorem toNat_publicKey_of_exponent_eq_one {k : KeyPair} (h : k.exponent = 1) :
    k.publicKey.toNat = generator := by
  have hlt : generator < modulus := by decide
  rw [toNat_publicKey_eq_pow, h, Nat.pow_one, Nat.mod_eq_of_lt hlt]

theorem project_publicKey (k : KeyPair) : project k.publicKey = .ok k.publicBytes := by
  simp [publicKey_eq, project, Bytes.padLeft]

def common (k l : KeyPair) : Bytes :=
  Bytes.ofNat width (powMod generator (k.exponent * l.exponent) modulus)

theorem common_comm (k l : KeyPair) : common k l = common l k := by
  rw [common, common, Nat.mul_comm]

theorem powMod_powMod (base m n : Nat) :
    powMod (powMod base m modulus) n modulus = powMod base (m * n) modulus := by
  rw [powMod_eq, powMod_eq, powMod_eq, ← Nat.pow_mod, ← Nat.pow_mul]

theorem sharedSecret_of_project {k : KeyPair} {peer b : Bytes} (hb : project peer = .ok b) :
    k.sharedSecret peer = (validate b.toNat).map
      (fun _ => Bytes.ofNat width (powMod b.toNat k.exponent modulus)) := by
  rw [sharedSecret, hb]
  cases h : validate b.toNat with
  | error fault => simp only [bind, Except.bind, h, Except.map]
  | ok u => simp only [bind, Except.bind, h, Except.map, pure, Except.pure]

theorem powMod_publicBytes (k l : KeyPair) :
    Bytes.ofNat width (powMod l.publicBytes.toNat k.exponent modulus) = common k l := by
  rw [toNat_publicBytes, powMod_powMod, Nat.mul_comm, common]

theorem sharedSecret_publicBytes {k l : KeyPair}
    (hl : validate l.publicKey.toNat = .ok ()) :
    k.sharedSecret l.publicBytes = .ok (common k l) := by
  rw [toNat_publicKey] at hl
  rw [sharedSecret_of_project (project_of_length l.length_publicBytes), hl, Except.map,
    powMod_publicBytes]

theorem sharedSecret_publicKey {k l : KeyPair}
    (hl : validate l.publicKey.toNat = .ok ()) :
    k.sharedSecret l.publicKey = .ok (common k l) := by
  rw [toNat_publicKey] at hl
  rw [sharedSecret_of_project l.project_publicKey, hl, Except.map, powMod_publicBytes]

theorem of_sharedSecret_eq_ok {k : KeyPair} {b secret : Bytes} (hb : b.length = width)
    (h : k.sharedSecret b = .ok secret) :
    validate b.toNat = .ok () ∧
      secret = Bytes.ofNat width (powMod b.toNat k.exponent modulus) := by
  rw [sharedSecret_of_project (project_of_length hb)] at h
  cases hvalid : validate b.toNat with
  | error fault =>
      rw [hvalid] at h
      cases h
  | ok u =>
      rw [hvalid] at h
      exact ⟨rfl, (Except.ok.inj h).symm⟩

end KeyPair

end Modp2048
end PaperPairing
