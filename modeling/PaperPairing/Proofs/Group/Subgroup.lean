import Mathlib.Algebra.Ring.Parity
import Mathlib.Data.ZMod.Basic
import Mathlib.GroupTheory.OrderOfElement
import PaperPairing.Proofs.Group.Projection

/-!
# The subgroup of accepted values

A value is accepted if its power to the order of the subgroup is one and it is not
one itself.  A power whose exponent has no factor in common with the order stays in
the subgroup and is not one either, so that neither a public value nor a shared
secret is degenerate.
-/

namespace PaperPairing
namespace Modp2048

/-!
## Powers that are one
-/

section

variable {p q y a : Nat}

/-- Two powers that are one, with exponents that have no factor in common, are powers
of one. -/
theorem mod_eq_one_of_coprime (hq : y ^ q % p = 1 % p) (ha : y ^ a % p = 1 % p)
    (hcoprime : Nat.Coprime q a) : y % p = 1 % p := by
  have hcast (n : Nat) (h : y ^ n % p = 1 % p) : (y : ZMod p) ^ n = 1 := by
    exact_mod_cast (ZMod.natCast_eq_natCast_iff _ _ p).mpr h
  have hgcd : (y : ZMod p) ^ Nat.gcd q a = 1 := pow_gcd_eq_one.mpr ⟨hcast q hq, hcast a ha⟩
  rw [hcoprime, pow_one] at hgcd
  exact (ZMod.natCast_eq_natCast_iff y 1 p).mp (by exact_mod_cast hgcd)

theorem pow_sub_one_mod_ne_one (hp : 2 < p) (hq : Odd q) : (p - 1) ^ q % p ≠ 1 % p := by
  intro h
  have hneg : ((p - 1 : Nat) : ZMod p) = -1 := by
    rw [Nat.cast_sub (by omega), ZMod.natCast_self, Nat.cast_one, zero_sub]
  have hpow : ((p - 1 : Nat) : ZMod p) ^ q = 1 := by
    exact_mod_cast (ZMod.natCast_eq_natCast_iff _ _ p).mpr h
  rw [hneg, hq.neg_one_pow] at hpow
  have : Fact (2 < p) := ⟨hp⟩
  exact ZMod.neg_one_ne_one hpow

/-- Zero, one and minus one apart, a value with an odd power that is one is in range. -/
theorem range_of_pow_mod_eq_one (hp : 2 < p) (hq : Odd q) (hlt : y < p)
    (hpow : y ^ q % p = 1 % p) (hone : y ≠ 1) : 2 ≤ y ∧ y ≤ p - 2 := by
  have hzero : y ≠ 0 := by
    intro h
    rw [h, zero_pow hq.pos.ne', Nat.zero_mod, Nat.mod_eq_of_lt (by omega)] at hpow
    cases hpow
  have hlast : y ≠ p - 1 := by
    intro h
    rw [h] at hpow
    exact pow_sub_one_mod_ne_one hp hq hpow
  omega

theorem pow_mul_mod_eq_one (hq : y ^ q % p = 1 % p) (a : Nat) : y ^ (q * a) % p = 1 % p := by
  rw [Nat.pow_mul, Nat.pow_mod, hq, ← Nat.pow_mod, Nat.one_pow]

theorem pow_pow_mod_eq_one (hq : y ^ q % p = 1 % p) : (y ^ a % p) ^ q % p = 1 % p := by
  rw [← Nat.pow_mod, ← Nat.pow_mul, Nat.mul_comm, pow_mul_mod_eq_one hq]

end

/-!
## Accepted values
-/

theorem odd_order : Odd order := by
  rw [Nat.odd_iff]
  decide

theorem pow_lt_order : 256 ^ 32 < order := by
  decide

theorem two_lt_modulus : 2 < modulus := by
  decide

theorem one_mod_modulus : 1 % modulus = 1 :=
  Nat.mod_eq_of_lt (Nat.lt_trans Nat.one_lt_two two_lt_modulus)

theorem validate_eq_ok_iff {y : Nat} :
    validate y = .ok () ↔ (2 ≤ y ∧ y ≤ modulus - 2) ∧ y ^ order % modulus = 1 % modulus := by
  rw [validate, powMod_eq, one_mod_modulus]
  by_cases hrange : y < 2 ∨ modulus - 2 < y
  · rw [if_pos hrange]
    constructor
    · intro h
      cases h
    · rintro ⟨⟨hlow, hhigh⟩, -⟩
      omega
  · have hinner : 2 ≤ y ∧ y ≤ modulus - 2 := by omega
    rw [if_neg hrange]
    by_cases hpow : y ^ order % modulus = 1
    · rw [if_neg (not_not_intro hpow)]
      exact ⟨fun _ => ⟨hinner, hpow⟩, fun _ => rfl⟩
    · rw [if_pos hpow]
      constructor
      · intro h
        cases h
      · intro h
        exact (hpow h.2).elim

theorem validate_one : validate 1 = .error .outOfRange :=
  if_pos (.inl (by decide))

theorem validate_pow {y a : Nat} (hy : validate y = .ok ()) (ha : Nat.Coprime order a) :
    validate (y ^ a % modulus) = .ok () := by
  rcases validate_eq_ok_iff.mp hy with ⟨⟨hlow, hhigh⟩, horder⟩
  have hpow := pow_pow_mod_eq_one (a := a) horder
  refine validate_eq_ok_iff.mpr ⟨?_, hpow⟩
  refine range_of_pow_mod_eq_one two_lt_modulus odd_order (Nat.mod_lt _ modulus_pos) hpow ?_
  intro hone
  have htwo := two_lt_modulus
  have hyone := mod_eq_one_of_coprime horder (hone.trans one_mod_modulus.symm) ha
  rw [Nat.mod_eq_of_lt (by omega), one_mod_modulus] at hyone
  omega

/-!
## Public values and shared secrets
-/

namespace KeyPair

theorem validate_publicKey_of_dvd {k : KeyPair} (h : order ∣ k.exponent) :
    validate k.publicKey.toNat = .error .outOfRange := by
  rcases h with ⟨n, hn⟩
  rcases validate_eq_ok_iff.mp validate_generator with ⟨-, horder⟩
  rw [toNat_publicKey_eq_pow, hn, pow_mul_mod_eq_one horder, one_mod_modulus, validate_one]

theorem validate_publicKey_of_coprime {k : KeyPair} (h : Nat.Coprime order k.exponent) :
    validate k.publicKey.toNat = .ok () := by
  rw [toNat_publicKey_eq_pow]
  exact validate_pow validate_generator h

theorem sharedSecret_of_validate {k : KeyPair} {peer : Bytes}
    (h : validate peer.toNat = .ok ()) :
    exists secret, k.sharedSecret peer = .ok secret ∧
      secret.toNat = peer.toNat ^ k.exponent % modulus := by
  rcases validate_eq_ok_iff.mp h with ⟨⟨-, hhigh⟩, -⟩
  have hfits : peer.toNat < 256 ^ width :=
    Nat.lt_of_le_of_lt (Nat.le_trans hhigh (Nat.sub_le _ _)) modulus_lt_pow
  have hproject := project_eq peer
  rw [if_pos hfits] at hproject
  refine ⟨Bytes.ofNat width (powMod peer.toNat k.exponent modulus), ?_, ?_⟩
  · rw [sharedSecret_of_project hproject, Bytes.toNat_ofNat_of_lt hfits, h, Except.map]
  · rw [Bytes.toNat_ofNat_of_lt (powMod_lt_pow _ _), powMod_eq]

theorem sharedSecret_publicKey_eq_ok {k l : KeyPair} {secret : Bytes}
    (h : k.sharedSecret l.publicKey = .ok secret) : secret = common k l := by
  rw [sharedSecret_of_project l.project_publicKey, powMod_publicBytes] at h
  cases hvalid : validate l.publicBytes.toNat with
  | error fault =>
      rw [hvalid] at h
      cases h
  | ok u =>
      rw [hvalid] at h
      exact (Except.ok.inj h).symm

theorem sharedSecret_unique {k l : KeyPair} {secret secret' : Bytes}
    (h : k.sharedSecret l.publicKey = .ok secret)
    (h' : l.sharedSecret k.publicKey = .ok secret') : secret = secret' := by
  rw [sharedSecret_publicKey_eq_ok h, sharedSecret_publicKey_eq_ok h', common_comm]

end KeyPair

/-!
## No degenerate keys
-/

/-- The order and an exponent have a factor in common, other than one and the order
itself.  A prime order has none. -/
def SharesFactor (exponent : Nat) : Prop :=
  exists d, d ∣ order ∧ d ∣ exponent ∧ 1 < d ∧ d < order

theorem not_sharesFactor_of_prime (horder : Nat.Prime order) (exponent : Nat) :
    ¬ SharesFactor exponent := by
  rintro ⟨d, hd, -, hone, hlt⟩
  rcases horder.eq_one_or_self_of_dvd d hd with h | h <;> omega

theorem coprime_of_not_sharesFactor {exponent : Nat} (hdvd : ¬ order ∣ exponent)
    (hnone : ¬ SharesFactor exponent) : Nat.Coprime order exponent := by
  have hpos : 0 < order := odd_order.pos
  have hgcd : 0 < Nat.gcd order exponent := Nat.gcd_pos_of_pos_left _ hpos
  -- Were they not prime to each other, their greatest common divisor would be the factor.
  by_contra hcoprime
  have hone : Nat.gcd order exponent ≠ 1 := hcoprime
  refine hnone ⟨Nat.gcd order exponent, Nat.gcd_dvd_left _ _, Nat.gcd_dvd_right _ _,
    by omega, ?_⟩
  refine Nat.lt_of_le_of_ne (Nat.gcd_le_left _ hpos) ?_
  intro hall
  exact hdvd (hall ▸ Nat.gcd_dvd_right order exponent)

theorem not_order_dvd {a : Bytes} (hlength : a.length = 32)
    (hne : a ≠ List.replicate 32 0) : ¬ order ∣ a.toNat := by
  intro hdvd
  have hlt : a.toNat < order := by
    have hbound := Bytes.toNat_lt a
    rw [hlength] at hbound
    exact Nat.lt_trans hbound pow_lt_order
  have hzero := Nat.eq_zero_of_dvd_of_lt hdvd hlt
  rw [Bytes.toNat_eq_zero_iff, hlength] at hzero
  exact hne hzero

theorem ne_of_validate {y : Nat} (h : validate y = .ok ()) :
    y ≠ 0 ∧ y ≠ 1 ∧ y ≠ modulus - 1 := by
  rcases validate_eq_ok_iff.mp h with ⟨⟨hlow, hhigh⟩, -⟩
  have htwo := two_lt_modulus
  omega

theorem validate_publicKey_iff {k : KeyPair} (hk : ¬ SharesFactor k.exponent) :
    validate k.publicKey.toNat = .ok () ↔ ¬ order ∣ k.exponent := by
  constructor
  · intro h hdvd
    rw [KeyPair.validate_publicKey_of_dvd hdvd] at h
    cases h
  · intro hdvd
    exact KeyPair.validate_publicKey_of_coprime (coprime_of_not_sharesFactor hdvd hk)

/-- Both sides come to one secret.  An exponent that is not exempt gives an accepted
public value, and accepted secrets with accepted values, unless the order divides it. -/
structure NeverDegenerate (Exempt : Nat -> Prop) : Prop where
  same_secret (a b : Bytes) {secret secret' : Bytes}
    (h : (KeyPair.ofBytes a).sharedSecret (KeyPair.ofBytes b).publicKey = .ok secret)
    (h' : (KeyPair.ofBytes b).sharedSecret (KeyPair.ofBytes a).publicKey = .ok secret') :
    secret = secret'
  accepted_iff {a : Bytes} (ha : ¬ Exempt a.toNat) :
    validate (KeyPair.ofBytes a).publicKey.toNat = .ok () ↔ ¬ order ∣ a.toNat
  accepted_of_draw {a : Bytes} (ha : ¬ Exempt a.toNat) (hlength : a.length = 32)
    (hne : a ≠ List.replicate 32 0) :
    validate (KeyPair.ofBytes a).publicKey.toNat = .ok ()
  zero_refused :
    validate (KeyPair.ofBytes (List.replicate 32 0)).publicKey.toNat = .error .outOfRange
  secret_accepted {a peer : Bytes} (ha : ¬ Exempt a.toNat)
    (hpeer : validate peer.toNat = .ok ()) (hdvd : ¬ order ∣ a.toNat) :
    exists secret, (KeyPair.ofBytes a).sharedSecret peer = .ok secret ∧
      validate secret.toNat = .ok () ∧
      secret.toNat ≠ 0 ∧ secret.toNat ≠ 1 ∧ secret.toNat ≠ modulus - 1

theorem neverDegenerate_of_sharesFactor {Exempt : Nat -> Prop}
    (h : forall exponent, SharesFactor exponent -> Exempt exponent) :
    NeverDegenerate Exempt where
  same_secret _ _ _ _ hab hba := KeyPair.sharedSecret_unique hab hba
  accepted_iff ha := validate_publicKey_iff (mt (h _) ha)
  accepted_of_draw ha hlength hne :=
    (validate_publicKey_iff (mt (h _) ha)).mpr (not_order_dvd hlength hne)
  zero_refused := by
    apply KeyPair.validate_publicKey_of_dvd
    rw [KeyPair.ofBytes, Bytes.toNat_replicate_zero]
    exact Nat.dvd_zero order
  secret_accepted := by
    intro a peer ha hpeer hdvd
    rcases KeyPair.sharedSecret_of_validate (k := .ofBytes a) hpeer with
      ⟨secret, hsecret, hvalue⟩
    have hvalid : validate secret.toNat = .ok () := by
      rw [hvalue]
      exact validate_pow hpeer (coprime_of_not_sharesFactor hdvd (mt (h _) ha))
    exact ⟨secret, hsecret, hvalid, ne_of_validate hvalid⟩

/-- Only an exponent that shares a factor with the order can be exempt, so that none is
if the order is prime. -/
theorem agreement_is_never_degenerate :
    NeverDegenerate SharesFactor ∧ (Nat.Prime order -> NeverDegenerate (fun _ => False)) :=
  ⟨neverDegenerate_of_sharesFactor (fun _ => id),
    fun horder => neverDegenerate_of_sharesFactor (not_sharesFactor_of_prime horder)⟩

end Modp2048
end PaperPairing
