import PaperPairing.Proofs.Group.Subgroup
import PaperPairing.Registration.Step

/-!
# Keys are exact numbers

A public value is the power of the generator and a shared secret is the power of the
peer's value, both at full width.  Whether a peer's value is accepted, and what is
wrong with it otherwise, is decided by the number it spells.
-/

namespace PaperPairing
namespace Modp2048

open Registration.Stage (peerKey)

/-!
## What is wrong with a value
-/

def InRange (y : Nat) : Prop :=
  2 ≤ y ∧ y ≤ modulus - 2

def InSubgroup (y : Nat) : Prop :=
  y ^ order % modulus = 1

/-- The number of a public value decides which check it fails. -/
inductive IsFault (y : Nat) : Fault -> Prop where
  | tooWide (hwide : 256 ^ width ≤ y) : IsFault y .tooWide
  | outOfRange (hfits : y < 256 ^ width) (hrange : ¬ InRange y) : IsFault y .outOfRange
  | outsideSubgroup (hrange : InRange y) (hmember : ¬ InSubgroup y) :
      IsFault y .outsideSubgroup

theorem pow_width : 256 ^ width = 2 ^ 2048 := by
  have hbits : 2048 = 8 * width := rfl
  have hbyte : 256 = 2 ^ 8 := rfl
  rw [hbits, Nat.pow_mul, ← hbyte]

theorem lt_pow_of_inRange {y : Nat} (h : InRange y) : y < 256 ^ width :=
  Nat.lt_of_le_of_lt (Nat.le_trans h.2 (Nat.sub_le _ _)) modulus_lt_pow

theorem isFault_tooWide_iff {y : Nat} : IsFault y .tooWide ↔ 2 ^ 2048 ≤ y := by
  rw [← pow_width]
  constructor
  · rintro ⟨hwide⟩
    exact hwide
  · exact .tooWide

theorem isFault_outOfRange_iff {y : Nat} :
    IsFault y .outOfRange ↔ y < 2 ^ 2048 ∧ ¬ InRange y := by
  rw [← pow_width]
  constructor
  · rintro ⟨⟩
    next hfits hrange => exact ⟨hfits, hrange⟩
  · rintro ⟨hfits, hrange⟩
    exact .outOfRange hfits hrange

theorem isFault_outsideSubgroup_iff {y : Nat} :
    IsFault y .outsideSubgroup ↔ InRange y ∧ ¬ InSubgroup y := by
  constructor
  · rintro ⟨⟩
    next hrange hmember => exact ⟨hrange, hmember⟩
  · rintro ⟨hrange, hmember⟩
    exact .outsideSubgroup hrange hmember

theorem accepted_or_isFault (y : Nat) :
    (InRange y ∧ InSubgroup y) ∨ exists fault, IsFault y fault := by
  by_cases hrange : InRange y
  · by_cases hmember : InSubgroup y
    · exact .inl ⟨hrange, hmember⟩
    · exact .inr ⟨_, .outsideSubgroup hrange hmember⟩
  · by_cases hfits : y < 256 ^ width
    · exact .inr ⟨_, .outOfRange hfits hrange⟩
    · exact .inr ⟨_, .tooWide (Nat.not_lt.mp hfits)⟩

theorem validate_of_accepted {y : Nat} (hrange : InRange y) (hmember : InSubgroup y) :
    validate y = .ok () :=
  validate_eq_ok_iff.mpr ⟨hrange, hmember.trans one_mod_modulus.symm⟩

theorem validate_of_not_inRange {y : Nat} (h : ¬ InRange y) :
    validate y = .error .outOfRange := by
  have hout : y < 2 ∨ modulus - 2 < y := by
    rw [InRange] at h
    omega
  rw [validate, if_pos hout]

theorem validate_of_not_inSubgroup {y : Nat} (hrange : InRange y) (hmember : ¬ InSubgroup y) :
    validate y = .error .outsideSubgroup := by
  have hin : ¬ (y < 2 ∨ modulus - 2 < y) := by
    rcases hrange with ⟨hlow, hhigh⟩
    omega
  have hpow : powMod y order modulus ≠ 1 := by
    rw [powMod_eq]
    exact hmember
  rw [validate, if_neg hin, if_pos hpow]

/-!
## Shared secrets
-/

theorem eq_ofNat_iff {b : Bytes} {n : Nat} (hn : n < 256 ^ width) :
    b = Bytes.ofNat width n ↔ b.length = width ∧ b.toNat = n := by
  constructor
  · intro h
    rw [h]
    exact ⟨Bytes.length_ofNat _ _, Bytes.toNat_ofNat_of_lt hn⟩
  · rintro ⟨hlength, hvalue⟩
    rw [← hlength, ← hvalue, Bytes.ofNat_toNat]

namespace KeyPair

variable {k : KeyPair} {peer : Bytes}

theorem sharedSecret_of_fits (hfits : peer.toNat < 256 ^ width) :
    k.sharedSecret peer = (validate peer.toNat).map
      (fun _ => Bytes.ofNat width (powMod peer.toNat k.exponent modulus)) := by
  have hproject := project_eq peer
  rw [if_pos hfits] at hproject
  rw [sharedSecret_of_project hproject, Bytes.toNat_ofNat_of_lt hfits]

theorem sharedSecret_of_isFault {fault : Fault} (h : IsFault peer.toNat fault) :
    k.sharedSecret peer = .error fault := by
  cases h with
  | tooWide hwide =>
      have hproject := project_eq peer
      rw [if_neg (Nat.not_lt.mpr hwide)] at hproject
      rw [sharedSecret, hproject]
      rfl
  | outOfRange hfits hrange =>
      rw [sharedSecret_of_fits hfits, validate_of_not_inRange hrange]
      rfl
  | outsideSubgroup hrange hmember =>
      rw [sharedSecret_of_fits (lt_pow_of_inRange hrange),
        validate_of_not_inSubgroup hrange hmember]
      rfl

theorem sharedSecret_of_accepted (hrange : InRange peer.toNat)
    (hmember : InSubgroup peer.toNat) :
    k.sharedSecret peer = .ok (Bytes.ofNat width (peer.toNat ^ k.exponent % modulus)) := by
  rw [sharedSecret_of_fits (lt_pow_of_inRange hrange), validate_of_accepted hrange hmember,
    powMod_eq]
  rfl

theorem sharedSecret_eq_ok_iff {secret : Bytes} :
    k.sharedSecret peer = .ok secret ↔
      (InRange peer.toNat ∧ InSubgroup peer.toNat) ∧
        secret.length = width ∧ secret.toNat = peer.toNat ^ k.exponent % modulus := by
  have hpower : peer.toNat ^ k.exponent % modulus < 256 ^ width := by
    rw [← powMod_eq]
    exact powMod_lt_pow _ _
  rcases accepted_or_isFault peer.toNat with hpeer | ⟨fault, hfault⟩
  · rw [sharedSecret_of_accepted hpeer.1 hpeer.2, Except.ok.injEq, eq_comm,
      eq_ofNat_iff hpower]
    exact ⟨fun h => ⟨hpeer, h⟩, fun h => h.2⟩
  · rw [sharedSecret_of_isFault hfault]
    constructor
    · intro h
      cases h
    · rintro ⟨hpeer, -⟩
      have hok := sharedSecret_of_accepted (k := k) hpeer.1 hpeer.2
      rw [sharedSecret_of_isFault hfault] at hok
      cases hok

theorem sharedSecret_eq_error_iff {fault : Fault} :
    k.sharedSecret peer = .error fault ↔ IsFault peer.toNat fault := by
  constructor
  · intro h
    rcases accepted_or_isFault peer.toNat with hpeer | ⟨fault', hfault⟩
    · rw [sharedSecret_of_accepted hpeer.1 hpeer.2] at h
      cases h
    · rw [sharedSecret_of_isFault hfault] at h
      cases h
      exact hfault
  · exact sharedSecret_of_isFault

theorem sharedSecret_congr {k' : KeyPair} {peer' : Bytes} (hk : k'.exponent = k.exponent)
    (hpeer : peer'.toNat = peer.toNat) : k'.sharedSecret peer' = k.sharedSecret peer := by
  cases h : k.sharedSecret peer with
  | ok secret =>
      rw [sharedSecret_eq_ok_iff, hk, hpeer]
      exact sharedSecret_eq_ok_iff.mp h
  | error fault =>
      rw [sharedSecret_eq_error_iff, hpeer]
      exact sharedSecret_eq_error_iff.mp h

end KeyPair

/-!
## Numbers in, numbers out
-/

theorem peerKey_eq_ok_iff {α : Type} {r : Except Fault α} {a : α} :
    peerKey r = .ok a ↔ r = .ok a := by
  cases r <;> simp [peerKey]

theorem Fault.message_injective {fault fault' : Fault} (h : fault.message = fault'.message) :
    fault = fault' := by
  revert h
  cases fault <;> cases fault' <;> decide

theorem peerKey_eq_error_iff {α : Type} {r : Except Fault α} {fault : Fault} :
    peerKey r = .error (.invalidPeerKey fault.message) ↔ r = .error fault := by
  cases r with
  | ok a => simp [peerKey]
  | error fault' =>
      simp only [peerKey, Except.error.injEq, Error.invalidPeerKey.injEq]
      exact ⟨Fault.message_injective, congrArg Fault.message⟩

/-- The public value has 257 bytes, the first of them zero, and spells the power of the
generator.  A secret comes of just the values in range and in the subgroup, has 256 bytes
and spells the power of the value.  Each other value is refused for the first check that
its number fails, and strings that spell the same numbers give the same results. -/
theorem keys_are_exact (a peer : Bytes) :
    ((KeyPair.ofBytes a).publicKey.length = 257 ∧
      (KeyPair.ofBytes a).publicKey.head? = some 0 ∧
      (KeyPair.ofBytes a).publicKey.toNat = 2 ^ a.toNat % modulus) ∧
    ((exists secret, peerKey ((KeyPair.ofBytes a).sharedSecret peer) = .ok secret) ↔
      (2 ≤ peer.toNat ∧ peer.toNat ≤ modulus - 2) ∧ peer.toNat ^ order % modulus = 1) ∧
    (forall secret, peerKey ((KeyPair.ofBytes a).sharedSecret peer) = .ok secret ->
      secret.length = 256 ∧ secret.toNat = peer.toNat ^ a.toNat % modulus) ∧
    (peerKey ((KeyPair.ofBytes a).sharedSecret peer) =
        .error (.invalidPeerKey "value wider than 2048 bits") ↔ 2 ^ 2048 ≤ peer.toNat) ∧
    (peerKey ((KeyPair.ofBytes a).sharedSecret peer) =
        .error (.invalidPeerKey "out of range [2, p-2]") ↔
      peer.toNat < 2 ^ 2048 ∧ ¬ (2 ≤ peer.toNat ∧ peer.toNat ≤ modulus - 2)) ∧
    (peerKey ((KeyPair.ofBytes a).sharedSecret peer) =
        .error (.invalidPeerKey "not in prime-order subgroup") ↔
      (2 ≤ peer.toNat ∧ peer.toNat ≤ modulus - 2) ∧ peer.toNat ^ order % modulus ≠ 1) ∧
    (forall a' peer' : Bytes, a'.toNat = a.toNat -> peer'.toNat = peer.toNat ->
      (KeyPair.ofBytes a').publicKey = (KeyPair.ofBytes a).publicKey ∧
      (KeyPair.ofBytes a').sharedSecret peer' = (KeyPair.ofBytes a).sharedSecret peer) := by
  simp only [peerKey_eq_ok_iff, KeyPair.sharedSecret_eq_ok_iff]
  refine ⟨⟨KeyPair.length_publicKey _, rfl, KeyPair.toNat_publicKey_eq_pow _⟩,
    ?_, fun secret h => h.2, ?_, ?_, ?_, ?_⟩
  · constructor
    · rintro ⟨secret, haccepted, -⟩
      exact haccepted
    · intro haccepted
      exact ⟨_, KeyPair.sharedSecret_eq_ok_iff.mp
        (KeyPair.sharedSecret_of_accepted (k := KeyPair.ofBytes a) haccepted.1 haccepted.2)⟩
  · exact (peerKey_eq_error_iff.trans KeyPair.sharedSecret_eq_error_iff).trans isFault_tooWide_iff
  · exact (peerKey_eq_error_iff.trans KeyPair.sharedSecret_eq_error_iff).trans
      isFault_outOfRange_iff
  · exact (peerKey_eq_error_iff.trans KeyPair.sharedSecret_eq_error_iff).trans
      isFault_outsideSubgroup_iff
  · intro a' peer' ha hpeer
    have hexponent : (KeyPair.ofBytes a').exponent = (KeyPair.ofBytes a).exponent := ha
    refine ⟨?_, KeyPair.sharedSecret_congr hexponent hpeer⟩
    rw [KeyPair.publicKey, KeyPair.publicKey, hexponent]

theorem keys_are_exact_at_generator :
    (exists secret, peerKey ((KeyPair.ofBytes [1]).sharedSecret [2]) = .ok secret ∧
      secret.length = 256 ∧ secret.toNat = 2 ^ Bytes.toNat [1] % modulus) ∧
    Bytes.toNat [0, 1] = Bytes.toNat [1] ∧ Bytes.toNat [0, 2] = Bytes.toNat [2] ∧
    (KeyPair.ofBytes [0, 1]).sharedSecret [0, 2] = (KeyPair.ofBytes [1]).sharedSecret [2] ∧
    peerKey ((KeyPair.ofBytes [1]).sharedSecret (1 :: List.replicate 256 0)) =
      .error (.invalidPeerKey "value wider than 2048 bits") := by
  have hvalid : (2 ≤ Bytes.toNat [2] ∧ Bytes.toNat [2] ≤ modulus - 2) ∧
      Bytes.toNat [2] ^ order % modulus = 1 := by
    rw [← one_mod_modulus]
    exact validate_eq_ok_iff.mp validate_generator
  have hwide : 2 ^ 2048 ≤ Bytes.toNat (1 :: List.replicate 256 0) := by
    rw [← pow_width]
    have hzeros : (List.replicate 256 (0 : UInt8)).length = width := List.length_replicate ..
    have hone : Bytes.toNat [1] ≠ 0 := by decide
    exact le_toNat_of_front hone hzeros
  rcases keys_are_exact [1] [2] with ⟨-, haccepted, hsecret, -, -, -, hcongr⟩
  rcases haccepted.mpr hvalid with ⟨secret, hok⟩
  exact ⟨⟨secret, hok, hsecret secret hok⟩, rfl, rfl, (hcongr [0, 1] [0, 2] rfl rfl).2,
    (keys_are_exact [1] _).2.2.2.1.mpr hwide⟩

end Modp2048
end PaperPairing
