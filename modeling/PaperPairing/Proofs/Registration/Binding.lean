import PaperPairing.Proofs.Registration.PinProof
import PaperPairing.Proofs.Transcript

/-!
# The commitment binds the device

Before the client has shown anything that depends on the PIN, the device has
committed itself to a PIN and a secret.  Two ways to go on from there that both
lead to an accepted certificate agree on the PIN and on the secret, or they
exhibit two messages with one tag.
-/

namespace PaperPairing
namespace Registration

/-!
## Secrets that open a commitment
-/

/-- What a certificate response begins with, under the keys of an exchange: as
many bytes of its payload as a device secret has. -/
def sentSecret? (n : Nat) (x : Exchange) (body : Bytes) : Option Bytes := do
  let response ← (Message.ofBody body : Except Error CaResponse).toOption
  let payload ← Wrap.unwrap? x.keys response.wrappedCertificate
  return payload.take n

def callsForCertificate (pin : String) (body : Bytes) (t u : Tape) : List Call :=
  [⟨.requestCertificate pin, t⟩, ⟨.acceptCertificate body, u⟩]

/-- An accepted response opens the commitment with the PIN that was typed. -/
theorem opens_of_caVerified {r : Registration} {x : Exchange} {c : Commitment} {pin : String}
    {body : Bytes} {t u : Tape} (hr : r.stage = .keyExchanged x c)
    (h : (after r (callsForCertificate pin body t u)).state = .caVerified) :
    exists secret, sentSecret? r.secretLength.toNat x body = some secret ∧
      secret.length = r.secretLength.toNat ∧
      c.eHash = Hmac.tag x.keys.authKey.bytes (x.committed secret pin) := by
  rcases advances_of_state rfl h with ⟨a, next, hrequest, h⟩
  rw [hr] at hrequest
  cases hrequest
  rcases advances_of_state rfl h with ⟨a, last, haccept, -⟩
  rcases haccept with _ | _ | _ | ⟨hread, -, -, hopen, hlong, hpin, -⟩
  rw [expectedEHash_proofOf] at hpin
  refine ⟨_, ?_, ?_, hpin⟩
  · rw [sentSecret?, Device.bind_toOption hread, hopen]
    rfl
  · rw [List.length_take, Nat.min_eq_left (Nat.le_of_lt hlong)]

/-!
## Two ways to open one commitment
-/

section

variable {x : Exchange} {secret1 secret2 : Bytes} {pin1 pin2 : String}

/-- The message of a commitment splits in one way, since secrets are of one length
and so are keys made from PINs. -/
theorem eq_of_committed_eq (hlength : secret1.length = secret2.length)
    (h : x.committed secret1 pin1 = x.committed secret2 pin2) :
    secret1 = secret2 ∧ Transcript.psk x.keys.authKey.bytes pin1 =
      Transcript.psk x.keys.authKey.bytes pin2 := by
  have hfront := List.append_cancel_right (List.append_cancel_right h)
  rcases List.append_inj hfront hlength with ⟨hsecret, hpsk⟩
  exact ⟨hsecret, Fixed.eq_of_bytes_eq hpsk⟩

theorem eq_or_collide_of_psk_eq {key : Bytes}
    (h : Transcript.psk key pin1 = Transcript.psk key pin2) :
    pin1 = pin2 ∨ Hmac.Collide key (Utf8.encode pin1) (Utf8.encode pin2) := by
  have hmessage : forall pin, Transcript.psk key pin = Hmac.tag key (Utf8.encode pin) := by
    intro pin
    rw [Transcript.psk, Transcript.tag, List.flatten_singleton]
  rw [hmessage, hmessage] at h
  rcases Hmac.eq_or_collide h with heq | hcollide
  · exact .inl (Utf8.eq_of_encode_eq heq)
  · exact .inr hcollide

theorem eq_or_collide_of_committed (hlength : secret1.length = secret2.length)
    (h : Hmac.tag x.keys.authKey.bytes (x.committed secret1 pin1) =
      Hmac.tag x.keys.authKey.bytes (x.committed secret2 pin2)) :
    (pin1 = pin2 ∧ secret1 = secret2) ∨
      Hmac.Collide x.keys.authKey.bytes (x.committed secret1 pin1)
        (x.committed secret2 pin2) ∨
      Hmac.Collide x.keys.authKey.bytes (Utf8.encode pin1) (Utf8.encode pin2) := by
  rcases Hmac.eq_or_collide h with hmessage | hcollide
  · rcases eq_of_committed_eq hlength hmessage with ⟨hsecret, hpsk⟩
    rcases eq_or_collide_of_psk_eq hpsk with hpin | hcollide
    · exact .inl ⟨hpin, hsecret⟩
    · exact .inr (.inr hcollide)
  · exact .inr (.inl hcollide)

end

theorem stage_of_keyExchanged {s : Stage} (hstate : s.state = .keyExchanged)
    (hfresh : s.proof? = none) : exists x c, s = .keyExchanged x c := by
  cases s with
  | keyExchanged x c => exact ⟨x, c, rfl⟩
  | caRequested x c p => cases hfresh
  | _ => cases hstate

/-- Whatever led to the commitment, two continuations that both end with an accepted
certificate have sent the same secret under the same PIN, or two messages of the
commitment collide, or the PINs themselves do. -/
theorem commitment_binds_pin_and_secret (config : Config) (calls : List Call)
    (hstate : (after (new config) calls).state = .keyExchanged)
    (hfresh : (after (new config) calls).stage.proof? = none)
    (pin1 pin2 : String) (body1 body2 : Bytes) (t1 t2 u1 u2 : Tape)
    (h1 : (after (new config) (calls ++ callsForCertificate pin1 body1 t1 u1)).state =
      .caVerified)
    (h2 : (after (new config) (calls ++ callsForCertificate pin2 body2 t2 u2)).state =
      .caVerified) :
    exists x secret1 secret2,
      (after (new config) calls).stage.exchange? = some x ∧
      sentSecret? config.secretLength.toNat x body1 = some secret1 ∧
      sentSecret? config.secretLength.toNat x body2 = some secret2 ∧
      secret1.length = config.secretLength.toNat ∧
      secret2.length = config.secretLength.toNat ∧
      ((pin1 = pin2 ∧ secret1 = secret2) ∨
        Hmac.Collide x.keys.authKey.bytes (x.committed secret1 pin1)
          (x.committed secret2 pin2) ∨
        Hmac.Collide x.keys.authKey.bytes (Utf8.encode pin1) (Utf8.encode pin2)) := by
  rcases stage_of_keyExchanged hstate hfresh with ⟨x, c, hr⟩
  rw [after_append] at h1 h2
  rcases opens_of_caVerified hr h1 with ⟨secret1, hsent1, hlength1, hopen1⟩
  rcases opens_of_caVerified hr h2 with ⟨secret2, hsent2, hlength2, hopen2⟩
  rw [secretLength_after] at hsent1 hsent2 hlength1 hlength2
  refine ⟨x, secret1, secret2, ?_, hsent1, hsent2, hlength1, hlength2, ?_⟩
  · rw [hr]
    rfl
  · exact eq_or_collide_of_committed (hlength1.trans hlength2.symm)
      (hopen1.symm.trans hopen2)

/-!
## Two honest continuations
-/

def sampleCallsToCommitment : List Call :=
  callsToCommitment sampleDevice (fun _ => sampleTape)

def sampleTapes (third : Tape) : Fin 7 -> Tape
  | 2 => third
  | _ => sampleTape

def sampleAnswer (third : Tape) (iv : Fixed 16) : Bytes :=
  Message.toBody (sampleDevice.caResponse (honestExchange sampleDevice (sampleTapes third))
    (honestProof sampleDevice (sampleTapes third)) iv)

theorem sample_continues (third : Tape) (iv : Fixed 16) :
    (after (new Config.default) (sampleCallsToCommitment ++
      callsForCertificate sampleDevice.pin (sampleAnswer third iv) third sampleTape)).state =
      .caVerified :=
  congrArg state (after_callsToCertificate_sampleDevice iv (sampleTapes third))

theorem commitment_binds_pin_and_secret_of_sample :
    exists x secret1 secret2,
      sentSecret? 16 x (sampleAnswer sampleTape (Fixed.resize 16 [])) = some secret1 ∧
      sentSecret? 16 x (sampleAnswer ⟨[7]⟩ (Fixed.resize 16 [9])) = some secret2 ∧
      (secret1 = secret2 ∨
        Hmac.Collide x.keys.authKey.bytes (x.committed secret1 sampleDevice.pin)
          (x.committed secret2 sampleDevice.pin)) := by
  have hstage := (run_of_marches (marches_to_commitment sampleDevice (fun _ => sampleTape)
    Config.default.secretLength.toNat (validate_publicKey_of_exponent_eq_one rfl))
    (r := new Config.default) rfl rfl).2
  rcases commitment_binds_pin_and_secret Config.default sampleCallsToCommitment
    (congrArg state hstage) (congrArg (fun r => r.stage.proof?) hstage) sampleDevice.pin
    sampleDevice.pin _ _ _ _ _ _ (sample_continues sampleTape (Fixed.resize 16 []))
    (sample_continues ⟨[7]⟩ (Fixed.resize 16 [9])) with
    ⟨x, secret1, secret2, -, hsent1, hsent2, -, -, ⟨-, hsecret⟩ | hcollide | ⟨hne, -⟩⟩
  · exact ⟨x, secret1, secret2, hsent1, hsent2, .inl hsecret⟩
  · exact ⟨x, secret1, secret2, hsent1, hsent2, .inr hcollide⟩
  · exact (hne rfl).elim

end Registration
end PaperPairing
