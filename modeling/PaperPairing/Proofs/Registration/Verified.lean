import Mathlib.Algebra.Group.Nat.Defs
import PaperPairing.Proofs.Registration.HonestRun

/-!
# Only verified data is held

Whatever a peer sends and in whatever order the operations are called, the data
that a registration holds fits together: every key, commitment and tag in it is
what the transcript so far makes it.
-/

namespace PaperPairing
namespace Registration

open Stage

/-!
## Data that fits together
-/

structure Exchange.IsVerified (x : Exchange) (nonce2 : Nonce) (pair : Modp2048.KeyPair) :
    Prop where
  nonce2_eq : x.nonce2 = nonce2
  length_yb : x.yb.length = 256
  validate_yb : Modp2048.validate x.yb.toNat = .ok ()
  ya_eq : x.ya = Bytes.ofNat 257 (2 ^ pair.exponent % Modp2048.modulus)
  keys_eq : x.keys = SessionKeys.derive
    (Bytes.ofNat 256 (x.yb.toNat ^ pair.exponent % Modp2048.modulus))
    x.nonce1.bytes x.mac x.nonce2.bytes
  h2_eq : x.h2 = Transcript.h2 x.keys.authKey.bytes x.nonce1.bytes x.mac x.yb
    x.nonce2.bytes x.ya

structure Commitment.IsVerified (x : Exchange) (c : Commitment) : Prop where
  m3_eq : c.m3 = Transcript.m3 x.keys.authKey.bytes x.nonce1.bytes x.nonce2.bytes x.mac
    x.ya x.h2.bytes c.eHash.bytes

/-- The proof wraps a secret that it is bound to, under some PIN. -/
structure ClientProof.IsVerified (x : Exchange) (c : Commitment) (p : ClientProof) :
    Prop where
  psk_eq : exists pin, p.psk = Transcript.psk x.keys.authKey.bytes pin
  length_wrappedSecret : p.wrappedSecret.length = 48
  unwraps : exists secret : Fixed 16,
    Wrap.unwrap? x.keys p.wrappedSecret = some secret.bytes ∧
      p.rHash = Hmac.tag x.keys.authKey.bytes
        (secret.bytes ++ p.psk.bytes ++ x.yb ++ x.ya)
  m4_eq : p.m4 = Transcript.m4 x.keys.authKey.bytes x.nonce2.bytes c.eHash.bytes c.m3.bytes
    x.nonce1.bytes p.rHash.bytes p.wrappedSecret

/-- The reply wraps the secret that the device committed itself to, `n` bytes
long, and behind it the certificate that is kept. -/
structure DeviceReply.IsVerified (n : Nat) (x : Exchange) (c : Commitment) (p : ClientProof)
    (certificate : String) (r : DeviceReply) : Prop where
  m5_eq : r.m5 = Transcript.m5 x.keys.authKey.bytes x.nonce1.bytes p.rHash.bytes
    p.wrappedSecret p.m4.bytes x.nonce2.bytes r.wrappedCertificate
  unwraps : exists secret sent : Bytes,
    Wrap.unwrap? x.keys r.wrappedCertificate = some (secret ++ sent) ∧
      secret.length = n ∧ sent ≠ [] ∧
      c.eHash = Hmac.tag x.keys.authKey.bytes (secret ++ p.psk.bytes ++ x.yb ++ x.ya) ∧
      Certificate.normalize sent = .ok certificate

/-- A stage that was entered holds verified data only. -/
def Stage.IsVerified (n : Nat) (nonce2 : Nonce) (pair : Modp2048.KeyPair) : Stage -> Prop
  | .init => False
  | .pinRequested x => x.IsVerified nonce2 pair
  | .keyExchanged x c => x.IsVerified nonce2 pair ∧ c.IsVerified x
  | .caRequested x c p => x.IsVerified nonce2 pair ∧ c.IsVerified x ∧ p.IsVerified x c
  | .caVerified x c p r certificate | .registrationRequested x c p r certificate _ _ =>
      x.IsVerified nonce2 pair ∧ c.IsVerified x ∧ p.IsVerified x c ∧
        r.IsVerified n x c p certificate
  | .deviceRegistered _ _ _ | .done | .failed _ => True

/-!
## What each check establishes
-/

theorem peerKey_eq_ok {α : Type} {e : Except Modp2048.Fault α} {a : α}
    (h : peerKey e = .ok a) : e = .ok a := by
  cases e with
  | ok b =>
      cases h
      rfl
  | error fault => cases h

theorem isVerified_exchangeOf {challenge : PinChallenge} {nonce2 : Nonce}
    {pair : Modp2048.KeyPair} {x : Exchange}
    (h : exchangeOf challenge nonce2 pair = .ok x) : x.IsVerified nonce2 pair := by
  rcases bind_eq_ok h with ⟨yb, hyb, hrest⟩
  rcases bind_eq_ok hrest with ⟨secret, hsecret, hend⟩
  have hlength := Modp2048.length_of_project (peerKey_eq_ok hyb)
  have hshared := Modp2048.KeyPair.of_sharedSecret_eq_ok hlength (peerKey_eq_ok hsecret)
  rcases hshared with ⟨hvalid, hpower⟩
  rw [powMod_eq] at hpower
  cases hend
  constructor
  · rfl
  · exact hlength
  · exact hvalid
  · exact pair.publicKey_eq_ofNat
  · show SessionKeys.derive secret _ _ _ = _
    rw [hpower, Modp2048.width]
  · rfl

theorem isVerified_commitment {x : Exchange} {eHash m3 : Tag}
    (h : m3 = expectedM3 x eHash) : Commitment.IsVerified x ⟨eHash, m3⟩ := by
  constructor
  rw [h]
  rfl

theorem tag_rHash (key secret psk yb ya : Bytes) :
    Transcript.rHash key secret psk yb ya = Hmac.tag key (secret ++ psk ++ yb ++ ya) := by
  simp [Transcript.rHash, Transcript.tag]

theorem tag_eHash (key secret psk yb ya : Bytes) :
    Transcript.eHash key secret psk yb ya = Hmac.tag key (secret ++ psk ++ yb ++ ya) := by
  simp [Transcript.eHash, Transcript.tag]

theorem isVerified_proofOf (x : Exchange) (c : Commitment) (pin : String)
    (secret iv : Fixed 16) : (proofOf x c pin secret iv).IsVerified x c := by
  constructor
  · exact ⟨pin, rfl⟩
  · rw [proofOf, Wrap.length_wrap, secret.length_bytes]
  · refine ⟨secret, Wrap.unwrap?_wrap x.keys iv secret.bytes, ?_⟩
    rw [← tag_rHash]
    rfl
  · rfl

theorem isVerified_deviceReply {n : Nat} {x : Exchange} {c : Commitment} {p : ClientProof}
    {wrapped payload : Bytes} {m5 : Tag} {certificate : String}
    (htag : m5 = expectedM5 x p wrapped)
    (hopen : Wrap.unwrap? x.keys wrapped = some payload)
    (hlong : n < payload.length)
    (hpin : c.eHash = expectedEHash x p (payload.take n))
    (hcertificate : Certificate.normalize (payload.drop n) = .ok certificate) :
    DeviceReply.IsVerified n x c p certificate ⟨wrapped, m5⟩ := by
  constructor
  · rw [htag]
    rfl
  · refine ⟨payload.take n, payload.drop n, ?_, ?_, ?_, ?_, hcertificate⟩
    · rw [List.take_append_drop, hopen]
    · rw [List.length_take, Nat.min_eq_left (Nat.le_of_lt hlong)]
    · intro hempty
      exact Nat.not_le_of_lt hlong (List.drop_eq_nil_iff.mp hempty)
    · rw [hpin, expectedEHash, tag_eHash]

/-!
## Steps and runs
-/

theorem isVerified_of_advances_init {n : Nat} {k : Call} {a : Product} {s : Stage}
    (h : Advances n .init k a s) : s.IsVerified n k.tape.first k.tape.pair := by
  cases h with
  | start _ hexchange => exact isVerified_exchangeOf hexchange

theorem isVerified_of_advances {n : Nat} {nonce2 : Nonce} {pair : Modp2048.KeyPair}
    {k : Call} {a : Product} {s s' : Stage} (hs : s.IsVerified n nonce2 pair)
    (h : Advances n s k a s') : s'.IsVerified n nonce2 pair := by
  cases h with
  | start => exact hs.elim
  | acceptHashResponse _ _ htag => exact ⟨hs, isVerified_commitment htag⟩
  | requestCertificate => exact ⟨hs.1, hs.2, isVerified_proofOf _ _ _ _ _⟩
  | acceptCertificate _ _ htag hopen hlong hpin hcertificate =>
      exact ⟨hs.1, hs.2.1, hs.2.2,
        isVerified_deviceReply htag hopen hlong hpin hcertificate⟩
  | requestRegistration => exact hs
  | confirm => exact trivial
  | finish => exact trivial

theorem isVerified_of_isTerminal {n : Nat} {nonce2 : Nonce} {pair : Modp2048.KeyPair}
    {s : Stage} (hs : s.state.isTerminal = true) : s.IsVerified n nonce2 pair := by
  cases s with
  | done | failed => exact trivial
  | _ => cases hs

theorem isVerified_outcome {nonce2 : Nonce} {pair : Modp2048.KeyPair} {r : Registration}
    (k : Call) (hr : r.stage.IsVerified r.secretLength.toNat nonce2 pair) :
    (k.outcome r).registration.stage.IsVerified r.secretLength.toNat nonce2 pair := by
  rcases advances_or_isTerminal k r with ⟨a, s, hadvance, hnext⟩ | hterminal
  · rw [hnext]
    exact isVerified_of_advances hr hadvance
  · exact isVerified_of_isTerminal hterminal

theorem isVerified_after {nonce2 : Nonce} {pair : Modp2048.KeyPair} {r : Registration}
    (calls : List Call) (hr : r.stage.IsVerified r.secretLength.toNat nonce2 pair) :
    (after r calls).stage.IsVerified r.secretLength.toNat nonce2 pair := by
  induction calls generalizing r with
  | nil => exact hr
  | cons k calls ih =>
      have hk := isVerified_outcome k hr
      rw [← secretLength_outcome k r] at hk
      have hrest := ih hk
      rwa [secretLength_outcome] at hrest

theorem exchange?_of_isTerminal {s : Stage} (hs : s.state.isTerminal = true) :
    s.exchange? = none := by
  cases s with
  | done | failed => rfl
  | _ => cases hs

/-- The data of an exchange, if any is held, goes back to the first call. -/
theorem start_of_exchange {config : Config} {calls : List Call} {x : Exchange}
    (hx : (after (new config) calls).stage.exchange? = some x) :
    exists body t rest, calls = ⟨.start body, t⟩ :: rest ∧
      (after (new config) calls).stage.IsVerified config.secretLength.toNat t.first t.pair := by
  cases calls with
  | nil => cases hx
  | cons k rest =>
      rcases advances_or_isTerminal k (new config) with ⟨a, s, hadvance, hnext⟩ | hterminal
      · have hs := isVerified_of_advances_init hadvance
        rcases k with ⟨operation, t⟩
        cases hadvance with
        | start hread hexchange =>
            refine ⟨_, t, rest, rfl, ?_⟩
            rw [after, hnext]
            exact isVerified_after rest hs
      · rw [after, after_of_isTerminal hterminal,
          exchange?_of_isTerminal hterminal] at hx
        cases hx

/-!
## What is held

Each view of a verified stage shows verified data, and what it depends on is
held beside it.
-/

section

variable {n : Nat} {nonce2 : Nonce} {pair : Modp2048.KeyPair} {s : Stage} {x : Exchange}

theorem exchange_is_verified (hs : s.IsVerified n nonce2 pair)
    (hx : s.exchange? = some x) : x.IsVerified nonce2 pair := by
  cases s with
  | pinRequested y =>
      cases hx
      exact hs
  | keyExchanged y c =>
      cases hx
      exact hs.1
  | caRequested y c p =>
      cases hx
      exact hs.1
  | caVerified y c p r certificate | registrationRequested y c p r certificate i k =>
      cases hx
      exact hs.1
  | _ => cases hx

theorem commitment_is_verified {c : Commitment} (hs : s.IsVerified n nonce2 pair)
    (hx : s.exchange? = some x) (hc : s.commitment? = some c) : c.IsVerified x := by
  cases s with
  | keyExchanged y d =>
      cases hx
      cases hc
      exact hs.2
  | caRequested y d p =>
      cases hx
      cases hc
      exact hs.2.1
  | caVerified y d p r certificate | registrationRequested y d p r certificate i k =>
      cases hx
      cases hc
      exact hs.2.1
  | _ => cases hc

theorem proof_is_verified {p : ClientProof} (hs : s.IsVerified n nonce2 pair)
    (hx : s.exchange? = some x) (hp : s.proof? = some p) :
    exists c, s.commitment? = some c ∧ p.IsVerified x c := by
  cases s with
  | caRequested y c q =>
      cases hx
      cases hp
      exact ⟨c, rfl, hs.2.2⟩
  | caVerified y c q r certificate | registrationRequested y c q r certificate i k =>
      cases hx
      cases hp
      exact ⟨c, rfl, hs.2.2.1⟩
  | _ => cases hp

theorem deviceReply_is_verified {r : DeviceReply} (hs : s.IsVerified n nonce2 pair)
    (hx : s.exchange? = some x) (hr : s.deviceReply? = some r) :
    exists c p certificate, s.commitment? = some c ∧ s.proof? = some p ∧
      s.certificate? = some certificate ∧ r.IsVerified n x c p certificate := by
  cases s with
  | caVerified y c p q certificate | registrationRequested y c p q certificate i k =>
      cases hx
      cases hr
      exact ⟨c, p, certificate, rfl, rfl, rfl, hs.2.2.2⟩
  | _ => cases hr

end

/-- Everything that is held is verified, for whatever was called before. -/
theorem held_data_is_verified (config : Config) (calls : List Call) {x : Exchange}
    (hx : (after (new config) calls).stage.exchange? = some x) :
    (exists body t rest, calls = ⟨.start body, t⟩ :: rest ∧ x.IsVerified t.first t.pair) ∧
    (forall c, (after (new config) calls).stage.commitment? = some c -> c.IsVerified x) ∧
    (forall p, (after (new config) calls).stage.proof? = some p ->
      exists c, (after (new config) calls).stage.commitment? = some c ∧
        p.IsVerified x c) ∧
    (forall r, (after (new config) calls).stage.deviceReply? = some r ->
      exists c p certificate,
        (after (new config) calls).stage.commitment? = some c ∧
        (after (new config) calls).stage.proof? = some p ∧
        (after (new config) calls).stage.certificate? = some certificate ∧
        r.IsVerified config.secretLength.toNat x c p certificate) := by
  rcases start_of_exchange hx with ⟨body, t, rest, hcalls, hverified⟩
  refine ⟨⟨body, t, rest, hcalls, exchange_is_verified hverified hx⟩, ?_, ?_, ?_⟩
  · intro c hc
    exact commitment_is_verified hverified hx hc
  · intro p hp
    exact proof_is_verified hverified hx hp
  · intro r hr
    exact deviceReply_is_verified hverified hx hr

theorem held_data_is_verified_after_sample :
    exists x r, (after (new Config.default) sampleCallsToCertificate).stage.exchange? =
        some x ∧
      (after (new Config.default) sampleCallsToCertificate).stage.deviceReply? = some r ∧
      exists c p certificate, r.IsVerified 16 x c p certificate := by
  rcases sample_marches_to_certificate with ⟨x, c, p, r, certificate, products, hmarch⟩
  have hend := (run_of_marches hmarch (r := new Config.default) rfl rfl).2
  have hx : (after (new Config.default) sampleCallsToCertificate).stage.exchange? =
      some x := by
    rw [hend]
    rfl
  have hr : (after (new Config.default) sampleCallsToCertificate).stage.deviceReply? =
      some r := by
    rw [hend]
    rfl
  rcases (held_data_is_verified Config.default sampleCallsToCertificate hx).2.2.2 r hr with
    ⟨c', p', certificate', -, -, -, hverified⟩
  exact ⟨x, r, hx, hr, c', p', certificate', hverified⟩

end Registration
end PaperPairing
