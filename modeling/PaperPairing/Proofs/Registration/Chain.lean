import PaperPairing.Proofs.Registration.Verified
import PaperPairing.Proofs.Transcript

/-!
# The last tag pins down the exchange

A client that has accepted a certificate response holds a chain of tags, from
the one of the hash request to the one of that response.  Whoever computes the
same last tag under the same key has seen the same exchange from its first
message on, or two messages of the chain collide.
-/

namespace PaperPairing
namespace Registration

open Transcript (View)

/-!
## The view of the client
-/

def viewOf? (x : Exchange) (c : Commitment) (p : ClientProof) (r : DeviceReply) :
    Option View := do
  let yb ← Fixed.ofBytes? 256 x.yb
  let ya ← Fixed.ofBytes? 257 x.ya
  let wrappedSecret ← Fixed.ofBytes? 48 p.wrappedSecret
  return {
    nonce1 := x.nonce1
    mac := x.mac
    yb := yb
    nonce2 := x.nonce2
    ya := ya
    eHash := c.eHash
    rHash := p.rHash
    wrappedSecret := wrappedSecret
    wrappedCertificate := r.wrappedCertificate }

def Stage.view? (s : Stage) : Option View := do
  let x ← s.exchange?
  let c ← s.commitment?
  let p ← s.proof?
  let r ← s.deviceReply?
  viewOf? x c p r

/-- The tags that are held are those of the view. -/
structure HoldsTags (x : Exchange) (c : Commitment) (p : ClientProof) (r : DeviceReply)
    (v : View) : Prop where
  h2_eq : x.h2 = v.h2 x.keys.authKey.bytes
  m3_eq : c.m3 = v.m3 x.keys.authKey.bytes
  m4_eq : p.m4 = v.m4 x.keys.authKey.bytes
  m5_eq : r.m5 = v.m5 x.keys.authKey.bytes

theorem exists_view {n : Nat} {nonce2 : Nonce} {pair : Modp2048.KeyPair} {x : Exchange}
    {c : Commitment} {p : ClientProof} {r : DeviceReply} {certificate : String}
    (hx : x.IsVerified nonce2 pair) (hc : c.IsVerified x) (hp : p.IsVerified x c)
    (hr : r.IsVerified n x c p certificate) :
    exists v, viewOf? x c p r = some v ∧ HoldsTags x c p r v := by
  have hyb : x.yb.length = 256 := hx.length_yb
  have hya : x.ya.length = 257 := by rw [hx.ya_eq, Bytes.length_ofNat]
  have hsecret : p.wrappedSecret.length = 48 := hp.length_wrappedSecret
  refine ⟨⟨x.nonce1, x.mac, ⟨x.yb, hyb⟩, x.nonce2, ⟨x.ya, hya⟩, c.eHash, p.rHash,
    ⟨p.wrappedSecret, hsecret⟩, r.wrappedCertificate⟩, ?_, ?_⟩
  · simp only [viewOf?, Fixed.ofBytes?, dif_pos hyb, dif_pos hya, dif_pos hsecret]
    rfl
  · have hh2 := hx.h2_eq
    have hm3 := hc.m3_eq
    have hm4 := hp.m4_eq
    have hm5 := hr.m5_eq
    rw [hh2] at hm3
    rw [hm3] at hm4
    rw [hm4] at hm5
    exact ⟨hh2, hm3, hm4, hm5⟩

theorem held_of_caVerified {s : Stage} (h : s.state = .caVerified) :
    exists x c p r, s.exchange? = some x ∧ s.commitment? = some c ∧ s.proof? = some p ∧
      s.deviceReply? = some r := by
  cases s with
  | caVerified x c p r certificate | registrationRequested x c p r certificate i k =>
      exact ⟨x, c, p, r, rfl, rfl, rfl, rfl⟩
  | _ => cases h

theorem exists_view_of_caVerified {config : Config} {calls : List Call}
    (hstate : (after (new config) calls).state = .caVerified) :
    exists x c p r v,
      (after (new config) calls).stage.exchange? = some x ∧
      (after (new config) calls).stage.commitment? = some c ∧
      (after (new config) calls).stage.proof? = some p ∧
      (after (new config) calls).stage.deviceReply? = some r ∧
      (after (new config) calls).stage.view? = some v ∧ HoldsTags x c p r v := by
  rcases held_of_caVerified hstate with ⟨x, c, p, r, hx, hc, hp, hr⟩
  rcases start_of_exchange hx with ⟨body, t, rest, -, hverified⟩
  rcases deviceReply_is_verified hverified hx hr with
    ⟨c', p', certificate, hc', hp', -, hreply⟩
  cases hc.symm.trans hc'
  cases hp.symm.trans hp'
  rcases proof_is_verified hverified hx hp with ⟨c', hc', hproof⟩
  cases hc.symm.trans hc'
  rcases exists_view (exchange_is_verified hverified hx)
    (commitment_is_verified hverified hx hc) hproof hreply with ⟨v, hv, htags⟩
  refine ⟨x, c, p, r, v, hx, hc, hp, hr, ?_, htags⟩
  simp only [Stage.view?, hx, hc, hp, hr, Option.bind_eq_bind, Option.bind_some]
  exact hv

/-- Whatever led to an accepted certificate response: the held data is a view, the
held tags are its tags, and any other view with the same last tag is the same in
all nine fields, or the messages of the two views collide at one of the tags. -/
theorem last_tag_pins_down_exchange (config : Config) (calls : List Call)
    (hstate : (after (new config) calls).state = .caVerified) :
    exists x c p r v,
      ((after (new config) calls).stage.exchange? = some x ∧
        (after (new config) calls).stage.commitment? = some c ∧
        (after (new config) calls).stage.proof? = some p ∧
        (after (new config) calls).stage.deviceReply? = some r) ∧
      (after (new config) calls).stage.view? = some v ∧ HoldsTags x c p r v ∧
      forall w : View, w.m5 x.keys.authKey.bytes = r.m5 ->
        w = v ∨ exists k, Hmac.Collide x.keys.authKey.bytes
          (w.message x.keys.authKey.bytes k) (v.message x.keys.authKey.bytes k) := by
  rcases exists_view_of_caVerified hstate with ⟨x, c, p, r, v, hx, hc, hp, hr, hv, htags⟩
  refine ⟨x, c, p, r, v, ⟨hx, hc, hp, hr⟩, hv, htags, ?_⟩
  intro w hw
  rw [htags.m5_eq] at hw
  exact View.eq_or_collide hw

/-!
## The view of a device
-/

def sampleExchange : Exchange :=
  honestExchange sampleDevice (fun _ => sampleTape)

def sampleProof : ClientProof :=
  honestProof sampleDevice (fun _ => sampleTape)

theorem length_wrappedSecret_sampleProof : sampleProof.wrappedSecret.length = 48 :=
  (isVerified_proofOf _ _ _ _ _).length_wrappedSecret

def sampleDeviceView : View where
  nonce1 := sampleDevice.nonce1
  mac := sampleDevice.mac
  yb := ⟨sampleDevice.contribution, sampleDevice.pair.length_publicBytes⟩
  nonce2 := sampleTape.first
  ya := ⟨sampleTape.pair.publicKey, sampleTape.pair.length_publicKey⟩
  eHash := (sampleDevice.commitment sampleExchange).eHash
  rHash := sampleProof.rHash
  wrappedSecret := ⟨sampleProof.wrappedSecret, length_wrappedSecret_sampleProof⟩
  wrappedCertificate :=
    (sampleDevice.caResponse sampleExchange sampleProof (Fixed.resize 16 [])).wrappedCertificate

theorem last_tag_pins_down_exchange_of_sample :
    (after (new Config.default) sampleCallsToCertificate).state = .caVerified ∧
      exists v, (after (new Config.default) sampleCallsToCertificate).stage.view? = some v ∧
        (sampleDeviceView = v ∨ exists k, Hmac.Collide sampleExchange.keys.authKey.bytes
          (sampleDeviceView.message sampleExchange.keys.authKey.bytes k)
          (v.message sampleExchange.keys.authKey.bytes k)) := by
  have hend := after_callsToCertificate_sampleDevice (Fixed.resize 16 []) (fun _ => sampleTape)
  have hstate : (after (new Config.default) sampleCallsToCertificate).state = .caVerified :=
    congrArg state hend
  rcases last_tag_pins_down_exchange Config.default sampleCallsToCertificate hstate with
    ⟨x, c, p, r, v, ⟨hx, -, -, hr⟩, hv, -, hview⟩
  have hheld := congrArg (fun r => r.stage.exchange?) hend
  have hreply := congrArg (fun r => r.stage.deviceReply?) hend
  cases hx.symm.trans hheld
  cases hr.symm.trans hreply
  exact ⟨hstate, v, hv, hview sampleDeviceView rfl⟩

end Registration
end PaperPairing
