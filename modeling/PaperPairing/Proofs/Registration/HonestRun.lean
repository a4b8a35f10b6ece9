import PaperPairing.Proofs.Registration.Advance
import PaperPairing.Proofs.Registration.Device

/-!
# An honest run completes

A client and a device that follow the protocol and share a PIN agree on both
keys, accept every tag of each other, and the run ends with the credentials.
-/

namespace PaperPairing

open Registration

namespace Device

/-!
## What the two sides compute

The exchange as the client holds it, written down from the data of the device.
-/

def exchange (d : Device) (nonce2 : Nonce) (pair : Modp2048.KeyPair) : Exchange :=
  let keys := SessionKeys.derive (Modp2048.KeyPair.common pair d.pair) d.nonce1.bytes d.mac
    nonce2.bytes
  { keys := keys
    nonce1 := d.nonce1
    nonce2 := nonce2
    mac := d.mac
    ya := pair.publicKey
    yb := d.contribution
    h2 := Transcript.h2 keys.authKey.bytes d.nonce1.bytes d.mac d.contribution nonce2.bytes
      pair.publicKey }

def commitment (d : Device) (x : Exchange) : Commitment :=
  let eHash := d.commit x.keys.authKey.bytes x.ya
  ⟨eHash, Stage.expectedM3 x eHash⟩

def link (d : Device) (x : Exchange) : Link :=
  ⟨x.keys, x.nonce2, x.ya, (d.commitment x).eHash, (d.commitment x).m3⟩

def caResponse (d : Device) (x : Exchange) (p : ClientProof) (iv : Fixed 16) : CaResponse :=
  let wrapped := Wrap.wrap x.keys iv (d.secret ++ d.certificate)
  ⟨x.nonce2, wrapped, Stage.expectedM5 x p wrapped⟩

def reply (d : Device) (x : Exchange) (p : ClientProof) (iv : Fixed 16) : DeviceReply :=
  ⟨(d.caResponse x p iv).wrappedCertificate, (d.caResponse x p iv).m5⟩

/-!
## Each side accepts what the other sends
-/

theorem bind_toOption {ε α β : Type} {e : Except ε α} {a : α} (h : e = .ok a)
    (f : α -> Option β) : (e.toOption >>= f) = f a := by
  rw [h]
  rfl

theorem bind_guard {α : Type} {p : Prop} [Decidable p] (h : p) (f : Unit -> Option α) :
    (guard p >>= f) = f () := by
  show ((if p then pure () else failure) >>= f) = f ()
  rw [if_pos h]
  rfl

section

variable (d : Device) (nonce2 : Nonce) (pair : Modp2048.KeyPair)

theorem exchangeOf_challenge
    (hdevice : Modp2048.validate d.pair.publicKey.toNat = .ok ()) :
    Stage.exchangeOf d.challenge nonce2 pair = .ok (d.exchange nonce2 pair) := by
  have hproject : Modp2048.project d.challenge.contribution = .ok d.contribution :=
    d.pair.project_publicKey
  have hsecret : pair.sharedSecret d.contribution = .ok (pair.common d.pair) :=
    Modp2048.KeyPair.sharedSecret_publicBytes hdevice
  simp only [Stage.exchangeOf, hproject, hsecret, Stage.peerKey, bind, Except.bind]
  rfl

theorem answerHash_hashRequest
    (hclient : Modp2048.validate pair.publicKey.toNat = .ok ()) :
    d.answerHash (Message.toBody (Stage.hashRequest (d.exchange nonce2 pair))) =
      some (d.link (d.exchange nonce2 pair)) := by
  have hread := Message.ofBody_toBody (Stage.hashRequest (d.exchange nonce2 pair))
  have hsecret : d.pair.sharedSecret (Stage.hashRequest (d.exchange nonce2 pair)).publicKey =
      .ok (pair.common d.pair) := by
    rw [Modp2048.KeyPair.common_comm]
    exact Modp2048.KeyPair.sharedSecret_publicKey hclient
  rw [answerHash, bind_toOption hread, bind_toOption hsecret]
  exact bind_guard rfl _

theorem answerCertificate_caRequest (x : Exchange) (hx : x.nonce1 = d.nonce1)
    (hyb : x.yb = d.contribution) (secret iv iv' : Fixed 16) :
    d.answerCertificate (d.link x) iv'
        (Message.toBody (Stage.caRequest x
          (Stage.proofOf x (d.commitment x) d.pin secret iv))) =
      some (d.caResponse x (Stage.proofOf x (d.commitment x) d.pin secret iv) iv') := by
  have hread := Message.ofBody_toBody (Stage.caRequest x
    (Stage.proofOf x (d.commitment x) d.pin secret iv))
  have hopen : Wrap.unwrap? (d.link x).keys (Stage.caRequest x
      (Stage.proofOf x (d.commitment x) d.pin secret iv)).wrappedSecret =
      some secret.bytes :=
    Wrap.unwrap?_wrap x.keys iv secret.bytes
  rw [answerCertificate, ← hx, ← hyb]
  refine (bind_toOption hread _).trans ((bind_guard rfl _).trans ?_)
  rw [hopen]
  exact (bind_guard secret.length_bytes _).trans (bind_guard rfl _)

theorem acceptRegistration_registrationRequest (x : Exchange) (hx : x.nonce1 = d.nonce1)
    (p : ClientProof) (clientId : String) (identity : Identity) (iv iv' : Fixed 16) :
    d.acceptRegistration (d.link x) (d.caResponse x p iv')
        (Message.toBody
          (Stage.registrationRequest x (d.reply x p iv') clientId identity iv)) =
      some (Utf8.encode clientId ++ Utf8.encode identity.publicText) := by
  have hread := Message.ofBody_toBody
    (Stage.registrationRequest x (d.reply x p iv') clientId identity iv)
  rw [acceptRegistration, ← hx]
  refine (bind_toOption hread _).trans ((bind_guard rfl _).trans ?_)
  exact Wrap.unwrap?_wrap x.keys iv _

end

end Device

namespace Registration

/-!
## The run

Every call of the client has its own randomness, and so has the answer of the
device that is wrapped.
-/

section

variable (d : Device) (clientId : String) (identity : Identity) (iv : Fixed 16)
  (t : Fin 7 -> Tape)

def honestExchange : Exchange :=
  d.exchange (t 0).first (t 0).pair

def honestProof : ClientProof :=
  Stage.proofOf (honestExchange d t) (d.commitment (honestExchange d t)) d.pin
    (t 2).first (t 2).second

def callsToCertificate : List Call :=
  [⟨.start (Message.toBody d.challenge), t 0⟩,
    ⟨.acceptHashResponse (Message.toBody (d.link (honestExchange d t)).response), t 1⟩,
    ⟨.requestCertificate d.pin, t 2⟩,
    ⟨.acceptCertificate
      (Message.toBody (d.caResponse (honestExchange d t) (honestProof d t) iv)), t 3⟩]

def callsToCredentials : List Call :=
  [⟨.requestRegistration clientId identity, t 4⟩, ⟨.confirm, t 5⟩, ⟨.finish, t 6⟩]

variable {config : Config} {certificate key : String}

theorem marches_to_certificate
    (hsecret : d.secret.length = config.secretLength.toNat)
    (hcertificate : Certificate.normalize d.certificate = .ok certificate)
    (hdevice : Modp2048.validate d.pair.publicKey.toNat = .ok ()) :
    Marches config.secretLength.toNat .init (callsToCertificate d iv t)
      [.request (Message.toBody (Stage.hashRequest (honestExchange d t))), .nothing,
        .request (Message.toBody (Stage.caRequest (honestExchange d t) (honestProof d t))),
        .nothing]
      (.caVerified (honestExchange d t) (d.commitment (honestExchange d t))
        (honestProof d t) (d.reply (honestExchange d t) (honestProof d t) iv)
        certificate) := by
  have hopen : Wrap.unwrap? (honestExchange d t).keys
      (d.caResponse (honestExchange d t) (honestProof d t) iv).wrappedCertificate =
      some (d.secret ++ d.certificate) :=
    Wrap.unwrap?_wrap _ _ _
  have hne : d.certificate ≠ [] := by
    intro hempty
    rw [hempty] at hcertificate
    cases hcertificate
  have hlong : config.secretLength.toNat < (d.secret ++ d.certificate).length := by
    rw [List.length_append, ← hsecret]
    exact Nat.lt_add_of_pos_right (List.length_pos_iff.mpr hne)
  have htake : (d.secret ++ d.certificate).take config.secretLength.toNat = d.secret := by
    rw [← hsecret, List.take_left]
  have hdrop : (d.secret ++ d.certificate).drop config.secretLength.toNat =
      d.certificate := by
    rw [← hsecret, List.drop_left]
  have hpin : (d.commitment (honestExchange d t)).eHash =
      Stage.expectedEHash (honestExchange d t) (honestProof d t)
        ((d.secret ++ d.certificate).take config.secretLength.toNat) := by
    rw [htake]
    rfl
  rw [← hdrop] at hcertificate
  refine .cons (.start (Message.ofBody_toBody _) (d.exchangeOf_challenge _ _ hdevice)) ?_
  refine .cons (.acceptHashResponse (Message.ofBody_toBody _) rfl rfl) ?_
  refine .cons .requestCertificate ?_
  exact .cons (.acceptCertificate (Message.ofBody_toBody _) rfl rfl hopen hlong hpin
    hcertificate) .nil

theorem marches_to_credentials (n : Nat) (x : Exchange) (c : Commitment) (p : ClientProof)
    (r : DeviceReply) (certificate : String) (hkey : identity.privateText = .ok key) :
    Marches n (.caVerified x c p r certificate) (callsToCredentials clientId identity t)
      [.request (Message.toBody
          (Stage.registrationRequest x r clientId identity (t 4).first)),
        .nothing, .credentials ⟨certificate, key, clientId⟩]
      .done :=
  .cons .requestRegistration (.cons .confirm (.cons (.finish hkey) .nil))

end

/-- The seven calls succeed with the replies of the device as bodies, both sides
hold the same keys, and the device accepts all three requests: its checks of
every tag, of the PIN and of the wraps hold, and the last payload is what the
client means to register. -/
def Completes (config : Config) (d : Device) (clientId : String) (identity : Identity)
    (iv : Fixed 16) (t : Fin 7 -> Tape) (credentials : Credentials) : Prop :=
  exists (hashRequest caRequest registrationRequest : Bytes) (x : Exchange)
      (link : Device.Link) (caResponse : CaResponse),
    let calls : List Call :=
      [⟨.start (Message.toBody d.challenge), t 0⟩,
        ⟨.acceptHashResponse (Message.toBody link.response), t 1⟩,
        ⟨.requestCertificate d.pin, t 2⟩,
        ⟨.acceptCertificate (Message.toBody caResponse), t 3⟩,
        ⟨.requestRegistration clientId identity, t 4⟩, ⟨.confirm, t 5⟩, ⟨.finish, t 6⟩]
    results (new config) calls =
      [.ok (.request hashRequest), .ok .nothing, .ok (.request caRequest), .ok .nothing,
        .ok (.request registrationRequest), .ok .nothing, .ok (.credentials credentials)] ∧
    (after (new config) calls).state = .done ∧
    (after (new config) (calls.take 4)).stage.exchange? = some x ∧
    link.keys.authKey = x.keys.authKey ∧ link.keys.wrapKey = x.keys.wrapKey ∧
    d.answerHash hashRequest = some link ∧
    d.answerCertificate link iv caRequest = some caResponse ∧
    d.acceptRegistration link caResponse registrationRequest =
      some (Utf8.encode clientId ++ Utf8.encode identity.publicText)

/-- An honest client completes with an honest device that shows the PIN typed,
whatever both sides draw. -/
theorem honest_run_completes (config : Config) (d : Device) (clientId : String)
    (identity : Identity) (iv : Fixed 16) (t : Fin 7 -> Tape) {certificate key : String}
    (hsecret : d.secret.length = config.secretLength.toNat)
    (hcertificate : Certificate.normalize d.certificate = .ok certificate)
    (hkey : identity.privateText = .ok key)
    (hclient : Modp2048.validate (t 0).pair.publicKey.toNat = .ok ())
    (hdevice : Modp2048.validate d.pair.publicKey.toNat = .ok ()) :
    Completes config d clientId identity iv t ⟨certificate, key, clientId⟩ := by
  have hfirst := marches_to_certificate d iv t hsecret hcertificate hdevice
  have hlast := marches_to_credentials clientId identity t config.secretLength.toNat
    (honestExchange d t) (d.commitment (honestExchange d t)) (honestProof d t)
    (d.reply (honestExchange d t) (honestProof d t) iv) certificate hkey
  have hrun := run_of_marches (hfirst.append hlast) (r := new config) rfl rfl
  have hheld := run_of_marches hfirst (r := new config) rfl rfl
  refine ⟨_, _, _, honestExchange d t, d.link (honestExchange d t),
    d.caResponse (honestExchange d t) (honestProof d t) iv, hrun.1, ?_, ?_, rfl, rfl, ?_,
    ?_, ?_⟩
  · exact congrArg state hrun.2
  · exact congrArg (fun r => r.stage.exchange?) hheld.2
  · exact d.answerHash_hashRequest _ _ hclient
  · exact d.answerCertificate_caRequest (honestExchange d t) rfl rfl _ _ _
  · exact d.acceptRegistration_registrationRequest (honestExchange d t) rfl _ _ _ _ _

/-!
## A run on given data

Both exponents are one, so that both public values are the generator.
-/

def sampleDevice : Device where
  privateKey := [1]
  nonce1 := Fixed.resize 16 [0x31]
  mac := [0xAC, 0x89, 0x95]
  pin := "4821"
  secret := List.replicate 16 0xE5
  certificate := [0x30]

/-- A tape on which the exponent one follows sixteen zero bytes. -/
def sampleTape : Tape :=
  ⟨List.replicate 47 0 ++ [1]⟩

def sampleIdentity : Identity :=
  ⟨⟨15, 3, 3, 3, 5⟩, by decide⟩

theorem validate_publicKey_of_exponent_eq_one {k : Modp2048.KeyPair} (h : k.exponent = 1) :
    Modp2048.validate k.publicKey.toNat = .ok () := by
  rw [Modp2048.KeyPair.toNat_publicKey_of_exponent_eq_one h, Modp2048.validate_generator]

theorem exists_privateText_sampleIdentity :
    exists key, sampleIdentity.privateText = .ok key := by
  have hinverse : inverse? sampleIdentity.key.prime2 sampleIdentity.key.prime1 = some 2 := by
    simp [sampleIdentity, inverse?, Inverse.euclid]
  rw [Identity.privateText, Rsa.Key.privateInfo?, hinverse]
  exact ⟨_, rfl⟩

theorem normalize_sampleDevice :
    Certificate.normalize sampleDevice.certificate =
      .ok (Certificate.armour sampleDevice.certificate) := by
  rfl

theorem after_callsToCertificate_sampleDevice (iv : Fixed 16) (t : Fin 7 -> Tape) :
    after (new Config.default) (callsToCertificate sampleDevice iv t) =
      { new Config.default with
        stage := .caVerified (honestExchange sampleDevice t)
          (sampleDevice.commitment (honestExchange sampleDevice t))
          (honestProof sampleDevice t)
          (sampleDevice.reply (honestExchange sampleDevice t) (honestProof sampleDevice t) iv)
          (Certificate.armour sampleDevice.certificate) } :=
  (run_of_marches (marches_to_certificate sampleDevice iv t rfl normalize_sampleDevice
    (validate_publicKey_of_exponent_eq_one rfl)) (r := new Config.default) rfl rfl).2

def sampleCallsToCertificate : List Call :=
  callsToCertificate sampleDevice (Fixed.resize 16 []) (fun _ => sampleTape)

theorem sample_marches_to_certificate :
    exists x c p r certificate products,
      Marches Config.default.secretLength.toNat .init sampleCallsToCertificate products
        (.caVerified x c p r certificate) :=
  ⟨_, _, _, _, _, _, marches_to_certificate _ _ _ rfl normalize_sampleDevice
    (validate_publicKey_of_exponent_eq_one rfl)⟩

theorem honest_run_completes_at_generator :
    exists key, sampleIdentity.privateText = .ok key ∧
      sampleDevice.secret.length = Config.default.secretLength.toNat ∧
      Completes Config.default sampleDevice "a client" sampleIdentity (Fixed.resize 16 [])
        (fun _ => sampleTape)
        ⟨Certificate.armour sampleDevice.certificate, key, "a client"⟩ := by
  rcases exists_privateText_sampleIdentity with ⟨key, hkey⟩
  exact ⟨key, hkey, rfl, honest_run_completes _ _ _ _ _ _ rfl normalize_sampleDevice hkey
    (validate_publicKey_of_exponent_eq_one rfl) (validate_publicKey_of_exponent_eq_one rfl)⟩

end Registration
end PaperPairing
