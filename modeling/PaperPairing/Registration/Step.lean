import PaperPairing.Certificate
import PaperPairing.Credentials
import PaperPairing.Group.Modp2048
import PaperPairing.Message.Basic
import PaperPairing.Registration.Stage
import PaperPairing.Transcript
import PaperPairing.Wrap

/-!
# Steps between stages

Each step takes what has come in and what was drawn at random, and gives what
is to go out and the next stage, or the first error.  Whether it is the turn of
a step is decided before anything that came in is looked at.
-/

namespace PaperPairing
namespace Registration

namespace Stage

def refuse {α : Type} (m : Misuse) (s : Stage) : Except Error α :=
  .error (m.error s.state)

/-!
## Key exchange
-/

def peerKey {α : Type} : Except Modp2048.Fault α -> Except Error α
  | .ok a => .ok a
  | .error fault => .error (.invalidPeerKey fault.message)

/-- What follows from a challenge, the drawn nonce and the drawn exponent. -/
def exchangeOf (challenge : PinChallenge) (nonce2 : Nonce) (pair : Modp2048.KeyPair) :
    Except Error Exchange := do
  let yb ← peerKey (Modp2048.project challenge.contribution)
  let secret ← peerKey (pair.sharedSecret yb)
  let keys := SessionKeys.derive secret challenge.nonce1.bytes challenge.mac nonce2.bytes
  let ya := pair.publicKey
  let h2 := Transcript.h2 keys.authKey.bytes challenge.nonce1.bytes challenge.mac yb
    nonce2.bytes ya
  return {
    keys := keys
    nonce1 := challenge.nonce1
    nonce2 := nonce2
    mac := challenge.mac
    ya := ya
    yb := yb
    h2 := h2 }

def hashRequest (x : Exchange) : HashRequest where
  nonce1 := x.nonce1
  nonce2 := x.nonce2
  mac := x.mac
  publicKey := x.ya
  h2 := x.h2

def start (body : Bytes) (nonce2 : Nonce) (pair : Modp2048.KeyPair) :
    Stage -> Except Error (Bytes × Stage)
  | init => do
      let challenge ← (Message.ofBody body : Except Error PinChallenge)
      let x ← exchangeOf challenge nonce2 pair
      return (Message.toBody (hashRequest x), pinRequested x)
  | s => refuse .challengeOutOfTurn s

/-- The tag that a hash response with the given commitment must carry. -/
def expectedM3 (x : Exchange) (eHash : Tag) : Tag :=
  Transcript.m3 x.keys.authKey.bytes x.nonce1.bytes x.nonce2.bytes x.mac x.ya x.h2.bytes
    eHash.bytes

/-- Check the hash response: the nonce comes back and the tag is right. -/
def acceptHashResponse (body : Bytes) : Stage -> Except Error (Unit × Stage)
  | pinRequested x => do
      let response ← (Message.ofBody body : Except Error HashResponse)
      if response.nonce2 ≠ x.nonce2 then
        .error (.protocolViolation (.nonceMismatch .hashExchange))
      else if !Transcript.verify (expectedM3 x response.eHash).bytes response.m3.bytes then
        .error (.protocolViolation (.tagMismatch .hashExchange))
      else
        .ok ((), keyExchanged x ⟨response.eHash, response.m3⟩)
  | s => refuse .hashResponseOutOfTurn s

/-!
## PIN and certificate
-/

def proofOf (x : Exchange) (c : Commitment) (pin : String) (secret iv : Fixed 16) :
    ClientProof :=
  let key := x.keys.authKey.bytes
  let psk := Transcript.psk key pin
  let rHash := Transcript.rHash key secret.bytes psk.bytes x.yb x.ya
  let wrappedSecret := Wrap.wrap x.keys iv secret.bytes
  let m4 := Transcript.m4 key x.nonce2.bytes c.eHash.bytes c.m3.bytes x.nonce1.bytes
    rHash.bytes wrappedSecret
  ⟨psk, rHash, wrappedSecret, m4⟩

def caRequest (x : Exchange) (p : ClientProof) : CaRequest where
  nonce1 := x.nonce1
  rHash := p.rHash
  wrappedSecret := p.wrappedSecret
  m4 := p.m4

def requestCertificate (pin : String) (secret iv : Fixed 16) :
    Stage -> Except Error (Bytes × Stage)
  | keyExchanged x c =>
      let p := proofOf x c pin secret iv
      .ok (Message.toBody (caRequest x p), caRequested x c p)
  | caRequested x c p => refuse .caRequestTwice (caRequested x c p)
  | s => refuse .caRequestOutOfTurn s

/-- The tag that a certificate response with the given payload must carry. -/
def expectedM5 (x : Exchange) (p : ClientProof) (wrappedCertificate : Bytes) : Tag :=
  Transcript.m5 x.keys.authKey.bytes x.nonce1.bytes p.rHash.bytes p.wrappedSecret p.m4.bytes
    x.nonce2.bytes wrappedCertificate

/-- The commitment that a device secret and the PIN amount to. -/
def expectedEHash (x : Exchange) (p : ClientProof) (secret : Bytes) : Tag :=
  Transcript.eHash x.keys.authKey.bytes secret p.psk.bytes x.yb x.ya

/-- The wording for a payload that holds nothing behind the device secret. -/
def shortPayload (length secretLength : Nat) : String :=
  "CA payload of " ++ toString length ++ " bytes leaves no room after the " ++
    toString secretLength ++ "-byte device secret"

/-- Check the certificate response: nonce, tag, wrap and length, then the PIN
and last the certificate itself. -/
def acceptCertificate (secretLength : Nat) (body : Bytes) :
    Stage -> Except Error (Unit × Stage)
  | caRequested x c p => do
      let response ← (Message.ofBody body : Except Error CaResponse)
      if response.nonce2 ≠ x.nonce2 then
        .error (.protocolViolation (.nonceMismatch .caRegistration))
      else if !Transcript.verify (expectedM5 x p response.wrappedCertificate).bytes
          response.m5.bytes then
        .error (.protocolViolation (.tagMismatch .caRegistration))
      else
        match Wrap.unwrap? x.keys response.wrappedCertificate with
        | none => .error .integrityCheckFailed
        | some payload =>
            if payload.length ≤ secretLength then
              .error (.parse (.invalidCertificate (shortPayload payload.length secretLength)))
            else if !Transcript.verify (expectedEHash x p (payload.take secretLength)).bytes
                c.eHash.bytes then
              .error (.protocolViolation .pinProofFailed)
            else
              match Certificate.normalize (payload.drop secretLength) with
              | .error fault => .error (.parse (.invalidCertificate fault.message))
              | .ok certificate =>
                  .ok ((), caVerified x c p ⟨response.wrappedCertificate, response.m5⟩
                    certificate)
  | keyExchanged x c => refuse .caResponseUnasked (keyExchanged x c)
  | s => refuse .caResponseOutOfTurn s

/-!
## Registration
-/

/-- The registration request: identifier and public key, wrapped. -/
def registrationRequest (x : Exchange) (r : DeviceReply) (clientId : String)
    (identity : Identity) (iv : Fixed 16) : RegistrationRequest :=
  let wrapped := Wrap.wrap x.keys iv (Utf8.encode clientId ++ Utf8.encode identity.publicText)
  ⟨x.nonce1, wrapped,
    Transcript.m6 x.keys.authKey.bytes x.nonce2.bytes r.wrappedCertificate r.m5.bytes
      x.nonce1.bytes wrapped⟩

def requestRegistration (clientId : String) (identity : Identity) (iv : Fixed 16) :
    Stage -> Except Error (Bytes × Stage)
  | caVerified x c p r certificate =>
      .ok (Message.toBody (registrationRequest x r clientId identity iv),
        registrationRequested x c p r certificate clientId identity)
  | registrationRequested x c p r certificate i k =>
      refuse .registrationTwice (registrationRequested x c p r certificate i k)
  | s => refuse .registrationOutOfTurn s

/-- The device has acknowledged the registration: the keys are dropped. -/
def confirm : Stage -> Except Error (Unit × Stage)
  | registrationRequested _ _ _ _ certificate clientId identity =>
      .ok ((), deviceRegistered certificate clientId identity)
  | caVerified x c p r certificate =>
      refuse .confirmationUnasked (caVerified x c p r certificate)
  | s => refuse .confirmationOutOfTurn s

def finish : Stage -> Except Error (Credentials × Stage)
  | deviceRegistered certificate clientId identity => do
      let privateKey ← identity.privateText
      return (⟨certificate, privateKey, clientId⟩, done)
  | s => refuse .resultOutOfTurn s

/-- Give up; a terminal stage stays as it is. -/
def abort (reason : Failure) (s : Stage) : Stage :=
  if s.state.isTerminal then s else failed reason

end Stage

end Registration
end PaperPairing
