import PaperPairing.Proofs.Group.Agreement
import PaperPairing.Proofs.Message.RoundTrip
import PaperPairing.Proofs.Wrap
import PaperPairing.Registration.Step

/-!
# The device

The other side of the handshake, with its own key pair and its own view of the
PIN.  It reads the bodies that the client sends and checks every tag before it
answers; what it answers is computed from its own data only.
-/

namespace PaperPairing

structure Device where
  privateKey : Bytes
  nonce1 : Nonce
  mac : Bytes
  pin : String
  secret : Bytes
  certificate : Bytes

namespace Device

def pair (d : Device) : Modp2048.KeyPair :=
  .ofBytes d.privateKey

/-- The public value without the zero byte in front. -/
def contribution (d : Device) : Bytes :=
  d.pair.publicKey.drop 1

def challenge (d : Device) : PinChallenge where
  nonce1 := d.nonce1
  mac := d.mac
  contribution := d.pair.publicKey

structure Link where
  keys : SessionKeys
  nonce2 : Nonce
  ya : Bytes
  eHash : Tag
  m3 : Tag

namespace Link

def response (l : Link) : HashResponse :=
  ⟨l.nonce2, l.eHash, l.m3⟩

end Link

def commit (d : Device) (key ya : Bytes) : Tag :=
  Transcript.eHash key d.secret (Transcript.psk key d.pin).bytes d.contribution ya

def answerHash (d : Device) (body : Bytes) : Option Link := do
  let request ← (Message.ofBody body : Except Error HashRequest).toOption
  let secret ← (d.pair.sharedSecret request.publicKey).toOption
  let keys := SessionKeys.derive secret d.nonce1.bytes d.mac request.nonce2.bytes
  let key := keys.authKey.bytes
  let h2 := Transcript.h2 key d.nonce1.bytes d.mac d.contribution request.nonce2.bytes
    request.publicKey
  guard (request.h2 = h2)
  let eHash := d.commit key request.publicKey
  let m3 := Transcript.m3 key d.nonce1.bytes request.nonce2.bytes d.mac request.publicKey
    h2.bytes eHash.bytes
  return ⟨keys, request.nonce2, request.publicKey, eHash, m3⟩

/-- Check the tag of a certificate request and the PIN it is bound to, and send
the device secret with the certificate. -/
def answerCertificate (d : Device) (l : Link) (iv : Fixed 16) (body : Bytes) :
    Option CaResponse := do
  let request ← (Message.ofBody body : Except Error CaRequest).toOption
  let key := l.keys.authKey.bytes
  guard (request.m4 = Transcript.m4 key l.nonce2.bytes l.eHash.bytes l.m3.bytes
    d.nonce1.bytes request.rHash.bytes request.wrappedSecret)
  let secret ← Wrap.unwrap? l.keys request.wrappedSecret
  guard (secret.length = 16)
  guard (request.rHash = Transcript.rHash key secret (Transcript.psk key d.pin).bytes
    d.contribution l.ya)
  let wrapped := Wrap.wrap l.keys iv (d.secret ++ d.certificate)
  return ⟨l.nonce2, wrapped, Transcript.m5 key d.nonce1.bytes request.rHash.bytes
    request.wrappedSecret request.m4.bytes l.nonce2.bytes wrapped⟩

def acceptRegistration (d : Device) (l : Link) (sent : CaResponse) (body : Bytes) :
    Option Bytes := do
  let request ← (Message.ofBody body : Except Error RegistrationRequest).toOption
  guard (request.m6 = Transcript.m6 l.keys.authKey.bytes l.nonce2.bytes
    sent.wrappedCertificate sent.m5.bytes d.nonce1.bytes request.wrapped)
  Wrap.unwrap? l.keys request.wrapped

end Device
end PaperPairing
