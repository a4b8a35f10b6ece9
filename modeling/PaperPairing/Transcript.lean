import PaperPairing.Hash.Hmac
import PaperPairing.SessionKeys
import PaperPairing.Text.Utf8

/-!
# Transcript tags

Every message of the exchange carries a tag over the values exchanged before
it.  The fields of a tag are joined without separators, so that the fixed
lengths of nonces, hashes and public values decide where one field ends.
-/

namespace PaperPairing
namespace Transcript

def tag (key : Bytes) (fields : List Bytes) : Tag :=
  Hmac.tag key fields.flatten

/-- The PIN as a key of its own. -/
def psk (key : Bytes) (pin : String) : Tag :=
  tag key [Utf8.encode pin]

/-- The client's commitment to its secret and the PIN. -/
def rHash (key secret psk yb ya : Bytes) : Tag :=
  tag key [secret, psk, yb, ya]

/-- The device's commitment to its secret and the PIN. -/
def eHash (key secret psk yb ya : Bytes) : Tag :=
  tag key [secret, psk, yb, ya]

/-- The tag of the hash request; the first nonce opens it and stands before
the second one again. -/
def h2 (key nonce1 mac yb nonce2 ya : Bytes) : Tag :=
  tag key [nonce1, mac, yb, nonce1, nonce2, mac, ya]

def m3 (key nonce1 nonce2 mac ya h2 eHash : Bytes) : Tag :=
  tag key [nonce1, nonce2, mac, ya, h2, nonce2, eHash]

def m4 (key nonce2 eHash m3 nonce1 rHash wrappedSecret : Bytes) : Tag :=
  tag key [nonce2, eHash, m3, nonce1, rHash, wrappedSecret]

def m5 (key nonce1 rHash wrappedSecret m4 nonce2 wrappedCertificate : Bytes) : Tag :=
  tag key [nonce1, rHash, wrappedSecret, m4, nonce2, wrappedCertificate]

def m6 (key nonce2 wrappedCertificate m5 nonce1 wrappedRegistration : Bytes) : Tag :=
  tag key [nonce2, wrappedCertificate, m5, nonce1, wrappedRegistration]

/-- A tag is accepted if it is equal in length and content. -/
def verify (expected received : Bytes) : Bool :=
  expected = received

end Transcript
end PaperPairing
