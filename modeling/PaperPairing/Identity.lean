import PaperPairing.Error
import PaperPairing.Pem.Strict
import PaperPairing.Rsa.Key
import PaperPairing.Text.Quoted

/-!
# Client identities

An identity is a sound RSA key.  It is loaded from the text of its private key
and shown to others as the text of its public key.
-/

namespace PaperPairing

structure Identity where
  key : Rsa.Key
  sound : key.isSound = true
deriving DecidableEq

namespace Identity

def privateLabel : List Char := "PRIVATE KEY".toList

def publicLabel : List Char := "PUBLIC KEY".toList

def ofKey? (k : Rsa.Key) : Option Identity :=
  if h : k.isSound = true then some ⟨k, h⟩ else none

def ofPrivateText? (text : String) : Option Identity := do
  ofKey? (← Rsa.readPrivateInfo? (← Pem.decodeStrict? privateLabel text.toList))

def load (text : String) : Except Error Identity :=
  match ofPrivateText? text with
  | some i => .ok i
  | none => .error (.crypto (.keyEncoding "not a private RSA key"))

def publicText (i : Identity) : String :=
  String.ofList (Pem.encode ['\n'] ⟨publicLabel, i.key.publicInfo⟩)

/-- The text that the identity can be loaded from again. -/
def privateText (i : Identity) : Except Error String :=
  match i.key.privateInfo? with
  | some info => .ok (String.ofList (Pem.encode ['\n'] ⟨privateLabel, info⟩))
  | none => .error (.crypto (.keyEncoding "second factor without inverse"))

/-- The printed value, without the private key. -/
def label (i : Identity) : String :=
  "ClientIdentity \x7b public_key_pem: " ++ Text.quoted i.publicText ++
    ", private_key: \"[REDACTED]\" \x7d"

end Identity
end PaperPairing
