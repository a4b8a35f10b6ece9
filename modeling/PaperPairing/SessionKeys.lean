import PaperPairing.Hash.Pbkdf2

/-!
# Session keys

Both sides stretch the shared secret, salted with what the device sent and the
client's nonce, into a key that authenticates and a key that wraps.
-/

namespace PaperPairing

abbrev Nonce := Fixed 16

abbrev Tag := Fixed 32

structure SessionKeys where
  authKey : Fixed 32
  wrapKey : Fixed 16
deriving DecidableEq

namespace SessionKeys

def iterations : Nat := 10000

def materialLength : Nat := 48

/-- The salt: first nonce, device code, second nonce. -/
def salt (nonce1 mac nonce2 : Bytes) : Bytes :=
  nonce1 ++ mac ++ nonce2

def material (secret salt : Bytes) : Bytes :=
  Pbkdf2.derive secret salt iterations materialLength

@[simp] theorem length_material (secret salt : Bytes) :
    (material secret salt).length = 48 :=
  Pbkdf2.length_derive secret salt iterations materialLength

/-- The authentication key comes first. -/
def ofMaterial (m : Fixed 48) : SessionKeys where
  authKey := ⟨m.bytes.take 32, by simp [m.length_bytes]⟩
  wrapKey := ⟨m.bytes.drop 32, by simp [m.length_bytes]⟩

def derive (secret nonce1 mac nonce2 : Bytes) : SessionKeys :=
  ofMaterial ⟨material secret (salt nonce1 mac nonce2), length_material _ _⟩

/-!
## Printed values

Secrets are printed by their length at most.
-/

def secretLabel (secret : Bytes) : String :=
  "SharedSecret([REDACTED; " ++ toString secret.length ++ "])"

def label (_ : SessionKeys) : String :=
  "SessionKeys([REDACTED])"

end SessionKeys
end PaperPairing
