import PaperPairing.Cipher.Cbc
import PaperPairing.Hash.Hmac
import PaperPairing.SessionKeys

/-!
# The authenticated wrap

A secret travels as a blob: the data and the head of its tag are enciphered
together, and the initialisation vector stands behind the ciphertext.
-/

namespace PaperPairing
namespace Wrap

def tagLength : Nat := 8

/-- The part of the tag that travels with the data. -/
def check (keys : SessionKeys) (data : Bytes) : Bytes :=
  (Hmac.tag keys.authKey.bytes data).bytes.take tagLength

@[simp] theorem length_check (keys : SessionKeys) (data : Bytes) :
    (check keys data).length = 8 := by
  simp [check, (Hmac.tag keys.authKey.bytes data).length_bytes, tagLength]

def wrap (keys : SessionKeys) (iv : Fixed 16) (data : Bytes) : Bytes :=
  Cbc.encrypt keys.wrapKey iv (data ++ check keys data) ++ iv.bytes

/-- The data of a blob; none if it is too short, has incomplete blocks, ends in
bad padding or carries a wrong tag. -/
def unwrap? (keys : SessionKeys) (blob : Bytes) : Option Bytes := do
  let iv ← Fixed.ofBytes? 16 (blob.drop (blob.length - 16))
  let text ← Cbc.decrypt? keys.wrapKey iv (blob.take (blob.length - 16))
  if text.length < tagLength then
    none
  else
    let data := text.take (text.length - tagLength)
    if text.drop (text.length - tagLength) = check keys data then some data else none

end Wrap
end PaperPairing
