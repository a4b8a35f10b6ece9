import PaperPairing.Message.Letters
import PaperPairing.SessionKeys

/-!
# Messages

The six messages of the exchange and the letters that carry their fields.
Fields are read in the order of their declaration, so the first one at fault
decides the error.
-/

namespace PaperPairing

class Message (α : Type) where
  name : String
  toLetters : α -> Letters
  ofLetters : Letters -> Except Error α

namespace Message

def toBody {α : Type} [Message α] (m : α) : Bytes :=
  (toLetters m).toBody

def ofBody {α : Type} [Message α] (body : Bytes) : Except Error α := do
  ofLetters (← Letters.ofBody body)

end Message

/-!
## The six messages
-/

/-- The reply to the PIN request: the device shows the PIN as it sends this. -/
structure PinChallenge where
  nonce1 : Nonce
  mac : Bytes
  /-- The public value of the device as it was sent. -/
  contribution : Bytes
deriving DecidableEq

structure HashRequest where
  nonce1 : Nonce
  nonce2 : Nonce
  mac : Bytes
  publicKey : Bytes
  h2 : Tag
deriving DecidableEq

structure HashResponse where
  nonce2 : Nonce
  eHash : Tag
  m3 : Tag
deriving DecidableEq

structure CaRequest where
  nonce1 : Nonce
  rHash : Tag
  wrappedSecret : Bytes
  m4 : Tag
deriving DecidableEq

structure CaResponse where
  nonce2 : Nonce
  wrappedCertificate : Bytes
  m5 : Tag
deriving DecidableEq

structure RegistrationRequest where
  nonce1 : Nonce
  wrapped : Bytes
  m6 : Tag
deriving DecidableEq

/-!
## Their letters
-/

open Letters (encode)

instance : Message PinChallenge where
  name := "PinChallenge"
  toLetters m :=
    { a := encode m.nonce1.bytes, b := encode m.mac, c := encode m.contribution
      d := none, e := none }
  ofLetters l := do
    let name := "PinChallenge"
    return {
      nonce1 := ← l.fixed 16 name .a
      mac := ← l.bytes name .b
      contribution := ← l.bytes name .c }

instance : Message HashRequest where
  name := "HashRequest"
  toLetters m :=
    { a := encode m.nonce1.bytes, b := encode m.nonce2.bytes, c := encode m.mac
      d := encode m.publicKey, e := encode m.h2.bytes }
  ofLetters l := do
    let name := "HashRequest"
    return {
      nonce1 := ← l.fixed 16 name .a
      nonce2 := ← l.fixed 16 name .b
      mac := ← l.bytes name .c
      publicKey := ← l.bytes name .d
      h2 := ← l.fixed 32 name .e }

instance : Message HashResponse where
  name := "HashResponse"
  toLetters m :=
    { a := encode m.nonce2.bytes, b := encode m.eHash.bytes, c := none, d := none
      e := encode m.m3.bytes }
  ofLetters l := do
    let name := "HashResponse"
    return {
      nonce2 := ← l.fixed 16 name .a
      eHash := ← l.fixed 32 name .b
      m3 := ← l.fixed 32 name .e }

instance : Message CaRequest where
  name := "CaRequest"
  toLetters m :=
    { a := encode m.nonce1.bytes, b := encode m.rHash.bytes, c := none
      d := encode m.wrappedSecret, e := encode m.m4.bytes }
  ofLetters l := do
    let name := "CaRequest"
    return {
      nonce1 := ← l.fixed 16 name .a
      rHash := ← l.fixed 32 name .b
      wrappedSecret := ← l.bytes name .d
      m4 := ← l.fixed 32 name .e }

instance : Message CaResponse where
  name := "CaResponse"
  toLetters m :=
    { a := encode m.nonce2.bytes, b := none, c := none
      d := encode m.wrappedCertificate, e := encode m.m5.bytes }
  ofLetters l := do
    let name := "CaResponse"
    return {
      nonce2 := ← l.fixed 16 name .a
      wrappedCertificate := ← l.bytes name .d
      m5 := ← l.fixed 32 name .e }

instance : Message RegistrationRequest where
  name := "RegistrationRequest"
  toLetters m :=
    { a := encode m.nonce1.bytes, b := none, c := none, d := encode m.wrapped
      e := encode m.m6.bytes }
  ofLetters l := do
    let name := "RegistrationRequest"
    return {
      nonce1 := ← l.fixed 16 name .a
      wrapped := ← l.bytes name .d
      m6 := ← l.fixed 32 name .e }

end PaperPairing
