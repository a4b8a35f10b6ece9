import PaperPairing.Identity
import PaperPairing.Registration.State
import PaperPairing.SessionKeys

/-!
# Stages of a registration

A stage is a state together with exactly the data that is held in it.  Building
a request does not change the state that others see, so two states have two
stages each.
-/

namespace PaperPairing
namespace Registration

/-- What is fixed once both public values are known. -/
structure Exchange where
  keys : SessionKeys
  nonce1 : Nonce
  nonce2 : Nonce
  mac : Bytes
  /-- The client's public value, 257 bytes. -/
  ya : Bytes
  /-- The device's public value, 256 bytes. -/
  yb : Bytes
  h2 : Tag
deriving DecidableEq

structure Commitment where
  eHash : Tag
  m3 : Tag
deriving DecidableEq

structure ClientProof where
  psk : Tag
  rHash : Tag
  wrappedSecret : Bytes
  m4 : Tag
deriving DecidableEq

structure DeviceReply where
  wrappedCertificate : Bytes
  m5 : Tag
deriving DecidableEq

inductive Stage where
  | init
  | pinRequested (x : Exchange)
  | keyExchanged (x : Exchange) (c : Commitment)
  | caRequested (x : Exchange) (c : Commitment) (p : ClientProof)
  | caVerified (x : Exchange) (c : Commitment) (p : ClientProof) (r : DeviceReply)
      (certificate : String)
  | registrationRequested (x : Exchange) (c : Commitment) (p : ClientProof)
      (r : DeviceReply) (certificate clientId : String) (identity : Identity)
  | deviceRegistered (certificate clientId : String) (identity : Identity)
  | done
  | failed (reason : Failure)
deriving DecidableEq

namespace Stage

def state : Stage -> State
  | init => .init
  | pinRequested _ => .pinRequested
  | keyExchanged _ _ | caRequested _ _ _ => .keyExchanged
  | caVerified _ _ _ _ _ | registrationRequested _ _ _ _ _ _ _ => .caVerified
  | deviceRegistered _ _ _ => .deviceRegistered
  | done => .done
  | failed reason => .failed reason

/-!
## Views

What a stage holds.
-/

def exchange? : Stage -> Option Exchange
  | pinRequested x | keyExchanged x _ | caRequested x _ _ | caVerified x _ _ _ _
  | registrationRequested x _ _ _ _ _ _ => some x
  | _ => none

def commitment? : Stage -> Option Commitment
  | keyExchanged _ c | caRequested _ c _ | caVerified _ c _ _ _
  | registrationRequested _ c _ _ _ _ _ => some c
  | _ => none

def proof? : Stage -> Option ClientProof
  | caRequested _ _ p | caVerified _ _ p _ _ | registrationRequested _ _ p _ _ _ _ => some p
  | _ => none

def deviceReply? : Stage -> Option DeviceReply
  | caVerified _ _ _ r _ | registrationRequested _ _ _ r _ _ _ => some r
  | _ => none

def certificate? : Stage -> Option String
  | caVerified _ _ _ _ certificate | registrationRequested _ _ _ _ certificate _ _
  | deviceRegistered certificate _ _ => some certificate
  | _ => none

def clientId? : Stage -> Option String
  | registrationRequested _ _ _ _ _ clientId _ | deviceRegistered _ clientId _ =>
      some clientId
  | _ => none

def identity? : Stage -> Option Identity
  | registrationRequested _ _ _ _ _ _ identity | deviceRegistered _ _ identity =>
      some identity
  | _ => none

end Stage

end Registration
end PaperPairing
