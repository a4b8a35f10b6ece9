import PaperPairing.Failure

/-!
# States of a registration

What others see of a registration: how far it has come, and the misuses that
this makes possible.
-/

namespace PaperPairing
namespace Registration

inductive State where
  | init
  /-- The PIN is on the screen of the device. -/
  | pinRequested
  /-- The device has committed itself to the PIN. -/
  | keyExchanged
  /-- The PIN is proven and the certificate is there. -/
  | caVerified
  /-- The device has accepted the client. -/
  | deviceRegistered
  | done
  | failed (reason : Failure)
deriving DecidableEq

namespace State

/-- Nothing leads out of a terminal state. -/
def isTerminal : State -> Bool
  | done | failed _ => true
  | _ => false

def label : State -> String
  | init => "Init"
  | pinRequested => "PinRequested"
  | keyExchanged => "KeyExchanged"
  | caVerified => "CaVerified"
  | deviceRegistered => "DeviceRegistered"
  | done => "Done"
  | failed reason => "Failed(" ++ reason.label ++ ")"

end State

inductive Misuse where
  | challengeOutOfTurn
  | hashResponseOutOfTurn
  | caRequestOutOfTurn
  | caRequestTwice
  | caResponseOutOfTurn
  | caResponseUnasked
  | registrationOutOfTurn
  | registrationTwice
  | confirmationOutOfTurn
  | confirmationUnasked
  | resultOutOfTurn
deriving DecidableEq

namespace Misuse

/-- An operation in a wrong state is reported with that state. -/
def inState (text : String) (s : State) : String :=
  text ++ " (current state: " ++ s.label ++ ")"

def message (s : State) : Misuse -> String
  | challengeOutOfTurn => inState "PIN challenge can only be processed from Init" s
  | hashResponseOutOfTurn =>
      inState "hash response can only be processed after the PIN challenge" s
  | caRequestOutOfTurn => inState "CA request can only be built after the key exchange" s
  | caRequestTwice => "CA request already built"
  | caResponseOutOfTurn =>
      inState "CA response can only be processed after the key exchange" s
  | caResponseUnasked => "CA response received before the CA request"
  | registrationOutOfTurn =>
      inState "registration request can only be built after the CA step" s
  | registrationTwice => "registration request already built"
  | confirmationOutOfTurn =>
      inState "registration can only be confirmed after the CA step" s
  | confirmationUnasked => "registration confirmed before the request was built"
  | resultOutOfTurn =>
      inState "result is only available once the device registered the client" s

def error (s : State) (m : Misuse) : Error :=
  .invalidState (m.message s)

end Misuse

end Registration
end PaperPairing
