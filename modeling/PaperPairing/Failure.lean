import PaperPairing.Error

/-!
# Failure reasons

What a failed registration remembers of the error that ended it.
-/

namespace PaperPairing

inductive Failure where
  | transport
  | invalidPeerKey
  | protocolViolation (cause : Violation)
  | integrityCheckFailed
  | crypto
  | parse
  | invalidState
  | cancelled
deriving DecidableEq

def Violation.label : Violation -> String
  | nonceMismatch step => "NonceMismatch \x7b step: " ++ step.label ++ " \x7d"
  | tagMismatch step => "TagMismatch \x7b step: " ++ step.label ++ " \x7d"
  | pinProofFailed => "PinProofFailed"

namespace Failure

def ofError : Error -> Failure
  | .transport _ => transport
  | .invalidPeerKey _ => invalidPeerKey
  | .protocolViolation cause => protocolViolation cause
  | .integrityCheckFailed => integrityCheckFailed
  | .crypto _ => crypto
  | .parse _ => parse
  | .invalidState _ => invalidState
  | .cancelled => cancelled

def label : Failure -> String
  | transport => "Transport"
  | invalidPeerKey => "InvalidPeerKey"
  | protocolViolation cause => "ProtocolViolation(" ++ cause.label ++ ")"
  | integrityCheckFailed => "IntegrityCheckFailed"
  | crypto => "Crypto"
  | parse => "Parse"
  | invalidState => "InvalidState"
  | cancelled => "Cancelled"

end Failure
end PaperPairing
