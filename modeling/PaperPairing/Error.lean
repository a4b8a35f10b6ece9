import PaperPairing.Step

/-!
# Errors

Every error ends the registration it arises in.  An error is a cause; its
wording is in `Error.message`, and `Error.causes` lists the wordings of the
errors it was made from, the outer ones first.
-/

namespace PaperPairing

inductive TransportError where
  | io (text : String)
  | status (code : UInt16)
  | http (text : String)
deriving DecidableEq

/-- Checks of the exchange that the peer failed. -/
inductive Violation where
  | nonceMismatch (step : Step)
  | tagMismatch (step : Step)
  | pinProofFailed
deriving DecidableEq

inductive CryptoError where
  | encryption (text : String)
  | keyDerivation (text : String)
  | invalidKeyLength (expected actual : Nat)
  | keyGeneration (text : String)
  | keyEncoding (text : String)
deriving DecidableEq

inductive ParseError where
  | json (text : String)
  | missingField (field message : String)
  | invalidBase64 (field : String)
  | invalidLength (field : String) (expected actual : Nat)
  | invalidCertificate (text : String)
deriving DecidableEq

inductive Error where
  | transport (cause : TransportError)
  | invalidPeerKey (text : String)
  | protocolViolation (cause : Violation)
  | integrityCheckFailed
  | crypto (cause : CryptoError)
  | parse (cause : ParseError)
  | invalidState (text : String)
  | cancelled
deriving DecidableEq

/-!
## Wordings
-/

def TransportError.message : TransportError -> String
  | io text => "I/O error: " ++ text
  | status code => "Unexpected HTTP status: " ++ toString code.toNat
  | http text => "HTTP error: " ++ text

def Violation.message : Violation -> String
  | nonceMismatch step => "nonce returned by device does not match at " ++ step.name
  | tagMismatch step => "transcript HMAC does not match at " ++ step.name
  | pinProofFailed => "PIN proof failed (wrong PIN or tampered exchange)"

def CryptoError.message : CryptoError -> String
  | encryption text => "Encryption failed: " ++ text
  | keyDerivation text => "Key derivation failed: " ++ text
  | invalidKeyLength expected actual =>
      "Invalid key length: expected " ++ toString expected ++ ", got " ++ toString actual
  | keyGeneration text => "Key generation failed: " ++ text
  | keyEncoding text => "Key encoding failed: " ++ text

def ParseError.message : ParseError -> String
  | json text => "Invalid JSON body: " ++ text
  | missingField field message =>
      "Missing required field '" ++ field ++ "' in " ++ message
  | invalidBase64 field => "Invalid base64 in field '" ++ field ++ "'"
  | invalidLength field expected actual =>
      "Field '" ++ field ++ "' has length " ++ toString actual ++ ", expected " ++
        toString expected
  | invalidCertificate text => "Invalid certificate: " ++ text

namespace Error

def message : Error -> String
  | transport cause => "Transport error: " ++ cause.message
  | invalidPeerKey text => "Invalid peer DH public value: " ++ text
  | protocolViolation cause => "Protocol violation: " ++ cause.message
  | integrityCheckFailed => "Integrity check failed on unwrapped data"
  | crypto cause => "Crypto error: " ++ cause.message
  | parse cause => "Parse error: " ++ cause.message
  | invalidState text => "Invalid pairing state: " ++ text
  | cancelled => "Pairing cancelled"

/-- The errors below an error; an input or output error has the text of the
system below it. -/
def causes : Error -> List String
  | transport (.io text) => [(TransportError.io text).message, text]
  | transport cause => [cause.message]
  | protocolViolation cause => [cause.message]
  | crypto cause => [cause.message]
  | parse cause => [cause.message]
  | invalidPeerKey _ | integrityCheckFailed | invalidState _ | cancelled => []

/-- The one failure after which the user should simply try a new PIN. -/
def isPinRejected : Error -> Bool
  | protocolViolation .pinProofFailed => true
  | _ => false

end Error
end PaperPairing
