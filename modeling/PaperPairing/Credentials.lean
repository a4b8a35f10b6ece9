import PaperPairing.Json.Record
import PaperPairing.Text.Quoted

/-!
# Credentials

What a registration yields: the certificate of the device, the private key of
the client and its identifier.
-/

namespace PaperPairing

structure Credentials where
  certificate : String
  privateKey : String
  clientId : String
deriving DecidableEq

namespace Credentials

def fieldNames : List String := ["certificate", "private_key", "client_id"]

def toJson (c : Credentials) : Json :=
  .object [Json.member "certificate" (Json.ofText c.certificate),
    Json.member "private_key" (Json.ofText c.privateKey),
    Json.member "client_id" (Json.ofText c.clientId)]

def ofJson? (v : Json) : Option Credentials := do
  match ← Json.fields? fieldNames v with
  | [some certificate, some privateKey, some clientId] =>
      return ⟨← certificate.toText?, ← privateKey.toText?, ← clientId.toText?⟩
  | _ => none

def ofText? (b : Bytes) : Option Credentials := do
  ofJson? (← Json.parse? b)

def toText (c : Credentials) : Bytes :=
  c.toJson.render

/-- The printed value, without the private key. -/
def label (c : Credentials) : String :=
  "RegistrationResult \x7b certificate: " ++ Text.quoted c.certificate ++
    ", private_key: \"[REDACTED]\", client_id: " ++ Text.quoted c.clientId ++ " \x7d"

end Credentials
end PaperPairing
