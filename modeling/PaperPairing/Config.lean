import PaperPairing.Json.Record

/-!
# Configuration

Where the pairing service of a device is found, and how its replies are to be
read.  A stored configuration may leave out any of its fields; what it does
give has to be complete.
-/

namespace PaperPairing

inductive Method where
  | get
  | post
  | put
deriving DecidableEq

structure Endpoint where
  path : String
  method : Method
deriving DecidableEq

structure Endpoints where
  cleanup : Endpoint
  pin : Endpoint
  hash : Endpoint
  ca : Endpoint
  register : Endpoint
deriving DecidableEq

def Endpoints.default : Endpoints where
  cleanup := ⟨"/register/cleanup", .put⟩
  pin := ⟨"/register/pin", .post⟩
  hash := ⟨"/register/hash", .post⟩
  ca := ⟨"/register/ca", .post⟩
  register := ⟨"/register", .post⟩

structure Config where
  port : UInt16
  endpoints : Endpoints
  /-- The length of the device secret in front of the certificate. -/
  secretLength : UInt64
  /-- Whether the device is reset once more at the end. -/
  cleanupAfter : Bool
deriving DecidableEq

namespace Config

def default : Config where
  port := 8080
  endpoints := Endpoints.default
  secretLength := 16
  cleanupAfter := true

def baseUrl (c : Config) (host : String) : String :=
  "http://" ++ host ++ ":" ++ toString c.port.toNat

end Config

/-!
## Methods
-/

namespace Method

def name : Method -> String
  | get => "GET"
  | post => "POST"
  | put => "PUT"

def ofName? (text : String) : Option Method :=
  if text = "GET" then some get
  else if text = "POST" then some post
  else if text = "PUT" then some put
  else none

theorem ofName?_name (m : Method) : ofName? m.name = some m := by
  cases m <;> decide

def toJson (m : Method) : Json :=
  Json.ofText m.name

/-- A method is its name, or an object with the name as its one key and no
value. -/
def ofJson? : Json -> Option Method
  | .text raw => do ofName? (← Json.readText? raw)
  | .object [(key, .null)] => do ofName? (← Json.readText? key)
  | _ => none

end Method

/-!
## Endpoints
-/

namespace Endpoint

def fieldNames : List String := ["path", "method"]

def toJson (e : Endpoint) : Json :=
  .object [Json.member "path" (Json.ofText e.path), Json.member "method" e.method.toJson]

def ofJson? (v : Json) : Option Endpoint := do
  match ← Json.fields? fieldNames v with
  | [some path, some method] => return ⟨← path.toText?, ← Method.ofJson? method⟩
  | _ => none

end Endpoint

namespace Endpoints

def fieldNames : List String := ["cleanup", "pin", "hash", "ca", "register"]

def toJson (e : Endpoints) : Json :=
  .object [Json.member "cleanup" e.cleanup.toJson, Json.member "pin" e.pin.toJson,
    Json.member "hash" e.hash.toJson, Json.member "ca" e.ca.toJson,
    Json.member "register" e.register.toJson]

def ofJson? (v : Json) : Option Endpoints := do
  match ← Json.fields? fieldNames v with
  | [some cleanup, some pin, some hash, some ca, some register] =>
      return {
        cleanup := ← Endpoint.ofJson? cleanup
        pin := ← Endpoint.ofJson? pin
        hash := ← Endpoint.ofJson? hash
        ca := ← Endpoint.ofJson? ca
        register := ← Endpoint.ofJson? register }
  | _ => none

def ofText? (b : Bytes) : Option Endpoints := do
  ofJson? (← Json.parse? b)

end Endpoints

/-!
## Configurations
-/

namespace Config

def fieldNames : List String := ["port", "endpoints", "es_len", "cleanup_after"]

def toJson (c : Config) : Json :=
  .object [Json.member "port" (Json.ofNat c.port.toNat),
    Json.member "endpoints" c.endpoints.toJson,
    Json.member "es_len" (Json.ofNat c.secretLength.toNat),
    Json.member "cleanup_after" (.bool c.cleanupAfter)]

/-- An absent field keeps its default; a present one has to be readable. -/
def fieldOr {α : Type} (fallback : α) (read? : Json -> Option α) : Option Json -> Option α
  | none => some fallback
  | some v => read? v

def ofJson? (v : Json) : Option Config := do
  match ← Json.fields? fieldNames v with
  | [port, endpoints, secretLength, cleanupAfter] =>
      return {
        port := ← fieldOr default.port
          (fun v => (v.toNat? UInt16.size).map UInt16.ofNat) port
        endpoints := ← fieldOr default.endpoints Endpoints.ofJson? endpoints
        secretLength := ← fieldOr default.secretLength
          (fun v => (v.toNat? UInt64.size).map UInt64.ofNat) secretLength
        cleanupAfter := ← fieldOr default.cleanupAfter Json.toBool? cleanupAfter }
  | _ => none

def ofText? (b : Bytes) : Option Config := do
  ofJson? (← Json.parse? b)

def toText (c : Config) : Bytes :=
  c.toJson.render

end Config
end PaperPairing
