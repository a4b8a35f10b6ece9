/-!
# Round trips

A registration is a fixed row of exchanges with the device's pairing service.
-/

namespace PaperPairing

inductive Step where
  /-- Reset of a half-finished registration on the device. -/
  | cleanup
  /-- The device shows a PIN and sends its public value. -/
  | pinRequest
  /-- The client sends its public value, the device commits to the PIN. -/
  | hashExchange
  /-- The client proves the PIN, the device hands over the certificate. -/
  | caRegistration
  /-- The client hands over its identifier and its public key. -/
  | deviceRegistration
deriving DecidableEq

namespace Step

def name : Step -> String
  | cleanup => "cleanup"
  | pinRequest => "pin_request"
  | hashExchange => "hash_exchange"
  | caRegistration => "ca_registration"
  | deviceRegistration => "device_registration"

def label : Step -> String
  | cleanup => "Cleanup"
  | pinRequest => "PinRequest"
  | hashExchange => "HashExchange"
  | caRegistration => "CaRegistration"
  | deviceRegistration => "DeviceRegistration"

def all : List Step :=
  [cleanup, pinRequest, hashExchange, caRegistration, deviceRegistration]

theorem mem_all (s : Step) : s ∈ all := by
  cases s <;> decide

def ofLabel? (text : String) : Option Step :=
  all.find? (fun s => s.label = text)

theorem ofLabel?_label (s : Step) : ofLabel? s.label = some s := by
  cases s <;> decide

end Step
end PaperPairing
