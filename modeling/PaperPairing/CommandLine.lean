import PaperPairing.Config
import PaperPairing.Text.Numeral

/-!
# The command line

The arguments of the pairing program: where the device is, on which port it
listens, and where the credentials are to go.
-/

namespace PaperPairing
namespace CommandLine

structure Request where
  host : String
  config : Config
  output : Option String
deriving DecidableEq

inductive Fault where
  | helpWanted
  | hostMissing
  | portInvalid
  | unknownArgument (text : String)
deriving DecidableEq

def Fault.remark : Fault -> String
  | helpWanted | hostMissing => ""
  | portInvalid => "--port requires a number.\n"
  | unknownArgument text => "Unknown argument: " ++ text ++ "\n"

def usage : String :=
  "Usage:\n" ++
  "  cargo run -p dpt-pairing --example pair_with_device -- --host <addr> [--port 8080] " ++
  "[--out creds.json]\n" ++
  "  DPT_HOST=<addr> cargo run -p dpt-pairing --example pair_with_device\n"

structure Options where
  host : Option String
  config : Config
  output : Option String

/-- Read the arguments from the left; later ones replace earlier ones, and an
option at the very end takes its value back. -/
def read (o : Options) : List String -> Except Fault Options
  | [] => .ok o
  | [arg] =>
      if arg = "--host" then .ok { o with host := none }
      else if arg = "--port" then .error .portInvalid
      else if arg = "--out" ∨ arg = "-o" then .ok { o with output := none }
      else if arg = "--help" ∨ arg = "-h" then .error .helpWanted
      else .error (.unknownArgument arg)
  | arg :: value :: rest =>
      if arg = "--host" then read { o with host := some value } rest
      else if arg = "--port" then
        match Numeral.read? 10 UInt16.size value.toList with
        | some port => read { o with config := { o.config with port := UInt16.ofNat port } } rest
        | none => .error .portInvalid
      else if arg = "--out" ∨ arg = "-o" then read { o with output := some value } rest
      else if arg = "--help" ∨ arg = "-h" then .error .helpWanted
      else .error (.unknownArgument arg)

/-- The request of a row of arguments, with a host to fall back on. -/
def parse (fallbackHost : Option String) (args : List String) : Except Fault Request := do
  let o ← read ⟨fallbackHost, Config.default, none⟩ args
  match o.host with
  | some host => return ⟨host, o.config, o.output⟩
  | none => throw .hostMissing

def heading (r : Request) : String :=
  "=== Digital Paper Registration ===\n" ++
  "Device: " ++ r.config.baseUrl r.host ++ "\n\n"

end CommandLine
end PaperPairing
