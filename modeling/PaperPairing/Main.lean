import PaperPairing.CommandLine

/-!
# The pairing program

Reads the arguments and turns to the device.  How requests reach the device is
not part of this library, so the program ends where the first one is due.
-/

open PaperPairing

def main (args : List String) : IO UInt32 := do
  match CommandLine.parse (← IO.getEnv "DPT_HOST") args with
  | .error fault =>
      IO.eprint fault.remark
      IO.print CommandLine.usage
      return 0
  | .ok request =>
      IO.print (CommandLine.heading request)
      IO.eprintln "No transport to the device is installed."
      return 1
