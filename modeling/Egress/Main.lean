import Egress.CommandLine.Program
import Egress.Rehearsal

/-!
The command line program on a machine without a network: no name has addresses and no address
accepts connections, so it shows what would be decided for a destination.
-/

namespace Egress

def offline (now : Nat) :
    World Unit (Rehearsal.Directory (Except LookupFailure (List IpAddr))) where
  now
  journal := { processId := 1 }
  network := {}
  resolver := { entries := [], otherwise := .error .unknownName }
  hostAnswer := none
  policy := ()

end Egress

open Egress in
def main (arguments : List String) : IO UInt32 := do
  let report := CommandLine.run "egress" arguments (offline (← IO.monoMsNow))
  (← IO.getStdout).putStr report.output
  (← IO.getStderr).putStr report.errors
  return UInt32.ofNat report.code
