import Mainline.CommandLine.Session
import Mainline.CommandLine.Usage

/-!
# The program

Reads the command line, carries the command out on a network in memory, prints what comes of it
and says by its exit status whether it succeeded: 0 if so, 1 if the command failed, 2 if the
arguments are not understood.
-/

open Mainline

/-- Streams that begin with random octets of the system. -/
def systemEntropy : IO Entropy := do
  let draw : IO Bytes := return (← IO.getRandomBytes 4096).toList
  let standard : Entropy := {}
  return {
    transactions := { standard.transactions with given := ← draw }
    secrets := { standard.secrets with given := ← draw }
    keys := { standard.keys with given := ← draw } }

def main (args : List String) : IO UInt32 := do
  match CommandLine.parse args with
  | .error e =>
    if e.isRequest then
      e.lines.forM IO.println
      return 0
    else
      e.lines.forM IO.eprintln
      return 2
  | .ok invocation =>
    match invocation.carryOut (Simulation.World.empty (← systemEntropy)) with
    | .ok lines =>
      lines.forM IO.println
      return 0
    | .error statements =>
      (CommandLine.failureLines statements).forM IO.eprintln
      return 1
