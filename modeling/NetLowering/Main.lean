import NetLowering.CommandLine

/-!
# The program

Reads the files that the command names and prints what the command prints.
-/

namespace NetLowering.CommandLine

def readFile? (path : String) : IO (Option Bytes) :=
  try
    let content ← IO.FS.readBinFile path
    return some content.toList
  catch _ => return none

def readFiles (paths : List String) : IO Files := do
  let contents ← paths.mapM fun path => return (path, ← readFile? path)
  return fun path => (contents.lookup path).join

/-- Runs the command and returns its exit status. -/
def run (arguments : List String) : IO UInt32 := do
  let paths := ((parse arguments).toOption.map (·.paths)).getD []
  let outcome := execute (← readFiles paths) arguments
  IO.print outcome.stdout
  return .ofNat outcome.status

end NetLowering.CommandLine

def main (arguments : List String) : IO UInt32 := NetLowering.CommandLine.run arguments
