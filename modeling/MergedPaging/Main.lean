/-
The program: runs its command line with real files, prints the answer to standard
output and a message to standard error.
-/
import MergedPaging.CommandLine.Run

namespace MergedPaging.CommandLine

/-- The wording of a file that cannot be read. -/
def describe : IO.Error → String
  | .noFileOrDirectory .. => "No such file or directory (os error 2)"
  | e => toString e

/-- Reads a file, or tells why it cannot be read. -/
def readFile (path : String) : IO (Except String String) := do
  try
    return .ok (← IO.FS.readFile path)
  catch e =>
    return .error (describe e)

end MergedPaging.CommandLine

def main (args : List String) : IO UInt32 := do
  let outcome ← MergedPaging.CommandLine.run MergedPaging.CommandLine.readFile args
  IO.print outcome.output
  if outcome.message ≠ "" then IO.eprintln outcome.message
  return outcome.exitCode.toUInt32
