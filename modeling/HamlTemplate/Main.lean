import HamlTemplate.Command

/-!
# The command line

Reads the file that a command names, runs the command and writes what it gives.
-/

namespace HamlTemplate

private def readFile? (path : String) : IO (Option ByteArray) := do
  try
    return some (← IO.FS.readBinFile path)
  catch
    | .noFileOrDirectory .. => return none
    | e => throw e

end HamlTemplate

open HamlTemplate

def main (arguments : List String) : IO UInt32 := do
  let [name, path] := arguments | usage
  let some command := Command.ofName? name | usage
  let result := command.run path (← readFile? path)
  (← IO.getStdout).putStr result.output
  (← IO.getStderr).putStr result.errors
  return result.exitCode
where
  usage : IO UInt32 := do
    (← IO.getStderr).putStr "Usage: haml <check|ast> <PATH>\n"
    return 2
