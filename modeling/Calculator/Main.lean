import Calculator.CommandLine.Output

/-!
# The program

Reads the files that the arguments name, writes the output and ends with its exit
code.  Everything it writes is decided by `CommandLine.respond`.
-/

namespace Calculator.CommandLine

/-- The number and the words of a refusal; the number may come negated, as a 32-bit word. -/
def ReadFailure.refused (code : UInt32) (reason : String) : ReadFailure :=
  .system (if code.toNat < Nat.pow 2 31 then code else -code).toNat reason.capitalize

def ReadFailure.ofError : IO.Error → ReadFailure
  | .noFileOrDirectory _ code reason => refused code reason
  | .inappropriateType _ code reason => refused code reason
  | .permissionDenied _ code reason => refused code reason
  | .invalidArgument _ code reason => refused code reason
  | .resourceExhausted _ code reason => refused code reason
  | .otherError code reason => refused code reason
  | error => .system 5 (toString error)

def readFile (path : String) : IO (Except ReadFailure String) := do
  try
    pure (textOfBytes (← IO.FS.readBinFile path))
  catch error =>
    pure (.error (.ofError error))

def runProgram (arguments : List String) : IO UInt32 := do
  let found ← (Request.ofArguments arguments).paths.mapM fun path => do
    pure (path, ← readFile path)
  let output := respond (fun path => (found.lookup path).getD (.error .missing)) arguments
  (← IO.getStdout).putStr output.stdout
  (← IO.getStderr).putStr output.stderr
  pure output.code.toUInt32

end Calculator.CommandLine

def main (arguments : List String) : IO UInt32 :=
  Calculator.CommandLine.runProgram arguments
