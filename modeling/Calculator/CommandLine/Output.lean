import Calculator.CommandLine.Transcript

/-!
# Output of the program

What a list of arguments makes the program write, and its exit code: 0 for
success, 1 for a run in which something failed, 2 for arguments that are not
understood.
-/

namespace Calculator.CommandLine

structure Output where
  code : Nat
  stdout : String
  stderr : String
  deriving DecidableEq, Repr

/-! ## Fixed texts -/

def unlines (lines : List String) : String :=
  String.join (lines.map (· ++ "\n"))

def usage : String := "Usage: stackcalc [OPTIONS] [INPUTS]..."

def helpText : String := unlines [
  "Two-stack evaluator for whitespace-separated infix arithmetic expressions",
  "",
  usage,
  "",
  "Arguments:",
  "  [INPUTS]...  Expressions (or files with `--file`). Runs a short demonstration when empty",
  "",
  "Options:",
  "  -f, --file             Treat every input as a file holding one expression per line. Blank lines and lines starting with `#` are skipped",
  "      --strict-division  Fail on division by zero instead of producing infinity or NaN",
  "  -v, --verbose...       Log evaluation steps to stderr. Repeat for more detail",
  "  -h, --help             Print help",
  "  -V, --version          Print version"]

def versionText : String := unlines ["stackcalc 0.1.0"]

def misuseText : String := unlines [
  "error: the arguments are not understood",
  "",
  usage,
  "",
  "For more information, try '--help'."]

/-! ## Runs -/

namespace Output

/-- Answers go to the standard output and everything else to the standard error. -/
def ofRecords (verbosity : Nat) (records : List Record) : Output where
  code := if records.any Record.isFailure then 1 else 0
  stdout := unlines ((records.filter Record.isAnswer).map Record.line)
  stderr := unlines
    ((records.filter fun record => !record.isAnswer && record.isShown verbosity).map Record.line)

end Output

def respond (read : Reader) (arguments : List String) : Output :=
  match Request.ofArguments arguments with
  | .evaluate given => .ofRecords given.verbosity (transcript read given)
  | .help => ⟨0, helpText, ""⟩
  | .version => ⟨0, versionText, ""⟩
  | .misuse => ⟨2, "", misuseText⟩

theorem respond_of_evaluate {read : Reader} {arguments : List String} {given : Arguments}
    (h : Request.ofArguments arguments = .evaluate given) :
    respond read arguments = .ofRecords given.verbosity (transcript read given) := by
  rw [respond, h]

end Calculator.CommandLine
