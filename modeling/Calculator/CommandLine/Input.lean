import Calculator.Text.Blank

/-!
# Expressions from files

A file holds one expression a line.  Lines are trimmed of blanks; empty lines and
lines that start with `#` are left out.  The first file that cannot be read is
reported, and then no expression is taken from any file.
-/

namespace Calculator.CommandLine

/-! ## Reading -/

inductive ReadFailure where
  | system (code : Nat) (reason : String)
  /-- The bytes are not UTF-8. -/
  | notText
  deriving DecidableEq, Repr

namespace ReadFailure

def missing : ReadFailure := system 2 "No such file or directory"

def directory : ReadFailure := system 21 "Is a directory"

def cause : ReadFailure → String
  | system code reason => s!"{reason} (os error {code})"
  | notText => "stream did not contain valid UTF-8"

end ReadFailure

/-- The text of each path, or why it cannot be had. -/
abbrev Reader := String → Except ReadFailure String

def textOfBytes (bytes : ByteArray) : Except ReadFailure String :=
  match String.fromUTF8? bytes with
  | some text => .ok text
  | none => .error .notText

/-! ## Lines -/

def holdsExpression : List Char → Bool
  | [] => false
  | c :: _ => c != '#'

def expressionLines (text : String) : List String :=
  (((text.toList.splitOnP (· == '\n')).map Text.trim).filter holdsExpression).map String.ofList

/-! ## Files -/

def expressionsOf (read : Reader) : List String → Except (String × ReadFailure) (List String)
  | [] => .ok []
  | path :: paths =>
      match read path with
      | .error failure => .error (path, failure)
      | .ok text => (expressionsOf read paths).map (expressionLines text ++ ·)

end Calculator.CommandLine
