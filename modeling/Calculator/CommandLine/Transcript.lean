import Calculator.Evaluate
import Calculator.CommandLine.Arguments
import Calculator.CommandLine.Input

/-!
# Transcript of a run

A run is a list of records in the order in which they arise: values, refusals,
events of the log.  Both output streams, the exit code and the effect of the
verbosity are views of that list, so the log never changes a result.
-/

namespace Calculator.CommandLine

/-! ## Records -/

inductive Record where
  | answer (expression : String) (value : Float)
  | refusal (expression : String) (error : EvalError)
  | unreadable (path : String) (failure : ReadFailure)
  | log (event : Event)
  deriving DecidableEq, Repr

namespace Record

def line : Record → String
  | answer expression value => s!"{expression} = {Layout.plain.write value}"
  | refusal expression error => s!"{expression}: {error.message}"
  | unreadable path failure =>
      s!"Failed to read the input file '{path}'. Perhaps this file does not exist? ({failure.cause})"
  | log event => event.line

def isAnswer : Record → Bool
  | answer _ _ => true
  | _ => false

def isRefusal : Record → Bool
  | refusal _ _ => true
  | _ => false

def isFailure : Record → Bool
  | refusal _ _ | unreadable _ _ => true
  | _ => false

def isShown (verbosity : Nat) : Record → Bool
  | log event => event.isShown verbosity
  | _ => true

def ofResult (expression : String) : Except EvalError Float → Record
  | .ok value => answer expression value
  | .error error => refusal expression error

end Record

/-! ## Runs -/

def expressionRecords (division : DivisionPolicy) (expression : String) : List Record :=
  let outcome := evaluate division expression
  outcome.events.map .log ++ [.ofResult expression outcome.result]

def summary (failed total : Nat) : List Record :=
  if failed = 0 then [] else [.log (.someRejected failed total)]

def batch (division : DivisionPolicy) (expressions : List String) : List Record :=
  let records := expressions.flatMap (expressionRecords division)
  records ++ summary (records.countP Record.isRefusal) expressions.length

def demonstrationExpressions : List String :=
  ["5 + 2 - ( 2 * 3 ) / ( 1 + 7 * 2 )", "5 + 2 - ( 2 * 3 ) / ( ( 1 + 7 ) * 2 )"]

def Arguments.division (arguments : Arguments) : DivisionPolicy :=
  if arguments.strictDivision then .reject else .ieee

def transcript (read : Reader) (arguments : Arguments) : List Record :=
  if arguments.inputs = [] then
    .log .demonstration :: batch arguments.division demonstrationExpressions
  else if arguments.readsFiles then
    match expressionsOf read arguments.inputs with
    | .ok expressions => batch arguments.division expressions
    | .error (path, failure) => [.unreadable path failure]
  else
    batch arguments.division arguments.inputs

end Calculator.CommandLine
