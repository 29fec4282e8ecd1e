import Calculator.Token
import Calculator.Error
import Calculator.Stacks.Basic
import Calculator.Text.Quoted

/-!
# Events of an evaluation

What an evaluation reports while it works, in the order in which it happens.
Each event has a level, and a verbosity shows the levels from some level up.
-/

namespace Calculator

/-! ## Levels -/

inductive Level where
  | trace
  | debug
  | info
  | warn
  deriving DecidableEq, Repr

namespace Level

/-- The name of the level in a field of five characters. -/
def label : Level → String
  | trace => "TRACE"
  | debug => "DEBUG"
  | info => " INFO"
  | warn => " WARN"

def verbosity : Level → Nat
  | trace => 2
  | debug | info => 1
  | warn => 0

end Level

/-! ## Events -/

structure Reduction where
  op : Operator
  column : Nat
  left : Float
  right : Float
  deriving DecidableEq, Repr

def Reduction.value (r : Reduction) : Float := r.op.apply r.left r.right

inductive Event where
  | tokenRead (token : Token) (column : Nat)
  | reduced (reduction : Reduction)
  | consumed (token : Token) (state : Stacks)
  | evaluated (expression : String) (value : Float)
  | rejected (expression : String) (error : EvalError)
  | demonstration
  | someRejected (failed total : Nat)
  deriving DecidableEq, Repr

namespace Event

def level : Event → Level
  | tokenRead _ _ | reduced _ | consumed _ _ => .trace
  | evaluated _ _ | rejected _ _ => .debug
  | demonstration => .info
  | someRejected _ _ => .warn

def reduction? : Event → Option Reduction
  | reduced r => some r
  | _ => none

def isShown (verbosity : Nat) (event : Event) : Bool :=
  event.level.verbosity ≤ verbosity

/-! ## Log lines -/

def number (x : Float) : String := Layout.logged.write x

def numbers (operands : List Float) : String :=
  "[" ++ ", ".intercalate (operands.reverse.map number) ++ "]"

def description : Event → String
  | tokenRead token column => s!"token token={token.text} column={column}"
  | reduced r =>
      s!"reduced op={r.op.symbol} left={number r.left} right={number r.right} value={number r.value}"
  | consumed token state =>
      s!"consumed token={token.text} operands={numbers state.operands} pending={state.pending.length}"
  | evaluated expression value =>
      s!"evaluated expression={Text.quoted expression} value={number value}"
  | rejected expression error =>
      s!"rejected expression={Text.quoted expression} error={error.message}"
  | demonstration => "no input given, running the demonstration expressions"
  | someRejected failed total =>
      s!"some expressions were rejected failed={failed} total={total}"

def line (event : Event) : String :=
  s!"{event.level.label} {event.description}"

end Event

end Calculator
