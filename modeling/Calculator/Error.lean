/-!
# Errors of an evaluation

Every way in which an expression is refused.  An error that points at a token
carries the column where that token starts; an expression whose tokens are all
well placed but leave no value, or several, is described in words instead.
-/

namespace Calculator

inductive EvalError where
  | malformedToken (fragment : String) (column : Nat)
  /-- An empty group is reported with the symbol `)`. -/
  | insufficientOperands (symbol : Char) (column : Nat)
  | unbalancedParentheses (column : Nat)
  | malformedExpression (details : String)
  | divisionByZero (column : Nat)
  deriving DecidableEq, Repr

namespace EvalError

/-! ## Malformed expressions -/

def tooShort (expression : String) : EvalError :=
  malformedExpression s!"'{expression}' is shorter than the smallest valid expression"

def nothingToReduce : EvalError :=
  malformedExpression "nothing to reduce"

def noValue : EvalError :=
  malformedExpression "no value to compute"

def unjoined (count : Nat) : EvalError :=
  malformedExpression s!"{count} values are not joined by an operator"

def unjoinedGroup (opened count : Nat) : EvalError :=
  malformedExpression s!"group opened at column {opened} holds {count} values without an operator"

/-! ## Views -/

def kind : EvalError → String
  | malformedToken _ _ => "malformed-token"
  | insufficientOperands _ _ => "insufficient-operands"
  | unbalancedParentheses _ => "unbalanced-parentheses"
  | malformedExpression _ => "malformed-expression"
  | divisionByZero _ => "division-by-zero"

def column? : EvalError → Option Nat
  | malformedToken _ column => some column
  | insufficientOperands _ column => some column
  | unbalancedParentheses column => some column
  | malformedExpression _ => none
  | divisionByZero column => some column

def located (column : Nat) (text : String) : String :=
  s!"Error at column {column}: {text}."

def message : EvalError → String
  | malformedToken fragment column =>
      located column s!"'{fragment}' is not a number, operator or parenthesis"
  | insufficientOperands symbol column =>
      if symbol = ')' then located column "Empty parentheses"
      else located column s!"Operator '{symbol}' is missing an operand"
  | unbalancedParentheses column => located column "Unbalanced parentheses"
  | malformedExpression details => s!"Malformed expression: {details}."
  | divisionByZero column => located column "Division by zero"

end EvalError

end Calculator
