import Calculator.Stacks.Step

/-!
# Runs on the stacks

A run pushes tokens until one fails, and then finishes: it reduces what is left,
and the one remaining operand is its value.
-/

namespace Calculator.Stacks

variable [Operator.Arithmetic]

def pushAll (division : DivisionPolicy) : List Lexeme → Stacks → Outcome
  | [], state => .accepted state
  | lexeme :: lexemes, state =>
      (push division lexeme state).andThen fun pushed =>
        .after (.consumed lexeme.token pushed)
          (pushAll division lexemes pushed)

/-! ## The value -/

def value (state : Stacks) : Except EvalError Float :=
  match state.pending, state.operands with
  | .openParen column _ :: _, _ => .error (.unbalancedParentheses column)
  | _, [value] => .ok value
  | _, [] => .error .noValue
  | _, operands => .error (.unjoined operands.length)

def finish (division : DivisionPolicy) (state : Stacks) : Traced Float :=
  let outcome := reduceGroup division state
  ⟨outcome.events, outcome.error?.elim outcome.state.value .error⟩

def run (division : DivisionPolicy) (lexemes : List Lexeme) (state : Stacks) : Traced Float :=
  let outcome := pushAll division lexemes state
  match outcome.error? with
  | some error => ⟨outcome.events, .error error⟩
  | none =>
      let last := finish division outcome.state
      ⟨outcome.events ++ last.events, last.result⟩

end Calculator.Stacks
