import Calculator.Stacks.Run

/-!
# Evaluating an expression

An expression is checked for its length, then cut into tokens, then evaluated on
empty stacks.  The first of these that fails decides the error.
-/

namespace Calculator

/-- The length of `1 + 1`, below which no two operands can be joined. -/
def smallestLength : Nat := 5

def checkLength (expression : String) : Except EvalError Unit :=
  let trimmed := Text.trim expression.toList
  if trimmed.length < smallestLength then
    .error (.tooShort (String.ofList trimmed))
  else
    .ok ()

def conclusion (expression : String) : Except EvalError Float → Event
  | .ok value => .evaluated expression value
  | .error error => .rejected expression error

def evaluate (division : DivisionPolicy) (expression : String) : Traced Float :=
  Traced.concluding (conclusion expression) do
    Traced.ofExcept (checkLength expression)
    let lexemes ← tokenize expression
    Stacks.run division lexemes .empty

theorem result_evaluate (division : DivisionPolicy) (expression : String) :
    (evaluate division expression).result =
      (checkLength expression).bind fun _ =>
        (tokenize expression).result.bind fun lexemes =>
          (Stacks.run division lexemes .empty).result := by
  simp only [evaluate, Traced.result_concluding, Traced.result_bind, Traced.result_ofExcept]
  rfl

end Calculator
