import Calculator.Lexeme

/-!
# Steps on the stacks

A reduction takes the top operator and the two top operands of its group and puts
their value back.  An operator that arrives, or a group that closes, first makes
the reductions that are due.

A step that fails is not undone.  Its outcome holds the stacks as they were left,
so that a caller may go on from there.
-/

namespace Calculator

/-- What a division by zero does. -/
inductive DivisionPolicy where
  | ieee
  | reject
  deriving DecidableEq, Repr

/-! ## Outcomes -/

/-- The stacks after a step, the events on the way, and the error that ended the step early. -/
structure Outcome where
  state : Stacks
  events : List Event
  error? : Option EvalError
  deriving DecidableEq, Repr

namespace Outcome

def accepted (state : Stacks) : Outcome := ⟨state, [], none⟩

def failed (state : Stacks) (error : EvalError) : Outcome := ⟨state, [], some error⟩

def after (event : Event) (outcome : Outcome) : Outcome :=
  { outcome with events := event :: outcome.events }

def andThen (first : Outcome) (next : Stacks → Outcome) : Outcome :=
  match first.error? with
  | some _ => first
  | none =>
      let second := next first.state
      { second with events := first.events ++ second.events }

@[simp] theorem andThen_accepted (state : Stacks) (next : Stacks → Outcome) :
    (accepted state).andThen next = next state := rfl

@[simp] theorem andThen_failed (state : Stacks) (error : EvalError) (next : Stacks → Outcome) :
    (failed state error).andThen next = failed state error := rfl

end Outcome

namespace Stacks

/-! ## Reductions -/

variable [Operator.Arithmetic]

def refusesDivision (division : DivisionPolicy) (op : Operator) (right : Float) : Bool :=
  division = .reject && op = .div && right == 0

/--
Apply `op`, just taken off the pending entries `below`.  The operands are taken
only if there are two within the group, and are lost when the division is refused.
-/
def reduce (division : DivisionPolicy) (op : Operator) (column : Nat) (operands : List Float)
    (below : List Pending) : Outcome :=
  if operands.length < groupFloor below + 2 then
    .failed ⟨operands, below⟩ (.insufficientOperands op.symbol column)
  else
    match operands with
    | right :: left :: rest =>
        if refusesDivision division op right then
          .failed ⟨rest, below⟩ (.divisionByZero column)
        else
          .after (.reduced ⟨op, column, left, right⟩)
            (.accepted ⟨op.apply left right :: rest, below⟩)
    | _ => .failed ⟨[], below⟩ (.insufficientOperands op.symbol column)

def reduceTop (division : DivisionPolicy) (state : Stacks) : Outcome :=
  match state.pending with
  | .operator op column :: below => reduce division op column state.operands below
  | pending => .failed { state with pending := pending.tail } .nothingToReduce

def reduceWhile (division : DivisionPolicy) (ready : Operator → Bool) (operands : List Float) :
    List Pending → Outcome
  | .operator op column :: below =>
      if ready op then
        (reduceTop division ⟨operands, .operator op column :: below⟩).andThen fun state =>
          reduceWhile division ready state.operands below
      else
        .accepted ⟨operands, .operator op column :: below⟩
  | pending => .accepted ⟨operands, pending⟩

theorem reduce_eq (division : DivisionPolicy) (op : Operator) (column : Nat)
    (operands : List Float) (below : List Pending) :
    reduce division op column operands below =
      match pair? (groupFloor below) operands with
      | none => .failed ⟨operands, below⟩ (.insufficientOperands op.symbol column)
      | some (left, right, rest) =>
          if refusesDivision division op right then
            .failed ⟨rest, below⟩ (.divisionByZero column)
          else
            .after (.reduced ⟨op, column, left, right⟩)
              (.accepted ⟨op.apply left right :: rest, below⟩) := by
  unfold reduce
  by_cases hfew : operands.length < groupFloor below + 2
  · rw [if_pos hfew, pair?_eq_none_iff.mpr hfew]
  · rw [if_neg hfew]
    match operands with
    | right :: left :: rest =>
        have hfloor : groupFloor below ≤ rest.length := by simp at hfew; omega
        rw [pair?_eq_some_iff.mpr ⟨rfl, hfloor⟩]
    | [_] => simp at hfew
    | [] => simp at hfew

@[simp] theorem reduceTop_operator (division : DivisionPolicy) (op : Operator) (column : Nat)
    (operands : List Float) (below : List Pending) :
    reduceTop division ⟨operands, .operator op column :: below⟩ =
      reduce division op column operands below := rfl

def reduceGroup (division : DivisionPolicy) (state : Stacks) : Outcome :=
  reduceWhile division (fun _ => true) state.operands state.pending

/-! ## Tokens -/

def pushOperator (division : DivisionPolicy) (op : Operator) (column : Nat) (state : Stacks) :
    Outcome :=
  (reduceWhile division (·.reducesBefore op) state.operands state.pending).andThen
    fun reduced => .accepted { reduced with pending := .operator op column :: reduced.pending }

def leaveGroup (column : Nat) (state : Stacks) : Outcome :=
  match state.pending with
  | .openParen opened depth :: below =>
      let outside : Stacks := { state with pending := below }
      match state.operands.length - depth with
      | 0 => .failed outside (.insufficientOperands ')' column)
      | 1 => .accepted outside
      | count => .failed outside (.unjoinedGroup opened count)
  | _ => .failed state (.unbalancedParentheses column)

def closeGroup (division : DivisionPolicy) (column : Nat) (state : Stacks) : Outcome :=
  (reduceGroup division state).andThen (leaveGroup column)

def push (division : DivisionPolicy) (lexeme : Lexeme) (state : Stacks) : Outcome :=
  match lexeme.token with
  | .number value => .accepted (pushNumber value state)
  | .operator op => pushOperator division op lexeme.column state
  | .openParen => .accepted (openGroup lexeme.column state)
  | .closeParen => closeGroup division lexeme.column state

end Stacks

end Calculator
