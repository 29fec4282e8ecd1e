import Mathlib.Data.List.Forall2
import Calculator.Proofs.Reaches

/-!
# Runs side by side

A step compares ranks, counts operands and tells the kinds of tokens apart, but values
and columns it only moves about.  So two runs on tokens of the same kinds go side by
side: a relation between the values and one between the columns that they start from
hold as well between the values and the columns that they leave or complain of.

Two things are asked of the relation between values.  An operator has to keep it, and
the division policy must not tell a value from one that it is related to.
-/

namespace Calculator

/-- What relates the values of one run to those of another, and the columns likewise. -/
structure Correspondence where
  value : Float → Float → Prop
  column : Nat → Nat → Prop

namespace Correspondence

variable (link : Correspondence)

/-! ## Related data -/

inductive Tokens : Token → Token → Prop
  | number {value other : Float} : link.value value other → Tokens (.number value) (.number other)
  | operator (op : Operator) : Tokens (.operator op) (.operator op)
  | openParen : Tokens .openParen .openParen
  | closeParen : Tokens .closeParen .closeParen

structure Lexemes (first second : Lexeme) : Prop where
  token : link.Tokens first.token second.token
  column : link.column first.column second.column

inductive Entries : Pending → Pending → Prop
  | operator (op : Operator) {column other : Nat} : link.column column other →
      Entries (.operator op column) (.operator op other)
  | openParen (depth : Nat) {column other : Nat} : link.column column other →
      Entries (.openParen column depth) (.openParen other depth)

structure States (first second : Stacks) : Prop where
  operands : List.Forall₂ link.value first.operands second.operands
  pending : List.Forall₂ link.Entries first.pending second.pending

/-- The errors are alike but for their columns, the one in the text about a group included. -/
inductive Errors : EvalError → EvalError → Prop
  | malformedToken (fragment : String) {column other : Nat} : link.column column other →
      Errors (.malformedToken fragment column) (.malformedToken fragment other)
  | insufficientOperands (symbol : Char) {column other : Nat} : link.column column other →
      Errors (.insufficientOperands symbol column) (.insufficientOperands symbol other)
  | unbalancedParentheses {column other : Nat} : link.column column other →
      Errors (.unbalancedParentheses column) (.unbalancedParentheses other)
  | divisionByZero {column other : Nat} : link.column column other →
      Errors (.divisionByZero column) (.divisionByZero other)
  | unjoinedGroup (count : Nat) {opened other : Nat} : link.column opened other →
      Errors (.unjoinedGroup opened count) (.unjoinedGroup other count)
  | unjoined (count : Nat) : Errors (.unjoined count) (.unjoined count)
  | noValue : Errors .noValue .noValue

structure Outcomes (first second : Outcome) : Prop where
  state : link.States first.state second.state
  error? : Option.Rel link.Errors first.error? second.error?

inductive Results : Except EvalError Float → Except EvalError Float → Prop
  | ok {value other : Float} : link.value value other → Results (.ok value) (.ok other)
  | error {error other : EvalError} :
      link.Errors error other → Results (.error error) (.error other)

structure Respected [Operator.Arithmetic] (division : DivisionPolicy) : Prop where
  apply : ∀ (op : Operator) {left left' right right' : Float}, link.value left left' →
    link.value right right' → link.value (op.apply left right) (op.apply left' right')
  refuses : ∀ (op : Operator) {right right' : Float}, link.value right right' →
    Stacks.refusesDivision division op right = Stacks.refusesDivision division op right'

/-! ## Outcomes -/

variable {link}

theorem outcomes_accepted {state state' : Stacks} (h : link.States state state') :
    link.Outcomes (.accepted state) (.accepted state') :=
  ⟨h, .none⟩

theorem outcomes_failed {state state' : Stacks} {error error' : EvalError}
    (hstate : link.States state state') (herror : link.Errors error error') :
    link.Outcomes (.failed state error) (.failed state' error') :=
  ⟨hstate, .some herror⟩

theorem Outcomes.after {first second : Outcome} (h : link.Outcomes first second)
    (event event' : Event) : link.Outcomes (.after event first) (.after event' second) :=
  ⟨h.state, h.error?⟩

theorem Outcomes.andThen {first second : Outcome} {next next' : Stacks → Outcome}
    (h : link.Outcomes first second)
    (hnext : ∀ state state', link.States state state' →
      link.Outcomes (next state) (next' state')) :
    link.Outcomes (first.andThen next) (second.andThen next') := by
  cases first with
  | mk state events error? =>
      cases second with
      | mk state' events' error?' =>
          cases h.error? with
          | some herror => exact ⟨h.state, .some herror⟩
          | none =>
              have hlater := hnext state state' h.state
              exact ⟨hlater.state, hlater.error?⟩

/-! ## Steps -/

theorem groupFloor_eq {pending pending' : List Pending}
    (h : List.Forall₂ link.Entries pending pending') :
    Stacks.groupFloor pending = Stacks.groupFloor pending' := by
  induction h with
  | nil => rfl
  | cons hentry _ ih =>
      cases hentry with
      | operator op _ => exact ih
      | openParen depth _ => rfl

section

variable [Operator.Arithmetic] {division : DivisionPolicy}

theorem Respected.reduce (h : link.Respected division) (op : Operator) {column column' : Nat}
    {operands operands' : List Float} {below below' : List Pending}
    (hcolumn : link.column column column') (hoperands : List.Forall₂ link.value operands operands')
    (hbelow : List.Forall₂ link.Entries below below') :
    link.Outcomes (Stacks.reduce division op column operands below)
      (Stacks.reduce division op column' operands' below') := by
  have hmissing : link.Errors (.insufficientOperands op.symbol column)
      (.insufficientOperands op.symbol column') := .insufficientOperands op.symbol hcolumn
  unfold Stacks.reduce
  rw [hoperands.length_eq, groupFloor_eq hbelow]
  split
  · exact outcomes_failed ⟨hoperands, hbelow⟩ hmissing
  · cases hoperands with
    | nil => exact outcomes_failed ⟨.nil, hbelow⟩ hmissing
    | cons hright hothers =>
        cases hothers with
        | nil => exact outcomes_failed ⟨.nil, hbelow⟩ hmissing
        | cons hleft hrest =>
            dsimp only
            rw [h.refuses op hright]
            split
            · exact outcomes_failed ⟨hrest, hbelow⟩ (.divisionByZero hcolumn)
            · have hvalue := h.apply op hleft hright
              exact (outcomes_accepted ⟨.cons hvalue hrest, hbelow⟩).after _ _

theorem Respected.reduceWhile (h : link.Respected division) (ready : Operator → Bool)
    {operands operands' : List Float} {pending pending' : List Pending}
    (hoperands : List.Forall₂ link.value operands operands')
    (hpending : List.Forall₂ link.Entries pending pending') :
    link.Outcomes (Stacks.reduceWhile division ready operands pending)
      (Stacks.reduceWhile division ready operands' pending') := by
  induction hpending generalizing operands operands' with
  | nil => exact outcomes_accepted ⟨hoperands, .nil⟩
  | cons hentry hbelow ih =>
      cases hentry with
      | openParen depth hcolumn =>
          exact outcomes_accepted ⟨hoperands, .cons (.openParen depth hcolumn) hbelow⟩
      | operator op hcolumn =>
          cases hready : ready op with
          | false =>
              rw [Stacks.reduceWhile_waiting hready, Stacks.reduceWhile_waiting hready]
              exact outcomes_accepted ⟨hoperands, .cons (.operator op hcolumn) hbelow⟩
          | true =>
              rw [Stacks.reduceWhile_ready hready, Stacks.reduceWhile_ready hready]
              refine (h.reduce op hcolumn hoperands hbelow).andThen ?_
              intro state state' hstate
              exact ih hstate.operands

omit [Operator.Arithmetic] in
theorem outcomes_leaveGroup {column column' : Nat} {state state' : Stacks}
    (hcolumn : link.column column column') (h : link.States state state') :
    link.Outcomes (Stacks.leaveGroup column state) (Stacks.leaveGroup column' state') := by
  cases state with
  | mk operands pending =>
      cases state' with
      | mk operands' pending' =>
          cases h.pending with
          | nil => exact outcomes_failed h (.unbalancedParentheses hcolumn)
          | @cons entry entry' below below' hentry hbelow =>
              cases hentry with
              | operator op _ => exact outcomes_failed h (.unbalancedParentheses hcolumn)
              | openParen depth hopened =>
                  have houtside : link.States ⟨operands, below⟩ ⟨operands', below'⟩ :=
                    ⟨h.operands, hbelow⟩
                  unfold Stacks.leaveGroup
                  dsimp only
                  rw [h.operands.length_eq]
                  generalize operands'.length - depth = count
                  match count with
                  | 0 => exact outcomes_failed houtside (.insufficientOperands ')' hcolumn)
                  | 1 => exact outcomes_accepted houtside
                  | _ + 2 => exact outcomes_failed houtside (.unjoinedGroup _ hopened)

theorem Respected.push (h : link.Respected division) {lexeme lexeme' : Lexeme}
    {state state' : Stacks} (hlexeme : link.Lexemes lexeme lexeme')
    (hstate : link.States state state') :
    link.Outcomes (Stacks.push division lexeme state) (Stacks.push division lexeme' state') := by
  cases lexeme with
  | mk token column =>
      cases lexeme' with
      | mk token' column' =>
          have hreduce (ready : Operator → Bool) :=
            h.reduceWhile ready hstate.operands hstate.pending
          cases hlexeme.token with
          | number hvalue =>
              exact outcomes_accepted ⟨.cons hvalue hstate.operands, hstate.pending⟩
          | operator op =>
              unfold Stacks.push Stacks.pushOperator
              refine (hreduce (·.reducesBefore op)).andThen ?_
              intro reduced reduced' hreduced
              have hentry : link.Entries (.operator op column) (.operator op column') :=
                .operator op hlexeme.column
              exact outcomes_accepted ⟨hreduced.operands, .cons hentry hreduced.pending⟩
          | openParen =>
              have hentry := Entries.openParen state.operands.length hlexeme.column
              refine outcomes_accepted ⟨hstate.operands, .cons ?_ hstate.pending⟩
              rwa [← hstate.operands.length_eq]
          | closeParen =>
              refine (hreduce fun _ => true).andThen ?_
              intro reduced reduced' hreduced
              exact outcomes_leaveGroup hlexeme.column hreduced

/-! ## Runs -/

theorem Respected.pushAll (h : link.Respected division) {lexemes lexemes' : List Lexeme}
    {state state' : Stacks} (hlexemes : List.Forall₂ link.Lexemes lexemes lexemes')
    (hstate : link.States state state') :
    link.Outcomes (Stacks.pushAll division lexemes state)
      (Stacks.pushAll division lexemes' state') := by
  induction hlexemes generalizing state state' with
  | nil => exact outcomes_accepted hstate
  | cons hlexeme _ ih =>
      refine (h.push hlexeme hstate).andThen ?_
      intro pushed pushed' hpushed
      exact (ih hpushed).after _ _

omit [Operator.Arithmetic] in
theorem value_operator (op : Operator) (column : Nat) (below : List Pending)
    (operands : List Float) :
    Stacks.value ⟨operands, .operator op column :: below⟩ = Stacks.value ⟨operands, []⟩ := by
  match operands with
  | [] => rfl
  | [_] => rfl
  | _ :: _ :: _ => rfl

omit [Operator.Arithmetic] in
theorem results_value {state state' : Stacks} (h : link.States state state') :
    link.Results state.value state'.value := by
  cases state with
  | mk operands pending =>
      cases state' with
      | mk operands' pending' =>
          have hjoined : link.Results (Stacks.value ⟨operands, []⟩)
              (Stacks.value ⟨operands', []⟩) := by
            cases h.operands with
            | nil => exact .error .noValue
            | cons hvalue hothers =>
                cases hothers with
                | nil => exact .ok hvalue
                | @cons _ _ rest rest' _ hrest =>
                    have hcount : link.Errors (.unjoined (rest.length + 2))
                        (.unjoined (rest'.length + 2)) := by
                      rw [hrest.length_eq]
                      exact .unjoined _
                    exact .error hcount
          cases h.pending with
          | nil => exact hjoined
          | cons hentry hbelow =>
              cases hentry with
              | operator op _ =>
                  rw [value_operator, value_operator]
                  exact hjoined
              | openParen depth hopened => exact .error (.unbalancedParentheses hopened)

omit [Operator.Arithmetic] in
theorem Outcomes.conclude {first second : Outcome} (h : link.Outcomes first second) :
    link.Results (Stacks.conclude first).result (Stacks.conclude second).result := by
  cases first with
  | mk state events error? =>
      cases second with
      | mk state' events' error?' =>
          cases h.error? with
          | some herror => exact .error herror
          | none => exact results_value h.state

theorem Respected.run (h : link.Respected division) {lexemes lexemes' : List Lexeme}
    {state state' : Stacks} (hlexemes : List.Forall₂ link.Lexemes lexemes lexemes')
    (hstate : link.States state state') :
    link.Results (Stacks.run division lexemes state).result
      (Stacks.run division lexemes' state').result := by
  rw [Stacks.run_eq_conclude, Stacks.run_eq_conclude]
  refine ((h.pushAll hlexemes hstate).andThen ?_).conclude
  intro pushed pushed' hpushed
  exact h.reduceWhile _ hpushed.operands hpushed.pending

end

end Correspondence

end Calculator
