import Calculator.Proofs.Reaches

/-!
# Refused divisions

The two division policies make the same steps up to the first division by zero.
There the lenient one goes on with a quotient that is infinite or not a number,
and the strict one ends with an error that names the column of the division.
-/

namespace Calculator

def Reduction.dividesByZero (r : Reduction) : Bool :=
  r.op = .div && r.right == 0

namespace Outcome

/-- What is left of `lenient` when its first division by zero is refused. -/
def Restricts (lenient strict : Outcome) : Prop :=
  match lenient.reductions.find? Reduction.dividesByZero with
  | none => strict = lenient
  | some r => strict.error? = some (.divisionByZero r.column)

theorem Restricts.eq_of_none {lenient strict : Outcome} (h : lenient.Restricts strict)
    (hnone : lenient.reductions.find? Reduction.dividesByZero = none) : strict = lenient := by
  simpa [Restricts, hnone] using h

theorem Restricts.error_of_some {lenient strict : Outcome} {r : Reduction}
    (h : lenient.Restricts strict)
    (hsome : lenient.reductions.find? Reduction.dividesByZero = some r) :
    strict.error? = some (.divisionByZero r.column) := by
  simpa [Restricts, hsome] using h

theorem restricts_of_no_reduction {outcome : Outcome} (h : outcome.reductions = []) :
    outcome.Restricts outcome := by
  simp [Restricts, h]

theorem Restricts.andThen {lenient strict : Outcome} {next strictNext : Stacks → Outcome}
    (hfirst : lenient.Restricts strict) (hnext : ∀ state, (next state).Restricts (strictNext state)) :
    (lenient.andThen next).Restricts (strict.andThen strictNext) := by
  cases hfind : lenient.reductions.find? Reduction.dividesByZero with
  | some r =>
      have herror := hfirst.error_of_some hfind
      have hall : (lenient.andThen next).reductions.find? Reduction.dividesByZero = some r := by
        cases hlenient : lenient.error? with
        | some error => rwa [andThen_of_error hlenient]
        | none => simp [reductions_andThen_of_success hlenient, hfind]
      simpa [Restricts, hall, andThen_of_error herror] using herror
  | none =>
      obtain rfl := hfirst.eq_of_none hfind
      cases hstrict : strict.error? with
      | some error =>
          simp [Restricts, andThen_of_error hstrict, hfind]
      | none =>
          have hall : (strict.andThen next).reductions.find? Reduction.dividesByZero =
              (next strict.state).reductions.find? Reduction.dividesByZero := by
            rw [reductions_andThen_of_success hstrict, List.find?_append, hfind, Option.none_or]
          cases hlater : (next strict.state).reductions.find? Reduction.dividesByZero with
          | none =>
              have hsame : strict.andThen strictNext = strict.andThen next := by
                simp only [Outcome.andThen, hstrict, (hnext strict.state).eq_of_none hlater]
              simp [Restricts, hall, hlater, hsame]
          | some r =>
              have herror := (hnext strict.state).error_of_some hlater
              simpa [Restricts, hall, hlater, error?_andThen_of_success hstrict] using herror

theorem Restricts.after_consumed {lenient strict : Outcome} (h : lenient.Restricts strict)
    (token : Token) (state : Stacks) :
    (after (.consumed token state) lenient).Restricts (after (.consumed token state) strict) := by
  cases hfind : lenient.reductions.find? Reduction.dividesByZero with
  | none => simp [Restricts, hfind, h.eq_of_none hfind]
  | some r => simpa [Restricts, hfind] using h.error_of_some hfind

end Outcome

namespace Stacks

open Outcome

theorem refusesDivision_ieee (op : Operator) (right : Float) :
    refusesDivision .ieee op right = false := rfl

theorem refusesDivision_reject (op : Operator) (column : Nat) (left right : Float) :
    refusesDivision .reject op right = Reduction.dividesByZero ⟨op, column, left, right⟩ := rfl

variable [Operator.Arithmetic]

/-! ## Step by step -/

theorem restricts_reduce (op : Operator) (column : Nat) (operands : List Float)
    (below : List Pending) :
    (reduce .ieee op column operands below).Restricts
      (reduce .reject op column operands below) := by
  rw [reduce_eq, reduce_eq]
  cases pair? (groupFloor below) operands with
  | none => exact restricts_of_no_reduction rfl
  | some taken =>
      obtain ⟨left, right, rest⟩ := taken
      simp only [refusesDivision_ieee, refusesDivision_reject op column left right]
      by_cases hzero : Reduction.dividesByZero ⟨op, column, left, right⟩ = true
      · simp [Restricts, hzero, failed]
      · simp [Restricts, hzero]

theorem restricts_reduceWhile (ready : Operator → Bool) (operands : List Float)
    (pending : List Pending) :
    (reduceWhile .ieee ready operands pending).Restricts
      (reduceWhile .reject ready operands pending) := by
  induction pending generalizing operands with
  | nil => exact restricts_of_no_reduction rfl
  | cons entry below ih =>
      cases entry with
      | openParen column depth => exact restricts_of_no_reduction rfl
      | operator op column =>
          cases hready : ready op with
          | true =>
              rw [reduceWhile_ready hready, reduceWhile_ready hready]
              exact (restricts_reduce op column operands below).andThen fun state =>
                ih state.operands
          | false =>
              rw [reduceWhile_waiting hready, reduceWhile_waiting hready]
              exact restricts_of_no_reduction rfl

omit [Operator.Arithmetic] in
theorem restricts_leaveGroup (column : Nat) (state : Stacks) :
    (leaveGroup column state).Restricts (leaveGroup column state) :=
  restricts_of_no_reduction (reductions_leaveGroup column state)

theorem restricts_push (lexeme : Lexeme) (state : Stacks) :
    (push .ieee lexeme state).Restricts (push .reject lexeme state) := by
  obtain ⟨token, column⟩ := lexeme
  cases token with
  | number value => exact restricts_of_no_reduction rfl
  | operator op =>
      exact (restricts_reduceWhile _ _ _).andThen fun _ => restricts_of_no_reduction rfl
  | openParen => exact restricts_of_no_reduction rfl
  | closeParen => exact (restricts_reduceWhile _ _ _).andThen (restricts_leaveGroup column)

theorem restricts_pushAll (lexemes : List Lexeme) (state : Stacks) :
    (pushAll .ieee lexemes state).Restricts (pushAll .reject lexemes state) := by
  induction lexemes generalizing state with
  | nil => exact restricts_of_no_reduction rfl
  | cons lexeme lexemes ih =>
      exact (restricts_push lexeme state).andThen fun pushed =>
        (ih pushed).after_consumed lexeme.token pushed

/-! ## Whole runs -/

theorem restricts_run_steps (lexemes : List Lexeme) (state : Stacks) :
    ((pushAll .ieee lexemes state).andThen (reduceGroup .ieee)).Restricts
      ((pushAll .reject lexemes state).andThen (reduceGroup .reject)) :=
  (restricts_pushAll lexemes state).andThen fun pushed =>
    restricts_reduceWhile _ pushed.operands pushed.pending

theorem run_reject_of_none {lexemes : List Lexeme} {state : Stacks}
    (h : (run .ieee lexemes state).reductions.find? Reduction.dividesByZero = none) :
    run .reject lexemes state = run .ieee lexemes state := by
  rw [run_eq_conclude] at h
  rw [run_eq_conclude, run_eq_conclude, (restricts_run_steps lexemes state).eq_of_none h]

theorem run_reject_of_some {lexemes : List Lexeme} {state : Stacks} {r : Reduction}
    (h : (run .ieee lexemes state).reductions.find? Reduction.dividesByZero = some r) :
    (run .reject lexemes state).result = .error (.divisionByZero r.column) := by
  rw [run_eq_conclude] at h
  rw [run_eq_conclude, conclude, (restricts_run_steps lexemes state).error_of_some h]
  rfl

theorem run_ieee_of_run_ok {division : DivisionPolicy} {lexemes : List Lexeme} {state : Stacks}
    {v : Float} (h : (run division lexemes state).result = .ok v) :
    run division lexemes state = run .ieee lexemes state := by
  cases division with
  | ieee => rfl
  | reject =>
      cases hfind : (run .ieee lexemes state).reductions.find? Reduction.dividesByZero with
      | none => exact run_reject_of_none hfind
      | some r =>
          rw [run_reject_of_some hfind] at h
          contradiction

/--
What the strict policy makes of a run, in terms of the lenient one.  It refuses the first
reduction that divides by zero, whatever the lenient run ends in, and without such a
reduction the two runs end alike.
-/
theorem run_reject_result (lexemes : List Lexeme) (state : Stacks) :
    (run .reject lexemes state).result =
      match (run .ieee lexemes state).reductions.find? Reduction.dividesByZero with
      | none => (run .ieee lexemes state).result
      | some r => .error (.divisionByZero r.column) := by
  cases hfind : (run .ieee lexemes state).reductions.find? Reduction.dividesByZero with
  | none => rw [run_reject_of_none hfind]
  | some r => exact run_reject_of_some hfind

end Stacks

end Calculator
