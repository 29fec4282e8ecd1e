import Calculator.Proofs.Group
import Calculator.Proofs.Stretches

/-!
# Closing a group

A closing parenthesis does to its group what finishing does to the content of the group when
that stands on stacks of its own: the same reductions, with the same errors, and the same
count of what is left.  Only the words differ for a group that holds no value or several, and
a value is left for the outside.
-/

namespace Calculator

def EvalError.isOfReduction : EvalError → Bool
  | insufficientOperands _ _ | divisionByZero _ => true
  | _ => false

namespace Stacks

open Outcome

/--
How closing a group ends, by how finishing its content on its own does; `outer` and `base`
are what is below the group.
-/
inductive ClosesAs (opened closed : Nat) (outer : List Float) (base : List Pending) :
    Except EvalError Float → Option EvalError → Stacks → Prop
  | value {v : Float} : ClosesAs opened closed outer base (.ok v) none ⟨v :: outer, base⟩
  | refused {error : EvalError} {state : Stacks} : error.isOfReduction →
      ClosesAs opened closed outer base (.error error) (some error) state
  | noValue {state : Stacks} : ClosesAs opened closed outer base (.error .noValue)
      (some (.insufficientOperands ')' closed)) state
  | unjoined {count : Nat} {state : Stacks} : ClosesAs opened closed outer base
      (.error (.unjoined count)) (some (.unjoinedGroup opened count)) state

namespace ClosesAs

variable {opened closed : Nat} {outer : List Float} {base : List Pending}
  {alone : Except EvalError Float} {error? : Option EvalError} {state : Stacks}

theorem of_ok (h : ClosesAs opened closed outer base alone error? state) {v : Float}
    (halone : alone = .ok v) : error? = none ∧ state = ⟨v :: outer, base⟩ := by
  cases h with
  | value =>
      rw [Except.ok.inj halone]
      exact ⟨rfl, rfl⟩
  | refused _ | noValue | unjoined => contradiction

theorem of_reduction (h : ClosesAs opened closed outer base alone error? state)
    {error : EvalError} (hreduction : error.isOfReduction) (halone : alone = .error error) :
    error? = some error := by
  cases h with
  | value => contradiction
  | refused _ => rw [Except.error.inj halone]
  | noValue | unjoined =>
      rw [← Except.error.inj halone] at hreduction
      contradiction

theorem of_noValue (h : ClosesAs opened closed outer base alone error? state)
    (halone : alone = .error .noValue) : error? = some (.insufficientOperands ')' closed) := by
  cases h with
  | value => contradiction
  | refused hreduction =>
      rw [Except.error.inj halone] at hreduction
      contradiction
  | noValue => rfl
  | @unjoined count _ =>
      have hinitial := EvalError.initial?_noValue
      exact absurd (Except.error.inj halone).symm
        (EvalError.ne_unjoined_of_initial? hinitial rfl count)

theorem of_unjoined (h : ClosesAs opened closed outer base alone error? state) {count : Nat}
    (halone : alone = .error (.unjoined count)) :
    error? = some (.unjoinedGroup opened count) := by
  cases h with
  | value => contradiction
  | refused hreduction =>
      rw [Except.error.inj halone] at hreduction
      contradiction
  | noValue =>
      have hinitial := EvalError.initial?_noValue
      exact absurd (Except.error.inj halone)
        (EvalError.ne_unjoined_of_initial? hinitial rfl count)
  | unjoined => rw [EvalError.unjoined_inj (Except.error.inj halone)]

end ClosesAs

theorem not_isOfReduction_of_value {operands : List Float} {error : EvalError}
    (h : value ⟨operands, []⟩ = .error error) : error.isOfReduction = false := by
  match operands, h with
  | [], h => rw [← Except.error.inj h]; rfl
  | [_], h => contradiction
  | _ :: _ :: _, h => rw [← Except.error.inj h]; rfl

theorem Halts.isOfReduction {division : DivisionPolicy} {ready : Operator → Bool}
    {operands : List Float} {pending : List Pending} {error : EvalError} {state : Stacks}
    (h : Halts division ready operands pending (some error) state) :
    error.isOfReduction = true := by
  cases h with
  | lacking _ => rfl
  | refused _ _ _ _ => rfl

theorem map_raise_row (height : Nat) (operators : List (Operator × Nat)) :
    (row operators).map (Pending.raise height) = row operators := by
  induction operators with
  | nil => rfl
  | cons first operators ih => exact congrArg _ ih

theorem onto_openGroup_row (opened : Nat) (outer inner : List Float) (base : List Pending)
    (operators : List (Operator × Nat)) :
    onto (openGroup opened ⟨outer, base⟩) ⟨inner, row operators⟩ =
      ⟨inner ++ outer, row operators ++ .openParen opened outer.length :: base⟩ := by
  simp only [onto, openGroup, map_raise_row]

theorem closesAs_leaveGroup (opened closed : Nat) (outer inner : List Float)
    (base : List Pending) :
    ClosesAs opened closed outer base (value ⟨inner, []⟩)
      (leaveGroup closed (onto (openGroup opened ⟨outer, base⟩) ⟨inner, []⟩)).error?
      (leaveGroup closed (onto (openGroup opened ⟨outer, base⟩) ⟨inner, []⟩)).state := by
  have hcount : (inner ++ outer).length - outer.length = inner.length := by
    rw [List.length_append, Nat.add_sub_cancel]
  have hstate : onto (openGroup opened ⟨outer, base⟩) ⟨inner, []⟩ =
      ⟨inner ++ outer, .openParen opened outer.length :: base⟩ := rfl
  rw [hstate]
  unfold leaveGroup
  dsimp only
  rw [hcount]
  match inner with
  | [] => exact .noValue
  | [v] => exact .value
  | _ :: _ :: _ => exact .unjoined

section

variable [Operator.Arithmetic]

theorem reduceGroup_row (division : DivisionPolicy) (operands : List Float)
    (operators : List (Operator × Nat)) :
    (∃ error, (reduceGroup division ⟨operands, row operators⟩).error? = some error ∧
        error.isOfReduction = true) ∨
      (reduceGroup division ⟨operands, row operators⟩).error? = none ∧
        ∃ left, (reduceGroup division ⟨operands, row operators⟩).state = ⟨left, []⟩ := by
  obtain ⟨done, left, base, hstretch⟩ :=
    exists_stretch division (fun _ => true) operands (row operators)
  unfold reduceGroup
  dsimp only
  generalize reduceWhile division (fun _ => true) operands (row operators) = outcome at hstretch ⊢
  cases herror : outcome.error? with
  | some error =>
      have hhalts := hstretch.halts
      rw [herror] at hhalts
      exact .inl ⟨error, rfl, hhalts.isOfReduction⟩
  | none =>
      obtain ⟨hsettled, hstate⟩ := hstretch.settled_of_success herror
      have hpending : row operators = row done ++ base := hstretch.pending
      have hnone : enclosing (row operators) = [] := by
        have hrow := enclosing_row_append operators []
        rwa [List.append_nil] at hrow
      rw [hpending, enclosing_row_append, enclosing_of_settled hsettled] at hnone
      exact .inr ⟨rfl, left, hnone ▸ hstate⟩

theorem closesAs_push (division : DivisionPolicy) (inner outer : List Float)
    (operators : List (Operator × Nat)) (opened closed : Nat) (base : List Pending) :
    let outcome := push division ⟨.closeParen, closed⟩
      ⟨inner ++ outer, row operators ++ .openParen opened outer.length :: base⟩
    ClosesAs opened closed outer base (finish division ⟨inner, row operators⟩).result
      outcome.error? outcome.state := by
  have hopened := opened_openGroup opened ⟨outer, base⟩
  rw [← onto_openGroup_row]
  unfold push closeGroup finish
  dsimp only
  rw [reduceGroup_onto hopened]
  have hcases := reduceGroup_row division inner operators
  generalize reduceGroup division ⟨inner, row operators⟩ = reduced at hcases ⊢
  -- the reductions are those of the content on its own, put on top of what is below it
  cases hcases with
  | inl hfails =>
      obtain ⟨error, herror, hreduction⟩ := hfails
      have hmapped : (reduced.map (onto (openGroup opened ⟨outer, base⟩))).error? = some error :=
        herror
      rw [andThen_of_error hmapped, hmapped, herror]
      exact .refused hreduction
  | inr hsucceeds =>
      obtain ⟨hsuccess, left, hstate⟩ := hsucceeds
      have hmapped : (reduced.map (onto (openGroup opened ⟨outer, base⟩))).error? = none :=
        hsuccess
      rw [error?_andThen_of_success hmapped, state_andThen_of_success hmapped, hsuccess]
      dsimp only [Outcome.map, Option.elim_none]
      rw [hstate]
      exact closesAs_leaveGroup opened closed outer left base

theorem push_unopened (division : DivisionPolicy) (operands : List Float)
    (operators : List (Operator × Nat)) (closed : Nat) :
    (∀ error, error.isOfReduction →
        (finish division ⟨operands, row operators⟩).result = .error error →
        (push division ⟨.closeParen, closed⟩ ⟨operands, row operators⟩).error? = some error) ∧
      ((∀ error, error.isOfReduction →
          (finish division ⟨operands, row operators⟩).result ≠ .error error) →
        (push division ⟨.closeParen, closed⟩ ⟨operands, row operators⟩).error? =
          some (.unbalancedParentheses closed)) := by
  unfold push closeGroup finish
  dsimp only
  have hcases := reduceGroup_row division operands operators
  generalize reduceGroup division ⟨operands, row operators⟩ = reduced at hcases ⊢
  cases hcases with
  | inl hfails =>
      obtain ⟨error, herror, hreduction⟩ := hfails
      rw [andThen_of_error herror, herror]
      constructor
      · intro error' _ hresult
        rw [Except.error.inj hresult]
      · intro hother
        exact absurd rfl (hother error hreduction)
  | inr hsucceeds =>
      obtain ⟨hsuccess, left, hstate⟩ := hsucceeds
      rw [error?_andThen_of_success hsuccess, hsuccess, hstate]
      constructor
      · intro error hreduction hresult
        rw [not_isOfReduction_of_value hresult] at hreduction
        contradiction
      · intro _
        rfl

/--
A closing parenthesis ends as finishing the content of its group on its own does: with the
value above what is below the group, or with the same error of a reduction, or with the
counterpart of the error for no value or for several.  Without an open group it fails in any
case, and with the error of a reduction if finishing does.
-/
theorem push_closeParen_agrees (division : DivisionPolicy) (inner outer : List Float)
    (operators : List (Operator × Nat)) (opened closed : Nat) (base : List Pending) :
    let alone := (finish division ⟨inner, row operators⟩).result
    let outcome := push division ⟨.closeParen, closed⟩
      ⟨inner ++ outer, row operators ++ .openParen opened outer.length :: base⟩
    let unopened := push division ⟨.closeParen, closed⟩ ⟨inner, row operators⟩
    (∀ v, alone = .ok v → outcome.error? = none ∧ outcome.state = ⟨v :: outer, base⟩) ∧
      (∀ error, error.isOfReduction → alone = .error error → outcome.error? = some error) ∧
      (alone = .error .noValue → outcome.error? = some (.insufficientOperands ')' closed)) ∧
      (∀ count, alone = .error (.unjoined count) →
        outcome.error? = some (.unjoinedGroup opened count)) ∧
      (∀ error, error.isOfReduction → alone = .error error → unopened.error? = some error) ∧
      ((∀ error, error.isOfReduction → alone ≠ .error error) →
        unopened.error? = some (.unbalancedParentheses closed)) := by
  intro alone outcome unopened
  have hcloses := closesAs_push division inner outer operators opened closed base
  have hunopened := push_unopened division inner operators closed
  refine ⟨?_, ?_, ?_, ?_, hunopened.1, hunopened.2⟩
  · intro v halone
    exact hcloses.of_ok halone
  · intro error hreduction halone
    exact hcloses.of_reduction hreduction halone
  · intro halone
    exact hcloses.of_noValue halone
  · intro count halone
    exact hcloses.of_unjoined halone

end

theorem push_closeParen_agrees_quotient :
    (finish .reject ⟨[6, 1], row [(.div, 9)]⟩).result = .ok (1 / 6) ∧
      (push .reject ⟨.closeParen, 11⟩
        ⟨[6, 1, 2], [.operator .div 9, .openParen 5 1, .operator .mul 3]⟩).state =
          ⟨[1 / 6, 2], [.operator .mul 3]⟩ ∧
      (finish .reject ⟨[0, 1], row [(.div, 9)]⟩).result = .error (.divisionByZero 9) ∧
      (push .reject ⟨.closeParen, 11⟩
        ⟨[0, 1, 2], [.operator .div 9, .openParen 5 1, .operator .mul 3]⟩).error? =
          some (.divisionByZero 9) := by
  have hvalue : (finish .reject ⟨[6, 1], row [(.div, 9)]⟩).result = .ok (1 / 6) := by
    decide +kernel
  have hrefused : (finish .reject ⟨[0, 1], row [(.div, 9)]⟩).result =
      .error (.divisionByZero 9) := by
    decide +kernel
  have hcloses := (push_closeParen_agrees .reject [6, 1] [2] [(.div, 9)] 5 11
    [.operator .mul 3]).1 _ hvalue
  have hfails := (push_closeParen_agrees .reject [0, 1] [2] [(.div, 9)] 5 11
    [.operator .mul 3]).2.1 _ rfl hrefused
  exact ⟨hvalue, hcloses.2, hrefused, hfails⟩

end Stacks

end Calculator
