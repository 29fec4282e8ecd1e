import Calculator.Proofs.Correspondence
import Calculator.Proofs.Refusal

/-!
# Shapes

Two lists of tokens have one shape if they differ at most in the values of their
numbers, and two pairs of stacks if they differ at most in the values of their operands.

Under the lenient policy nothing looks at a value: tokens of one shape, pushed on stacks
of one shape, succeed together or fail with one error, and leave stacks of one shape.
-/

namespace Calculator

def Token.SameShape : Token → Token → Prop
  | .number _, .number _ => True
  | first, second => first = second

structure Lexeme.SameShape (first second : Lexeme) : Prop where
  token : first.token.SameShape second.token
  column : first.column = second.column

structure Stacks.SameShape (first second : Stacks) : Prop where
  pending : first.pending = second.pending
  height : first.operands.length = second.operands.length

structure Outcome.SameShape (first second : Outcome) : Prop where
  error? : first.error? = second.error?
  state : first.state.SameShape second.state

/-! ## Shape as a correspondence -/

def anyValue : Correspondence := ⟨fun _ _ => True, fun column other => column = other⟩

namespace Correspondence

theorem anyValue_respected [Operator.Arithmetic] : anyValue.Respected .ieee := by
  constructor
  · intros
    trivial
  · intros
    rw [Stacks.refusesDivision_ieee, Stacks.refusesDivision_ieee]

theorem anyValue_lexemes {first second : Lexeme} (h : first.SameShape second) :
    anyValue.Lexemes first second := by
  cases first with
  | mk token column =>
      cases second with
      | mk token' column' =>
          refine ⟨?_, h.column⟩
          have htoken : token.SameShape token' := h.token
          unfold Token.SameShape at htoken
          split at htoken
          · exact .number trivial
          · subst htoken
            cases token with
            | number value => exact .number trivial
            | operator op => exact .operator op
            | openParen => exact .openParen
            | closeParen => exact .closeParen

theorem anyValue_entries_eq : anyValue.Entries = Eq := by
  funext first second
  refine propext ⟨?_, ?_⟩
  · intro h
    cases h with
    | operator op hcolumn => rw [hcolumn]
    | openParen depth hcolumn => rw [hcolumn]
  · intro h
    subst h
    cases first with
    | operator op column => exact .operator op rfl
    | openParen column depth => exact .openParen depth rfl

theorem anyValue_states_iff {first second : Stacks} :
    anyValue.States first second ↔ first.SameShape second := by
  constructor
  · intro h
    have hpending := h.pending
    rw [anyValue_entries_eq, List.forall₂_eq_eq_eq] at hpending
    exact ⟨hpending, h.operands.length_eq⟩
  · intro h
    refine ⟨List.forall₂_of_length_eq_of_get h.height fun _ _ _ => trivial, ?_⟩
    rw [anyValue_entries_eq, List.forall₂_eq_eq_eq]
    exact h.pending

theorem eq_of_anyValue_errors {first second : EvalError} (h : anyValue.Errors first second) :
    first = second := by
  cases h with
  | malformedToken fragment hcolumn => rw [hcolumn]
  | insufficientOperands symbol hcolumn => rw [hcolumn]
  | unbalancedParentheses hcolumn => rw [hcolumn]
  | divisionByZero hcolumn => rw [hcolumn]
  | unjoinedGroup count hopened => rw [hopened]
  | unjoined count => rfl
  | noValue => rfl

theorem Outcomes.sameShape {first second : Outcome} (h : anyValue.Outcomes first second) :
    first.SameShape second := by
  refine ⟨?_, anyValue_states_iff.mp h.state⟩
  have herror := h.error?
  generalize first.error? = error, second.error? = other at herror
  cases herror with
  | some herrors => rw [eq_of_anyValue_errors herrors]
  | none => rfl

theorem Results.error_iff {first second : Except EvalError Float}
    (h : anyValue.Results first second) (error : EvalError) :
    first = .error error ↔ second = .error error := by
  cases h with
  | ok _ => simp
  | error herrors => rw [eq_of_anyValue_errors herrors]

theorem Results.exists_ok_iff {first second : Except EvalError Float}
    (h : anyValue.Results first second) :
    (∃ v, first = .ok v) ↔ ∃ v, second = .ok v := by
  cases h with
  | ok _ => simp
  | error _ => simp

end Correspondence

/-! ## Tokens of one shape -/

namespace Stacks

open Correspondence

section

variable [Operator.Arithmetic]

/-- The outcomes of tokens pushed one by one, each on the stacks that were left, failed or not. -/
def pushEach (division : DivisionPolicy) : List Lexeme → Stacks → List Outcome
  | [], _ => []
  | lexeme :: lexemes, state =>
      push division lexeme state :: pushEach division lexemes (push division lexeme state).state

theorem sameShape_push {lexeme lexeme' : Lexeme} {state state' : Stacks}
    (hlexeme : lexeme.SameShape lexeme') (hstate : state.SameShape state') :
    (push .ieee lexeme state).SameShape (push .ieee lexeme' state') := by
  have hstates := anyValue_states_iff.mpr hstate
  exact (anyValue_respected.push (anyValue_lexemes hlexeme) hstates).sameShape

theorem sameShape_pushEach {lexemes lexemes' : List Lexeme} {state state' : Stacks}
    (hlexemes : List.Forall₂ Lexeme.SameShape lexemes lexemes') (hstate : state.SameShape state') :
    List.Forall₂ Outcome.SameShape (pushEach .ieee lexemes state)
      (pushEach .ieee lexemes' state') := by
  induction hlexemes generalizing state state' with
  | nil => exact .nil
  | cons hlexeme _ ih =>
      have hpushed := sameShape_push hlexeme hstate
      exact .cons hpushed (ih hpushed.state)

/--
Under the lenient policy the shape of the tokens and of the stacks decides whether and how
a step fails: every token is taken or refused alike, with the same error, and what it leaves
has one shape again.  So whole runs yield a value together or end with the same error.
-/
theorem ieee_outcomes_of_sameShape {lexemes lexemes' : List Lexeme} {state state' : Stacks}
    (hlexemes : List.Forall₂ Lexeme.SameShape lexemes lexemes') (hstate : state.SameShape state') :
    List.Forall₂ Outcome.SameShape (pushEach .ieee lexemes state)
        (pushEach .ieee lexemes' state') ∧
      ((∃ v, (run .ieee lexemes state).result = .ok v) ↔
        ∃ v, (run .ieee lexemes' state').result = .ok v) ∧
      ∀ error, (run .ieee lexemes state).result = .error error ↔
        (run .ieee lexemes' state').result = .error error := by
  have hlinked : List.Forall₂ anyValue.Lexemes lexemes lexemes' :=
    hlexemes.imp fun _ _ => anyValue_lexemes
  have hresults := anyValue_respected.run hlinked (anyValue_states_iff.mpr hstate)
  exact ⟨sameShape_pushEach hlexemes hstate, hresults.exists_ok_iff, hresults.error_iff⟩

end

def danglingTokens (factor : Float) : List Lexeme :=
  [⟨.closeParen, 9⟩, ⟨.operator .mul, 11⟩, ⟨.number factor, 13⟩, ⟨.operator .sub, 15⟩]

def openQuotient (left right : Float) : Stacks :=
  ⟨[right, left], [.operator .div 5, .openParen 1 0]⟩

theorem ieee_outcomes_of_sameShape_danglingTokens :
    List.Forall₂ Lexeme.SameShape (danglingTokens 2) (danglingTokens (0 / 0)) ∧
      (openQuotient 6 3).SameShape (openQuotient (1 / 0) (-0)) ∧
      (run .ieee (danglingTokens (0 / 0)) (openQuotient (1 / 0) (-0))).result =
        .error (.insufficientOperands '-' 15) := by
  have hlexemes : List.Forall₂ Lexeme.SameShape (danglingTokens 2) (danglingTokens (0 / 0)) :=
    .cons ⟨rfl, rfl⟩ (.cons ⟨rfl, rfl⟩ (.cons ⟨trivial, rfl⟩ (.cons ⟨rfl, rfl⟩ .nil)))
  have hstate : (openQuotient 6 3).SameShape (openQuotient (1 / 0) (-0)) := ⟨rfl, rfl⟩
  have hrun : (run .ieee (danglingTokens 2) (openQuotient 6 3)).result =
      .error (.insufficientOperands '-' 15) := by
    decide +kernel
  obtain ⟨-, -, herror⟩ := ieee_outcomes_of_sameShape hlexemes hstate
  exact ⟨hlexemes, hstate, (herror _).mp hrun⟩

end Stacks

end Calculator
