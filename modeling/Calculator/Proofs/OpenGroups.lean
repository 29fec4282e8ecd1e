import Calculator.Proofs.Reaches
import Calculator.Proofs.Brackets

/-!
# Open groups

The number of open groups among the pending entries.  Only parentheses change it,
so a run that yields a value closes what it opens: its parentheses match.
-/

namespace Calculator.Stacks

open Outcome

def openGroups : List Pending → Nat
  | [] => 0
  | .operator _ _ :: below => openGroups below
  | .openParen _ _ :: below => openGroups below + 1

@[simp] theorem openGroups_operator (op : Operator) (column : Nat) (below : List Pending) :
    openGroups (.operator op column :: below) = openGroups below := rfl

@[simp] theorem openGroups_openParen (column depth : Nat) (below : List Pending) :
    openGroups (.openParen column depth :: below) = openGroups below + 1 := rfl

/-- How a token that is pushed changes the number of open groups. -/
def nests : Token → Nat → Nat → Prop
  | .openParen, before, after => after = before + 1
  | .closeParen, before, after => before = after + 1
  | _, before, after => after = before

theorem nests_plain_iff {token : Token} (hopen : token ≠ .openParen) (hclose : token ≠ .closeParen)
    {before after : Nat} : nests token before after ↔ after = before := by
  cases token with
  | number value => rfl
  | operator op => rfl
  | openParen => contradiction
  | closeParen => contradiction

variable [Operator.Arithmetic]

/-! ## Steps -/

theorem pending_reduce (division : DivisionPolicy) (op : Operator) (column : Nat)
    (operands : List Float) (below : List Pending) :
    (reduce division op column operands below).state.pending = below := by
  rw [reduce_eq]
  split
  · rfl
  · split <;> rfl

theorem openGroups_reduceWhile (division : DivisionPolicy) (ready : Operator → Bool)
    (operands : List Float) (pending : List Pending) :
    openGroups (reduceWhile division ready operands pending).state.pending =
      openGroups pending := by
  induction pending generalizing operands with
  | nil => rfl
  | cons entry below ih =>
      cases entry with
      | openParen column depth => rfl
      | operator op column =>
          cases hready : ready op with
          | false =>
              rw [reduceWhile_waiting hready]
              rfl
          | true =>
              rw [reduceWhile_ready hready]
              cases herror : (reduce division op column operands below).error? with
              | some error =>
                  rw [andThen_of_error herror, pending_reduce, openGroups_operator]
              | none =>
                  rw [state_andThen_of_success herror, ih, openGroups_operator]

theorem openGroups_reduceGroup {division : DivisionPolicy} {state last : Stacks}
    {done : List Reduction} (h : (reduceGroup division state).Reaches done last) :
    openGroups last.pending = openGroups state.pending := by
  rw [← h.state_eq]
  exact openGroups_reduceWhile division _ state.operands state.pending

theorem pending_of_reduceGroup {division : DivisionPolicy} {state last : Stacks}
    {done : List Reduction} (h : (reduceGroup division state).Reaches done last) :
    (last.pending = [] ∧ openGroups state.pending = 0) ∨
      ∃ opened depth below, last.pending = .openParen opened depth :: below := by
  have hkept := openGroups_reduceGroup h
  have hsettled := settled_of_reaches h
  match hpending : last.pending, hsettled with
  | [], _ =>
      rw [hpending] at hkept
      exact .inl ⟨rfl, hkept.symm⟩
  | .openParen opened depth :: below, _ => exact .inr ⟨opened, depth, below, rfl⟩

theorem nests_push {division : DivisionPolicy} {lexeme : Lexeme} {state last : Stacks}
    {done : List Reduction} (h : (push division lexeme state).Reaches done last) :
    nests lexeme.token (openGroups state.pending) (openGroups last.pending) := by
  obtain ⟨token, column⟩ := lexeme
  cases token with
  | number value =>
      obtain ⟨-, rfl⟩ := reaches_push_number_iff.mp h
      rfl
  | openParen =>
      obtain ⟨-, rfl⟩ := reaches_push_openParen_iff.mp h
      rfl
  | operator op =>
      obtain ⟨pending, hpending, hreduce⟩ := reaches_push_operator_iff.mp h
      have hkept := openGroups_reduceWhile division (·.reducesBefore op) state.operands
        state.pending
      rw [hreduce.state_eq] at hkept
      rw [hpending]
      exact hkept
  | closeParen =>
      obtain ⟨opened, depth, hreduce, -⟩ := reaches_push_closeParen_iff.mp h
      exact (openGroups_reduceGroup hreduce).symm

/-! ## Token lists -/

theorem openGroups_pushAll {division : DivisionPolicy} {lexemes : List Lexeme}
    (h : Balanced Lexeme.token lexemes) {state last : Stacks} {done : List Reduction}
    (hpush : (pushAll division lexemes state).Reaches done last) :
    openGroups last.pending = openGroups state.pending := by
  induction h generalizing state last done with
  | nil =>
      obtain ⟨-, rfl⟩ := reaches_accepted_iff.mp hpush
      rfl
  | plain hopen hclose _ ih =>
      obtain ⟨_, middle, _, hfirst, hrest, -⟩ := reaches_pushAll_cons_iff.mp hpush
      rw [ih hrest]
      exact (nests_plain_iff hopen hclose).mp (nests_push hfirst)
  | group hopen _ hclose _ ihInner ihRest =>
      obtain ⟨_, inside, _, hopened, hpush, -⟩ := reaches_pushAll_cons_iff.mp hpush
      rw [pushAll_append] at hpush
      obtain ⟨_, filled, _, hinner, hpush, -⟩ := reaches_andThen_iff.mp hpush
      obtain ⟨_, outside, _, hclosed, hrest, -⟩ := reaches_pushAll_cons_iff.mp hpush
      have henter := nests_push hopened
      have hleave := nests_push hclosed
      rw [hopen, nests] at henter
      rw [hclose, nests, ihInner hinner] at hleave
      rw [ihRest hrest]
      omega

theorem closes_of_reaches {division : DivisionPolicy} {lexemes : List Lexeme}
    {state last : Stacks} {done : List Reduction}
    (h : (pushAll division lexemes state).Reaches done last) (hlast : openGroups last.pending = 0) :
    Closes Lexeme.token (openGroups state.pending) lexemes := by
  induction lexemes generalizing state done with
  | nil =>
      obtain ⟨-, rfl⟩ := reaches_accepted_iff.mp h
      rw [hlast]
      exact .nil
  | cons lexeme lexemes ih =>
      obtain ⟨_, middle, _, hfirst, hrest, -⟩ := reaches_pushAll_cons_iff.mp h
      have hcloses := ih hrest
      have hnests := nests_push hfirst
      by_cases hopen : lexeme.token = .openParen
      · rw [hopen, nests] at hnests
        rw [hnests] at hcloses
        exact closes_open hopen hcloses
      by_cases hclose : lexeme.token = .closeParen
      · rw [hclose, nests] at hnests
        rw [hnests]
        exact closes_close hclose hcloses
      rw [nests_plain_iff hopen hclose] at hnests
      rw [hnests] at hcloses
      exact closes_plain hopen hclose hcloses

theorem balanced_of_run_ok {division : DivisionPolicy} {lexemes : List Lexeme} {v : Float}
    (h : (run division lexemes .empty).result = .ok v) : Balanced Lexeme.token lexemes := by
  obtain ⟨_, middle, _, hpush, hend, -⟩ :=
    reaches_andThen_iff.mp (run_result_eq_ok_iff.mp h)
  exact closes_of_reaches hpush (openGroups_reduceGroup hend).symm

end Calculator.Stacks
