import Mathlib.Data.List.DropRight
import Calculator.Proofs.Stretches

/-!
# Footprints

A push is not undone when it fails, and what it leaves depends on where it stopped.  This
says exactly what that is, for every token on any stacks: which entries are gone, which
operands are gone, and that one value is in the place of the operands that were taken.

However a push ends, the operands below the innermost open group stay at the bottom, and
the groups around it stay open.
-/

namespace Calculator

def Token.reduces : Token → Bool
  | operator _ | closeParen => true
  | _ => false

namespace Stacks

open Outcome

section

variable [Operator.Arithmetic]

/--
What a push of the token leaves, and with which error, once it has applied the operators
`done` from the top.
-/
inductive Footprint (before : Stacks) (done : List (Operator × Nat)) :
    Lexeme → Option EvalError → Stacks → Prop
  | number (value : Float) (column : Nat) : done = [] →
      Footprint before done ⟨.number value, column⟩ none (pushNumber value before)
  | openParen (column : Nat) : done = [] →
      Footprint before done ⟨.openParen, column⟩ none (openGroup column before)
  | operator {op : Operator} {column : Nat} {operands : List Float} {base : List Pending} :
      before.pending = row done ++ base →
      Collapses before.operands done operands →
      Footprint before done ⟨.operator op, column⟩ none
        ⟨operands, .operator op column :: base⟩
  | closed {column opened depth : Nat} {operands : List Float} {below : List Pending} :
      before.pending = row done ++ .openParen opened depth :: below →
      Collapses before.operands done operands → operands.length - depth = 1 →
      Footprint before done ⟨.closeParen, column⟩ none ⟨operands, below⟩
  | emptyGroup {column opened depth : Nat} {operands : List Float} {below : List Pending} :
      before.pending = row done ++ .openParen opened depth :: below →
      Collapses before.operands done operands → operands.length - depth = 0 →
      Footprint before done ⟨.closeParen, column⟩ (some (.insufficientOperands ')' column))
        ⟨operands, below⟩
  | unjoinedGroup {column opened depth count : Nat} {operands : List Float}
      {below : List Pending} : before.pending = row done ++ .openParen opened depth :: below →
      Collapses before.operands done operands →
      operands.length - depth = count → 2 ≤ count →
      Footprint before done ⟨.closeParen, column⟩ (some (.unjoinedGroup opened count))
        ⟨operands, below⟩
  | unopened {column : Nat} {operands : List Float} : before.pending = row done →
      Collapses before.operands done operands →
      Footprint before done ⟨.closeParen, column⟩ (some (.unbalancedParentheses column))
        ⟨operands, []⟩
  | lacking {lexeme : Lexeme} {op : Operator} {column : Nat} {operands : List Float}
      {below : List Pending} : lexeme.token.reduces →
      before.pending = row done ++ .operator op column :: below →
      Collapses before.operands done operands →
      Footprint before done lexeme (some (.insufficientOperands op.symbol column))
        ⟨operands, below⟩
  | refused {lexeme : Lexeme} {column : Nat} {below : List Pending} : lexeme.token.reduces →
      before.pending = row done ++ .operator .div column :: below →
      done.length + 2 ≤ before.operands.length →
      Footprint before done lexeme (some (.divisionByZero column))
        ⟨before.operands.drop (done.length + 2), below⟩

/-- What every push of the token leaves in place, whether it fails or not. -/
structure Confined (lexeme : Lexeme) (before after : Stacks) : Prop where
  operands : before.operands.rtake (groupFloor before.pending) <:+ after.operands
  outer : (enclosing before.pending).tail <:+ after.pending
  innermost : lexeme.token ≠ .closeParen → enclosing before.pending <:+ after.pending

/-! ## What a stretch of reductions leaves -/

theorem Collapses.drop_eq {before after : List Float} {done : List (Operator × Nat)}
    (h : Collapses before done after) (count : Nat) :
    after.drop (count + 1) = before.drop (done.length + (count + 1)) := by
  cases h with
  | untouched => rw [List.length_nil, Nat.zero_add]
  | joined _ _ => rw [List.drop_succ_cons, List.drop_drop, Nat.add_right_comm, Nat.add_assoc]

theorem Collapses.rest_eq {before rest : List Float} {done : List (Operator × Nat)}
    {right left : Float} (h : Collapses before done (right :: left :: rest)) :
    rest = before.drop (done.length + 2) ∧ rest.length + (done.length + 2) = before.length := by
  have hlength := h.length_add
  rw [List.length_cons, List.length_cons] at hlength
  exact ⟨h.drop_eq 1, by omega⟩

omit [Operator.Arithmetic] in
theorem rtake_suffix_drop {operands : List Float} {floor count : Nat}
    (h : floor + count ≤ operands.length) : operands.rtake floor <:+ operands.drop count :=
  List.drop_suffix_drop_left operands (by omega)

theorem Collapses.rtake_suffix {before after : List Float} {done : List (Operator × Nat)}
    (h : Collapses before done after) {floor : Nat} (hroom : done = [] ∨ floor < after.length) :
    before.rtake floor <:+ after := by
  have hlength := h.length_add
  cases h with
  | untouched => exact List.drop_suffix _ before
  | joined hsome _ =>
      have hfloor := hroom.resolve_left hsome
      exact (rtake_suffix_drop (by omega)).trans (List.suffix_cons _ _)

namespace Stretch

variable {division : DivisionPolicy} {ready : Operator → Bool} {before : Stacks}
  {done : List (Operator × Nat)} {operands : List Float} {base : List Pending}
  {outcome : Outcome}

theorem operands_suffix (h : Stretch division ready before done operands base outcome) :
    before.operands.rtake (groupFloor before.pending) <:+ outcome.state.operands := by
  have hfloor : groupFloor before.pending = groupFloor base := by
    rw [h.pending, groupFloor_row]
  have hkept : before.operands.rtake (groupFloor base) <:+ operands :=
    h.collapses.rtake_suffix h.room
  have hhalts := h.halts
  rw [hfloor]
  generalize outcome.error? = error, outcome.state = state at hhalts
  cases hhalts with
  | settled _ => exact hkept
  | lacking _ => exact hkept
  | @refused column below right left rest hoperands _ _ hrest =>
      subst hoperands
      obtain ⟨hdropped, hlength⟩ := h.collapses.rest_eq
      have hinside : groupFloor below + (done.length + 2) ≤ before.operands.length := by omega
      rw [hdropped]
      exact rtake_suffix_drop hinside

theorem enclosing_suffix (h : Stretch division ready before done operands base outcome) :
    enclosing before.pending <:+ outcome.state.pending := by
  have hhalts := h.halts
  rw [h.pending, enclosing_row_append]
  generalize outcome.error? = error, outcome.state = state at hhalts
  cases hhalts with
  | settled _ => exact Stacks.enclosing_suffix base
  | @lacking op column below _ => exact Stacks.enclosing_suffix below
  | @refused column below _ _ _ _ _ _ _ => exact Stacks.enclosing_suffix below

theorem confined (h : Stretch division ready before done operands base outcome)
    (lexeme : Lexeme) : Confined lexeme before outcome.state where
  operands := h.operands_suffix
  outer := (List.tail_suffix _).trans h.enclosing_suffix
  innermost _ := h.enclosing_suffix

theorem footprint_of_error (h : Stretch division ready before done operands base outcome)
    {lexeme : Lexeme} (hreduces : lexeme.token.reduces) {error : EvalError}
    (herror : outcome.error? = some error) :
    Footprint before done lexeme (some error) outcome.state := by
  have hpending := h.pending
  have hhalts := h.halts
  rw [herror] at hhalts
  generalize outcome.state = state at hhalts
  cases hhalts with
  | lacking _ => exact .lacking hreduces hpending h.collapses
  | @refused column below right left rest hoperands _ _ _ =>
      subst hoperands
      obtain ⟨hdropped, hlength⟩ := h.collapses.rest_eq
      rw [hdropped]
      exact .refused hreduces hpending (by omega)

end Stretch

/-! ## What a push leaves -/

structure Leaves (before : Stacks) (lexeme : Lexeme) (done : List (Operator × Nat))
    (outcome : Outcome) : Prop where
  reductions : outcome.reductions.length = done.length
  footprint : Footprint before done lexeme outcome.error? outcome.state
  confined : Confined lexeme before outcome.state

theorem Stretch.leaves_andThen {division : DivisionPolicy} {ready : Operator → Bool}
    {before : Stacks} {done : List (Operator × Nat)} {operands : List Float}
    {base : List Pending} {reduced : Outcome} {lexeme : Lexeme} {place : Stacks → Outcome}
    (h : Stretch division ready before done operands base reduced)
    (hreduces : lexeme.token.reduces) (hsilent : (place ⟨operands, base⟩).reductions = [])
    (hplace : Settled ready base → Confined lexeme before ⟨operands, base⟩ →
      Footprint before done lexeme (place ⟨operands, base⟩).error? (place ⟨operands, base⟩).state ∧
        Confined lexeme before (place ⟨operands, base⟩).state) :
    Leaves before lexeme done (reduced.andThen place) := by
  have hconfined := h.confined lexeme
  cases herror : reduced.error? with
  | some error =>
      have hfootprint := h.footprint_of_error hreduces herror
      rw [← herror] at hfootprint
      rw [andThen_of_error herror]
      exact ⟨h.reductions, hfootprint, hconfined⟩
  | none =>
      obtain ⟨hsettled, hstate⟩ := h.settled_of_success herror
      rw [hstate] at hconfined
      obtain ⟨hfootprint, hplaced⟩ := hplace hsettled hconfined
      rw [← hstate] at hsilent hfootprint hplaced
      constructor
      · rw [reductions_andThen_of_success herror, hsilent, List.append_nil]
        exact h.reductions
      · rw [error?_andThen_of_success herror, state_andThen_of_success herror]
        exact hfootprint
      · rw [state_andThen_of_success herror]
        exact hplaced

theorem leaves_pushOperator (division : DivisionPolicy) (op : Operator) (column : Nat)
    (state : Stacks) :
    ∃ done, Leaves state ⟨.operator op, column⟩ done (pushOperator division op column state) := by
  obtain ⟨done, operands, base, hstretch⟩ :=
    exists_stretch division (·.reducesBefore op) state.operands state.pending
  refine ⟨done, hstretch.leaves_andThen rfl rfl fun _ hconfined => ⟨?_, ?_⟩⟩
  · exact .operator hstretch.pending hstretch.collapses
  · exact ⟨hconfined.operands, hconfined.outer.trans (List.suffix_cons _ _),
      fun hopen => (hconfined.innermost hopen).trans (List.suffix_cons _ _)⟩

theorem leaves_closeGroup (division : DivisionPolicy) (column : Nat) (state : Stacks) :
    ∃ done, Leaves state ⟨.closeParen, column⟩ done (closeGroup division column state) := by
  obtain ⟨done, operands, base, hstretch⟩ :=
    exists_stretch division (fun _ => true) state.operands state.pending
  have hpending : state.pending = row done ++ base := hstretch.pending
  refine ⟨done, hstretch.leaves_andThen rfl (reductions_leaveGroup column _) ?_⟩
  intro hsettled hconfined
  cases base with
  | nil =>
      rw [List.append_nil] at hpending
      exact ⟨.unopened hpending hstretch.collapses, hconfined⟩
  | cons entry below =>
      cases entry with
      | operator op opColumn => contradiction
      | openParen opened depth =>
          have houter : (enclosing state.pending).tail = below := by
            rw [hpending, enclosing_row_append]
            rfl
          have hleft : Confined ⟨.closeParen, column⟩ state ⟨operands, below⟩ :=
            ⟨hconfined.operands, houter ▸ List.suffix_rfl, fun hopen => absurd rfl hopen⟩
          unfold leaveGroup
          dsimp only
          generalize hcount : operands.length - depth = count
          match count with
          | 0 => exact ⟨.emptyGroup hpending hstretch.collapses hcount, hleft⟩
          | 1 => exact ⟨.closed hpending hstretch.collapses hcount, hleft⟩
          | count + 2 =>
              have hmany : 2 ≤ count + 2 := Nat.le_add_left 2 count
              exact ⟨.unjoinedGroup hpending hstretch.collapses hcount hmany, hleft⟩

/--
The footprint of a push on any stacks, taken or refused.  Some operators on top have been
applied, and one value is in the place of the operands they took; besides these the push
takes off at most one more entry, the operator that failed or the group that was closed, and
without a group to close it takes off all.  Only a division that is refused loses its operands.
-/
theorem push_leaves (division : DivisionPolicy) (lexeme : Lexeme) (state : Stacks) :
    ∃ done, Leaves state lexeme done (push division lexeme state) := by
  obtain ⟨token, column⟩ := lexeme
  cases token with
  | operator op => exact leaves_pushOperator division op column state
  | closeParen => exact leaves_closeGroup division column state
  | number value =>
      have hsuffix := Stacks.enclosing_suffix state.pending
      have hoperands : state.operands.rtake (groupFloor state.pending) <:+ value :: state.operands :=
        (List.drop_suffix _ _).trans (List.suffix_cons _ _)
      exact ⟨[], rfl, .number value column rfl, hoperands, (List.tail_suffix _).trans hsuffix,
        fun _ => hsuffix⟩
  | openParen =>
      have hsuffix : enclosing state.pending <:+ (openGroup column state).pending :=
        (Stacks.enclosing_suffix _).trans (List.suffix_cons _ _)
      exact ⟨[], rfl, .openParen column rfl, List.drop_suffix _ _,
        (List.tail_suffix _).trans hsuffix, fun _ => hsuffix⟩

end

example :
    (push .reject ⟨.operator .add, 9⟩ ⟨[0, 6, 5], [.operator .div 7, .operator .sub 3]⟩).state =
      ⟨[5], [.operator .sub 3]⟩ := by
  decide +kernel

end Stacks

end Calculator
