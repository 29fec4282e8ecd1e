import Calculator.Proofs.Culprits

/-!
# Tokens and entries

A token puts one entry on the two stacks, and a closing parenthesis takes one off instead.
A reduction takes three entries and puts one back.  So what lies on the stacks falls short
of the number of tokens by an even number.

It follows that an accepted list has an odd number of tokens, and that a division is not
refused before the third token: it takes an operator and two operands.
-/

namespace Calculator

theorem Outcome.Ensures.imp {outcome : Outcome} {leaves leaves' : Stacks → Prop}
    {blames blames' : EvalError → Prop} (h : outcome.Ensures leaves blames)
    (hleaves : ∀ state, leaves state → leaves' state)
    (hblames : ∀ error, blames error → blames' error) : outcome.Ensures leaves' blames' :=
  ⟨fun hsuccess => hleaves _ (h.leaves_state hsuccess),
    fun error herror => hblames error (h.blames_error error herror)⟩

namespace Stacks

open Outcome

def entryCount (state : Stacks) : Nat := state.operands.length + state.pending.length

/-- The entries may be what `count` tokens have left. -/
def LeftBy (count : Nat) (state : Stacks) : Prop := ∃ lost, state.entryCount + 2 * lost = count

def ThreeForDivision (count : Nat) (error : EvalError) : Prop :=
  ∀ column, error = .divisionByZero column → 3 ≤ count

theorem leftBy_empty : LeftBy 0 empty := ⟨0, rfl⟩

theorem value_ne_divisionByZero (state : Stacks) (column : Nat) :
    state.value ≠ .error (.divisionByZero column) := by
  unfold value
  split
  · nofun
  · nofun
  · nofun
  · nofun

theorem ThreeForDivision.mono {count more : Nat} {error : EvalError}
    (h : ThreeForDivision count error) (hle : count ≤ more) : ThreeForDivision more error :=
  fun column herror => Nat.le_trans (h column herror) hle

section

variable [Operator.Arithmetic] {count : Nat}

/-! ## Steps -/

theorem LeftBy.ensures_reduce {op : Operator} {column : Nat} {operands : List Float}
    {below : List Pending} (h : LeftBy count ⟨operands, .operator op column :: below⟩)
    (division : DivisionPolicy) :
    (reduce division op column operands below).Ensures
      (fun state => state.pending = below ∧ LeftBy count state) (ThreeForDivision count) := by
  obtain ⟨lost, hcount⟩ := h
  rw [reduce_eq]
  cases hpair : pair? (groupFloor below) operands with
  | none => exact ensures_failed nofun
  | some taken =>
      obtain ⟨left, right, rest⟩ := taken
      obtain ⟨rfl, -⟩ := pair?_eq_some_iff.mp hpair
      simp only [entryCount, List.length_cons] at hcount
      dsimp only
      split
      · refine ensures_failed ?_
        intro _ _
        omega
      · refine (ensures_accepted ⟨rfl, lost + 1, ?_⟩).after _
        simp only [entryCount, List.length_cons]
        omega

theorem LeftBy.ensures_reduceWhile {operands : List Float} {pending : List Pending}
    (h : LeftBy count ⟨operands, pending⟩) (division : DivisionPolicy) (ready : Operator → Bool) :
    (reduceWhile division ready operands pending).Ensures (LeftBy count)
      (ThreeForDivision count) := by
  induction pending generalizing operands with
  | nil => exact ensures_accepted h
  | cons entry below ih =>
      cases entry with
      | openParen column depth => exact ensures_accepted h
      | operator op column =>
          cases hready : ready op with
          | false =>
              rw [reduceWhile_waiting hready]
              exact ensures_accepted h
          | true =>
              rw [reduceWhile_ready hready]
              refine (h.ensures_reduce division).andThen ?_
              intro _ reduced _ hreduced
              cases reduced with
              | mk values pending =>
                  obtain ⟨hpending, hleft⟩ := hreduced
                  subst hpending
                  exact ih hleft

omit [Operator.Arithmetic] in
theorem LeftBy.ensures_leaveGroup {state : Stacks} (h : LeftBy count state) (column : Nat) :
    (leaveGroup column state).Ensures (LeftBy (count + 1)) (ThreeForDivision count) := by
  cases state with
  | mk operands pending =>
      unfold leaveGroup
      split
      · rename_i opened depth below hpending
        dsimp only at hpending ⊢
        subst hpending
        split
        · exact ensures_failed nofun
        · obtain ⟨lost, hcount⟩ := h
          refine ensures_accepted ⟨lost + 1, ?_⟩
          simp only [entryCount, List.length_cons] at hcount ⊢
          omega
        · exact ensures_failed nofun
      · exact ensures_failed nofun

theorem LeftBy.ensures_push {state : Stacks} (h : LeftBy count state) (division : DivisionPolicy)
    (lexeme : Lexeme) :
    (push division lexeme state).Ensures (LeftBy (count + 1)) (ThreeForDivision count) := by
  have hreduce (ready : Operator → Bool) := h.ensures_reduceWhile division ready
  have hpushed {pushed state : Stacks} (hleft : LeftBy count state)
      (hentries : pushed.entryCount = state.entryCount + 1) : LeftBy (count + 1) pushed := by
    obtain ⟨lost, hcount⟩ := hleft
    exact ⟨lost, by omega⟩
  cases lexeme with
  | mk token column =>
      cases token with
      | number value => exact ensures_accepted (hpushed h (Nat.add_right_comm _ 1 _))
      | openParen => exact ensures_accepted (hpushed h rfl)
      | operator op =>
          unfold push pushOperator
          refine (hreduce (·.reducesBefore op)).andThen ?_
          intro _ reduced _ hreduced
          exact ensures_accepted (hpushed hreduced rfl)
      | closeParen =>
          refine (hreduce _).andThen ?_
          intro _ reduced _ hreduced
          exact hreduced.ensures_leaveGroup column

/-! ## Runs -/

theorem LeftBy.ensures_pushAll {state : Stacks} (h : LeftBy count state)
    (division : DivisionPolicy) (lexemes : List Lexeme) :
    (pushAll division lexemes state).Ensures (LeftBy (count + lexemes.length))
      (ThreeForDivision (count + lexemes.length)) := by
  induction lexemes generalizing count state with
  | nil => exact ensures_accepted h
  | cons lexeme lexemes ih =>
      have hcount : count + (lexeme :: lexemes).length = count + 1 + lexemes.length := by
        rw [List.length_cons]
        omega
      have hpush := (h.ensures_push division lexeme).imp (fun _ hleft => hleft)
        fun _ hthree => hthree.mono (Nat.le_add_right count (lexeme :: lexemes).length)
      rw [hcount] at hpush ⊢
      refine hpush.andThen ?_
      intro _ pushed _ hpushed
      exact (ih hpushed).after _

theorem ensures_run (division : DivisionPolicy) (lexemes : List Lexeme) :
    ((pushAll division lexemes empty).andThen (reduceGroup division)).Ensures
      (LeftBy lexemes.length) (ThreeForDivision lexemes.length) := by
  have hpushAll := leftBy_empty.ensures_pushAll division lexemes
  rw [Nat.zero_add] at hpushAll
  refine hpushAll.andThen ?_
  intro _ pushed _ hpushed
  exact hpushed.ensures_reduceWhile division _

theorem odd_length_of_run_ok {division : DivisionPolicy} {lexemes : List Lexeme} {v : Float}
    (h : (run division lexemes empty).result = .ok v) : lexemes.length % 2 = 1 := by
  have hreaches := run_result_eq_ok_iff.mp h
  obtain ⟨lost, hcount⟩ := (ensures_run division lexemes).leaves_state hreaches.success
  rw [hreaches.state_eq] at hcount
  simp only [entryCount, List.length_cons, List.length_nil] at hcount
  omega

theorem three_le_length_of_run_divisionByZero {division : DivisionPolicy}
    {lexemes : List Lexeme} {column : Nat}
    (h : (run division lexemes empty).result = .error (.divisionByZero column)) :
    3 ≤ lexemes.length := by
  have hsteps := ensures_run division lexemes
  rw [run_eq_conclude] at h
  generalize (pushAll division lexemes empty).andThen (reduceGroup division) = outcome
    at hsteps h
  cases herror : outcome.error? with
  | some error =>
      simp only [conclude, herror, Option.elim_some] at h
      exact hsteps.blames_error error herror column (Except.error.inj h)
  | none =>
      simp only [conclude, herror, Option.elim_none] at h
      exact absurd h (value_ne_divisionByZero outcome.state column)

end

end Stacks

end Calculator
