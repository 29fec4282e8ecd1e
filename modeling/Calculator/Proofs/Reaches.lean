import Calculator.Stacks.Run

/-!
# Successful steps

A step that succeeds is known by the reductions it makes and by the stacks it
leaves.  Steps that follow one another succeed exactly when each of them does, and
a run yields a value exactly when its pushes succeed and what they leave reduces
to that value alone.
-/

namespace Calculator

/-! ## Reductions among the events -/

def Outcome.reductions (outcome : Outcome) : List Reduction :=
  outcome.events.filterMap Event.reduction?

def Traced.reductions {α : Type} (computation : Traced α) : List Reduction :=
  computation.events.filterMap Event.reduction?

def Traced.Yields {α : Type} (computation : Traced α) (done : List Reduction) (value : α) : Prop :=
  computation.result = .ok value ∧ computation.reductions = done

namespace Outcome

@[simp] theorem reductions_accepted (state : Stacks) : (accepted state).reductions = [] := rfl

@[simp] theorem reductions_after_reduced (r : Reduction) (outcome : Outcome) :
    (after (.reduced r) outcome).reductions = r :: outcome.reductions := rfl

@[simp] theorem reductions_after_consumed (token : Token) (state : Stacks) (outcome : Outcome) :
    (after (.consumed token state) outcome).reductions = outcome.reductions := rfl

@[simp] theorem error?_after (event : Event) (outcome : Outcome) :
    (after event outcome).error? = outcome.error? := rfl

/-! ## One step after another -/

theorem andThen_of_error {first : Outcome} {error : EvalError} (h : first.error? = some error)
    (next : Stacks → Outcome) : first.andThen next = first := by
  simp [andThen, h]

theorem error?_andThen_of_success {first : Outcome} (h : first.error? = none)
    (next : Stacks → Outcome) : (first.andThen next).error? = (next first.state).error? := by
  simp [andThen, h]

theorem state_andThen_of_success {first : Outcome} (h : first.error? = none)
    (next : Stacks → Outcome) : (first.andThen next).state = (next first.state).state := by
  simp [andThen, h]

theorem reductions_andThen_of_success {first : Outcome} (h : first.error? = none)
    (next : Stacks → Outcome) :
    (first.andThen next).reductions = first.reductions ++ (next first.state).reductions := by
  simp [andThen, h, reductions]

theorem after_andThen (event : Event) (first : Outcome) (next : Stacks → Outcome) :
    (after event first).andThen next = after event (first.andThen next) := by
  rcases first with ⟨state, events, _ | error⟩ <;> rfl

theorem andThen_assoc (first : Outcome) (next last : Stacks → Outcome) :
    (first.andThen next).andThen last = first.andThen fun state => (next state).andThen last := by
  rcases first with ⟨state, events, _ | error⟩
  · cases h : (next state).error? <;> simp [andThen, h]
  · rfl

/-! ## Success -/

/-- The step succeeds, makes the reductions `done` in their order, and leaves `state`. -/
structure Reaches (outcome : Outcome) (done : List Reduction) (state : Stacks) : Prop where
  success : outcome.error? = none
  reductions_eq : outcome.reductions = done
  state_eq : outcome.state = state

theorem reaches_of_success {outcome : Outcome} (h : outcome.error? = none) :
    outcome.Reaches outcome.reductions outcome.state :=
  ⟨h, rfl, rfl⟩

@[simp] theorem reaches_accepted_iff {before state : Stacks} {done : List Reduction} :
    (accepted before).Reaches done state ↔ done = [] ∧ state = before := by
  constructor
  · rintro ⟨-, rfl, rfl⟩
    exact ⟨rfl, rfl⟩
  · rintro ⟨rfl, rfl⟩
    exact ⟨rfl, rfl, rfl⟩

@[simp] theorem not_reaches_failed {before state : Stacks} {error : EvalError}
    {done : List Reduction} : ¬ (failed before error).Reaches done state :=
  fun h => nomatch h.success

@[simp] theorem reaches_after_consumed_iff {token : Token} {seen state : Stacks}
    {outcome : Outcome} {done : List Reduction} :
    (after (.consumed token seen) outcome).Reaches done state ↔ outcome.Reaches done state :=
  ⟨fun h => ⟨h.success, h.reductions_eq, h.state_eq⟩,
    fun h => ⟨h.success, h.reductions_eq, h.state_eq⟩⟩

theorem Reaches.andThen {first : Outcome} {next : Stacks → Outcome}
    {before after : List Reduction} {middle state : Stacks} (hfirst : first.Reaches before middle)
    (hnext : (next middle).Reaches after state) :
    (first.andThen next).Reaches (before ++ after) state := by
  obtain ⟨success, rfl, rfl⟩ := hfirst
  obtain ⟨hsuccess, rfl, rfl⟩ := hnext
  exact ⟨(error?_andThen_of_success success next).trans hsuccess,
    reductions_andThen_of_success success next, state_andThen_of_success success next⟩

theorem reaches_andThen_iff {first : Outcome} {next : Stacks → Outcome}
    {done : List Reduction} {state : Stacks} :
    (first.andThen next).Reaches done state ↔
      ∃ before middle after, first.Reaches before middle ∧
        (next middle).Reaches after state ∧ done = before ++ after := by
  constructor
  · rintro ⟨success, rfl, rfl⟩
    cases herror : first.error? with
    | some error =>
        rw [andThen_of_error herror, herror] at success
        contradiction
    | none =>
        rw [error?_andThen_of_success herror] at success
        rw [reductions_andThen_of_success herror, state_andThen_of_success herror]
        exact ⟨_, _, _, reaches_of_success herror, reaches_of_success success, rfl⟩
  · rintro ⟨before, middle, after, hfirst, hnext, rfl⟩
    exact hfirst.andThen hnext

end Outcome

namespace Stacks

open Outcome

variable [Operator.Arithmetic]

/-! ## Pushing tokens -/

theorem pushAll_append (division : DivisionPolicy) (first second : List Lexeme) (state : Stacks) :
    pushAll division (first ++ second) state =
      (pushAll division first state).andThen (pushAll division second) := by
  induction first generalizing state with
  | nil => rfl
  | cons lexeme lexemes ih =>
      simp only [List.cons_append, pushAll, andThen_assoc, after_andThen, ih]

theorem reaches_pushAll_cons_iff {division : DivisionPolicy} {lexeme : Lexeme}
    {lexemes : List Lexeme} {state last : Stacks} {done : List Reduction} :
    (pushAll division (lexeme :: lexemes) state).Reaches done last ↔
      ∃ before middle after, (push division lexeme state).Reaches before middle ∧
        (pushAll division lexemes middle).Reaches after last ∧ done = before ++ after := by
  simp only [pushAll, reaches_andThen_iff, reaches_after_consumed_iff]

@[simp] theorem reaches_pushAll_singleton_iff {division : DivisionPolicy} {lexeme : Lexeme}
    {state last : Stacks} {done : List Reduction} :
    (pushAll division [lexeme] state).Reaches done last ↔
      (push division lexeme state).Reaches done last := by
  rw [reaches_pushAll_cons_iff]
  constructor
  · rintro ⟨before, middle, after, hpush, hend, rfl⟩
    obtain ⟨rfl, rfl⟩ := reaches_accepted_iff.mp hend
    simpa using hpush
  · intro hpush
    exact ⟨done, last, [], hpush, reaches_accepted_iff.mpr ⟨rfl, rfl⟩, by simp⟩

/-! ## Reductions -/

theorem reaches_reduce_iff {division : DivisionPolicy} {op : Operator} {column : Nat}
    {operands : List Float} {below : List Pending} {done : List Reduction} {state : Stacks} :
    (reduce division op column operands below).Reaches done state ↔
      ∃ left right rest, operands = right :: left :: rest ∧ groupFloor below ≤ rest.length ∧
        refusesDivision division op right = false ∧
        done = [⟨op, column, left, right⟩] ∧ state = ⟨op.apply left right :: rest, below⟩ := by
  rw [reduce_eq]
  cases hpair : pair? (groupFloor below) operands with
  | none =>
      simp only [not_reaches_failed, false_iff, not_exists, not_and]
      rintro left right rest rfl hfloor
      simp [pair?, hfloor] at hpair
  | some taken =>
      obtain ⟨left, right, rest⟩ := taken
      obtain ⟨rfl, hfloor⟩ := pair?_eq_some_iff.mp hpair
      cases hrefused : refusesDivision division op right with
      | true => simp [hrefused]
      | false =>
          simp only [hrefused, Bool.false_eq_true, if_false]
          constructor
          · rintro ⟨-, rfl, rfl⟩
            exact ⟨left, right, rest, rfl, hfloor, hrefused, rfl, rfl⟩
          · rintro ⟨_, _, _, ⟨⟩, -, -, rfl, rfl⟩
            exact ⟨rfl, rfl, rfl⟩

theorem reduceWhile_ready {ready : Operator → Bool} {op : Operator} (h : ready op = true)
    (division : DivisionPolicy) (column : Nat) (operands : List Float) (below : List Pending) :
    reduceWhile division ready operands (.operator op column :: below) =
      (reduce division op column operands below).andThen fun state =>
        reduceWhile division ready state.operands below := by
  simp [reduceWhile, h]

def Settled (ready : Operator → Bool) : List Pending → Prop
  | .operator op _ :: _ => ready op = false
  | _ => True

theorem reduceWhile_of_settled {ready : Operator → Bool} {pending : List Pending}
    (h : Settled ready pending) (division : DivisionPolicy) (operands : List Float) :
    reduceWhile division ready operands pending = .accepted ⟨operands, pending⟩ := by
  unfold reduceWhile
  split
  · rw [if_neg (by simpa [Settled] using h)]
  · rfl

theorem reduceWhile_waiting {ready : Operator → Bool} {op : Operator} (h : ready op = false)
    (division : DivisionPolicy) (column : Nat) (operands : List Float) (below : List Pending) :
    reduceWhile division ready operands (.operator op column :: below) =
      .accepted ⟨operands, .operator op column :: below⟩ := by
  have hsettled : Settled ready (.operator op column :: below) := h
  exact reduceWhile_of_settled hsettled division operands

theorem settled_of_reaches {division : DivisionPolicy} {ready : Operator → Bool}
    {operands : List Float} {pending : List Pending} {done : List Reduction} {state : Stacks}
    (h : (reduceWhile division ready operands pending).Reaches done state) :
    Settled ready state.pending := by
  induction pending generalizing operands done with
  | nil =>
      obtain ⟨-, rfl⟩ := reaches_accepted_iff.mp h
      trivial
  | cons entry below ih =>
      cases entry with
      | openParen column depth =>
          obtain ⟨-, rfl⟩ := reaches_accepted_iff.mp h
          trivial
      | operator op column =>
          cases hready : ready op with
          | true =>
              rw [reduceWhile_ready hready, reaches_andThen_iff] at h
              obtain ⟨_, _, _, -, hrest, -⟩ := h
              exact ih hrest
          | false =>
              rw [reduceWhile_waiting hready] at h
              obtain ⟨-, rfl⟩ := reaches_accepted_iff.mp h
              exact hready

/-! ## Tokens -/

@[simp] theorem reaches_push_number_iff {division : DivisionPolicy} {value : Float}
    {column : Nat} {state last : Stacks} {done : List Reduction} :
    (push division ⟨.number value, column⟩ state).Reaches done last ↔
      done = [] ∧ last = pushNumber value state :=
  reaches_accepted_iff

@[simp] theorem reaches_push_openParen_iff {division : DivisionPolicy} {column : Nat}
    {state last : Stacks} {done : List Reduction} :
    (push division ⟨.openParen, column⟩ state).Reaches done last ↔
      done = [] ∧ last = openGroup column state :=
  reaches_accepted_iff

theorem reaches_push_operator_iff {division : DivisionPolicy} {op : Operator} {column : Nat}
    {state last : Stacks} {done : List Reduction} :
    (push division ⟨.operator op, column⟩ state).Reaches done last ↔
      ∃ pending, last.pending = .operator op column :: pending ∧
        (reduceWhile division (·.reducesBefore op) state.operands state.pending).Reaches done
          ⟨last.operands, pending⟩ := by
  simp only [push, pushOperator, reaches_andThen_iff]
  constructor
  · rintro ⟨_, reduced, _, hreduce, hlast, rfl⟩
    obtain ⟨rfl, rfl⟩ := reaches_accepted_iff.mp hlast
    exact ⟨reduced.pending, rfl, by simpa using hreduce⟩
  · rintro ⟨pending, hpending, hreduce⟩
    refine ⟨done, _, [], hreduce, reaches_accepted_iff.mpr ⟨rfl, ?_⟩, by simp⟩
    rw [← hpending]

omit [Operator.Arithmetic] in
theorem reductions_leaveGroup (column : Nat) (state : Stacks) :
    (leaveGroup column state).reductions = [] := by
  unfold leaveGroup
  split
  · dsimp only
    split <;> rfl
  · rfl

omit [Operator.Arithmetic] in
theorem reaches_leaveGroup_iff {column : Nat} {state last : Stacks} {done : List Reduction} :
    (leaveGroup column state).Reaches done last ↔
      done = [] ∧ ∃ opened depth, state = ⟨last.operands, .openParen opened depth :: last.pending⟩ ∧
        last.operands.length - depth = 1 := by
  obtain ⟨operands, pending⟩ := state
  match pending with
  | [] => simp [leaveGroup]
  | .operator _ _ :: _ => simp [leaveGroup]
  | .openParen opened depth :: below =>
      simp only [leaveGroup]
      split
      · rename_i hnone
        simp only [not_reaches_failed, false_iff]
        rintro ⟨-, _, _, ⟨⟩, hone⟩
        omega
      · rename_i hone
        rw [reaches_accepted_iff]
        constructor
        · rintro ⟨rfl, rfl⟩
          exact ⟨rfl, opened, depth, rfl, hone⟩
        · rintro ⟨rfl, _, _, ⟨⟩, -⟩
          exact ⟨rfl, rfl⟩
      · rename_i hmany
        simp only [not_reaches_failed, false_iff]
        rintro ⟨-, _, _, ⟨⟩, hone⟩
        contradiction

theorem reaches_push_closeParen_iff {division : DivisionPolicy} {column : Nat}
    {state last : Stacks} {done : List Reduction} :
    (push division ⟨.closeParen, column⟩ state).Reaches done last ↔
      ∃ opened depth, (reduceGroup division state).Reaches done
          ⟨last.operands, .openParen opened depth :: last.pending⟩ ∧
        last.operands.length - depth = 1 := by
  simp only [push, closeGroup, reaches_andThen_iff, reaches_leaveGroup_iff]
  constructor
  · rintro ⟨_, _, _, hreduce, ⟨rfl, opened, depth, rfl, hone⟩, rfl⟩
    exact ⟨opened, depth, by simpa using hreduce, hone⟩
  · rintro ⟨opened, depth, hreduce, hone⟩
    exact ⟨done, _, [], hreduce, ⟨rfl, opened, depth, rfl, hone⟩, by simp⟩

/-! ## Runs -/

def conclude (outcome : Outcome) : Traced Float :=
  ⟨outcome.events, outcome.error?.elim outcome.state.value .error⟩

theorem run_eq_conclude (division : DivisionPolicy) (lexemes : List Lexeme) (state : Stacks) :
    run division lexemes state =
      conclude ((pushAll division lexemes state).andThen (reduceGroup division)) := by
  unfold run
  generalize pushAll division lexemes state = pushed
  obtain ⟨left, events, _ | error⟩ := pushed <;> rfl

omit [Operator.Arithmetic] in
theorem value_eq_ok_iff {state : Stacks} {v : Float} (h : Settled (fun _ => true) state.pending) :
    state.value = .ok v ↔ state = ⟨[v], []⟩ := by
  obtain ⟨operands, pending⟩ := state
  match pending, operands, h with
  | [], [], _ => simp [value]
  | [], [_], _ => simp [value]
  | [], _ :: _ :: _, _ => simp [value]
  | .openParen _ _ :: _, _, _ => simp [value]

omit [Operator.Arithmetic] in
theorem conclude_yields_iff {outcome : Outcome} {done : List Reduction} {v : Float}
    (h : outcome.error? = none → Settled (fun _ => true) outcome.state.pending) :
    (conclude outcome).Yields done v ↔ outcome.Reaches done ⟨[v], []⟩ := by
  cases herror : outcome.error? with
  | some error =>
      constructor
      · rintro ⟨hresult, -⟩
        simp [conclude, herror] at hresult
      · intro hreaches
        have hsuccess := hreaches.success
        rw [herror] at hsuccess
        contradiction
  | none =>
      have hvalue := value_eq_ok_iff (v := v) (h herror)
      constructor
      · rintro ⟨hresult, hdone⟩
        simp only [conclude, herror, Option.elim_none] at hresult
        exact ⟨herror, hdone, hvalue.mp hresult⟩
      · rintro ⟨-, hdone, hstate⟩
        refine ⟨?_, hdone⟩
        simp only [conclude, herror, Option.elim_none]
        exact hvalue.mpr hstate

theorem run_yields_iff {division : DivisionPolicy} {lexemes : List Lexeme} {state : Stacks}
    {done : List Reduction} {v : Float} :
    (run division lexemes state).Yields done v ↔
      ((pushAll division lexemes state).andThen (reduceGroup division)).Reaches done
        ⟨[v], []⟩ := by
  rw [run_eq_conclude]
  apply conclude_yields_iff
  intro hsuccess
  obtain ⟨_, _, _, -, hend, -⟩ := reaches_andThen_iff.mp (reaches_of_success hsuccess)
  exact settled_of_reaches hend

theorem run_result_eq_ok_iff {division : DivisionPolicy} {lexemes : List Lexeme} {state : Stacks}
    {v : Float} :
    (run division lexemes state).result = .ok v ↔
      ((pushAll division lexemes state).andThen (reduceGroup division)).Reaches
        (run division lexemes state).reductions ⟨[v], []⟩ := by
  rw [← run_yields_iff]
  simp [Traced.Yields]

end Stacks

end Calculator
