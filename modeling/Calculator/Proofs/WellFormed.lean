import Calculator.Proofs.Messages
import Calculator.Proofs.OpenGroups

/-!
# Well-formed stacks

What holds of the stacks whatever tokens have been pushed, those that failed included:
ranks rise towards the top as far as no group opens, and no group keeps a depth that the
operands have not reached.  A failing step is not undone, so the invariant speaks of the
stacks that a step leaves and not of its result.
-/

namespace Calculator

def Pending.depth? : Pending → Option Nat
  | operator _ _ => none
  | openParen _ depth => some depth

namespace Stacks

open Outcome

/-! ## Rows of operators -/

def row (operators : List (Operator × Nat)) : List Pending :=
  operators.map fun (op, column) => .operator op column

@[simp] theorem row_nil : row [] = [] := rfl

@[simp] theorem row_cons (op : Operator) (column : Nat) (operators : List (Operator × Nat)) :
    row ((op, column) :: operators) = .operator op column :: row operators := rfl

theorem groupFloor_row (operators : List (Operator × Nat)) (below : List Pending) :
    groupFloor (row operators ++ below) = groupFloor below := by
  induction operators with
  | nil => rfl
  | cons first operators ih => exact ih

/-! ## Ranks -/

/-- The rank of the operator on top, and 0 where a group has just been opened. -/
def topRank : List Pending → Nat
  | .operator op _ :: _ => op.rank
  | _ => 0

/-- Every operator has a higher rank than the operator right below it. -/
def Rising : List Pending → Prop
  | [] => True
  | .operator op _ :: below => topRank below < op.rank ∧ Rising below
  | .openParen _ _ :: below => Rising below

theorem rank_pos (op : Operator) : 0 < op.rank := by
  cases op <;> decide

theorem rank_le_two (op : Operator) : op.rank ≤ 2 := by
  cases op <;> decide

theorem topRank_le_two (pending : List Pending) : topRank pending ≤ 2 := by
  match pending with
  | [] => exact Nat.zero_le 2
  | .operator op _ :: _ => exact rank_le_two op
  | .openParen _ _ :: _ => exact Nat.zero_le 2

theorem topRank_lt_of_settled {op : Operator} {pending : List Pending}
    (h : Settled (·.reducesBefore op) pending) : topRank pending < op.rank := by
  match pending, h with
  | [], _ => exact rank_pos op
  | .openParen _ _ :: _, _ => exact rank_pos op
  | .operator other _ :: _, h =>
      have hwaits : ¬ op.rank ≤ other.rank := of_decide_eq_false h
      exact Nat.lt_of_not_le hwaits

theorem Rising.of_append {above below : List Pending} (h : Rising (above ++ below)) :
    Rising below := by
  induction above with
  | nil => exact h
  | cons entry above ih =>
      cases entry with
      | operator op column => exact ih h.2
      | openParen column depth => exact ih h

theorem Rising.pairwise_row {operators : List (Operator × Nat)} {below : List Pending}
    (h : Rising (row operators ++ below)) :
    (operators.map fun (op, _) => op.rank).Pairwise (· > ·) := by
  induction operators with
  | nil => exact .nil
  | cons first operators ih =>
      obtain ⟨htop, hrest⟩ := h
      have hpairwise := ih hrest
      refine List.pairwise_cons.mpr ⟨fun rank hrank => ?_, hpairwise⟩
      cases operators with
      | nil => contradiction
      | cons second operators =>
          have hnext : second.1.rank < first.1.rank := htop
          obtain rfl | hlater := List.mem_cons.mp hrank
          · exact hnext
          · exact Nat.lt_trans ((List.pairwise_cons.mp hpairwise).1 rank hlater) hnext

theorem Rising.length_le {pending : List Pending} (h : Rising pending) :
    pending.length ≤ 3 * openGroups pending + topRank pending := by
  induction pending with
  | nil => exact Nat.zero_le _
  | cons entry below ih =>
      cases entry with
      | operator op column =>
          have hbelow := ih h.2
          have htop := h.1
          simp only [List.length_cons, openGroups_operator, topRank]
          omega
      | openParen column depth =>
          have hbelow := ih h
          have htop := topRank_le_two below
          simp only [List.length_cons, openGroups_openParen, topRank]
          omega

/-! ## Depths -/

def depths (pending : List Pending) : List Nat := pending.filterMap Pending.depth?

/-- The depths that the open groups keep are at most `height`, and each at most the one above. -/
def Nested : Nat → List Pending → Prop
  | _, [] => True
  | height, .operator _ _ :: below => Nested height below
  | height, .openParen _ depth :: below => depth ≤ height ∧ Nested depth below

theorem Nested.groupFloor_le {height : Nat} {pending : List Pending} (h : Nested height pending) :
    groupFloor pending ≤ height := by
  induction pending with
  | nil => exact Nat.zero_le _
  | cons entry below ih =>
      cases entry with
      | operator op column => exact ih h
      | openParen column depth => exact h.1

theorem Nested.of_groupFloor_le {height height' : Nat} {pending : List Pending}
    (h : Nested height pending) (hfloor : groupFloor pending ≤ height') :
    Nested height' pending := by
  induction pending with
  | nil => trivial
  | cons entry below ih =>
      cases entry with
      | operator op column => exact ih h hfloor
      | openParen column depth => exact ⟨hfloor, h.2⟩

theorem Nested.mono {height height' : Nat} {pending : List Pending} (h : Nested height pending)
    (hle : height ≤ height') : Nested height' pending :=
  h.of_groupFloor_le (Nat.le_trans h.groupFloor_le hle)

theorem Nested.depths_le {height : Nat} {pending : List Pending} (h : Nested height pending) :
    ∀ depth ∈ depths pending, depth ≤ height := by
  induction pending generalizing height with
  | nil => exact fun _ hdepth => absurd hdepth List.not_mem_nil
  | cons entry below ih =>
      cases entry with
      | operator op column => exact ih h
      | openParen column floor =>
          obtain ⟨hfloor, hbelow⟩ := h
          intro depth hdepth
          obtain rfl | hlower := List.mem_cons.mp hdepth
          · exact hfloor
          · exact Nat.le_trans (ih hbelow depth hlower) hfloor

theorem Nested.pairwise_depths {height : Nat} {pending : List Pending} (h : Nested height pending) :
    (depths pending).Pairwise (· ≥ ·) := by
  induction pending generalizing height with
  | nil => exact .nil
  | cons entry below ih =>
      cases entry with
      | operator op column => exact ih h
      | openParen column depth => exact List.pairwise_cons.mpr ⟨h.2.depths_le, ih h.2⟩

/-! ## The invariant -/

structure WellFormed (state : Stacks) : Prop where
  rising : Rising state.pending
  nested : Nested state.operands.length state.pending

theorem wellFormed_empty : WellFormed empty := ⟨trivial, trivial⟩

section

variable [Operator.Arithmetic]

theorem state_reduce (division : DivisionPolicy) (op : Operator) (column : Nat)
    (operands : List Float) (below : List Pending) :
    (reduce division op column operands below).state =
      ⟨(reduce division op column operands below).state.operands, below⟩ :=
  congrArg (Stacks.mk _) (pending_reduce division op column operands below)

theorem wellFormed_reduce {op : Operator} {column : Nat} {operands : List Float}
    {below : List Pending} (h : WellFormed ⟨operands, .operator op column :: below⟩)
    (division : DivisionPolicy) :
    WellFormed (reduce division op column operands below).state := by
  have hrising : Rising below := h.rising.2
  have hnested : Nested operands.length below := h.nested
  rw [reduce_eq]
  cases hpair : pair? (groupFloor below) operands with
  | none => exact ⟨hrising, hnested⟩
  | some taken =>
      obtain ⟨left, right, rest⟩ := taken
      obtain ⟨rfl, hfloor⟩ := pair?_eq_some_iff.mp hpair
      dsimp only
      split
      · exact ⟨hrising, hnested.of_groupFloor_le hfloor⟩
      · exact ⟨hrising, hnested.of_groupFloor_le (Nat.le_succ_of_le hfloor)⟩

omit [Operator.Arithmetic] in
theorem wellFormed_andThen {first : Outcome} {next : Stacks → Outcome}
    (hfirst : WellFormed first.state)
    (hnext : first.error? = none → WellFormed (next first.state).state) :
    WellFormed (first.andThen next).state := by
  cases herror : first.error? with
  | some error => rwa [andThen_of_error herror]
  | none =>
      rw [state_andThen_of_success herror]
      exact hnext herror

theorem wellFormed_reduceWhile (division : DivisionPolicy) (ready : Operator → Bool)
    {operands : List Float} {pending : List Pending} (h : WellFormed ⟨operands, pending⟩) :
    WellFormed (reduceWhile division ready operands pending).state := by
  induction pending generalizing operands with
  | nil => exact h
  | cons entry below ih =>
      cases entry with
      | openParen column depth => exact h
      | operator op column =>
          cases hready : ready op with
          | false =>
              rw [reduceWhile_waiting hready]
              exact h
          | true =>
              have hreduced := wellFormed_reduce h division
              rw [reduceWhile_ready hready]
              refine wellFormed_andThen hreduced fun _ => ?_
              rw [state_reduce] at hreduced
              exact ih hreduced

theorem wellFormed_pushOperator (division : DivisionPolicy) (op : Operator) (column : Nat)
    {state : Stacks} (h : WellFormed state) :
    WellFormed (pushOperator division op column state).state := by
  have hreduced := wellFormed_reduceWhile division (·.reducesBefore op) h
  refine wellFormed_andThen hreduced fun hsuccess => ⟨⟨?_, hreduced.rising⟩, hreduced.nested⟩
  exact topRank_lt_of_settled (settled_of_reaches (reaches_of_success hsuccess))

omit [Operator.Arithmetic] in
theorem wellFormed_leaveGroup (column : Nat) {state : Stacks} (h : WellFormed state) :
    WellFormed (leaveGroup column state).state := by
  obtain ⟨operands, pending⟩ := state
  match pending with
  | [] => exact h
  | .operator _ _ :: _ => exact h
  | .openParen opened depth :: below =>
      have houtside : WellFormed ⟨operands, below⟩ := ⟨h.rising, h.nested.2.mono h.nested.1⟩
      simp only [leaveGroup]
      split <;> exact houtside

theorem wellFormed_push (division : DivisionPolicy) (lexeme : Lexeme) {state : Stacks}
    (h : WellFormed state) : WellFormed (push division lexeme state).state := by
  obtain ⟨token, column⟩ := lexeme
  cases token with
  | number value => exact ⟨h.rising, h.nested.mono (Nat.le_succ _)⟩
  | operator op => exact wellFormed_pushOperator division op column h
  | openParen => exact ⟨h.rising, Nat.le_refl _, h.nested⟩
  | closeParen =>
      exact wellFormed_andThen (wellFormed_reduceWhile division _ h) fun _ =>
        wellFormed_leaveGroup column (wellFormed_reduceWhile division _ h)

/-! ## Errors of the steps -/

omit [Operator.Arithmetic] in
theorem error?_andThen_ne {first : Outcome} {next : Stacks → Outcome} {error : EvalError}
    (hfirst : first.error? ≠ some error) (hnext : ∀ state, (next state).error? ≠ some error) :
    (first.andThen next).error? ≠ some error := by
  cases herror : first.error? with
  | some _ => rwa [andThen_of_error herror]
  | none =>
      rw [error?_andThen_of_success herror]
      exact hnext first.state

theorem error?_reduceWhile_ne (division : DivisionPolicy) (ready : Operator → Bool)
    (operands : List Float) (pending : List Pending) :
    (reduceWhile division ready operands pending).error? ≠ some .nothingToReduce := by
  induction pending generalizing operands with
  | nil => exact (nomatch ·)
  | cons entry below ih =>
      cases entry with
      | openParen column depth => exact (nomatch ·)
      | operator op column =>
          cases hready : ready op with
          | false =>
              rw [reduceWhile_waiting hready]
              exact (nomatch ·)
          | true =>
              rw [reduceWhile_ready hready]
              refine error?_andThen_ne ?_ fun state => ih state.operands
              rw [reduce_eq]
              split
              · exact (nomatch ·)
              · split <;> exact (nomatch ·)

omit [Operator.Arithmetic] in
theorem error?_leaveGroup_ne (column : Nat) (state : Stacks) :
    (leaveGroup column state).error? ≠ some .nothingToReduce := by
  unfold leaveGroup
  split
  · dsimp only
    split
    · exact (nomatch ·)
    · exact (nomatch ·)
    · rename_i opened depth below count _ _
      intro h
      exact EvalError.ne_unjoinedGroup_of_initial? EvalError.initial?_nothingToReduce (by decide)
        _ _ (Option.some.inj h).symm
  · exact (nomatch ·)

theorem error?_push_ne (division : DivisionPolicy) (lexeme : Lexeme) (state : Stacks) :
    (push division lexeme state).error? ≠ some .nothingToReduce := by
  obtain ⟨token, column⟩ := lexeme
  cases token with
  | number value => exact (nomatch ·)
  | openParen => exact (nomatch ·)
  | operator op =>
      exact error?_andThen_ne (error?_reduceWhile_ne division _ _ _) fun _ => (nomatch ·)
  | closeParen =>
      exact error?_andThen_ne (error?_reduceWhile_ne division _ _ _) (error?_leaveGroup_ne column)

theorem result_finish_ne (division : DivisionPolicy) (state : Stacks) :
    (finish division state).result ≠ .error .nothingToReduce := by
  simp only [finish]
  cases herror : (reduceGroup division state).error? with
  | some error =>
      have hne := error?_reduceWhile_ne division (fun _ => true) state.operands state.pending
      intro h
      obtain rfl := Except.error.inj h
      exact hne herror
  | none =>
      simp only [Option.elim_none, value]
      split
      · simp [EvalError.nothingToReduce]
      · simp
      · intro h
        have hdetails := congrArg EvalError.details (Except.error.inj h)
        contradiction
      · intro h
        exact EvalError.ne_unjoined_of_initial? EvalError.initial?_nothingToReduce rfl _
          (Except.error.inj h).symm

/-! ## Reachable states -/

/--
The states of an evaluator that takes tokens one after another, each under a policy of its
own.  A token that fails leaves a state as well, from which more tokens may follow.
-/
inductive Reachable : Stacks → Prop
  | fresh : Reachable empty
  | push {state : Stacks} (division : DivisionPolicy) (lexeme : Lexeme) :
      Reachable state → Reachable (push division lexeme state).state

/--
The stacks that the reductions of one step come by: those it starts from, and those that a
reduction of the operator on top leaves, whether it failed or not.
-/
inductive ComesBy (division : DivisionPolicy) (state : Stacks) : Stacks → Prop
  | start : ComesBy division state state
  | reduce {middle : Stacks} {op : Operator} {column : Nat} {below : List Pending} :
      ComesBy division state middle → middle.pending = .operator op column :: below →
      ComesBy division state (reduceTop division middle).state

theorem wellFormed_of_reachable {state : Stacks} (h : Reachable state) : WellFormed state := by
  induction h with
  | fresh => exact wellFormed_empty
  | push division lexeme _ ih => exact wellFormed_push division lexeme ih

theorem wellFormed_of_comesBy {division : DivisionPolicy} {state middle : Stacks}
    (hstate : WellFormed state) (h : ComesBy division state middle) : WellFormed middle := by
  induction h with
  | start => exact hstate
  | @reduce middle op column below _ htop ih =>
      obtain ⟨operands, pending⟩ := middle
      obtain rfl := htop
      exact wellFormed_reduce ih division

theorem comesBy_reduceWhile {division : DivisionPolicy} {state : Stacks}
    {operands : List Float} {pending : List Pending}
    (h : ComesBy division state ⟨operands, pending⟩) (ready : Operator → Bool) :
    ComesBy division state (reduceWhile division ready operands pending).state := by
  induction pending generalizing operands with
  | nil => exact h
  | cons entry below ih =>
      cases entry with
      | openParen column depth => exact h
      | operator op column =>
          cases hready : ready op with
          | false =>
              rw [reduceWhile_waiting hready]
              exact h
          | true =>
              have hreduced := h.reduce rfl
              rw [reduceTop_operator] at hreduced
              rw [reduceWhile_ready hready]
              cases herror : (reduce division op column operands below).error? with
              | some error => rwa [andThen_of_error herror]
              | none =>
                  rw [state_andThen_of_success herror]
                  rw [state_reduce] at hreduced
                  exact ih hreduced

/--
The invariant of the two stacks.  Between two open groups ranks rise towards the top, so
that few operators wait at a time; the depths kept by the groups rise too, and none passes
the operands.  So the values that a group holds are counted without a loss, and on the way
of every step a reduction finds an operator, and its operands where the group has two.
-/
theorem reachable_invariant {state : Stacks} (h : Reachable state) :
    (∀ above operators below, state.pending = above ++ row operators ++ below →
        (operators.map fun (op, _) => op.rank).Pairwise (· > ·)) ∧
      state.pending.length ≤ 3 * openGroups state.pending + 2 ∧
      (depths state.pending).Pairwise (· ≥ ·) ∧
      (∀ depth ∈ depths state.pending, depth ≤ state.operands.length) ∧
      (∀ division ready, ComesBy division state
        (reduceWhile division ready state.operands state.pending).state) ∧
      (∀ division middle, ComesBy division state middle →
        (∀ opened depth below, middle.pending = .openParen opened depth :: below →
          depth ≤ middle.operands.length) ∧
        ∀ op column below, middle.pending = .operator op column :: below →
          groupFloor below + 2 ≤ middle.operands.length →
            ∃ left right rest, middle.operands = right :: left :: rest) ∧
      (∀ division lexeme, (push division lexeme state).error? ≠ some .nothingToReduce) ∧
      ∀ division, (finish division state).result ≠ .error .nothingToReduce := by
  have hstate := wellFormed_of_reachable h
  refine ⟨fun above operators below hpending => ?_, ?_, hstate.nested.pairwise_depths,
    hstate.nested.depths_le, fun _ ready => comesBy_reduceWhile .start ready,
    fun division middle hmiddle => ⟨?_, ?_⟩,
    fun division lexeme => error?_push_ne division lexeme state,
    fun division => result_finish_ne division state⟩
  · have hrising := hstate.rising
    rw [hpending, List.append_assoc] at hrising
    exact hrising.of_append.pairwise_row
  · have hlength := hstate.rising.length_le
    have htop := topRank_le_two state.pending
    omega
  · intro opened depth below hpending
    have hnested := (wellFormed_of_comesBy hstate hmiddle).nested
    rw [hpending] at hnested
    exact hnested.1
  · intro op column below _ hfloor
    match middle.operands, hfloor with
    | right :: left :: rest, _ => exact ⟨left, right, rest, rfl⟩
    | [_], hfloor => simp at hfloor
    | [], hfloor => simp at hfloor

end

/-- What is left of the tokens of `1 + ( ) * ( 2 -`, whose first group is refused. -/
def afterEmptyGroup : Stacks :=
  ⟨[2, 1], [.operator .sub 15, .openParen 11 1, .operator .mul 9, .operator .add 3]⟩

theorem reachable_afterEmptyGroup : Reachable afterEmptyGroup :=
  .push .reject ⟨.operator .sub, 15⟩ <| .push .reject ⟨.number 2, 13⟩ <|
    .push .ieee ⟨.openParen, 11⟩ <| .push .ieee ⟨.operator .mul, 9⟩ <|
    .push .ieee ⟨.closeParen, 7⟩ <| .push .ieee ⟨.openParen, 5⟩ <|
    .push .ieee ⟨.operator .add, 3⟩ <| .push .ieee ⟨.number 1, 1⟩ .fresh

theorem reachable_invariant_afterEmptyGroup :
    Reachable afterEmptyGroup ∧ [Operator.mul.rank, Operator.add.rank].Pairwise (· > ·) ∧
      (push .reject ⟨.closeParen, 17⟩ afterEmptyGroup).error? ≠ some .nothingToReduce := by
  obtain ⟨hrising, -, -, -, -, -, hpush, -⟩ := reachable_invariant reachable_afterEmptyGroup
  exact ⟨reachable_afterEmptyGroup,
    hrising [.operator .sub 15, .openParen 11 1] [(.mul, 9), (.add, 3)] [] rfl, hpush _ _⟩

end Stacks

end Calculator
