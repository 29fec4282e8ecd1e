import Calculator.Evaluate
import Calculator.Proofs.Partners
import Calculator.Proofs.Reading
import Calculator.Proofs.WellFormed

/-!
# Culprits

What an error points at.  The pending entries keep the columns of tokens that have been
read, and the number of operands above the floor of a group is a difference of counts
over the tokens of that group.  So every error of a step names a token of the list, and
every number in its text can be counted there.
-/

namespace Calculator

/-! ## Counting tokens -/

def Token.isNumber : Token → Bool
  | number _ => true
  | _ => false

def Token.isOperator : Token → Bool
  | operator _ => true
  | _ => false

def numberCount (lexemes : List Lexeme) : Nat :=
  lexemes.countP (·.token.isNumber)

def operatorCount (lexemes : List Lexeme) : Nat :=
  lexemes.countP (·.token.isOperator)

@[simp] theorem numberCount_nil : numberCount [] = 0 := rfl

@[simp] theorem operatorCount_nil : operatorCount [] = 0 := rfl

@[simp] theorem numberCount_cons (lexeme : Lexeme) (lexemes : List Lexeme) :
    numberCount (lexeme :: lexemes) =
      numberCount lexemes + if lexeme.token.isNumber then 1 else 0 :=
  List.countP_cons

@[simp] theorem operatorCount_cons (lexeme : Lexeme) (lexemes : List Lexeme) :
    operatorCount (lexeme :: lexemes) =
      operatorCount lexemes + if lexeme.token.isOperator then 1 else 0 :=
  List.countP_cons

@[simp] theorem numberCount_append (first second : List Lexeme) :
    numberCount (first ++ second) = numberCount first + numberCount second :=
  List.countP_append

@[simp] theorem operatorCount_append (first second : List Lexeme) :
    operatorCount (first ++ second) = operatorCount first + operatorCount second :=
  List.countP_append

/-! ## What an error points at -/

def FirstUnopened (lexemes : List Lexeme) (column : Nat) : Prop :=
  ∃ before after, lexemes = before ++ ⟨.closeParen, column⟩ :: after ∧
    ¬ HasPartnerBefore Lexeme.token before ∧ ClosesMatched Lexeme.token before

def LastUnclosed (lexemes : List Lexeme) (column : Nat) : Prop :=
  ∃ before after, lexemes = before ++ ⟨.openParen, column⟩ :: after ∧
    ¬ HasPartnerAfter Lexeme.token after ∧ OpensMatched Lexeme.token after

def EmptyGroup (lexemes : List Lexeme) (column : Nat) : Prop :=
  ∃ before opened after,
    lexemes = before ++ ⟨.openParen, opened⟩ :: ⟨.closeParen, column⟩ :: after

/-- The tokens hold `count` values when their operators have been applied, and that is too many. -/
def Unjoined (lexemes : List Lexeme) (count : Nat) : Prop :=
  2 ≤ count ∧ numberCount lexemes = operatorCount lexemes + count

def UnjoinedGroup (lexemes : List Lexeme) (opened count : Nat) : Prop :=
  ∃ before inner closed after,
    lexemes = before ++ ⟨.openParen, opened⟩ :: (inner ++ ⟨.closeParen, closed⟩ :: after) ∧
      Balanced Lexeme.token inner ∧ Unjoined inner count

inductive Culprit (division : DivisionPolicy) (lexemes : List Lexeme) : EvalError → Prop
  | operator {op : Operator} {column : Nat} : ⟨.operator op, column⟩ ∈ lexemes →
      Culprit division lexemes (.insufficientOperands op.symbol column)
  | emptyGroup {column : Nat} : EmptyGroup lexemes column →
      Culprit division lexemes (.insufficientOperands ')' column)
  | division {column : Nat} : division = .reject → ⟨.operator .div, column⟩ ∈ lexemes →
      Culprit division lexemes (.divisionByZero column)
  | unopened {column : Nat} : FirstUnopened lexemes column →
      Culprit division lexemes (.unbalancedParentheses column)
  | unclosed {column : Nat} : ClosesMatched Lexeme.token lexemes → LastUnclosed lexemes column →
      Culprit division lexemes (.unbalancedParentheses column)
  | unjoinedGroup {opened count : Nat} : UnjoinedGroup lexemes opened count →
      Culprit division lexemes (.unjoinedGroup opened count)
  | unjoined {count : Nat} : Unjoined lexemes count → Culprit division lexemes (.unjoined count)
  | noValue : lexemes = [] → Culprit division lexemes .noValue

/-! ## Steps and their errors -/

namespace Outcome

/-- If the step succeeds it leaves `leaves`, and if it fails its error is as `blames` says. -/
structure Ensures (outcome : Outcome) (leaves : Stacks → Prop) (blames : EvalError → Prop) :
    Prop where
  leaves_state : outcome.error? = none → leaves outcome.state
  blames_error : ∀ error, outcome.error? = some error → blames error

variable {leaves leaves' : Stacks → Prop} {blames : EvalError → Prop}

theorem ensures_accepted {state : Stacks} (h : leaves state) :
    (accepted state).Ensures leaves blames :=
  ⟨fun _ => h, nofun⟩

theorem ensures_failed {state : Stacks} {error : EvalError} (h : blames error) :
    (failed state error).Ensures leaves blames :=
  ⟨nofun, fun _ herror => Option.some.inj herror ▸ h⟩

theorem Ensures.after {outcome : Outcome} (h : outcome.Ensures leaves blames) (event : Event) :
    (after event outcome).Ensures leaves blames :=
  ⟨h.leaves_state, h.blames_error⟩

theorem Ensures.andThen {first : Outcome} {next : Stacks → Outcome}
    (hfirst : first.Ensures leaves blames)
    (hnext : ∀ done state, first.Reaches done state → leaves state →
      (next state).Ensures leaves' blames) :
    (first.andThen next).Ensures leaves' blames := by
  cases herror : first.error? with
  | some error =>
      rw [andThen_of_error herror]
      exact ⟨fun hsuccess => by simp [herror] at hsuccess, hfirst.blames_error⟩
  | none =>
      have hlater := hnext _ _ (reaches_of_success herror) (hfirst.leaves_state herror)
      constructor
      · rw [error?_andThen_of_success herror, state_andThen_of_success herror]
        exact hlater.leaves_state
      · rw [error?_andThen_of_success herror]
        exact hlater.blames_error

end Outcome

namespace Stacks

open Outcome

/-! ## Where the entries come from -/

/--
What the tokens of a group have left on the stacks: the operators that wait, and
`count` operands.
-/
structure Holds (group : List Lexeme) (waiting : List (Operator × Nat)) (count : Nat) : Prop where
  balanced : Balanced Lexeme.token group
  read : ∀ op column, (op, column) ∈ waiting → ⟨.operator op, column⟩ ∈ group
  count_eq : count + operatorCount group = numberCount group + waiting.length
  filled : group = [] ∨ 0 < count + waiting.length

/-- The tokens up to the opening of a group, the operands they left, and their entries. -/
inductive Opens : List Lexeme → Nat → List Pending → Prop
  | start : Opens [] 0 []
  | group {outer group : List Lexeme} {floor count : Nat} {base : List Pending}
      {waiting : List (Operator × Nat)} (column : Nat) :
      Opens outer floor base → Holds group waiting count →
      Opens (outer ++ (group ++ [⟨.openParen, column⟩])) (floor + count)
        (.openParen column (floor + count) :: (row waiting ++ base))

inductive Traces : List Lexeme → Stacks → Prop
  | innermost {outer group : List Lexeme} {floor count : Nat} {base : List Pending}
      {waiting : List (Operator × Nat)} {operands : List Float} :
      Opens outer floor base → Holds group waiting count → operands.length = floor + count →
      Traces (outer ++ group) ⟨operands, row waiting ++ base⟩

variable {outer group inner : List Lexeme} {floor count : Nat} {base : List Pending}
  {waiting : List (Operator × Nat)}

theorem holds_nil : Holds [] [] 0 where
  balanced := .nil
  read := nofun
  count_eq := rfl
  filled := .inl rfl

theorem traces_empty : Traces [] .empty :=
  @Traces.innermost [] [] 0 0 [] [] [] .start holds_nil rfl

theorem Holds.number (h : Holds group waiting count) (value : Float) (column : Nat) :
    Holds (group ++ [⟨.number value, column⟩]) waiting (count + 1) where
  balanced := h.balanced.append (.plain nofun nofun .nil)
  read op column hwaits := List.mem_append_left _ (h.read op column hwaits)
  count_eq := by
    have hcount := h.count_eq
    have hnumbers : numberCount (group ++ [⟨.number value, column⟩]) = numberCount group + 1 := by
      simp [Token.isNumber]
    have hoperators : operatorCount (group ++ [⟨.number value, column⟩]) =
        operatorCount group := by simp [Token.isOperator]
    omega
  filled := .inr (by omega)

theorem Holds.operator (h : Holds group waiting count) (op : Operator) (column : Nat) :
    Holds (group ++ [⟨.operator op, column⟩]) ((op, column) :: waiting) count where
  balanced := h.balanced.append (.plain nofun nofun .nil)
  read op' column' hwaits := by
    obtain hsame | hwaits := List.mem_cons.mp hwaits
    · obtain ⟨rfl, rfl⟩ := Prod.mk.inj hsame
      simp
    · exact List.mem_append_left _ (h.read op' column' hwaits)
  count_eq := by
    have hcount := h.count_eq
    have hnumbers : numberCount (group ++ [⟨.operator op, column⟩]) = numberCount group := by
      simp [Token.isNumber]
    have hoperators : operatorCount (group ++ [⟨.operator op, column⟩]) =
        operatorCount group + 1 := by simp [Token.isOperator]
    rw [List.length_cons]
    omega
  filled := .inr (Nat.lt_add_left count (Nat.succ_pos _))

theorem Holds.count_eq_of_done (h : Holds group [] count) :
    numberCount group = operatorCount group + count :=
  h.count_eq.symm.trans (Nat.add_comm count _)

theorem Holds.enclosed (h : Holds group waiting count) (hinner : Holds inner [] 1)
    (opened closed : Nat) :
    Holds (group ++ ⟨.openParen, opened⟩ :: (inner ++ [⟨.closeParen, closed⟩])) waiting
      (count + 1) where
  balanced := h.balanced.append (.group rfl hinner.balanced rfl .nil)
  read op column hwaits := List.mem_append_left _ (h.read op column hwaits)
  count_eq := by
    have hcount := h.count_eq
    have hone := hinner.count_eq_of_done
    have hnumbers : numberCount (group ++ ⟨.openParen, opened⟩ ::
        (inner ++ [⟨.closeParen, closed⟩])) = numberCount group + numberCount inner := by
      simp [Token.isNumber]
    have hoperators : operatorCount (group ++ ⟨.openParen, opened⟩ ::
        (inner ++ [⟨.closeParen, closed⟩])) = operatorCount group + operatorCount inner := by
      simp [Token.isOperator]
    omega
  filled := .inr (by omega)

theorem Holds.applied {op : Operator} {column : Nat}
    (h : Holds group ((op, column) :: waiting) (count + 2)) : Holds group waiting (count + 1) where
  balanced := h.balanced
  read op column hwaits := h.read op column (List.mem_cons_of_mem _ hwaits)
  count_eq := by
    have hcount := h.count_eq
    rw [List.length_cons] at hcount
    omega
  filled := .inr (by omega)

theorem Opens.groupFloor_eq (h : Opens outer floor base) : groupFloor base = floor := by
  cases h with
  | start => rfl
  | group column _ _ => rfl

theorem Opens.settled (h : Opens outer floor base) (ready : Operator → Bool) :
    Settled ready base := by
  cases h with
  | start => trivial
  | group column _ _ => trivial

theorem Opens.closesMatched (h : Opens outer floor base) : ClosesMatched Lexeme.token outer := by
  induction h with
  | start => exact Balanced.nil.closesMatched
  | group column _ hgroup ih =>
      exact ih.append (hgroup.balanced.closesMatched.append (closesMatched_open rfl))

theorem eq_nil_of_settled (h : Settled (fun _ => true) (row waiting ++ base)) : waiting = [] := by
  cases waiting with
  | nil => rfl
  | cons first waiting => contradiction

section

variable [Operator.Arithmetic]

/-! ## Reductions -/

theorem ensures_reduce {lexemes : List Lexeme} {op : Operator} {column : Nat}
    {operands : List Float} (hopens : Opens outer floor base)
    (hholds : Holds group ((op, column) :: waiting) count)
    (hlength : operands.length = floor + count) (hmem : group ⊆ lexemes)
    (division : DivisionPolicy) :
    (reduce division op column operands (row waiting ++ base)).Ensures
      (fun state => ∃ count, Holds group waiting count ∧ state.operands.length = floor + count)
      (Culprit division lexemes) := by
  have hread : ⟨.operator op, column⟩ ∈ lexemes := hmem (hholds.read op column (by simp))
  rw [reduce_eq, groupFloor_row, hopens.groupFloor_eq]
  cases hpair : pair? floor operands with
  | none => exact ensures_failed (.operator hread)
  | some taken =>
      obtain ⟨left, right, rest⟩ := taken
      obtain ⟨rfl, hfloor⟩ := pair?_eq_some_iff.mp hpair
      dsimp only
      cases hrefused : refusesDivision division op right with
      | true =>
          obtain ⟨⟨hdivision, hdiv⟩, -⟩ : (division = .reject ∧ op = .div) ∧ _ := by
            simpa [refusesDivision] using hrefused
          subst hdiv
          exact ensures_failed (.division hdivision hread)
      | false =>
          rw [List.length_cons, List.length_cons] at hlength
          obtain ⟨kept, rfl⟩ : ∃ kept, count = kept + 2 := ⟨rest.length - floor, by omega⟩
          refine (ensures_accepted ⟨kept + 1, hholds.applied, ?_⟩).after _
          rw [List.length_cons]
          omega

theorem ensures_reduceWhile {lexemes : List Lexeme} {operands : List Float}
    (hopens : Opens outer floor base) (hholds : Holds group waiting count)
    (hlength : operands.length = floor + count) (hmem : group ⊆ lexemes)
    (division : DivisionPolicy) (ready : Operator → Bool) :
    (reduceWhile division ready operands (row waiting ++ base)).Ensures (Traces (outer ++ group))
      (Culprit division lexemes) := by
  induction waiting generalizing operands count with
  | nil =>
      have hsettled : Settled ready (row [] ++ base) := hopens.settled ready
      rw [reduceWhile_of_settled hsettled]
      exact ensures_accepted (.innermost hopens hholds hlength)
  | cons first waiting ih =>
      obtain ⟨op, column⟩ := first
      cases hready : ready op with
      | false =>
          have hsettled : Settled ready (row ((op, column) :: waiting) ++ base) := hready
          rw [reduceWhile_of_settled hsettled]
          exact ensures_accepted (.innermost hopens hholds hlength)
      | true =>
          have hreduce := ensures_reduce hopens hholds hlength hmem division
          rw [row_cons, List.cons_append, reduceWhile_ready hready]
          refine hreduce.andThen fun _ state _ hstate => ?_
          obtain ⟨_, hholds', hlength'⟩ := hstate
          exact ih hholds' hlength'

theorem Traces.ensures_reduceWhile {seen : List Lexeme} {state : Stacks} (h : Traces seen state)
    (rest : List Lexeme) (division : DivisionPolicy) (ready : Operator → Bool) :
    (reduceWhile division ready state.operands state.pending).Ensures (Traces seen)
      (Culprit division (seen ++ rest)) := by
  cases h with
  | @innermost outer group _ _ _ _ _ hopens hholds hlength =>
      have hmem : group ⊆ outer ++ group ++ rest := fun _ hin =>
        List.mem_append_left rest (List.mem_append_right outer hin)
      exact Stacks.ensures_reduceWhile hopens hholds hlength hmem division ready

/-! ## Tokens -/

omit [Operator.Arithmetic] in
theorem Traces.ensures_leaveGroup {division : DivisionPolicy} {seen rest : List Lexeme}
    {state : Stacks} (h : Traces seen state) (hsettled : Settled (fun _ => true) state.pending)
    (column : Nat) :
    (leaveGroup column state).Ensures (Traces (seen ++ [⟨.closeParen, column⟩]))
      (Culprit division (seen ++ ⟨.closeParen, column⟩ :: rest)) := by
  cases h with
  | @innermost outer group floor count base waiting operands hopens hholds hlength =>
      obtain rfl := eq_nil_of_settled hsettled
      cases hopens with
      | start =>
          exact ensures_failed (.unopened ⟨group, rest, rfl,
            hholds.balanced.not_hasPartnerBefore, hholds.balanced.closesMatched⟩)
      | @group outer' group' floor' count' base' waiting' opened hopens' hholds' =>
          have hcount : operands.length - (floor' + count') = count := by omega
          simp only [row_nil, List.nil_append, leaveGroup, hcount]
          rcases count with _ | _ | count
          · obtain rfl := hholds.filled.resolve_right (Nat.lt_irrefl 0)
            exact ensures_failed (.emptyGroup ⟨outer' ++ group', opened, rest, by simp⟩)
          · refine ensures_accepted ?_
            have htraces : Traces (outer' ++ (group' ++ ⟨.openParen, opened⟩ ::
                (group ++ [⟨.closeParen, column⟩]))) ⟨operands, row waiting' ++ base'⟩ :=
              .innermost hopens' (hholds'.enclosed hholds opened column) (by omega)
            simpa using htraces
          · exact ensures_failed (.unjoinedGroup ⟨outer' ++ group', group, column, rest, by simp,
              hholds.balanced, Nat.le_add_left 2 count, hholds.count_eq_of_done⟩)

theorem Traces.ensures_push {seen rest : List Lexeme} {state : Stacks} (h : Traces seen state)
    (division : DivisionPolicy) (lexeme : Lexeme) :
    (push division lexeme state).Ensures (Traces (seen ++ [lexeme]))
      (Culprit division (seen ++ lexeme :: rest)) := by
  obtain ⟨token, column⟩ := lexeme
  cases token with
  | number value =>
      cases h with
      | innermost hopens hholds hlength =>
          refine ensures_accepted ?_
          rw [List.append_assoc]
          exact .innermost hopens (hholds.number value column) (by simp [hlength, Nat.add_assoc])
  | operator op =>
      have hreduce := h.ensures_reduceWhile (⟨.operator op, column⟩ :: rest) division
        (·.reducesBefore op)
      simp only [push, pushOperator]
      refine hreduce.andThen fun _ reduced _ hreduced => ensures_accepted ?_
      cases hreduced with
      | innermost hopens hholds hlength =>
          rw [List.append_assoc]
          exact .innermost hopens (hholds.operator op column) hlength
  | openParen =>
      cases h with
      | innermost hopens hholds hlength =>
          refine ensures_accepted ?_
          have htraces := Traces.innermost (hopens.group column hholds) holds_nil hlength
          rw [List.append_nil, ← List.append_assoc, ← hlength] at htraces
          exact htraces
  | closeParen =>
      exact (h.ensures_reduceWhile _ division _).andThen fun _ _ hreduce hreduced =>
        hreduced.ensures_leaveGroup (settled_of_reaches hreduce) column

theorem Traces.ensures_pushAll {seen rest : List Lexeme} {state : Stacks} (h : Traces seen state)
    (division : DivisionPolicy) :
    (pushAll division rest state).Ensures (Traces (seen ++ rest))
      (Culprit division (seen ++ rest)) := by
  induction rest generalizing seen state with
  | nil =>
      rw [List.append_nil]
      exact ensures_accepted h
  | cons lexeme rest ih =>
      refine (h.ensures_push division lexeme).andThen fun _ pushed _ hpushed => ?_
      have hrest := ih hpushed
      rw [List.append_assoc] at hrest
      exact hrest.after _

/-! ## Runs -/

omit [Operator.Arithmetic] in
theorem Traces.culprit_of_value {division : DivisionPolicy} {lexemes : List Lexeme}
    {state : Stacks} (h : Traces lexemes state)
    (hsettled : Settled (fun _ => true) state.pending) {error : EvalError}
    (herror : state.value = .error error) : Culprit division lexemes error := by
  cases h with
  | @innermost outer group floor count base waiting operands hopens hholds hlength =>
      obtain rfl := eq_nil_of_settled hsettled
      cases hopens with
      | @group outer' group' floor' count' base' waiting' opened hopens' hholds' =>
          obtain rfl := Except.error.inj herror
          have houter := (hopens'.group opened hholds').closesMatched
          exact .unclosed (houter.append hholds.balanced.closesMatched)
            ⟨outer' ++ group', group, by simp, hholds.balanced.not_hasPartnerAfter,
              hholds.balanced.opensMatched⟩
      | start =>
          obtain rfl : operands.length = count := hlength.trans (Nat.zero_add count)
          rcases operands with _ | ⟨first, _ | ⟨second, others⟩⟩
          · obtain rfl := Except.error.inj herror
            exact .noValue (hholds.filled.resolve_right (Nat.lt_irrefl 0))
          · contradiction
          · obtain rfl := Except.error.inj herror
            exact .unjoined ⟨by simp, hholds.count_eq_of_done⟩

theorem culprit_of_run_error {division : DivisionPolicy} {lexemes : List Lexeme}
    {error : EvalError} (h : (run division lexemes .empty).result = .error error) :
    Culprit division lexemes error := by
  have hsteps : ((pushAll division lexemes .empty).andThen (reduceGroup division)).Ensures
      (fun state => Traces lexemes state ∧ Settled (fun _ => true) state.pending)
      (Culprit division lexemes) := by
    refine (traces_empty.ensures_pushAll division).andThen fun _ pushed _ hpushed => ?_
    have hreduce := hpushed.ensures_reduceWhile [] division fun _ => true
    rw [List.append_nil] at hreduce
    exact ⟨fun hsuccess => ⟨hreduce.leaves_state hsuccess,
      settled_of_reaches (reaches_of_success hsuccess)⟩, hreduce.blames_error⟩
  rw [run_eq_conclude] at h
  generalize (pushAll division lexemes .empty).andThen (reduceGroup division) = outcome
    at hsteps h
  cases herror : outcome.error? with
  | some _ =>
      simp only [conclude, herror, Option.elim_some] at h
      exact Except.error.inj h ▸ hsteps.blames_error _ herror
  | none =>
      obtain ⟨htraces, hsettled⟩ := hsteps.leaves_state herror
      simp only [conclude, herror, Option.elim_none] at h
      exact htraces.culprit_of_value hsettled h

end

end Stacks

/-! ## Texts -/

theorem Culprit.unjoinedGroup_eq {division : DivisionPolicy} {lexemes : List Lexeme}
    {error : EvalError} {opened count : Nat} (h : Culprit division lexemes error)
    (herror : error = .unjoinedGroup opened count) : UnjoinedGroup lexemes opened count := by
  cases h with
  | unjoinedGroup hgroup =>
      obtain ⟨rfl, rfl⟩ := EvalError.unjoinedGroup_inj herror
      exact hgroup
  | @unjoined count' _ =>
      have hinitial := EvalError.initial?_unjoinedGroup opened count
      exact absurd herror.symm (EvalError.ne_unjoined_of_initial? hinitial rfl count')
  | noValue _ =>
      have hinitial := EvalError.initial?_noValue
      exact absurd herror (EvalError.ne_unjoinedGroup_of_initial? hinitial (by decide) _ _)
  | operator _ | emptyGroup _ | division _ _ | unopened _ | unclosed _ _ => contradiction

theorem Culprit.unjoined_eq {division : DivisionPolicy} {lexemes : List Lexeme}
    {error : EvalError} {count : Nat} (h : Culprit division lexemes error)
    (herror : error = .unjoined count) : Unjoined lexemes count := by
  cases h with
  | unjoined hcount => exact EvalError.unjoined_inj herror ▸ hcount
  | @unjoinedGroup opened count' _ =>
      have hinitial := EvalError.initial?_unjoinedGroup opened count'
      exact absurd herror (EvalError.ne_unjoined_of_initial? hinitial rfl count)
  | noValue _ =>
      have hinitial := EvalError.initial?_noValue
      exact absurd herror (EvalError.ne_unjoined_of_initial? hinitial rfl count)
  | operator _ | emptyGroup _ | division _ _ | unopened _ | unclosed _ _ => contradiction

/-- What an error of an evaluation says of the text that is refused. -/
def Locates (division : DivisionPolicy) (source : List Char) : EvalError → Prop
  | .malformedToken fragment column => FirstUnread source column fragment.toList
  | .insufficientOperands symbol column => ∃ lexemes, Reads source lexemes ∧
      ((∃ op : Operator, op.symbol = symbol ∧ ⟨.operator op, column⟩ ∈ lexemes) ∨
        symbol = ')' ∧ EmptyGroup lexemes column)
  | .unbalancedParentheses column => ∃ lexemes, Reads source lexemes ∧
      (FirstUnopened lexemes column ∨
        ClosesMatched Lexeme.token lexemes ∧ LastUnclosed lexemes column)
  | .malformedExpression details =>
      (∀ opened count, EvalError.malformedExpression details = .unjoinedGroup opened count →
        ∃ lexemes, Reads source lexemes ∧ UnjoinedGroup lexemes opened count) ∧
      ∀ count, EvalError.malformedExpression details = .unjoined count →
        ∃ lexemes, Reads source lexemes ∧ Unjoined lexemes count
  | .divisionByZero column => division = .reject ∧
      ∃ lexemes, Reads source lexemes ∧ ⟨.operator .div, column⟩ ∈ lexemes

theorem locates_tooShort (division : DivisionPolicy) (source : List Char) (expression : String) :
    Locates division source (.tooShort expression) := by
  have hinitial := EvalError.initial?_tooShort expression
  constructor
  · intro opened count herror
    exact absurd herror (EvalError.ne_unjoinedGroup_of_initial? hinitial (by decide) _ _)
  · intro count herror
    exact absurd herror (EvalError.ne_unjoined_of_initial? hinitial rfl count)

theorem Culprit.locates {division : DivisionPolicy} {source : List Char} {lexemes : List Lexeme}
    {error : EvalError} (h : Culprit division lexemes error) (hreads : Reads source lexemes) :
    Locates division source error := by
  have hgroup {opened count : Nat} (herror : error = .unjoinedGroup opened count) :
      ∃ lexemes, Reads source lexemes ∧ UnjoinedGroup lexemes opened count :=
    ⟨lexemes, hreads, h.unjoinedGroup_eq herror⟩
  have hlist {count : Nat} (herror : error = .unjoined count) :
      ∃ lexemes, Reads source lexemes ∧ Unjoined lexemes count :=
    ⟨lexemes, hreads, h.unjoined_eq herror⟩
  cases h with
  | @operator op _ hmem => exact ⟨lexemes, hreads, .inl ⟨op, rfl, hmem⟩⟩
  | emptyGroup hempty => exact ⟨lexemes, hreads, .inr ⟨rfl, hempty⟩⟩
  | division hdivision hmem => exact ⟨hdivision, lexemes, hreads, hmem⟩
  | unopened hfirst => exact ⟨lexemes, hreads, .inl hfirst⟩
  | unclosed hcloses hlast => exact ⟨lexemes, hreads, .inr ⟨hcloses, hlast⟩⟩
  | unjoinedGroup _ => exact ⟨fun _ _ => hgroup, fun _ => hlist⟩
  | unjoined _ => exact ⟨fun _ _ => hgroup, fun _ => hlist⟩
  | noValue _ => exact ⟨fun _ _ => hgroup, fun _ => hlist⟩

/--
Every error of an evaluation points at its culprit.  A malformed fragment is the first one
that is no token, and any other column is that of a token of the text: an operator without
its operands, a group without a token, a division that is refused, or a parenthesis without
a partner.  The numbers of values that are not joined are counted over the tokens.
-/
theorem locates_of_evaluate_error {division : DivisionPolicy} {source : String}
    {error : EvalError} (h : (evaluate division source).result = .error error) :
    Locates division source.toList error := by
  rw [result_evaluate] at h
  cases hlength : checkLength source with
  | error short =>
      rw [hlength] at h
      obtain rfl : short = error := Except.error.inj h
      unfold checkLength at hlength
      dsimp only at hlength
      split at hlength
      · exact Except.error.inj hlength ▸ locates_tooShort division source.toList _
      · contradiction
  | ok _ =>
      rw [hlength] at h
      cases hread : (tokenize source).result with
      | error _ =>
          rw [hread] at h
          obtain ⟨column, chars, hfirst, rfl⟩ := firstUnread_of_tokenize_error hread
          obtain rfl := Except.error.inj h
          rw [Locates, String.toList_ofList]
          exact hfirst
      | ok lexemes =>
          rw [hread] at h
          exact (Stacks.culprit_of_run_error h).locates (reads_of_tokenize_ok hread)

theorem locates_of_evaluate_error_unclosed :
    (evaluate .ieee "( 1 + ( 2 * 3 )").result = .error (.unbalancedParentheses 1) ∧
      ∃ lexemes, Reads "( 1 + ( 2 * 3 )".toList lexemes ∧
        (FirstUnopened lexemes 1 ∨
          ClosesMatched Lexeme.token lexemes ∧ LastUnclosed lexemes 1) := by
  have hrun : (evaluate .ieee "( 1 + ( 2 * 3 )").result = .error (.unbalancedParentheses 1) := by
    decide +kernel
  exact ⟨hrun, locates_of_evaluate_error hrun⟩

end Calculator
