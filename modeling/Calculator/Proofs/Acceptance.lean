import Calculator.Proofs.Group
import Calculator.Proofs.Outline

/-!
# Which token lists yield a value

Under the lenient division policy only the number of operands can make a step fail,
so the success of a run is a matter of counting.  For each group it is enough to know
how many operands and operators wait in it, and how many of these operators an
operator that arrives applies.
-/

namespace Calculator

/-! ## Exact conditions of success -/

namespace Outcome

/-- The step succeeds exactly under `condition`, and the stacks it leaves then satisfy `leaves`. -/
structure SucceedsIff (outcome : Outcome) (condition : Prop) (leaves : Stacks → Prop) : Prop where
  success_iff : outcome.error? = none ↔ condition
  leaves_state : outcome.error? = none → leaves outcome.state

theorem SucceedsIff.imp {outcome : Outcome} {condition condition' : Prop}
    {leaves leaves' : Stacks → Prop} (h : outcome.SucceedsIff condition leaves)
    (hcondition : condition ↔ condition')
    (hleaves : condition → ∀ state, leaves state → leaves' state) :
    outcome.SucceedsIff condition' leaves' :=
  ⟨h.success_iff.trans hcondition, fun hsuccess =>
    hleaves (h.success_iff.mp hsuccess) outcome.state (h.leaves_state hsuccess)⟩

theorem succeedsIff_accepted {state : Stacks} {condition : Prop} {leaves : Stacks → Prop}
    (hcondition : condition) (h : leaves state) : (accepted state).SucceedsIff condition leaves :=
  ⟨iff_of_true rfl hcondition, fun _ => h⟩

theorem succeedsIff_failed {state : Stacks} {error : EvalError} {condition : Prop}
    {leaves : Stacks → Prop} (h : ¬ condition) : (failed state error).SucceedsIff condition leaves :=
  ⟨iff_of_false (Option.some_ne_none error) h, fun hnone => absurd hnone (Option.some_ne_none error)⟩

theorem SucceedsIff.andThen {first : Outcome} {next : Stacks → Outcome}
    {condition condition' : Prop} {leaves leaves' : Stacks → Prop}
    (hfirst : first.SucceedsIff condition leaves)
    (hnext : condition → ∀ state, leaves state → (next state).SucceedsIff condition' leaves') :
    (first.andThen next).SucceedsIff (condition ∧ condition') leaves' := by
  cases herror : first.error? with
  | some error =>
      have hfails : ¬ condition := fun h => by
        rw [hfirst.success_iff.mpr h] at herror
        contradiction
      rw [andThen_of_error herror]
      exact ⟨iff_of_false (by simp [herror]) fun h => hfails h.1, by simp [herror]⟩
  | none =>
      have hcondition := hfirst.success_iff.mp herror
      have hlater := hnext hcondition first.state (hfirst.leaves_state herror)
      constructor
      · rw [error?_andThen_of_success herror, hlater.success_iff]
        exact (and_iff_right hcondition).symm
      · rw [error?_andThen_of_success herror, state_andThen_of_success herror]
        exact hlater.leaves_state

end Outcome

namespace Stacks

open Outcome

/-! ## Counting reductions -/

def due (ready : Operator → Bool) : List Pending → Nat
  | .operator op _ :: below => if ready op then due ready below + 1 else 0
  | _ => 0

theorem due_of_settled {ready : Operator → Bool} {pending : List Pending}
    (h : Settled ready pending) : due ready pending = 0 := by
  match pending, h with
  | [], _ => rfl
  | .openParen _ _ :: _, _ => rfl
  | .operator op _ :: below, hready =>
      have hwaits : ready op = false := hready
      simp [due, hwaits]

theorem due_of_forall {ready : Operator → Bool} (hready : ∀ op, ready op = true)
    {pending : List Pending} (h : openGroups pending = 0) : due ready pending = pending.length := by
  induction pending with
  | nil => rfl
  | cons entry below ih =>
      cases entry with
      | openParen column depth => simp at h
      | operator op column =>
          have hbelow : due ready below = below.length := ih h
          simp [due, hready, hbelow]

theorem groupFloor_of_openGroups {pending : List Pending} (h : openGroups pending = 0) :
    groupFloor pending = 0 := by
  induction pending with
  | nil => rfl
  | cons entry below ih =>
      cases entry with
      | openParen column depth => simp at h
      | operator op column => exact ih h

/-! ## What a group holds -/

/--
The stacks that the constituents `seen` of the innermost group leave, as far as they
can be counted.  An operator that arrives finds all that wait due, but for one it may
have to hold back.
-/
structure Counted (seen : List Constituent) (state : Stacks) : Prop where
  closed : openGroups state.pending = 0
  count : state.operands.length + (operatorsOf seen).length =
    operandCount seen + state.pending.length
  pending_le : state.pending.length ≤ (operatorsOf seen).length
  reduced : state.pending.length = (operatorsOf seen).length ∨ 1 ≤ state.operands.length
  due_add : ∀ op, due (·.reducesBefore op) state.pending + heldBack op (operatorsOf seen) =
    state.pending.length

theorem counted_empty : Counted [] .empty where
  closed := rfl
  count := rfl
  pending_le := Nat.le_refl 0
  reduced := .inl rfl
  due_add op := by simp [heldBack, due, empty]

theorem Counted.pushNumber {seen : List Constituent} {state : Stacks} (h : Counted seen state)
    (value : Float) : Counted (seen ++ [.operand]) (pushNumber value state) where
  closed := h.closed
  count := by
    have hcount := h.count
    simp only [Stacks.pushNumber, operandCount_append, operatorsOf_append, operandCount_operand,
      operatorsOf_operand, List.append_nil, List.length_cons]
    omega
  pending_le := by simpa [Stacks.pushNumber] using h.pending_le
  reduced := .inr (by simp [Stacks.pushNumber])
  due_add := by simpa [Stacks.pushNumber] using h.due_add

structure Awaits (op : Operator) (seen : List Constituent) (state : Stacks) : Prop where
  closed : openGroups state.pending = 0
  settled : Settled (·.reducesBefore op) state.pending
  length_pending : state.pending.length = heldBack op (operatorsOf seen)
  count : state.operands.length + (operatorsOf seen).length =
    operandCount seen + state.pending.length
  reduced : state.pending.length = (operatorsOf seen).length ∨ 1 ≤ state.operands.length

theorem reducesBefore_of_rank_one {next : Operator} (h : next.rank = 1) (op : Operator) :
    op.reducesBefore next = true := by
  have hop : 1 ≤ op.rank := by cases op <;> decide
  simpa [Operator.reducesBefore, h] using hop

theorem Awaits.due_add {op : Operator} {seen : List Constituent} {state : Stacks}
    (h : Awaits op seen state) (column : Nat) (next : Operator) :
    due (·.reducesBefore next) (.operator op column :: state.pending) +
      heldBack next (operatorsOf seen ++ [op]) = state.pending.length + 1 := by
  have hrank (op : Operator) : op.rank = 1 ∨ op.rank = 2 := by cases op <;> simp [Operator.rank]
  obtain hnext | hnext := hrank next
  · have hall : due (·.reducesBefore next) (.operator op column :: state.pending) =
        state.pending.length + 1 := due_of_forall (reducesBefore_of_rank_one hnext) h.closed
    rw [hall, heldBack_of_rank_one hnext]
  · have hlength := h.length_pending
    obtain hop | hop := hrank op
    · rw [heldBack_of_rank_one hop] at hlength
      have hwaits : op.reducesBefore next = false := by
        simp [Operator.reducesBefore, hnext, hop]
      have hsettled : Settled (·.reducesBefore next) (.operator op column :: state.pending) :=
        hwaits
      rw [due_of_settled hsettled, heldBack_append_rank_one hnext hop, hlength]
    · have hready : op.reducesBefore next = true := by
        simp [Operator.reducesBefore, hnext, hop]
      have hsame : (fun other : Operator => other.reducesBefore next) =
          fun other => other.reducesBefore op := by
        funext other
        simp [Operator.reducesBefore, hnext, hop]
      have hbelow : due (·.reducesBefore next) state.pending = 0 := by
        rw [hsame]
        exact due_of_settled h.settled
      rw [heldBack_append_rank_two hnext hop, ← hlength]
      simp only [due, hready, if_true, hbelow]
      omega

theorem Awaits.pushOperator {op : Operator} {seen : List Constituent} {state : Stacks}
    (h : Awaits op seen state) (column : Nat) :
    Counted (seen ++ [.operator op])
      { state with pending := .operator op column :: state.pending } := by
  have hheld := heldBack_le_length op (operatorsOf seen)
  have hlength := h.length_pending
  have hcount := h.count
  have hreduced := h.reduced
  have hoperators : (operatorsOf (seen ++ [.operator op])).length =
      (operatorsOf seen).length + 1 := by simp
  have hoperands : operandCount (seen ++ [.operator op]) = operandCount seen := by simp
  constructor
  · exact h.closed
  · simp only [hoperators, hoperands, List.length_cons]
    omega
  · simp only [hoperators, List.length_cons]
    omega
  · simp only [hoperators, List.length_cons]
    omega
  · intro next
    rw [operatorsOf_append, operatorsOf_operator]
    exact h.due_add column next

/-! ## Steps -/

variable [Operator.Arithmetic]

theorem succeedsIff_reduce (op : Operator) (column : Nat) (operands : List Float)
    {below : List Pending} (h : openGroups below = 0) :
    (reduce .ieee op column operands below).SucceedsIff (2 ≤ operands.length)
      fun last => last.operands.length + 1 = operands.length ∧ last.pending = below := by
  rw [reduce_eq]
  rw [groupFloor_of_openGroups h]
  rcases operands with _ | ⟨right, _ | ⟨left, rest⟩⟩
  · exact succeedsIff_failed (by simp)
  · exact succeedsIff_failed (by simp)
  · have hpair : pair? 0 (right :: left :: rest) = some (left, right, rest) :=
      pair?_eq_some_iff.mpr ⟨rfl, Nat.zero_le _⟩
    rw [hpair]
    exact ⟨iff_of_true rfl (by simp), fun _ => ⟨rfl, rfl⟩⟩

theorem succeedsIff_reduceWhile (ready : Operator → Bool) (operands : List Float)
    {pending : List Pending} (h : openGroups pending = 0) :
    (reduceWhile .ieee ready operands pending).SucceedsIff
      (due ready pending = 0 ∨ due ready pending + 1 ≤ operands.length)
      fun last => last.operands.length + due ready pending = operands.length ∧
        last.pending.length + due ready pending = pending.length := by
  induction pending generalizing operands with
  | nil => exact succeedsIff_accepted (.inl rfl) ⟨rfl, rfl⟩
  | cons entry below ih =>
      cases entry with
      | openParen column depth => simp at h
      | operator op column =>
          cases hready : ready op with
          | false =>
              have hsettled : Settled ready (.operator op column :: below) := hready
              rw [reduceWhile_of_settled hsettled, due_of_settled hsettled]
              exact succeedsIff_accepted (.inl rfl) ⟨rfl, rfl⟩
          | true =>
              have hdue : due ready (.operator op column :: below) = due ready below + 1 := by
                simp [due, hready]
              have hbelow : openGroups below = 0 := h
              have hfirst := succeedsIff_reduce op column operands hbelow
              have hrest (middle : Stacks) (hmiddle : middle.operands.length + 1 = operands.length) :
                  (reduceWhile .ieee ready middle.operands below).SucceedsIff
                    (due ready below = 0 ∨ due ready below + 2 ≤ operands.length)
                    fun last => last.operands.length + due ready below + 1 = operands.length ∧
                      last.pending.length + due ready below = below.length := by
                refine (ih middle.operands hbelow).imp (by omega) fun _ last hlast => ⟨?_, hlast.2⟩
                have hoperands := hlast.1
                omega
              rw [reduceWhile_ready hready, hdue]
              have hall := hfirst.andThen fun _ middle hmiddle => hrest middle hmiddle.1
              refine hall.imp (by omega) fun _ last hlast => ?_
              obtain ⟨hoperands, hpending⟩ := hlast
              rw [List.length_cons]
              omega

theorem Counted.succeedsIff_reduceWhile {seen : List Constituent} {state : Stacks}
    (h : Counted seen state) (op : Operator) :
    (reduceWhile .ieee (·.reducesBefore op) state.operands state.pending).SucceedsIff
      (Admits seen op) (Awaits op seen) := by
  have hdue := h.due_add op
  have hcount := h.count
  have hle := h.pending_le
  have hreduced := h.reduced
  have hheld := heldBack_le_length op (operatorsOf seen)
  have hone := heldBack_le_one op (operatorsOf seen)
  have hsteps := Stacks.succeedsIff_reduceWhile (·.reducesBefore op) state.operands h.closed
  constructor
  · rw [hsteps.success_iff, Admits, dueBefore]
    omega
  · intro hsuccess
    have hcondition := hsteps.success_iff.mp hsuccess
    obtain ⟨hoperands, hpending⟩ := hsteps.leaves_state hsuccess
    refine ⟨?_, settled_of_reaches (reaches_of_success hsuccess), ?_, ?_, ?_⟩
    · exact (openGroups_reduceWhile _ _ _ _).trans h.closed
    · omega
    · omega
    · omega

theorem Counted.succeedsIff_pushOperator {seen : List Constituent} {state : Stacks}
    (h : Counted seen state) (op : Operator) (column : Nat) :
    (pushOperator .ieee op column state).SucceedsIff (Admits seen op)
      (Counted (seen ++ [.operator op])) := by
  have hall : (pushOperator .ieee op column state).SucceedsIff (Admits seen op ∧ True)
      (Counted (seen ++ [.operator op])) :=
    (h.succeedsIff_reduceWhile op).andThen fun _ _ hawaits =>
      succeedsIff_accepted trivial (hawaits.pushOperator column)
  exact hall.imp (and_iff_left trivial) fun _ _ => id

/-! ## Runs -/

theorem reduceGroup_eq (division : DivisionPolicy) (state : Stacks) :
    reduceGroup division state =
      reduceWhile division (·.reducesBefore .add) state.operands state.pending := by
  have hall : (fun _ : Operator => true) = fun op => op.reducesBefore .add := by
    funext op
    exact (reducesBefore_of_rank_one rfl op).symm
  rw [reduceGroup, hall]

theorem exists_run_ok_iff {lexemes : List Lexeme} {enclosed : Prop}
    (h : (pushAll .ieee lexemes .empty).SucceedsIff (enclosed ∧ Ordered [] (outline 0 lexemes))
      (Counted (outline 0 lexemes))) :
    (∃ v, (run .ieee lexemes .empty).result = .ok v) ↔
      enclosed ∧ Joined (outline 0 lexemes) := by
  have hsteps : ((pushAll .ieee lexemes .empty).andThen (reduceGroup .ieee)).SucceedsIff
      ((enclosed ∧ Ordered [] (outline 0 lexemes)) ∧ Admits (outline 0 lexemes) .add)
      (Awaits .add (outline 0 lexemes)) :=
    h.andThen fun _ state hcounted => by
      rw [reduceGroup_eq]
      exact hcounted.succeedsIff_reduceWhile .add
  have hheld : heldBack .add (operatorsOf (outline 0 lexemes)) = 0 := heldBack_of_rank_one rfl _
  rw [joined_iff]
  constructor
  · rintro ⟨v, hrun⟩
    have hreaches := run_result_eq_ok_iff.mp hrun
    obtain ⟨⟨henclosed, hordered⟩, -⟩ := hsteps.success_iff.mp hreaches.success
    have hcount := (hsteps.leaves_state hreaches.success).count
    simp only [hreaches.state_eq, List.length_singleton, List.length_nil] at hcount
    exact ⟨henclosed, by omega, hordered⟩
  · rintro ⟨henclosed, hjoined, hordered⟩
    have hadmits : Admits (outline 0 lexemes) .add := by
      rw [Admits, dueBefore]
      omega
    have hsuccess := hsteps.success_iff.mpr ⟨⟨henclosed, hordered⟩, hadmits⟩
    have hawaits := hsteps.leaves_state hsuccess
    generalize hstate : ((pushAll .ieee lexemes .empty).andThen (reduceGroup .ieee)).state = last
      at hawaits
    obtain ⟨operands, pending⟩ := last
    have hpending : pending.length = 0 := hawaits.length_pending.trans hheld
    have hcount : operands.length + (operatorsOf (outline 0 lexemes)).length =
        operandCount (outline 0 lexemes) + pending.length := hawaits.count
    obtain rfl := List.length_eq_zero_iff.mp hpending
    have hone : operands.length = 1 := by omega
    obtain ⟨v, rfl⟩ := List.length_eq_one_iff.mp hone
    exact ⟨v, (run_yields_iff.mpr ⟨hsuccess, rfl, hstate⟩).1⟩

theorem SucceedsIff.pushAll_cons {lexeme : Lexeme} {rest : List Lexeme} {state : Stacks}
    {condition condition' : Prop} {leaves leaves' : Stacks → Prop}
    (hpush : (push .ieee lexeme state).SucceedsIff condition leaves)
    (hrest : ∀ pushed, leaves pushed →
      (pushAll .ieee rest pushed).SucceedsIff condition' leaves') :
    (pushAll .ieee (lexeme :: rest) state).SucceedsIff (condition ∧ condition') leaves' :=
  hpush.andThen fun _ pushed hpushed =>
    ⟨(hrest pushed hpushed).success_iff, (hrest pushed hpushed).leaves_state⟩

theorem SucceedsIff.pushAll_group {opened closed : Lexeme} {inner rest : List Lexeme}
    {state : Stacks} {condition : Prop} {leaves : Stacks → Prop}
    (hopen : opened.token = .openParen) (hinner : Balanced Lexeme.token inner)
    (hclose : closed.token = .closeParen)
    (hrest : ∀ v, (pushAll .ieee rest (Stacks.pushNumber v state)).SucceedsIff condition leaves) :
    (pushAll .ieee (opened :: (inner ++ closed :: rest)) state).SucceedsIff
      ((∃ v, (run .ieee inner .empty).result = .ok v) ∧ condition) leaves := by
  have hgroup {done : List Reduction} {last : Stacks} :=
    @reaches_pushAll_group_cons_iff _ .ieee _ _ _ rest hopen hinner hclose state last done
  constructor
  · constructor
    · intro hsuccess
      obtain ⟨v, _, _, hyields, hlast, -⟩ := hgroup.mp (reaches_of_success hsuccess)
      exact ⟨⟨v, hyields.1⟩, (hrest v).success_iff.mp hlast.success⟩
    · rintro ⟨⟨v, hrun⟩, hcondition⟩
      have hlast := reaches_of_success ((hrest v).success_iff.mpr hcondition)
      exact (hgroup.mpr ⟨v, _, _, ⟨hrun, rfl⟩, hlast, rfl⟩).success
  · intro hsuccess
    obtain ⟨v, _, _, -, hlast, -⟩ := hgroup.mp (reaches_of_success hsuccess)
    rw [← hlast.state_eq]
    exact (hrest v).leaves_state hlast.success

theorem succeedsIff_pushAll {lexemes : List Lexeme} (hbalanced : Balanced Lexeme.token lexemes)
    {seen : List Constituent} {state : Stacks} (h : Counted seen state) :
    (pushAll .ieee lexemes state).SucceedsIff
      ((∀ inner, Encloses Lexeme.token lexemes inner → Joined (outline 0 inner)) ∧
        Ordered seen (outline 0 lexemes))
      (Counted (seen ++ outline 0 lexemes)) := by
  -- by how the parentheses match: a group inside is a run of its own and then an operand
  induction hbalanced generalizing seen state with
  | nil =>
      refine succeedsIff_accepted ⟨fun _ hinner => absurd hinner not_encloses_nil, ordered_nil _⟩ ?_
      rwa [outline, List.append_nil]
  | @plain lexeme rest hopen hclose _ ih =>
      obtain ⟨token, column⟩ := lexeme
      simp only [encloses_plain_iff hopen]
      cases token with
      | openParen => contradiction
      | closeParen => contradiction
      | number value =>
          have hpush : (push .ieee ⟨.number value, column⟩ state).SucceedsIff True
              (Counted (seen ++ [.operand])) := succeedsIff_accepted trivial (h.pushNumber value)
          have hall := SucceedsIff.pushAll_cons hpush fun _ hpushed => ih hpushed
          rw [List.append_assoc, ← ordered_operand_iff, true_and] at hall
          exact hall
      | operator op =>
          have hpush : (push .ieee ⟨.operator op, column⟩ state).SucceedsIff (Admits seen op)
              (Counted (seen ++ [.operator op])) := h.succeedsIff_pushOperator op column
          have hall := SucceedsIff.pushAll_cons hpush fun _ hpushed => ih hpushed
          rw [List.append_assoc, and_left_comm, ← ordered_operator_iff] at hall
          exact hall
  | @group opened closed inner rest hopen hinner hclose _ ihInner ihRest =>
      have hall := SucceedsIff.pushAll_group hopen hinner hclose fun v => ihRest (h.pushNumber v)
      rw [exists_run_ok_iff (ihInner counted_empty), List.append_assoc,
        ← ordered_operand_iff] at hall
      rw [outline_group hopen hinner hclose]
      simp only [encloses_group_iff hopen hinner hclose, or_imp, forall_and, forall_eq]
      refine hall.imp ⟨?_, ?_⟩ fun _ _ => id
      · rintro ⟨⟨hinside, hjoined⟩, hafter, hordered⟩
        exact ⟨⟨hjoined, hinside, hafter⟩, hordered⟩
      · rintro ⟨⟨hjoined, hinside, hafter⟩, hordered⟩
        exact ⟨⟨hinside, hjoined⟩, hafter, hordered⟩

/--
A run yields a value under the lenient policy exactly when the parentheses match and,
in every group and in the whole list, the operators join the operands to one value.
-/
theorem exists_run_ieee_ok_iff (lexemes : List Lexeme) :
    (∃ v, (run .ieee lexemes .empty).result = .ok v) ↔
      Balanced Lexeme.token lexemes ∧
        ∀ group, group = lexemes ∨ Encloses Lexeme.token lexemes group →
          Joined (outline 0 group) := by
  have hiff (hbalanced : Balanced Lexeme.token lexemes) :=
    exists_run_ok_iff (succeedsIff_pushAll hbalanced counted_empty)
  constructor
  · rintro ⟨v, hrun⟩
    have hbalanced := balanced_of_run_ok hrun
    obtain ⟨henclosed, hjoined⟩ := (hiff hbalanced).mp ⟨v, hrun⟩
    refine ⟨hbalanced, ?_⟩
    rintro group (rfl | hgroup)
    · exact hjoined
    · exact henclosed group hgroup
  · rintro ⟨hbalanced, hall⟩
    exact (hiff hbalanced).mpr ⟨fun inner hinner => hall inner (.inr hinner), hall _ (.inl rfl)⟩

end Stacks

end Calculator
