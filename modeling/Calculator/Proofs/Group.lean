import Calculator.Proofs.OpenGroups

/-!
# Groups

Inside a group the stacks below it are out of reach: every step above them is the
step that empty stacks would have taken, put on top of them.  So a group whose
parentheses match does on any stacks what its value does there.
-/

namespace Calculator

/-! ## Stacks on top of others -/

/-- The entry, when its stacks are put above `height` operands. -/
def Pending.raise (height : Nat) : Pending → Pending
  | operator op column => operator op column
  | openParen column depth => openParen column (depth + height)

def Event.mapState (f : Stacks → Stacks) : Event → Event
  | consumed token state => consumed token (f state)
  | event => event

namespace Outcome

def map (f : Stacks → Stacks) (outcome : Outcome) : Outcome :=
  ⟨f outcome.state, outcome.events.map (Event.mapState f), outcome.error?⟩

@[simp] theorem map_accepted (f : Stacks → Stacks) (state : Stacks) :
    (accepted state).map f = accepted (f state) := rfl

theorem map_after (f : Stacks → Stacks) (event : Event) (outcome : Outcome) :
    (after event outcome).map f = after (event.mapState f) (outcome.map f) := rfl

theorem map_andThen {f : Stacks → Stacks} {first : Outcome} {next next' : Stacks → Outcome}
    (h : first.error? = none → (next first.state).map f = next' (f first.state)) :
    (first.andThen next).map f = (first.map f).andThen next' := by
  obtain ⟨state, events, _ | error⟩ := first
  · simp only [andThen, map, ← h rfl, List.map_append]
  · rfl

@[simp] theorem reductions_map (f : Stacks → Stacks) (outcome : Outcome) :
    (outcome.map f).reductions = outcome.reductions := by
  have hreduction : Event.reduction? ∘ Event.mapState f = Event.reduction? := by
    funext event
    cases event <;> rfl
  simp only [reductions, map, List.filterMap_map, hreduction]

theorem reaches_map_iff {f : Stacks → Stacks} {outcome : Outcome} {done : List Reduction}
    {last : Stacks} :
    (outcome.map f).Reaches done last ↔ ∃ state, outcome.Reaches done state ∧ last = f state := by
  constructor
  · rintro ⟨hsuccess, hdone, rfl⟩
    exact ⟨outcome.state, ⟨hsuccess, by simpa using hdone, rfl⟩, rfl⟩
  · rintro ⟨state, ⟨hsuccess, hdone, rfl⟩, rfl⟩
    exact ⟨hsuccess, by simpa using hdone, rfl⟩

end Outcome

namespace Stacks

open Outcome

def onto (base inner : Stacks) : Stacks :=
  ⟨inner.operands ++ base.operands,
    inner.pending.map (Pending.raise base.operands.length) ++ base.pending⟩

def Opened (base : Stacks) : Prop :=
  ∃ column below, base.pending = .openParen column base.operands.length :: below

theorem opened_openGroup (column : Nat) (state : Stacks) : Opened (openGroup column state) :=
  ⟨column, state.pending, rfl⟩

@[simp] theorem onto_empty (base : Stacks) : onto base empty = base := rfl

/-! ## Steps on top of others -/

theorem groupFloor_onto {base : Stacks} (h : Opened base) (pending : List Pending) :
    groupFloor (pending.map (Pending.raise base.operands.length) ++ base.pending) =
      groupFloor pending + base.operands.length := by
  obtain ⟨column, below, hbase⟩ := h
  induction pending with
  | nil => simp [hbase]
  | cons entry pending ih =>
      cases entry with
      | openParen column depth => rfl
      | operator op column => exact ih

theorem pair?_append (floor : Nat) (operands base : List Float) :
    pair? (floor + base.length) (operands ++ base) =
      (pair? floor operands).map fun (left, right, rest) => (left, right, rest ++ base) := by
  match operands with
  | [] =>
      have hnone : pair? (floor + base.length) base = none :=
        pair?_eq_none_iff.mpr (by omega)
      simpa [pair?] using hnone
  | [right] =>
      have hnone : pair? (floor + base.length) (right :: base) = none :=
        pair?_eq_none_iff.mpr (by rw [List.length_cons]; omega)
      simpa [pair?] using hnone
  | right :: left :: rest =>
      by_cases hfloor : floor ≤ rest.length
      · simp [pair?, hfloor]
      · simp [pair?, hfloor]

section

variable [Operator.Arithmetic]

theorem reduce_onto {base : Stacks} (h : Opened base) (division : DivisionPolicy) (op : Operator)
    (column : Nat) (operands : List Float) (below : List Pending) :
    reduce division op column (operands ++ base.operands)
        (below.map (Pending.raise base.operands.length) ++ base.pending) =
      (reduce division op column operands below).map (onto base) := by
  rw [reduce_eq, reduce_eq]
  rw [groupFloor_onto h, pair?_append]
  cases pair? (groupFloor below) operands with
  | none => rfl
  | some taken =>
      obtain ⟨left, right, rest⟩ := taken
      simp only [Option.map_some]
      split <;> rfl

theorem reduceWhile_onto {base : Stacks} (h : Opened base) (division : DivisionPolicy)
    (ready : Operator → Bool) (operands : List Float) (pending : List Pending) :
    reduceWhile division ready (operands ++ base.operands)
        (pending.map (Pending.raise base.operands.length) ++ base.pending) =
      (reduceWhile division ready operands pending).map (onto base) := by
  induction pending generalizing operands with
  | nil =>
      obtain ⟨column, below, hbase⟩ := h
      have hsettled : Settled ready base.pending := by rw [hbase]; trivial
      exact reduceWhile_of_settled hsettled division _
  | cons entry below ih =>
      cases entry with
      | openParen column depth => rfl
      | operator op column =>
          rw [List.map_cons, List.cons_append, Pending.raise]
          cases hready : ready op with
          | false =>
              rw [reduceWhile_waiting hready, reduceWhile_waiting hready]
              rfl
          | true =>
              rw [reduceWhile_ready hready, reduceWhile_ready hready, reduce_onto h]
              exact (map_andThen fun _ => (ih _).symm).symm

theorem reduceGroup_onto {base : Stacks} (h : Opened base) (division : DivisionPolicy)
    (inner : Stacks) :
    reduceGroup division (onto base inner) = (reduceGroup division inner).map (onto base) :=
  reduceWhile_onto h division _ inner.operands inner.pending

omit [Operator.Arithmetic] in
theorem leaveGroup_onto (base : Stacks) (column opened depth : Nat) (operands : List Float)
    (below : List Pending) :
    leaveGroup column (onto base ⟨operands, .openParen opened depth :: below⟩) =
      (leaveGroup column ⟨operands, .openParen opened depth :: below⟩).map (onto base) := by
  simp only [leaveGroup, onto, List.map_cons, Pending.raise, List.cons_append,
    List.length_append, Nat.add_sub_add_right]
  split <;> rfl

theorem closeGroup_onto {base inner : Stacks} (h : Opened base) (division : DivisionPolicy)
    (column : Nat) (hopen : 0 < openGroups inner.pending) :
    closeGroup division column (onto base inner) =
      (closeGroup division column inner).map (onto base) := by
  unfold closeGroup
  rw [reduceGroup_onto h]
  refine (map_andThen fun hsuccess => ?_).symm
  -- the reductions stop at a group that was opened above `base`
  obtain ⟨-, hnone⟩ | ⟨opened, depth, below, hpending⟩ :=
    pending_of_reduceGroup (reaches_of_success hsuccess)
  · omega
  · generalize (reduceGroup division inner).state = reduced at hpending ⊢
    obtain ⟨operands, pending⟩ := reduced
    obtain rfl := hpending
    exact (leaveGroup_onto base column opened depth operands below).symm

theorem push_onto {base inner : Stacks} (h : Opened base) (division : DivisionPolicy)
    (lexeme : Lexeme) (hopen : lexeme.token = .closeParen → 0 < openGroups inner.pending) :
    push division lexeme (onto base inner) = (push division lexeme inner).map (onto base) := by
  obtain ⟨token, column⟩ := lexeme
  cases token with
  | number value => rfl
  | operator op =>
      have hreduce := reduceWhile_onto h division (·.reducesBefore op) inner.operands
        inner.pending
      simp only [push, pushOperator]
      rw [onto, hreduce]
      exact (map_andThen fun _ => rfl).symm
  | openParen =>
      simp only [push, openGroup, map_accepted, onto, List.length_append]
      rfl
  | closeParen => exact closeGroup_onto h division column (hopen rfl)

/-! ## Token lists on top of others -/

theorem pushAll_cons_onto {base inner : Stacks} (h : Opened base) {division : DivisionPolicy}
    {lexeme : Lexeme} {lexemes : List Lexeme}
    (hopen : lexeme.token = .closeParen → 0 < openGroups inner.pending)
    (hrest : ∀ done pushed, (push division lexeme inner).Reaches done pushed →
      pushAll division lexemes (onto base pushed) =
        (pushAll division lexemes pushed).map (onto base)) :
    pushAll division (lexeme :: lexemes) (onto base inner) =
      (pushAll division (lexeme :: lexemes) inner).map (onto base) := by
  simp only [pushAll]
  rw [push_onto h division lexeme hopen]
  refine (map_andThen fun hsuccess => ?_).symm
  rw [map_after, hrest _ _ (reaches_of_success hsuccess)]
  rfl

theorem pushAll_onto {base : Stacks} (h : Opened base) (division : DivisionPolicy)
    {lexemes : List Lexeme} (hbalanced : Balanced Lexeme.token lexemes) (inner : Stacks) :
    pushAll division lexemes (onto base inner) =
      (pushAll division lexemes inner).map (onto base) := by
  induction hbalanced generalizing inner with
  | nil => rfl
  | plain _ hclose _ ih =>
      exact pushAll_cons_onto h (fun hclose' => absurd hclose' hclose) fun _ pushed _ => ih pushed
  | group hopen hgroup hclose _ ihGroup ihRest =>
      refine pushAll_cons_onto h (fun hclose' => by simp [hopen] at hclose')
        fun _ entered henter => ?_
      rw [pushAll_append, pushAll_append, ihGroup]
      refine (map_andThen fun hsuccess => (pushAll_cons_onto h (fun _ => ?_) ?_).symm).symm
      · rw [openGroups_pushAll hgroup (reaches_of_success hsuccess)]
        have hnests := nests_push henter
        rw [hopen, nests] at hnests
        omega
      · exact fun _ pushed _ => ihRest pushed

/-! ## Groups and their values -/

omit [Operator.Arithmetic] in
theorem reaches_leaveGroup_onto_iff {column opened : Nat} {state last : Stacks}
    {operands : List Float} {done : List Reduction} :
    (leaveGroup column (onto (openGroup opened state) ⟨operands, []⟩)).Reaches done last ↔
      done = [] ∧ ∃ v, operands = [v] ∧ last = pushNumber v state := by
  obtain ⟨lastOperands, lastPending⟩ := last
  rw [reaches_leaveGroup_iff]
  constructor
  · rintro ⟨rfl, _, _, hstate, hone⟩
    obtain ⟨rfl, hpending⟩ := Stacks.mk.inj hstate
    obtain ⟨hentry, rfl⟩ := List.cons.inj hpending
    obtain ⟨-, rfl⟩ := Pending.openParen.inj hentry
    have hlength : operands.length = 1 := by simpa [openGroup] using hone
    obtain ⟨v, rfl⟩ := List.length_eq_one_iff.mp hlength
    exact ⟨rfl, v, rfl, rfl⟩
  · rintro ⟨rfl, v, rfl, hlast⟩
    obtain ⟨rfl, rfl⟩ := Stacks.mk.inj hlast
    exact ⟨rfl, opened, state.operands.length, rfl, by simp⟩

theorem pending_of_balanced_steps {division : DivisionPolicy} {lexemes : List Lexeme}
    (h : Balanced Lexeme.token lexemes) {done : List Reduction} {last : Stacks}
    (hsteps : ((pushAll division lexemes .empty).andThen (reduceGroup division)).Reaches done
      last) : last.pending = [] := by
  obtain ⟨_, middle, _, hpush, hend, -⟩ := reaches_andThen_iff.mp hsteps
  have hclosed : openGroups last.pending = 0 :=
    (openGroups_reduceGroup hend).trans (openGroups_pushAll h hpush)
  obtain ⟨hpending, -⟩ | ⟨opened, depth, below, hpending⟩ := pending_of_reduceGroup hend
  · exact hpending
  · rw [hpending] at hclosed
    contradiction

theorem reaches_pushAll_group_iff {division : DivisionPolicy} {lexemes : List Lexeme}
    (h : Balanced Lexeme.token lexemes) {opened closed : Nat} {state last : Stacks}
    {done : List Reduction} :
    (pushAll division (⟨.openParen, opened⟩ :: (lexemes ++ [⟨.closeParen, closed⟩]))
        state).Reaches done last ↔
      ∃ v, (run division lexemes .empty).Yields done v ∧ last = pushNumber v state := by
  have hinside : (pushAll division lexemes (openGroup opened state)).andThen
        (reduceGroup division) =
      ((pushAll division lexemes .empty).andThen (reduceGroup division)).map
        (onto (openGroup opened state)) := by
    have hopened := opened_openGroup opened state
    rw [map_andThen fun _ => (reduceGroup_onto hopened division _).symm,
      ← pushAll_onto hopened division h, onto_empty]
  have hwhole : (pushAll division (⟨.openParen, opened⟩ :: (lexemes ++ [⟨.closeParen, closed⟩]))
        state).Reaches done last ↔
      (((pushAll division lexemes (openGroup opened state)).andThen
        (reduceGroup division)).andThen (leaveGroup closed)).Reaches done last := by
    rw [reaches_pushAll_cons_iff, andThen_assoc]
    constructor
    · rintro ⟨_, _, _, hopen, hrest, rfl⟩
      obtain ⟨rfl, rfl⟩ := reaches_push_openParen_iff.mp hopen
      rw [pushAll_append] at hrest
      obtain ⟨_, filled, _, hinner, hclose, rfl⟩ := reaches_andThen_iff.mp hrest
      exact hinner.andThen (reaches_pushAll_singleton_iff.mp hclose)
    · intro hall
      obtain ⟨_, filled, _, hinner, hclose, rfl⟩ := reaches_andThen_iff.mp hall
      refine ⟨[], _, _, reaches_push_openParen_iff.mpr ⟨rfl, rfl⟩, ?_, rfl⟩
      rw [pushAll_append]
      exact hinner.andThen (reaches_pushAll_singleton_iff.mpr hclose)
  rw [hwhole, hinside, reaches_andThen_iff]
  simp only [run_yields_iff]
  constructor
  · rintro ⟨_, middle, _, hmiddle, hleave, rfl⟩
    obtain ⟨⟨operands, pending⟩, hsteps, rfl⟩ := reaches_map_iff.mp hmiddle
    obtain rfl := pending_of_balanced_steps h hsteps
    obtain ⟨rfl, v, rfl, rfl⟩ := reaches_leaveGroup_onto_iff.mp hleave
    exact ⟨v, by simpa using hsteps, rfl⟩
  · rintro ⟨v, hsteps, rfl⟩
    exact ⟨done, _, [], reaches_map_iff.mpr ⟨_, hsteps, rfl⟩,
      reaches_leaveGroup_onto_iff.mpr ⟨rfl, v, rfl, rfl⟩, by simp⟩

theorem reaches_pushAll_group_cons_iff {division : DivisionPolicy} {opened closed : Lexeme}
    {inner rest : List Lexeme} (hopen : opened.token = .openParen)
    (hinner : Balanced Lexeme.token inner) (hclose : closed.token = .closeParen)
    {state last : Stacks} {done : List Reduction} :
    (pushAll division (opened :: (inner ++ closed :: rest)) state).Reaches done last ↔
      ∃ v before after, (run division inner .empty).Yields before v ∧
        (pushAll division rest (pushNumber v state)).Reaches after last ∧
        done = before ++ after := by
  obtain ⟨_, openedColumn⟩ := opened
  obtain ⟨_, closedColumn⟩ := closed
  obtain rfl := hopen
  obtain rfl := hclose
  have hreshape : (⟨.openParen, openedColumn⟩ ::
      (inner ++ ⟨.closeParen, closedColumn⟩ :: rest) : List Lexeme) =
      (⟨.openParen, openedColumn⟩ :: (inner ++ [⟨.closeParen, closedColumn⟩])) ++ rest := by
    simp
  rw [hreshape, pushAll_append, reaches_andThen_iff]
  constructor
  · rintro ⟨before, middle, after, hgroup, hrest, rfl⟩
    obtain ⟨v, hyields, rfl⟩ := (reaches_pushAll_group_iff hinner).mp hgroup
    exact ⟨v, before, after, hyields, hrest, rfl⟩
  · rintro ⟨v, before, after, hyields, hrest, rfl⟩
    refine ⟨before, pushNumber v state, after, ?_, hrest, rfl⟩
    exact (reaches_pushAll_group_iff hinner).mpr ⟨v, hyields, rfl⟩

/--
A group is its value in any context.  Its tokens are pushed without an error exactly
when they yield a value on their own; it then acts as that number does, by the
reductions of the run of its own.  On the way every step inside the group is that of
empty stacks, put on top of a state which it neither reads nor changes.
-/
theorem group_acts_as_value {lexemes : List Lexeme} (h : Balanced Lexeme.token lexemes)
    (division : DivisionPolicy) (opened closed column : Nat) (state : Stacks) :
    let outcome := pushAll division
      (⟨.openParen, opened⟩ :: (lexemes ++ [⟨.closeParen, closed⟩])) state
    (outcome.error? = none ↔ ∃ v, (run division lexemes .empty).result = .ok v) ∧
      (∀ v, (run division lexemes .empty).result = .ok v →
        outcome.state = ⟨v :: state.operands, state.pending⟩ ∧
          outcome.state = (push division ⟨.number v, column⟩ state).state ∧
          outcome.reductions = (run division lexemes .empty).reductions) ∧
      pushAll division lexemes (openGroup opened state) =
        (pushAll division lexemes .empty).map (onto (openGroup opened state)) := by
  intro outcome
  have hreaches {v : Float} (hrun : (run division lexemes .empty).result = .ok v) :
      outcome.Reaches (run division lexemes .empty).reductions (pushNumber v state) :=
    (reaches_pushAll_group_iff h).mpr ⟨v, ⟨hrun, rfl⟩, rfl⟩
  refine ⟨⟨fun hsuccess => ?_, fun ⟨v, hrun⟩ => (hreaches hrun).success⟩, fun v hrun => ?_,
    pushAll_onto (opened_openGroup opened state) division h .empty⟩
  · obtain ⟨v, hyields, -⟩ := (reaches_pushAll_group_iff h).mp (reaches_of_success hsuccess)
    exact ⟨v, hyields.1⟩
  · obtain ⟨-, hdone, hstate⟩ := hreaches hrun
    exact ⟨hstate, hstate, hdone⟩

end

def postfixQuotient : List Lexeme :=
  [⟨.number 6, 1⟩, ⟨.openParen, 3⟩, ⟨.number 4, 5⟩, ⟨.number 2, 7⟩, ⟨.operator .sub, 9⟩,
    ⟨.closeParen, 11⟩, ⟨.operator .div, 13⟩]

theorem balanced_postfixQuotient : Balanced Lexeme.token postfixQuotient :=
  .plain nofun nofun
    (@Balanced.group _ _ _ _ [_, _, _] _ rfl (.plain nofun nofun (.plain nofun nofun
      (.plain nofun nofun .nil))) rfl (.plain nofun nofun .nil))

theorem group_acts_as_value_postfixQuotient :
    Balanced Lexeme.token postfixQuotient ∧
      (run .reject postfixQuotient .empty).result = .ok 3 ∧
      (pushAll .reject (⟨.openParen, 5⟩ :: (postfixQuotient ++ [⟨.closeParen, 19⟩]))
        ⟨[7], [.operator .mul 3, .openParen 1 9]⟩).state =
          ⟨[3, 7], [.operator .mul 3, .openParen 1 9]⟩ := by
  have hrun : (run .reject postfixQuotient .empty).result = .ok 3 := by
    decide +kernel
  have hvalue := (group_acts_as_value balanced_postfixQuotient .reject 5 19 0
    ⟨[7], [.operator .mul 3, .openParen 1 9]⟩).2.1 3 hrun
  exact ⟨balanced_postfixQuotient, hrun, hvalue.1⟩

end Stacks

end Calculator
