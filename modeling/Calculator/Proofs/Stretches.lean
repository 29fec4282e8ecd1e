import Calculator.Proofs.WellFormed

/-!
# Stretches of reductions

A token that is pushed first applies operators from the top of the pending stack, until one
has to wait, a group opens, or a reduction fails.  Whatever state this starts from, those
that were applied leave one value in the place of the operands they took, grouped to the
right, and nothing below is touched.
-/

namespace Calculator.Stacks

open Outcome

/-! ## The operators of the innermost group -/

/-- The operators above the innermost open group, the top first. -/
def waiting : List Pending → List (Operator × Nat)
  | .operator op column :: below => (op, column) :: waiting below
  | _ => []

/-- The innermost open group with all that is below it. -/
def enclosing : List Pending → List Pending
  | .operator _ _ :: below => enclosing below
  | pending => pending

theorem row_waiting_append_enclosing (pending : List Pending) :
    row (waiting pending) ++ enclosing pending = pending := by
  induction pending with
  | nil => rfl
  | cons entry below ih =>
      cases entry with
      | openParen column depth => rfl
      | operator op column => exact congrArg _ ih

@[simp] theorem waiting_row_append (operators : List (Operator × Nat)) (pending : List Pending) :
    waiting (row operators ++ pending) = operators ++ waiting pending := by
  induction operators with
  | nil => rfl
  | cons first operators ih => exact congrArg _ ih

@[simp] theorem enclosing_row_append (operators : List (Operator × Nat)) (pending : List Pending) :
    enclosing (row operators ++ pending) = enclosing pending := by
  induction operators with
  | nil => rfl
  | cons first operators ih => exact ih

@[simp] theorem groupFloor_enclosing (pending : List Pending) :
    groupFloor (enclosing pending) = groupFloor pending := by
  induction pending with
  | nil => rfl
  | cons entry below ih =>
      cases entry with
      | openParen column depth => rfl
      | operator op column => exact ih

theorem groupFloor_of_enclosing_eq_nil {pending : List Pending} (h : enclosing pending = []) :
    groupFloor pending = 0 := by
  rw [← groupFloor_enclosing, h, groupFloor_nil]

theorem groupFloor_of_enclosing_eq_cons {pending below : List Pending} {opened depth : Nat}
    (h : enclosing pending = .openParen opened depth :: below) : groupFloor pending = depth := by
  rw [← groupFloor_enclosing, h, groupFloor_openParen]

theorem enclosing_suffix (pending : List Pending) : enclosing pending <:+ pending :=
  ⟨row (waiting pending), row_waiting_append_enclosing pending⟩

theorem settled_iff_waiting_eq_nil {pending : List Pending} :
    Settled (fun _ => true) pending ↔ waiting pending = [] := by
  cases pending with
  | nil => simp [Settled, waiting]
  | cons entry below => cases entry <;> simp [Settled, waiting]

theorem enclosing_of_settled {pending : List Pending} (h : Settled (fun _ => true) pending) :
    enclosing pending = pending := by
  have hsplit := row_waiting_append_enclosing pending
  rwa [settled_iff_waiting_eq_nil.mp h] at hsplit

/-! ## Values grouped to the right -/

variable [Operator.Arithmetic]

/-- `v₀ o₁ (v₁ o₂ (⋯ (vₖ₋₁ oₖ vₖ)))`, for the operators `o₁ … oₖ` and the values `v₀ … vₖ`. -/
def nestRight? : List Operator → List Float → Option Float
  | [], [value] => some value
  | op :: operators, left :: values => (nestRight? operators values).map (op.apply left)
  | _, _ => none

theorem isSome_nestRight?_iff {operators : List Operator} {values : List Float} :
    (nestRight? operators values).isSome ↔ values.length = operators.length + 1 := by
  induction operators generalizing values with
  | nil =>
      match values with
      | [] => simp [nestRight?]
      | [_] => simp [nestRight?]
      | _ :: _ :: _ => simp [nestRight?]
  | cons op operators ih =>
      cases values with
      | nil => simp [nestRight?]
      | cons left values => simp [nestRight?, ih]

theorem length_of_nestRight? {operators : List Operator} {values : List Float} {v : Float}
    (h : nestRight? operators values = some v) : values.length = operators.length + 1 :=
  isSome_nestRight?_iff.mp (Option.isSome_of_eq_some h)

theorem length_of_nestRight?_reverse {operators : List (Operator × Nat)} {operands : List Float}
    {v : Float} (h : nestRight? (operators.map Prod.fst).reverse operands.reverse = some v) :
    operands.length = operators.length + 1 := by
  have hlength := length_of_nestRight? h
  rwa [List.length_reverse, List.length_reverse, List.length_map] at hlength

theorem nestRight?_concat (operators : List Operator) (op : Operator) (values : List Float)
    (left right : Float) :
    nestRight? (operators ++ [op]) (values ++ [left, right]) =
      nestRight? operators (values ++ [op.apply left right]) := by
  induction operators generalizing values with
  | nil =>
      cases values with
      | nil => rfl
      | cons value values => cases values <;> simp [nestRight?]
  | cons first operators ih =>
      cases values with
      | nil => cases operators <;> simp [nestRight?]
      | cons value values => exact congrArg _ (ih values)

/--
The operands `after` come from `before` when the operators `done` have been applied from the
top: one value is in the place of those that they took.
-/
inductive Collapses (before : List Float) : List (Operator × Nat) → List Float → Prop
  | untouched : Collapses before [] before
  | joined {done : List (Operator × Nat)} {value : Float} : done ≠ [] →
      nestRight? (done.map Prod.fst).reverse (before.take (done.length + 1)).reverse =
        some value →
      Collapses before done (value :: before.drop (done.length + 1))

theorem Collapses.cons {op : Operator} {column : Nat} {done : List (Operator × Nat)}
    {left right : Float} {rest after : List Float}
    (h : Collapses (op.apply left right :: rest) done after) :
    Collapses (right :: left :: rest) ((op, column) :: done) after := by
  cases h with
  | untouched => exact .joined (List.cons_ne_nil _ _) rfl
  | joined _ hvalue =>
      refine .joined (List.cons_ne_nil _ done) ?_
      rw [List.map_cons, List.reverse_cons, List.length_cons, List.take_succ_cons,
        List.take_succ_cons, List.reverse_cons, List.reverse_cons, List.append_assoc]
      rw [List.take_succ_cons, List.reverse_cons] at hvalue
      exact (nestRight?_concat _ op _ left right).trans hvalue

theorem Collapses.length_add {before after : List Float} {done : List (Operator × Nat)}
    (h : Collapses before done after) : after.length + done.length = before.length := by
  cases h with
  | untouched => rfl
  | joined _ hvalue =>
      have htaken := length_of_nestRight?_reverse hvalue
      rw [List.length_take] at htaken
      rw [List.length_cons, List.length_drop]
      omega

theorem Collapses.nestRight?_eq {before after : List Float} {done : List (Operator × Nat)}
    (h : Collapses before done after) (hone : after.length = 1) :
    nestRight? (done.map Prod.fst).reverse before.reverse = after.head? := by
  have hlength := h.length_add
  cases h with
  | untouched =>
      obtain ⟨v, hbefore⟩ := List.length_eq_one_iff.mp hone
      rw [hbefore]
      rfl
  | joined _ hvalue =>
      rw [List.take_of_length_le (by omega)] at hvalue
      exact hvalue

/-! ## How a stretch ends -/

inductive Halts (division : DivisionPolicy) (ready : Operator → Bool) (operands : List Float) :
    List Pending → Option EvalError → Stacks → Prop
  | settled {pending : List Pending} : Settled ready pending →
      Halts division ready operands pending none ⟨operands, pending⟩
  | lacking {op : Operator} {column : Nat} {below : List Pending} :
      operands.length < groupFloor below + 2 →
      Halts division ready operands (.operator op column :: below)
        (some (.insufficientOperands op.symbol column)) ⟨operands, below⟩
  | refused {column : Nat} {below : List Pending} {right left : Float} {rest : List Float} :
      operands = right :: left :: rest → division = .reject → (right == 0) = true →
      groupFloor below ≤ rest.length →
      Halts division ready operands (.operator .div column :: below)
        (some (.divisionByZero column)) ⟨rest, below⟩

/--
A stretch of reductions from the stacks `before`: the operators `done` are applied, which
leaves `operands` above the entries `base`, and there it stops.
-/
structure Stretch (division : DivisionPolicy) (ready : Operator → Bool) (before : Stacks)
    (done : List (Operator × Nat)) (operands : List Float) (base : List Pending)
    (outcome : Outcome) : Prop where
  pending : before.pending = row done ++ base
  collapses : Collapses before.operands done operands
  room : done = [] ∨ groupFloor base < operands.length
  reductions : outcome.reductions.length = done.length
  halts : Halts division ready operands base outcome.error? outcome.state

theorem Stretch.settled_of_success {division : DivisionPolicy} {ready : Operator → Bool}
    {before : Stacks} {done : List (Operator × Nat)} {operands : List Float}
    {base : List Pending} {outcome : Outcome}
    (h : Stretch division ready before done operands base outcome)
    (hsuccess : outcome.error? = none) :
    Settled ready base ∧ outcome.state = ⟨operands, base⟩ := by
  have hhalts := h.halts
  rw [hsuccess] at hhalts
  generalize outcome.state = state at hhalts
  cases hhalts with
  | settled hsettled => exact ⟨hsettled, rfl⟩

theorem stretch_reduce_of_pair {division : DivisionPolicy} {ready : Operator → Bool}
    {op : Operator} {column : Nat} {left right : Float} {rest after : List Float}
    {below base : List Pending} {done : List (Operator × Nat)} {outcome : Outcome}
    (hfloor : groupFloor below ≤ rest.length)
    (h : Stretch division ready ⟨op.apply left right :: rest, below⟩ done after base outcome) :
    Stretch division ready ⟨right :: left :: rest, .operator op column :: below⟩
      ((op, column) :: done) after base
      (.after (.reduced ⟨op, column, left, right⟩) outcome) where
  pending := congrArg _ h.pending
  collapses := h.collapses.cons
  room := by
    have hbelow : below = row done ++ base := h.pending
    have hlength := h.collapses.length_add
    rw [hbelow, groupFloor_row] at hfloor
    rw [List.length_cons] at hlength
    cases h.room with
    | inl hnone =>
        rw [hnone, List.length_nil] at hlength
        exact .inr (by omega)
    | inr hroom => exact .inr hroom
  reductions := congrArg _ h.reductions
  halts := h.halts

theorem halts_or_reduces (division : DivisionPolicy) {ready : Operator → Bool} (op : Operator)
    (column : Nat) (operands : List Float) (below : List Pending) :
    (∃ error state, reduce division op column operands below = .failed state error ∧
        Halts division ready operands (.operator op column :: below) (some error) state) ∨
      ∃ right left rest, operands = right :: left :: rest ∧ groupFloor below ≤ rest.length ∧
        reduce division op column operands below =
          .after (.reduced ⟨op, column, left, right⟩)
            (.accepted ⟨op.apply left right :: rest, below⟩) := by
  rw [reduce_eq]
  cases hpair : pair? (groupFloor below) operands with
  | none =>
      have hfew := pair?_eq_none_iff.mp hpair
      exact .inl ⟨_, _, rfl, .lacking hfew⟩
  | some taken =>
      obtain ⟨left, right, rest⟩ := taken
      obtain ⟨hoperands, hfloor⟩ := pair?_eq_some_iff.mp hpair
      dsimp only
      cases hrefused : refusesDivision division op right with
      | true =>
          have hpolicy : (division = .reject ∧ op = .div) ∧ (right == 0) = true := by
            simpa [refusesDivision] using hrefused
          obtain ⟨⟨hdivision, rfl⟩, hzero⟩ := hpolicy
          exact .inl ⟨_, _, rfl, .refused hoperands hdivision hzero hfloor⟩
      | false => exact .inr ⟨right, left, rest, hoperands, hfloor, rfl⟩

theorem exists_stretch (division : DivisionPolicy) (ready : Operator → Bool)
    (operands : List Float) (pending : List Pending) :
    ∃ done after base, Stretch division ready ⟨operands, pending⟩ done after base
      (reduceWhile division ready operands pending) := by
  have hstop {pending : List Pending} {outcome : Outcome} (operands : List Float)
      (hreductions : outcome.reductions = [])
      (hhalts : Halts division ready operands pending outcome.error? outcome.state) :
      Stretch division ready ⟨operands, pending⟩ [] operands pending outcome :=
    ⟨rfl, .untouched, .inl rfl, congrArg List.length hreductions, hhalts⟩
  induction pending generalizing operands with
  | nil => exact ⟨[], operands, _, hstop operands rfl (.settled trivial)⟩
  | cons entry below ih =>
      cases entry with
      | openParen column depth => exact ⟨[], operands, _, hstop operands rfl (.settled trivial)⟩
      | operator op column =>
          cases hready : ready op with
          | false =>
              rw [reduceWhile_waiting hready]
              exact ⟨[], operands, _, hstop operands rfl (.settled hready)⟩
          | true =>
              rw [reduceWhile_ready hready]
              cases halts_or_reduces division op column operands below with
              | inl hhalts =>
                  obtain ⟨error, state, hreduce, hhalts⟩ := hhalts
                  rw [hreduce, andThen_failed]
                  exact ⟨[], operands, _, hstop operands rfl hhalts⟩
              | inr hreduces =>
                  obtain ⟨right, left, rest, hoperands, hfloor, hreduce⟩ := hreduces
                  obtain ⟨done, after, base, hstretch⟩ := ih (op.apply left right :: rest)
                  rw [hreduce, hoperands]
                  exact ⟨(op, column) :: done, after, base,
                    stretch_reduce_of_pair hfloor hstretch⟩

end Calculator.Stacks
