import Calculator.Proofs.Stretches

/-!
# Finishing

What finishing makes of any two stacks under the lenient policy.  Only counts decide how it
ends: there has to be one operand more than there are operators, and none of them may be
below an open group.  The value then groups to the right, since the operators are applied
from the top whatever their ranks are.
-/

namespace Calculator.Stacks

open Outcome

/-! ## Counting on the stacks -/

/-- There are operands enough above the floor of the group for all operators that wait in it. -/
def Suffices (state : Stacks) : Prop :=
  (waiting state.pending).length = 0 ∨
    groupFloor state.pending + (waiting state.pending).length < state.operands.length

/-- The operator that comes after `applied` others from the top lacks an operand. -/
def Blames (operators : List (Operator × Nat)) (applied : Nat) (result : Except EvalError Float) :
    Prop :=
  ∃ op column, operators[applied]? = some (op, column) ∧
    result = .error (.insufficientOperands op.symbol column)

theorem Blames.ne_ok {operators : List (Operator × Nat)} {applied : Nat}
    {result : Except EvalError Float} (h : Blames operators applied result) (v : Float) :
    result ≠ .ok v := by
  obtain ⟨op, column, -, hresult⟩ := h
  rw [hresult]
  exact nofun

theorem value_of_one_lt_length {operands : List Float} (h : 1 < operands.length) :
    value ⟨operands, []⟩ = .error (.unjoined operands.length) := by
  match operands, h with
  | _ :: _ :: _, _ => rfl

/-! ## Both ways to end -/

section

variable [Operator.Arithmetic]

section

variable {division : DivisionPolicy} {ready : Operator → Bool} {before : Stacks}
  {done : List (Operator × Nat)} {operands : List Float} {base : List Pending}
  {outcome : Outcome}

theorem Stretch.suffices (h : Stretch division ready before done operands base outcome)
    (hsettled : waiting base = []) : Suffices before := by
  have hlength := h.collapses.length_add
  unfold Suffices
  rw [h.pending, waiting_row_append, hsettled, List.append_nil, groupFloor_row]
  cases h.room with
  | inl hnone =>
      rw [hnone, List.length_nil]
      exact .inl rfl
  | inr hfloor => exact .inr (by omega)

theorem Stretch.length_done (h : Stretch division ready before done operands base outcome)
    (hfew : operands.length < groupFloor base + 2) :
    before.operands.length < groupFloor base + done.length + 2 ∧
      done.length = before.operands.length - groupFloor base - 1 := by
  have hlength := h.collapses.length_add
  cases h.room with
  | inl hnone =>
      rw [hnone, List.length_nil] at hlength ⊢
      omega
  | inr hfloor => omega

theorem Stretch.blames {op : Operator} {column : Nat} {below : List Pending}
    (h : Stretch division ready before done operands (.operator op column :: below) outcome)
    (hfew : operands.length < groupFloor below + 2) {result : Except EvalError Float}
    (hresult : result = .error (.insufficientOperands op.symbol column)) :
    ¬ Suffices before ∧ Blames (waiting before.pending)
      (before.operands.length - groupFloor before.pending - 1) result := by
  have hwaiting : waiting before.pending = done ++ (op, column) :: waiting below := by
    rw [h.pending, waiting_row_append]
    rfl
  have hfloor : groupFloor before.pending = groupFloor below := by
    rw [h.pending, groupFloor_row, groupFloor_operator]
  have hreached : before.operands.length < groupFloor below + done.length + 2 ∧
      done.length = before.operands.length - groupFloor below - 1 :=
    h.length_done hfew
  constructor
  · unfold Suffices
    rw [hwaiting, hfloor, List.length_append, List.length_cons]
    omega
  · refine ⟨op, column, ?_, hresult⟩
    rw [hwaiting, hfloor, ← hreached.2, List.getElem?_append_right (Nat.le_refl _), Nat.sub_self]
    rfl

end

theorem finish_ieee_cases (state : Stacks) :
    (Suffices state ∧ ∃ operands,
      Collapses state.operands (waiting state.pending) operands ∧
        (finish .ieee state).result = value ⟨operands, enclosing state.pending⟩) ∨
      ¬ Suffices state ∧ Blames (waiting state.pending)
        (state.operands.length - groupFloor state.pending - 1) (finish .ieee state).result := by
  obtain ⟨done, operands, base, hstretch⟩ :=
    exists_stretch .ieee (fun _ => true) state.operands state.pending
  have hhalts := hstretch.halts
  unfold finish reduceGroup
  dsimp only
  generalize reduceWhile .ieee (fun _ => true) state.operands state.pending = outcome
    at hstretch hhalts ⊢
  cases outcome with
  | mk last events error? =>
      cases hhalts with
      | settled hsettled =>
          have hnone := settled_iff_waiting_eq_nil.mp hsettled
          have hpending : state.pending = row done ++ base := hstretch.pending
          refine .inl ⟨hstretch.suffices hnone, operands, ?_, ?_⟩
          · rw [hpending, waiting_row_append, hnone, List.append_nil]
            exact hstretch.collapses
          · rw [hpending, enclosing_row_append, enclosing_of_settled hsettled]
            rfl
      | lacking hfew => exact .inr (hstretch.blames hfew rfl)
      | refused _ hreject _ _ => contradiction

theorem finish_of_suffices {state : Stacks} (h : Suffices state) :
    ∃ operands, Collapses state.operands (waiting state.pending) operands ∧
      (finish .ieee state).result = value ⟨operands, enclosing state.pending⟩ := by
  cases finish_ieee_cases state with
  | inl henough => exact henough.2
  | inr hfew => exact absurd h hfew.1

theorem finish_lacking {state : Stacks} {floor : Nat} (hfloor : groupFloor state.pending = floor)
    (hoperators : 0 < (waiting state.pending).length)
    (hcount : state.operands.length ≤ floor + (waiting state.pending).length) :
    Blames (waiting state.pending) (state.operands.length - floor - 1)
      (finish .ieee state).result := by
  subst hfloor
  cases finish_ieee_cases state with
  | inl henough =>
      have hsuffices := henough.1
      unfold Suffices at hsuffices
      omega
  | inr hfew => exact hfew.2

theorem finish_unclosed {state : Stacks} {opened depth : Nat} {below : List Pending}
    (hopen : enclosing state.pending = .openParen opened depth :: below)
    (henough : (waiting state.pending).length = 0 ∨
      depth + (waiting state.pending).length < state.operands.length) :
    (finish .ieee state).result = .error (.unbalancedParentheses opened) := by
  have hfloor := groupFloor_of_enclosing_eq_cons hopen
  rw [← hfloor] at henough
  obtain ⟨operands, -, hresult⟩ := finish_of_suffices henough
  rw [hopen] at hresult
  exact hresult

/-! ## Without an open group -/

section

variable {state : Stacks} (hopen : enclosing state.pending = [])

include hopen

theorem finish_joined (hcount : state.operands.length = (waiting state.pending).length + 1) :
    ∃ v, nestRight? ((waiting state.pending).map Prod.fst).reverse state.operands.reverse =
      some v ∧ (finish .ieee state).result = .ok v := by
  have hfloor := groupFloor_of_enclosing_eq_nil hopen
  have henough : Suffices state := .inr (by omega)
  obtain ⟨operands, hcollapses, hresult⟩ := finish_of_suffices henough
  have hlength := hcollapses.length_add
  have hone : operands.length = 1 := by omega
  have hnested := hcollapses.nestRight?_eq hone
  obtain ⟨v, rfl⟩ := List.length_eq_one_iff.mp hone
  rw [hopen] at hresult
  exact ⟨v, hnested, hresult⟩

theorem finish_unjoined (hcount : (waiting state.pending).length + 1 < state.operands.length) :
    (finish .ieee state).result =
      .error (.unjoined (state.operands.length - (waiting state.pending).length)) := by
  have hfloor := groupFloor_of_enclosing_eq_nil hopen
  have henough : Suffices state := .inr (by omega)
  obtain ⟨operands, hcollapses, hresult⟩ := finish_of_suffices henough
  have hlength := hcollapses.length_add
  have hleft : state.operands.length - (waiting state.pending).length = operands.length := by
    omega
  rw [hresult, hopen, hleft]
  exact value_of_one_lt_length (by omega)

theorem finish_noValue (hoperands : state.operands.length = 0)
    (hoperators : (waiting state.pending).length = 0) :
    (finish .ieee state).result = .error .noValue := by
  obtain ⟨operands, hcollapses, hresult⟩ := finish_of_suffices (.inl hoperators)
  have hlength := hcollapses.length_add
  have hnone : operands = [] := List.length_eq_zero_iff.mp (by omega)
  rw [hresult, hopen, hnone]
  rfl

theorem finish_eq_ok_iff (v : Float) :
    (finish .ieee state).result = .ok v ↔
      nestRight? ((waiting state.pending).map Prod.fst).reverse state.operands.reverse =
        some v := by
  have hfloor := groupFloor_of_enclosing_eq_nil hopen
  constructor
  · intro hresult
    by_cases hcount : state.operands.length = (waiting state.pending).length + 1
    · obtain ⟨w, hw, hok⟩ := finish_joined hopen hcount
      rw [hok] at hresult
      rw [hw, Except.ok.inj hresult]
    · by_cases hmany : (waiting state.pending).length + 1 < state.operands.length
      · rw [finish_unjoined hopen hmany] at hresult
        contradiction
      · by_cases hnone : (waiting state.pending).length = 0
        · rw [finish_noValue hopen (by omega) hnone] at hresult
          contradiction
        · have hblames := finish_lacking hfloor (by omega) (by omega)
          exact absurd hresult (hblames.ne_ok v)
  · intro hsome
    obtain ⟨w, hw, hok⟩ := finish_joined hopen (length_of_nestRight?_reverse hsome)
    rw [hok, Option.some.inj (hw.symm.trans hsome)]

end

/--
How finishing ends, for any operands and entries.  Without an open group the operands have
to be one more than the operators, and the value groups to the right.  With one, the error
names it if its own operators find their operands above the depth it keeps.  In both cases
an operator that lacks an operand is blamed, and that is the first to do so from the top.
-/
theorem finish_ieee_result (state : Stacks) :
    let result := (finish .ieee state).result
    let operators := waiting state.pending
    let n := state.operands.length
    let k := operators.length
    (enclosing state.pending = [] →
      ((∃ v, result = .ok v) ↔ n = k + 1) ∧
        (∀ v, result = .ok v ↔
          nestRight? (operators.map Prod.fst).reverse state.operands.reverse = some v) ∧
        (k + 1 < n → result = .error (.unjoined (n - k))) ∧
        (n = 0 → k = 0 → result = .error .noValue) ∧
        (0 < k → n ≤ k → Blames operators (n - 1) result)) ∧
      ∀ opened depth below, enclosing state.pending = .openParen opened depth :: below →
        (k = 0 ∨ depth + k + 1 ≤ n → result = .error (.unbalancedParentheses opened)) ∧
          (0 < k → n < depth + k + 1 → Blames operators (n - depth - 1) result) := by
  intro result operators n k
  constructor
  · intro hopen
    have hfloor := groupFloor_of_enclosing_eq_nil hopen
    have hok := finish_eq_ok_iff hopen
    refine ⟨⟨?_, ?_⟩, hok, finish_unjoined hopen, finish_noValue hopen, ?_⟩
    · rintro ⟨v, hresult⟩
      exact length_of_nestRight?_reverse ((hok v).mp hresult)
    · intro hcount
      obtain ⟨v, -, hresult⟩ := finish_joined hopen hcount
      exact ⟨v, hresult⟩
    · intro hoperators hcount
      exact finish_lacking hfloor hoperators (by rwa [Nat.zero_add])
  · intro opened depth below hopen
    have hfloor := groupFloor_of_enclosing_eq_cons hopen
    constructor
    · exact finish_unclosed hopen
    · intro hoperators hcount
      exact finish_lacking hfloor hoperators (Nat.le_of_lt_succ hcount)

end

theorem finish_ieee_result_rightGrouped :
    nestRight? [.mul, .sub] [4, 3, 2] = some 4 ∧
      (finish .ieee ⟨[2, 3, 4], [.operator .sub 7, .operator .mul 3]⟩).result = .ok 4 ∧
      (finish .ieee ⟨[2, 1], [.operator .add 9, .operator .mul 7, .openParen 5 1]⟩).result =
        .error (.insufficientOperands '+' 9) := by
  have hnested : nestRight? [.mul, .sub] [4, 3, 2] = some 4 := by
    decide +kernel
  have hclosed := (finish_ieee_result ⟨[2, 3, 4], [.operator .sub 7, .operator .mul 3]⟩).1 rfl
  have hunclosed := (finish_ieee_result
    ⟨[2, 1], [.operator .add 9, .operator .mul 7, .openParen 5 1]⟩).2 5 1 [] rfl
  obtain ⟨op, column, hblamed, hresult⟩ := hunclosed.2 (by decide) (by decide)
  obtain ⟨rfl, rfl⟩ := Prod.mk.inj (Option.some.inj hblamed)
  exact ⟨hnested, (hclosed.2.1 4).mpr hnested, hresult⟩

end Calculator.Stacks
