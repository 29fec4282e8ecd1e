import Calculator.Proofs.OperatorTree

/-!
# Infix expressions

The grammar of infix expressions, where products bind tighter than sums and
equal ranks group to the left:

* an expression is a term, or an expression, `+` or `-`, and a term;
* a term is a factor, or a term, `*` or `/`, and a factor;
* a factor is a number, or an expression in parentheses.

A derivation builds the operator tree of its tokens, and a run on the tokens is
the evaluation of that tree.
-/

namespace Calculator

/-! ## The grammar -/

inductive Category where
  | factor
  | term
  | expression

/-- `Derives category lexemes tree`: the tokens belong to the category, and this is their tree. -/
inductive Derives : Category → List Lexeme → OperatorTree → Prop
  | number (value : Float) (column : Nat) :
      Derives .factor [⟨.number value, column⟩] (.leaf value column)
  | group {inner : List Lexeme} {tree : OperatorTree} (opened closed : Nat) :
      Derives .expression inner tree →
      Derives .factor (⟨.openParen, opened⟩ :: (inner ++ [⟨.closeParen, closed⟩])) tree
  | factor {lexemes : List Lexeme} {tree : OperatorTree} :
      Derives .factor lexemes tree → Derives .term lexemes tree
  | product {first second : List Lexeme} {left right : OperatorTree} {op : Operator}
      (column : Nat) :
      Derives .term first left → op = .mul ∨ op = .div → Derives .factor second right →
      Derives .term (first ++ ⟨.operator op, column⟩ :: second) (.node op column left right)
  | term {lexemes : List Lexeme} {tree : OperatorTree} :
      Derives .term lexemes tree → Derives .expression lexemes tree
  | sum {first second : List Lexeme} {left right : OperatorTree} {op : Operator}
      (column : Nat) :
      Derives .expression first left → op = .add ∨ op = .sub → Derives .term second right →
      Derives .expression (first ++ ⟨.operator op, column⟩ :: second)
        (.node op column left right)

def Category.rank : Category → Nat
  | factor => 3
  | term => 2
  | expression => 1

namespace Stacks

open Outcome

/-! ## Settling the top of the stacks -/

def bindsAt (rank : Nat) (op : Operator) : Bool := decide (rank ≤ op.rank)

theorem settled_factor (pending : List Pending) :
    Settled (bindsAt Category.factor.rank) pending := by
  match pending with
  | [] => trivial
  | .openParen _ _ :: _ => trivial
  | .operator op _ :: _ => cases op <;> rfl

theorem settled_tighten {loose tight : Nat} {pending : List Pending} (hrank : loose ≤ tight)
    (h : Settled (bindsAt loose) pending) : Settled (bindsAt tight) pending := by
  match pending, h with
  | [], _ => trivial
  | .openParen _ _ :: _, _ => trivial
  | .operator op _ :: _, h =>
      have hbelow : ¬ loose ≤ op.rank := of_decide_eq_false h
      exact decide_eq_false fun htight => hbelow (Nat.le_trans hrank htight)

section

variable [Operator.Arithmetic]

def settle (division : DivisionPolicy) (rank : Nat) (state : Stacks) : Outcome :=
  reduceWhile division (bindsAt rank) state.operands state.pending

theorem reduceGroup_eq_settle (division : DivisionPolicy) (state : Stacks) :
    reduceGroup division state = settle division Category.expression.rank state := by
  have hall : (fun _ => true) = bindsAt Category.expression.rank := by
    funext op
    cases op <;> rfl
  rw [reduceGroup, hall, settle]

theorem reaches_settle_of_settled {rank : Nat} {state : Stacks}
    (h : Settled (bindsAt rank) state.pending) (division : DivisionPolicy) :
    (settle division rank state).Reaches [] state := by
  rw [settle, reduceWhile_of_settled h]
  exact reaches_accepted_iff.mpr ⟨rfl, rfl⟩

theorem settle_eq_andThen {loose tight : Nat} (h : loose ≤ tight) (division : DivisionPolicy)
    (state : Stacks) :
    settle division loose state =
      (settle division tight state).andThen (settle division loose) := by
  obtain ⟨operands, pending⟩ := state
  simp only [settle]
  induction pending generalizing operands with
  | nil => rfl
  | cons entry below ih =>
      cases entry with
      | openParen column depth => rfl
      | operator op column =>
          by_cases htight : tight ≤ op.rank
          · have hloose : loose ≤ op.rank := Nat.le_trans h htight
            rw [reduceWhile_ready (decide_eq_true hloose),
              reduceWhile_ready (decide_eq_true htight), andThen_assoc]
            congr 1
            funext reduced
            exact ih reduced.operands
          · have hwaits : bindsAt tight op = false := decide_eq_false htight
            rw [reduceWhile_waiting hwaits, andThen_accepted, settle]

theorem settle_further {steps : Outcome} {loose tight : Nat} {division : DivisionPolicy}
    {done more : List Reduction} {middle state : Stacks} (hrank : loose ≤ tight)
    (htight : (steps.andThen (settle division tight)).Reaches done middle)
    (hloose : (settle division loose middle).Reaches more state) :
    (steps.andThen (settle division loose)).Reaches (done ++ more) state := by
  have hsplit : steps.andThen (settle division loose) =
      (steps.andThen (settle division tight)).andThen (settle division loose) := by
    rw [andThen_assoc]
    congr 1
    funext state
    exact settle_eq_andThen hrank division state
  rw [hsplit]
  exact htight.andThen hloose

theorem settle_loosen {steps : Outcome} {loose tight : Nat} {division : DivisionPolicy}
    {done : List Reduction} {state : Stacks} (hrank : loose ≤ tight)
    (hsettled : Settled (bindsAt loose) state.pending)
    (h : (steps.andThen (settle division tight)).Reaches done state) :
    (steps.andThen (settle division loose)).Reaches done state := by
  simpa using settle_further hrank h (reaches_settle_of_settled hsettled division)

theorem push_operator (division : DivisionPolicy) (op : Operator) (column : Nat)
    (state : Stacks) :
    push division ⟨.operator op, column⟩ state =
      (settle division op.rank state).andThen fun reduced =>
        .accepted { reduced with pending := .operator op column :: reduced.pending } := rfl

theorem settle_operator {op : Operator} {column : Nat} {left right : Float} {state : Stacks}
    (hsettled : Settled (bindsAt op.rank) state.pending)
    (hfloor : groupFloor state.pending ≤ state.operands.length) :
    (settle .ieee op.rank
        ⟨right :: left :: state.operands, .operator op column :: state.pending⟩).Reaches
      [⟨op, column, left, right⟩] (pushNumber (op.apply left right) state) := by
  have hready : bindsAt op.rank op = true := decide_eq_true (Nat.le_refl _)
  have hreduce : (reduce .ieee op column (right :: left :: state.operands) state.pending).Reaches
      [⟨op, column, left, right⟩] (pushNumber (op.apply left right) state) :=
    reaches_reduce_iff.mpr ⟨left, right, state.operands, rfl, hfloor, rfl, rfl, rfl⟩
  have hkept : Settled (bindsAt op.rank) (pushNumber (op.apply left right) state).pending :=
    hsettled
  rw [settle, reduceWhile_ready hready]
  exact hreduce.andThen (reaches_settle_of_settled hkept .ieee)

/-! ## Phrases -/

/--
Two phrases joined by an operator.  The first one is complete when the operator
arrives, the second one when what follows settles the stacks at the operator's rank.
-/
theorem pushAll_joined {first second : List Lexeme} {op : Operator} {column tight : Nat}
    {left right : Float} {before after : List Reduction} {state : Stacks}
    (hsettled : Settled (bindsAt op.rank) state.pending)
    (hfloor : groupFloor state.pending ≤ state.operands.length) (htight : op.rank ≤ tight)
    (hfirst : ((pushAll .ieee first state).andThen (settle .ieee op.rank)).Reaches before
      (pushNumber left state))
    (hsecond : ((pushAll .ieee second
        ⟨left :: state.operands, .operator op column :: state.pending⟩).andThen
          (settle .ieee tight)).Reaches after
      ⟨right :: left :: state.operands, .operator op column :: state.pending⟩) :
    ((pushAll .ieee (first ++ ⟨.operator op, column⟩ :: second) state).andThen
        (settle .ieee op.rank)).Reaches (before ++ after ++ [⟨op, column, left, right⟩])
      (pushNumber (op.apply left right) state) := by
  have hpushed : (pushAll .ieee (first ++ [⟨.operator op, column⟩]) state).Reaches before
      ⟨left :: state.operands, .operator op column :: state.pending⟩ := by
    obtain ⟨_, middle, _, hphrase, hsettle, rfl⟩ := reaches_andThen_iff.mp hfirst
    rw [pushAll_append]
    refine hphrase.andThen ?_
    rw [reaches_pushAll_singleton_iff, push_operator, reaches_andThen_iff]
    exact ⟨_, _, [], hsettle, reaches_accepted_iff.mpr ⟨rfl, rfl⟩, by simp⟩
  have hboth : ((pushAll .ieee (first ++ ⟨.operator op, column⟩ :: second) state).andThen
      (settle .ieee tight)).Reaches (before ++ after)
        ⟨right :: left :: state.operands, .operator op column :: state.pending⟩ := by
    rw [List.append_cons, pushAll_append, andThen_assoc]
    exact hpushed.andThen hsecond
  exact settle_further htight hboth (settle_operator hsettled hfloor)

theorem pushAll_phrase {category : Category} {lexemes : List Lexeme} {tree : OperatorTree}
    (h : Derives category lexemes tree) (state : Stacks)
    (hsettled : Settled (bindsAt category.rank) state.pending)
    (hfloor : groupFloor state.pending ≤ state.operands.length) :
    ((pushAll .ieee lexemes state).andThen (settle .ieee category.rank)).Reaches
      tree.reductions (pushNumber tree.value state) := by
  induction h generalizing state with
  | number value column =>
      rw [reaches_andThen_iff]
      refine ⟨[], pushNumber value state, [], ?_, ?_, rfl⟩
      · exact reaches_pushAll_singleton_iff.mpr (reaches_accepted_iff.mpr ⟨rfl, rfl⟩)
      · exact reaches_settle_of_settled (settled_factor _) .ieee
  | @group inner tree opened closed hinner ih =>
      have hgroup := ih (openGroup opened state) trivial (Nat.le_refl _)
      obtain ⟨before, middle, after, hphrase, hsettle, hdone⟩ := reaches_andThen_iff.mp hgroup
      have hopen : (push .ieee ⟨.openParen, opened⟩ state).Reaches []
          (openGroup opened state) := reaches_accepted_iff.mpr ⟨rfl, rfl⟩
      have hclose : (push .ieee ⟨.closeParen, closed⟩ middle).Reaches after
          (pushNumber tree.value state) := by
        rw [← reduceGroup_eq_settle] at hsettle
        refine reaches_push_closeParen_iff.mpr ⟨opened, state.operands.length, hsettle, ?_⟩
        simp [pushNumber]
      have hall : (pushAll .ieee (⟨.openParen, opened⟩ :: (inner ++ [⟨.closeParen, closed⟩]))
          state).Reaches tree.reductions (pushNumber tree.value state) := by
        rw [reaches_pushAll_cons_iff]
        refine ⟨[], _, tree.reductions, hopen, ?_, rfl⟩
        rw [pushAll_append, hdone]
        exact hphrase.andThen (reaches_pushAll_singleton_iff.mpr hclose)
      rw [reaches_andThen_iff]
      exact ⟨_, _, [], hall, reaches_settle_of_settled (settled_factor _) .ieee, by simp⟩
  | @factor lexemes tree hfactor ih =>
      exact settle_loosen (by decide) hsettled (ih state (settled_factor _) hfloor)
  | @product first second left right op column hfirst hop hsecond ihFirst ihSecond =>
      have hrank : op.rank = Category.term.rank := by rcases hop with rfl | rfl <;> rfl
      rw [← hrank] at hsettled ihFirst ⊢
      exact pushAll_joined hsettled hfloor (by rw [hrank]; decide) (ihFirst state hsettled hfloor)
        (ihSecond ⟨_, .operator op column :: state.pending⟩ (settled_factor _)
          (Nat.le_succ_of_le hfloor))
  | @term lexemes tree hterm ih =>
      exact settle_loosen (by decide) hsettled (ih state (settled_tighten (by decide) hsettled) hfloor)
  | @sum first second left right op column hfirst hop hsecond ihFirst ihSecond =>
      have hrank : op.rank = Category.expression.rank := by rcases hop with rfl | rfl <;> rfl
      have htop : bindsAt Category.term.rank op = false := by rcases hop with rfl | rfl <;> rfl
      rw [← hrank] at hsettled ihFirst ⊢
      exact pushAll_joined hsettled hfloor (by rw [hrank]; decide) (ihFirst state hsettled hfloor)
        (ihSecond ⟨_, .operator op column :: state.pending⟩ htop
          (Nat.le_succ_of_le hfloor))

/-! ## Runs -/

/--
A run on an infix expression evaluates its tree, whatever the operators make of their
operands.  The lenient policy always yields the value, by the reductions of the tree in
their order; the strict one yields it too, unless one of these divides by zero, and is
refused at the first that does.
-/
theorem run_expression {lexemes : List Lexeme} {tree : OperatorTree}
    (h : Derives .expression lexemes tree) :
    (∀ division, (run division lexemes .empty).result = tree.eval division) ∧
      (run .ieee lexemes .empty).Yields tree.reductions tree.value ∧
      (run .reject lexemes .empty).result =
        match tree.reductions.find? Reduction.dividesByZero with
        | none => .ok tree.value
        | some r => .error (.divisionByZero r.column) := by
  have hieee : (run .ieee lexemes .empty).Yields tree.reductions tree.value := by
    rw [run_yields_iff]
    have hphrase := pushAll_phrase h .empty trivial (Nat.le_refl _)
    rwa [← funext (reduceGroup_eq_settle .ieee)] at hphrase
  have hreject : (run .reject lexemes .empty).result =
      match tree.reductions.find? Reduction.dividesByZero with
      | none => .ok tree.value
      | some r => .error (.divisionByZero r.column) := by
    cases hfind : tree.reductions.find? Reduction.dividesByZero with
    | none =>
        rw [run_reject_of_none (by rwa [hieee.2])]
        exact hieee.1
    | some r => exact run_reject_of_some (by rwa [hieee.2])
  refine ⟨fun division => ?_, hieee, hreject⟩
  cases division with
  | ieee => rw [hieee.1, OperatorTree.eval_ieee]
  | reject => exact hreject.trans tree.eval_reject.symm

end

def refusedExpression : List Lexeme :=
  [⟨.number 1, 1⟩, ⟨.operator .sub, 3⟩, ⟨.number 6, 5⟩, ⟨.operator .div, 7⟩, ⟨.openParen, 9⟩,
    ⟨.number 2, 11⟩, ⟨.operator .sub, 13⟩, ⟨.number 2, 15⟩, ⟨.closeParen, 17⟩]

def refusedTree : OperatorTree :=
  .node .sub 3 (.leaf 1 1)
    (.node .div 7 (.leaf 6 5) (.node .sub 13 (.leaf 2 11) (.leaf 2 15)))

theorem derives_refusedExpression : Derives .expression refusedExpression refusedTree :=
  .sum 3 (.term (.factor (.number 1 1))) (.inr rfl)
    (.product 7 (.factor (.number 6 5)) (.inr rfl)
      (.group 9 17 (.sum 13 (.term (.factor (.number 2 11))) (.inr rfl)
        (.factor (.number 2 15)))))

theorem run_expression_refused :
    Derives .expression refusedExpression refusedTree ∧
      (run .ieee refusedExpression .empty).result = .ok refusedTree.value ∧
      (run .reject refusedExpression .empty).result = .error (.divisionByZero 7) := by
  obtain ⟨-, hieee, hreject⟩ := run_expression derives_refusedExpression
  have hfind : refusedTree.reductions.find? Reduction.dividesByZero = some ⟨.div, 7, 6, 0⟩ := by
    decide +kernel
  rw [hfind] at hreject
  exact ⟨derives_refusedExpression, hieee.1, hreject⟩

end Stacks

end Calculator
