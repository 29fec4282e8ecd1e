import Calculator.Operator

/-!
# The two stacks

Operands wait on one stack, operators and open groups on another; both are lists
with the top at the head.  Operands below the innermost open group are out of
reach: the group keeps the height of the operand stack at its opening.
-/

namespace Calculator

inductive Pending where
  | operator (op : Operator) (column : Nat)
  /-- An open group, with the height of the operand stack below it. -/
  | openParen (column depth : Nat)
  deriving DecidableEq, Repr

structure Stacks where
  operands : List Float
  pending : List Pending
  deriving DecidableEq, Repr

namespace Stacks

def empty : Stacks := ⟨[], []⟩

def groupFloor : List Pending → Nat
  | [] => 0
  | .operator _ _ :: below => groupFloor below
  | .openParen _ depth :: _ => depth

/-- The two top operands, left before right, and the operands below them, all above `floor`. -/
def pair? (floor : Nat) : List Float → Option (Float × Float × List Float)
  | right :: left :: rest => if floor ≤ rest.length then some (left, right, rest) else none
  | _ => none

def pushNumber (value : Float) (state : Stacks) : Stacks :=
  { state with operands := value :: state.operands }

def openGroup (column : Nat) (state : Stacks) : Stacks :=
  { state with pending := .openParen column state.operands.length :: state.pending }

@[simp] theorem groupFloor_nil : groupFloor [] = 0 := rfl

@[simp] theorem groupFloor_operator (op : Operator) (column : Nat) (below : List Pending) :
    groupFloor (.operator op column :: below) = groupFloor below := rfl

@[simp] theorem groupFloor_openParen (column depth : Nat) (below : List Pending) :
    groupFloor (.openParen column depth :: below) = depth := rfl

theorem pair?_eq_some_iff {floor : Nat} {operands rest : List Float} {left right : Float} :
    pair? floor operands = some (left, right, rest) ↔
      operands = right :: left :: rest ∧ floor ≤ rest.length := by
  unfold pair?
  split
  · split <;> simp_all <;> grind
  · rename_i none
    simp only [reduceCtorEq, false_iff, not_and]
    rintro rfl
    exact (none _ _ _ rfl).elim

theorem pair?_eq_none_iff {floor : Nat} {operands : List Float} :
    pair? floor operands = none ↔ operands.length < floor + 2 := by
  unfold pair?
  split
  · split <;> simp_all
  · rename_i none
    match operands, none with
    | [], _ => simp
    | [_], _ => simp
    | right :: left :: rest, none => exact (none right left rest rfl).elim

end Stacks

end Calculator
