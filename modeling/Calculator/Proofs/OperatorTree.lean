import Calculator.Proofs.Refusal

/-!
# Operator trees

A binary tree with numbers at its leaves and operators at its nodes.  It is
evaluated from left to right, the operands of a node before the node.  Every leaf
and every node carries a mark, which says which token it stands for.
-/

namespace Calculator

inductive OperatorTree where
  | leaf (number : Float) (mark : Nat)
  | node (op : Operator) (mark : Nat) (left right : OperatorTree)

namespace OperatorTree

/-! ## Leaves, nodes and subtrees -/

def leaves : OperatorTree → List (Float × Nat)
  | leaf number mark => [(number, mark)]
  | node _ _ left right => left.leaves ++ right.leaves

/-- The operators of the tree with their marks, the operands of a node before the node. -/
def nodes : OperatorTree → List (Operator × Nat)
  | leaf _ _ => []
  | node op mark left right => left.nodes ++ right.nodes ++ [(op, mark)]

def subtrees : OperatorTree → List OperatorTree
  | leaf number mark => [leaf number mark]
  | node op mark left right => node op mark left right :: (left.subtrees ++ right.subtrees)

theorem length_leaves (tree : OperatorTree) : tree.leaves.length = tree.nodes.length + 1 := by
  induction tree with
  | leaf number mark => rfl
  | node op mark left right ihLeft ihRight =>
      simp only [leaves, nodes, List.length_append, List.length_singleton]
      omega

theorem mem_subtrees_self (tree : OperatorTree) : tree ∈ tree.subtrees := by
  cases tree <;> simp [subtrees]

/-! ## Evaluation -/

variable [Operator.Arithmetic]

def value : OperatorTree → Float
  | leaf number _ => number
  | node op _ left right => op.apply left.value right.value

def eval (division : DivisionPolicy) : OperatorTree → Except EvalError Float
  | leaf number _ => .ok number
  | node op column left right => do
      let l ← left.eval division
      let r ← right.eval division
      if division = .reject ∧ op = .div ∧ r == 0 then .error (.divisionByZero column)
      else .ok (op.apply l r)

def reductions : OperatorTree → List Reduction
  | leaf _ _ => []
  | node op column left right =>
      left.reductions ++ right.reductions ++ [⟨op, column, left.value, right.value⟩]

theorem eval_ieee (tree : OperatorTree) : tree.eval .ieee = .ok tree.value := by
  induction tree with
  | leaf number mark => rfl
  | node op column left right ihLeft ihRight =>
      simp only [eval, ihLeft, ihRight]
      rfl

theorem eval_reject (tree : OperatorTree) :
    tree.eval .reject =
      match tree.reductions.find? Reduction.dividesByZero with
      | none => .ok tree.value
      | some r => .error (.divisionByZero r.column) := by
  induction tree with
  | leaf number mark => rfl
  | node op column left right ihLeft ihRight =>
      rw [eval, reductions, ihLeft, ihRight, List.find?_append, List.find?_append]
      cases hleft : left.reductions.find? Reduction.dividesByZero with
      | some r => rfl
      | none =>
          cases hright : right.reductions.find? Reduction.dividesByZero with
          | some r => rfl
          | none =>
              change (if DivisionPolicy.reject = .reject ∧ op = .div ∧ right.value == 0 then
                  Except.error (EvalError.divisionByZero column)
                else .ok (op.apply left.value right.value)) = _
              by_cases hzero : op = .div ∧ right.value == 0
              · simp [hzero, Reduction.dividesByZero]
              · have hkept : Reduction.dividesByZero ⟨op, column, left.value, right.value⟩ =
                    false := by
                  simpa [Reduction.dividesByZero] using hzero
                simp [hzero, hkept, value]

theorem length_reductions (tree : OperatorTree) :
    tree.reductions.length = tree.nodes.length := by
  induction tree with
  | leaf number mark => rfl
  | node op mark left right ihLeft ihRight =>
      simp only [reductions, nodes, List.length_append, List.length_singleton]
      omega

end OperatorTree

end Calculator
