import Calculator.Proofs.OperatorTree
import Calculator.Proofs.Group

/-!
# Where a value comes from

The operand stack of a run is a forest: every operand is the value of a tree whose
leaves and nodes are tokens pushed before.  A token list that yields a value, well
formed as an infix expression or not, thus belongs to one tree, which holds each
number and each operator once and each group as a subtree.

Tokens are told apart by their places in the list.
-/

namespace Calculator

/-! ## Tokens in their places -/

def placedToken (item : Lexeme × Nat) : Token := item.1.token

def placedNumber? (item : Lexeme × Nat) : Option (Float × Nat) :=
  match placedToken item with
  | .number value => some (value, item.2)
  | _ => none

def placedOperator? (item : Lexeme × Nat) : Option (Operator × Nat) :=
  match placedToken item with
  | .operator op => some (op, item.2)
  | _ => none

def numbers (items : List (Lexeme × Nat)) : List (Float × Nat) := items.filterMap placedNumber?

def operators (items : List (Lexeme × Nat)) : List (Operator × Nat) :=
  items.filterMap placedOperator?

def columnAt (lexemes : List Lexeme) (place : Nat) : Nat :=
  (lexemes[place]?.map Lexeme.column).getD 0

def Reduction.mapColumn (column : Nat → Nat) (r : Reduction) : Reduction :=
  { r with column := column r.column }

theorem columnAt_of_mem_zipIdx {lexemes : List Lexeme} {item : Lexeme × Nat}
    (h : item ∈ lexemes.zipIdx) : columnAt lexemes item.2 = item.1.column := by
  have hplace : lexemes[item.2]? = some item.1 := List.mem_zipIdx_iff_getElem?.mp h
  rw [columnAt, hplace]
  rfl

@[simp] theorem numbers_append (first second : List (Lexeme × Nat)) :
    numbers (first ++ second) = numbers first ++ numbers second :=
  List.filterMap_append

@[simp] theorem operators_append (first second : List (Lexeme × Nat)) :
    operators (first ++ second) = operators first ++ operators second :=
  List.filterMap_append

theorem numbers_group {opened closed : Lexeme × Nat} (hopen : placedToken opened = .openParen)
    (hclose : placedToken closed = .closeParen) (inner : List (Lexeme × Nat)) :
    numbers (opened :: (inner ++ [closed])) = numbers inner := by
  simp [numbers, placedNumber?, hopen, hclose]

theorem operators_group {opened closed : Lexeme × Nat} (hopen : placedToken opened = .openParen)
    (hclose : placedToken closed = .closeParen) (inner : List (Lexeme × Nat)) :
    operators (opened :: (inner ++ [closed])) = operators inner := by
  simp [operators, placedOperator?, hopen, hclose]

namespace OperatorTree

structure Spans (tree : OperatorTree) (items : List (Lexeme × Nat)) : Prop where
  leaves_eq : tree.leaves = numbers items
  nodes_perm : tree.nodes.Perm (operators items)

theorem Spans.length_numbers {tree : OperatorTree} {items : List (Lexeme × Nat)}
    (h : tree.Spans items) : (numbers items).length = (operators items).length + 1 := by
  have hleaves := congrArg List.length h.leaves_eq
  have hnodes := h.nodes_perm.length_eq
  have htree := tree.length_leaves
  omega

end OperatorTree

/-! ## Forests -/

/-- The trees of the operands and the operators that wait, each list with its top at the head. -/
structure Forest where
  trees : List OperatorTree
  waiting : List (Operator × Nat)

namespace Forest

variable [Operator.Arithmetic]

def empty : Forest := ⟨[], []⟩

def toStacks (column : Nat → Nat) (forest : Forest) : Stacks :=
  ⟨forest.trees.map OperatorTree.value,
    forest.waiting.map fun (op, place) => .operator op (column place)⟩

def leaves (forest : Forest) : List (Float × Nat) :=
  forest.trees.reverse.flatMap OperatorTree.leaves

def nodes (forest : Forest) : List (Operator × Nat) :=
  forest.trees.flatMap OperatorTree.nodes ++ forest.waiting

def reductions (forest : Forest) : List Reduction :=
  forest.trees.reverse.flatMap OperatorTree.reductions

def Contains (forest : Forest) (sub : OperatorTree) : Prop :=
  ∃ tree ∈ forest.trees, sub ∈ tree.subtrees

/--
From `before` to `after` the tokens `items` come in and the reductions `done` are
made.  No token is lost, doubled or moved among the leaves.
-/
structure Grows (column : Nat → Nat) (before : Forest) (items : List (Lexeme × Nat))
    (done : List Reduction) (after : Forest) : Prop where
  leaves_eq : after.leaves = before.leaves ++ numbers items
  nodes_perm : after.nodes.Perm (before.nodes ++ operators items)
  keeps : ∀ sub, before.Contains sub → after.Contains sub
  groups : ∀ inner, Encloses placedToken items inner → ∃ sub, after.Contains sub ∧ sub.Spans inner
  reductions_eq : after.reductions.map (Reduction.mapColumn column) =
    before.reductions.map (Reduction.mapColumn column) ++ done

variable {column : Nat → Nat}

theorem Grows.refl (forest : Forest) : Grows column forest [] [] forest where
  leaves_eq := by simp [numbers]
  nodes_perm := by simp [operators]
  keeps _ h := h
  groups _ h := absurd h not_encloses_nil
  reductions_eq := by simp

theorem Grows.trans {before middle after : Forest} {first second : List (Lexeme × Nat)}
    {done later : List Reduction} (hfirst : Grows column before first done middle)
    (hsecond : Grows column middle second later after)
    (hsplit : ∀ inner, Encloses placedToken (first ++ second) inner →
      Encloses placedToken first inner ∨ Encloses placedToken second inner) :
    Grows column before (first ++ second) (done ++ later) after where
  leaves_eq := by
    rw [hsecond.leaves_eq, hfirst.leaves_eq, numbers_append, List.append_assoc]
  nodes_perm := by
    rw [operators_append, ← List.append_assoc]
    exact hsecond.nodes_perm.trans (hfirst.nodes_perm.append_right _)
  keeps sub h := hsecond.keeps sub (hfirst.keeps sub h)
  groups inner h := by
    obtain hin | hin := hsplit inner h
    · obtain ⟨sub, hmiddle, hspans⟩ := hfirst.groups inner hin
      exact ⟨sub, hsecond.keeps sub hmiddle, hspans⟩
    · exact hsecond.groups inner hin
  reductions_eq := by
    rw [hsecond.reductions_eq, hfirst.reductions_eq, List.append_assoc]

theorem Grows.andThen_silent {before middle after : Forest} {items : List (Lexeme × Nat)}
    {done later : List Reduction} (hfirst : Grows column before items done middle)
    (hsecond : Grows column middle [] later after) :
    Grows column before items (done ++ later) after := by
  have hall := hfirst.trans hsecond fun inner h => .inl (by rwa [List.append_nil] at h)
  rwa [List.append_nil] at hall

theorem Grows.spans {items : List (Lexeme × Nat)} {done : List Reduction} {tree : OperatorTree}
    (h : Grows column empty items done ⟨[tree], []⟩) : tree.Spans items :=
  ⟨by simpa [leaves, empty] using h.leaves_eq, by simpa [nodes, empty] using h.nodes_perm⟩

theorem Grows.reductions_tree {items : List (Lexeme × Nat)} {done : List Reduction}
    {tree : OperatorTree} (h : Grows column empty items done ⟨[tree], []⟩) :
    tree.reductions.map (Reduction.mapColumn column) = done := by
  simpa [reductions, empty] using h.reductions_eq

/-! ## One step of growth -/

theorem grows_number {item : Lexeme × Nat} {value : Float}
    (h : placedToken item = .number value) (forest : Forest) :
    Grows column forest [item] [] ⟨.leaf value item.2 :: forest.trees, forest.waiting⟩ where
  leaves_eq := by simp [leaves, numbers, placedNumber?, OperatorTree.leaves, h]
  nodes_perm := by simp [nodes, operators, placedOperator?, OperatorTree.nodes, h]
  keeps := fun sub ⟨tree, htree, hsub⟩ => ⟨tree, List.mem_cons_of_mem _ htree, hsub⟩
  groups inner hinner := absurd ((encloses_plain_iff (by simp [h])).mp hinner) not_encloses_nil
  reductions_eq := by simp [reductions, OperatorTree.reductions]

theorem grows_operator {item : Lexeme × Nat} {op : Operator}
    (h : placedToken item = .operator op) (column : Nat → Nat) (forest : Forest) :
    Grows column forest [item] [] ⟨forest.trees, (op, item.2) :: forest.waiting⟩ where
  leaves_eq := by simp [leaves, numbers, placedNumber?, h]
  nodes_perm := by
    have hlast : operators [item] = [(op, item.2)] := by simp [operators, placedOperator?, h]
    rw [hlast, nodes, nodes, List.append_assoc]
    exact (List.perm_append_singleton (op, item.2) forest.waiting).symm.append_left _
  keeps _ hsub := hsub
  groups inner hinner := absurd ((encloses_plain_iff (by simp [h])).mp hinner) not_encloses_nil
  reductions_eq := by simp [reductions]

theorem grows_reduction (column : Nat → Nat) (op : Operator) (place : Nat)
    (left right : OperatorTree) (trees : List OperatorTree)
    (waiting : List (Operator × Nat)) :
    Grows column ⟨right :: left :: trees, (op, place) :: waiting⟩ []
      [⟨op, column place, left.value, right.value⟩]
      ⟨.node op place left right :: trees, waiting⟩ where
  leaves_eq := by simp [leaves, numbers, OperatorTree.leaves]
  nodes_perm := by
    rw [List.perm_iff_count]
    intro node
    simp only [nodes, operators, OperatorTree.nodes, List.flatMap_cons, List.count_append,
      List.count_cons, List.count_nil, List.filterMap_nil]
    omega
  keeps := by
    rintro sub ⟨tree, htree, hsub⟩
    simp only [List.mem_cons] at htree
    obtain rfl | rfl | hbelow := htree
    · exact ⟨_, List.mem_cons_self, by simp [OperatorTree.subtrees, hsub]⟩
    · exact ⟨_, List.mem_cons_self, by simp [OperatorTree.subtrees, hsub]⟩
    · exact ⟨tree, List.mem_cons_of_mem _ hbelow, hsub⟩
  groups _ h := absurd h not_encloses_nil
  reductions_eq := by simp [reductions, OperatorTree.reductions, Reduction.mapColumn]

theorem grows_group {inner : List (Lexeme × Nat)} {opened closed : Lexeme × Nat}
    {done : List Reduction} {tree : OperatorTree} (hinner : Balanced placedToken inner)
    (hopen : placedToken opened = .openParen) (hclose : placedToken closed = .closeParen)
    (h : Grows column empty inner done ⟨[tree], []⟩) (forest : Forest) :
    Grows column forest (opened :: (inner ++ [closed])) done
      ⟨tree :: forest.trees, forest.waiting⟩ where
  leaves_eq := by
    rw [numbers_group hopen hclose, ← h.spans.leaves_eq]
    simp [leaves]
  nodes_perm := by
    rw [operators_group hopen hclose, nodes, List.flatMap_cons, List.append_assoc]
    exact List.perm_append_comm.trans (h.spans.nodes_perm.append_left forest.nodes)
  keeps := fun sub ⟨tree, htree, hsub⟩ => ⟨tree, List.mem_cons_of_mem _ htree, hsub⟩
  groups nested hnested := by
    obtain rfl | hin | hnone := (encloses_group_iff hopen hinner hclose).mp hnested
    · exact ⟨tree, ⟨tree, List.mem_cons_self, tree.mem_subtrees_self⟩, h.spans⟩
    · obtain ⟨sub, ⟨whole, hwhole, hsub⟩, hspans⟩ := h.groups nested hin
      obtain rfl := List.mem_singleton.mp hwhole
      exact ⟨sub, ⟨whole, List.mem_cons_self, hsub⟩, hspans⟩
    · exact absurd hnone not_encloses_nil
  reductions_eq := by
    rw [← h.reductions_tree]
    simp [reductions]

/-! ## Steps on the stacks of a forest -/

open Outcome Stacks

theorem reduceWhile_grows {division : DivisionPolicy} {ready : Operator → Bool}
    {forest : Forest} {done : List Reduction} {last : Stacks}
    (h : (reduceWhile division ready (forest.toStacks column).operands
      (forest.toStacks column).pending).Reaches done last) :
    ∃ grown, last = grown.toStacks column ∧ Grows column forest [] done grown := by
  obtain ⟨trees, waiting⟩ := forest
  induction waiting generalizing trees done with
  | nil =>
      obtain ⟨rfl, rfl⟩ := reaches_accepted_iff.mp h
      exact ⟨⟨trees, []⟩, rfl, .refl _⟩
  | cons entry waiting ih =>
      obtain ⟨op, place⟩ := entry
      simp only [toStacks, List.map_cons] at h
      cases hready : ready op with
      | false =>
          rw [reduceWhile_waiting hready] at h
          obtain ⟨rfl, rfl⟩ := reaches_accepted_iff.mp h
          exact ⟨⟨trees, (op, place) :: waiting⟩, rfl, .refl _⟩
      | true =>
          rw [reduceWhile_ready hready, reaches_andThen_iff] at h
          obtain ⟨_, _, later, hreduce, hrest, rfl⟩ := h
          obtain ⟨_, _, _, hoperands, -, -, rfl, rfl⟩ := reaches_reduce_iff.mp hreduce
          obtain ⟨right, below, rfl, rfl, hbelow⟩ := List.map_eq_cons_iff.mp hoperands
          obtain ⟨left, trees, rfl, rfl, rfl⟩ := List.map_eq_cons_iff.mp hbelow
          obtain ⟨grown, rfl, hgrown⟩ := ih (.node op place left right :: trees) hrest
          have hfirst := grows_reduction column op place left right trees waiting
          exact ⟨grown, rfl, hfirst.andThen_silent hgrown⟩

theorem push_grows {division : DivisionPolicy} {item : Lexeme × Nat} {forest : Forest}
    {done : List Reduction} {last : Stacks} (hopen : placedToken item ≠ .openParen)
    (hclose : placedToken item ≠ .closeParen) (hcolumn : column item.2 = item.1.column)
    (h : (push division item.1 (forest.toStacks column)).Reaches done last) :
    ∃ grown, last = grown.toStacks column ∧ Grows column forest [item] done grown := by
  obtain ⟨⟨token, _⟩, place⟩ := item
  change column place = _ at hcolumn
  obtain rfl := hcolumn
  cases token with
  | openParen => exact absurd rfl hopen
  | closeParen => exact absurd rfl hclose
  | number value =>
      obtain ⟨rfl, rfl⟩ := reaches_push_number_iff.mp h
      exact ⟨_, rfl, grows_number rfl forest⟩
  | operator op =>
      obtain ⟨operands, _⟩ := last
      obtain ⟨pending, rfl, hreduce⟩ := reaches_push_operator_iff.mp h
      obtain ⟨reduced, hreduced, hgrown⟩ := reduceWhile_grows hreduce
      obtain ⟨rfl, rfl⟩ := Stacks.mk.inj hreduced
      refine ⟨⟨reduced.trees, (op, place) :: reduced.waiting⟩, rfl, ?_⟩
      have hlast : Grows column reduced [(⟨.operator op, column place⟩, place)] []
          ⟨reduced.trees, (op, place) :: reduced.waiting⟩ := grows_operator rfl column reduced
      have hall := hgrown.trans hlast fun _ hinner => .inr hinner
      rwa [List.append_nil] at hall

theorem exists_tree_of_yields {division : DivisionPolicy} {items : List (Lexeme × Nat)}
    {done : List Reduction} {v : Float}
    (hpush : ∀ done last, (pushAll division (items.map Prod.fst) .empty).Reaches done last →
      ∃ grown, last = grown.toStacks column ∧ Grows column empty items done grown)
    (h : (run division (items.map Prod.fst) .empty).Yields done v) :
    ∃ tree : OperatorTree, tree.value = v ∧ Grows column empty items done ⟨[tree], []⟩ := by
  obtain ⟨_, _, _, hpushed, hend, rfl⟩ := reaches_andThen_iff.mp (run_yields_iff.mp h)
  obtain ⟨middle, rfl, hmiddle⟩ := hpush _ _ hpushed
  obtain ⟨⟨trees, waiting⟩, hlast, hgrown⟩ := reduceWhile_grows hend
  obtain ⟨htrees, hwaiting⟩ := Stacks.mk.inj hlast
  obtain rfl := List.map_eq_nil_iff.mp hwaiting.symm
  obtain ⟨tree, rfl, rfl⟩ := List.map_eq_singleton_iff.mp htrees.symm
  exact ⟨tree, rfl, hmiddle.andThen_silent hgrown⟩

theorem pushAll_grows {division : DivisionPolicy} {items : List (Lexeme × Nat)}
    (hbalanced : Balanced placedToken items)
    (hcolumn : ∀ item ∈ items, column item.2 = item.1.column) (forest : Forest)
    {done : List Reduction} {last : Stacks}
    (h : (pushAll division (items.map Prod.fst) (forest.toStacks column)).Reaches done last) :
    ∃ grown, last = grown.toStacks column ∧ Grows column forest items done grown := by
  -- by how the parentheses match: a group inside grows from no trees to the one of its value
  induction hbalanced generalizing forest done last with
  | nil =>
      obtain ⟨rfl, rfl⟩ := reaches_accepted_iff.mp h
      exact ⟨forest, rfl, .refl forest⟩
  | @plain item rest hopen hclose _ ih =>
      rw [List.map_cons, reaches_pushAll_cons_iff] at h
      obtain ⟨_, _, _, hfirst, hrest, rfl⟩ := h
      have hitem := hcolumn item List.mem_cons_self
      obtain ⟨middle, rfl, hmiddle⟩ := push_grows hopen hclose hitem hfirst
      obtain ⟨grown, rfl, hgrown⟩ := ih (fun item hmem => hcolumn item (.tail _ hmem)) middle hrest
      refine ⟨grown, rfl, hmiddle.trans hgrown fun inner hinner => .inr ?_⟩
      exact (encloses_plain_iff hopen).mp hinner
  | @group opened closed inner rest hopen hinner hclose _ ihInner ihRest =>
      have hlexemes : Balanced Lexeme.token (inner.map Prod.fst) := balanced_map_iff.mpr hinner
      rw [List.map_cons, List.map_append, List.map_cons] at h
      obtain ⟨v, _, _, hyields, hrest, rfl⟩ :=
        (reaches_pushAll_group_cons_iff hopen hlexemes hclose).mp h
      have hinside : ∀ item ∈ inner, column item.2 = item.1.column :=
        fun item hmem => hcolumn item (by simp [hmem])
      have hafter : ∀ item ∈ rest, column item.2 = item.1.column :=
        fun item hmem => hcolumn item (by simp [hmem])
      obtain ⟨tree, rfl, htree⟩ :=
        exists_tree_of_yields (fun _ _ => ihInner hinside empty) hyields
      have hmiddle := grows_group hinner hopen hclose htree forest
      obtain ⟨grown, rfl, hgrown⟩ :=
        ihRest hafter ⟨tree :: forest.trees, forest.waiting⟩ hrest
      have hall := hmiddle.trans hgrown fun _ hnested =>
        encloses_of_group_append hopen hinner hclose hnested
      have hreshape : opened :: (inner ++ closed :: rest) =
          (opened :: (inner ++ [closed])) ++ rest := by simp
      rw [hreshape]
      exact ⟨grown, rfl, hall⟩

end Forest

/-! ## The tree of a value -/

open Stacks

/--
A value that is accepted is the value of one tree of all the tokens.  Every pair of
parentheses encloses the tokens of a subtree, and the reductions are those of the tree.
-/
theorem exists_tree_of_run_ok [Operator.Arithmetic] {division : DivisionPolicy} {lexemes : List Lexeme} {v : Float}
    (h : (run division lexemes .empty).result = .ok v) :
    ∃ tree : OperatorTree, tree.value = v ∧ tree.Spans lexemes.zipIdx ∧
      (∀ inner, Encloses placedToken lexemes.zipIdx inner →
        (∃ sub ∈ tree.subtrees, sub.Spans inner) ∧
          (numbers inner).length = (operators inner).length + 1) ∧
      (numbers lexemes.zipIdx).length = (operators lexemes.zipIdx).length + 1 ∧
      (run division lexemes .empty).reductions =
        tree.reductions.map (Reduction.mapColumn (columnAt lexemes)) ∧
      (run division lexemes .empty).reductions.length = (operators lexemes.zipIdx).length := by
  have hfst : lexemes.zipIdx.map Prod.fst = lexemes := List.zipIdx_map_fst 0 lexemes
  have hbalanced : Balanced placedToken lexemes.zipIdx := by
    apply balanced_map_iff.mp
    rw [hfst]
    exact balanced_of_run_ok h
  have hyields : (run division (lexemes.zipIdx.map Prod.fst) .empty).Yields
      (run division lexemes .empty).reductions v := by
    rw [hfst]
    exact ⟨h, rfl⟩
  obtain ⟨tree, hvalue, hgrows⟩ := Forest.exists_tree_of_yields
    (fun _ _ => Forest.pushAll_grows hbalanced (fun _ => columnAt_of_mem_zipIdx) .empty) hyields
  have hspans := hgrows.spans
  have hreductions := hgrows.reductions_tree.symm
  refine ⟨tree, hvalue, hspans, fun inner hinner => ?_, hspans.length_numbers, hreductions, ?_⟩
  · obtain ⟨sub, ⟨whole, hwhole, hsub⟩, hinside⟩ := hgrows.groups inner hinner
    obtain rfl := List.mem_singleton.mp hwhole
    exact ⟨⟨sub, hsub, hinside⟩, hinside.length_numbers⟩
  · rw [hreductions, List.length_map, tree.length_reductions, hspans.nodes_perm.length_eq]

def postfixDifference : List Lexeme :=
  [⟨.number 1, 1⟩, ⟨.openParen, 3⟩, ⟨.number 2, 5⟩, ⟨.number 3, 7⟩, ⟨.operator .add, 9⟩,
    ⟨.closeParen, 11⟩, ⟨.number 4, 13⟩, ⟨.operator .mul, 15⟩, ⟨.operator .sub, 17⟩]

theorem exists_tree_of_run_ok_postfixDifference :
    (run .reject postfixDifference .empty).result = .ok (-19) ∧
      ∃ tree : OperatorTree, tree.value = -19 ∧ tree.leaves = [(1, 0), (2, 2), (3, 3), (4, 6)] ∧
        tree.nodes.Perm [(.add, 4), (.mul, 7), (.sub, 8)] := by
  have hrun : (run .reject postfixDifference .empty).result = .ok (-19) := by
    decide +kernel
  obtain ⟨tree, hvalue, hspans, -⟩ := exists_tree_of_run_ok hrun
  exact ⟨hrun, tree, hvalue, hspans.leaves_eq, hspans.nodes_perm⟩

end Calculator
