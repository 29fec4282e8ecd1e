import Calculator.Lexeme
import Calculator.Proofs.Brackets

/-!
# Outlines of groups

A group seen from inside is a row of operands and operators.  Its own numbers and
the groups directly in it are the operands; what stands inside those groups is not
seen.  Whether the operators join the operands to one value is a matter of counting.
-/

namespace Calculator

inductive Constituent where
  | operand
  | operator (op : Operator)
  deriving DecidableEq, Repr

/-- The constituents of the tokens that follow the opening of `depth` inner groups. -/
def outline : Nat → List Lexeme → List Constituent
  | _, [] => []
  | depth, lexeme :: rest =>
      match lexeme.token, depth with
      | .number _, 0 => .operand :: outline 0 rest
      | .operator op, 0 => .operator op :: outline 0 rest
      | .openParen, 0 => .operand :: outline 1 rest
      | .openParen, depth + 1 => outline (depth + 2) rest
      | .closeParen, depth + 1 => outline depth rest
      | _, depth => outline depth rest

/-! ## Outlines of lists that match -/

theorem outline_inside {inner : List Lexeme} (h : Balanced Lexeme.token inner) (depth : Nat)
    (rest : List Lexeme) : outline (depth + 1) (inner ++ rest) = outline (depth + 1) rest := by
  induction h generalizing depth rest with
  | nil => rfl
  | @plain lexeme _ hopen hclose _ ih =>
      obtain ⟨token, _⟩ := lexeme
      cases token with
      | openParen => contradiction
      | closeParen => contradiction
      | number value => exact ih depth rest
      | operator op => exact ih depth rest
  | @group opened closed inner tail hopen _ hclose _ ihInner ihTail =>
      have hreshape : opened :: (inner ++ closed :: tail) ++ rest =
          opened :: (inner ++ (closed :: (tail ++ rest))) := by simp
      rw [hreshape]
      simp only [outline, hopen, ihInner, hclose, ihTail]

theorem outline_group {opened closed : Lexeme} {inner rest : List Lexeme}
    (hopen : opened.token = .openParen) (hinner : Balanced Lexeme.token inner)
    (hclose : closed.token = .closeParen) :
    outline 0 (opened :: (inner ++ closed :: rest)) = .operand :: outline 0 rest := by
  simp only [outline, hopen, outline_inside hinner, hclose]

/-! ## Counting -/

def operandCount (constituents : List Constituent) : Nat :=
  constituents.count .operand

def Constituent.operator? : Constituent → Option Operator
  | operand => none
  | operator op => some op

def operatorsOf (constituents : List Constituent) : List Operator :=
  constituents.filterMap Constituent.operator?

/-- One of the operators before a multiplication or a division waits, if any of them adds. -/
def heldBack (op : Operator) (earlier : List Operator) : Nat :=
  if (op = .mul ∨ op = .div) ∧ (.add ∈ earlier ∨ .sub ∈ earlier) then 1 else 0

def dueBefore (op : Operator) (earlier : List Operator) : Nat :=
  earlier.length - heldBack op earlier

/-- There are operands enough for the operators that are applied when `op` arrives. -/
def Admits (seen : List Constituent) (op : Operator) : Prop :=
  dueBefore op (operatorsOf seen) = 0 ∨
    dueBefore op (operatorsOf seen) + 1 ≤ operandCount seen

structure Joined (constituents : List Constituent) : Prop where
  count : operandCount constituents = (operatorsOf constituents).length + 1
  admits : ∀ before op after, constituents = before ++ .operator op :: after → Admits before op

@[simp] theorem operandCount_append (first second : List Constituent) :
    operandCount (first ++ second) = operandCount first + operandCount second :=
  List.count_append

@[simp] theorem operandCount_operand : operandCount [.operand] = 1 := rfl

@[simp] theorem operandCount_operator (op : Operator) : operandCount [.operator op] = 0 := rfl

@[simp] theorem operatorsOf_nil : operatorsOf [] = [] := rfl

@[simp] theorem operatorsOf_append (first second : List Constituent) :
    operatorsOf (first ++ second) = operatorsOf first ++ operatorsOf second :=
  List.filterMap_append

@[simp] theorem operatorsOf_operand : operatorsOf [.operand] = [] := rfl

@[simp] theorem operatorsOf_operator (op : Operator) :
    operatorsOf [.operator op] = [op] := rfl

theorem heldBack_le_length (op : Operator) (earlier : List Operator) :
    heldBack op earlier ≤ earlier.length := by
  unfold heldBack
  split
  · rename_i hheld
    obtain hmem | hmem := hheld.2
    · exact List.length_pos_of_mem hmem
    · exact List.length_pos_of_mem hmem
  · exact Nat.zero_le _

theorem heldBack_le_one (op : Operator) (earlier : List Operator) : heldBack op earlier ≤ 1 := by
  unfold heldBack
  split
  · exact Nat.le_refl 1
  · exact Nat.zero_le 1

theorem heldBack_of_rank_one {op : Operator} (h : op.rank = 1) (earlier : List Operator) :
    heldBack op earlier = 0 := by
  apply if_neg
  rintro ⟨rfl | rfl, -⟩
  · contradiction
  · contradiction

theorem heldBack_append_rank_one {next op : Operator} (hnext : next.rank = 2) (h : op.rank = 1)
    (earlier : List Operator) : heldBack next (earlier ++ [op]) = 1 := by
  have hhigh : next = .mul ∨ next = .div := by
    cases next <;> first | exact .inl rfl | exact .inr rfl | contradiction
  apply if_pos
  refine ⟨hhigh, ?_⟩
  cases op with
  | add => exact .inl (by simp)
  | sub => exact .inr (by simp)
  | mul => contradiction
  | div => contradiction

theorem heldBack_append_rank_two {next op : Operator} (hnext : next.rank = 2) (h : op.rank = 2)
    (earlier : List Operator) : heldBack next (earlier ++ [op]) = heldBack op earlier := by
  cases next with
  | add => contradiction
  | sub => contradiction
  | mul => cases op <;> first | contradiction | simp [heldBack]
  | div => cases op <;> first | contradiction | simp [heldBack]

/-! ## Operators in their order -/

def Ordered (seen constituents : List Constituent) : Prop :=
  ∀ before op after, constituents = before ++ .operator op :: after → Admits (seen ++ before) op

theorem ordered_nil (seen : List Constituent) : Ordered seen [] := by
  intro before op after h
  simp at h

theorem ordered_operand_iff {seen rest : List Constituent} :
    Ordered seen (.operand :: rest) ↔ Ordered (seen ++ [.operand]) rest := by
  constructor
  · intro h before op after hrest
    rw [List.append_assoc]
    exact h (.operand :: before) op after (congrArg _ hrest)
  · intro h before op after hall
    cases before with
    | nil => simp at hall
    | cons first before =>
        obtain ⟨rfl, hrest⟩ := List.cons.inj hall
        have hadmits := h before op after hrest
        rwa [List.append_assoc] at hadmits

theorem ordered_operator_iff {seen rest : List Constituent} {op : Operator} :
    Ordered seen (.operator op :: rest) ↔
      Admits seen op ∧ Ordered (seen ++ [.operator op]) rest := by
  constructor
  · intro h
    refine ⟨?_, fun before op' after hrest => ?_⟩
    · have hadmits := h [] op rest rfl
      rwa [List.append_nil] at hadmits
    · rw [List.append_assoc]
      exact h (.operator op :: before) op' after (congrArg _ hrest)
  · rintro ⟨hfirst, h⟩ before op' after hall
    cases before with
    | nil =>
        obtain ⟨hop, -⟩ := List.cons.inj hall
        obtain rfl := Constituent.operator.inj hop
        rwa [List.append_nil]
    | cons first before =>
        obtain ⟨rfl, hrest⟩ := List.cons.inj hall
        have hadmits := h before op' after hrest
        rwa [List.append_assoc] at hadmits

theorem joined_iff {constituents : List Constituent} :
    Joined constituents ↔
      operandCount constituents = (operatorsOf constituents).length + 1 ∧
        Ordered [] constituents :=
  ⟨fun h => ⟨h.count, h.admits⟩, fun h => ⟨h.1, h.2⟩⟩

end Calculator
