import Calculator.Proofs.Acceptance
import Calculator.Proofs.Infix

/-!
# Operands side by side

The evaluator counts operands and does not look at where they stand, so it accepts more
than infix expressions: an operator may follow both its operands.  The expressions are the
accepted lists in which no two operands stand side by side.

Where none do, a group has at most one operand more than operators, and it has one more
only if operands and operators alternate.
-/

namespace Calculator

/-! ## Operands side by side -/

def Token.startsOperand : Token → Bool
  | number _ | openParen => true
  | _ => false

def Token.endsOperand : Token → Bool
  | number _ | closeParen => true
  | _ => false

def StartsOperand (lexemes : List Lexeme) : Prop :=
  ∃ first rest, lexemes = first :: rest ∧ first.token.startsOperand = true

def EndsOperand (lexemes : List Lexeme) : Prop :=
  ∃ rest last, lexemes = rest ++ [last] ∧ last.token.endsOperand = true

/-- The end of an operand is directly followed by the start of another. -/
def Juxtaposed (lexemes : List Lexeme) : Prop :=
  ∃ before first second after, lexemes = before ++ first :: second :: after ∧
    first.token.endsOperand = true ∧ second.token.startsOperand = true

theorem startsOperand_cons_iff {lexeme : Lexeme} {rest : List Lexeme} :
    StartsOperand (lexeme :: rest) ↔ lexeme.token.startsOperand = true := by
  constructor
  · rintro ⟨_, _, ⟨⟩, hstarts⟩
    exact hstarts
  · exact fun hstarts => ⟨lexeme, rest, rfl, hstarts⟩

theorem endsOperand_concat_iff {lexeme : Lexeme} {rest : List Lexeme} :
    EndsOperand (rest ++ [lexeme]) ↔ lexeme.token.endsOperand = true := by
  constructor
  · rintro ⟨_, last, hsame, hends⟩
    obtain ⟨-, hlast⟩ := List.append_inj' hsame rfl
    obtain rfl : lexeme = last := by simpa using hlast
    exact hends
  · exact fun hends => ⟨rest, lexeme, rfl, hends⟩

theorem StartsOperand.append {first : List Lexeme} (h : StartsOperand first)
    (second : List Lexeme) : StartsOperand (first ++ second) := by
  obtain ⟨lexeme, rest, rfl, hstarts⟩ := h
  exact ⟨lexeme, rest ++ second, rfl, hstarts⟩

theorem EndsOperand.append {second : List Lexeme} (h : EndsOperand second)
    (first : List Lexeme) : EndsOperand (first ++ second) := by
  obtain ⟨rest, lexeme, rfl, hends⟩ := h
  exact ⟨first ++ rest, lexeme, (List.append_assoc _ _ _).symm, hends⟩

theorem juxtaposed_append_iff {first second : List Lexeme} :
    Juxtaposed (first ++ second) ↔
      Juxtaposed first ∨ Juxtaposed second ∨ EndsOperand first ∧ StartsOperand second := by
  constructor
  · rintro ⟨before, left, right, after, hsplit, hends, hstarts⟩
    obtain ⟨later, rfl, rfl⟩ | ⟨later, rfl, hlater⟩ := List.append_eq_append_iff.mp hsplit
    · exact .inr (.inl ⟨later, left, right, after, rfl, hends, hstarts⟩)
    · rcases later with _ | ⟨_, _ | ⟨_, later⟩⟩
      · exact .inr (.inl ⟨[], left, right, after, hlater.symm, hends, hstarts⟩)
      · obtain ⟨rfl, rfl⟩ := List.cons.inj hlater
        exact .inr (.inr ⟨⟨before, left, rfl, hends⟩, right, after, rfl, hstarts⟩)
      · obtain ⟨rfl, htail⟩ := List.cons.inj hlater
        obtain ⟨rfl, -⟩ := List.cons.inj htail
        exact .inl ⟨before, left, right, later, rfl, hends, hstarts⟩
  · rintro (⟨before, left, right, after, rfl, hends, hstarts⟩ |
      ⟨before, left, right, after, rfl, hends, hstarts⟩ |
      ⟨⟨rest, left, rfl, hends⟩, right, after, rfl, hstarts⟩)
    · exact ⟨before, left, right, after ++ second, by simp, hends, hstarts⟩
    · exact ⟨first ++ before, left, right, after, by simp, hends, hstarts⟩
    · exact ⟨rest, left, right, after, by simp, hends, hstarts⟩

theorem not_startsOperand_nil : ¬ StartsOperand [] := by
  rintro ⟨_, _, hnone, -⟩
  contradiction

theorem not_juxtaposed_nil : ¬ Juxtaposed [] := by
  rintro ⟨_, _, _, _, hnone, -⟩
  simp at hnone

theorem juxtaposed_cons_iff {lexeme : Lexeme} {rest : List Lexeme} :
    Juxtaposed (lexeme :: rest) ↔
      Juxtaposed rest ∨ lexeme.token.endsOperand = true ∧ StartsOperand rest := by
  have hsingle : ¬ Juxtaposed [lexeme] := by
    rintro ⟨before, _, _, _, hsplit, -⟩
    have hlength := congrArg List.length hsplit
    simp only [List.length_append, List.length_cons, List.length_nil] at hlength
    omega
  have hends : EndsOperand [lexeme] ↔ lexeme.token.endsOperand = true :=
    @endsOperand_concat_iff lexeme []
  rw [← List.singleton_append, juxtaposed_append_iff, hends]
  exact or_iff_right hsingle

structure Apart (lexemes : List Lexeme) : Prop where
  starts : StartsOperand lexemes
  ends : EndsOperand lexemes
  apart : ¬ Juxtaposed lexemes

theorem Apart.joined {first second : List Lexeme} (hfirst : Apart first) (hsecond : Apart second)
    (op : Operator) (column : Nat) : Apart (first ++ ⟨.operator op, column⟩ :: second) where
  starts := hfirst.starts.append _
  ends := (hsecond.ends.append [_]).append first
  apart := by
    rw [juxtaposed_append_iff, juxtaposed_cons_iff, startsOperand_cons_iff]
    simp [hfirst.apart, hsecond.apart, Token.endsOperand, Token.startsOperand]

theorem Apart.group {inner : List Lexeme} (h : Apart inner) (opened closed : Nat) :
    Apart (⟨.openParen, opened⟩ :: (inner ++ [⟨.closeParen, closed⟩])) where
  starts := ⟨_, _, rfl, rfl⟩
  ends := ⟨⟨.openParen, opened⟩ :: inner, _, rfl, rfl⟩
  apart := by
    rw [juxtaposed_cons_iff, juxtaposed_append_iff, juxtaposed_cons_iff, startsOperand_cons_iff]
    simp [h.apart, not_juxtaposed_nil, not_startsOperand_nil, Token.endsOperand,
      Token.startsOperand]

theorem apart_of_derives {category : Category} {lexemes : List Lexeme} {tree : OperatorTree}
    (h : Derives category lexemes tree) : Apart lexemes := by
  induction h with
  | number value column =>
      refine ⟨⟨_, _, rfl, rfl⟩, ⟨[], _, rfl, rfl⟩, ?_⟩
      rw [juxtaposed_cons_iff]
      exact not_or.mpr ⟨not_juxtaposed_nil, fun h => not_startsOperand_nil h.2⟩
  | group opened closed _ ih => exact ih.group opened closed
  | factor _ ih => exact ih
  | product column _ _ _ ihFirst ihSecond => exact ihFirst.joined ihSecond _ column
  | term _ ih => exact ih
  | sum column _ _ _ ihFirst ihSecond => exact ihFirst.joined ihSecond _ column

/-! ## Chains of factors -/

inductive Chain : List Lexeme → Prop
  | nil : Chain []
  | link {factor rest : List Lexeme} {tree : OperatorTree} (op : Operator) (column : Nat) :
      Derives .factor factor tree → Chain rest →
      Chain (⟨.operator op, column⟩ :: (factor ++ rest))

inductive Leads : List Lexeme → Prop
  | nil : Leads []
  | sum {first : List Lexeme} {tree : OperatorTree} {op : Operator} (column : Nat) :
      Derives .expression first tree → op = .add ∨ op = .sub →
      Leads (first ++ [⟨.operator op, column⟩])

theorem Leads.exists_derives {before term : List Lexeme} {tree : OperatorTree}
    (h : Leads before) (hterm : Derives .term term tree) :
    ∃ whole, Derives .expression (before ++ term) whole := by
  cases h with
  | nil => exact ⟨tree, .term hterm⟩
  | sum column hfirst hop =>
      rw [List.append_assoc]
      exact ⟨_, .sum column hfirst hop hterm⟩

theorem Chain.exists_derives {rest before term : List Lexeme} {tree : OperatorTree}
    (h : Chain rest) (hbefore : Leads before) (hterm : Derives .term term tree) :
    ∃ whole, Derives .expression (before ++ (term ++ rest)) whole := by
  induction h generalizing before term tree with
  | nil =>
      rw [List.append_nil]
      exact hbefore.exists_derives hterm
  | @link factor rest tree' op column hfactor _ ih =>
      have hop : (op = .mul ∨ op = .div) ∨ op = .add ∨ op = .sub := by cases op <;> simp
      obtain hop | hop := hop
      · have hall := ih hbefore (.product column hterm hop hfactor)
        simpa using hall
      · obtain ⟨_, hsum⟩ := hbefore.exists_derives hterm
        have hall := ih (.sum column hsum hop) (.factor hfactor)
        simpa using hall

def Alternates (lexemes : List Lexeme) : Prop :=
  ∃ factor rest tree, Derives .factor factor tree ∧ Chain rest ∧ lexemes = factor ++ rest

theorem Alternates.exists_derives {lexemes : List Lexeme} (h : Alternates lexemes) :
    ∃ tree, Derives .expression lexemes tree := by
  obtain ⟨factor, rest, tree, hfactor, hrest, rfl⟩ := h
  exact hrest.exists_derives .nil (.factor hfactor)

/-! ## Counting -/

structure Shaped (lexemes : List Lexeme) : Prop where
  count_le : operandCount (outline 0 lexemes) ≤ (operatorsOf (outline 0 lexemes)).length + 1
  alternates : operandCount (outline 0 lexemes) = (operatorsOf (outline 0 lexemes)).length + 1 →
    Alternates lexemes
  after_le : ¬ StartsOperand lexemes →
    operandCount (outline 0 lexemes) ≤ (operatorsOf (outline 0 lexemes)).length
  chain : ¬ StartsOperand lexemes →
    operandCount (outline 0 lexemes) = (operatorsOf (outline 0 lexemes)).length → Chain lexemes

theorem shaped_nil : Shaped [] where
  count_le := Nat.zero_le _
  alternates := nofun
  after_le _ := Nat.zero_le _
  chain _ _ := .nil

theorem Shaped.factor {factor rest : List Lexeme} {tree : OperatorTree} (h : Shaped rest)
    (hfactor : Derives .factor factor tree) (hrest : ¬ StartsOperand rest)
    (houtline : outline 0 (factor ++ rest) = .operand :: outline 0 rest) :
    Shaped (factor ++ rest) := by
  have hle := h.after_le hrest
  have hstarts := (apart_of_derives hfactor).starts.append rest
  have hoperands : operandCount (outline 0 (factor ++ rest)) =
      operandCount (outline 0 rest) + 1 := by
    rw [houtline, operandCount, List.count_cons_self, operandCount]
  have hoperators : operatorsOf (outline 0 (factor ++ rest)) = operatorsOf (outline 0 rest) := by
    rw [houtline]
    rfl
  constructor
  · rw [hoperands, hoperators]
    omega
  · rw [hoperands, hoperators]
    intro hcount
    exact ⟨factor, rest, tree, hfactor, h.chain hrest (by omega), rfl⟩
  · exact fun hnot => absurd hstarts hnot
  · exact fun hnot => absurd hstarts hnot

theorem Shaped.operator {rest : List Lexeme} (h : Shaped rest) (op : Operator) (column : Nat) :
    Shaped (⟨.operator op, column⟩ :: rest) := by
  have hle := h.count_le
  have hoperands : operandCount (outline 0 (⟨.operator op, column⟩ :: rest)) =
      operandCount (outline 0 rest) := rfl
  have hoperators : (operatorsOf (outline 0 (⟨.operator op, column⟩ :: rest))).length =
      (operatorsOf (outline 0 rest)).length + 1 := rfl
  constructor
  · omega
  · intro hcount
    omega
  · intro _
    omega
  · intro _ hcount
    obtain ⟨factor, others, _, hfactor, hothers, rfl⟩ := h.alternates (by omega)
    exact .link op column hfactor hothers

theorem shaped_of_balanced {lexemes : List Lexeme} (h : Balanced Lexeme.token lexemes)
    (hjoined : ∀ inner, Encloses Lexeme.token lexemes inner → Joined (outline 0 inner))
    (hapart : ¬ Juxtaposed lexemes) : Shaped lexemes := by
  induction h with
  | nil => exact shaped_nil
  | @plain lexeme rest hopen hclose _ ih =>
      obtain ⟨token, column⟩ := lexeme
      rw [juxtaposed_cons_iff, not_or] at hapart
      have hrest := ih (fun inner hinner => hjoined inner ((encloses_plain_iff hopen).mpr hinner))
        hapart.1
      cases token with
      | openParen => contradiction
      | closeParen => contradiction
      | operator op => exact hrest.operator op column
      | number value =>
          have hstarts : ¬ StartsOperand rest := fun hstarts => hapart.2 ⟨rfl, hstarts⟩
          exact hrest.factor (.number value column) hstarts rfl
  | @group opened closed inner rest hopen hinner hclose _ ihInner ihRest =>
      simp only [encloses_group_iff hopen hinner hclose, or_imp, forall_and, forall_eq] at hjoined
      have houtline : outline 0 (opened :: (inner ++ closed :: rest)) =
          .operand :: outline 0 rest := outline_group hopen hinner hclose
      have hreshape : opened :: (inner ++ closed :: rest) =
          opened :: (inner ++ [closed]) ++ rest := by simp
      obtain ⟨_, openedColumn⟩ := opened
      obtain ⟨_, closedColumn⟩ := closed
      obtain rfl := hopen
      obtain rfl := hclose
      rw [juxtaposed_cons_iff, juxtaposed_append_iff, juxtaposed_cons_iff] at hapart
      simp only [not_or] at hapart
      obtain ⟨⟨hapartInner, ⟨hapartRest, hstarts⟩, -⟩, -⟩ := hapart
      obtain ⟨hjoinedInner, henclosed, hjoinedRest⟩ := hjoined
      have halternates := (ihInner henclosed hapartInner).alternates hjoinedInner.count
      obtain ⟨_, hexpression⟩ := halternates.exists_derives
      have hfactor := Derives.group openedColumn closedColumn hexpression
      rw [hreshape] at houtline ⊢
      exact (ihRest hjoinedRest hapartRest).factor hfactor (fun h => hstarts ⟨rfl, h⟩) houtline

namespace Stacks

section

variable [Operator.Arithmetic]

/-! ## Runs -/

/--
Infix expressions among the token lists: they are those that a run accepts, under some
policy, and in which no two operands stand side by side.
-/
theorem exists_derives_iff (lexemes : List Lexeme) :
    (∃ tree, Derives .expression lexemes tree) ↔
      (∃ division v, (run division lexemes .empty).result = .ok v) ∧ ¬ Juxtaposed lexemes := by
  constructor
  · rintro ⟨tree, htree⟩
    have hphrase := pushAll_phrase htree .empty trivial (Nat.le_refl _)
    rw [← funext (reduceGroup_eq_settle .ieee)] at hphrase
    have hrun := (run_yields_iff.mpr hphrase).1
    exact ⟨⟨.ieee, tree.value, hrun⟩, (apart_of_derives htree).apart⟩
  · rintro ⟨⟨division, v, hrun⟩, hapart⟩
    rw [run_ieee_of_run_ok hrun] at hrun
    have hbalanced := balanced_of_run_ok hrun
    obtain ⟨henclosed, hjoined⟩ :=
      (exists_run_ok_iff (succeedsIff_pushAll hbalanced counted_empty)).mp ⟨v, hrun⟩
    exact ((shaped_of_balanced hbalanced henclosed hapart).alternates
      hjoined.count).exists_derives

end

def postfixSum : List Lexeme :=
  [⟨.number 1, 1⟩, ⟨.number 2, 3⟩, ⟨.number 3, 5⟩, ⟨.operator .add, 7⟩, ⟨.operator .mul, 9⟩]

theorem run_postfixSum :
    (run .ieee postfixSum .empty).result = .ok 7 ∧
      (run .reject postfixSum .empty).result = .ok 7 ∧
      ¬ ∃ tree, Derives .expression postfixSum tree := by
  refine ⟨by decide +kernel, by decide +kernel, ?_⟩
  rintro ⟨tree, htree⟩
  exact (apart_of_derives htree).apart
    ⟨[], ⟨.number 1, 1⟩, ⟨.number 2, 3⟩, _, rfl, rfl, rfl⟩

end Stacks

end Calculator
