import Calculator.Token
import Calculator.Proofs.LiteralGrammar

/-!
# The grammar of tokens

A number is a literal as a whole whose value is finite, and every other token is one
character.  No symbol is a literal, so a text is at most one token, and the recognised texts
are those of the grammar.  How a literal is given a value is a parameter.
-/

namespace Calculator

/-! ## Values of literals -/

/-- On a literal, parsing gives the nearest binary64 value. -/
def ParsesLiterals (parse : List Char → Option Float) : Prop :=
  ∀ chars numeral, Numeral.ofChars? chars = some numeral → parse chars = some numeral.value

def Numeral.parse? (chars : List Char) : Option Float := (ofChars? chars).map value

/-! ## Tokens -/

/-- The grammar of tokens: the text is the token as a whole. -/
inductive Token.Written (parse : List Char → Option Float) : List Char → Token → Prop
  | number {chars : List Char} {x : Float} : Numeral.IsLiteral chars → parse chars = some x →
      x.isFinite = true → Written parse chars (.number x)
  | operator (op : Operator) : Written parse [op.symbol] (.operator op)
  | openParen : Written parse ['('] .openParen
  | closeParen : Written parse [')'] .closeParen

section

variable {parse : List Char → Option Float} {chars : List Char}

namespace Token

theorem ofChars?_of_numeral {numeral : Numeral} (h : Numeral.ofChars? chars = some numeral) :
    ofChars? chars = ofNumeral? numeral := by
  simp [ofChars?, h]

theorem ofNumeral?_eq_some_iff {numeral : Numeral} {token : Token} :
    ofNumeral? numeral = some token ↔
      numeral.value.isFinite = true ∧ Token.number numeral.value = token := by
  unfold ofNumeral?
  split <;> simp [*]

theorem ofChars?_of_no_numeral (h : Numeral.ofChars? chars = none) {token : Token} :
    ofChars? chars = some token ↔ ∃ c, chars = [c] ∧ ofSymbol? c = some token := by
  simp only [ofChars?, h]
  split
  · simp
  · rename_i hmany
    simp only [reduceCtorEq, false_iff, not_exists, not_and]
    intro c hc
    exact absurd hc (hmany c)

theorem ofSymbol?_eq_some_iff {c : Char} {token : Token} :
    ofSymbol? c = some token ↔
      (∃ op : Operator, c = op.symbol ∧ token = .operator op) ∨
        c = '(' ∧ token = .openParen ∨ c = ')' ∧ token = .closeParen := by
  constructor
  · intro h
    unfold ofSymbol? at h
    split at h
    · simp_all
    · simp_all
    · obtain ⟨op, hop, rfl⟩ := Option.map_eq_some_iff.mp h
      exact .inl ⟨op, (Operator.ofSymbol?_eq_some_iff.mp hop).symm, rfl⟩
  · rintro (⟨op, rfl, rfl⟩ | ⟨rfl, rfl⟩ | ⟨rfl, rfl⟩)
    · exact ofSymbol?_symbol op
    · rfl
    · rfl

theorem not_isLiteral_of_ofSymbol? {c : Char} {token : Token}
    (h : ofSymbol? c = some token) : ¬ Numeral.IsLiteral [c] := by
  rw [← Numeral.isSome_ofChars?_iff]
  obtain ⟨op, rfl, -⟩ | ⟨rfl, -⟩ | ⟨rfl, -⟩ := ofSymbol?_eq_some_iff.mp h
  · cases op <;> decide
  · decide
  · decide

theorem written_literal_iff (h : Numeral.IsLiteral chars) {token : Token} :
    Written parse chars token ↔
      ∃ x, (parse chars = some x ∧ x.isFinite = true) ∧ Token.number x = token := by
  constructor
  · intro hwritten
    cases hwritten with
    | number _ hvalue hfinite => exact ⟨_, ⟨hvalue, hfinite⟩, rfl⟩
    | operator op => exact absurd h (not_isLiteral_of_ofSymbol? (ofSymbol?_symbol op))
    | openParen => exact absurd h (@not_isLiteral_of_ofSymbol? _ .openParen rfl)
    | closeParen => exact absurd h (@not_isLiteral_of_ofSymbol? _ .closeParen rfl)
  · rintro ⟨x, ⟨hvalue, hfinite⟩, rfl⟩
    exact .number h hvalue hfinite

theorem written_iff_of_not_isLiteral (h : ¬ Numeral.IsLiteral chars) {token : Token} :
    Written parse chars token ↔ ∃ c, chars = [c] ∧ ofSymbol? c = some token := by
  constructor
  · intro hwritten
    cases hwritten with
    | number hliteral => exact absurd hliteral h
    | operator op => exact ⟨_, rfl, ofSymbol?_symbol op⟩
    | openParen => exact ⟨_, rfl, rfl⟩
    | closeParen => exact ⟨_, rfl, rfl⟩
  · rintro ⟨c, rfl, hsymbol⟩
    obtain ⟨op, rfl, rfl⟩ | ⟨rfl, rfl⟩ | ⟨rfl, rfl⟩ := ofSymbol?_eq_some_iff.mp hsymbol
    · exact .operator op
    · exact .openParen
    · exact .closeParen

theorem written_symbol_iff {c : Char} {token other : Token} (h : ofSymbol? c = some other) :
    Written parse [c] token ↔ other = token := by
  simp [written_iff_of_not_isLiteral (not_isLiteral_of_ofSymbol? h), h]

theorem ofChars?_eq_some_iff (hparse : ParsesLiterals parse) {token : Token} :
    ofChars? chars = some token ↔ Written parse chars token := by
  cases hnumeral : Numeral.ofChars? chars with
  | some numeral =>
      have hliteral : Numeral.IsLiteral chars :=
        Numeral.isSome_ofChars?_iff.mp (Option.isSome_of_eq_some hnumeral)
      rw [ofChars?_of_numeral hnumeral, ofNumeral?_eq_some_iff, written_literal_iff hliteral,
        hparse chars numeral hnumeral]
      simp [and_assoc]
  | none =>
      have hliteral : ¬ Numeral.IsLiteral chars := by
        simp [← Numeral.isSome_ofChars?_iff, hnumeral]
      rw [ofChars?_of_no_numeral hnumeral, written_iff_of_not_isLiteral hliteral]

end Token

end

/-! ## Literals with their own values -/

theorem parsesLiterals_parse? : ParsesLiterals Numeral.parse? := by
  intro chars numeral hnumeral
  simp [Numeral.parse?, hnumeral]

namespace Token

variable {chars : List Char}

theorem written_parse?_iff {token : Token} :
    Written Numeral.parse? chars token ↔ ofChars? chars = some token :=
  (ofChars?_eq_some_iff parsesLiterals_parse?).symm

theorem Written.unique {token other : Token} (h : Written Numeral.parse? chars token)
    (hother : Written Numeral.parse? chars other) : token = other := by
  rw [written_parse?_iff] at h hother
  exact Option.some.inj (h.symm.trans hother)

end Token

end Calculator
