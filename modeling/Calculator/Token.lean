import Calculator.Operator
import Calculator.Numeral
import Calculator.Decimal.Layout

/-!
# Tokens

A token is a number, an operator or a parenthesis.  `Token.ofChars?` recognises
the texts that are tokens as a whole, and `Token.text` writes a token in its
shortest form.  A minus sign glued to digits belongs to the number.
-/

namespace Calculator

inductive Token where
  | number (value : Float)
  | operator (op : Operator)
  | openParen
  | closeParen
  deriving DecidableEq, Repr

namespace Token

def chars : Token → List Char
  | number value => Layout.plain.chars value
  | operator op => [op.symbol]
  | openParen => ['(']
  | closeParen => [')']

def text (token : Token) : String := String.ofList token.chars

def ofSymbol? : Char → Option Token
  | '(' => some openParen
  | ')' => some closeParen
  | c => (Operator.ofSymbol? c).map operator

/-- A literal whose value is out of range is no token. -/
def ofNumeral? (numeral : Numeral) : Option Token :=
  if numeral.value.isFinite then some (number numeral.value) else none

def ofChars? (chars : List Char) : Option Token :=
  match Numeral.ofChars? chars with
  | some numeral => ofNumeral? numeral
  | none =>
      match chars with
      | [c] => ofSymbol? c
      | _ => none

@[simp] theorem ofSymbol?_symbol (op : Operator) : ofSymbol? op.symbol = some (operator op) := by
  cases op <;> rfl

@[simp] theorem ofChars?_operator (op : Operator) :
    ofChars? (operator op).chars = some (operator op) := by
  cases op <;> rfl

@[simp] theorem ofChars?_openParen : ofChars? openParen.chars = some openParen := rfl

@[simp] theorem ofChars?_closeParen : ofChars? closeParen.chars = some closeParen := rfl

end Token

end Calculator
