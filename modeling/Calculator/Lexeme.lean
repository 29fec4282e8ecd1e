import Calculator.Text.Fragment
import Calculator.Traced

/-!
# Lexemes

The tokens of a text with their columns.  Every fragment has to be a token as a
whole; the first one that is not refuses the text.
-/

namespace Calculator

structure Lexeme where
  token : Token
  column : Nat
  deriving DecidableEq, Repr

namespace Lexeme

def ofFragment (fragment : Text.Fragment) : Traced Lexeme :=
  match Token.ofChars? fragment.chars with
  | some token => ⟨[.tokenRead token fragment.column], .ok ⟨token, fragment.column⟩⟩
  | none => ⟨[], .error (.malformedToken fragment.text fragment.column)⟩

def ofFragments : List Text.Fragment → Traced (List Lexeme)
  | [] => pure []
  | fragment :: rest => do
      let lexeme ← ofFragment fragment
      (lexeme :: ·) <$> ofFragments rest

end Lexeme

def tokenize (source : String) : Traced (List Lexeme) :=
  Lexeme.ofFragments (Text.fragments source.toList)

end Calculator
