import Calculator.Decimal.Basic

/-!
# Number literals

A literal is an optional minus sign, digits with an optional point, and an
optional exponent: `-?D+(.D*)?([eE][+-]?D+)?` or `-?.D+([eE][+-]?D+)?` for ASCII
digits `D`.  The whole text has to be the literal; nothing may be left over.
-/

namespace Calculator

structure Numeral where
  negative : Bool
  whole : List Char
  fraction : List Char
  exponent : Int
  deriving DecidableEq, Repr

namespace Numeral

/-! ## Exponents -/

/-- From here on, further digits no longer raise an exponent. -/
def exponentCeiling : Nat := Nat.pow 2 16

def exponentMagnitude (digits : List Char) : Nat :=
  digits.foldl
    (fun exponent c =>
      if exponent < exponentCeiling then 10 * exponent + (c.toNat - '0'.toNat) else exponent)
    0

def unsigned? (digits : List Char) : Option Nat :=
  if digits ≠ [] ∧ digits.all Char.isDigit then some (exponentMagnitude digits) else none

def signed? : List Char → Option Int
  | '-' :: digits => (unsigned? digits).map fun magnitude => -(magnitude : Int)
  | '+' :: digits => (unsigned? digits).map Int.ofNat
  | digits => (unsigned? digits).map Int.ofNat

def exponent? : List Char → Option Int
  | [] => some 0
  | c :: rest => if c = 'e' ∨ c = 'E' then signed? rest else none

/-! ## Literals -/

def ofUnsigned? (negative : Bool) (chars : List Char) : Option Numeral :=
  let whole := chars.takeWhile Char.isDigit
  let pointed := chars.dropWhile Char.isDigit
  let (fraction, rest) :=
    match pointed with
    | '.' :: tail => (tail.takeWhile Char.isDigit, tail.dropWhile Char.isDigit)
    | _ => ([], pointed)
  if whole = [] ∧ fraction = [] then none
  else (exponent? rest).map fun exponent => ⟨negative, whole, fraction, exponent⟩

def ofChars? : List Char → Option Numeral
  | '-' :: chars => ofUnsigned? true chars
  | chars => ofUnsigned? false chars

def magnitude (n : Numeral) : Float :=
  scale (Nat.ofDigitChars 10 (n.whole ++ n.fraction) 0) (n.exponent - n.fraction.length)

/-- The nearest binary64 value, infinite for a literal out of range. -/
def value (n : Numeral) : Float :=
  if n.negative then -n.magnitude else n.magnitude

end Numeral

end Calculator
