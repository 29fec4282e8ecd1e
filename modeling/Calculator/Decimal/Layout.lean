import Calculator.Decimal.Shortest

/-!
# Layout of numbers

The digits of a number are fixed by `Decimal.ofFloat`; a layout says how they are
set out.  Answers and tokens are written plainly, without an exponent however
large or small they are.  The log keeps a point in whole numbers and writes very
large and very small magnitudes with an exponent.
-/

namespace Calculator

namespace Decimal

def fractionDigits (d : Decimal) : List Char :=
  let digits := Nat.toDigits 10 (d.digits % Nat.pow 10 d.places)
  List.replicate (d.places - digits.length) '0' ++ digits

def positional (d : Decimal) : List Char :=
  Nat.toDigits 10 (d.digits / Nat.pow 10 d.places) ++
    if d.places = 0 then [] else '.' :: d.fractionDigits

def scientific (d : Decimal) : List Char :=
  let digits := Nat.toDigits 10 d.digits
  let exponent : Int := digits.length - 1 - d.places
  let significant := (digits.reverse.dropWhile (· = '0')).reverse
  let rest := significant.drop 1
  significant.take 1 ++ (if rest = [] then [] else '.' :: rest) ++
    'e' :: (toString exponent).toList

end Decimal

structure Layout where
  keepsPoint : Bool
  takesExponent : Float → Bool

namespace Layout

def plain : Layout where
  keepsPoint := false
  takesExponent _ := false

def logged : Layout where
  keepsPoint := true
  takesExponent x := 1e16 ≤ x || (0 < x && x < 1e-4)

def magnitude (layout : Layout) (x : Float) : List Char :=
  if x.isInf then ['i', 'n', 'f']
  else
    let d := Decimal.ofFloat x
    if layout.takesExponent x then d.scientific
    else d.positional ++ if layout.keepsPoint && d.places = 0 then ['.', '0'] else []

/-- The sign is written for every value whose sign bit is set, zero included. -/
def chars (layout : Layout) (x : Float) : List Char :=
  if x.isNaN then ['N', 'a', 'N']
  else if Nat.pow 2 63 ≤ x.toBits.toNat then '-' :: layout.magnitude x.abs
  else layout.magnitude x

def write (layout : Layout) (x : Float) : String :=
  String.ofList (layout.chars x)

end Layout

end Calculator
