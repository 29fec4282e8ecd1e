import Calculator.Decimal.Basic

/-!
# The fewest digits that read back

Among the decimals whose value is a given number, the one with the fewest
significant digits is chosen; of two with equally few, the nearer to the exact
binary value, and the upper one when both are equally near.  The exact value is a
quotient of natural numbers, so the search is exact: on the grid of `n`
significant digits only the two neighbours of the value can be chosen.
-/

namespace Calculator

/-- The exact value of a finite magnitude, `mantissa · 2 ^ (exponent - 1075)`. -/
structure Magnitude where
  mantissa : Nat
  exponent : Nat
  deriving DecidableEq, Repr

namespace Magnitude

def ofFloat (x : Float) : Magnitude :=
  let bits := x.toBits.toNat
  let field := bits / Nat.pow 2 52 % Nat.pow 2 11
  let fraction := bits % Nat.pow 2 52
  if field = 0 then ⟨fraction, 1⟩ else ⟨Nat.pow 2 52 + fraction, field⟩

def numerator (x : Magnitude) : Nat := x.mantissa * Nat.pow 2 (x.exponent - 1075)

def denominator (x : Magnitude) : Nat := Nat.pow 2 (1075 - x.exponent)

/-- The least `k` for which a nonzero value is below `10 ^ k`. -/
def order (x : Magnitude) : Int :=
  if x.denominator ≤ x.numerator then
    (Nat.toDigits 10 (x.numerator / x.denominator)).length
  else
    1 - (Nat.toDigits 10 ((x.denominator - 1) / x.numerator)).length

def expansion (x : Magnitude) : Decimal :=
  .stripped (x.numerator * Nat.pow 5 (1075 - x.exponent)) (1075 - x.exponent)

end Magnitude

namespace Decimal

/--
The multiple of `10 ^ grid` nearest to `x` among those next to it that read back
as `x`.  An exact tie goes up.
-/
def nearestOn? (x : Float) (grid : Int) : Option Decimal :=
  let exact := Magnitude.ofFloat x
  let numerator := exact.numerator * Nat.pow 10 (-grid).toNat
  let denominator := exact.denominator * Nat.pow 10 grid.toNat
  let lower := scaled (numerator / denominator) grid
  let upper := scaled (numerator / denominator + 1) grid
  if lower.value = x ∧ (upper.value ≠ x ∨ 2 * (numerator % denominator) < denominator) then
    some lower
  else if upper.value = x then
    some upper
  else
    none

/-- Seventeen significant digits tell any two binary64 values apart. -/
def mostDigits : Nat := 17

def ofFloat (x : Float) : Decimal :=
  let exact := Magnitude.ofFloat x
  if exact.mantissa = 0 then ⟨0, 0⟩
  else
    ((List.range mostDigits).findSome? fun n => nearestOn? x (exact.order - (n + 1 : Nat))).getD
      exact.expansion

theorem value_of_nearestOn? {x : Float} {grid : Int} {d : Decimal}
    (h : nearestOn? x grid = some d) : d.value = x := by
  simp only [nearestOn?] at h
  split at h
  · rename_i hit
    exact Option.some.inj h ▸ hit.1
  · split at h
    · rename_i hit
      exact Option.some.inj h ▸ hit
    · contradiction

end Decimal

end Calculator
