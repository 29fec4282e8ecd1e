/-!
# Decimals

A decimal is a natural number of digits with a point somewhere inside or at its
end.  Its value is the binary64 number nearest to it, and the same scaling gives
the value of a literal, so a decimal written out and read again is one number.
-/

namespace Calculator

/-- The binary64 value nearest to `digits · 10 ^ exponent`, ties to even. -/
def scale (digits : Nat) : Int → Float
  | .ofNat exponent => Float.ofScientific digits false exponent
  | .negSucc exponent => Float.ofScientific digits true (exponent + 1)

/-- The quotient `digits / 10 ^ places`. -/
structure Decimal where
  digits : Nat
  places : Nat
  deriving DecidableEq, Repr

namespace Decimal

def value (d : Decimal) : Float :=
  scale d.digits (-(d.places : Int))

def stripped (digits : Nat) : Nat → Decimal
  | 0 => ⟨digits, 0⟩
  | places + 1 =>
      if digits % 10 = 0 then stripped (digits / 10) places else ⟨digits, places + 1⟩

def scaled (digits : Nat) : Int → Decimal
  | .ofNat exponent => ⟨digits * Nat.pow 10 exponent, 0⟩
  | .negSucc exponent => stripped digits (exponent + 1)

theorem digits_mul_stripped (digits places : Nat) :
    (stripped digits places).digits * Nat.pow 10 places =
      digits * Nat.pow 10 (stripped digits places).places := by
  induction places generalizing digits with
  | zero => rfl
  | succ places ih =>
      unfold stripped
      split
      · rename_i ends
        have whole : digits = digits / 10 * 10 := by omega
        calc (stripped (digits / 10) places).digits * (Nat.pow 10 places * 10)
            = (stripped (digits / 10) places).digits * Nat.pow 10 places * 10 :=
              (Nat.mul_assoc _ _ _).symm
          _ = digits / 10 * 10 * Nat.pow 10 (stripped (digits / 10) places).places := by
              rw [ih, Nat.mul_right_comm]
          _ = digits * Nat.pow 10 (stripped (digits / 10) places).places := by rw [← whole]
      · rfl

end Decimal

end Calculator
