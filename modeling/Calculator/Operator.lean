/-!
# Binary operators

The four operators of the language, with the character that writes each, the
rank that orders them, and the arithmetic they perform.  The program computes with
binary64 values; nothing else depends on what an operator makes of its operands.
-/

namespace Calculator

inductive Operator where
  | add
  | sub
  | mul
  | div
  deriving DecidableEq, Repr

namespace Operator

def symbol : Operator → Char
  | add => '+'
  | sub => '-'
  | mul => '*'
  | div => '/'

def ofSymbol? : Char → Option Operator
  | '+' => some add
  | '-' => some sub
  | '*' => some mul
  | '/' => some div
  | _ => none

/-- Binding strength: an operator of higher rank takes its operands first. -/
def rank : Operator → Nat
  | add | sub => 1
  | mul | div => 2

class Arithmetic where
  apply : Operator → Float → Float → Float

/-- Division is total here: `1 / 0` is infinite and `0 / 0` is not a number. -/
instance binary64 : Arithmetic where
  apply
    | add, left, right => left + right
    | sub, left, right => left - right
    | mul, left, right => left * right
    | div, left, right => left / right

def apply [Arithmetic] (op : Operator) (left right : Float) : Float :=
  Arithmetic.apply op left right

/--
Whether `pending`, met earlier, is applied before `incoming` is set aside.
Equal ranks are, so every operator groups to the left.
-/
def reducesBefore (pending incoming : Operator) : Bool :=
  decide (incoming.rank ≤ pending.rank)

@[simp] theorem ofSymbol?_symbol (op : Operator) : ofSymbol? op.symbol = some op := by
  cases op <;> rfl

theorem ofSymbol?_eq_some_iff {c : Char} {op : Operator} :
    ofSymbol? c = some op ↔ op.symbol = c := by
  constructor
  · intro h
    unfold ofSymbol? at h
    split at h <;> simp_all [symbol] <;> subst h <;> rfl
  · rintro rfl
    exact ofSymbol?_symbol op

end Operator

end Calculator
