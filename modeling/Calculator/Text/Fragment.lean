import Calculator.Text.Blank

/-!
# Fragments

A fragment is a maximal run of characters that are not blank.  It is kept with
its column, which is one more than the number of characters before it.
-/

namespace Calculator.Text

structure Fragment where
  chars : List Char
  column : Nat
  deriving DecidableEq, Repr

namespace Fragment

def text (fragment : Fragment) : String := String.ofList fragment.chars

/-- The nonempty pieces of a text cut at single characters, the first piece at `column`. -/
def place (column : Nat) : List (List Char) → List Fragment
  | [] => []
  | [] :: pieces => place (column + 1) pieces
  | piece :: pieces => ⟨piece, column⟩ :: place (column + piece.length + 1) pieces

@[simp] theorem place_nil (column : Nat) : place column [] = [] := rfl

@[simp] theorem place_empty_cons (column : Nat) (pieces : List (List Char)) :
    place column ([] :: pieces) = place (column + 1) pieces := rfl

@[simp] theorem place_cons_cons (column : Nat) (c : Char) (piece : List Char)
    (pieces : List (List Char)) :
    place column ((c :: piece) :: pieces) =
      ⟨c :: piece, column⟩ :: place (column + (piece.length + 1) + 1) pieces := rfl

end Fragment

def fragments (source : List Char) : List Fragment :=
  Fragment.place 1 (source.splitOnP isBlank)

end Calculator.Text
