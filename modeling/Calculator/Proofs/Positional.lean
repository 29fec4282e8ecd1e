import Calculator.Token
import Calculator.Proofs.LiteralGrammar
import Calculator.Proofs.Messages
import Calculator.Proofs.ReadBack

/-!
# Positional texts

The positional text of a decimal is a literal without an exponent, and its value is the value
of the decimal.  So the text of a finite number is a literal of that number: a sign in front
stands for the sign bit, and what follows is the text of the magnitude.
-/

namespace Calculator

namespace Decimal

/-! ## The literal of a decimal -/

def wholeDigits (d : Decimal) : List Char := Nat.toDigits 10 (d.digits / Nat.pow 10 d.places)

def numeral (negative : Bool) (d : Decimal) : Numeral :=
  ⟨negative, d.wholeDigits, if d.places = 0 then [] else d.fractionDigits, 0⟩

theorem isDigit_of_mem_fractionDigits {d : Decimal} {c : Char} (h : c ∈ d.fractionDigits) :
    c.isDigit = true := by
  rcases List.mem_append.mp h with hzero | hdigit
  · rw [List.eq_of_mem_replicate hzero]
    rfl
  · exact isDigit_of_mem_digits hdigit

theorem length_fractionDigits {d : Decimal} (h : 0 < d.places) :
    d.fractionDigits.length = d.places := by
  have hlt : d.digits % Nat.pow 10 d.places < Nat.pow 10 d.places :=
    Nat.mod_lt _ (Nat.pow_pos (by decide))
  have hlength := (Nat.length_toDigits_le_iff (by decide) h).mpr hlt
  unfold fractionDigits
  dsimp only
  rw [List.length_append, List.length_replicate]
  omega

theorem ofDigitChars_fractionDigits (d : Decimal) :
    Nat.ofDigitChars 10 d.fractionDigits 0 = d.digits % Nat.pow 10 d.places := by
  unfold fractionDigits
  dsimp only
  rw [Nat.ofDigitChars_append, Nat.ofDigitChars_replicate_zero, Nat.mul_zero,
    Nat.ofDigitChars_ten_toDigits]

theorem ofDigitChars_numeral (negative : Bool) (d : Decimal) :
    Nat.ofDigitChars 10 ((d.numeral negative).whole ++ (d.numeral negative).fraction) 0 =
      d.digits := by
  unfold numeral wholeDigits
  dsimp only
  rw [Nat.ofDigitChars_append, Nat.ofDigitChars_ten_toDigits]
  split
  · rename_i hplaces
    rw [hplaces]
    exact Nat.div_one d.digits
  · rename_i hplaces
    rw [Nat.ofDigitChars_eq_ofDigitChars_zero, ofDigitChars_fractionDigits,
      length_fractionDigits (Nat.pos_of_ne_zero hplaces)]
    exact Nat.div_add_mod d.digits (Nat.pow 10 d.places)

theorem length_fraction_numeral (negative : Bool) (d : Decimal) :
    (d.numeral negative).fraction.length = d.places := by
  unfold numeral
  dsimp only
  split
  · rename_i hplaces
    rw [hplaces]
    rfl
  · rename_i hplaces
    exact length_fractionDigits (Nat.pos_of_ne_zero hplaces)

theorem magnitude_numeral (negative : Bool) (d : Decimal) :
    (d.numeral negative).magnitude = d.value := by
  unfold Numeral.magnitude value
  rw [ofDigitChars_numeral, length_fraction_numeral]
  exact congrArg (scale d.digits) (Int.zero_sub _)

/-! ## Reading the text of a decimal -/

theorem ofUnsigned?_positional (negative : Bool) (d : Decimal) :
    Numeral.ofUnsigned? negative d.positional = some (d.numeral negative) := by
  have hwhole : ∀ c ∈ d.wholeDigits, c.isDigit = true := fun _ => isDigit_of_mem_digits
  have hfraction : ∀ c ∈ d.fractionDigits, c.isDigit = true :=
    fun _ => isDigit_of_mem_fractionDigits
  have hne : d.wholeDigits ≠ [] := Nat.toDigits_ne_nil
  have hend : Numeral.Stops [] := by simp [Numeral.Stops]
  change Numeral.ofUnsigned? negative
    (d.wholeDigits ++ if d.places = 0 then [] else '.' :: d.fractionDigits) = _
  by_cases hplaces : d.places = 0
  · rw [if_pos hplaces, Numeral.ofUnsigned?_append hwhole hend (by simp), if_neg hne]
    simp [numeral, hplaces, Numeral.exponent?]
  · rw [if_neg hplaces, ← List.append_nil d.fractionDigits,
      Numeral.ofUnsigned?_append_point hwhole hfraction hend, if_neg fun hnone => hne hnone.1]
    simp [numeral, hplaces, Numeral.exponent?]

theorem exists_positional_eq_cons (d : Decimal) :
    ∃ c rest, d.positional = c :: rest ∧ c.isDigit = true := by
  have hne : d.wholeDigits ≠ [] := Nat.toDigits_ne_nil
  obtain ⟨c, digits, hdigits⟩ := List.exists_cons_of_ne_nil hne
  have hdigit : c.isDigit = true := isDigit_of_mem_digits (hdigits ▸ List.mem_cons_self)
  refine ⟨c, digits ++ if d.places = 0 then [] else '.' :: d.fractionDigits, ?_, hdigit⟩
  rw [← List.cons_append, ← hdigits]
  rfl

theorem ofChars?_positional (d : Decimal) :
    Numeral.ofChars? d.positional = some (d.numeral false) := by
  obtain ⟨c, rest, htext, hdigit⟩ := d.exists_positional_eq_cons
  rw [← ofUnsigned?_positional, htext]
  unfold Numeral.ofChars?
  split
  · rename_i hminus
    obtain ⟨rfl, -⟩ := List.cons.inj hminus
    exact absurd hdigit (by decide)
  · rfl

theorem isDigit_or_point_of_mem_positional {d : Decimal} {c : Char} (h : c ∈ d.positional) :
    c.isDigit = true ∨ c = '.' := by
  unfold positional at h
  rcases List.mem_append.mp h with hwhole | hrest
  · exact .inl (isDigit_of_mem_digits hwhole)
  · split at hrest
    · exact absurd hrest List.not_mem_nil
    · rcases List.mem_cons.mp hrest with hpoint | hfraction
      · exact .inr hpoint
      · exact .inl (isDigit_of_mem_fractionDigits hfraction)

end Decimal

/-! ## The text of a finite number -/

namespace Layout

theorem magnitude_plain {x : Float} (hx : x.isFinite = true) :
    plain.magnitude x = (Decimal.ofFloat x).positional := by
  obtain ⟨-, hinf⟩ := Binary64.isNaN_isInf_of_isFinite hx
  unfold magnitude
  rw [hinf, if_neg Bool.false_ne_true]
  exact List.append_nil _

theorem chars_plain {x : Float} (hx : x.isFinite = true) :
    plain.chars x =
      if 2 ^ 63 ≤ x.toBits.toNat then '-' :: (Decimal.ofFloat x.abs).positional
      else (Decimal.ofFloat x).positional := by
  obtain ⟨hnan, -⟩ := Binary64.isNaN_isInf_of_isFinite hx
  rw [chars, hnan, if_neg Bool.false_ne_true, magnitude_plain hx,
    magnitude_plain (Binary64.abs_finite hx).1]
  rfl

end Layout

theorem Numeral.ofChars?_chars {x : Float} (hx : x.isFinite = true) :
    ∃ numeral, Numeral.ofChars? (Layout.plain.chars x) = some numeral ∧ numeral.value = x := by
  rw [Layout.chars_plain hx]
  split
  · rename_i hsign
    obtain ⟨hfinite, hunsigned⟩ := Binary64.abs_finite hx
    refine ⟨(Decimal.ofFloat x.abs).numeral true, Decimal.ofUnsigned?_positional true _, ?_⟩
    change -((Decimal.ofFloat x.abs).numeral true).magnitude = x
    rw [Decimal.magnitude_numeral, Decimal.value_ofFloat hfinite hunsigned]
    exact Binary64.neg_abs hx hsign
  · rename_i hsign
    refine ⟨(Decimal.ofFloat x).numeral false, Decimal.ofChars?_positional _, ?_⟩
    change ((Decimal.ofFloat x).numeral false).magnitude = x
    rw [Decimal.magnitude_numeral, Decimal.value_ofFloat hx (Nat.lt_of_not_le hsign)]

end Calculator
