import Calculator.Error

/-!
# Texts of malformed expressions

The errors that are described in words can be told apart by their texts, and the
numbers in a text can be read back: no digit follows them directly.
-/

namespace Calculator

/-! ## Numbers in a text -/

theorem toList_toString (n : Nat) : (toString n).toList = Nat.toDigits 10 n := by
  simp

theorem isDigit_of_mem_digits {n : Nat} {c : Char} (h : c ∈ Nat.toDigits 10 n) :
    c.isDigit = true :=
  Nat.isDigit_of_mem_toDigits (by decide) (by decide) h

theorem digits_append_inj {m n : Nat} {c c' : Char} {rest rest' : List Char}
    (hc : c.isDigit = false) (hc' : c'.isDigit = false)
    (h : Nat.toDigits 10 m ++ c :: rest = Nat.toDigits 10 n ++ c' :: rest') :
    m = n ∧ c :: rest = c' :: rest' := by
  have htake := congrArg (List.takeWhile Char.isDigit) h
  rw [List.takeWhile_append_of_pos fun _ => isDigit_of_mem_digits,
    List.takeWhile_append_of_pos fun _ => isDigit_of_mem_digits,
    List.takeWhile_cons_of_neg (by simp [hc]), List.takeWhile_cons_of_neg (by simp [hc']),
    List.append_nil, List.append_nil] at htake
  have hsame : m = n := calc
    m = Nat.ofDigitChars 10 (Nat.toDigits 10 m) 0 := Nat.ofDigitChars_ten_toDigits.symm
    _ = Nat.ofDigitChars 10 (Nat.toDigits 10 n) 0 := by rw [htake]
    _ = n := Nat.ofDigitChars_ten_toDigits
  subst hsame
  exact ⟨rfl, List.append_cancel_left h⟩

namespace EvalError

/-! ## Details -/

def details : EvalError → List Char
  | malformedExpression details => details.toList
  | _ => []

theorem details_tooShort (expression : String) :
    (tooShort expression).details =
      '\'' :: (expression.toList ++ "' is shorter than the smallest valid expression".toList) := by
  simp only [tooShort, details, String.toList_append]
  rfl

theorem details_unjoined (count : Nat) :
    (unjoined count).details =
      Nat.toDigits 10 count ++ ' ' :: "values are not joined by an operator".toList := by
  simp only [unjoined, details, String.toList_append, toList_toString]
  rfl

theorem details_unjoinedGroup (opened count : Nat) :
    (unjoinedGroup opened count).details =
      "group opened at column ".toList ++ (Nat.toDigits 10 opened ++ ' ' :: ("holds ".toList ++
        (Nat.toDigits 10 count ++ ' ' :: "values without an operator".toList))) := by
  simp only [unjoinedGroup, details, String.toList_append, toList_toString, List.append_assoc]
  rfl

theorem unjoined_inj {count count' : Nat} (h : unjoined count = unjoined count') :
    count = count' := by
  have hdetails := congrArg details h
  rw [details_unjoined, details_unjoined] at hdetails
  exact (digits_append_inj rfl rfl hdetails).1

theorem unjoinedGroup_inj {opened opened' count count' : Nat}
    (h : unjoinedGroup opened count = unjoinedGroup opened' count') :
    opened = opened' ∧ count = count' := by
  have hdetails := congrArg details h
  rw [details_unjoinedGroup, details_unjoinedGroup] at hdetails
  obtain ⟨hopened, hrest⟩ := digits_append_inj rfl rfl (List.append_cancel_left hdetails)
  have hcounts := List.append_cancel_left (List.cons.inj hrest).2
  exact ⟨hopened, (digits_append_inj rfl rfl hcounts).1⟩

/-! ## First characters -/

def initial? (error : EvalError) : Option Char := error.details.head?

@[simp] theorem initial?_tooShort (expression : String) :
    (tooShort expression).initial? = some '\'' := by
  rw [initial?, details_tooShort]
  rfl

@[simp] theorem initial?_nothingToReduce : nothingToReduce.initial? = some 'n' := rfl

@[simp] theorem initial?_noValue : noValue.initial? = some 'n' := rfl

@[simp] theorem initial?_unjoinedGroup (opened count : Nat) :
    (unjoinedGroup opened count).initial? = some 'g' := by
  rw [initial?, details_unjoinedGroup]
  rfl

theorem isDigit_of_initial?_unjoined {count : Nat} {c : Char}
    (h : (unjoined count).initial? = some c) : c.isDigit = true := by
  rw [initial?, details_unjoined] at h
  cases hdigits : Nat.toDigits 10 count with
  | nil => exact absurd hdigits Nat.toDigits_ne_nil
  | cons first rest =>
      rw [hdigits] at h
      obtain rfl := Option.some.inj h
      exact isDigit_of_mem_digits (hdigits ▸ List.mem_cons_self)

theorem ne_unjoined_of_initial? {error : EvalError} {c : Char} (h : error.initial? = some c)
    (hc : c.isDigit = false) (count : Nat) : error ≠ unjoined count := by
  rintro rfl
  rw [isDigit_of_initial?_unjoined h] at hc
  contradiction

theorem ne_unjoinedGroup_of_initial? {error : EvalError} {c : Char} (h : error.initial? = some c)
    (hc : c ≠ 'g') (opened count : Nat) : error ≠ unjoinedGroup opened count := by
  rintro rfl
  rw [initial?_unjoinedGroup] at h
  exact hc (Option.some.inj h).symm

end EvalError

end Calculator
