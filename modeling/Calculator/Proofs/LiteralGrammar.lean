import Mathlib.Computability.RegularExpressions
import Calculator.Numeral

/-!
# The grammar of literals

A literal is a text that matches `-?D+(.D*)?([eE][+-]?D+)?` or `-?.D+([eE][+-]?D+)?` as a
whole, where `D` is an ASCII digit.  A pattern may divide a text at any place.  Reading a
literal never has to choose one: each part ends at the first character that cannot belong to
it, and no other division can match.
-/

namespace Calculator

/-! ## Patterns -/

abbrev Pattern := RegularExpression Char

namespace Pattern

def oneOf (chars : List Char) : Pattern := (chars.map .char).sum

def optional (pattern : Pattern) : Pattern := 1 + pattern

def digit : Pattern := oneOf ['0', '1', '2', '3', '4', '5', '6', '7', '8', '9']

def digits : Pattern := digit.star

def someDigits : Pattern := digit * digits

def signedDigits : Pattern := optional (oneOf ['+', '-']) * someDigits

def exponentPart : Pattern := optional (oneOf ['e', 'E'] * signedDigits)

/-- `D+(.D*)?([eE][+-]?D+)?` -/
def wholeFirst : Pattern := someDigits * (optional (oneOf ['.'] * digits) * exponentPart)

/-- `.D+([eE][+-]?D+)?` -/
def pointFirst : Pattern := oneOf ['.'] * (someDigits * exponentPart)

def wholeLiteral : Pattern := optional (oneOf ['-']) * wholeFirst

def pointLiteral : Pattern := optional (oneOf ['-']) * pointFirst

def Matches (pattern : Pattern) (text : List Char) : Prop := text ∈ pattern.matches'

instance (pattern : Pattern) : DecidablePred pattern.Matches := fun text =>
  decidable_of_iff _ (pattern.rmatch_iff_matches' text)

/-! ## Texts that match -/

variable {pattern first second : Pattern} {text chars : List Char} {c : Char}

theorem matches_oneOf_iff : (oneOf chars).Matches text ↔ ∃ c ∈ chars, text = [c] := by
  induction chars with
  | nil =>
      change text ∈ (0 : Language Char) ↔ _
      simp [Language.notMem_zero]
  | cons c rest ih =>
      change text ∈ ({[c]} : Language Char) + (oneOf rest).matches' ↔ _
      rw [Language.mem_add, List.exists_mem_cons_iff]
      exact or_congr Iff.rfl ih

theorem matches_optional_iff : (optional pattern).Matches text ↔ text = [] ∨ pattern.Matches text :=
  Iff.rfl

theorem matches_mul_iff :
    (first * second).Matches text ↔
      ∃ front, first.Matches front ∧ ∃ rest, second.Matches rest ∧ front ++ rest = text :=
  Language.mem_mul

theorem matches_optional_mul_iff :
    (optional first * second).Matches text ↔
      second.Matches text ∨ (first * second).Matches text := by
  change text ∈ (1 + first.matches') * second.matches' ↔ _
  rw [add_mul, one_mul]
  exact Language.mem_add _ _ _

theorem matches_mul_assoc_iff :
    (first * second * pattern).Matches text ↔ (first * (second * pattern)).Matches text := by
  change text ∈ first.matches' * second.matches' * pattern.matches' ↔ _
  rw [mul_assoc]
  exact Iff.rfl

theorem matches_oneOf_mul_iff :
    (oneOf chars * pattern).Matches text ↔
      ∃ c ∈ chars, ∃ rest, pattern.Matches rest ∧ text = c :: rest := by
  simp only [matches_mul_iff, matches_oneOf_iff]
  constructor
  · rintro ⟨_, ⟨c, hc, rfl⟩, rest, hrest, rfl⟩
    exact ⟨c, hc, rest, hrest, rfl⟩
  · rintro ⟨c, hc, rest, hrest, rfl⟩
    exact ⟨[c], ⟨c, hc, rfl⟩, rest, hrest, rfl⟩

@[simp] theorem matches_oneOf_mul_cons_iff :
    (oneOf chars * pattern).Matches (c :: text) ↔ c ∈ chars ∧ pattern.Matches text := by
  simp [matches_oneOf_mul_iff]

theorem matches_digit_iff : digit.Matches text ↔ ∃ c, c.isDigit = true ∧ text = [c] := by
  have hdigit (c : Char) :
      c ∈ ['0', '1', '2', '3', '4', '5', '6', '7', '8', '9'] ↔ c.isDigit = true := by
    rw [Char.isDigit_iff_toNat]
    simp only [List.mem_cons, List.not_mem_nil, or_false, ← Char.toNat_inj, Char.reduceToNat]
    omega
  simp only [digit, matches_oneOf_iff, hdigit]

theorem matches_digits_iff : digits.Matches text ↔ ∀ c ∈ text, c.isDigit = true := by
  change text ∈ KStar.kstar digit.matches' ↔ _
  rw [Language.mem_kstar]
  constructor
  · rintro ⟨parts, rfl, hparts⟩ c hc
    obtain ⟨part, hpart, hin⟩ := List.mem_flatten.mp hc
    obtain ⟨d, hd, rfl⟩ := matches_digit_iff.mp (hparts part hpart)
    rw [List.mem_singleton.mp hin]
    exact hd
  · intro hall
    refine ⟨text.map fun c => [c], by simp [← List.flatMap_def], ?_⟩
    intro part hpart
    obtain ⟨c, hc, rfl⟩ := List.mem_map.mp hpart
    exact matches_digit_iff.mpr ⟨c, hall c hc, rfl⟩

@[simp] theorem matches_someDigits_iff :
    someDigits.Matches text ↔ text ≠ [] ∧ ∀ c ∈ text, c.isDigit = true := by
  simp only [someDigits, matches_mul_iff, matches_digit_iff, matches_digits_iff]
  constructor
  · rintro ⟨_, ⟨c, hc, rfl⟩, rest, hrest, rfl⟩
    exact ⟨by simp, List.forall_mem_cons.mpr ⟨hc, hrest⟩⟩
  · rintro ⟨hne, hall⟩
    obtain ⟨c, rest, rfl⟩ := List.exists_cons_of_ne_nil hne
    obtain ⟨hc, hrest⟩ := List.forall_mem_cons.mp hall
    exact ⟨[c], ⟨c, hc, rfl⟩, rest, hrest, rfl⟩

@[simp] theorem matches_exponentPart_nil : exponentPart.Matches [] := .inl rfl

@[simp] theorem matches_exponentPart_cons_iff :
    exponentPart.Matches (c :: text) ↔ (c = 'e' ∨ c = 'E') ∧ signedDigits.Matches text := by
  simp [exponentPart, matches_optional_iff]

theorem matches_wholeFirst_iff :
    wholeFirst.Matches text ↔
      ∃ whole rest, someDigits.Matches whole ∧ exponentPart.Matches rest ∧
        (text = whole ++ rest ∨
          ∃ fraction, digits.Matches fraction ∧ text = whole ++ '.' :: (fraction ++ rest)) := by
  rw [wholeFirst, matches_mul_iff]
  simp only [matches_optional_mul_iff, matches_mul_assoc_iff, matches_oneOf_mul_iff,
    List.mem_singleton, exists_eq_left]
  constructor
  · rintro ⟨whole, hwhole, pointed, hpointed, rfl⟩
    obtain hrest | ⟨_, hlater, rfl⟩ := hpointed
    · exact ⟨whole, pointed, hwhole, hrest, .inl rfl⟩
    · rw [matches_mul_iff] at hlater
      obtain ⟨fraction, hfraction, rest, hrest, rfl⟩ := hlater
      exact ⟨whole, rest, hwhole, hrest, .inr ⟨fraction, hfraction, rfl⟩⟩
  · rintro ⟨whole, rest, hwhole, hrest, rfl | ⟨fraction, hfraction, rfl⟩⟩
    · exact ⟨whole, hwhole, rest, .inl hrest, rfl⟩
    · have hlater : (digits * exponentPart).Matches (fraction ++ rest) :=
        matches_mul_iff.mpr ⟨fraction, hfraction, rest, hrest, rfl⟩
      exact ⟨whole, hwhole, '.' :: (fraction ++ rest), .inr ⟨_, hlater, rfl⟩, rfl⟩

theorem matches_pointFirst_iff :
    pointFirst.Matches text ↔
      ∃ fraction rest, someDigits.Matches fraction ∧ exponentPart.Matches rest ∧
        text = '.' :: (fraction ++ rest) := by
  simp only [pointFirst, matches_oneOf_mul_iff, List.mem_singleton, exists_eq_left]
  constructor
  · rintro ⟨_, hlater, rfl⟩
    rw [matches_mul_iff] at hlater
    obtain ⟨fraction, hfraction, rest, hrest, rfl⟩ := hlater
    exact ⟨fraction, rest, hfraction, hrest, rfl⟩
  · rintro ⟨fraction, rest, hfraction, hrest, rfl⟩
    exact ⟨_, matches_mul_iff.mpr ⟨fraction, hfraction, rest, hrest, rfl⟩, rfl⟩

/-! ## First characters -/

theorem head_of_matches_exponentPart (h : exponentPart.Matches text) (hc : c ∈ text.head?) :
    c.isDigit = false ∧ c ≠ '.' := by
  cases text with
  | nil => simp at hc
  | cons first rest =>
      obtain rfl : first = c := by simpa using hc
      obtain rfl | rfl := (matches_exponentPart_cons_iff.mp h).1
      · decide
      · decide

theorem head_of_matches_first (h : wholeFirst.Matches text ∨ pointFirst.Matches text) :
    ∃ c rest, text = c :: rest ∧ (c.isDigit = true ∨ c = '.') := by
  obtain h | h := h
  · obtain ⟨whole, rest, hwhole, -, htext⟩ := matches_wholeFirst_iff.mp h
    obtain ⟨hne, hdigits⟩ := matches_someDigits_iff.mp hwhole
    obtain ⟨c, others, rfl⟩ := List.exists_cons_of_ne_nil hne
    have hc : c.isDigit = true := hdigits c List.mem_cons_self
    obtain rfl | ⟨fraction, -, rfl⟩ := htext
    · exact ⟨c, others ++ rest, rfl, .inl hc⟩
    · exact ⟨c, others ++ '.' :: (fraction ++ rest), rfl, .inl hc⟩
  · obtain ⟨fraction, rest, -, -, rfl⟩ := matches_pointFirst_iff.mp h
    exact ⟨'.', fraction ++ rest, rfl, .inr rfl⟩

end Pattern

namespace Numeral

open Pattern

/-! ## Exponents -/

theorem isSome_unsigned?_iff {digits : List Char} :
    (unsigned? digits).isSome = true ↔ someDigits.Matches digits := by
  simp [unsigned?]

theorem isSome_signed?_iff {chars : List Char} :
    (signed? chars).isSome = true ↔ signedDigits.Matches chars := by
  rw [signedDigits, matches_optional_mul_iff]
  unfold signed?
  split
  · rename_i digits
    have hsome : ((unsigned? digits).map fun magnitude => -(magnitude : Int)).isSome =
        (unsigned? digits).isSome := by
      cases unsigned? digits <;> rfl
    rw [hsome, isSome_unsigned?_iff]
    simp
  · rw [Option.isSome_map, isSome_unsigned?_iff]
    simp
  · rename_i hminus hplus
    have hunsigned : ¬ (oneOf ['+', '-'] * someDigits).Matches chars := by
      rw [matches_oneOf_mul_iff]
      rintro ⟨c, hc, rest, -, rfl⟩
      obtain rfl | rfl : c = '+' ∨ c = '-' := by simpa using hc
      · exact hplus rest rfl
      · exact hminus rest rfl
    rw [Option.isSome_map, isSome_unsigned?_iff, or_iff_left hunsigned]

theorem isSome_exponent?_iff {chars : List Char} :
    (exponent? chars).isSome = true ↔ exponentPart.Matches chars := by
  cases chars with
  | nil => simp [exponent?]
  | cons c rest =>
      by_cases hc : c = 'e' ∨ c = 'E'
      · simp [exponent?, hc, isSome_signed?_iff]
      · simp [exponent?, hc]

/-! ## Digits and point -/

/-- Digits end where `rest` starts. -/
def Stops (rest : List Char) : Prop := ∀ c ∈ rest.head?, c.isDigit = false

theorem takeWhile_digits {digits rest : List Char} (hdigits : ∀ c ∈ digits, c.isDigit = true)
    (hrest : Stops rest) : (digits ++ rest).takeWhile Char.isDigit = digits := by
  rw [List.takeWhile_append_of_pos hdigits]
  cases rest with
  | nil => simp
  | cons c rest => simp [hrest c rfl]

theorem dropWhile_digits {digits rest : List Char} (hdigits : ∀ c ∈ digits, c.isDigit = true)
    (hrest : Stops rest) : (digits ++ rest).dropWhile Char.isDigit = rest := by
  rw [List.dropWhile_append_of_pos hdigits]
  cases rest with
  | nil => simp
  | cons c rest => simp [hrest c rfl]

theorem exists_digits (chars : List Char) :
    ∃ digits rest, chars = digits ++ rest ∧ (∀ c ∈ digits, c.isDigit = true) ∧ Stops rest := by
  refine ⟨chars.takeWhile Char.isDigit, chars.dropWhile Char.isDigit, by simp, ?_, ?_⟩
  · exact List.all_eq_true.mp List.all_takeWhile
  · intro c hc
    simpa [Option.mem_def.mp hc] using List.head?_dropWhile_not Char.isDigit chars

section

variable {negative : Bool} {whole fraction rest : List Char}

theorem ofUnsigned?_append (hwhole : ∀ c ∈ whole, c.isDigit = true) (hrest : Stops rest)
    (hpoint : '.' ∉ rest.head?) :
    ofUnsigned? negative (whole ++ rest) =
      if whole = [] then none
      else (exponent? rest).map fun exponent => ⟨negative, whole, [], exponent⟩ := by
  simp only [ofUnsigned?, takeWhile_digits hwhole hrest, dropWhile_digits hwhole hrest]
  split
  · exact absurd rfl hpoint
  · simp

theorem ofUnsigned?_append_point (hwhole : ∀ c ∈ whole, c.isDigit = true)
    (hfraction : ∀ c ∈ fraction, c.isDigit = true) (hrest : Stops rest) :
    ofUnsigned? negative (whole ++ '.' :: (fraction ++ rest)) =
      if whole = [] ∧ fraction = [] then none
      else (exponent? rest).map fun exponent => ⟨negative, whole, fraction, exponent⟩ := by
  have hpoint : Stops ('.' :: (fraction ++ rest)) := by
    simp [Stops]
  simp only [ofUnsigned?, takeWhile_digits hwhole hpoint, dropWhile_digits hwhole hpoint,
    takeWhile_digits hfraction hrest, dropWhile_digits hfraction hrest]

theorem isSome_ofUnsigned?_append_iff (hwhole : ∀ c ∈ whole, c.isDigit = true)
    (hrest : Stops rest) (hpoint : '.' ∉ rest.head?) :
    (ofUnsigned? negative (whole ++ rest)).isSome = true ↔
      whole ≠ [] ∧ exponentPart.Matches rest := by
  rw [ofUnsigned?_append hwhole hrest hpoint, ← isSome_exponent?_iff]
  split <;> simp [*]

theorem isSome_ofUnsigned?_append_point_iff (hwhole : ∀ c ∈ whole, c.isDigit = true)
    (hfraction : ∀ c ∈ fraction, c.isDigit = true) (hrest : Stops rest) :
    (ofUnsigned? negative (whole ++ '.' :: (fraction ++ rest))).isSome = true ↔
      ¬ (whole = [] ∧ fraction = []) ∧ exponentPart.Matches rest := by
  rw [ofUnsigned?_append_point hwhole hfraction hrest, ← isSome_exponent?_iff]
  split <;> simp [*]

theorem matches_first_of_isSome {chars : List Char}
    (h : (ofUnsigned? negative chars).isSome = true) :
    wholeFirst.Matches chars ∨ pointFirst.Matches chars := by
  obtain ⟨whole, pointed, rfl, hwhole, hpointed⟩ := exists_digits chars
  by_cases hpoint : '.' ∈ pointed.head?
  · obtain ⟨later, rfl⟩ := List.head?_eq_some_iff.mp hpoint
    obtain ⟨fraction, rest, rfl, hfraction, hrest⟩ := exists_digits later
    obtain ⟨hdigits, hexponent⟩ := (isSome_ofUnsigned?_append_point_iff hwhole hfraction hrest).mp h
    by_cases hnone : whole = []
    · subst hnone
      have hsome : someDigits.Matches fraction :=
        matches_someDigits_iff.mpr ⟨fun hnil => hdigits ⟨rfl, hnil⟩, hfraction⟩
      exact .inr (matches_pointFirst_iff.mpr ⟨fraction, rest, hsome, hexponent, rfl⟩)
    · have hsome : someDigits.Matches whole := matches_someDigits_iff.mpr ⟨hnone, hwhole⟩
      have hpart : digits.Matches fraction := matches_digits_iff.mpr hfraction
      exact .inl (matches_wholeFirst_iff.mpr
        ⟨whole, rest, hsome, hexponent, .inr ⟨fraction, hpart, rfl⟩⟩)
  · obtain ⟨hne, hexponent⟩ := (isSome_ofUnsigned?_append_iff hwhole hpointed hpoint).mp h
    have hsome : someDigits.Matches whole := matches_someDigits_iff.mpr ⟨hne, hwhole⟩
    exact .inl (matches_wholeFirst_iff.mpr ⟨whole, pointed, hsome, hexponent, .inl rfl⟩)

theorem isSome_of_matches_wholeFirst {chars : List Char} (h : wholeFirst.Matches chars) :
    (ofUnsigned? negative chars).isSome = true := by
  obtain ⟨whole, rest, hsome, hexponent, htext⟩ := matches_wholeFirst_iff.mp h
  obtain ⟨hne, hwhole⟩ := matches_someDigits_iff.mp hsome
  have hrest : Stops rest := fun c hc => (head_of_matches_exponentPart hexponent hc).1
  obtain rfl | ⟨fraction, hfraction, rfl⟩ := htext
  · have hpoint : '.' ∉ rest.head? := fun hc => (head_of_matches_exponentPart hexponent hc).2 rfl
    exact (isSome_ofUnsigned?_append_iff hwhole hrest hpoint).mpr ⟨hne, hexponent⟩
  · rw [matches_digits_iff] at hfraction
    exact (isSome_ofUnsigned?_append_point_iff hwhole hfraction hrest).mpr
      ⟨fun hnone => hne hnone.1, hexponent⟩

theorem isSome_of_matches_pointFirst {chars : List Char} (h : pointFirst.Matches chars) :
    (ofUnsigned? negative chars).isSome = true := by
  obtain ⟨fraction, rest, hsome, hexponent, rfl⟩ := matches_pointFirst_iff.mp h
  obtain ⟨hne, hfraction⟩ := matches_someDigits_iff.mp hsome
  have hwhole : ∀ c ∈ ([] : List Char), c.isDigit = true := by simp
  have hrest : Stops rest := fun c hc => (head_of_matches_exponentPart hexponent hc).1
  exact (isSome_ofUnsigned?_append_point_iff hwhole hfraction hrest).mpr
    ⟨fun hnone => hne hnone.2, hexponent⟩

theorem isSome_ofUnsigned?_iff {chars : List Char} :
    (ofUnsigned? negative chars).isSome = true ↔
      wholeFirst.Matches chars ∨ pointFirst.Matches chars :=
  ⟨matches_first_of_isSome, (·.elim isSome_of_matches_wholeFirst isSome_of_matches_pointFirst)⟩

end

/-! ## Literals -/

def IsLiteral (chars : List Char) : Prop :=
  wholeLiteral.Matches chars ∨ pointLiteral.Matches chars

theorem isSome_ofChars?_iff {chars : List Char} :
    (ofChars? chars).isSome = true ↔ IsLiteral chars := by
  have hsign : IsLiteral chars ↔ (wholeFirst.Matches chars ∨ pointFirst.Matches chars) ∨
      ∃ rest, chars = '-' :: rest ∧ (wholeFirst.Matches rest ∨ pointFirst.Matches rest) := by
    simp only [IsLiteral, wholeLiteral, pointLiteral, matches_optional_mul_iff,
      matches_oneOf_mul_iff, List.mem_singleton, exists_eq_left]
    grind
  rw [hsign]
  unfold ofChars?
  split
  · rename_i rest
    have hhead : ¬ (wholeFirst.Matches ('-' :: rest) ∨ pointFirst.Matches ('-' :: rest)) := by
      intro h
      obtain ⟨c, others, heq, hc⟩ := head_of_matches_first h
      obtain ⟨rfl, -⟩ := List.cons.inj heq
      simp at hc
    rw [isSome_ofUnsigned?_iff, or_iff_right hhead]
    simp
  · rename_i hminus
    have hunsigned : ¬ ∃ rest, chars = '-' :: rest ∧
        (wholeFirst.Matches rest ∨ pointFirst.Matches rest) := by
      rintro ⟨rest, rfl, -⟩
      exact hminus rest rfl
    rw [isSome_ofUnsigned?_iff, or_iff_left hunsigned]

end Numeral

end Calculator
