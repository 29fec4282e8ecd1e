import Calculator.Proofs.Correspondence
import Calculator.Proofs.LengthCheck

/-!
# Spacing

How the fragments of a text are spaced does not matter.  Two texts with the same fragments
are read as the same tokens at other columns, so their evaluations go side by side, with
each column of the one text in the place of that column of the other at which the fragment
with the same number stands.

The check for the length of a text does count the blanks inside.  It can only tell the two
texts apart if they have two fragments, and no two tokens have a value.
-/

namespace Calculator

/-! ## Fragments face to face -/

/-- In both texts the fragment with the same number stands at these columns. -/
def Text.Facing (source other : List Char) (column column' : Nat) : Prop :=
  ∃ (i : Nat) (fragment fragment' : Text.Fragment),
    (Text.fragments source)[i]? = some fragment ∧ (Text.fragments other)[i]? = some fragment' ∧
      fragment.column = column ∧ fragment'.column = column'

def facingColumns (source other : List Char) : Correspondence :=
  ⟨fun value value' => value = value', Text.Facing source other⟩

namespace Correspondence

theorem facingColumns_respected [Operator.Arithmetic] (source other : List Char)
    (division : DivisionPolicy) : (facingColumns source other).Respected division where
  apply op left left' right right' hleft hright := by
    obtain rfl : left = left' := hleft
    obtain rfl : right = right' := hright
    rfl
  refuses op right right' hright := congrArg _ hright

structure Fragments (link : Correspondence) (first second : Text.Fragment) : Prop where
  chars : first.chars = second.chars
  column : link.column first.column second.column

theorem facingColumns_fragments {source other : List Char}
    (h : (Text.fragments source).map (·.chars) = (Text.fragments other).map (·.chars)) :
    List.Forall₂ (facingColumns source other).Fragments (Text.fragments source)
      (Text.fragments other) := by
  have hlength := congrArg List.length h
  rw [List.length_map, List.length_map] at hlength
  refine List.forall₂_of_length_eq_of_get hlength ?_
  intro i hi hi'
  have hchars := congrArg (fun words : List (List Char) => words[i]?) h
  simp only [List.getElem?_map, List.getElem?_eq_getElem hi, List.getElem?_eq_getElem hi',
    Option.map_some] at hchars
  exact ⟨Option.some.inj hchars, i, _, _, List.getElem?_eq_getElem hi,
    List.getElem?_eq_getElem hi', rfl, rfl⟩

/-! ## Tokens face to face -/

theorem tokens_refl {link : Correspondence} (h : ∀ value, link.value value value) (token : Token) :
    link.Tokens token token := by
  cases token with
  | number value => exact .number (h value)
  | operator op => exact .operator op
  | openParen => exact .openParen
  | closeParen => exact .closeParen

inductive Readings (link : Correspondence) :
    Except EvalError (List Lexeme) → Except EvalError (List Lexeme) → Prop
  | ok {lexemes lexemes' : List Lexeme} : List.Forall₂ link.Lexemes lexemes lexemes' →
      Readings link (.ok lexemes) (.ok lexemes')
  | error {error error' : EvalError} : link.Errors error error' →
      Readings link (.error error) (.error error')

theorem readings_ofFragments {link : Correspondence} (hvalue : ∀ value, link.value value value)
    {fragments fragments' : List Text.Fragment}
    (h : List.Forall₂ link.Fragments fragments fragments') :
    link.Readings (Lexeme.ofFragments fragments).result (Lexeme.ofFragments fragments').result := by
  induction h with
  | nil => exact .ok .nil
  | @cons fragment fragment' rest rest' hfragment _ ih =>
      rw [Lexeme.result_ofFragments_cons, Lexeme.result_ofFragments_cons]
      unfold Lexeme.ofFragment? Text.Fragment.text
      rw [hfragment.chars]
      cases Token.ofChars? fragment'.chars with
      | none => exact .error (.malformedToken _ hfragment.column)
      | some token =>
          have hlexeme : link.Lexemes ⟨token, fragment.column⟩ ⟨token, fragment'.column⟩ :=
            ⟨tokens_refl hvalue token, hfragment.column⟩
          dsimp only [Option.map_some]
          generalize (Lexeme.ofFragments rest).result = reading,
            (Lexeme.ofFragments rest').result = reading' at ih
          cases ih with
          | ok hlexemes => exact .ok (.cons hlexeme hlexemes)
          | error herror => exact .error herror

end Correspondence

/-! ## Short texts -/

/-- The evaluation fails, but not because a division is refused. -/
def FailsUndivided (result : Except EvalError Float) : Prop :=
  ∃ error, result = .error error ∧ ∀ column, error ≠ .divisionByZero column

theorem failsUndivided_of_checkLength (division : DivisionPolicy) {source : String}
    (h : checkLength source ≠ .ok ()) : FailsUndivided (evaluate division source).result := by
  rw [result_evaluate]
  unfold checkLength at h ⊢
  dsimp only at h ⊢
  split
  · exact ⟨_, rfl, nofun⟩
  · rename_i hlong
    rw [if_neg hlong] at h
    exact absurd rfl h

theorem checkLength_of_length_fragments_eq_one {source other : String}
    (h : (Text.fragments source.toList).map (·.chars) =
      (Text.fragments other.toList).map (·.chars))
    (hone : (Text.fragments source.toList).length = 1) :
    checkLength source = .ok () ↔ checkLength other = .ok () := by
  obtain ⟨fragment, hsource⟩ := List.length_eq_one_iff.mp hone
  have hlength := congrArg List.length h
  rw [List.length_map, List.length_map, hone] at hlength
  obtain ⟨fragment', hother⟩ := List.length_eq_one_iff.mp hlength.symm
  rw [hsource, hother, List.map_singleton, List.map_singleton] at h
  rw [checkLength_eq_ok_iff, checkLength_eq_ok_iff, trim_eq_of_fragments_eq_singleton hsource,
    trim_eq_of_fragments_eq_singleton hother, List.singleton_inj.mp h]

theorem failsUndivided_of_fragments_eq (division : DivisionPolicy) {source other : String}
    (h : (Text.fragments source.toList).map (·.chars) =
      (Text.fragments other.toList).map (·.chars))
    (hsource : checkLength source ≠ .ok ()) :
    FailsUndivided (evaluate division other).result := by
  by_cases hother : checkLength other = .ok ()
  · have hone : (Text.fragments source.toList).length ≠ 1 := by
      intro hone
      exact hsource ((checkLength_of_length_fragments_eq_one h hone).mpr hother)
    have htwo := length_fragments_le_two hsource
    have hlength := congrArg List.length h
    rw [List.length_map, List.length_map] at hlength
    rw [result_evaluate_of_checkLength hother]
    cases hresult : (readAndRun division other).result with
    | ok v =>
        have hodd := odd_length_fragments_of_ok hresult
        omega
    | error error =>
        refine ⟨error, rfl, ?_⟩
        intro column herror
        subst herror
        have hthree := three_le_length_fragments_of_divisionByZero hresult
        omega
  · exact failsUndivided_of_checkLength division hother

/-! ## Texts with the same fragments -/

theorem FailsUndivided.ne_ok {result : Except EvalError Float} (h : FailsUndivided result)
    (v : Float) : result ≠ .ok v := by
  obtain ⟨error, hresult, -⟩ := h
  rw [hresult]
  nofun

theorem facingColumns_evaluate (division : DivisionPolicy) {source other : String}
    (h : (Text.fragments source.toList).map (·.chars) =
      (Text.fragments other.toList).map (·.chars))
    (hsource : checkLength source = .ok ()) (hother : checkLength other = .ok ()) :
    (facingColumns source.toList other.toList).Results (evaluate division source).result
      (evaluate division other).result := by
  have hreadings := Correspondence.readings_ofFragments (fun value => Eq.refl value)
    (Correspondence.facingColumns_fragments h)
  rw [result_evaluate, result_evaluate, hsource, hother]
  unfold tokenize
  generalize (Lexeme.ofFragments (Text.fragments source.toList)).result = reading,
    (Lexeme.ofFragments (Text.fragments other.toList)).result = reading' at hreadings
  cases hreadings with
  | error herror => exact .error herror
  | ok hlexemes =>
      have hempty : (facingColumns source.toList other.toList).States .empty .empty := ⟨.nil, .nil⟩
      exact (Correspondence.facingColumns_respected _ _ division).run hlexemes hempty

/--
Two texts with the same fragments have the same value, or they fail alike.  Where both are
long enough their errors differ in the columns only, and each column is that of the facing
fragment.  Where one is too short both fail, and neither for a division by zero.
-/
theorem evaluate_of_fragments_eq (division : DivisionPolicy) {source other : String}
    (h : (Text.fragments source.toList).map (·.chars) =
      (Text.fragments other.toList).map (·.chars)) :
    (checkLength source = .ok () → checkLength other = .ok () →
        (facingColumns source.toList other.toList).Results (evaluate division source).result
          (evaluate division other).result) ∧
      (checkLength source ≠ .ok () ∨ checkLength other ≠ .ok () →
        FailsUndivided (evaluate division source).result ∧
          FailsUndivided (evaluate division other).result) ∧
      ∀ v, (evaluate division source).result = .ok v ↔
        (evaluate division other).result = .ok v := by
  have hshort : checkLength source ≠ .ok () ∨ checkLength other ≠ .ok () →
      FailsUndivided (evaluate division source).result ∧
        FailsUndivided (evaluate division other).result := by
    rintro (hsource | hother)
    · exact ⟨failsUndivided_of_checkLength division hsource,
        failsUndivided_of_fragments_eq division h hsource⟩
    · exact ⟨failsUndivided_of_fragments_eq division h.symm hother,
        failsUndivided_of_checkLength division hother⟩
  refine ⟨facingColumns_evaluate division h, hshort, ?_⟩
  intro v
  by_cases hlong : checkLength source = .ok () ∧ checkLength other = .ok ()
  · have hresults := facingColumns_evaluate division h hlong.1 hlong.2
    generalize (evaluate division source).result = first,
      (evaluate division other).result = second at hresults
    cases hresults with
    | ok hvalue =>
        obtain rfl := hvalue
        exact Iff.rfl
    | error _ => simp
  · obtain ⟨hfirst, hsecond⟩ := hshort (not_and_or.mp hlong)
    exact ⟨fun hok => absurd hok (hfirst.ne_ok v), fun hok => absurd hok (hsecond.ne_ok v)⟩

theorem fragments_widened :
    (Text.fragments "( 1 2 )".toList).map (·.chars) =
      (Text.fragments "\n(\t1\u30002  )".toList).map (·.chars) := by
  decide +kernel

theorem evaluate_of_fragments_eq_widened :
    (Text.fragments "( 1 2 )".toList).map (·.chars) =
        (Text.fragments "\n(\t1\u30002  )".toList).map (·.chars) ∧
      (evaluate .reject "( 1 2 )").result = .error (.unjoinedGroup 1 2) ∧
      ∃ error, (evaluate .reject "\n(\t1\u30002  )").result = .error error ∧
        (facingColumns "( 1 2 )".toList "\n(\t1\u30002  )".toList).Errors
          (.unjoinedGroup 1 2) error := by
  have herror : (evaluate .reject "( 1 2 )").result = .error (.unjoinedGroup 1 2) := by
    decide +kernel
  have hresults := (evaluate_of_fragments_eq .reject fragments_widened).1 (by decide +kernel)
    (by decide +kernel)
  rw [herror] at hresults
  generalize (evaluate .reject "\n(\t1\u30002  )").result = result at hresults ⊢
  cases hresults with
  | error herrors => exact ⟨fragments_widened, herror, _, rfl, herrors⟩

end Calculator
