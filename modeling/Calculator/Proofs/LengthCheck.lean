import Calculator.Evaluate
import Calculator.Proofs.EntryCount
import Calculator.Proofs.Spelling
import Calculator.Proofs.TokenGrammar

/-!
# The check for the length

The check counts the characters between the outer blanks and looks at nothing else.  A text
that it refuses has at most two fragments, since a blank stands between any two of them.  Two
tokens never have a value, and one token has a value only if it is a number: such a number is
all that the check hides.  The refusal of a division takes three tokens, so it is not hidden.
-/

namespace Calculator

/-! ## Evaluation without the check -/

def readAndRun (division : DivisionPolicy) (expression : String) : Traced Float := do
  let lexemes ← tokenize expression
  Stacks.run division lexemes .empty

theorem result_evaluate_of_checkLength {division : DivisionPolicy} {source : String}
    (h : checkLength source = .ok ()) :
    (evaluate division source).result = (readAndRun division source).result := by
  rw [result_evaluate, h, readAndRun, Traced.result_bind]
  rfl

theorem readAndRun_cases (division : DivisionPolicy) (source : String) :
    (∃ error, (tokenize source).result = .error error ∧
        (readAndRun division source).result = .error error) ∨
      ∃ lexemes, (tokenize source).result = .ok lexemes ∧
        (readAndRun division source).result = (Stacks.run division lexemes .empty).result := by
  rw [readAndRun, Traced.result_bind]
  cases (tokenize source).result with
  | error error => exact .inl ⟨error, rfl, rfl⟩
  | ok lexemes => exact .inr ⟨lexemes, rfl, rfl⟩

/-! ## The number of fragments -/

theorem length_of_tokenize_ok {source : String} {lexemes : List Lexeme}
    (h : (tokenize source).result = .ok lexemes) :
    (Text.fragments source.toList).length = lexemes.length := by
  have hlengths := congrArg List.length (Lexeme.map_ofFragment?_of_ok h)
  rwa [List.length_map, List.length_map] at hlengths

theorem odd_length_fragments_of_ok {division : DivisionPolicy} {source : String} {v : Float}
    (h : (readAndRun division source).result = .ok v) :
    (Text.fragments source.toList).length % 2 = 1 := by
  cases readAndRun_cases division source with
  | inl hrefused =>
      obtain ⟨error, -, hresult⟩ := hrefused
      rw [hresult] at h
      contradiction
  | inr hread =>
      obtain ⟨lexemes, htokens, hresult⟩ := hread
      rw [length_of_tokenize_ok htokens]
      exact Stacks.odd_length_of_run_ok (hresult ▸ h)

theorem three_le_length_fragments_of_divisionByZero {division : DivisionPolicy}
    {source : String} {column : Nat}
    (h : (readAndRun division source).result = .error (.divisionByZero column)) :
    3 ≤ (Text.fragments source.toList).length := by
  cases readAndRun_cases division source with
  | inl hrefused =>
      obtain ⟨error, htokens, hresult⟩ := hrefused
      obtain ⟨unread, chars, -, herror⟩ := firstUnread_of_tokenize_error htokens
      rw [hresult, herror] at h
      exact EvalError.noConfusion (Except.error.inj h)
  | inr hread =>
      obtain ⟨lexemes, htokens, hresult⟩ := hread
      rw [length_of_tokenize_ok htokens]
      exact Stacks.three_le_length_of_run_divisionByZero (hresult ▸ h)

/-! ## Texts that are too short -/

theorem checkLength_eq_ok_iff {source : String} :
    checkLength source = .ok () ↔ 5 ≤ (Text.trim source.toList).length := by
  unfold checkLength smallestLength
  dsimp only
  split
  · simp only [reduceCtorEq, false_iff]
    omega
  · simp only [true_iff]
    omega

theorem length_fragments_le_two {source : String} (h : checkLength source ≠ .ok ()) :
    (Text.fragments source.toList).length ≤ 2 := by
  have hspells := Text.spells_iff.mpr (Eq.refl (Text.fragments source.toList))
  have hlength := hspells.length_trim
  rw [ne_eq, checkLength_eq_ok_iff] at h
  omega

theorem trim_eq_of_fragments_eq_singleton {source : List Char} {fragment : Text.Fragment}
    (h : Text.fragments source = [fragment]) : Text.trim source = fragment.chars :=
  (Text.spells_iff.mpr h).trim_singleton

theorem evaluate_ne_ok_of_checkLength {division : DivisionPolicy} {source : String}
    (h : checkLength source ≠ .ok ()) (v : Float) : (evaluate division source).result ≠ .ok v := by
  rw [result_evaluate]
  cases hcheck : checkLength source with
  | ok _ => exact absurd hcheck h
  | error error => exact nofun

/-! ## One token -/

theorem Stacks.run_singleton_eq_ok_iff [Operator.Arithmetic] (division : DivisionPolicy)
    (token : Token) (column : Nat) (v : Float) :
    (run division [⟨token, column⟩] .empty).result = .ok v ↔ token = .number v := by
  cases token with
  | number value =>
      have hresult : (run division [⟨.number value, column⟩] .empty).result = .ok value := rfl
      rw [hresult, Except.ok.injEq, Token.number.injEq]
  | operator op =>
      have hresult : (run division [⟨.operator op, column⟩] .empty).result =
          .error (.insufficientOperands op.symbol column) := rfl
      simp [hresult]
  | openParen =>
      have hresult : (run division [⟨.openParen, column⟩] .empty).result =
          .error (.unbalancedParentheses column) := rfl
      simp [hresult]
  | closeParen =>
      have hresult : (run division [⟨.closeParen, column⟩] .empty).result =
          .error (.unbalancedParentheses column) := rfl
      simp [hresult]

theorem readAndRun_eq_ok_iff_of_singleton {division : DivisionPolicy} {source : String}
    {fragment : Text.Fragment} (h : Text.fragments source.toList = [fragment]) (v : Float) :
    (readAndRun division source).result = .ok v ↔
      Token.ofChars? fragment.chars = some (.number v) := by
  rw [readAndRun, Traced.result_bind, tokenize, h, Lexeme.result_ofFragments_cons,
    Lexeme.ofFragment?]
  cases Token.ofChars? fragment.chars with
  | none => simp [bind, Except.bind]
  | some token =>
      rw [Option.some.injEq, ← Stacks.run_singleton_eq_ok_iff division token fragment.column v]
      exact Iff.rfl

/-- The text is a literal of at most four characters with nothing but blanks around it. -/
inductive LoneNumber (number : Float) : List Char → Prop
  | intro {before literal after : List Char} :
      Text.Gap before → Text.Word literal → Text.Gap after → literal.length ≤ 4 →
      Token.Written Numeral.parse? literal (.number number) →
      LoneNumber number (before ++ (literal ++ after))

theorem loneNumber_iff {number : Float} {source : List Char} :
    LoneNumber number source ↔
      ∃ fragment, Text.fragments source = [fragment] ∧ fragment.chars.length ≤ 4 ∧
        Token.ofChars? fragment.chars = some (.number number) := by
  constructor
  · intro hlone
    cases hlone with
    | @intro before literal after hbefore hword hafter hlength hnumber =>
        have hbreak : Text.Breaks after := fun c hc => hafter c (List.mem_of_mem_head? hc)
        have hspells := Text.spells_iff.mp (.word hbefore hword hbreak (.blank hafter))
        exact ⟨_, hspells, hlength, Token.written_parse?_iff.mp hnumber⟩
  · rintro ⟨fragment, hfragments, hlength, hnumber⟩
    have hspells := Text.spells_iff.mpr hfragments
    cases hspells with
    | word hbefore hword _ hrest =>
        cases hrest with
        | blank hafter =>
            exact .intro hbefore hword hafter hlength (Token.written_parse?_iff.mpr hnumber)

theorem LoneNumber.checkLength_ne_ok {number : Float} {source : String}
    (h : LoneNumber number source.toList) : checkLength source ≠ .ok () := by
  obtain ⟨fragment, hfragments, hlength, -⟩ := loneNumber_iff.mp h
  rw [ne_eq, checkLength_eq_ok_iff, trim_eq_of_fragments_eq_singleton hfragments]
  omega

theorem LoneNumber.readAndRun_eq_ok {number : Float} {source : String}
    (h : LoneNumber number source.toList) (division : DivisionPolicy) :
    (readAndRun division source).result = .ok number := by
  obtain ⟨fragment, hfragments, -, hnumber⟩ := loneNumber_iff.mp h
  exact (readAndRun_eq_ok_iff_of_singleton hfragments number).mpr hnumber

theorem loneNumber_of_readAndRun_eq_ok {division : DivisionPolicy} {source : String} {v : Float}
    (hshort : checkLength source ≠ .ok ()) (hresult : (readAndRun division source).result = .ok v) :
    LoneNumber v source.toList := by
  have htwo := length_fragments_le_two hshort
  have hodd := odd_length_fragments_of_ok hresult
  have hone : (Text.fragments source.toList).length = 1 := by omega
  obtain ⟨fragment, hfragments⟩ := List.length_eq_one_iff.mp hone
  have hnumber := (readAndRun_eq_ok_iff_of_singleton hfragments v).mp hresult
  rw [ne_eq, checkLength_eq_ok_iff, trim_eq_of_fragments_eq_singleton hfragments] at hshort
  exact loneNumber_iff.mpr ⟨fragment, hfragments, by omega, hnumber⟩

theorem fails_of_readAndRun_eq_error {division : DivisionPolicy} {source : String}
    {error : EvalError} (h : (readAndRun division source).result = .error error) :
    (tokenize source).result = .error error ∨
      ∃ lexemes, (tokenize source).result = .ok lexemes ∧
        (Stacks.run division lexemes .empty).result = .error error := by
  cases readAndRun_cases division source with
  | inl hrefused =>
      obtain ⟨error', htokens, hresult⟩ := hrefused
      rw [h] at hresult
      rw [Except.error.inj hresult]
      exact .inl htokens
  | inr hread =>
      obtain ⟨lexemes, htokens, hresult⟩ := hread
      rw [h] at hresult
      exact .inr ⟨lexemes, htokens, hresult.symm⟩

/--
The check hides no value but that of a lone literal of at most four characters, and no
refusal of a division.  Any other text has a value exactly when reading and running it gives
that value, and the lone literals are refused.
-/
theorem evaluate_agrees_with_readAndRun (division : DivisionPolicy) (source : String) :
    (checkLength source ≠ .ok () →
        ((∃ error, (tokenize source).result = .error error) ∨
          (∃ lexemes error, (tokenize source).result = .ok lexemes ∧
            (Stacks.run division lexemes .empty).result = .error error) ∨
          ∃ number, LoneNumber number source.toList) ∧
        ∀ column, (readAndRun division source).result ≠ .error (.divisionByZero column)) ∧
      (∀ number, LoneNumber number source.toList →
        checkLength source ≠ .ok () ∧ (readAndRun division source).result = .ok number) ∧
      ∀ v, (evaluate division source).result = .ok v ↔
        (readAndRun division source).result = .ok v ∧
          ¬ ∃ number, LoneNumber number source.toList := by
  refine ⟨?_, ?_, ?_⟩
  · intro hshort
    constructor
    · cases hresult : (readAndRun division source).result with
      | ok v => exact .inr (.inr ⟨v, loneNumber_of_readAndRun_eq_ok hshort hresult⟩)
      | error error =>
          cases fails_of_readAndRun_eq_error hresult with
          | inl hread => exact .inl ⟨error, hread⟩
          | inr hrun =>
              obtain ⟨lexemes, htokens, herror⟩ := hrun
              exact .inr (.inl ⟨lexemes, error, htokens, herror⟩)
    · intro column hresult
      have htwo := length_fragments_le_two hshort
      have hthree := three_le_length_fragments_of_divisionByZero hresult
      omega
  · intro number hlone
    exact ⟨hlone.checkLength_ne_ok, hlone.readAndRun_eq_ok division⟩
  · intro v
    by_cases hcheck : checkLength source = .ok ()
    · have hnone : ¬ ∃ number, LoneNumber number source.toList := by
        rintro ⟨number, hlone⟩
        exact hlone.checkLength_ne_ok hcheck
      rw [result_evaluate_of_checkLength hcheck, and_iff_left hnone]
    · constructor
      · intro hresult
        exact absurd hresult (evaluate_ne_ok_of_checkLength hcheck v)
      · rintro ⟨hresult, hnone⟩
        exact absurd ⟨v, loneNumber_of_readAndRun_eq_ok hcheck hresult⟩ hnone

theorem evaluate_agrees_with_readAndRun_shortTexts :
    LoneNumber (-7.5) "\u3000-7.5 ".toList ∧
      (readAndRun .reject "\u3000-7.5 ").result = .ok (-7.5) ∧
      (evaluate .reject "\u3000-7.5 ").result ≠ .ok (-7.5) ∧
      checkLength " 1 / " ≠ .ok () ∧
      ∀ column, (readAndRun .reject " 1 / ").result ≠ .error (.divisionByZero column) := by
  have hlone : LoneNumber (-7.5) "\u3000-7.5 ".toList :=
    loneNumber_iff.mpr ⟨⟨['-', '7', '.', '5'], 2⟩, by decide +kernel, by decide, by decide +kernel⟩
  have hshort : checkLength " 1 / " ≠ .ok () := by
    decide +kernel
  obtain ⟨-, hnumber, hvalue⟩ := evaluate_agrees_with_readAndRun .reject "\u3000-7.5 "
  refine ⟨hlone, (hnumber _ hlone).2, ?_, hshort, ?_⟩
  · intro hresult
    exact ((hvalue _).mp hresult).2 ⟨_, hlone⟩
  · exact ((evaluate_agrees_with_readAndRun .reject " 1 / ").1 hshort).2

end Calculator
