import Calculator.Lexeme
import Calculator.Proofs.Fragments
import Calculator.Proofs.TokenGrammar

/-!
# Reading a text

The tokens of a text are its runs of characters, if each of them is a token; the first
one that is not is what the refusal of a text names.  What a token is, the grammar says.
-/

namespace Calculator

/-- Every run of characters of the text is a token, and these are they, in their order. -/
structure Reads (source : List Char) (lexemes : List Lexeme) : Prop where
  ordered : lexemes.Pairwise fun first second => first.column < second.column
  mem_iff : ∀ lexeme, lexeme ∈ lexemes ↔ ∃ chars, Text.RunAt source lexeme.column chars ∧
    Token.Written Numeral.parse? chars lexeme.token
  complete : ∀ column chars, Text.RunAt source column chars →
    ∃ token, Token.Written Numeral.parse? chars token

/-- The first run of characters of the text that is no token stands at `column`. -/
structure FirstUnread (source : List Char) (column : Nat) (chars : List Char) : Prop where
  runAt : Text.RunAt source column chars
  unread : ¬ ∃ token, Token.Written Numeral.parse? chars token
  first : ∀ earlier chars, earlier < column → Text.RunAt source earlier chars →
    ∃ token, Token.Written Numeral.parse? chars token

namespace Lexeme

def ofFragment? (fragment : Text.Fragment) : Option Lexeme :=
  (Token.ofChars? fragment.chars).map fun token => ⟨token, fragment.column⟩

theorem ofFragment?_eq_some_iff {fragment : Text.Fragment} {lexeme : Lexeme} :
    ofFragment? fragment = some lexeme ↔
      Token.Written Numeral.parse? fragment.chars lexeme.token ∧
        fragment.column = lexeme.column := by
  obtain ⟨token, column⟩ := lexeme
  rw [ofFragment?, Option.map_eq_some_iff, Token.written_parse?_iff]
  constructor
  · rintro ⟨_, htoken, ⟨⟩⟩
    exact ⟨htoken, rfl⟩
  · rintro ⟨htoken, rfl⟩
    exact ⟨token, htoken, rfl⟩

theorem ofFragment?_eq_none_iff {fragment : Text.Fragment} :
    ofFragment? fragment = none ↔
      ¬ ∃ token, Token.Written Numeral.parse? fragment.chars token := by
  rw [ofFragment?, Option.map_eq_none_iff, Option.eq_none_iff_forall_ne_some, not_exists]
  simp only [Token.written_parse?_iff, ne_eq]

theorem result_ofFragments_cons (fragment : Text.Fragment) (rest : List Text.Fragment) :
    (ofFragments (fragment :: rest)).result =
      match ofFragment? fragment with
      | some lexeme => (ofFragments rest).result.map (lexeme :: ·)
      | none => .error (.malformedToken fragment.text fragment.column) := by
  simp only [ofFragments, Traced.result_bind, ofFragment, ofFragment?]
  cases Token.ofChars? fragment.chars with
  | none => rfl
  | some token => rfl

theorem map_ofFragment?_of_ok {fragments : List Text.Fragment} {lexemes : List Lexeme}
    (h : (ofFragments fragments).result = .ok lexemes) :
    fragments.map ofFragment? = lexemes.map some := by
  induction fragments generalizing lexemes with
  | nil =>
      obtain rfl := Except.ok.inj h
      rfl
  | cons fragment rest ih =>
      rw [result_ofFragments_cons] at h
      cases hlexeme : ofFragment? fragment with
      | none => simp [hlexeme] at h
      | some lexeme =>
          cases hrest : (ofFragments rest).result with
          | error error => simp [hlexeme, hrest, Except.map] at h
          | ok others =>
              obtain rfl : lexeme :: others = lexemes := by
                simpa [hlexeme, hrest, Except.map] using h
              rw [List.map_cons, List.map_cons, hlexeme, ih hrest]

theorem exists_unread_of_error {fragments : List Text.Fragment} {error : EvalError}
    (h : (ofFragments fragments).result = .error error) :
    ∃ before fragment after, fragments = before ++ fragment :: after ∧
      (∀ earlier ∈ before, ∃ token, Token.Written Numeral.parse? earlier.chars token) ∧
      (¬ ∃ token, Token.Written Numeral.parse? fragment.chars token) ∧
      error = .malformedToken fragment.text fragment.column := by
  induction fragments with
  | nil => contradiction
  | cons fragment rest ih =>
      rw [result_ofFragments_cons] at h
      cases hlexeme : ofFragment? fragment with
      | none =>
          simp only [hlexeme] at h
          exact ⟨[], fragment, rest, rfl, nofun, ofFragment?_eq_none_iff.mp hlexeme,
            (Except.error.inj h).symm⟩
      | some lexeme =>
          cases hrest : (ofFragments rest).result with
          | ok others => simp [hlexeme, hrest, Except.map] at h
          | error _ =>
              obtain rfl : _ = error := by
                simpa [hlexeme, hrest, Except.map] using h
              obtain ⟨before, bad, after, rfl, hbefore, hbad, rfl⟩ := ih hrest
              refine ⟨fragment :: before, bad, after, rfl, fun earlier hearlier => ?_, hbad, rfl⟩
              obtain rfl | hin := List.mem_cons.mp hearlier
              · exact ⟨lexeme.token, (ofFragment?_eq_some_iff.mp hlexeme).1⟩
              · exact hbefore earlier hin

theorem pairwise_of_map_ofFragment? {fragments : List Text.Fragment} {lexemes : List Lexeme}
    (hmap : fragments.map ofFragment? = lexemes.map some)
    (h : fragments.Pairwise fun first second => first.column < second.column) :
    lexemes.Pairwise fun first second => first.column < second.column := by
  have hread : (fragments.map ofFragment?).Pairwise fun first second =>
      ∀ lexeme ∈ first, ∀ later ∈ second, lexeme.column < later.column := by
    refine List.pairwise_map.mpr (h.imp fun hlt lexeme hlexeme later hlater => ?_)
    rwa [← (ofFragment?_eq_some_iff.mp hlexeme).2, ← (ofFragment?_eq_some_iff.mp hlater).2]
  rw [hmap] at hread
  exact (List.pairwise_map.mp hread).imp fun hlt => hlt _ rfl _ rfl

end Lexeme

/-! ## Texts -/

open Lexeme

theorem reads_of_tokenize_ok {source : String} {lexemes : List Lexeme}
    (h : (tokenize source).result = .ok lexemes) : Reads source.toList lexemes := by
  have hmap := map_ofFragment?_of_ok h
  have hmem (fragment : Text.Fragment) (hfragment : fragment ∈ Text.fragments source.toList) :
      ∃ lexeme ∈ lexemes, ofFragment? fragment = some lexeme := by
    have hin := List.mem_map_of_mem (f := ofFragment?) hfragment
    rw [hmap] at hin
    obtain ⟨lexeme, hlexeme, hsome⟩ := List.mem_map.mp hin
    exact ⟨lexeme, hlexeme, hsome.symm⟩
  refine ⟨?_, fun lexeme => ⟨fun hlexeme => ?_, ?_⟩, fun column chars hrun => ?_⟩
  · exact pairwise_of_map_ofFragment? hmap (Text.pairwise_fragments source.toList)
  · have hin := List.mem_map_of_mem (f := some) hlexeme
    rw [← hmap] at hin
    obtain ⟨fragment, hfragment, hsome⟩ := List.mem_map.mp hin
    obtain ⟨htoken, hcolumn⟩ := ofFragment?_eq_some_iff.mp hsome
    exact ⟨fragment.chars, hcolumn ▸ Text.mem_fragments_iff.mp hfragment, htoken⟩
  · rintro ⟨chars, hrun, htoken⟩
    obtain ⟨other, hother, hsome⟩ := hmem ⟨chars, lexeme.column⟩ (Text.mem_fragments_iff.mpr hrun)
    have hsame : ofFragment? ⟨chars, lexeme.column⟩ = some lexeme :=
      ofFragment?_eq_some_iff.mpr ⟨htoken, rfl⟩
    obtain rfl := Option.some.inj (hsame.symm.trans hsome)
    exact hother
  · obtain ⟨lexeme, -, hsome⟩ := hmem ⟨chars, column⟩ (Text.mem_fragments_iff.mpr hrun)
    exact ⟨lexeme.token, (ofFragment?_eq_some_iff.mp hsome).1⟩

theorem firstUnread_of_tokenize_error {source : String} {error : EvalError}
    (h : (tokenize source).result = .error error) :
    ∃ column chars, FirstUnread source.toList column chars ∧
      error = .malformedToken (String.ofList chars) column := by
  obtain ⟨before, fragment, after, hfragments, hbefore, hunread, rfl⟩ := exists_unread_of_error h
  refine ⟨fragment.column, fragment.chars, ⟨?_, hunread, fun earlier chars hlt hrun => ?_⟩, rfl⟩
  · exact Text.mem_fragments_iff.mp (by simp [hfragments])
  · have hordered := Text.pairwise_fragments source.toList
    have hmem : ⟨chars, earlier⟩ ∈ Text.fragments source.toList := Text.mem_fragments_iff.mpr hrun
    rw [hfragments] at hordered hmem
    have hafter := (List.pairwise_cons.mp (List.pairwise_append.mp hordered).2.1).1
    obtain hin | hin := List.mem_append.mp hmem
    · exact hbefore _ hin
    · obtain rfl | hin := List.mem_cons.mp hin
      · exact absurd hlt (Nat.lt_irrefl _)
      · exact absurd (hafter _ hin) (Nat.lt_asymm hlt)

end Calculator
