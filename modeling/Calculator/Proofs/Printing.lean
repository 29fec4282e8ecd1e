import Calculator.Proofs.Positional
import Calculator.Proofs.Reading
import Calculator.Proofs.Spelling

/-!
# Writing and reading tokens

The text of a token is a word, and reading it gives the token back, a finite number bit for
bit.  So tokens that are written with blanks between them are read back one by one: a minus
sign that belongs to a number touches its digits, and any other stands alone.
-/

namespace Calculator

/-! ## One token -/

theorem Text.isBlank_of_isDigit {c : Char} (h : c.isDigit = true) : isBlank c = false := by
  have hrange : 48 ≤ c.toNat ∧ c.toNat ≤ 57 := by
    simp only [Char.isDigit, Bool.and_eq_true, decide_eq_true_eq, ge_iff_le,
      UInt32.le_iff_toNat_le] at h
    exact h
  simp only [isBlank, blankRanges, List.any_cons, List.any_nil, Bool.or_false,
    Bool.or_eq_false_iff, Bool.and_eq_false_iff, decide_eq_false_iff_not]
  omega

theorem Decimal.word_positional (d : Decimal) : Text.Word d.positional := by
  obtain ⟨first, rest, htext, -⟩ := d.exists_positional_eq_cons
  refine ⟨by rw [htext]; exact List.cons_ne_nil first rest, ?_⟩
  intro c hc
  rcases isDigit_or_point_of_mem_positional hc with hdigit | hpoint
  · exact Text.isBlank_of_isDigit hdigit
  · rw [hpoint]
    decide

namespace Token

def isFinite : Token → Bool
  | number value => value.isFinite
  | _ => true

theorem ofChars?_chars {token : Token} (h : token.isFinite = true) :
    ofChars? token.chars = some token := by
  cases token with
  | number x =>
      have hfinite : x.isFinite = true := h
      obtain ⟨numeral, hnumeral, hvalue⟩ := Numeral.ofChars?_chars hfinite
      unfold ofChars? chars
      rw [hnumeral]
      dsimp only
      rw [ofNumeral?, hvalue, if_pos hfinite]
  | operator op => exact ofChars?_operator op
  | openParen => exact ofChars?_openParen
  | closeParen => exact ofChars?_closeParen

theorem word_chars {token : Token} (h : token.isFinite = true) : Text.Word token.chars := by
  have hsingle {c : Char} (hc : Text.isBlank c = false) : Text.Word [c] :=
    ⟨List.cons_ne_nil c [], List.forall_mem_singleton.mpr hc⟩
  cases token with
  | number x =>
      change Text.Word (Layout.plain.chars x)
      rw [Layout.chars_plain h]
      split
      · have hsolid := (Decimal.ofFloat x.abs).word_positional.solid
        exact ⟨List.cons_ne_nil _ _, List.forall_mem_cons.mpr ⟨by decide, hsolid⟩⟩
      · exact Decimal.word_positional _
  | operator op =>
      apply hsingle
      cases op <;> decide
  | openParen => exact hsingle (by decide)
  | closeParen => exact hsingle (by decide)

end Token

namespace Lexeme

def fragment (lexeme : Lexeme) : Text.Fragment := ⟨lexeme.token.chars, lexeme.column⟩

theorem result_ofFragments_map_fragment {lexemes : List Lexeme}
    (h : ∀ lexeme ∈ lexemes, lexeme.token.isFinite = true) :
    (ofFragments (lexemes.map fragment)).result = .ok lexemes := by
  induction lexemes with
  | nil => rfl
  | cons lexeme rest ih =>
      obtain ⟨hfinite, hrest⟩ := List.forall_mem_cons.mp h
      have hread : ofFragment? lexeme.fragment = some lexeme :=
        ofFragment?_eq_some_iff.mpr
          ⟨Token.written_parse?_iff.mpr (Token.ofChars?_chars hfinite), rfl⟩
      rw [List.map_cons, result_ofFragments_cons, hread, ih hrest]
      rfl

end Lexeme

/-! ## Many tokens -/

structure Piece where
  gap : List Char
  token : Token

namespace Piece

def written : List Piece → List Char
  | [] => []
  | piece :: rest => piece.gap ++ (piece.token.chars ++ written rest)

/-- The tokens at the columns where their texts start, if the first gap starts at `column`. -/
def placed (column : Nat) : List Piece → List Lexeme
  | [] => []
  | piece :: rest =>
      let start := column + piece.gap.length
      ⟨piece.token, start⟩ :: placed (start + piece.token.chars.length) rest

/-- The numbers are finite and blanks keep any two tokens apart. -/
structure Readable (pieces : List Piece) : Prop where
  finite : ∀ piece ∈ pieces, piece.token.isFinite = true
  blank : ∀ piece ∈ pieces, Text.Gap piece.gap
  apart : ∀ piece ∈ pieces.tail, piece.gap ≠ []

theorem Readable.rest {piece : Piece} {pieces : List Piece} (h : Readable (piece :: pieces)) :
    Readable pieces := by
  constructor
  · exact (List.forall_mem_cons.mp h.finite).2
  · exact (List.forall_mem_cons.mp h.blank).2
  · intro next hnext
    exact h.apart next (List.mem_of_mem_tail hnext)

theorem Readable.breaks {piece : Piece} {pieces : List Piece} (h : Readable (piece :: pieces))
    {trail : List Char} (htrail : Text.Gap trail) : Text.Breaks (written pieces ++ trail) := by
  cases pieces with
  | nil =>
      intro c hc
      exact htrail c (List.mem_of_mem_head? hc)
  | cons next rest =>
      have hne : next.gap ≠ [] := h.apart next List.mem_cons_self
      have hblank : Text.Gap next.gap := h.rest.blank next List.mem_cons_self
      obtain ⟨blank, others, hgap⟩ := List.exists_cons_of_ne_nil hne
      rw [hgap] at hblank
      rw [written, hgap]
      exact Text.breaks_cons (hblank blank List.mem_cons_self) _

theorem Readable.spells {pieces : List Piece} (h : Readable pieces) {trail : List Char}
    (htrail : Text.Gap trail) (column : Nat) :
    Text.Spells column ((placed column pieces).map Lexeme.fragment)
      (written pieces ++ trail) := by
  induction pieces generalizing column with
  | nil => exact .blank htrail
  | cons piece rest ih =>
      have hword := Token.word_chars (h.finite piece List.mem_cons_self)
      have hgap := h.blank piece List.mem_cons_self
      rw [written, List.append_assoc, List.append_assoc]
      exact .word hgap hword (h.breaks htrail) (ih h.rest _)

theorem map_token_placed (pieces : List Piece) (column : Nat) :
    (placed column pieces).map Lexeme.token = pieces.map Piece.token := by
  induction pieces generalizing column with
  | nil => rfl
  | cons piece rest ih => exact congrArg _ (ih _)

end Piece

open Piece

/--
Writing tokens and reading them back is the identity, for finite numbers and any blanks
that keep the tokens apart.  The tokens come back in their order, each at the column where
its text starts, and the numbers with every bit.
-/
theorem tokenize_written {pieces : List Piece} (h : Readable pieces) {trail : List Char}
    (htrail : Text.Gap trail) :
    (tokenize (String.ofList (written pieces ++ trail))).result = .ok (placed 1 pieces) ∧
      (placed 1 pieces).map Lexeme.token = pieces.map Piece.token := by
  have hfragments := Text.spells_iff.mp (h.spells htrail 1)
  have hfinite : ∀ lexeme ∈ placed 1 pieces, lexeme.token.isFinite = true := by
    intro lexeme hlexeme
    have htoken := List.mem_map_of_mem (f := Lexeme.token) hlexeme
    rw [map_token_placed] at htoken
    obtain ⟨piece, hpiece, hsame⟩ := List.mem_map.mp htoken
    exact hsame ▸ h.finite piece hpiece
  refine ⟨?_, map_token_placed pieces 1⟩
  rw [tokenize, String.toList_ofList, hfragments]
  exact Lexeme.result_ofFragments_map_fragment hfinite

/-- The zero with a sign, the least positive and the least of all finite numbers. -/
def extremes : List Piece :=
  [⟨[], .number (Float.ofBits 0x8000000000000000)⟩, ⟨[' '], .operator .sub⟩,
    ⟨['\t', '\u2003'], .number (Float.ofBits 0x0000000000000001)⟩,
    ⟨['\n'], .openParen⟩, ⟨['\u00A0'], .number (Float.ofBits 0xFFEFFFFFFFFFFFFF)⟩]

theorem tokenize_written_extremes :
    (Readable extremes ∧ Text.Gap ['\n']) ∧
      (tokenize (String.ofList (written extremes ++ ['\n']))).result = .ok (placed 1 extremes) ∧
      (placed 1 extremes).map Lexeme.token = extremes.map Piece.token := by
  have hreadable : Readable extremes :=
    ⟨by decide +kernel, by decide +kernel, by decide +kernel⟩
  have hgap : Text.Gap ['\n'] := by decide
  exact ⟨⟨hreadable, hgap⟩, tokenize_written hreadable hgap⟩

end Calculator
