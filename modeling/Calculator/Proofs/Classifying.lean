import Calculator.Lexeme
import Calculator.Proofs.TokenGrammar

/-!
# Classifying a fragment

A scanner with one rule for each kind of token takes the longest text at the start of a
fragment that a rule matches.  The fragment is a token if that text is all of it.  This is
the same as asking for a rule that matches the whole fragment: where the longest match ends
early, at a point, an exponent or a sign that leads nowhere, the rest is left over.
-/

namespace Calculator

/-! ## Rules -/

/-- A pattern, and the token of a text that matches it, unless the text is refused. -/
structure Rule where
  pattern : Pattern
  token? : List Char → Option Token

namespace Rule

variable (parse : List Char → Option Float)

def literal (pattern : Pattern) : Rule where
  pattern := pattern
  token? chars := ((parse chars).filter Float.isFinite).map .number

def symbol (c : Char) (token : Token) : Rule where
  pattern := Pattern.oneOf [c]
  token? _ := some token

def all : List Rule :=
  [literal parse Pattern.wholeLiteral, literal parse Pattern.pointLiteral,
    symbol '+' (.operator .add), symbol '-' (.operator .sub), symbol '*' (.operator .mul),
    symbol '/' (.operator .div), symbol '(' .openParen, symbol ')' .closeParen]

end Rule

/-! ## Scanners -/

/-- The token at the start of a text, unless the text there is refused, and its length. -/
abbrev Scanner := List Char → Option (Option Token × Nat)

structure IsLongest (rules : List Rule) (chars : List Char) (length : Nat) : Prop where
  le : length ≤ chars.length
  matched : ∃ rule ∈ rules, rule.pattern.Matches (chars.take length)
  longest : ∀ longer, length < longer → longer ≤ chars.length →
    ∀ rule ∈ rules, ¬ rule.pattern.Matches (chars.take longer)

/-- The scanner goes by the longest match, and without a match there is no token. -/
structure TakesLongest (rules : List Rule) (scan : Scanner) : Prop where
  taken : ∀ chars length, IsLongest rules chars length →
    ∃ rule ∈ rules, rule.pattern.Matches (chars.take length) ∧
      scan chars = some (rule.token? (chars.take length), length)
  only : ∀ chars token length, scan chars = some (some token, length) →
    ∃ longest, IsLongest rules chars longest

def classify (scan : Scanner) (fragment : Text.Fragment) : Except EvalError Token :=
  match scan fragment.chars with
  | some (some token, length) =>
      if length = fragment.chars.length then .ok token
      else .error (.malformedToken fragment.text fragment.column)
  | _ => .error (.malformedToken fragment.text fragment.column)

/-! ## Whole texts -/

section

variable {parse : List Char → Option Float} {scan : Scanner} {chars : List Char} {rule : Rule}

theorem Rule.matches_symbol_iff {c : Char} {token : Token} :
    (symbol c token).pattern.Matches chars ↔ chars = [c] := by
  simp [symbol, Pattern.matches_oneOf_iff]

theorem Rule.token?_eq_some_iff (hrule : rule ∈ all parse) (hmatch : rule.pattern.Matches chars)
    {token : Token} : rule.token? chars = some token ↔ Token.Written parse chars token := by
  have hliteral (pattern : Pattern) (h : Numeral.IsLiteral chars) :
      (literal parse pattern).token? chars = some token ↔ Token.Written parse chars token := by
    simp [literal, Token.written_literal_iff h, Option.filter_eq_some_iff]
  simp only [all, List.mem_cons, List.not_mem_nil, or_false] at hrule
  obtain rfl | rfl | rfl | rfl | rfl | rfl | rfl | rfl := hrule
  · exact hliteral _ (.inl hmatch)
  · exact hliteral _ (.inr hmatch)
  all_goals
    rw [matches_symbol_iff.mp hmatch, Token.written_symbol_iff rfl, symbol, Option.some_inj]

theorem Rule.exists_of_written {token : Token} (h : Token.Written parse chars token) :
    ∃ rule ∈ all parse, rule.pattern.Matches chars := by
  cases h with
  | number hliteral =>
      obtain hwhole | hpoint := hliteral
      · exact ⟨literal parse Pattern.wholeLiteral, by simp [all], hwhole⟩
      · exact ⟨literal parse Pattern.pointLiteral, by simp [all], hpoint⟩
  | operator op =>
      refine ⟨symbol op.symbol (.operator op), ?_, matches_symbol_iff.mpr rfl⟩
      cases op <;> simp [all, Operator.symbol]
  | openParen => exact ⟨symbol '(' .openParen, by simp [all], matches_symbol_iff.mpr rfl⟩
  | closeParen => exact ⟨symbol ')' .closeParen, by simp [all], matches_symbol_iff.mpr rfl⟩

/-! ## Longest matches -/

theorem IsLongest.whole {rules : List Rule} (hrule : rule ∈ rules)
    (hmatch : rule.pattern.Matches chars) : IsLongest rules chars chars.length := by
  refine ⟨Nat.le_refl _, ⟨rule, hrule, by simpa using hmatch⟩, ?_⟩
  intro longer hlonger hle
  omega

theorem classify_eq_ok_iff (hscan : TakesLongest (Rule.all parse) scan) {fragment : Text.Fragment}
    {token : Token} :
    classify scan fragment = .ok token ↔ Token.Written parse fragment.chars token := by
  by_cases hwhole : ∃ rule ∈ Rule.all parse, rule.pattern.Matches fragment.chars
  · obtain ⟨rule, hrule, hmatch⟩ := hwhole
    obtain ⟨taken, htaken, hmatched, hresult⟩ := hscan.taken _ _ (.whole hrule hmatch)
    rw [List.take_length] at hmatched hresult
    rw [classify, hresult, ← Rule.token?_eq_some_iff htaken hmatched]
    cases taken.token? fragment.chars <;> simp
  · refine iff_of_false ?_ fun hwritten => hwhole (Rule.exists_of_written hwritten)
    rw [classify]
    split
    · rename_i found length hfound
      obtain ⟨longest, hlongest⟩ := hscan.only _ _ _ hfound
      obtain ⟨rule, hrule, hmatched, hresult⟩ := hscan.taken _ _ hlongest
      obtain ⟨-, rfl⟩ : some found = rule.token? _ ∧ length = longest := by
        simpa using hfound.symm.trans hresult
      have hshort : length ≠ fragment.chars.length := by
        rintro rfl
        rw [List.take_length] at hmatched
        exact hwhole ⟨rule, hrule, hmatched⟩
      simp [hshort]
    · simp

theorem classify_eq_error_iff {fragment : Text.Fragment} {error : EvalError} :
    classify scan fragment = .error error ↔
      error = .malformedToken fragment.text fragment.column ∧
        ∀ token, classify scan fragment ≠ .ok token := by
  unfold classify
  split
  · split <;> simp [eq_comm]
  · simp [eq_comm]

end

/-! ## A scanner -/

namespace Scanner

variable (rules : List Rule) (chars : List Char)

def matchOf? (length : Nat) : Option (Option Token × Nat) :=
  (rules.find? fun rule => rule.pattern.Matches (chars.take length)).map fun rule =>
    (rule.token? (chars.take length), length)

def longestUpTo : Nat → Option (Option Token × Nat)
  | 0 => matchOf? rules chars 0
  | length + 1 => (matchOf? rules chars (length + 1)).or (longestUpTo length)

end Scanner

def Scanner.longest (rules : List Rule) : Scanner := fun chars =>
  longestUpTo rules chars chars.length

namespace Scanner

variable {rules : List Rule} {chars : List Char}

theorem exists_rule_of_matchOf? {length : Nat} {found : Option Token × Nat}
    (h : matchOf? rules chars length = some found) :
    ∃ rule ∈ rules, rule.pattern.Matches (chars.take length) ∧
      found = (rule.token? (chars.take length), length) := by
  obtain ⟨rule, hfind, rfl⟩ := Option.map_eq_some_iff.mp h
  exact ⟨rule, List.mem_of_find?_eq_some hfind, by simpa using List.find?_some hfind, rfl⟩

theorem matchOf?_eq_none_iff {length : Nat} :
    matchOf? rules chars length = none ↔
      ∀ rule ∈ rules, ¬ rule.pattern.Matches (chars.take length) := by
  simp [matchOf?]

theorem longestUpTo_eq {length bound : Nat} (hle : length ≤ bound)
    (hmatch : (matchOf? rules chars length).isSome = true)
    (hlonger : ∀ longer, length < longer → longer ≤ bound → matchOf? rules chars longer = none) :
    longestUpTo rules chars bound = matchOf? rules chars length := by
  induction bound with
  | zero =>
      obtain rfl : length = 0 := by omega
      rfl
  | succ bound ih =>
      rw [longestUpTo]
      by_cases heq : length = bound + 1
      · rw [← heq, Option.or_of_isSome hmatch]
      · rw [hlonger (bound + 1) (by omega) (Nat.le_refl _), Option.none_or]
        exact ih (by omega) fun longer hlt hbound => hlonger longer hlt (by omega)

theorem exists_longest {bound : Nat} {found : Option Token × Nat}
    (hbound : bound ≤ chars.length)
    (hlonger : ∀ longer, bound < longer → longer ≤ chars.length →
      ∀ rule ∈ rules, ¬ rule.pattern.Matches (chars.take longer))
    (h : longestUpTo rules chars bound = some found) :
    ∃ length, IsLongest rules chars length := by
  induction bound with
  | zero =>
      obtain ⟨rule, hrule, hmatch, -⟩ := exists_rule_of_matchOf? h
      exact ⟨0, hbound, ⟨rule, hrule, hmatch⟩, hlonger⟩
  | succ bound ih =>
      rw [longestUpTo] at h
      cases hmatch : matchOf? rules chars (bound + 1) with
      | some other =>
          obtain ⟨rule, hrule, hmatch, -⟩ := exists_rule_of_matchOf? hmatch
          exact ⟨bound + 1, hbound, ⟨rule, hrule, hmatch⟩, hlonger⟩
      | none =>
          rw [hmatch, Option.none_or] at h
          refine ih (by omega) ?_ h
          intro longer hlt hle
          by_cases heq : longer = bound + 1
          · exact heq ▸ matchOf?_eq_none_iff.mp hmatch
          · exact hlonger longer (by omega) hle

theorem takesLongest_longest (rules : List Rule) : TakesLongest rules (longest rules) := by
  constructor
  · rintro chars length ⟨hle, ⟨rule, hrule, hmatch⟩, hlonger⟩
    have hsome : (matchOf? rules chars length).isSome = true := by
      rw [Option.isSome_iff_ne_none]
      exact fun hnone => matchOf?_eq_none_iff.mp hnone rule hrule hmatch
    obtain ⟨found, hfound⟩ := Option.isSome_iff_exists.mp hsome
    obtain ⟨taken, htaken, hmatched, rfl⟩ := exists_rule_of_matchOf? hfound
    refine ⟨taken, htaken, hmatched, ?_⟩
    rw [longest, longestUpTo_eq hle hsome, hfound]
    exact fun longer hlt hbound => matchOf?_eq_none_iff.mpr (hlonger longer hlt hbound)
  · intro chars token length h
    refine exists_longest (Nat.le_refl _) ?_ h
    intro longer hlt hle
    omega

end Scanner

/-! ## Fragments -/

/--
A fragment is a number if and only if the whole of it matches one of the two patterns of a
literal and its value is finite, and it is an operator or a parenthesis if and only if it is
the one character of that token.  Any other fragment is refused with its text and column.
With the values of literals, reading a fragment gives what scanning it gives.
-/
theorem classify_result {parse : List Char → Option Float} {scan : Scanner}
    (hscan : TakesLongest (Rule.all parse) scan) (fragment : Text.Fragment) :
    (∀ token, classify scan fragment = .ok token ↔ Token.Written parse fragment.chars token) ∧
      (∀ error, classify scan fragment = .error error ↔
        error = .malformedToken fragment.text fragment.column ∧
          ∀ token, ¬ Token.Written parse fragment.chars token) ∧
      (ParsesLiterals parse → (Lexeme.ofFragment fragment).result =
        (classify scan fragment).map fun token => ⟨token, fragment.column⟩) := by
  have hok := @classify_eq_ok_iff parse scan hscan fragment
  refine ⟨fun token => hok, fun error => ?_, fun hparse => ?_⟩
  · simp only [classify_eq_error_iff, ne_eq, hok]
  · rw [Lexeme.ofFragment]
    cases htoken : Token.ofChars? fragment.chars with
    | some token =>
        have hfound := hok.mpr ((Token.ofChars?_eq_some_iff hparse).mp htoken)
        simp [hfound, Except.map]
    | none =>
        have hmalformed : classify scan fragment =
            .error (.malformedToken fragment.text fragment.column) := by
          refine classify_eq_error_iff.mpr ⟨rfl, fun token hfound => ?_⟩
          rw [(Token.ofChars?_eq_some_iff hparse).mpr (hok.mp hfound)] at htoken
          simp at htoken
        simp [hmalformed, Except.map]

example : ["1+1", "1.2.3", "1e", "1e+", "--5", "+5", "(1", "."].all
    (fun text => (Token.ofChars? text.toList).isNone) = true := by
  decide

theorem classify_result_negativePoint :
    let scan := Scanner.longest (Rule.all Numeral.parse?)
    let fragment : Text.Fragment := ⟨['-', '.', '5', 'e', '+', '3'], 7⟩
    let token := Token.number (Float.ofBits 0xC07F400000000000)
    TakesLongest (Rule.all Numeral.parse?) scan ∧ ParsesLiterals Numeral.parse? ∧
      classify scan fragment = .ok token ∧
      (Lexeme.ofFragment fragment).result = .ok ⟨token, 7⟩ := by
  intro scan fragment token
  have hscan : TakesLongest (Rule.all Numeral.parse?) scan := Scanner.takesLongest_longest _
  have hparse : ParsesLiterals Numeral.parse? := parsesLiterals_parse?
  obtain ⟨hok, -, hread⟩ := classify_result hscan fragment
  have hliteral : Numeral.IsLiteral fragment.chars := .inr (by decide)
  have hfound : classify scan fragment = .ok token :=
    (hok token).mpr (.number hliteral (by decide +kernel) (by decide +kernel))
  refine ⟨hscan, hparse, hfound, ?_⟩
  rw [hread hparse, hfound]
  rfl

end Calculator
