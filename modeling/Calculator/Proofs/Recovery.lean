import Calculator.CommandLine.Transcript
import Calculator.Proofs.LiteralGrammar
import Calculator.Proofs.Messages

/-!
# Errors recovered from their messages

A message tells which error it reports.  The number of its column ends at the first character
that is no digit, the words behind it begin with another character for every kind of error,
and what they enclose lies between an opening and a closing that are fixed.  So a fragment, a
symbol or details are found again whatever they hold, the quotes and the words of other
messages included.
-/

namespace Calculator

/-! ## Enclosed text -/

namespace Text

def between? (opening closing : String) (text : List Char) : Option (List Char) :=
  (opening.toList.isPrefixOf? text).bind closing.toList.isSuffixOf?

@[simp] theorem between?_append (opening closing : String) (inner : List Char) :
    between? opening closing (opening.toList ++ (inner ++ closing.toList)) = some inner := by
  have hopening : opening.toList.isPrefixOf? (opening.toList ++ (inner ++ closing.toList)) =
      some (inner ++ closing.toList) :=
    List.isPrefixOf?_eq_some_iff_append_eq.mpr rfl
  have hclosing : closing.toList.isSuffixOf? (inner ++ closing.toList) = some inner :=
    List.isSuffixOf?_eq_some_iff_append_eq.mpr rfl
  rw [between?, hopening, Option.bind_some, hclosing]

theorem toList_enclosed (opening inner closing : String) :
    (opening ++ inner ++ closing).toList =
      opening.toList ++ (inner.toList ++ closing.toList) := by
  rw [String.toList_append, String.toList_append, List.append_assoc]

end Text

namespace EvalError

open Text

/-! ## Columns -/

def located? (text : List Char) : Option (Nat × List Char) :=
  ("Error at column ".toList.isPrefixOf? text).bind fun rest =>
    (between? ": " "." (rest.dropWhile Char.isDigit)).map fun words =>
      (Nat.ofDigitChars 10 (rest.takeWhile Char.isDigit) 0, words)

theorem toList_located (column : Nat) (text : String) :
    (located column text).toList = "Error at column ".toList ++
      (Nat.toDigits 10 column ++ (": ".toList ++ (text.toList ++ ".".toList))) := by
  unfold located
  simp only [String.toList_append, toList_toString, List.append_assoc]
  rfl

@[simp] theorem located?_located (column : Nat) (text : String) :
    located? (located column text).toList = some (column, text.toList) := by
  have hdigits : ∀ c ∈ Nat.toDigits 10 column, c.isDigit = true := fun _ => isDigit_of_mem_digits
  have hstops : Numeral.Stops (": ".toList ++ (text.toList ++ ".".toList)) := by
    simp [Numeral.Stops]
  rw [toList_located, located?, List.isPrefixOf?_eq_some_iff_append_eq.mpr rfl, Option.bind_some,
    Numeral.takeWhile_digits hdigits hstops, Numeral.dropWhile_digits hdigits hstops,
    between?_append, Option.map_some, Nat.ofDigitChars_ten_toDigits]

/-! ## Words behind a column -/

def ofWords? (column : Nat) (words : List Char) : Option EvalError :=
  match words.head? with
  | some '\'' =>
      (between? "'" "' is not a number, operator or parenthesis" words).map fun fragment =>
        malformedToken (String.ofList fragment) column
  | some 'O' =>
      (between? "Operator '" "' is missing an operand" words).bind fun symbols =>
        symbols.head?.map fun symbol => insufficientOperands symbol column
  | some 'E' => some (insufficientOperands ')' column)
  | some 'U' => some (unbalancedParentheses column)
  | some 'D' => some (divisionByZero column)
  | _ => none

theorem ofWords?_fragment (column : Nat) (fragment : String) :
    ofWords? column (s!"'{fragment}' is not a number, operator or parenthesis").toList =
      some (malformedToken fragment column) := by
  have hwords := toList_enclosed "'" fragment "' is not a number, operator or parenthesis"
  refine (congrArg (ofWords? column) hwords).trans ?_
  rw [ofWords?, between?_append]
  simp

theorem ofWords?_symbol (column : Nat) (symbol : Char) :
    ofWords? column (s!"Operator '{symbol}' is missing an operand").toList =
      some (insufficientOperands symbol column) := by
  have hwords := toList_enclosed "Operator '" (String.singleton symbol) "' is missing an operand"
  refine (congrArg (ofWords? column) hwords).trans ?_
  rw [ofWords?, between?_append]
  simp

/-! ## Messages -/

/-- The only error that can have a text as its message. -/
def candidate? (text : List Char) : Option EvalError :=
  ((located? text).bind fun found => ofWords? found.1 found.2).or
    ((between? "Malformed expression: " "." text).map fun details =>
      malformedExpression (String.ofList details))

theorem candidate?_located (column : Nat) (text : String) {error : EvalError}
    (h : ofWords? column text.toList = some error) :
    candidate? (located column text).toList = some error := by
  rw [candidate?, located?_located, Option.bind_some, h, Option.some_or]

theorem candidate?_message (error : EvalError) :
    candidate? error.message.toList = some error := by
  cases error with
  | malformedToken fragment column =>
      exact candidate?_located column _ (ofWords?_fragment column fragment)
  | insufficientOperands symbol column =>
      by_cases hclose : symbol = ')'
      · subst hclose
        exact candidate?_located column "Empty parentheses" rfl
      · have hmessage : (insufficientOperands symbol column).message =
            located column s!"Operator '{symbol}' is missing an operand" :=
          if_neg hclose
        rw [hmessage]
        exact candidate?_located column _ (ofWords?_symbol column symbol)
  | unbalancedParentheses column =>
      exact candidate?_located column "Unbalanced parentheses" rfl
  | malformedExpression details =>
      have hmessage := toList_enclosed "Malformed expression: " details "."
      refine (congrArg candidate? hmessage).trans ?_
      have hplace :
          located? ("Malformed expression: ".toList ++ (details.toList ++ ".".toList)) = none :=
        rfl
      rw [candidate?, hplace, between?_append]
      simp
  | divisionByZero column =>
      exact candidate?_located column "Division by zero" rfl

/-- The error whose message a text is: a candidate counts only if it is written that way. -/
def ofMessage? (text : String) : Option EvalError :=
  (candidate? text.toList).filter fun error => error.message = text

theorem ofMessage?_eq_some_iff {text : String} {error : EvalError} :
    ofMessage? text = some error ↔ error.message = text := by
  rw [ofMessage?, Option.filter_eq_some_iff, decide_eq_true_eq]
  constructor
  · exact And.right
  · rintro rfl
    exact ⟨candidate?_message error, rfl⟩

example :
    ofMessage? "Error at column 3: 'x' is not a number.' is not a number, operator or parenthesis." =
      some (malformedToken "x' is not a number." 3) :=
  ofMessage?_eq_some_iff.mpr (by decide)

theorem message_inj {error other : EvalError} :
    error.message = other.message ↔ error = other := by
  constructor
  · intro h
    have hother : ofMessage? error.message = some other := ofMessage?_eq_some_iff.mpr h.symm
    rw [ofMessage?_eq_some_iff.mpr rfl] at hother
    exact Option.some.inj hother
  · exact congrArg message

end EvalError

/-! ## Printed refusals -/

open CommandLine

theorem line_refusal_inj {expression : String} {error other : EvalError} :
    (Record.refusal expression error).line = (Record.refusal expression other).line ↔
      error = other := by
  change expression ++ ": " ++ error.message = expression ++ ": " ++ other.message ↔ _
  rw [String.append_right_inj, EvalError.message_inj]

/-- No two errors share a message, and the one that has it is read off it. -/
theorem message_determines_error (error other : EvalError) :
    (error.message = other.message ↔ error = other) ∧
      (∀ text, EvalError.ofMessage? text = some error ↔ error.message = text) ∧
      ∀ expression, (Record.refusal expression error).line =
        (Record.refusal expression other).line ↔ error = other :=
  ⟨EvalError.message_inj, fun _ => EvalError.ofMessage?_eq_some_iff, fun _ => line_refusal_inj⟩

end Calculator
