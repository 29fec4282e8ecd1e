import Mathlib.Logic.ExistsUnique
import Calculator.Proofs.Reading

/-!
# Exact reading

Every character that is no blank lies in exactly one run of its text.  So the tokens of a
text are fixed by its runs, and reading a text yields precisely these tokens, or it names
the first run that is no token.
-/

namespace Calculator

namespace Text

/-! ## The run of a character -/

/-- The character with index `i` is among the characters that stand from `column` on. -/
def Covers (column : Nat) (chars : List Char) (i : Nat) : Prop :=
  column ≤ i + 1 ∧ i + 1 < column + chars.length

theorem covers_add_iff {shift column : Nat} {chars : List Char} {i : Nat} :
    Covers (shift + column) chars (shift + i) ↔ Covers column chars i := by
  unfold Covers
  omega

theorem covers_first {word : List Char} {i : Nat} (hi : i < word.length) :
    word ≠ [] ∧ Covers 1 word i :=
  ⟨List.ne_nil_of_length_pos (Nat.zero_lt_of_lt hi), Nat.le_add_left 1 i, by omega⟩

theorem existsUnique_run {source : List Char} {i : Nat} {c : Char} (hc : source[i]? = some c)
    (hsolid : isBlank c = false) :
    ∃! run : Nat × List Char, RunAt source run.1 run.2 ∧ Covers run.1 run.2 i := by
  induction source using cut_induction generalizing i with
  | whole word hword =>
      obtain ⟨hi, -⟩ := List.getElem?_eq_some_iff.mp hc
      obtain ⟨hne, hcovers⟩ := covers_first hi
      refine ⟨(1, word), ⟨(runAt_word_iff hword).mpr ⟨hne, rfl, rfl⟩, hcovers⟩, ?_⟩
      rintro ⟨column, chars⟩ ⟨hrun, -⟩
      obtain ⟨-, hcolumn, hchars⟩ := (runAt_word_iff hword).mp hrun
      exact Prod.ext hcolumn hchars
  | cut word blank rest hword hblank ih =>
      rcases Nat.lt_trichotomy i word.length with hlt | heq | hgt
      · obtain ⟨hne, hcovers⟩ := covers_first hlt
        refine ⟨(1, word), ⟨(runAt_cut_iff hword hblank).mpr (.inl ⟨hne, rfl, rfl⟩), hcovers⟩, ?_⟩
        rintro ⟨column, chars⟩ ⟨hrun, hstart, -⟩
        rcases (runAt_cut_iff hword hblank).mp hrun with ⟨-, hcolumn, hchars⟩ | ⟨later, hcolumn, -⟩
        · exact Prod.ext hcolumn hchars
        · dsimp only at hcolumn hstart
          omega
      · rw [heq, List.getElem?_append_right (Nat.le_refl _), Nat.sub_self] at hc
        obtain rfl : blank = c := Option.some.inj hc
        rw [hblank] at hsolid
        exact absurd hsolid.symm Bool.false_ne_true
      · obtain ⟨j, rfl⟩ : ∃ j, i = word.length + 1 + j := ⟨i - (word.length + 1), by omega⟩
        have hshift : word.length + 1 + j - word.length = j + 1 := by omega
        rw [List.getElem?_append_right (by omega), hshift, List.getElem?_cons_succ] at hc
        obtain ⟨⟨column, chars⟩, ⟨hrun, hcovers⟩, hunique⟩ := ih hc
        refine ⟨(word.length + 1 + column, chars), ⟨?_, covers_add_iff.mpr hcovers⟩, ?_⟩
        · exact (runAt_cut_iff hword hblank).mpr (.inr ⟨column, rfl, hrun⟩)
        · rintro ⟨column', chars'⟩ ⟨hrun', hcovers'⟩
          have hplace := (runAt_cut_iff hword hblank).mp hrun'
          rcases hplace with ⟨-, hcolumn, hchars⟩ | ⟨later, hcolumn, hlater⟩
          · obtain ⟨-, hend⟩ := hcovers'
            dsimp only at hcolumn hchars hend
            subst hchars
            omega
          · dsimp only at hcolumn hcovers'
            rw [hcolumn, covers_add_iff] at hcovers'
            obtain ⟨hsame, hchars⟩ := Prod.mk.inj (hunique (later, chars') ⟨hlater, hcovers'⟩)
            exact Prod.ext (by rw [hcolumn, hsame]) hchars

theorem RunAt.unique {source chars chars' : List Char} {column : Nat}
    (h : RunAt source column chars) (h' : RunAt source column chars') : chars = chars' := by
  have hcovers {chars : List Char} (hrun : RunAt source column chars) :
      ∃ i c, column = i + 1 ∧ source[i]? = some c ∧ isBlank c = false ∧ Covers column chars i := by
    obtain ⟨before, after, rfl, rfl, hne, hsolid, -, -⟩ := hrun
    obtain ⟨c, others, rfl⟩ := List.exists_cons_of_ne_nil hne
    refine ⟨before.length, c, rfl, by simp, hsolid c List.mem_cons_self, Nat.le_refl _, ?_⟩
    rw [List.length_cons]
    omega
  obtain ⟨i, c, hcolumn, hc, hsolid, hfirst⟩ := hcovers h
  obtain ⟨i', _, hcolumn', -, -, hsecond⟩ := hcovers h'
  obtain rfl : i = i' := by omega
  have hsame : (column, chars) = (column, chars') :=
    (existsUnique_run hc hsolid).unique ⟨h, hfirst⟩ ⟨h', hsecond⟩
  exact (Prod.mk.inj hsame).2

end Text

/-! ## The tokens of a text -/

theorem Reads.unique {source : List Char} {lexemes lexemes' : List Lexeme}
    (h : Reads source lexemes) (h' : Reads source lexemes') : lexemes = lexemes' := by
  have hnodup {lexemes : List Lexeme} (ordered : lexemes.Pairwise (·.column < ·.column)) :
      lexemes.Nodup := by
    refine ordered.imp ?_
    intro first second hlt heq
    exact absurd (heq ▸ hlt) (Nat.lt_irrefl _)
  have hperm : lexemes.Perm lexemes' :=
    (List.perm_ext_iff_of_nodup (hnodup h.ordered) (hnodup h'.ordered)).mpr
      fun lexeme => (h.mem_iff lexeme).trans (h'.mem_iff lexeme).symm
  exact hperm.eq_of_pairwise (fun _ _ _ _ hlt hgt => absurd hgt (Nat.lt_asymm hlt)) h.ordered
    h'.ordered

theorem FirstUnread.unique {source chars chars' : List Char} {column column' : Nat}
    (h : FirstUnread source column chars) (h' : FirstUnread source column' chars') :
    column = column' ∧ chars = chars' := by
  rcases Nat.lt_trichotomy column column' with hlt | heq | hgt
  · exact absurd (h'.first column chars hlt h.runAt) h.unread
  · subst heq
    exact ⟨rfl, h.runAt.unique h'.runAt⟩
  · exact absurd (h.first column' chars' hgt h'.runAt) h'.unread

def Lexeme.Covers (source : List Char) (lexeme : Lexeme) (i : Nat) : Prop :=
  ∃ chars, Text.RunAt source lexeme.column chars ∧
    Token.Written Numeral.parse? chars lexeme.token ∧ Text.Covers lexeme.column chars i

theorem Reads.existsUnique_covering {source : List Char} {lexemes : List Lexeme}
    (h : Reads source lexemes) {i : Nat} {c : Char} (hc : source[i]? = some c)
    (hsolid : Text.isBlank c = false) :
    ∃! lexeme, lexeme ∈ lexemes ∧ lexeme.Covers source i := by
  obtain ⟨⟨column, chars⟩, ⟨hrun, hcovers⟩, hunique⟩ := Text.existsUnique_run hc hsolid
  obtain ⟨token, htoken⟩ := h.complete column chars hrun
  refine ⟨⟨token, column⟩, ⟨?_, chars, hrun, htoken, hcovers⟩, ?_⟩
  · exact (h.mem_iff ⟨token, column⟩).mpr ⟨chars, hrun, htoken⟩
  · rintro ⟨token', column'⟩ ⟨-, chars', hrun', htoken', hcovers'⟩
    obtain ⟨hcolumn, hchars⟩ := Prod.mk.inj (hunique (column', chars') ⟨hrun', hcovers'⟩)
    subst hchars
    rw [hcolumn, htoken.unique htoken']

/-! ## Reading -/

theorem tokenize_ok_iff {source : String} {lexemes : List Lexeme} :
    (tokenize source).result = .ok lexemes ↔ Reads source.toList lexemes := by
  constructor
  · exact reads_of_tokenize_ok
  · intro hreads
    cases hresult : (tokenize source).result with
    | ok others => rw [hreads.unique (reads_of_tokenize_ok hresult)]
    | error error =>
        obtain ⟨column, chars, hfirst, -⟩ := firstUnread_of_tokenize_error hresult
        exact absurd (hreads.complete column chars hfirst.runAt) hfirst.unread

theorem tokenize_error_iff {source : String} {error : EvalError} :
    (tokenize source).result = .error error ↔
      ∃ column chars, FirstUnread source.toList column chars ∧
        error = .malformedToken (String.ofList chars) column := by
  constructor
  · exact firstUnread_of_tokenize_error
  · rintro ⟨column, chars, hfirst, herror⟩
    cases hresult : (tokenize source).result with
    | ok lexemes =>
        have hread := (reads_of_tokenize_ok hresult).complete column chars hfirst.runAt
        exact absurd hread hfirst.unread
    | error other =>
        obtain ⟨column', chars', hfirst', hother⟩ := firstUnread_of_tokenize_error hresult
        obtain ⟨hcolumn, hchars⟩ := hfirst.unique hfirst'
        rw [herror, hother, hcolumn, hchars]

/--
Reading a text is exact.  It succeeds if and only if every run of characters is a token as
a whole.  Then it yields one token for each run, in their order and each at the column of
its run, so that every character that is no blank belongs to exactly one token.  Otherwise
it names the first run that is no token, with its characters and its column.
-/
theorem tokenize_result (source : String) :
    ((∃ lexemes, (tokenize source).result = .ok lexemes) ↔
        ∀ column chars, Text.RunAt source.toList column chars →
          ∃ token, Token.Written Numeral.parse? chars token) ∧
      (∀ lexemes, (tokenize source).result = .ok lexemes ↔ Reads source.toList lexemes) ∧
      (∀ lexemes, Reads source.toList lexemes → ∀ i c, source.toList[i]? = some c →
        Text.isBlank c = false → ∃! lexeme, lexeme ∈ lexemes ∧ lexeme.Covers source.toList i) ∧
      ∀ error, (tokenize source).result = .error error ↔
        ∃ column chars, FirstUnread source.toList column chars ∧
          error = .malformedToken (String.ofList chars) column := by
  refine ⟨⟨?_, ?_⟩, fun _ => tokenize_ok_iff, ?_, fun _ => tokenize_error_iff⟩
  · rintro ⟨lexemes, hlexemes⟩
    exact (reads_of_tokenize_ok hlexemes).complete
  · intro hall
    cases hresult : (tokenize source).result with
    | ok lexemes => exact ⟨lexemes, rfl⟩
    | error error =>
        obtain ⟨column, chars, hfirst, -⟩ := firstUnread_of_tokenize_error hresult
        exact absurd (hall column chars hfirst.runAt) hfirst.unread
  · intro lexemes hreads i c hc hsolid
    exact hreads.existsUnique_covering hc hsolid

theorem tokenize_result_wideBlanks :
    let source := "\u3000(\u2003-2.5e1\u00a0* .5\u0085)\n"
    let lexemes : List Lexeme := [⟨.openParen, 2⟩, ⟨.number (-25), 4⟩, ⟨.operator .mul, 11⟩,
      ⟨.number 0.5, 13⟩, ⟨.closeParen, 16⟩]
    let refused := "1\u2003√\u200b4 é"
    (tokenize source).result = .ok lexemes ∧ Reads source.toList lexemes ∧
      (∃! lexeme, lexeme ∈ lexemes ∧ lexeme.Covers source.toList 7) ∧
      (tokenize refused).result = .error (.malformedToken "√\u200b4" 3) ∧
      FirstUnread refused.toList 3 "√\u200b4".toList := by
  intro source lexemes refused
  have hok : (tokenize source).result = .ok lexemes := by decide +kernel
  have herror : (tokenize refused).result = .error (.malformedToken "√\u200b4" 3) := by
    decide +kernel
  obtain ⟨-, hread, hcover, -⟩ := tokenize_result source
  obtain ⟨-, -, -, hrefuse⟩ := tokenize_result refused
  have hreads : Reads source.toList lexemes := (hread lexemes).mp hok
  obtain ⟨column, chars, hfirst, hsame⟩ := (hrefuse _).mp herror
  obtain ⟨htext, rfl⟩ := EvalError.malformedToken.inj hsame
  have hchars : "√\u200b4".toList = chars := by rw [htext, String.toList_ofList]
  refine ⟨hok, hreads, ?_, herror, hchars ▸ hfirst⟩
  exact hcover lexemes hreads 7 'e' (by decide) (by decide)

end Calculator
