import Mathlib.Data.List.Forall2
import Calculator.CommandLine.Output
import Calculator.Proofs.CommandWords
import Calculator.Proofs.Spelling

/-!
# Expressions from files

The expressions of a file are its lines, trimmed, without the empty ones and the comments.
How a line ends makes no difference to them: a carriage return before a line feed is trimmed
away, and a line feed at the end of the text only adds an empty line.

A run over files writes what the run over their expressions writes.  Without expressions it
writes nothing, and with a file that cannot be read it evaluates nothing.
-/

namespace Calculator

namespace Text

/-! ## Lines -/

/--
The lines of a text, each without the line feed at its end and without a carriage return
before that.  Nothing follows the last line feed but a line that is not empty.
-/
def lines : List Char → List (List Char)
  | [] => []
  | '\n' :: rest => [] :: lines rest
  | '\r' :: '\n' :: rest => [] :: lines rest
  | c :: rest =>
      match lines rest with
      | [] => [[c]]
      | line :: more => (c :: line) :: more

def expressionsIn (text : List Char) : List (List Char) :=
  ((lines text).map trim).filter fun line => line ≠ [] ∧ line.head? ≠ some '#'

/-! ## Blanks at the end of a line -/

theorem Gap.dropWhile_eq_nil {gap : List Char} (h : Gap gap) : gap.dropWhile isBlank = [] := by
  simpa using dropWhile_gap h []

theorem trim_append_gap {gap : List Char} (h : Gap gap) (chars : List Char) :
    trim (chars ++ gap) = trim chars := by
  change trimEnd ((chars ++ gap).dropWhile isBlank) = trimEnd (chars.dropWhile isBlank)
  rw [List.dropWhile_append]
  split
  · rename_i hempty
    rw [h.dropWhile_eq_nil, List.isEmpty_iff.mp hempty]
  · exact trimEnd_append_gap h _

def Trails (long short : List Char) : Prop := ∃ gap, Gap gap ∧ long = short ++ gap

theorem Trails.refl (line : List Char) : Trails line line := ⟨[], gap_nil, by simp⟩

theorem Trails.cons {long short : List Char} (h : Trails long short) (c : Char) :
    Trails (c :: long) (c :: short) := by
  obtain ⟨gap, hgap, rfl⟩ := h
  exact ⟨gap, hgap, rfl⟩

theorem trails_return : Trails ['\r'] [] := ⟨['\r'], by decide, rfl⟩

def kept (pieces : List (List Char)) : List (List Char) :=
  (pieces.map trim).filter CommandLine.holdsExpression

@[simp] theorem kept_append (pieces others : List (List Char)) :
    kept (pieces ++ others) = kept pieces ++ kept others := by
  simp [kept]

theorem kept_of_trails {pieces others : List (List Char)} (h : List.Forall₂ Trails pieces others) :
    kept pieces = kept others := by
  have hmap : pieces.map trim = others.map trim := by
    induction h with
    | nil => rfl
    | cons hpiece _ ih =>
        obtain ⟨gap, hgap, rfl⟩ := hpiece
        rw [List.map_cons, List.map_cons, trim_append_gap hgap, ih]
  rw [kept, hmap, kept]

theorem trails_split (c : Char) {pieces others : List (List Char)}
    (h : List.Forall₂ Trails pieces others) :
    List.Forall₂ Trails (pieces.modifyHead (c :: ·)) (others.modifyHead (c :: ·)) := by
  cases h with
  | nil => exact .nil
  | cons hpiece hrest => exact .cons (hpiece.cons c) hrest

theorem trails_lines (text : List Char) :
    ∃ last, (last = [] ∨ last = [[]]) ∧
      List.Forall₂ Trails (text.splitOnP (· == '\n')) (lines text ++ last) := by
  fun_induction lines text with
  | case1 => exact ⟨[[]], .inr rfl, .cons (.refl []) .nil⟩
  | case2 rest ih =>
      obtain ⟨last, hlast, hlines⟩ := ih
      refine ⟨last, hlast, ?_⟩
      rw [List.splitOnP_cons_eq_if_modifyHead]
      exact .cons (.refl []) hlines
  | case3 rest ih =>
      obtain ⟨last, hlast, hlines⟩ := ih
      refine ⟨last, hlast, ?_⟩
      simp only [List.splitOnP_cons_eq_if_modifyHead]
      exact .cons trails_return hlines
  | case4 c rest hfeed _ hnone ih =>
      obtain ⟨last, hlast, hlines⟩ := ih
      rw [hnone, List.nil_append] at hlines
      refine ⟨[], .inl rfl, ?_⟩
      rw [List.splitOnP_cons_eq_if_modifyHead, if_neg (by simpa using hfeed)]
      obtain rfl | rfl := hlast
      · exact absurd (List.forall₂_nil_right_iff.mp hlines) (List.splitOnP_ne_nil _ _)
      · exact trails_split c hlines
  | case5 c rest hfeed _ line more hlines ih =>
      obtain ⟨last, hlast, htrails⟩ := ih
      rw [hlines] at htrails
      refine ⟨last, hlast, ?_⟩
      rw [List.splitOnP_cons_eq_if_modifyHead, if_neg (by simpa using hfeed)]
      exact trails_split c htrails

theorem kept_splitOnP (text : List Char) :
    kept (text.splitOnP (· == '\n')) = expressionsIn text := by
  obtain ⟨last, hlast, hlines⟩ := trails_lines text
  have hnone : kept last = [] := by
    obtain rfl | rfl := hlast
    · rfl
    · rfl
  rw [kept_of_trails hlines, kept_append, hnone, List.append_nil, kept, expressionsIn]
  congr 1
  funext line
  rw [Bool.eq_iff_iff]
  cases line <;> simp [CommandLine.holdsExpression]

/-! ## Ends of lines -/

/-- Carriage returns may have come before line feeds, and line feeds to the end of the text. -/
inductive Relaid (text : List Char) : List Char → Prop
  | same : Relaid text text
  | carriageReturn {before after : List Char} : Relaid text (before ++ '\n' :: after) →
      Relaid text (before ++ '\r' :: '\n' :: after)
  | lineFeed {other : List Char} : Relaid text other → Relaid text (other ++ ['\n'])

theorem kept_splitOnP_return (text : List Char) :
    kept ((text ++ ['\r']).splitOnP (· == '\n')) = kept (text.splitOnP (· == '\n')) := by
  apply kept_of_trails
  induction text with
  | nil => exact .cons trails_return .nil
  | cons c rest ih =>
      rw [List.cons_append, List.splitOnP_cons_eq_if_modifyHead,
        List.splitOnP_cons_eq_if_modifyHead]
      split
      · exact .cons (.refl []) ih
      · exact trails_split c ih

theorem expressionsIn_append_feed (before after : List Char) :
    expressionsIn (before ++ '\n' :: after) = expressionsIn before ++ expressionsIn after := by
  simp only [← kept_splitOnP, ← kept_append]
  rw [List.splitOnP_append_cons before after (by rfl)]

theorem Relaid.expressionsIn_eq {text other : List Char} (h : Relaid text other) :
    expressionsIn other = expressionsIn text := by
  induction h with
  | same => rfl
  | @carriageReturn before after _ ih =>
      have hreturn : expressionsIn (before ++ ['\r']) = expressionsIn before := by
        rw [← kept_splitOnP, kept_splitOnP_return, kept_splitOnP]
      rw [List.append_cons, expressionsIn_append_feed, hreturn, ← expressionsIn_append_feed, ih]
  | lineFeed _ ih =>
      rw [expressionsIn_append_feed, ih]
      exact List.append_nil _

end Text

namespace CommandLine

/-! ## Files -/

theorem expressionLines_eq (text : String) :
    expressionLines text = (Text.expressionsIn text.toList).map String.ofList := by
  rw [← Text.kept_splitOnP]
  rfl

def expressionsOfTexts (texts : List String) : List String :=
  (texts.flatMap fun text => Text.expressionsIn text.toList).map String.ofList

theorem expressionsOf_of_readable {read : Reader} {paths texts : List String}
    (h : paths.map read = texts.map .ok) :
    expressionsOf read paths = .ok (expressionsOfTexts texts) := by
  induction paths generalizing texts with
  | nil =>
      obtain rfl : texts = [] := by simpa using h
      rfl
  | cons path paths ih =>
      cases texts with
      | nil => simp at h
      | cons text texts =>
          obtain ⟨hread, hrest⟩ := List.cons.inj h
          simp [expressionsOf, hread, ih hrest, expressionLines_eq, expressionsOfTexts, Except.map]

theorem expressionsOf_of_unreadable {read : Reader} {before after : List String} {path : String}
    {failure : ReadFailure} (hbefore : ∀ earlier ∈ before, ∃ text, read earlier = .ok text)
    (hpath : read path = .error failure) :
    expressionsOf read (before ++ path :: after) = .error (path, failure) := by
  induction before with
  | nil => simp [expressionsOf, hpath]
  | cons earlier before ih =>
      obtain ⟨⟨text, htext⟩, hrest⟩ := List.forall_mem_cons.mp hbefore
      simp [expressionsOf, htext, ih hrest, Except.map]

theorem exists_first_unreadable {read : Reader} {paths : List String}
    (h : ∃ path ∈ paths, ∃ failure, read path = .error failure) :
    ∃ before path failure after, paths = before ++ path :: after ∧
      (∀ earlier ∈ before, ∃ text, read earlier = .ok text) ∧ read path = .error failure := by
  induction paths with
  | nil => simp at h
  | cons path paths ih =>
      cases hread : read path with
      | error failure => exact ⟨[], path, failure, paths, rfl, by simp, hread⟩
      | ok text =>
          have hlater : ∃ path ∈ paths, ∃ failure, read path = .error failure := by
            simpa [hread] using h
          obtain ⟨before, unread, failure, after, rfl, hbefore, hunread⟩ := ih hlater
          have hreadable : ∀ earlier ∈ path :: before, ∃ text, read earlier = .ok text :=
            List.forall_mem_cons.mpr ⟨⟨text, hread⟩, hbefore⟩
          exact ⟨path :: before, unread, failure, after, rfl, hreadable, hunread⟩

/-- The same files can be read, and those that can differ in the ends of their lines only. -/
def SameLines (read other : Reader) (paths : List String) : Prop :=
  ∀ path ∈ paths, other path = read path ∨
    ∃ text relaid, read path = .ok text ∧ other path = .ok relaid ∧
      Text.Relaid text.toList relaid.toList

theorem SameLines.expressionsOf_eq {read other : Reader} {paths : List String}
    (h : SameLines read other paths) : expressionsOf other paths = expressionsOf read paths := by
  induction paths with
  | nil => rfl
  | cons path paths ih =>
      obtain ⟨hpath, hrest⟩ := List.forall_mem_cons.mp h
      obtain hsame | ⟨text, relaid, htext, hrelaid, hlines⟩ := hpath
      · simp [expressionsOf, hsame, ih hrest]
      · simp [expressionsOf, htext, hrelaid, ih hrest, expressionLines_eq, hlines.expressionsIn_eq]

/-! ## Runs over files -/

variable {read : Reader} {given : Arguments}

theorem transcript_of_files (hfiles : given.readsFiles = true) (hinputs : given.inputs ≠ []) :
    transcript read given =
      match expressionsOf read given.inputs with
      | .ok expressions => batch given.division expressions
      | .error (path, failure) => [.unreadable path failure] := by
  cases hfound : expressionsOf read given.inputs <;> simp [transcript, hinputs, hfiles, hfound]

theorem transcript_of_expressions (hfiles : given.readsFiles = false)
    (hinputs : given.inputs ≠ []) : transcript read given = batch given.division given.inputs := by
  simp [transcript, hinputs, hfiles]

/--
Runs over files.  If all of them can be read, the run writes what the same command line
writes without its flag for files and with the expressions of the files behind `--`; if the
files hold no expression, it succeeds and writes nothing.  Carriage returns before line feeds
and a line feed at the end make no difference.  If a file cannot be read, the first such file
is reported and nothing else is done.
-/
theorem respond_files {arguments : List String}
    (hrun : Request.ofArguments arguments = .evaluate given) (hfiles : given.readsFiles = true)
    (hinputs : given.inputs ≠ []) :
    (∀ texts, given.inputs.map read = texts.map .ok →
      (expressionsOfTexts texts ≠ [] → ∀ other, respond read arguments =
        respond other (without .file (options arguments ++ "--" :: expressionsOfTexts texts))) ∧
      (expressionsOfTexts texts = [] →
        transcript read given = [] ∧ respond read arguments = ⟨0, "", ""⟩)) ∧
    (∀ other, SameLines read other given.inputs →
      respond other arguments = respond read arguments) ∧
    ((∃ path ∈ given.inputs, ∃ failure, read path = .error failure) →
      ∃ before path failure after, given.inputs = before ++ path :: after ∧
        (∀ earlier ∈ before, ∃ text, read earlier = .ok text) ∧ read path = .error failure ∧
        transcript read given = [.unreadable path failure] ∧
        respond read arguments = ⟨1, "", unlines [
          s!"Failed to read the input file '{path}'. Perhaps this file does not exist? ({failure.cause})"]⟩) := by
  refine ⟨fun texts htexts => ⟨fun hsome other => ?_, fun hnone => ?_⟩, fun other hlines => ?_, ?_⟩
  · have hargument := Request.ofArguments_without .file
      (Request.ofArguments_options hrun (expressionsOfTexts texts))
    rw [respond_of_evaluate hrun, respond_of_evaluate hargument, transcript_of_files hfiles hinputs,
      expressionsOf_of_readable htexts, transcript_of_expressions rfl hsome]
    rfl
  · have hempty : transcript read given = [] := by
      rw [transcript_of_files hfiles hinputs, expressionsOf_of_readable htexts, hnone]
      rfl
    rw [respond_of_evaluate hrun, hempty]
    exact ⟨rfl, rfl⟩
  · rw [respond_of_evaluate hrun, respond_of_evaluate hrun, transcript_of_files hfiles hinputs,
      transcript_of_files hfiles hinputs, hlines.expressionsOf_eq]
  · intro hunreadable
    obtain ⟨before, path, failure, after, hsplit, hbefore, hpath⟩ :=
      exists_first_unreadable hunreadable
    have hreport : transcript read given = [.unreadable path failure] := by
      rw [transcript_of_files hfiles hinputs, hsplit, expressionsOf_of_unreadable hbefore hpath]
    refine ⟨before, path, failure, after, hsplit, hbefore, hpath, hreport, ?_⟩
    rw [respond_of_evaluate hrun, hreport]
    rfl

def twoFiles : Reader
  | "totals" => .ok "# totals\r\n\u2003 1 + 2 \r\n\r\n"
  | "ratios" => .ok "3 / 0\n-1 * 2"
  | _ => .error .missing

theorem respond_files_twoFiles :
    (Request.ofArguments ["-vf", "totals", "--strict-division", "ratios"] =
        .evaluate ⟨true, true, 1, ["totals", "ratios"]⟩ ∧
      ["totals", "ratios"].map twoFiles =
        ["# totals\r\n\u2003 1 + 2 \r\n\r\n", "3 / 0\n-1 * 2"].map .ok) ∧
    ∀ other, respond twoFiles ["-vf", "totals", "--strict-division", "ratios"] =
      respond other ["-v", "--strict-division", "--", "1 + 2", "3 / 0", "-1 * 2"] := by
  have hrun : Request.ofArguments ["-vf", "totals", "--strict-division", "ratios"] =
      .evaluate ⟨true, true, 1, ["totals", "ratios"]⟩ := by decide +kernel
  have htexts : ["totals", "ratios"].map twoFiles =
      ["# totals\r\n\u2003 1 + 2 \r\n\r\n", "3 / 0\n-1 * 2"].map .ok := by rfl
  have hwords : without .file (options ["-vf", "totals", "--strict-division", "ratios"] ++ "--" ::
      expressionsOfTexts ["# totals\r\n\u2003 1 + 2 \r\n\r\n", "3 / 0\n-1 * 2"]) =
      ["-v", "--strict-division", "--", "1 + 2", "3 / 0", "-1 * 2"] := by decide +kernel
  refine ⟨⟨hrun, htexts⟩, fun other => ?_⟩
  rw [← hwords]
  exact ((respond_files hrun rfl (by simp)).1 _ htexts).1 (by decide +kernel) other

end CommandLine

end Calculator
