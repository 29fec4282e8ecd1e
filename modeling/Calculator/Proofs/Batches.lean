import Calculator.CommandLine.Output
import Calculator.Proofs.Logging

/-!
# Batches

Without verbosity a run shows one line for each of its expressions, on one stream if it has a
value and on the other one if it is refused, and a warning with the count of those refused, if
there are any.  No expression has a say in the line of another one, so a batch of two lists
shows the lines of the one and then those of the other, and the counts add up.
-/

namespace Calculator.CommandLine

/-! ## Lines -/

def answer? (division : DivisionPolicy) (expression : String) : Option String :=
  match (evaluate division expression).result with
  | .ok value => some s!"{expression} = {Layout.plain.write value}"
  | .error _ => none

def refusal? (division : DivisionPolicy) (expression : String) : Option String :=
  match (evaluate division expression).result with
  | .ok _ => none
  | .error error => some s!"{expression}: {error.message}"

def answers (division : DivisionPolicy) (expressions : List String) : List String :=
  expressions.filterMap (answer? division)

def refusals (division : DivisionPolicy) (expressions : List String) : List String :=
  expressions.filterMap (refusal? division)

def failures (division : DivisionPolicy) (expressions : List String) : Nat :=
  expressions.countP fun expression => !(evaluate division expression).result.isOk

def warning (failed total : Nat) : List String :=
  if failed = 0 then []
  else [s!" WARN some expressions were rejected failed={failed} total={total}"]

theorem answers_cons (division : DivisionPolicy) (expression : String)
    (expressions : List String) :
    answers division (expression :: expressions) =
      (answer? division expression).toList ++ answers division expressions := by
  rw [answers, List.filterMap_cons]
  cases answer? division expression <;> rfl

theorem refusals_cons (division : DivisionPolicy) (expression : String)
    (expressions : List String) :
    refusals division (expression :: expressions) =
      (refusal? division expression).toList ++ refusals division expressions := by
  rw [refusals, List.filterMap_cons]
  cases refusal? division expression <;> rfl

@[simp] theorem answers_append (division : DivisionPolicy) (expressions more : List String) :
    answers division (expressions ++ more) =
      answers division expressions ++ answers division more :=
  List.filterMap_append

@[simp] theorem refusals_append (division : DivisionPolicy) (expressions more : List String) :
    refusals division (expressions ++ more) =
      refusals division expressions ++ refusals division more :=
  List.filterMap_append

@[simp] theorem failures_append (division : DivisionPolicy) (expressions more : List String) :
    failures division (expressions ++ more) =
      failures division expressions + failures division more :=
  List.countP_append

@[simp] theorem unlines_append (lines more : List String) :
    unlines (lines ++ more) = unlines lines ++ unlines more := by
  simp [unlines]

/-! ## Records of a batch -/

variable (division : DivisionPolicy)

def outcomeRecord (expression : String) : Record :=
  .ofResult expression (evaluate division expression).result

theorem not_shown_of_mem_events {expression : String} {event : Event}
    (h : event ∈ (evaluate division expression).events) : event.isShown 0 = false := by
  obtain ⟨steps, hsteps, hevents⟩ := exists_events_evaluate division expression
  rw [hevents] at h
  obtain hstep | hlast := List.mem_append.mp h
  · simp [Event.isShown, hsteps event hstep, Level.verbosity]
  · rw [List.mem_singleton.mp hlast]
    cases (evaluate division expression).result <;> rfl

theorem filter_flatMap_expressionRecords {isViewed : Record → Bool} (expressions : List String)
    (h : ∀ expression, ∀ event ∈ (evaluate division expression).events,
      isViewed (.log event) = false) :
    (expressions.flatMap (expressionRecords division)).filter isViewed =
      (expressions.map (outcomeRecord division)).filter isViewed := by
  induction expressions with
  | nil => rfl
  | cons expression expressions ih =>
      have hevents :
          ((evaluate division expression).events.map Record.log).filter isViewed = [] := by
        simpa using h expression
      rw [List.flatMap_cons, List.filter_append, ih, expressionRecords, List.filter_append, hevents,
        List.map_cons, List.nil_append]
      exact (List.filter_append [_] _).symm

theorem map_line_filter_isAnswer (expressions : List String) :
    ((expressions.map (outcomeRecord division)).filter Record.isAnswer).map Record.line =
      answers division expressions := by
  induction expressions with
  | nil => rfl
  | cons expression expressions ih =>
      rw [answers_cons, ← ih, answer?, List.map_cons, outcomeRecord]
      cases (evaluate division expression).result <;> rfl

theorem map_line_errorRecords (expressions : List String) :
    (errorRecords 0 (expressions.map (outcomeRecord division))).map Record.line =
      refusals division expressions := by
  induction expressions with
  | nil => rfl
  | cons expression expressions ih =>
      rw [refusals_cons, ← ih, refusal?, List.map_cons, outcomeRecord]
      cases (evaluate division expression).result <;> rfl

theorem countP_flatMap_expressionRecords {isViewed : Record → Bool}
    (hlog : ∀ event, isViewed (.log event) = false)
    (hresult : ∀ expression result, isViewed (.ofResult expression result) = !result.isOk)
    (expressions : List String) :
    (expressions.flatMap (expressionRecords division)).countP isViewed =
      failures division expressions := by
  rw [List.countP_eq_length_filter, filter_flatMap_expressionRecords division expressions
    fun _ event _ => hlog event, ← List.countP_eq_length_filter, List.countP_map, failures]
  apply List.countP_congr
  intro expression _
  rw [Function.comp, outcomeRecord, hresult]

theorem countP_isRefusal (expressions : List String) :
    (expressions.flatMap (expressionRecords division)).countP Record.isRefusal =
      failures division expressions := by
  apply countP_flatMap_expressionRecords division fun _ => rfl
  intro expression result
  cases result <;> rfl

theorem countP_isFailure (expressions : List String) :
    (expressions.flatMap (expressionRecords division)).countP Record.isFailure =
      failures division expressions := by
  apply countP_flatMap_expressionRecords division fun _ => rfl
  intro expression result
  cases result <;> rfl

/-! ## Output of a batch -/

theorem stdout_batch (verbosity : Nat) (expressions : List String) :
    (Output.ofRecords verbosity (batch division expressions)).stdout =
      unlines (answers division expressions) := by
  have hsummary (failed total : Nat) : (summary failed total).filter Record.isAnswer = [] := by
    unfold summary
    split <;> rfl
  simp only [Output.ofRecords, batch, List.filter_append, hsummary, List.append_nil]
  rw [filter_flatMap_expressionRecords division expressions fun _ _ _ => rfl,
    map_line_filter_isAnswer]

theorem map_line_errorRecords_summary (failed total : Nat) :
    (errorRecords 0 (summary failed total)).map Record.line = warning failed total := by
  unfold summary warning
  split <;> rfl

theorem stderr_batch (expressions : List String) :
    (Output.ofRecords 0 (batch division expressions)).stderr =
      unlines (refusals division expressions ++
        warning (failures division expressions) expressions.length) := by
  have hrecords : errorRecords 0 (expressions.flatMap (expressionRecords division)) =
      errorRecords 0 (expressions.map (outcomeRecord division)) :=
    filter_flatMap_expressionRecords division expressions fun _ _ hevent =>
      not_shown_of_mem_events division hevent
  have hsplit (records more : List Record) :
      errorRecords 0 (records ++ more) = errorRecords 0 records ++ errorRecords 0 more :=
    List.filter_append records more
  rw [stderr_ofRecords, batch, countP_isRefusal, hsplit, hrecords, List.map_append,
    map_line_errorRecords, map_line_errorRecords_summary]

theorem code_batch (verbosity : Nat) (expressions : List String) :
    (Output.ofRecords verbosity (batch division expressions)).code =
      if failures division expressions = 0 then 0 else 1 := by
  have hsummary (failed total : Nat) : (summary failed total).any Record.isFailure = false := by
    unfold summary
    split <;> rfl
  have hany : (batch division expressions).any Record.isFailure = true ↔
      failures division expressions ≠ 0 := by
    rw [batch, List.any_append, hsummary, Bool.or_false, List.any_eq_true, ← List.countP_pos_iff,
      countP_isFailure, Nat.pos_iff_ne_zero]
  simp only [Output.ofRecords, hany, ne_eq, ite_not]

/-! ## Runs without verbosity -/

def Arguments.expressions (read : Reader) (given : Arguments) :
    Except (String × ReadFailure) (List String) :=
  if given.inputs = [] then .ok demonstrationExpressions
  else if given.readsFiles then expressionsOf read given.inputs
  else .ok given.inputs

/-- The command line asks for these expressions to be evaluated, and for no details. -/
def RunsQuietly (read : Reader) (words : List String) (division : DivisionPolicy)
    (expressions : List String) : Prop :=
  ∃ given, Request.ofArguments words = .evaluate given ∧ given.verbosity = 0 ∧
    given.division = division ∧ given.expressions read = .ok expressions

variable {division} {read : Reader} {words expressions : List String}

theorem transcript_eq {given : Arguments} (h : given.expressions read = .ok expressions) :
    transcript read given = batch given.division expressions ∨
      transcript read given = .log .demonstration :: batch given.division expressions := by
  unfold Arguments.expressions at h
  unfold transcript
  split at h
  · obtain rfl := Except.ok.inj h
    exact .inr (by simp [*])
  · split at h
    · exact .inl (by simp [*])
    · obtain rfl := Except.ok.inj h
      exact .inl (by simp [*])

theorem RunsQuietly.respond_eq (h : RunsQuietly read words division expressions) :
    respond read words =
      ⟨if failures division expressions = 0 then 0 else 1, unlines (answers division expressions),
        unlines (refusals division expressions ++
          warning (failures division expressions) expressions.length)⟩ := by
  obtain ⟨given, hrun, hquiet, rfl, hexpressions⟩ := h
  have hbatch : Output.ofRecords 0 (transcript read given) =
      Output.ofRecords 0 (batch given.division expressions) := by
    obtain hsame | hopened := transcript_eq hexpressions
    · rw [hsame]
    · rw [hopened]
      rfl
  rw [respond_of_evaluate hrun, hquiet, hbatch, ← code_batch given.division 0,
    ← stdout_batch given.division 0, ← stderr_batch given.division]

/--
A run without verbosity shows a line for each of its expressions, in their order, and at last a
warning with the count of the refused ones, if there are any; its exit code is 0 if there are
none.  The lines of an expression are its own, whatever comes before or after it.  So a run
over two lists shows what runs over each of them show, with the counts of both added up.
-/
theorem respond_batch (h : RunsQuietly read words division expressions) :
    (respond read words).stdout = unlines (answers division expressions) ∧
    (respond read words).stderr = unlines (refusals division expressions ++
      warning (failures division expressions) expressions.length) ∧
    ((respond read words).code = 0 ↔ failures division expressions = 0) ∧
    (∀ before expression after, expressions = before ++ expression :: after →
      (respond read words).stdout = unlines (answers division before) ++
        unlines (answer? division expression).toList ++ unlines (answers division after) ∧
      (respond read words).stderr = unlines (refusals division before) ++
        unlines (refusal? division expression).toList ++ unlines (refusals division after) ++
        unlines (warning (failures division expressions) expressions.length)) ∧
    ∀ xs ys, expressions = xs ++ ys → ∀ readFirst first readSecond second,
      RunsQuietly readFirst first division xs → RunsQuietly readSecond second division ys →
      (respond read words).stdout =
        (respond readFirst first).stdout ++ (respond readSecond second).stdout ∧
      (respond read words).stderr = unlines (refusals division xs ++ refusals division ys ++
        warning (failures division xs + failures division ys) (xs.length + ys.length)) := by
  rw [h.respond_eq]
  refine ⟨rfl, rfl, by simp, ?_, ?_⟩
  · rintro before expression after rfl
    simp [answers_cons, refusals_cons, String.append_assoc]
  · rintro xs ys rfl readFirst first readSecond second hfirst hsecond
    rw [hfirst.respond_eq, hsecond.respond_eq]
    simp

theorem respond_batch_zeroDivision :
    let unread : Reader := fun _ => .error .missing
    RunsQuietly unread ["1 + 2", "1 / 0", "--strict-division", "2 * 3"] .reject
        ["1 + 2", "1 / 0", "2 * 3"] ∧
      (respond unread ["1 + 2", "1 / 0", "--strict-division", "2 * 3"]).stdout =
        (respond unread ["1 + 2", "--strict-division"]).stdout ++
          (respond unread ["--strict-division", "--", "1 / 0", "2 * 3"]).stdout ∧
      failures .reject ["1 + 2", "1 / 0", "2 * 3"] = 1 := by
  intro unread
  have hwhole : RunsQuietly unread ["1 + 2", "1 / 0", "--strict-division", "2 * 3"] .reject
      ["1 + 2", "1 / 0", "2 * 3"] :=
    ⟨⟨false, true, 0, ["1 + 2", "1 / 0", "2 * 3"]⟩, by decide +kernel, rfl, rfl, rfl⟩
  have hfirst : RunsQuietly unread ["1 + 2", "--strict-division"] .reject ["1 + 2"] :=
    ⟨⟨false, true, 0, ["1 + 2"]⟩, by decide +kernel, rfl, rfl, rfl⟩
  have hsecond : RunsQuietly unread ["--strict-division", "--", "1 / 0", "2 * 3"] .reject
      ["1 / 0", "2 * 3"] :=
    ⟨⟨false, true, 0, ["1 / 0", "2 * 3"]⟩, by decide +kernel, rfl, rfl, rfl⟩
  obtain ⟨-, -, -, -, hlists⟩ := respond_batch hwhole
  exact ⟨hwhole, (hlists ["1 + 2"] ["1 / 0", "2 * 3"] rfl _ _ _ _ hfirst hsecond).1,
    by decide +kernel⟩

end Calculator.CommandLine
