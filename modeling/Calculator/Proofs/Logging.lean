import Mathlib.Data.List.Basic
import Calculator.CommandLine.Output
import Calculator.Proofs.CommandWords
import Calculator.Proofs.Reaches

/-!
# The log

What an evaluation reports of its steps is traced, and how it ends is one more event for
debugging; it gives no warning.  So the records that are not of the log, and the warning at
the end of a run, are the same at every verbosity, and a higher verbosity only puts further
records between them.
-/

namespace Calculator

/-! ## Levels of events -/

def OnlyTraces (events : List Event) : Prop := ∀ event ∈ events, event.level = .trace

@[simp] theorem onlyTraces_nil : OnlyTraces [] := by
  simp [OnlyTraces]

@[simp] theorem onlyTraces_cons_iff {event : Event} {events : List Event} :
    OnlyTraces (event :: events) ↔ event.level = .trace ∧ OnlyTraces events := by
  simp [OnlyTraces]

@[simp] theorem onlyTraces_append_iff {events more : List Event} :
    OnlyTraces (events ++ more) ↔ OnlyTraces events ∧ OnlyTraces more :=
  List.forall_mem_append

namespace Outcome

@[simp] theorem onlyTraces_accepted (state : Stacks) : OnlyTraces (accepted state).events :=
  onlyTraces_nil

@[simp] theorem onlyTraces_failed (state : Stacks) (error : EvalError) :
    OnlyTraces (failed state error).events :=
  onlyTraces_nil

@[simp] theorem onlyTraces_after_iff {event : Event} {outcome : Outcome} :
    OnlyTraces (after event outcome).events ↔ event.level = .trace ∧ OnlyTraces outcome.events :=
  onlyTraces_cons_iff

theorem onlyTraces_andThen {first : Outcome} {next : Stacks → Outcome}
    (hfirst : OnlyTraces first.events) (hnext : ∀ state, OnlyTraces (next state).events) :
    OnlyTraces (first.andThen next).events := by
  unfold Outcome.andThen
  split
  · exact hfirst
  · simp [hfirst, hnext]

end Outcome

theorem Traced.onlyTraces_bind {α β : Type} {first : Traced α} {next : α → Traced β}
    (hfirst : OnlyTraces first.events) (hnext : ∀ a, OnlyTraces (next a).events) :
    OnlyTraces (first >>= next).events := by
  change OnlyTraces (first.bind next).events
  unfold Traced.bind
  split
  · simp [hfirst, hnext]
  · exact hfirst

/-! ## Events of a run -/

namespace Stacks

open Outcome

section

variable [Operator.Arithmetic] (division : DivisionPolicy)

theorem onlyTraces_reduce (op : Operator) (column : Nat) (operands : List Float)
    (below : List Pending) : OnlyTraces (reduce division op column operands below).events := by
  rw [reduce_eq]
  split
  · simp
  · split
    · simp
    · simp [Event.level]

theorem onlyTraces_reduceWhile (ready : Operator → Bool) (operands : List Float)
    (pending : List Pending) :
    OnlyTraces (reduceWhile division ready operands pending).events := by
  induction pending generalizing operands with
  | nil => simp [reduceWhile]
  | cons entry below ih =>
      cases entry with
      | openParen column depth => simp [reduceWhile]
      | operator op column =>
          cases hready : ready op with
          | true =>
              rw [reduceWhile_ready hready]
              exact onlyTraces_andThen (onlyTraces_reduce division op column operands below)
                fun _ => ih _
          | false =>
              simp [reduceWhile_waiting hready]

omit [Operator.Arithmetic] in
theorem onlyTraces_leaveGroup (column : Nat) (state : Stacks) :
    OnlyTraces (leaveGroup column state).events := by
  unfold leaveGroup
  split
  · dsimp only
    split <;> simp
  · simp

theorem onlyTraces_push (lexeme : Lexeme) (state : Stacks) :
    OnlyTraces (push division lexeme state).events := by
  obtain ⟨token, column⟩ := lexeme
  cases token with
  | number value => simp [push]
  | operator op => exact onlyTraces_andThen (onlyTraces_reduceWhile division _ _ _) (by simp)
  | openParen => simp [push]
  | closeParen =>
      exact onlyTraces_andThen (onlyTraces_reduceWhile division _ _ _)
        (onlyTraces_leaveGroup column)

theorem onlyTraces_pushAll (lexemes : List Lexeme) (state : Stacks) :
    OnlyTraces (pushAll division lexemes state).events := by
  induction lexemes generalizing state with
  | nil => simp [pushAll]
  | cons lexeme lexemes ih =>
      apply onlyTraces_andThen (onlyTraces_push division lexeme state)
      simp [Event.level, ih]

theorem onlyTraces_run (lexemes : List Lexeme) (state : Stacks) :
    OnlyTraces (run division lexemes state).events := by
  have hpush := onlyTraces_pushAll division lexemes state
  unfold run
  dsimp only
  split
  · exact hpush
  · exact onlyTraces_append_iff.mpr ⟨hpush, onlyTraces_reduceWhile division _ _ _⟩

end

end Stacks

/-! ## Events of an evaluation -/

theorem Lexeme.onlyTraces_ofFragment (fragment : Text.Fragment) :
    OnlyTraces (ofFragment fragment).events := by
  unfold ofFragment
  split
  · simp [Event.level]
  · simp

theorem Lexeme.onlyTraces_ofFragments (fragments : List Text.Fragment) :
    OnlyTraces (ofFragments fragments).events := by
  induction fragments with
  | nil => exact onlyTraces_nil
  | cons fragment rest ih =>
      exact Traced.onlyTraces_bind (onlyTraces_ofFragment fragment) fun _ => ih

theorem exists_events_evaluate (division : DivisionPolicy) (expression : String) :
    ∃ steps, OnlyTraces steps ∧
      (evaluate division expression).events =
        steps ++ [conclusion expression (evaluate division expression).result] := by
  refine ⟨_, ?_, rfl⟩
  exact Traced.onlyTraces_bind onlyTraces_nil fun _ =>
    Traced.onlyTraces_bind (Lexeme.onlyTraces_ofFragments _) fun lexemes =>
      Stacks.onlyTraces_run division lexemes .empty

namespace CommandLine

/-! ## Records of the standard error -/

/-- Whether the record belongs to the log and is below a warning. -/
def Record.isDetail : Record → Bool
  | log event => event.level ∈ [.info, .debug, .trace]
  | _ => false

def errorRecords (verbosity : Nat) (records : List Record) : List Record :=
  records.filter fun record => !record.isAnswer && record.isShown verbosity

def withoutDetails (records : List Record) : List Record :=
  records.filter fun record => !record.isDetail

variable {records : List Record}

theorem stderr_ofRecords (verbosity : Nat) (records : List Record) :
    (Output.ofRecords verbosity records).stderr =
      unlines ((errorRecords verbosity records).map Record.line) := rfl

theorem withoutDetails_errorRecords (verbosity : Nat) (records : List Record) :
    withoutDetails (errorRecords verbosity records) = errorRecords 0 records := by
  rw [withoutDetails, errorRecords, errorRecords, List.filter_filter]
  apply List.filter_congr
  intro record _
  cases record with
  | answer expression value => rfl
  | refusal expression error => rfl
  | unreadable path failure => rfl
  | log event =>
      simp only [Record.isDetail, Record.isAnswer, Record.isShown, Event.isShown]
      cases event.level <;> simp [Level.verbosity]

theorem errorRecords_sublist {verbosity more : Nat} (h : verbosity ≤ more)
    (records : List Record) :
    (errorRecords verbosity records).Sublist (errorRecords more records) := by
  apply List.monotone_filter_right
  intro record hshown
  cases record with
  | answer expression value => exact hshown
  | refusal expression error => exact hshown
  | unreadable path failure => exact hshown
  | log event =>
      have hlevel : event.level.verbosity ≤ verbosity := by
        simpa [Record.isAnswer, Record.isShown, Event.isShown] using hshown
      simpa [Record.isAnswer, Record.isShown, Event.isShown] using Nat.le_trans hlevel h

/-! ## Runs at two verbosities -/

variable {read : Reader} {words : List String} {given : Arguments}

theorem respond_eq_verbosely {other : List String} {found : Arguments}
    (hrun : Request.ofArguments words = .evaluate given)
    (hother : Request.ofArguments other = .evaluate found)
    (hsame : without .verbose other = without .verbose words) :
    respond read other = respond read (verbosely found.verbosity words) := by
  have hcleared : found.clear .verbose = given.clear .verbose := by
    have hfound := Request.ofArguments_without .verbose hother
    rw [hsame, Request.ofArguments_without .verbose hrun] at hfound
    exact (Request.evaluate.inj hfound).symm
  have hfound : { given with verbosity := found.verbosity } = found :=
    congrArg (fun cleared : Arguments => { cleared with verbosity := found.verbosity })
      hcleared.symm
  rw [respond_of_evaluate hother,
    respond_of_evaluate (Request.ofArguments_verbosely found.verbosity hrun), hfound]

/--
The verbosity is the only thing that the flags for it settle.  At any two verbosities a run has
the same exit code and the same answers, and its standard error is the same but for the details
of the log, of which the greater verbosity shows all that the smaller one does.
-/
theorem respond_verbosely (hrun : Request.ofArguments words = .evaluate given) :
    (∀ other found, Request.ofArguments other = .evaluate found →
      without .verbose other = without .verbose words →
      respond read other = respond read (verbosely found.verbosity words)) ∧
    ∀ verbosity more,
      let records := transcript read given
      Request.ofArguments (verbosely verbosity words) =
        .evaluate { given with verbosity := verbosity } ∧
      (respond read (verbosely verbosity words)).code =
        (respond read (verbosely more words)).code ∧
      (respond read (verbosely verbosity words)).stdout =
        (respond read (verbosely more words)).stdout ∧
      (respond read (verbosely verbosity words)).stderr =
        unlines ((errorRecords verbosity records).map Record.line) ∧
      withoutDetails (errorRecords verbosity records) =
        withoutDetails (errorRecords more records) ∧
      (verbosity ≤ more →
        (errorRecords verbosity records).Sublist (errorRecords more records)) := by
  refine ⟨fun other found hother hsame => respond_eq_verbosely hrun hother hsame,
    fun verbosity more => ?_⟩
  have hfirst := Request.ofArguments_verbosely verbosity hrun
  have hsecond := Request.ofArguments_verbosely more hrun
  refine ⟨hfirst, ?_, ?_, ?_, ?_, fun hle => errorRecords_sublist hle _⟩
  · rw [respond_of_evaluate hfirst, respond_of_evaluate hsecond]
    rfl
  · rw [respond_of_evaluate hfirst, respond_of_evaluate hsecond]
    rfl
  · rw [respond_of_evaluate hfirst, stderr_ofRecords]
    rfl
  · rw [withoutDetails_errorRecords, withoutDetails_errorRecords]

theorem respond_verbosely_strictDivision :
    Request.ofArguments ["-v", "4 + 1 / 0", "--strict-division", "2 * 3"] =
      .evaluate ⟨false, true, 1, ["4 + 1 / 0", "2 * 3"]⟩ ∧
    ∀ read,
      let quiet := respond read ["4 + 1 / 0", "--strict-division", "2 * 3"]
      let traced := respond read ["-v", "-v", "4 + 1 / 0", "--strict-division", "2 * 3"]
      respond read ["4 + 1 / 0", "-vv", "--strict-division", "2 * 3"] = traced ∧
        quiet.code = traced.code ∧ quiet.stdout = traced.stdout := by
  have hrun : Request.ofArguments ["-v", "4 + 1 / 0", "--strict-division", "2 * 3"] =
      .evaluate ⟨false, true, 1, ["4 + 1 / 0", "2 * 3"]⟩ := by decide +kernel
  have hother : Request.ofArguments ["4 + 1 / 0", "-vv", "--strict-division", "2 * 3"] =
      .evaluate ⟨false, true, 2, ["4 + 1 / 0", "2 * 3"]⟩ := by decide +kernel
  have hwithout : without .verbose ["4 + 1 / 0", "-vv", "--strict-division", "2 * 3"] =
      without .verbose ["-v", "4 + 1 / 0", "--strict-division", "2 * 3"] := by decide +kernel
  have hquiet : verbosely 0 ["-v", "4 + 1 / 0", "--strict-division", "2 * 3"] =
      ["4 + 1 / 0", "--strict-division", "2 * 3"] := by decide +kernel
  have htraced : verbosely 2 ["-v", "4 + 1 / 0", "--strict-division", "2 * 3"] =
      ["-v", "-v", "4 + 1 / 0", "--strict-division", "2 * 3"] := by decide +kernel
  refine ⟨hrun, fun read => ?_⟩
  have hrest := (@respond_verbosely read _ _ hrun).1 _ _ hother hwithout
  obtain ⟨-, hcode, hstdout, -⟩ := (@respond_verbosely read _ _ hrun).2 0 2
  simp only [hquiet, htraced] at hrest hcode hstdout
  exact ⟨hrest, hcode, hstdout⟩

end CommandLine

end Calculator
