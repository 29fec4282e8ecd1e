import Calculator.CommandLine.Arguments

/-!
# Rewording a command line

A command line that runs may be given other inputs, behind `--`, or it may lose one of its
flags, wherever they stand in it and whether they are long, short or in a cluster.  What it
asks for then changes in its inputs, or in that flag, and in nothing else.
-/

namespace Calculator.CommandLine

/-! ## Words -/

inductive Word where
  | separator
  | long (name : List Char)
  | cluster (letters : List Char)
  | input

def Word.ofArgument (argument : String) : Word :=
  match argument.toList with
  | ['-', '-'] => separator
  | '-' :: '-' :: name => long name
  | '-' :: c :: letters => cluster (c :: letters)
  | _ => input

theorem Word.ofArgument_cluster {letters : List Char} (hne : letters ≠ [])
    (hdash : '-' ∉ letters) : ofArgument (String.ofList ('-' :: letters)) = cluster letters := by
  obtain ⟨c, others, rfl⟩ := List.exists_cons_of_ne_nil hne
  have hc : c ≠ '-' := by
    rintro rfl
    exact hdash List.mem_cons_self
  simp only [ofArgument, String.toList_ofList]
  split
  · simp_all
  · simp_all
  · simp_all
  · simp_all

theorem Request.resume_cons (given : Arguments) (argument : String) (rest : List String) :
    resume given (argument :: rest) =
      match Word.ofArgument argument with
      | .separator => evaluate (given.withInputs rest)
      | .long name =>
          match given.takeLong name with
          | .ok taken => resume taken rest
          | .error request => request
      | .cluster letters =>
          match given.takeCluster letters with
          | .ok taken => resume taken rest
          | .error request => request
      | .input => resume (given.withInputs [argument]) rest := by
  rw [resume, Word.ofArgument]
  split
  · simp [*]
  · rename_i name _ hword
    cases htaken : given.takeLong name <;> simp [*]
  · rename_i c cluster _ _ hword
    cases htaken : given.takeCluster (c :: cluster) <;> simp [*]
  · simp [*]

/-! ## Rewording -/

/-- The options of a command line, without its inputs. -/
def options : List String → List String
  | [] => []
  | argument :: rest =>
      match Word.ofArgument argument with
      | .separator => []
      | .input => options rest
      | _ => argument :: options rest

def without (flag : Flag) : List String → List String
  | [] => []
  | argument :: rest =>
      match Word.ofArgument argument with
      | .separator => argument :: rest
      | .long name =>
          if Flag.ofLong? (String.ofList name) = some flag then without flag rest
          else argument :: without flag rest
      | .cluster letters =>
          let kept := letters.filter fun letter => Flag.ofShort? letter ≠ some flag
          if kept = [] then without flag rest
          else String.ofList ('-' :: kept) :: without flag rest
      | .input => argument :: without flag rest

/-- The command line at some verbosity, whatever its own is. -/
def verbosely (count : Nat) (words : List String) : List String :=
  List.replicate count "-v" ++ without .verbose words

namespace Arguments

def clear (given : Arguments) : Flag → Arguments
  | .file => { given with readsFiles := false }
  | .strictDivision => { given with strictDivision := false }
  | .verbose => { given with verbosity := 0 }
  | .help | .version => given

def replaceInputs (given : Arguments) (inputs : List String) : Arguments :=
  { given with inputs := inputs }

def raise (given : Arguments) (more : Nat) : Arguments :=
  { given with verbosity := given.verbosity + more }

variable {given taken final : Arguments} {flag : Flag}

/-! ## Flags -/

theorem take_ne_evaluate : given.take flag ≠ .error (.evaluate final) := by
  cases flag <;> simp [take]
  all_goals grind

theorem takeLong_ne_evaluate {name : List Char} :
    given.takeLong name ≠ .error (.evaluate final) := by
  unfold takeLong
  cases Flag.ofLong? (String.ofList name) with
  | none => simp
  | some flag => exact take_ne_evaluate

theorem takeCluster_ne_evaluate {letters : List Char} :
    given.takeCluster letters ≠ .error (.evaluate final) := by
  induction letters generalizing given with
  | nil => simp [takeCluster]
  | cons c letters ih =>
      rw [takeCluster]
      cases Flag.ofShort? c with
      | none => simp
      | some flag =>
          cases htaken : given.take flag with
          | ok taken => simpa [htaken] using ih
          | error request =>
              intro h
              obtain rfl : request = .evaluate final := by simpa [htaken] using h
              exact take_ne_evaluate htaken

theorem take_replaceInputs (inputs : List String) ⦃given taken : Arguments⦄ ⦃flag : Flag⦄
    (h : given.take flag = .ok taken) :
    (given.replaceInputs inputs).take flag = .ok (taken.replaceInputs inputs) := by
  cases flag <;> simp_all [take, replaceInputs]
  all_goals grind

theorem take_raise (more : Nat) ⦃given taken : Arguments⦄ ⦃flag : Flag⦄
    (h : given.take flag = .ok taken) : (given.raise more).take flag = .ok (taken.raise more) := by
  cases flag <;> simp_all [take, raise]
  all_goals grind

theorem take_clear {other : Flag} (h : given.take other = .ok taken) (hne : other ≠ flag) :
    (given.clear flag).take other = .ok (taken.clear flag) := by
  cases other <;> cases flag <;> simp_all [take, clear]
  all_goals grind

theorem clear_of_take (h : given.take flag = .ok taken) : taken.clear flag = given.clear flag := by
  cases flag <;> simp_all [take, clear]
  all_goals grind

theorem takeLong_eq_ok_iff {name : List Char} :
    given.takeLong name = .ok taken ↔
      ∃ flag, Flag.ofLong? (String.ofList name) = some flag ∧ given.take flag = .ok taken := by
  unfold takeLong
  cases Flag.ofLong? (String.ofList name) <;> simp

theorem takeCluster_cons_eq_ok_iff {c : Char} {letters : List Char} :
    given.takeCluster (c :: letters) = .ok final ↔
      ∃ flag taken, Flag.ofShort? c = some flag ∧ given.take flag = .ok taken ∧
        taken.takeCluster letters = .ok final := by
  rw [takeCluster]
  cases hflag : Flag.ofShort? c with
  | none => simp
  | some flag => cases htaken : given.take flag <;> simp [htaken]

theorem takeLong_of_take {change : Arguments → Arguments} {name : List Char}
    (hchange : ∀ ⦃given taken flag⦄, given.take flag = .ok taken →
      (change given).take flag = .ok (change taken))
    (h : given.takeLong name = .ok taken) :
    (change given).takeLong name = .ok (change taken) := by
  obtain ⟨flag, hflag, htake⟩ := takeLong_eq_ok_iff.mp h
  exact takeLong_eq_ok_iff.mpr ⟨flag, hflag, hchange htake⟩

theorem takeCluster_of_take {change : Arguments → Arguments} {letters : List Char}
    (hchange : ∀ ⦃given taken flag⦄, given.take flag = .ok taken →
      (change given).take flag = .ok (change taken))
    (h : given.takeCluster letters = .ok final) :
    (change given).takeCluster letters = .ok (change final) := by
  induction letters generalizing given with
  | nil =>
      obtain rfl := Except.ok.inj h
      rfl
  | cons c letters ih =>
      obtain ⟨flag, taken, hflag, htaken, hrest⟩ := takeCluster_cons_eq_ok_iff.mp h
      exact takeCluster_cons_eq_ok_iff.mpr ⟨flag, _, hflag, hchange htaken, ih hrest⟩

theorem takeCluster_clear (flag : Flag) {letters : List Char}
    (h : given.takeCluster letters = .ok final) :
    (given.clear flag).takeCluster
        (letters.filter fun letter => Flag.ofShort? letter ≠ some flag) =
      .ok (final.clear flag) := by
  induction letters generalizing given with
  | nil =>
      obtain rfl := Except.ok.inj h
      rfl
  | cons c letters ih =>
      obtain ⟨other, taken, hother, htaken, hrest⟩ := takeCluster_cons_eq_ok_iff.mp h
      by_cases hsame : other = flag
      · subst hsame
        rw [List.filter_cons_of_neg (by simp [hother]), ← clear_of_take htaken]
        exact ih hrest
      · rw [List.filter_cons_of_pos (by simp [hother, hsame])]
        exact takeCluster_cons_eq_ok_iff.mpr
          ⟨other, _, hother, take_clear htaken hsame, ih hrest⟩

theorem dash_notMem_of_takeCluster {letters : List Char}
    (h : given.takeCluster letters = .ok final) : '-' ∉ letters := by
  induction letters generalizing given with
  | nil => simp
  | cons c letters ih =>
      obtain ⟨flag, taken, hflag, -, hrest⟩ := takeCluster_cons_eq_ok_iff.mp h
      have hc : '-' ≠ c := by
        rintro rfl
        simp [Flag.ofShort?] at hflag
      simp [hc, ih hrest]

end Arguments

/-! ## Whole command lines -/

namespace Request

open Arguments

variable {given final : Arguments} {words : List String}

theorem resume_cons_eq_evaluate {argument : String} {rest : List String}
    (h : resume given (argument :: rest) = .evaluate final) :
    match Word.ofArgument argument with
    | .separator => given.withInputs rest = final
    | .long name =>
        ∃ taken, given.takeLong name = .ok taken ∧ resume taken rest = .evaluate final
    | .cluster letters =>
        ∃ taken, given.takeCluster letters = .ok taken ∧ resume taken rest = .evaluate final
    | .input => resume (given.withInputs [argument]) rest = .evaluate final := by
  rw [resume_cons] at h
  cases hword : Word.ofArgument argument with
  | separator => simpa [hword] using h
  | long name =>
      cases htaken : given.takeLong name with
      | ok taken => exact ⟨taken, htaken, by simpa [hword, htaken] using h⟩
      | error request =>
          obtain rfl : request = .evaluate final := by simpa [hword, htaken] using h
          exact absurd htaken takeLong_ne_evaluate
  | cluster letters =>
      cases htaken : given.takeCluster letters with
      | ok taken => exact ⟨taken, htaken, by simpa [hword, htaken] using h⟩
      | error request =>
          obtain rfl : request = .evaluate final := by simpa [hword, htaken] using h
          exact absurd htaken takeCluster_ne_evaluate
  | input => simpa [hword] using h

theorem resume_options {before inputs : List String} (h : resume given words = .evaluate final) :
    resume (given.replaceInputs before) (options words ++ "--" :: inputs) =
      .evaluate (final.replaceInputs (before ++ inputs)) := by
  induction words generalizing given with
  | nil =>
      obtain rfl : given = final := by simpa [resume] using h
      rfl
  | cons argument rest ih =>
      have hfirst := resume_cons_eq_evaluate h
      rw [options]
      cases hword : Word.ofArgument argument with
      | separator =>
          rw [hword] at hfirst
          obtain rfl := hfirst
          rfl
      | long name =>
          rw [hword] at hfirst
          obtain ⟨taken, htaken, hrest⟩ := hfirst
          have hreplaced := takeLong_of_take (take_replaceInputs before) htaken
          simp [resume_cons, hword, hreplaced, ih hrest]
      | cluster letters =>
          rw [hword] at hfirst
          obtain ⟨taken, htaken, hrest⟩ := hfirst
          have hreplaced := takeCluster_of_take (take_replaceInputs before) htaken
          simp [resume_cons, hword, hreplaced, ih hrest]
      | input =>
          simp only [hword] at hfirst
          have hrest := ih hfirst
          exact hrest

theorem resume_without (flag : Flag) (h : resume given words = .evaluate final) :
    resume (given.clear flag) (without flag words) = .evaluate (final.clear flag) := by
  induction words generalizing given with
  | nil =>
      obtain rfl : given = final := by simpa [resume] using h
      rfl
  | cons argument rest ih =>
      have hfirst := resume_cons_eq_evaluate h
      rw [without]
      cases hword : Word.ofArgument argument with
      | separator =>
          rw [hword] at hfirst
          obtain rfl := hfirst
          cases flag <;> simp [resume_cons, hword, clear, withInputs]
      | long name =>
          rw [hword] at hfirst
          obtain ⟨taken, htaken, hrest⟩ := hfirst
          obtain ⟨other, hother, htake⟩ := takeLong_eq_ok_iff.mp htaken
          by_cases hsame : other = flag
          · subst hsame
            rw [← clear_of_take htake]
            simpa [hother] using ih hrest
          · have hcleared : (given.clear flag).takeLong name = .ok (taken.clear flag) :=
              takeLong_eq_ok_iff.mpr ⟨other, hother, take_clear htake hsame⟩
            simp [hother, hsame, resume_cons, hword, hcleared, ih hrest]
      | cluster letters =>
          rw [hword] at hfirst
          obtain ⟨taken, htaken, hrest⟩ := hfirst
          have hcleared := takeCluster_clear flag htaken
          dsimp only
          split
          · rename_i hnone
            rw [hnone] at hcleared
            obtain hsame : given.clear flag = taken.clear flag := Except.ok.inj hcleared
            rw [hsame]
            exact ih hrest
          · rename_i hsome
            have hdash : '-' ∉ letters.filter fun letter => Flag.ofShort? letter ≠ some flag :=
              fun hin => dash_notMem_of_takeCluster htaken (List.mem_filter.mp hin).1
            rw [resume_cons, Word.ofArgument_cluster hsome hdash]
            simp only [hcleared]
            exact ih hrest
      | input =>
          rw [hword] at hfirst
          have hrest := ih hfirst
          cases flag <;> simpa [resume_cons, hword, clear, withInputs] using hrest

theorem resume_raise (more : Nat) (h : resume given words = .evaluate final) :
    resume (given.raise more) words = .evaluate (final.raise more) := by
  induction words generalizing given with
  | nil =>
      obtain rfl : given = final := by simpa [resume] using h
      rfl
  | cons argument rest ih =>
      have hfirst := resume_cons_eq_evaluate h
      rw [resume_cons]
      cases hword : Word.ofArgument argument with
      | separator =>
          rw [hword] at hfirst
          obtain rfl := hfirst
          rfl
      | long name =>
          rw [hword] at hfirst
          obtain ⟨taken, htaken, hrest⟩ := hfirst
          simp [takeLong_of_take (take_raise more) htaken, ih hrest]
      | cluster letters =>
          rw [hword] at hfirst
          obtain ⟨taken, htaken, hrest⟩ := hfirst
          simp [takeCluster_of_take (take_raise more) htaken, ih hrest]
      | input =>
          rw [hword] at hfirst
          have hrest := ih hfirst
          exact hrest

theorem resume_replicate_verbose (count : Nat) :
    resume given (List.replicate count "-v" ++ words) = resume (given.raise count) words := by
  induction count generalizing given with
  | zero => rfl
  | succ count ih =>
      have hword : Word.ofArgument "-v" = .cluster ['v'] := rfl
      have htaken : given.takeCluster ['v'] = .ok (given.raise 1) := rfl
      have hraise : (given.raise 1).raise count = given.raise (count + 1) := by
        simp only [raise, Nat.add_assoc, Nat.add_comm 1]
      rw [List.replicate_succ, List.cons_append, resume_cons, hword]
      simp only [htaken]
      rw [ih, hraise]

theorem ofArguments_options (h : ofArguments words = .evaluate final) (inputs : List String) :
    ofArguments (options words ++ "--" :: inputs) = .evaluate (final.replaceInputs inputs) :=
  resume_options h

theorem ofArguments_without (flag : Flag) (h : ofArguments words = .evaluate final) :
    ofArguments (without flag words) = .evaluate (final.clear flag) := by
  have hinitial : Arguments.initial.clear flag = .initial := by
    cases flag <;> rfl
  have hcleared := resume_without flag h
  rwa [hinitial] at hcleared

theorem ofArguments_verbosely (count : Nat) (h : ofArguments words = .evaluate final) :
    ofArguments (verbosely count words) = .evaluate { final with verbosity := count } := by
  have hraised := resume_raise count (ofArguments_without .verbose h)
  rw [← resume_replicate_verbose] at hraised
  simpa [ofArguments, verbosely, clear, raise] using hraised

end Request

end Calculator.CommandLine
