import Calculator.Text.Fragment

/-!
# Runs of characters

The fragments of a text are its maximal runs of characters without a blank, each at its
place in the text and all in their order.

A text without a blank is one run at most.  Any other text is cut at its first blank, and
the proofs go by how it is cut.
-/

namespace Calculator.Text

/-- `chars` stands at `column` of the text, from a blank or the start to a blank or the end. -/
def RunAt (source : List Char) (column : Nat) (chars : List Char) : Prop :=
  ∃ before after, source = before ++ (chars ++ after) ∧ column = before.length + 1 ∧
    chars ≠ [] ∧ (∀ c ∈ chars, isBlank c = false) ∧
    (∀ c ∈ before.getLast?, isBlank c = true) ∧ ∀ c ∈ after.head?, isBlank c = true

/-! ## Cutting at blanks -/

theorem cut_induction {motive : List Char → Prop}
    (whole : ∀ word, (∀ c ∈ word, isBlank c = false) → motive word)
    (cut : ∀ word blank rest, (∀ c ∈ word, isBlank c = false) → isBlank blank = true →
      motive rest → motive (word ++ blank :: rest)) (source : List Char) : motive source := by
  have hall (word : List Char) (hword : ∀ c ∈ word, isBlank c = false) :
      motive (word ++ source) := by
    induction source generalizing word with
    | nil =>
        rw [List.append_nil]
        exact whole word hword
    | cons c rest ih =>
        cases hblank : isBlank c with
        | true => exact cut word c rest hword hblank (ih [] nofun)
        | false =>
            rw [List.append_cons]
            refine ih (word ++ [c]) fun d hd => ?_
            obtain hd | hd := List.mem_append.mp hd
            · exact hword d hd
            · obtain rfl := List.mem_singleton.mp hd
              exact hblank
  exact hall [] nofun

/-- A run of `word ++ tail` is the whole word, or it lies in the tail behind the first blank. -/
theorem run_cases {word tail before chars after : List Char}
    (hword : ∀ c ∈ word, isBlank c = false) (htail : ∀ c ∈ tail.head?, isBlank c = true)
    (hsplit : word ++ tail = before ++ (chars ++ after)) (hchars : chars ≠ [])
    (hrun : ∀ c ∈ chars, isBlank c = false) (hbefore : ∀ c ∈ before.getLast?, isBlank c = true)
    (hafter : ∀ c ∈ after.head?, isBlank c = true) :
    (before = [] ∧ chars = word ∧ after = tail) ∨
      ∃ blank skipped, before = word ++ blank :: skipped ∧
        tail = blank :: (skipped ++ (chars ++ after)) := by
  obtain ⟨skipped, hskipped, hrest⟩ | ⟨left, hleft, hrest⟩ := List.append_eq_append_iff.mp hsplit
  · cases skipped with
    | cons blank skipped => exact .inr ⟨blank, skipped, hskipped, hrest⟩
    | nil =>
        obtain ⟨first, others, rfl⟩ := List.exists_cons_of_ne_nil hchars
        have hclash := hrun first List.mem_cons_self
        rw [htail first (by simp [hrest])] at hclash
        exact absurd hclash.symm Bool.false_ne_true
  · have hnone : before = [] := by
      obtain hnil | ⟨skipped, last, rfl⟩ := List.eq_nil_or_concat before
      · exact hnil
      · have hblank := hbefore last (by simp)
        rw [hword last (by simp [hleft])] at hblank
        exact absurd hblank Bool.false_ne_true
    subst hnone
    obtain rfl : word = left := hleft
    obtain ⟨more, hmore, hend⟩ | ⟨more, hmore, hend⟩ := List.append_eq_append_iff.mp hrest
    · cases more with
      | nil => exact .inl ⟨rfl, by simpa using hmore.symm, by simpa using hend⟩
      | cons c more =>
          have hblank := hafter c (by simp [hend])
          rw [hword c (by simp [hmore])] at hblank
          exact absurd hblank Bool.false_ne_true
    · cases more with
      | nil => exact .inl ⟨rfl, by simpa using hmore, by simpa using hend.symm⟩
      | cons c more =>
          have hblank := htail c (by simp [hend])
          rw [hrun c (by simp [hmore])] at hblank
          exact absurd hblank Bool.false_ne_true

theorem runAt_word_iff {word chars : List Char} {column : Nat}
    (hword : ∀ c ∈ word, isBlank c = false) :
    RunAt word column chars ↔ word ≠ [] ∧ column = 1 ∧ chars = word := by
  constructor
  · rintro ⟨before, after, hsplit, rfl, hchars, hrun, hbefore, hafter⟩
    have hwhole : word ++ [] = before ++ (chars ++ after) := by rw [List.append_nil, hsplit]
    have hend : ∀ c ∈ ([] : List Char).head?, isBlank c = true := nofun
    obtain ⟨rfl, rfl, -⟩ | ⟨blank, skipped, -, hnil⟩ :=
      run_cases hword hend hwhole hchars hrun hbefore hafter
    · exact ⟨hchars, rfl, rfl⟩
    · exact absurd hnil nofun
  · rintro ⟨hne, rfl, rfl⟩
    exact ⟨[], [], by simp, rfl, hne, hword, nofun, nofun⟩

theorem runAt_cut_iff {word rest chars : List Char} {blank : Char} {column : Nat}
    (hword : ∀ c ∈ word, isBlank c = false) (hblank : isBlank blank = true) :
    RunAt (word ++ blank :: rest) column chars ↔
      (word ≠ [] ∧ column = 1 ∧ chars = word) ∨
        ∃ later, column = word.length + 1 + later ∧ RunAt rest later chars := by
  have htail : ∀ c ∈ (blank :: rest).head?, isBlank c = true := by
    rintro c ⟨⟩
    exact hblank
  constructor
  · rintro ⟨before, after, hsplit, rfl, hchars, hrun, hbefore, hafter⟩
    obtain ⟨rfl, rfl, -⟩ | ⟨blank', skipped, rfl, hrest⟩ :=
      run_cases hword htail hsplit hchars hrun hbefore hafter
    · exact .inl ⟨hchars, rfl, rfl⟩
    · obtain ⟨rfl, rfl⟩ := List.cons.inj hrest
      refine .inr ⟨skipped.length + 1, ?_, skipped, after, rfl, rfl, hchars, hrun, ?_, hafter⟩
      · simp only [List.length_append, List.length_cons]
        omega
      · intro c hc
        exact hbefore c (by simp [List.getLast?_append, List.getLast?_cons, Option.mem_def.mp hc])
  · rintro (⟨hne, rfl, rfl⟩ | ⟨_, rfl, before, after, rfl, rfl, hchars, hrun, hbefore, hafter⟩)
    · exact ⟨[], blank :: rest, rfl, rfl, hne, hword, nofun, htail⟩
    · refine ⟨word ++ blank :: before, after, by simp, ?_, hchars, hrun, fun c hc => ?_, hafter⟩
      · simp only [List.length_append, List.length_cons]
        omega
      · cases hlast : before.getLast? with
        | none =>
            obtain rfl : blank = c := by
              simpa [List.getLast?_append, List.getLast?_cons, hlast] using hc
            exact hblank
        | some d =>
            obtain rfl : d = c := by
              simpa [List.getLast?_append, List.getLast?_cons, hlast] using hc
            exact hbefore d hlast

/-! ## Fragments -/

theorem mem_place_iff (source : List Char) (start : Nat) (fragment : Fragment) :
    fragment ∈ Fragment.place start (source.splitOnP isBlank) ↔
      ∃ column, fragment.column + 1 = start + column ∧ RunAt source column fragment.chars := by
  induction source using cut_induction generalizing start with
  | whole word hword =>
      rw [List.splitOnP_eq_singleton hword]
      simp only [runAt_word_iff hword]
      cases word with
      | nil => simp
      | cons c word =>
          obtain ⟨chars, column⟩ := fragment
          simp only [Fragment.place_cons_cons, Fragment.place_nil, List.mem_singleton,
            Fragment.mk.injEq]
          constructor
          · rintro ⟨rfl, rfl⟩
            exact ⟨1, rfl, nofun, rfl, rfl⟩
          · rintro ⟨_, hcolumn, -, rfl, rfl⟩
            exact ⟨rfl, Nat.succ.inj hcolumn⟩
  | cut word blank rest hword hblank ih =>
      rw [List.splitOnP_append_cons_of_forall_mem hword blank hblank]
      simp only [runAt_cut_iff hword hblank]
      cases word with
      | nil =>
          rw [Fragment.place_empty_cons, ih]
          constructor
          · rintro ⟨column, hcolumn, hrun⟩
            refine ⟨1 + column, by omega, .inr ⟨column, by simp, hrun⟩⟩
          · rintro ⟨_, hcolumn, ⟨hne, -⟩ | ⟨later, rfl, hrun⟩⟩
            · exact absurd rfl hne
            · exact ⟨later, by simp at hcolumn; omega, hrun⟩
      | cons c word =>
          rw [Fragment.place_cons_cons, List.mem_cons, ih]
          constructor
          · rintro (rfl | ⟨column, hcolumn, hrun⟩)
            · exact ⟨1, rfl, .inl ⟨nofun, rfl, rfl⟩⟩
            · refine ⟨word.length + 1 + 1 + column, by omega, .inr ⟨column, by simp, hrun⟩⟩
          · rintro ⟨_, hcolumn, ⟨-, rfl, hchars⟩ | ⟨later, rfl, hrun⟩⟩
            · obtain ⟨chars, column⟩ := fragment
              obtain rfl := hchars
              obtain rfl := Nat.succ.inj hcolumn
              exact .inl rfl
            · exact .inr ⟨later, by simp at hcolumn; omega, hrun⟩

theorem mem_fragments_iff {source : List Char} {fragment : Fragment} :
    fragment ∈ fragments source ↔ RunAt source fragment.column fragment.chars := by
  rw [fragments, mem_place_iff]
  constructor
  · rintro ⟨column, hcolumn, hrun⟩
    obtain rfl : fragment.column = column := by omega
    exact hrun
  · exact fun hrun => ⟨_, Nat.add_comm _ _, hrun⟩

theorem le_column_of_mem_place {pieces : List (List Char)} {start : Nat} {fragment : Fragment}
    (h : fragment ∈ Fragment.place start pieces) : start ≤ fragment.column := by
  induction pieces generalizing start with
  | nil => contradiction
  | cons piece pieces ih =>
      cases piece with
      | nil => exact Nat.le_of_succ_le (ih h)
      | cons c piece =>
          obtain rfl | hlater := List.mem_cons.mp h
          · exact Nat.le_refl _
          · have hstart := ih hlater
            omega

theorem pairwise_place (pieces : List (List Char)) (start : Nat) :
    (Fragment.place start pieces).Pairwise fun first second => first.column < second.column := by
  induction pieces generalizing start with
  | nil => exact .nil
  | cons piece pieces ih =>
      cases piece with
      | nil => exact ih (start + 1)
      | cons c piece =>
          refine List.pairwise_cons.mpr ⟨fun later hlater => ?_, ih _⟩
          have hstart := le_column_of_mem_place hlater
          change start < later.column
          omega

theorem pairwise_fragments (source : List Char) :
    (fragments source).Pairwise fun first second => first.column < second.column :=
  pairwise_place _ 1

end Calculator.Text
