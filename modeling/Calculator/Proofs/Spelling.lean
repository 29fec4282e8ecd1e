import Calculator.Proofs.Fragments

/-!
# Spellings

A text spells its fragments: each stands behind a gap of blanks, only the first gap may
be empty, and blanks may follow the last fragment.  This fixes the fragments of a text
with their columns, whatever the gaps are made of.

Trimming takes the first gap and the blanks at the end away and nothing else, so a trimmed
text is long enough for its fragments and a blank between any two of them.
-/

namespace Calculator.Text

def Gap (chars : List Char) : Prop := ∀ c ∈ chars, isBlank c = true

instance : DecidablePred Gap := fun chars => List.decidableBAll (isBlank · = true) chars

structure Word (chars : List Char) : Prop where
  nonempty : chars ≠ []
  solid : ∀ c ∈ chars, isBlank c = false

/-- `chars` is empty or starts with a blank, so that a word may end before it. -/
def Breaks (chars : List Char) : Prop := ∀ c ∈ chars.head?, isBlank c = true

/-- The text spells the fragments, if its first character stands at column `start`. -/
inductive Spells : Nat → List Fragment → List Char → Prop
  | blank {start : Nat} {gap : List Char} : Gap gap → Spells start [] gap
  | word {start : Nat} {gap word rest : List Char} {fragments : List Fragment} :
      Gap gap → Word word → Breaks rest →
      Spells (start + gap.length + word.length) fragments rest →
      Spells start (⟨word, start + gap.length⟩ :: fragments) (gap ++ (word ++ rest))

theorem gap_nil : Gap [] := fun _ hc => absurd hc List.not_mem_nil

theorem Gap.cons {c : Char} {gap : List Char} (h : Gap gap) (hc : isBlank c = true) :
    Gap (c :: gap) :=
  List.forall_mem_cons.mpr ⟨hc, h⟩

theorem breaks_nil : Breaks [] := nofun

theorem breaks_cons {c : Char} (h : isBlank c = true) (rest : List Char) : Breaks (c :: rest) := by
  intro d hd
  cases hd
  exact h

theorem Breaks.gap_ne_nil {gap word rest : List Char} (h : Breaks (gap ++ (word ++ rest)))
    (hword : Word word) : gap ≠ [] := by
  intro hgap
  subst hgap
  obtain ⟨c, others, rfl⟩ := List.exists_cons_of_ne_nil hword.nonempty
  have hblank := h c rfl
  rw [hword.solid c List.mem_cons_self] at hblank
  exact absurd hblank Bool.false_ne_true

/-! ## The fragments of a spelling -/

theorem Spells.cons_blank {start : Nat} {fragments : List Fragment} {source : List Char}
    {c : Char} (h : Spells (start + 1) fragments source) (hc : isBlank c = true) :
    Spells start fragments (c :: source) := by
  cases h with
  | blank hgap => exact .blank (hgap.cons hc)
  | @word _ gap word rest fragments hgap hword hbreak hrest =>
      have hcolumn : start + 1 + gap.length = start + (c :: gap).length := by
        rw [List.length_cons]
        omega
      rw [hcolumn] at hrest ⊢
      exact .word (hgap.cons hc) hword hbreak hrest

theorem spells_place (source : List Char) (start : Nat) :
    Spells start (Fragment.place start (source.splitOnP isBlank)) source := by
  induction source using cut_induction generalizing start with
  | whole word hword =>
      rw [List.splitOnP_eq_singleton hword]
      cases word with
      | nil => exact .blank gap_nil
      | cons c others =>
          have hspells : Spells start [⟨c :: others, start⟩] ([] ++ ((c :: others) ++ [])) :=
            .word gap_nil ⟨List.cons_ne_nil c others, hword⟩ breaks_nil (.blank gap_nil)
          rwa [List.nil_append, List.append_nil] at hspells
  | cut word blank rest hword hblank ih =>
      rw [List.splitOnP_append_cons_of_forall_mem hword blank hblank]
      cases word with
      | nil => exact (ih (start + 1)).cons_blank hblank
      | cons c others =>
          have hrest := (ih (start + (others.length + 1) + 1)).cons_blank hblank
          exact .word gap_nil ⟨List.cons_ne_nil c others, hword⟩ (breaks_cons hblank rest) hrest

theorem place_gap {gap : List Char} (hgap : Gap gap) (source : List Char) (start : Nat) :
    Fragment.place start ((gap ++ source).splitOnP isBlank) =
      Fragment.place (start + gap.length) (source.splitOnP isBlank) := by
  induction gap generalizing start with
  | nil => rfl
  | cons c gap ih =>
      obtain ⟨hc, hrest⟩ := List.forall_mem_cons.mp hgap
      have hnone : ∀ d ∈ ([] : List Char), isBlank d = false :=
        fun _ hd => absurd hd List.not_mem_nil
      have hcut := List.splitOnP_append_cons_of_forall_mem hnone c hc (gap ++ source)
      rw [List.nil_append] at hcut
      rw [List.cons_append, hcut, Fragment.place_empty_cons, ih hrest, List.length_cons]
      congr 1
      omega

theorem place_word {word rest : List Char} (hword : Word word) (hbreak : Breaks rest)
    (start : Nat) :
    Fragment.place start ((word ++ rest).splitOnP isBlank) =
      ⟨word, start⟩ :: Fragment.place (start + word.length) (rest.splitOnP isBlank) := by
  obtain ⟨c, others, rfl⟩ := List.exists_cons_of_ne_nil hword.nonempty
  cases rest with
  | nil =>
      rw [List.append_nil, List.splitOnP_eq_singleton hword.solid]
      rfl
  | cons blank rest =>
      have hblank := hbreak blank rfl
      rw [List.splitOnP_append_cons_of_forall_mem hword.solid blank hblank]
      exact congrArg _ (place_gap (gap_nil.cons hblank) rest _).symm

theorem Spells.place_eq {start : Nat} {fragments : List Fragment} {source : List Char}
    (h : Spells start fragments source) :
    Fragment.place start (source.splitOnP isBlank) = fragments := by
  induction h with
  | @blank start gap hgap =>
      have hplace := place_gap hgap [] start
      rwa [List.append_nil] at hplace
  | @word start gap word rest fragments hgap hword hbreak hrest ih =>
      rw [place_gap hgap, place_word hword hbreak, ih]

theorem spells_iff {fragments : List Fragment} {source : List Char} :
    Spells 1 fragments source ↔ Text.fragments source = fragments := by
  constructor
  · exact Spells.place_eq
  · intro h
    subst h
    exact spells_place source 1

/-! ## Trimming -/

def trimEnd (chars : List Char) : List Char := (chars.reverse.dropWhile isBlank).reverse

theorem dropWhile_gap {gap : List Char} (h : Gap gap) (rest : List Char) :
    (gap ++ rest).dropWhile isBlank = rest.dropWhile isBlank :=
  List.dropWhile_append_of_pos h

theorem dropWhile_word {word : List Char} (h : Word word) (rest : List Char) :
    (word ++ rest).dropWhile isBlank = word ++ rest := by
  obtain ⟨c, others, rfl⟩ := List.exists_cons_of_ne_nil h.nonempty
  have hc := h.solid c List.mem_cons_self
  rw [List.cons_append, List.dropWhile_cons_of_neg (by rw [hc]; exact Bool.false_ne_true)]

theorem Word.reverse {word : List Char} (h : Word word) : Word word.reverse := by
  refine ⟨fun hnil => h.nonempty (List.reverse_eq_nil_iff.mp hnil), ?_⟩
  intro c hc
  exact h.solid c (List.mem_reverse.mp hc)

theorem trimEnd_append_gap {gap : List Char} (h : Gap gap) (chars : List Char) :
    trimEnd (chars ++ gap) = trimEnd chars := by
  have hreverse : Gap gap.reverse := fun c hc => h c (List.mem_reverse.mp hc)
  rw [trimEnd, List.reverse_append, dropWhile_gap hreverse, trimEnd]

theorem trimEnd_gap {gap : List Char} (h : Gap gap) : trimEnd gap = [] :=
  trimEnd_append_gap h []

theorem trimEnd_word {word : List Char} (hword : Word word) (before rest : List Char) :
    trimEnd (before ++ (word ++ rest)) = before ++ (word ++ trimEnd rest) := by
  have hsolid := dropWhile_word hword.reverse before.reverse
  unfold trimEnd
  rw [List.reverse_append, List.reverse_append, List.append_assoc, List.dropWhile_append]
  split
  · rename_i hempty
    rw [hsolid, List.isEmpty_iff.mp hempty]
    simp
  · simp

theorem trim_word {gap word : List Char} (hgap : Gap gap) (hword : Word word)
    (rest : List Char) : trim (gap ++ (word ++ rest)) = word ++ trimEnd rest := by
  have hend := trimEnd_word hword [] rest
  rw [List.nil_append, List.nil_append] at hend
  rw [trim, dropWhile_gap hgap, dropWhile_word hword]
  exact hend

theorem Spells.length_trimEnd {start : Nat} {fragments : List Fragment} {source : List Char}
    (h : Spells start fragments source) (hbreak : Breaks source) :
    2 * fragments.length ≤ (trimEnd source).length := by
  induction h with
  | blank _ => exact Nat.zero_le _
  | @word start gap word rest fragments hgap hword hrest _ ih =>
      have hgapLength := List.length_pos_iff.mpr (hbreak.gap_ne_nil hword)
      have hwordLength := List.length_pos_iff.mpr hword.nonempty
      have hlater := ih hrest
      rw [trimEnd_word hword, List.length_append, List.length_append, List.length_cons]
      omega

theorem Spells.length_trim {start : Nat} {fragments : List Fragment} {source : List Char}
    (h : Spells start fragments source) : 2 * fragments.length ≤ (trim source).length + 1 := by
  cases h with
  | blank _ => exact Nat.zero_le _
  | @word _ gap word rest fragments hgap hword hbreak hrest =>
      have hwordLength := List.length_pos_iff.mpr hword.nonempty
      have hlater := hrest.length_trimEnd hbreak
      rw [trim_word hgap hword, List.length_append, List.length_cons]
      omega

theorem Spells.trim_singleton {start : Nat} {fragment : Fragment} {source : List Char}
    (h : Spells start [fragment] source) : trim source = fragment.chars := by
  cases h with
  | word hgap hword _ hrest =>
      cases hrest with
      | blank hend => rw [trim_word hgap hword, trimEnd_gap hend, List.append_nil]

end Calculator.Text
