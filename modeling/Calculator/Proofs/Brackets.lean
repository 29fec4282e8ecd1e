import Calculator.Token

/-!
# Matching parentheses

Lists whose parentheses match, and what stands between a parenthesis and its
partner.  The items of a list may be more than tokens; `token` reads the token of
an item.
-/

namespace Calculator

variable {α : Type}

/-- Every parenthesis of the list has its partner in the list. -/
inductive Balanced (token : α → Token) : List α → Prop
  | nil : Balanced token []
  | plain {item : α} {rest : List α} :
      token item ≠ .openParen → token item ≠ .closeParen →
      Balanced token rest → Balanced token (item :: rest)
  | group {opened closed : α} {inner rest : List α} :
      token opened = .openParen → Balanced token inner → token closed = .closeParen →
      Balanced token rest → Balanced token (opened :: (inner ++ closed :: rest))

/-- `inner` is all that stands between a parenthesis of `items` and its partner. -/
def Encloses (token : α → Token) (items inner : List α) : Prop :=
  Balanced token inner ∧ ∃ before opened closed after,
    token opened = .openParen ∧ token closed = .closeParen ∧
      items = before ++ opened :: (inner ++ closed :: after)

variable {token : α → Token}

/-! ## Partners -/

/--
The items before and after the closing parenthesis that leaves `depth` open groups,
where parentheses that open on the way add to the depth.
-/
def splitAtClose? (token : α → Token) : Nat → List α → Option (List α × List α)
  | _, [] => none
  | depth, item :: rest =>
      match token item, depth with
      | .closeParen, 0 => some ([], rest)
      | .closeParen, depth + 1 =>
          (splitAtClose? token depth rest).map fun (before, after) => (item :: before, after)
      | .openParen, depth =>
          (splitAtClose? token (depth + 1) rest).map fun (before, after) => (item :: before, after)
      | _, depth =>
          (splitAtClose? token depth rest).map fun (before, after) => (item :: before, after)

theorem splitAtClose?_open {opened : α} (h : token opened = .openParen) (depth : Nat)
    (rest : List α) :
    splitAtClose? token depth (opened :: rest) =
      (splitAtClose? token (depth + 1) rest).map fun (before, after) =>
        (opened :: before, after) := by
  simp [splitAtClose?, h]

theorem splitAtClose?_close {closed : α} (h : token closed = .closeParen) (depth : Nat)
    (rest : List α) :
    splitAtClose? token (depth + 1) (closed :: rest) =
      (splitAtClose? token depth rest).map fun (before, after) => (closed :: before, after) := by
  simp [splitAtClose?, h]

theorem splitAtClose?_plain {item : α} (hopen : token item ≠ .openParen)
    (hclose : token item ≠ .closeParen) (depth : Nat) (rest : List α) :
    splitAtClose? token depth (item :: rest) =
      (splitAtClose? token depth rest).map fun (before, after) => (item :: before, after) := by
  cases h : token item <;> simp_all [splitAtClose?]

theorem Balanced.splitAtClose?_append {items : List α} (h : Balanced token items) (depth : Nat)
    (rest : List α) :
    splitAtClose? token depth (items ++ rest) =
      (splitAtClose? token depth rest).map fun (before, after) => (items ++ before, after) := by
  induction h generalizing depth rest with
  | nil => simp
  | plain hopen hclose _ ih =>
      rw [List.cons_append, splitAtClose?_plain hopen hclose, ih]
      cases splitAtClose? token depth rest <;> simp
  | @group opened closed inner items hopen _ hclose _ ihInner ihItems =>
      have hreshape : opened :: (inner ++ closed :: items) ++ rest =
          opened :: (inner ++ (closed :: (items ++ rest))) := by simp
      rw [hreshape, splitAtClose?_open hopen, ihInner, splitAtClose?_close hclose, ihItems]
      cases splitAtClose? token depth rest <;> simp

theorem Balanced.append_close_inj {first second rest rest' : List α} {closed closed' : α}
    (hfirst : Balanced token first) (hsecond : Balanced token second)
    (hclosed : token closed = .closeParen) (hclosed' : token closed' = .closeParen)
    (h : first ++ closed :: rest = second ++ closed' :: rest') :
    first = second ∧ rest = rest' := by
  have hsplit := congrArg (splitAtClose? token 0) h
  rw [hfirst.splitAtClose?_append, hsecond.splitAtClose?_append] at hsplit
  simpa [splitAtClose?, hclosed, hclosed'] using hsplit

theorem split_around_close {inner rest before after : List α} {opened closed : α}
    (hopen : token opened = .openParen) (hclose : token closed = .closeParen)
    (h : inner ++ closed :: rest = before ++ opened :: after) :
    (∃ later, inner = before ++ opened :: later ∧ after = later ++ closed :: rest) ∨
      ∃ later, rest = later ++ opened :: after := by
  obtain ⟨later, hbefore, hlater⟩ | ⟨later, hinner, hlater⟩ := List.append_eq_append_iff.mp h
  · cases later with
    | nil =>
        obtain ⟨rfl, -⟩ := List.cons.inj hlater
        simp [hopen] at hclose
    | cons _ later => exact .inr ⟨later, (List.cons.inj hlater).2⟩
  · cases later with
    | nil =>
        obtain ⟨rfl, -⟩ := List.cons.inj hlater
        simp [hopen] at hclose
    | cons _ later =>
        obtain ⟨rfl, hafter⟩ := List.cons.inj hlater
        exact .inl ⟨later, hinner, hafter⟩

theorem Balanced.exists_partner {items : List α} (h : Balanced token items) {opened : α}
    {before after : List α} (hopen : token opened = .openParen)
    (hitems : items = before ++ opened :: after) :
    ∃ inner closed rest, Balanced token inner ∧ token closed = .closeParen ∧
      after = inner ++ closed :: rest := by
  induction h generalizing before after with
  | nil => simp at hitems
  | plain hplain _ _ ih =>
      cases before with
      | nil =>
          obtain ⟨rfl, -⟩ := List.cons.inj hitems
          contradiction
      | cons _ before => exact ih (List.cons.inj hitems).2
  | @group _ closed inner rest _ hinner hclose _ ihInner ihRest =>
      cases before with
      | nil => exact ⟨inner, closed, rest, hinner, hclose, (List.cons.inj hitems).2.symm⟩
      | cons _ before =>
          obtain ⟨later, hin, rfl⟩ | ⟨later, hout⟩ :=
            split_around_close hopen hclose (List.cons.inj hitems).2
          · obtain ⟨nested, partner, tail, hnested, hpartner, rfl⟩ := ihInner hin
            exact ⟨nested, partner, tail ++ closed :: rest, hnested, hpartner, by simp⟩
          · exact ihRest hout

/-! ## Enclosed lists -/

theorem not_encloses_nil {inner : List α} : ¬ Encloses token [] inner := by
  rintro ⟨-, before, _, _, _, -, -, h⟩
  simp at h

theorem encloses_plain_iff {item : α} {rest inner : List α} (hplain : token item ≠ .openParen) :
    Encloses token (item :: rest) inner ↔ Encloses token rest inner := by
  constructor
  · rintro ⟨hinner, before, opened, closed, after, hopen, hclose, h⟩
    cases before with
    | nil =>
        obtain ⟨rfl, -⟩ := List.cons.inj h
        contradiction
    | cons _ before =>
        exact ⟨hinner, before, opened, closed, after, hopen, hclose, (List.cons.inj h).2⟩
  · rintro ⟨hinner, before, opened, closed, after, hopen, hclose, rfl⟩
    exact ⟨hinner, item :: before, opened, closed, after, hopen, hclose, rfl⟩

theorem encloses_group_iff {opened closed : α} {group rest inner : List α}
    (hopen : token opened = .openParen) (hgroup : Balanced token group)
    (hclose : token closed = .closeParen) :
    Encloses token (opened :: (group ++ closed :: rest)) inner ↔
      inner = group ∨ Encloses token group inner ∨ Encloses token rest inner := by
  constructor
  · rintro ⟨hinner, before, opened', closed', after, hopen', hclose', h⟩
    cases before with
    | nil =>
        obtain ⟨rfl, -⟩ := hinner.append_close_inj hgroup hclose' hclose
          (List.cons.inj h).2.symm
        exact .inl rfl
    | cons _ before =>
        obtain ⟨later, hin, hlater⟩ | ⟨later, hout⟩ :=
          split_around_close hopen' hclose (List.cons.inj h).2
        · obtain ⟨nested, partner, tail, hnested, hpartner, rfl⟩ :=
            hgroup.exists_partner hopen' hin
          rw [List.append_assoc, List.cons_append] at hlater
          obtain ⟨rfl, -⟩ := hinner.append_close_inj hnested hclose' hpartner hlater
          exact .inr (.inl ⟨hinner, before, opened', partner, tail, hopen', hpartner, hin⟩)
        · exact .inr (.inr ⟨hinner, later, opened', closed', after, hopen', hclose', hout⟩)
  · rintro (rfl | ⟨hinner, before, opened', closed', after, hopen', hclose', rfl⟩ |
      ⟨hinner, before, opened', closed', after, hopen', hclose', rfl⟩)
    · exact ⟨hgroup, [], opened, closed, rest, hopen, hclose, rfl⟩
    · exact ⟨hinner, opened :: before, opened', closed', after ++ closed :: rest, hopen', hclose',
        by simp⟩
    · exact ⟨hinner, opened :: (group ++ closed :: before), opened', closed', after, hopen',
        hclose', by simp⟩

theorem encloses_of_group_append {opened closed : α} {group rest inner : List α}
    (hopen : token opened = .openParen) (hgroup : Balanced token group)
    (hclose : token closed = .closeParen)
    (h : Encloses token (opened :: (group ++ [closed]) ++ rest) inner) :
    Encloses token (opened :: (group ++ [closed])) inner ∨ Encloses token rest inner := by
  have hreshape : opened :: (group ++ [closed]) ++ rest = opened :: (group ++ closed :: rest) := by
    simp
  rw [hreshape, encloses_group_iff hopen hgroup hclose] at h
  rw [encloses_group_iff hopen hgroup hclose]
  obtain hsame | hin | hout := h
  · exact .inl (.inl hsame)
  · exact .inl (.inr (.inl hin))
  · exact .inr hout

/-! ## Open groups -/

def Closes (token : α → Token) : Nat → List α → Prop
  | 0, items => Balanced token items
  | count + 1, items => ∃ inner closed rest, Balanced token inner ∧ token closed = .closeParen ∧
      items = inner ++ closed :: rest ∧ Closes token count rest

theorem closes_plain {item : α} {rest : List α} {count : Nat} (hopen : token item ≠ .openParen)
    (hclose : token item ≠ .closeParen) (h : Closes token count rest) :
    Closes token count (item :: rest) := by
  cases count with
  | zero => exact .plain hopen hclose h
  | succ count =>
      obtain ⟨inner, closed, tail, hinner, hclosed, rfl, htail⟩ := h
      exact ⟨item :: inner, closed, tail, .plain hopen hclose hinner, hclosed, rfl, htail⟩

theorem closes_open {opened : α} {rest : List α} {count : Nat}
    (hopen : token opened = .openParen) (h : Closes token (count + 1) rest) :
    Closes token count (opened :: rest) := by
  obtain ⟨group, closed, tail, hgroup, hclosed, rfl, htail⟩ := h
  cases count with
  | zero => exact .group hopen hgroup hclosed htail
  | succ count =>
      obtain ⟨inner, closed', tail', hinner, hclosed', rfl, htail'⟩ := htail
      exact ⟨opened :: (group ++ closed :: inner), closed', tail',
        .group hopen hgroup hclosed hinner, hclosed', by simp, htail'⟩

theorem closes_close {closed : α} {rest : List α} {count : Nat}
    (hclose : token closed = .closeParen) (h : Closes token count rest) :
    Closes token (count + 1) (closed :: rest) :=
  ⟨[], closed, rest, .nil, hclose, rfl, h⟩

/-! ## Items and their tokens -/

theorem balanced_map_iff {β : Type} {f : β → α} {items : List β} :
    Balanced token (items.map f) ↔ Balanced (token ∘ f) items := by
  constructor
  · intro h
    generalize hmap : items.map f = mapped at h
    induction h generalizing items with
    | nil =>
        rw [List.map_eq_nil_iff.mp hmap]
        exact .nil
    | plain hopen hclose _ ih =>
        obtain ⟨item, rest, rfl, rfl, hrest⟩ := List.map_eq_cons_iff.mp hmap
        exact .plain hopen hclose (ih hrest)
    | group hopen _ hclose _ ihInner ihRest =>
        obtain ⟨opened, tail, rfl, rfl, htail⟩ := List.map_eq_cons_iff.mp hmap
        obtain ⟨inner, tail', rfl, hinner, htail'⟩ := List.map_eq_append_iff.mp htail
        obtain ⟨closed, rest, rfl, rfl, hrest⟩ := List.map_eq_cons_iff.mp htail'
        exact .group hopen (ihInner hinner) hclose (ihRest hrest)
  · intro h
    induction h with
    | nil => exact .nil
    | plain hopen hclose _ ih => exact .plain hopen hclose ih
    | group hopen _ hclose _ ihInner ihRest =>
        rw [List.map_cons, List.map_append, List.map_cons]
        exact .group hopen ihInner hclose ihRest

end Calculator
