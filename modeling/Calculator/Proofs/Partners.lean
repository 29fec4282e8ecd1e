import Calculator.Proofs.Brackets

/-!
# Parentheses without a partner

Which parentheses of a list have a partner in it, for lists that need not match.  A
closing parenthesis looks for its partner among the items before it, an opening one
among the items after it.
-/

namespace Calculator

variable {α : Type}

/-- A closing parenthesis that follows `before` has its partner there. -/
def HasPartnerBefore (token : α → Token) (before : List α) : Prop :=
  ∃ outer opened inner, token opened = .openParen ∧ Balanced token inner ∧
    before = outer ++ opened :: inner

def HasPartnerAfter (token : α → Token) (after : List α) : Prop :=
  ∃ inner closed rest, Balanced token inner ∧ token closed = .closeParen ∧
    after = inner ++ closed :: rest

def ClosesMatched (token : α → Token) (items : List α) : Prop :=
  ∀ before closed after, items = before ++ closed :: after → token closed = .closeParen →
    HasPartnerBefore token before

def OpensMatched (token : α → Token) (items : List α) : Prop :=
  ∀ before opened after, items = before ++ opened :: after → token opened = .openParen →
    HasPartnerAfter token after

variable {token : α → Token}

theorem append_cons_cases {inner rest before after : List α} {first second : α}
    (h : inner ++ first :: rest = before ++ second :: after) :
    (∃ later, inner = before ++ second :: later) ∨
      (before = inner ∧ second = first) ∨
      ∃ later, before = inner ++ first :: later ∧ rest = later ++ second :: after := by
  obtain ⟨later, hbefore, hlater⟩ | ⟨later, hinner, hlater⟩ := List.append_eq_append_iff.mp h
  · cases later with
    | nil => exact .inr (.inl ⟨by simpa using hbefore, (List.cons.inj hlater).1.symm⟩)
    | cons _ later =>
        obtain ⟨rfl, hrest⟩ := List.cons.inj hlater
        exact .inr (.inr ⟨later, hbefore, hrest⟩)
  · cases later with
    | nil => exact .inr (.inl ⟨by simpa using hinner.symm, (List.cons.inj hlater).1⟩)
    | cons _ later =>
        obtain ⟨rfl, -⟩ := List.cons.inj hlater
        exact .inl ⟨later, hinner⟩

theorem HasPartnerBefore.append_left {items : List α} (h : HasPartnerBefore token items)
    (front : List α) : HasPartnerBefore token (front ++ items) := by
  obtain ⟨outer, opened, inner, hopen, hinner, rfl⟩ := h
  exact ⟨front ++ outer, opened, inner, hopen, hinner, (List.append_assoc _ _ _).symm⟩

/-! ## Lists that match -/

theorem Balanced.append {first second : List α} (hfirst : Balanced token first)
    (hsecond : Balanced token second) : Balanced token (first ++ second) := by
  induction hfirst with
  | nil => exact hsecond
  | plain hopen hclose _ ih => exact .plain hopen hclose ih
  | group hopen hinner hclose _ _ ih =>
      rw [List.cons_append, List.append_assoc, List.cons_append]
      exact .group hopen hinner hclose ih

theorem Balanced.not_hasPartnerAfter {items : List α} (h : Balanced token items) :
    ¬ HasPartnerAfter token items := by
  rintro ⟨inner, closed, rest, hinner, hclose, rfl⟩
  have hnone := h.splitAtClose?_append 0 []
  rw [List.append_nil, hinner.splitAtClose?_append] at hnone
  simp [splitAtClose?, hclose] at hnone

theorem Balanced.opensMatched {items : List α} (h : Balanced token items) :
    OpensMatched token items := by
  intro before opened after hitems hopen
  obtain ⟨inner, closed, rest, hinner, hclose, rfl⟩ := h.exists_partner hopen hitems
  exact ⟨inner, closed, rest, hinner, hclose, rfl⟩

theorem Balanced.not_hasPartnerBefore {items : List α} (h : Balanced token items) :
    ¬ HasPartnerBefore token items := by
  rintro ⟨outer, opened, inner, hopen, hinner, hitems⟩
  exact hinner.not_hasPartnerAfter (h.opensMatched outer opened inner hitems hopen)

theorem Balanced.closesMatched {items : List α} (h : Balanced token items) :
    ClosesMatched token items := by
  intro before closed after hitems hclosed
  induction h generalizing before after with
  | nil => simp at hitems
  | plain _ hclose _ ih =>
      cases before with
      | nil =>
          obtain ⟨rfl, -⟩ := List.cons.inj hitems
          contradiction
      | cons item before => exact (ih before after (List.cons.inj hitems).2).append_left [item]
  | @group opened closed' inner rest hopen hinner _ _ ihInner ihRest =>
      cases before with
      | nil =>
          obtain ⟨rfl, -⟩ := List.cons.inj hitems
          simp [hopen] at hclosed
      | cons item before =>
          obtain ⟨rfl, htail⟩ := List.cons.inj hitems
          obtain ⟨later, hin⟩ | ⟨rfl, -⟩ | ⟨later, rfl, hout⟩ := append_cons_cases htail
          · exact (ihInner before later hin).append_left [opened]
          · exact ⟨[], opened, before, hopen, hinner, rfl⟩
          · have hpartner := (ihRest later after hout).append_left (opened :: (inner ++ [closed']))
            rwa [List.cons_append, List.append_assoc] at hpartner

theorem ClosesMatched.append {first second : List α} (hfirst : ClosesMatched token first)
    (hsecond : ClosesMatched token second) : ClosesMatched token (first ++ second) := by
  intro before closed after hitems hclosed
  obtain ⟨later, rfl, hlater⟩ | ⟨later, hearlier, hlater⟩ := List.append_eq_append_iff.mp hitems
  · exact (hsecond later closed after hlater hclosed).append_left first
  · cases later with
    | nil =>
        rw [List.append_nil] at hearlier
        subst hearlier
        simpa using (hsecond [] closed after hlater.symm hclosed).append_left first
    | cons _ later =>
        obtain ⟨rfl, -⟩ := List.cons.inj hlater
        exact hfirst before closed later hearlier hclosed

theorem closesMatched_open {opened : α} (hopen : token opened = .openParen) :
    ClosesMatched token [opened] := by
  intro before closed after hitems hclosed
  obtain ⟨-, hsame⟩ | ⟨_, -, hnone⟩ := List.cons_eq_append_iff.mp hitems
  · obtain ⟨rfl, -⟩ := List.cons.inj hsame
    simp [hopen] at hclosed
  · simp at hnone

end Calculator
