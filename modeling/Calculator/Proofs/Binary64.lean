import Mathlib.Algebra.Order.Ring.Nat

/-!
# Exact binary64 arithmetic

Every finite binary64 value other than zero has one canonical form: a sign, a mantissa of at
most 53 bits and an exponent, where the mantissa has all 53 bits unless the exponent is the
least one.  Rounding leaves canonical forms alone, so a product or a quotient that is a
canonical form is computed without an error.
-/

namespace Calculator

namespace Binary64

open Float.Model Float.Model.UnpackedFloat

structure Canonical (mantissa : Nat) (exponent : Int) : Prop where
  pos : 0 < mantissa
  lt : mantissa < 2 ^ 53
  least_le : -1074 ≤ exponent
  le_greatest : exponent ≤ 971
  full : 2 ^ 52 ≤ mantissa ∨ exponent = -1074

variable {m m₁ m₂ j k : Nat} {e e₁ e₂ : Int} {s s₁ s₂ : Sign}

/-! ## Leading bits -/

theorem log2_mul_pow (hm : 0 < m) : (m * 2 ^ j).log2 = m.log2 + j := by
  have hne : m ≠ 0 := Nat.ne_of_gt hm
  have hpow : 0 < 2 ^ j := Nat.two_pow_pos j
  refine (Nat.log2_eq_iff (Nat.ne_of_gt (Nat.mul_pos hm hpow))).mpr ⟨?_, ?_⟩
  · rw [Nat.pow_add]
    exact Nat.mul_le_mul_right _ (Nat.log2_self_le hne)
  · rw [Nat.add_right_comm, Nat.pow_add]
    exact Nat.mul_lt_mul_of_pos_right Nat.lt_log2_self hpow

theorem log2_le_of_mul_pow_eq (hm₁ : 0 < m₁) (h : m₁ * 2 ^ j = m * m₂ * 2 ^ k) :
    m₁.log2 + j ≤ m.log2 + m₂.log2 + 1 + k := by
  have hlow : 2 ^ (m₁.log2 + j) ≤ m₁ * 2 ^ j := by
    rw [Nat.pow_add]
    exact Nat.mul_le_mul_right _ (Nat.log2_self_le (Nat.ne_of_gt hm₁))
  have hhigh : m * m₂ * 2 ^ k < 2 ^ (m.log2 + 1 + (m₂.log2 + 1) + k) := by
    rw [Nat.pow_add, Nat.pow_add]
    exact Nat.mul_lt_mul_of_pos_right
      (Nat.mul_lt_mul'' Nat.lt_log2_self Nat.lt_log2_self) (Nat.two_pow_pos k)
  have hexponents := (Nat.pow_lt_pow_iff_right (by decide)).mp (lt_of_le_of_lt (h ▸ hlow) hhigh)
  omega

theorem targetExponent_binary64 (t : Int) :
    Format.binary64.targetExponent t = max (t - 53) (-1074) := rfl

theorem Canonical.log2_le (h : Canonical m e) : m.log2 ≤ 52 := by
  have := (Nat.log2_lt (Nat.ne_of_gt h.pos)).mpr h.lt
  omega

theorem Canonical.targetExponent_eq (h : Canonical m e) :
    Format.binary64.targetExponent (totalExponent m e) = e := by
  have hlog := h.log2_le
  rw [targetExponent_binary64, totalExponent]
  rcases h.full with hfull | hleast
  · have := (Nat.le_log2 (Nat.ne_of_gt h.pos)).mpr hfull
    have := h.least_le
    omega
  · omega

theorem canonical_shiftLeft {n : Nat} (hpos : 0 < n) (hlt : n < 2 ^ 53) :
    Canonical (n <<< (52 - n.log2)) ((n.log2 : Int) - 52) := by
  have hne : n ≠ 0 := Nat.ne_of_gt hpos
  have hlog : n.log2 < 53 := (Nat.log2_lt hne).mpr hlt
  have hshifted : (n <<< (52 - n.log2)).log2 = 52 := by
    rw [Nat.shiftLeft_eq, log2_mul_pow hpos]
    omega
  have hpos' : 0 < n <<< (52 - n.log2) := by
    rw [Nat.shiftLeft_eq]
    exact Nat.mul_pos hpos (Nat.two_pow_pos _)
  obtain ⟨hlow, hhigh⟩ := (Nat.log2_eq_iff (Nat.ne_of_gt hpos')).mp hshifted
  constructor
  · exact hpos'
  · exact hhigh
  · omega
  · omega
  · exact Or.inl hlow

/-! ## Rounding -/

theorem shiftRight_ofMantissa (m j : Nat) :
    ExtendedMantissa.ofMantissaAndAccuracy (m * 2 ^ j) .exact >>> j =
      ExtendedMantissa.ofMantissaAndAccuracy m .exact := by
  induction j generalizing m with
  | zero => rw [Nat.pow_zero, Nat.mul_one]; rfl
  | succ j ih =>
      have hassoc : m * 2 ^ (j + 1) = m * 2 * 2 ^ j := by
        rw [Nat.pow_succ, Nat.mul_comm (2 ^ j), Nat.mul_assoc]
      rw [hassoc]
      change (ExtendedMantissa.ofMantissaAndAccuracy (m * 2 * 2 ^ j) .exact >>> j).shiftRightOne =
        ExtendedMantissa.ofMantissaAndAccuracy m .exact
      rw [ih]
      simp [ExtendedMantissa.shiftRightOne, ExtendedMantissa.ofMantissaAndAccuracy]

theorem Canonical.shiftToTargetExponent_eq (h : Canonical m e) (j : Nat) :
    shiftToTargetExponent Format.binary64 (m * 2 ^ j) (e - j) .exact =
      (ExtendedMantissa.ofMantissaAndAccuracy m .exact, e) := by
  have hsame : totalExponent (m * 2 ^ j) (e - j) = totalExponent m e := by
    unfold totalExponent
    rw [log2_mul_pow h.pos]
    omega
  have hshift : (e - (e - (j : Int))).toNat = j := by omega
  unfold shiftToTargetExponent shiftToExponent
  dsimp only
  rw [hsame, h.targetExponent_eq, hshift, shiftRight_ofMantissa]
  exact Prod.ext rfl (Int.sub_add_cancel e j)

theorem Canonical.roundWithAccuracy_eq (h : Canonical m e) (s : Sign) (j : Nat) :
    roundWithAccuracy Format.binary64 s (m * 2 ^ j) (e - j) .exact = .finite s m e h.pos := by
  -- after rounding the mantissa is shifted once more, which here moves it by no bit
  have hagain := h.shiftToTargetExponent_eq 0
  rw [Nat.pow_zero, Nat.mul_one, Int.natCast_zero, Int.sub_zero] at hagain
  unfold roundWithAccuracy
  rw [h.shiftToTargetExponent_eq]
  dsimp only [ExtendedMantissa.ofMantissaAndAccuracy, ExtendedMantissa.roundedMantissa,
    ExtendedMantissa.accuracy, Accuracy.roundToNearestEven]
  rw [hagain]
  exact dif_neg (Nat.ne_of_gt h.pos)

/-! ## Products and quotients -/

theorem mul_eq_of_exact (h : Canonical m e) {h₁ : 0 < m₁} {h₂ : 0 < m₂}
    (hmantissa : m₁ * m₂ * 2 ^ j = m * 2 ^ k) (hexponent : e₁ + e₂ = e + j - k)
    (hle : e₁ + e₂ ≤ e) :
    UnpackedFloat.mul Format.binary64 (.finite s₁ m₁ e₁ h₁) (.finite s₂ m₂ e₂ h₂) =
      .finite (s₁ * s₂) m e h.pos := by
  obtain ⟨i, hi⟩ := Int.le.dest hle
  have hproduct : m₁ * m₂ = m * 2 ^ i := by
    have hsum : k = i + j := by omega
    refine Nat.eq_of_mul_eq_mul_right (Nat.two_pow_pos j) ?_
    rw [hmantissa, hsum, Nat.pow_add, Nat.mul_assoc]
  have hshift : e₁ + e₂ = e - i := by omega
  unfold UnpackedFloat.mul
  dsimp only
  rw [hproduct, hshift]
  exact h.roundWithAccuracy_eq _ i

theorem targetExponent_le_of_exact (h : Canonical m e) (h₁ : 0 < m₁)
    (hmantissa : m₁ * 2 ^ j = m * m₂ * 2 ^ k) (hexponent : e₁ - e₂ = e + j - k) :
    Format.binary64.targetExponent (totalExponent m₁ e₁ - totalExponent m₂ e₂) ≤ e := by
  have hlog := log2_le_of_mul_pow_eq h₁ hmantissa
  have htarget := h.targetExponent_eq
  rw [targetExponent_binary64] at htarget ⊢
  unfold totalExponent at *
  omega

theorem divCore_eq_of_exact (h : Canonical m e) (h₁ : 0 < m₁) (h₂ : 0 < m₂)
    (hmantissa : m₁ * 2 ^ j = m * m₂ * 2 ^ k) (hexponent : e₁ - e₂ = e + j - k) :
    ∃ i : Nat, divCore Format.binary64 m₁ e₁ m₂ e₂ = (m * 2 ^ i, e - i, .exact) := by
  have hroom := targetExponent_le_of_exact h h₁ hmantissa hexponent
  unfold divCore
  dsimp only
  generalize Format.binary64.targetExponent (totalExponent m₁ e₁ - totalExponent m₂ e₂) = wanted
    at hroom ⊢
  -- the dividend is moved left by `l` bits, and the quotient keeps `i` of them
  obtain ⟨i, hi⟩ := Int.le.dest (Int.le_trans (Int.min_le_right (e₁ - e₂) wanted) hroom)
  obtain ⟨l, hl⟩ := Int.le.dest (Int.min_le_left (e₁ - e₂) wanted)
  have hshift : (e₁ - e₂ - min (e₁ - e₂) wanted).toNat = l := by omega
  have hscaled : m₁ * 2 ^ l = m * 2 ^ i * m₂ := by
    have hbalance : l + k = i + j := by omega
    refine Nat.eq_of_mul_eq_mul_right (Nat.two_pow_pos k) ?_
    calc m₁ * 2 ^ l * 2 ^ k
        = m₁ * 2 ^ j * 2 ^ i := by
          rw [Nat.mul_assoc, ← Nat.pow_add, hbalance, Nat.add_comm, Nat.pow_add, Nat.mul_assoc]
      _ = m * m₂ * 2 ^ k * 2 ^ i := by rw [hmantissa]
      _ = m * 2 ^ i * m₂ * 2 ^ k := by
          rw [Nat.mul_right_comm, Nat.mul_right_comm m m₂]
  refine ⟨i, ?_⟩
  rw [hshift, Nat.shiftLeft_eq, hscaled, Nat.mul_div_cancel _ h₂, Nat.mul_mod_left]
  exact Prod.ext rfl (Prod.ext (by dsimp only; omega) rfl)

theorem div_eq_of_exact (h : Canonical m e) {h₁ : 0 < m₁} {h₂ : 0 < m₂}
    (hmantissa : m₁ * 2 ^ j = m * m₂ * 2 ^ k) (hexponent : e₁ - e₂ = e + j - k) :
    UnpackedFloat.div Format.binary64 (.finite s₁ m₁ e₁ h₁) (.finite s₂ m₂ e₂ h₂) =
      .finite (s₁ / s₂) m e h.pos := by
  obtain ⟨i, hquotient⟩ := divCore_eq_of_exact h h₁ h₂ hmantissa hexponent
  unfold UnpackedFloat.div
  dsimp only
  rw [hquotient]
  exact h.roundWithAccuracy_eq _ i

end Binary64

end Calculator
