import Calculator.Proofs.FiniteForm

/-!
# Decimals that read back

A decimal that equals a canonical form exactly has that canonical form as its value, both
where the value is one quotient of small numbers and where it is computed from the exact
digits.  The decimal chosen for a finite number is either found by reading candidates back,
or it is the exact expansion of the number, so it always reads back as the number.
-/

namespace Calculator

namespace Binary64

open Float.Model Float.Model.UnpackedFloat

variable {m n p j k : Nat} {e : Int}

/-! ## Exact decimals -/

/-- The decimal `n / 10 ^ p` is exactly `m · 2 ^ e`. -/
def Equals (n p m : Nat) (e : Int) : Prop :=
  ∃ j k : Nat, n * 2 ^ j = m * 10 ^ p * 2 ^ k ∧ (k : Int) = e + j

theorem Equals.pos (hequals : Equals n p m e) (h : Canonical m e) : 0 < n := by
  obtain ⟨j, k, hexact, -⟩ := hequals
  have hright : 0 < m * 10 ^ p * 2 ^ k :=
    Nat.mul_pos (Nat.mul_pos h.pos (Nat.pow_pos (by decide))) (Nat.two_pow_pos k)
  exact Nat.pos_of_mul_pos_right (hexact ▸ hright)

theorem Equals.exponent_ge (hequals : Equals n 0 m e) (h : Canonical m e) : -52 ≤ e := by
  have hpos := hequals.pos h
  obtain ⟨j, k, hexact, hbalance⟩ := hequals
  rw [Nat.pow_zero, Nat.mul_one] at hexact
  have hlt : 2 ^ j < 2 ^ (53 + k) := calc
    2 ^ j ≤ n * 2 ^ j := Nat.le_mul_of_pos_left _ hpos
    _ = m * 2 ^ k := hexact
    _ < 2 ^ 53 * 2 ^ k := Nat.mul_lt_mul_of_pos_right h.lt (Nat.two_pow_pos k)
    _ = 2 ^ (53 + k) := (Nat.pow_add 2 53 k).symm
  have := (Nat.pow_lt_pow_iff_right (by decide)).mp hlt
  omega

/-! ## Small operands -/

theorem ofNat_eq (hpos : 0 < n) (hlt : n < 2 ^ 53) :
    UnpackedFloat.ofNat Format.binary64 n =
      .finite .positive (n <<< (52 - n.log2)) ((n.log2 : Int) - 52)
        (canonical_shiftLeft hpos hlt).pos := by
  have hsign : compare (n : Int) 0 = .gt := Int.compare_eq_gt.mpr (by omega)
  have hlog := (Nat.log2_lt (Nat.ne_of_gt hpos)).mpr hlt
  have htarget : Format.binary64.targetExponent (totalExponent n 0) = (n.log2 : Int) - 52 := by
    rw [targetExponent_binary64, totalExponent]
    omega
  have hshift : (0 - ((n.log2 : Int) - 52)).toNat = 52 - n.log2 := by omega
  have hexponent : (0 : Int) - (52 - n.log2 : Nat) = (n.log2 : Int) - 52 - (0 : Nat) := by omega
  have hround := (canonical_shiftLeft hpos hlt).roundWithAccuracy_eq .positive 0
  rw [Nat.pow_zero, Nat.mul_one] at hround
  unfold UnpackedFloat.ofNat UnpackedFloat.ofInt UnpackedFloat.normalize
  rw [hsign]
  dsimp only
  unfold UnpackedFloat.round decreaseExponent
  dsimp only
  rw [Int.toNat_natCast, htarget, hshift, hexponent]
  exact hround

theorem toFloat_eq (hpos : 0 < n) (hlt : n < 2 ^ 53) :
    n.toUInt64.toFloat = ofCanonical .positive (canonical_shiftLeft hpos hlt) := by
  have hword : n.toUInt64.toNat = n := by
    rw [Nat.toUInt64, UInt64.toNat_ofNat']
    omega
  change Float.ofModel (.pack (UnpackedFloat.ofNat Format.binary64 n.toUInt64.toNat)) = _
  rw [hword, ofNat_eq hpos hlt]
  rfl

theorem powersOfTen_exact : ∀ k : Fin Float.exactlyRepresentablePowersOfTen.size,
    let x := Float.exactlyRepresentablePowersOfTen[k]
    x.isFinite = true ∧ x.toBits.toNat < 2 ^ 63 ∧ 0 < (Magnitude.ofFloat x).mantissa ∧
      (Magnitude.ofFloat x).mantissa * 2 ^ (Magnitude.ofFloat x).exponent =
        10 ^ k.val * 2 ^ 1075 := by
  decide +kernel

theorem magnitude_signedZero (s : Sign) : Magnitude.ofFloat (signedZero s) = ⟨0, 1⟩ := by
  cases s <;> rfl

theorem powerOfTen_eq (hp : p < Float.exactlyRepresentablePowersOfTen.size) :
    ∃ m e, ∃ h : Canonical m e,
      Float.exactlyRepresentablePowersOfTen[p] = ofCanonical .positive h ∧
        Equals (10 ^ p) 0 m e := by
  obtain ⟨hfinite, hsign, hpos, hexact⟩ := powersOfTen_exact ⟨p, hp⟩
  rcases finite_cases hfinite with ⟨s, hzero⟩ | ⟨s, m, e, h, hform⟩
  · rw [hzero, magnitude_signedZero] at hpos
    exact absurd hpos (Nat.lt_irrefl 0)
  · rw [hform, magnitude_ofCanonical] at hexact
    have hleast := h.least_le
    refine ⟨m, e, h, ?_, 1075, (e + 1075).toNat, ?_, by omega⟩
    · cases s with
      | positive => exact hform
      | negative =>
          rw [hform] at hsign
          have := (negative_iff_le_toBits .negative h).mpr rfl
          omega
    · rw [Nat.pow_zero, Nat.mul_one]
      exact hexact.symm

/-! ## Values of exact decimals -/

theorem mul_one_of_equals (hequals : Equals n 0 m e) (h : Canonical m e) (hpos : 0 < n)
    (hlt : n < 2 ^ 53) :
    n.toUInt64.toFloat * Float.exactlyRepresentablePowersOfTen[0] = ofCanonical .positive h := by
  have hone : Canonical (2 ^ 52) (-52) := by constructor <;> decide
  have hpower : Float.exactlyRepresentablePowersOfTen[0] = ofCanonical .positive hone := rfl
  have hlog := (Nat.log2_lt (Nat.ne_of_gt hpos)).mpr hlt
  have hexponent := hequals.exponent_ge h
  obtain ⟨j, k, hexact, hbalance⟩ := hequals
  rw [toFloat_eq hpos hlt, hpower]
  refine mul_ofCanonical (j := j) (k := k + (52 - n.log2) + 52) h _ _ ?_ (by omega) (by omega)
  calc n <<< (52 - n.log2) * 2 ^ 52 * 2 ^ j
      = n * 2 ^ j * 2 ^ (52 - n.log2) * 2 ^ 52 := by rw [Nat.shiftLeft_eq]; ac_rfl
    _ = m * 10 ^ 0 * 2 ^ k * 2 ^ (52 - n.log2) * 2 ^ 52 := by rw [hexact]
    _ = m * 2 ^ (k + (52 - n.log2) + 52) := by rw [Nat.pow_add, Nat.pow_add]; ac_rfl

theorem div_power_of_equals (hequals : Equals n p m e) (h : Canonical m e) (hpos : 0 < n)
    (hlt : n < 2 ^ 53) (hp : p < Float.exactlyRepresentablePowersOfTen.size) :
    n.toUInt64.toFloat / Float.exactlyRepresentablePowersOfTen[p] = ofCanonical .positive h := by
  have hlog := (Nat.log2_lt (Nat.ne_of_gt hpos)).mpr hlt
  obtain ⟨m₂, e₂, h₂, hpower, j₂, k₂, hten, hbalance₂⟩ := powerOfTen_eq hp
  obtain ⟨j, k, hexact, hbalance⟩ := hequals
  rw [toFloat_eq hpos hlt, hpower]
  refine div_ofCanonical (j := j + j₂) (k := k₂ + k + (52 - n.log2)) h _ h₂ ?_ (by omega)
  calc n <<< (52 - n.log2) * 2 ^ (j + j₂)
      = n * 2 ^ j * 2 ^ j₂ * 2 ^ (52 - n.log2) := by rw [Nat.shiftLeft_eq, Nat.pow_add]; ac_rfl
    _ = m * (10 ^ p * 2 ^ j₂) * 2 ^ k * 2 ^ (52 - n.log2) := by rw [hexact]; ac_rfl
    _ = m * (m₂ * 10 ^ 0 * 2 ^ k₂) * 2 ^ k * 2 ^ (52 - n.log2) := by rw [hten]
    _ = m * m₂ * 2 ^ (k₂ + k + (52 - n.log2)) := by
        rw [Nat.pow_add, Nat.pow_add, Nat.pow_zero, Nat.mul_one]; ac_rfl

theorem ofScientific_model_whole (hequals : Equals n 0 m e) (h : Canonical m e) (hpos : 0 < n) :
    UnpackedFloat.ofScientific Format.binary64 n 0 = .finite .positive m e h.pos := by
  have hexponent := hequals.exponent_ge h
  obtain ⟨j, k, hexact, hbalance⟩ := hequals
  have hbits : Format.binary64.mantissaBits = 53 := rfl
  have hlarge : ¬ (0 : Int) > 2 ^ Format.binary64.exponentBits := by decide
  have hsmall : ¬ (0 : Int) < -((2 ^ Format.binary64.exponentBits : Int) + n.log2) := by
    change ¬ (0 : Int) < -(2048 + n.log2)
    omega
  unfold UnpackedFloat.ofScientific
  rw [dif_neg (Nat.ne_of_gt hpos), if_neg hlarge, if_neg hsmall, if_pos (Int.le_refl 0)]
  refine mul_eq_of_exact (j := j) (k := k + 53) h ?_ (by omega) (by omega)
  calc n <<< Format.binary64.mantissaBits * 10 ^ Int.toNat 0 * 2 ^ j
      = n * 2 ^ j * 2 ^ 53 := by rw [Nat.shiftLeft_eq, hbits, Int.toNat_zero, Nat.pow_zero]; ac_rfl
    _ = m * 10 ^ 0 * 2 ^ k * 2 ^ 53 := by rw [hexact]
    _ = m * 2 ^ (k + 53) := by rw [Nat.pow_zero, Nat.mul_one, Nat.mul_assoc, Nat.pow_add]

theorem ofScientific_model_fraction (hequals : Equals n p m e) (h : Canonical m e) (hpos : 0 < n)
    (hp : 0 < p) (hp' : p ≤ 1074) :
    UnpackedFloat.ofScientific Format.binary64 n (-p) = .finite .positive m e h.pos := by
  obtain ⟨j, k, hexact, hbalance⟩ := hequals
  have hlarge : ¬ (-p : Int) > 2 ^ Format.binary64.exponentBits := by
    change ¬ (-p : Int) > 2048
    omega
  have hsmall : ¬ (-p : Int) < -((2 ^ Format.binary64.exponentBits : Int) + n.log2) := by
    change ¬ (-p : Int) < -(2048 + n.log2)
    omega
  have hnegative : ¬ 0 ≤ (-p : Int) := by omega
  have hplaces : (-(-p : Int)).toNat = p := by omega
  unfold UnpackedFloat.ofScientific
  rw [dif_neg (Nat.ne_of_gt hpos), if_neg hlarge, if_neg hsmall, if_neg hnegative]
  refine div_eq_of_exact (j := j) (k := k) h ?_ (by omega)
  rw [hplaces]
  exact hexact

theorem ofScientific_whole (hequals : Equals n 0 m e) (h : Canonical m e) :
    Float.ofScientific n false 0 = ofCanonical .positive h := by
  have hpos := hequals.pos h
  unfold Float.ofScientific
  split
  · rename_i hsmall
    exact mul_one_of_equals hequals h hpos hsmall.1
  · change Float.ofModel (.pack (UnpackedFloat.ofScientific Format.binary64 n 0)) = _
    rw [ofScientific_model_whole hequals h hpos]
    rfl

theorem ofScientific_fraction (hequals : Equals n p m e) (h : Canonical m e) (hp : 0 < p)
    (hp' : p ≤ 1074) :
    Float.ofScientific n true p = ofCanonical .positive h := by
  have hpos := hequals.pos h
  unfold Float.ofScientific
  split
  · rename_i hsmall
    exact div_power_of_equals hequals h hpos hsmall.1 _
  · rw [if_pos rfl, Int.negOfNat_eq]
    change Float.ofModel (.pack (UnpackedFloat.ofScientific Format.binary64 n (-p))) = _
    rw [ofScientific_model_fraction hequals h hpos hp hp']
    rfl

end Binary64

namespace Decimal

open Binary64 Float.Model.UnpackedFloat

variable {m digits places : Nat} {e : Int}

theorem value_of_equals {d : Decimal} (hequals : Equals d.digits d.places m e) (h : Canonical m e)
    (hplaces : d.places ≤ 1074) :
    d.value = ofCanonical .positive h := by
  rcases d with ⟨digits, places⟩
  cases places with
  | zero => exact ofScientific_whole hequals h
  | succ places => exact ofScientific_fraction hequals h (Nat.succ_pos places) hplaces

/-! ## The decimal of a number -/

theorem places_stripped_le : (stripped digits places).places ≤ places := by
  induction places generalizing digits with
  | zero => exact Nat.le_refl 0
  | succ places ih =>
      unfold stripped
      split
      · exact Nat.le_succ_of_le ih
      · exact Nat.le_refl _

theorem equals_stripped {k p : Nat} (hbalance : (k : Int) = e + p) :
    let d := stripped (m * Nat.pow 2 k * Nat.pow 5 p) p
    Equals d.digits d.places m e := by
  intro d
  have hvalue : d.digits * 10 ^ p = m * 2 ^ k * 5 ^ p * 10 ^ d.places := digits_mul_stripped _ p
  refine ⟨p, k, ?_, hbalance⟩
  refine Nat.eq_of_mul_eq_mul_right (Nat.pow_pos (by decide) : 0 < 5 ^ p) ?_
  calc d.digits * 2 ^ p * 5 ^ p
      = d.digits * 10 ^ p := by rw [Nat.mul_assoc, ← Nat.mul_pow]
    _ = m * 2 ^ k * 5 ^ p * 10 ^ d.places := hvalue
    _ = m * 10 ^ d.places * 2 ^ k * 5 ^ p := by ac_rfl

theorem value_expansion (h : Canonical m e) :
    (⟨m, (e + 1075).toNat⟩ : Magnitude).expansion.value = ofCanonical .positive h := by
  have hleast := h.least_le
  have hplaces : (⟨m, (e + 1075).toNat⟩ : Magnitude).expansion.places ≤ 1074 :=
    Nat.le_trans places_stripped_le (by dsimp only; omega)
  exact value_of_equals (equals_stripped (by dsimp only; omega)) h hplaces

theorem value_ofFloat_canonical (h : Canonical m e) :
    (ofFloat (ofCanonical .positive h)).value = ofCanonical .positive h := by
  unfold ofFloat
  dsimp only
  rw [magnitude_ofCanonical, if_neg (Nat.ne_of_gt h.pos)]
  generalize hsearch : List.findSome? _ _ = found
  cases found with
  | none => exact value_expansion h
  | some d =>
      obtain ⟨n, -, hn⟩ := List.exists_of_findSome?_eq_some hsearch
      exact value_of_nearestOn? hn

theorem value_ofFloat {x : Float} (hx : x.isFinite = true) (hsign : x.toBits.toNat < 2 ^ 63) :
    (ofFloat x).value = x := by
  rcases finite_cases hx with ⟨s, rfl⟩ | ⟨s, m, e, h, rfl⟩
  · cases s with
    | positive => rfl
    | negative => exact absurd hsign (by decide)
  · cases s with
    | positive => exact value_ofFloat_canonical h
    | negative => exact absurd ((negative_iff_le_toBits _ h).mpr rfl) (Nat.not_le_of_lt hsign)

end Decimal

end Calculator
