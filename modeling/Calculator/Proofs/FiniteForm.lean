import Calculator.Decimal.Shortest
import Calculator.Proofs.Binary64

/-!
# Bit patterns of finite values

A finite value is a signed zero or it has a canonical form, and its bit pattern holds the
sign, the exponent and the mantissa in three fields.  So the mantissa and the exponent that
the decimal search starts from are those of the canonical form.
-/

namespace Calculator

namespace Binary64

open Float.Model Float.Model.UnpackedFloat

variable {m m₁ m₂ j k : Nat} {e e₁ e₂ : Int} {s s₁ s₂ : Sign}

def ofCanonical (s : Sign) (h : Canonical m e) : Float :=
  .ofModel (.pack (.finite s m e h.pos))

def signedZero (s : Sign) : Float :=
  .ofModel (.pack (.zero s))

/-! ## Fields -/

def signField : Sign → Nat
  | .positive => 0
  | .negative => 1

/-- The exponent field of a canonical form, zero for the forms without an implicit bit. -/
def exponentField (m : Nat) (e : Int) : Nat :=
  if 2 ^ 52 ≤ m then (e + 1075).toNat else 0

theorem exponentField_lt (h : Canonical m e) : exponentField m e < 2047 := by
  have := h.le_greatest
  unfold exponentField
  split <;> omega

theorem toNat_packComponents (s : Sign) (exponent : BitVec 11) (mantissa : BitVec 52) :
    (packComponents Format.binary64 s exponent mantissa).toNat =
      signField s * 2 ^ 63 + exponent.toNat * 2 ^ 52 + mantissa.toNat := by
  unfold packComponents
  rw [BitVec.toNat_append, BitVec.toNat_append, ← Nat.shiftLeft_add_eq_or_of_lt mantissa.isLt,
    ← Nat.shiftLeft_add_eq_or_of_lt exponent.isLt, Nat.shiftLeft_eq, Nat.shiftLeft_eq]
  cases s
  · simp only [Sign.toBitVec, signField, BitVec.toNat_ofNat]
    omega
  · simp only [Sign.toBitVec, signField, BitVec.toNat_ofNat]
    omega

theorem log2_eq_iff_full (h : Canonical m e) :
    m.log2 + 1 = Format.binary64.mantissaBits ↔ 2 ^ 52 ≤ m := by
  have hlog := h.log2_le
  have hbits : Format.binary64.mantissaBits = 53 := rfl
  rw [← Nat.le_log2 (Nat.ne_of_gt h.pos), hbits]
  omega

theorem pack_canonical (s : Sign) (h : Canonical m e) :
    UnpackedFloat.pack Format.binary64 (.finite s m e h.pos) =
      packComponents Format.binary64 s (BitVec.ofNat 11 (exponentField m e))
        (BitVec.ofNat 52 m) := by
  have hbiased :
      (e + (Format.binary64.exponentBias : Int) + (52 : Nat)).toNat = (e + 1075).toNat := by
    change (e + 1023 + 52).toNat = _
    omega
  have hfits : ¬ 2 ^ 11 ≤ (e + 1075).toNat + 1 := by
    have := h.le_greatest
    omega
  unfold UnpackedFloat.pack exponentField
  dsimp only
  rw [hbiased, if_neg hfits]
  by_cases hfull : 2 ^ 52 ≤ m
  · rw [if_pos ((log2_eq_iff_full h).mpr hfull), if_pos hfull]
  · rw [if_neg fun hlog => hfull ((log2_eq_iff_full h).mp hlog), if_neg hfull]

theorem toNat_toBits_ofCanonical (s : Sign) (h : Canonical m e) :
    (ofCanonical s h).toBits.toNat =
      signField s * 2 ^ 63 + exponentField m e * 2 ^ 52 + m % 2 ^ 52 := by
  have hfield := exponentField_lt h
  have hpacked := toNat_packComponents s (BitVec.ofNat 11 (exponentField m e)) (BitVec.ofNat 52 m)
  rw [← pack_canonical s h, BitVec.toNat_ofNat, BitVec.toNat_ofNat,
    Nat.mod_eq_of_lt (by omega)] at hpacked
  exact hpacked

theorem toNat_toBits_signedZero (s : Sign) :
    (signedZero s).toBits.toNat = signField s * 2 ^ 63 := by
  cases s <;> rfl

theorem negative_iff_le_toBits (s : Sign) (h : Canonical m e) :
    2 ^ 63 ≤ (ofCanonical s h).toBits.toNat ↔ s = .negative := by
  have hfield := exponentField_lt h
  rw [toNat_toBits_ofCanonical]
  cases s
  · simp only [signField, iff_true]
    omega
  · simp only [signField, reduceCtorEq, iff_false]
    omega

theorem magnitude_ofCanonical (s : Sign) (h : Canonical m e) :
    Magnitude.ofFloat (ofCanonical s h) = ⟨m, (e + 1075).toNat⟩ := by
  have hlt := h.lt
  have hleast := h.least_le
  have hfield := exponentField_lt h
  have hbits := toNat_toBits_ofCanonical s h
  unfold Magnitude.ofFloat
  generalize (ofCanonical s h).toBits.toNat = bits at hbits ⊢
  have hexponent : bits / Nat.pow 2 52 % Nat.pow 2 11 = exponentField m e := by
    change bits / 2 ^ 52 % 2 ^ 11 = _
    omega
  have hfraction : bits % Nat.pow 2 52 = m % 2 ^ 52 := by
    change bits % 2 ^ 52 = _
    omega
  dsimp only
  rw [hexponent, hfraction, exponentField]
  by_cases hfull : 2 ^ 52 ≤ m
  · have hmantissa : Nat.pow 2 52 + m % 2 ^ 52 = m := by
      change 2 ^ 52 + m % 2 ^ 52 = m
      omega
    rw [if_pos hfull, if_neg (by omega), hmantissa]
  · have hsubnormal := h.full.resolve_left hfull
    rw [if_neg hfull, if_pos rfl, Nat.mod_eq_of_lt (Nat.lt_of_not_le hfull), hsubnormal]
    rfl

/-! ## Unpacking -/

theorem ofNat_eq_iff {width n k : Nat} (hn : n < 2 ^ width) (hk : k < 2 ^ width) :
    BitVec.ofNat width n = BitVec.ofNat width k ↔ n = k := by
  rw [← BitVec.toNat_inj, BitVec.toNat_ofNat, BitVec.toNat_ofNat, Nat.mod_eq_of_lt hn,
    Nat.mod_eq_of_lt hk]

theorem toNat_implicit_append (mantissa : BitVec 52) :
    (1#1 ++ mantissa).toNat = 2 ^ 52 + mantissa.toNat := by
  rw [BitVec.toNat_append, ← Nat.shiftLeft_add_eq_or_of_lt mantissa.isLt, Nat.shiftLeft_eq]
  rfl

theorem ofBitVec_unpackSign (s : Sign) (exponent : BitVec 11) (mantissa : BitVec 52) :
    Sign.ofBitVec (unpackSign (packComponents Format.binary64 s exponent mantissa)) = s := by
  have hsign : unpackSign (packComponents Format.binary64 s exponent mantissa) = s.toBitVec := by
    apply BitVec.eq_of_toNat_eq
    unfold unpackSign
    rw [BitVec.toNat_cast, BitVec.extractLsb_toNat, Nat.shiftRight_eq_div_pow,
      toNat_packComponents]
    change (signField s * 2 ^ 63 + exponent.toNat * 2 ^ 52 + mantissa.toNat) / 2 ^ 63 % 2 = _
    have hexponent := exponent.isLt
    have hmantissa := mantissa.isLt
    cases s
    · simp only [signField, Sign.toBitVec, BitVec.toNat_ofNat]
      omega
    · simp only [signField, Sign.toBitVec, BitVec.toNat_ofNat]
      omega
  rw [hsign]
  cases s <;> rfl

theorem unpack_ofCanonical (s : Sign) (h : Canonical m e) :
    (ofCanonical s h).toModel.unpack = .finite s m e h.pos := by
  have hlt := h.lt
  have hleast := h.least_le
  have hfield := exponentField_lt h
  have hbias : ((Format.binary64.exponentBias : Int) + (52 : Nat)) = 1075 := rfl
  have hpacked := pack_canonical s h
  change UnpackedFloat.unpack Format.binary64
    (UnpackedFloat.pack Format.binary64 (.finite s m e h.pos)) = _
  generalize UnpackedFloat.pack Format.binary64 (.finite s m e h.pos) = bits at hpacked
  have hmantissa : unpackMantissa bits = BitVec.ofNat 52 m := by
    rw [hpacked, unpackMantissa_packComponents]
  have hexponent : unpackExponent bits = BitVec.ofNat 11 (exponentField m e) := by
    rw [hpacked, unpackExponent_packComponents]
  have hsign : Sign.ofBitVec (unpackSign bits) = s := by
    rw [hpacked, ofBitVec_unpackSign]
  have hnotTop : unpackExponent bits ≠ -1#11 := by
    rw [hexponent, Ne, show (-1#11) = BitVec.ofNat 11 2047 from rfl,
      ofNat_eq_iff (by omega) (by decide)]
    omega
  unfold UnpackedFloat.unpack
  dsimp only
  rw [if_neg hnotTop]
  by_cases hfull : 2 ^ 52 ≤ m
  · have hfilled : exponentField m e = (e + 1075).toNat := if_pos hfull
    have hnormal : unpackExponent bits ≠ 0#11 := by
      rw [hexponent, Ne, ofNat_eq_iff (by omega) (by decide)]
      omega
    rw [if_neg hnormal, UnpackedFloat.finite.injEq, toNat_implicit_append, hsign, hmantissa,
      hexponent, BitVec.toNat_ofNat, BitVec.toNat_ofNat, hbias]
    exact ⟨rfl, by omega, by omega⟩
  · have hempty : exponentField m e = 0 := if_neg hfull
    have hsubnormal := h.full.resolve_left hfull
    have hzero : unpackExponent bits = 0#11 := by
      rw [hexponent, hempty]
    have hpos : unpackMantissa bits ≠ 0#52 := by
      rw [hmantissa, Ne, ofNat_eq_iff (by omega) (by decide)]
      exact Nat.ne_of_gt h.pos
    rw [if_pos hzero, dif_neg hpos, UnpackedFloat.finite.injEq, hsign, hmantissa, hzero,
      BitVec.toNat_ofNat, BitVec.toNat_ofNat, hbias]
    exact ⟨rfl, by omega, by omega⟩

theorem eq_of_toNat_toBits {x y : Float} (h : x.toBits.toNat = y.toBits.toNat) : x = y := by
  obtain ⟨⟨bits, _⟩⟩ := x
  obtain ⟨⟨bits', _⟩⟩ := y
  obtain rfl : bits = bits' := UInt64.toNat_inj.mp h
  rfl

theorem exponent_lt_of_isFinite {x : Float} (hx : x.isFinite = true) :
    x.toBits.toNat / 2 ^ 52 % 2 ^ 11 ≠ 2047 := by
  intro htop
  have hexponent : @unpackExponent Format.binary64 x.toBits.toBitVec = -1#11 := by
    apply BitVec.eq_of_toNat_eq
    unfold unpackExponent
    rw [BitVec.toNat_cast, BitVec.extractLsb_toNat, Nat.shiftRight_eq_div_pow]
    exact htop
  change (UnpackedFloat.unpack Format.binary64 x.toBits.toBitVec).isFinite = true at hx
  unfold UnpackedFloat.unpack at hx
  dsimp only at hx
  rw [if_pos hexponent] at hx
  split at hx <;> exact Bool.false_ne_true hx

theorem finite_cases {x : Float} (hx : x.isFinite = true) :
    (∃ s, x = signedZero s) ∨ ∃ s m e, ∃ h : Canonical m e, x = ofCanonical s h := by
  have hlt := x.toBits.toNat_lt
  have htop := exponent_lt_of_isFinite hx
  generalize hbits : x.toBits.toNat = bits at hlt htop
  obtain ⟨s, hs⟩ : ∃ s, signField s = bits / 2 ^ 63 := by
    by_cases hnegative : bits < 2 ^ 63
    · exact ⟨.positive, by unfold signField; dsimp only; omega⟩
    · exact ⟨.negative, by unfold signField; dsimp only; omega⟩
  by_cases hnormal : bits / 2 ^ 52 % 2 ^ 11 = 0
  · by_cases hzero : bits % 2 ^ 52 = 0
    · refine .inl ⟨s, eq_of_toNat_toBits ?_⟩
      rw [toNat_toBits_signedZero, hs, hbits]
      omega
    · have h : Canonical (bits % 2 ^ 52) (-1074) := by
        constructor <;> omega
      refine .inr ⟨s, _, _, h, eq_of_toNat_toBits ?_⟩
      rw [toNat_toBits_ofCanonical, hs, hbits, exponentField, if_neg (by omega)]
      omega
  · have h : Canonical (2 ^ 52 + bits % 2 ^ 52) ((bits / 2 ^ 52 % 2 ^ 11 : Nat) - 1075) := by
      constructor <;> omega
    refine .inr ⟨s, _, _, h, eq_of_toNat_toBits ?_⟩
    rw [toNat_toBits_ofCanonical, hs, hbits, exponentField, if_pos (by omega)]
    omega

/-! ## Operations -/

theorem isFinite_ofCanonical (s : Sign) (h : Canonical m e) :
    (ofCanonical s h).isFinite = true := by
  change (ofCanonical s h).toModel.unpack.isFinite = true
  rw [unpack_ofCanonical]
  rfl

theorem abs_ofCanonical (s : Sign) (h : Canonical m e) :
    (ofCanonical s h).abs = ofCanonical .positive h := by
  change Float.ofModel (.pack (ofCanonical s h).toModel.unpack.abs) = _
  rw [unpack_ofCanonical]
  rfl

theorem neg_ofCanonical (s : Sign) (h : Canonical m e) :
    -ofCanonical s h = ofCanonical (-s) h := by
  change Float.ofModel (.pack (ofCanonical s h).toModel.unpack.neg) = _
  rw [unpack_ofCanonical]
  rfl

theorem abs_finite {x : Float} (hx : x.isFinite = true) :
    x.abs.isFinite = true ∧ x.abs.toBits.toNat < 2 ^ 63 := by
  rcases finite_cases hx with ⟨s, rfl⟩ | ⟨s, m, e, h, rfl⟩
  · cases s <;> decide
  · rw [abs_ofCanonical]
    refine ⟨isFinite_ofCanonical .positive h, Nat.lt_of_not_le ?_⟩
    rw [negative_iff_le_toBits]
    exact Sign.noConfusion

theorem neg_abs {x : Float} (hx : x.isFinite = true) (hsign : 2 ^ 63 ≤ x.toBits.toNat) :
    -x.abs = x := by
  rcases finite_cases hx with ⟨s, rfl⟩ | ⟨s, m, e, h, rfl⟩
  · cases s with
    | positive => exact absurd hsign (by decide)
    | negative => rfl
  · rw [(negative_iff_le_toBits s h).mp hsign, abs_ofCanonical, neg_ofCanonical]
    rfl

theorem isNaN_isInf_of_isFinite {x : Float} (hx : x.isFinite = true) :
    x.isNaN = false ∧ x.isInf = false := by
  rcases finite_cases hx with ⟨s, rfl⟩ | ⟨s, m, e, h, rfl⟩
  · cases s <;> decide
  · change (ofCanonical s h).toModel.unpack.isNaN = false ∧
      (ofCanonical s h).toModel.unpack.isInf = false
    rw [unpack_ofCanonical]
    exact ⟨rfl, rfl⟩

theorem mul_ofCanonical (h : Canonical m e) (h₁ : Canonical m₁ e₁) (h₂ : Canonical m₂ e₂)
    (hmantissa : m₁ * m₂ * 2 ^ j = m * 2 ^ k) (hexponent : e₁ + e₂ = e + j - k)
    (hle : e₁ + e₂ ≤ e) :
    ofCanonical s₁ h₁ * ofCanonical s₂ h₂ = ofCanonical (s₁ * s₂) h := by
  change Float.ofModel (.pack (UnpackedFloat.mul Format.binary64
    (ofCanonical s₁ h₁).toModel.unpack (ofCanonical s₂ h₂).toModel.unpack)) = _
  rw [unpack_ofCanonical, unpack_ofCanonical, mul_eq_of_exact h hmantissa hexponent hle]
  rfl

theorem div_ofCanonical (h : Canonical m e) (h₁ : Canonical m₁ e₁) (h₂ : Canonical m₂ e₂)
    (hmantissa : m₁ * 2 ^ j = m * m₂ * 2 ^ k) (hexponent : e₁ - e₂ = e + j - k) :
    ofCanonical s₁ h₁ / ofCanonical s₂ h₂ = ofCanonical (s₁ / s₂) h := by
  change Float.ofModel (.pack (UnpackedFloat.div Format.binary64
    (ofCanonical s₁ h₁).toModel.unpack (ofCanonical s₂ h₂).toModel.unpack)) = _
  rw [unpack_ofCanonical, unpack_ofCanonical, div_eq_of_exact h hmantissa hexponent]
  rfl

end Binary64

end Calculator
