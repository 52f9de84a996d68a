import Mathlib
import TradeDesk.Proofs.FloatAdd

/-!
# Binary64 division

The quotient of two finite values, the divisor nonzero, is their exact quotient rounded to
binary64 (`RoundsTo.div`). The IEEE model divides the significands as whole numbers, after shifting
the dividend left until the quotient has all of binary64's bits or reaches its least exponent
(`divCore_exponent_le`), and keeps the remainder's place against half the divisor as the round and
sticky bits (`represents_div`); rounding those is rounding the exact quotient. A finite value over
an infinity is a zero (`div_inf_toNat`), and a finite value less an infinity is the infinity of the
other sign (`sub_inf_toNat`).
-/

namespace TradeDesk.Binary64

open Float.Model Float.Model.UnpackedFloat

theorem toBits_div (x y : Float) :
    (x / y).toBits.toNat = (UnpackedFloat.pack Format.binary64
      (UnpackedFloat.div Format.binary64 x.toModel.unpack y.toModel.unpack)).toNat := rfl

/-- The sign of a quotient, as a bit, is the exclusive or of the operands' sign bits. -/
theorem sign_div_toNat (a b : Bool) :
    ((if a then Sign.negative else .positive) / (if b then .negative else .positive)).toBitVec.toNat =
      (a ^^ b).toNat := by
  cases a <;> cases b <;> rfl

/-! ## The quotient of two significands -/

/-- The whole quotient `N / d`, with the place of the remainder against half of `d` as its round
and sticky bits, stands for the exact quotient. -/
theorem represents_div (N : ℕ) {d : ℕ} (hd : 0 < d) :
    Represents (ExtendedMantissa.ofMantissaAndAccuracy (N / d) (accuracyOfFraction (N % d) d))
      ((N : ℚ) / d) := by
  have hd' : (0 : ℚ) < d := by exact_mod_cast hd
  have hr : ((N % d : ℕ) : ℚ) < d := by exact_mod_cast Nat.mod_lt N hd
  rw [← div_add_mod_div N d hd]
  unfold accuracyOfFraction
  split_ifs with h0
  · -- no remainder: the quotient is exact
    rw [h0, Nat.cast_zero, zero_div, add_zero]
    rfl
  -- a remainder: below, at or above half the divisor
  have hr0 : (0 : ℚ) < ((N % d : ℕ) : ℚ) / d := div_pos (by exact_mod_cast Nat.pos_of_ne_zero h0) hd'
  have hr1 : ((N % d : ℕ) : ℚ) / d < 1 := (div_lt_one hd').2 hr
  rcases hc : compare (2 * (N % d)) d with _ | _ | _
  · have hhalf : ((N % d : ℕ) : ℚ) / d < 1 / 2 := by
      rw [div_lt_div_iff₀ hd' two_pos]
      exact_mod_cast (by have := compare_lt_iff_lt.1 hc; omega : N % d * 2 < 1 * d)
    show ((N / d : ℕ) : ℚ) < _ ∧ _ < ((N / d : ℕ) : ℚ) + 1 / 2
    exact ⟨by linarith, by linarith⟩
  · have hhalf : ((N % d : ℕ) : ℚ) / d = 1 / 2 := by
      rw [div_eq_div_iff hd'.ne' two_ne_zero]
      exact_mod_cast (by have := compare_eq_iff_eq.1 hc; omega : N % d * 2 = 1 * d)
    show _ = ((N / d : ℕ) : ℚ) + 1 / 2
    rw [hhalf]
  · have hhalf : 1 / 2 < ((N % d : ℕ) : ℚ) / d := by
      rw [div_lt_div_iff₀ two_pos hd']
      exact_mod_cast (by have := compare_gt_iff_gt.1 hc; omega : 1 * d < N % d * 2)
    show ((N / d : ℕ) : ℚ) + 1 / 2 < _ ∧ _ < ((N / d : ℕ) : ℚ) + 1
    exact ⟨by linarith, by linarith⟩

/-- The model's quotient of two significands: the dividend shifted left by the exponent gap down
to the target `T`, divided as whole numbers. -/
theorem divCore_eq (m₁ m₂ : ℕ) (e₁ e₂ : ℤ) :
    divCore Format.binary64 m₁ e₁ m₂ e₂ =
      (m₁ * 2 ^ (e₁ - e₂ - min (e₁ - e₂)
          (Format.binary64.targetExponent (totalExponent m₁ e₁ - totalExponent m₂ e₂))).toNat / m₂,
        min (e₁ - e₂) (Format.binary64.targetExponent (totalExponent m₁ e₁ - totalExponent m₂ e₂)),
        accuracyOfFraction (m₁ * 2 ^ (e₁ - e₂ - min (e₁ - e₂)
          (Format.binary64.targetExponent (totalExponent m₁ e₁ - totalExponent m₂ e₂))).toNat % m₂)
          m₂) := by
  simp only [divCore, Nat.shiftLeft_eq]

section Quotient

variable {m₁ m₂ : ℕ} {e₁ e₂ T : ℤ}
  (hT : T = min (e₁ - e₂) (Format.binary64.targetExponent (totalExponent m₁ e₁ - totalExponent m₂ e₂)))
include hT

/-- **The quotient has enough bits.** Its exponent is no finer than binary64's last place for it:
above the least exponent the dividend was shifted so far that the whole quotient is at least
`2^52`. -/
theorem divCore_exponent_le (hm₁ : 0 < m₁) (hm₂ : 0 < m₂) :
    T ≤ Format.binary64.targetExponent (totalExponent (m₁ * 2 ^ (e₁ - e₂ - T).toNat / m₂) T) := by
  rw [targetExponent_binary64] at hT ⊢
  rw [totalExponent]
  by_cases hlow : T ≤ -1074
  · omega
  -- the shift makes up the difference of the two bit lengths, and 53 more
  have hk : 53 + m₂.log2 ≤ m₁.log2 + (e₁ - e₂ - T).toNat := by
    simp only [totalExponent] at hT
    omega
  have hq : 2 ^ 52 ≤ m₁ * 2 ^ (e₁ - e₂ - T).toNat / m₂ := by
    rw [Nat.le_div_iff_mul_le hm₂]
    calc 2 ^ 52 * m₂ ≤ 2 ^ 52 * 2 ^ (m₂.log2 + 1) := Nat.mul_le_mul_left _ Nat.lt_log2_self.le
      _ = 2 ^ (53 + m₂.log2) := by rw [← pow_add]; ring_nf
      _ ≤ 2 ^ (m₁.log2 + (e₁ - e₂ - T).toNat) := Nat.pow_le_pow_right two_pos hk
      _ = 2 ^ m₁.log2 * 2 ^ (e₁ - e₂ - T).toNat := pow_add _ _ _
      _ ≤ m₁ * 2 ^ (e₁ - e₂ - T).toNat := Nat.mul_le_mul_right _ (Nat.log2_self_le hm₁.ne')
  have := (Nat.le_log2 (by omega)).2 hq
  omega

/-- The shifted dividend over the divisor, at the exponent `T`, is the exact quotient. -/
theorem divCore_value :
    ((m₁ * 2 ^ (e₁ - e₂ - T).toNat : ℕ) : ℚ) / m₂ * 2 ^ T = m₁ * 2 ^ e₁ / (m₂ * 2 ^ e₂) := by
  have hle : T ≤ e₁ - e₂ := hT ▸ min_le_left _ _
  have hshift : (2 : ℚ) ^ (e₁ - e₂ - T).toNat * 2 ^ T * 2 ^ e₂ = 2 ^ e₁ := by
    rw [← zpow_natCast, Int.toNat_of_nonneg (by omega), ← zpow_add₀ two_ne_zero,
      ← zpow_add₀ two_ne_zero]
    congr 1
    ring
  rcases Nat.eq_zero_or_pos m₂ with rfl | hm₂
  · simp
  have hm₂' : (m₂ : ℚ) ≠ 0 := by exact_mod_cast hm₂.ne'
  rw [← hshift]
  push_cast
  field_simp

end Quotient

/-! ## Quotients of finite values -/

/-- **The quotient of two nonzero finite values.** Its sign bit is the exclusive or of theirs, and
its magnitude is their exact quotient rounded to binary64: the index of the quotient's binade and
its significand rounded to the nearest, a tie to the even one, capped at the infinities'. -/
theorem div_toNat {x y : Float} {bx b : Binary64} (hx : classify x = .finite bx)
    (hy : classify y = .finite b) (hmx : 0 < bx.mant) (hmy : 0 < b.mant) :
    ∃ T n, Binade T (absValue bx / absValue b) ∧
      NearestEven n (absValue bx / absValue b / 2 ^ T) ∧
      (x / y).toBits.toNat = (bx.neg ^^ b.neg).toNat * 2 ^ 63 + min (index n T) infMagnitude := by
  rw [toBits_div, unpack_of_classify hx hmx, unpack_of_classify hy hmy]
  simp only [UnpackedFloat.div]
  rw [divCore_eq]
  dsimp only
  generalize hT : min (bx.exp - b.exp) (Format.binary64.targetExponent
    (totalExponent bx.mant bx.exp - totalExponent b.mant b.exp)) = T
  obtain ⟨U, n, hb, hn, hbits⟩ := roundWithAccuracy_toNat
    ((if bx.neg then .negative else .positive) / (if b.neg then .negative else .positive))
    (represents_div _ hmy) (divCore_exponent_le hT.symm hmx hmy)
  rw [divCore_value hT.symm] at hb hn
  refine ⟨U, n, hb, hn, ?_⟩
  rw [← sign_div_toNat, ← hbits]

/-- A zero over a nonzero finite value is a zero, with the exclusive or of their signs. -/
theorem zero_div_toNat {x y : Float} {bx b : Binary64} (hx : classify x = .finite bx)
    (hy : classify y = .finite b) (hmx : bx.mant = 0) (hmy : 0 < b.mant) :
    (x / y).toBits.toNat = (bx.neg ^^ b.neg).toNat * 2 ^ 63 := by
  rw [toBits_div, unpack_of_classify_zero hx hmx, unpack_of_classify hy hmy, ← sign_div_toNat,
    ← pack_zero_toNat]
  rfl

/-- A finite value over an infinity is a zero, with the exclusive or of their signs. -/
theorem div_inf_toNat {x y : Float} {bx : Binary64} {s : Bool} (hx : classify x = .finite bx)
    (hy : classify y = .inf s) : (x / y).toBits.toNat = (bx.neg ^^ s).toNat * 2 ^ 63 := by
  rw [toBits_div, unpack_of_classify_inf hy, ← sign_div_toNat, ← pack_zero_toNat]
  rcases unpack_of_classify_cases hx with hu | ⟨_, hu⟩ <;> rw [hu] <;> rfl

/-- A finite value less an infinity is the infinity of the other sign. -/
theorem sub_inf_toNat {x y : Float} {bx : Binary64} {s : Bool} (hx : classify x = .finite bx)
    (hy : classify y = .inf s) : (x - y).toBits.toNat = (!s).toNat * 2 ^ 63 + infMagnitude := by
  have hsub : UnpackedFloat.sub Format.binary64 x.toModel.unpack
      (.infinity (if s then .negative else .positive)) =
        .infinity (if !s then .negative else .positive) := by
    rcases unpack_of_classify_cases hx with hu | ⟨_, hu⟩ <;> rw [hu] <;> cases s <;> rfl
  rw [toBits_sub, unpack_of_classify_inf hy, hsub, pack_infinity_toNat]
  cases s <;> rfl

namespace RoundsTo

variable {x y : Float} {bx b : Binary64}

/-- **Quotients are correctly rounded.** The quotient of a finite value by a nonzero finite value
is the quotient of their exact values rounded to binary64. -/
theorem div (hx : classify x = .finite bx) (hy : classify y = .finite b) (hmy : 0 < b.mant) :
    RoundsTo (x / y) (value bx / value b) := by
  rcases Nat.eq_zero_or_pos bx.mant with hmx | hmx
  · have hq : value bx / value b = 0 := by simp [value, absValue_eq_zero hmx]
    rw [hq]
    have hbits : (x / y).toBits.toNat = (bx.neg ^^ b.neg).toNat * 2 ^ 63 + 0 := by
      rw [zero_div_toNat hx hy hmx hmy, Nat.add_zero]
    exact of_magnitude_eq_zero (signBit_magnitude_of_toNat hbits (by decide)).2
  obtain ⟨T, n, hT, hn, hbits⟩ := div_toNat hx hy hmx hmy
  have hax := absValue_pos hmx
  have hay := absValue_pos hmy
  have hq := div_pos hax hay
  rw [← abs_value, ← abs_value, ← abs_div] at hT hn
  -- the quotient is negative exactly when one operand is
  refine of_toNat hbits hT hn (fun hq' => ?_) (fun hq' => ?_) <;>
    cases hbx : bx.neg <;> cases hb : b.neg <;>
    simp only [value, hbx, hb, Bool.false_eq_true, ↓reduceIte, neg_div, div_neg, neg_neg] at hq' <;>
    simp <;> linarith

end RoundsTo

end TradeDesk.Binary64
