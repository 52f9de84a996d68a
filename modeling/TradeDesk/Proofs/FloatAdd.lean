import Mathlib
import TradeDesk.Proofs.Rounded

/-!
# Binary64 addition and subtraction

The IEEE model adds two nonzero finite values exactly: it shifts both significands to the smaller
of the two exponents, adds them with their signs, and rounds the integer it gets
(`UnpackedFloat.normalize`). Rounding first shifts that integer left until its exponent is the last
place of its binade, which keeps its value and so its binade (`round_toNat`), and then rounds as a
product is rounded. A sum is therefore the exact sum rounded to binary64 (`RoundsTo.add`), and a
difference the exact difference (`RoundsTo.sub`); a zero operand leaves the other operand as it
is, negated when it is subtracted, and an infinity plus a finite value is that infinity
(`add_inf_toNat`).
-/

namespace TradeDesk.Binary64

open Float.Model Float.Model.UnpackedFloat

theorem toBits_add (x y : Float) :
    (x + y).toBits.toNat = (UnpackedFloat.pack Format.binary64
      (UnpackedFloat.add Format.binary64 x.toModel.unpack y.toModel.unpack)).toNat := rfl

theorem toBits_sub (x y : Float) :
    (x - y).toBits.toNat = (UnpackedFloat.pack Format.binary64
      (UnpackedFloat.sub Format.binary64 x.toModel.unpack y.toModel.unpack)).toNat := rfl

/-! ## Rounding an integer significand -/

/-- Shifting a significand to a lower exponent keeps its value. -/
theorem decreaseExponent_value (M : ℕ) (E t : ℤ) :
    ((decreaseExponent M E t).1 : ℚ) * 2 ^ (decreaseExponent M E t).2 = M * 2 ^ E := by
  simp only [decreaseExponent, Nat.shiftLeft_eq, Nat.cast_mul, Nat.cast_pow, Nat.cast_ofNat]
  rw [mul_assoc, ← zpow_natCast, ← zpow_add₀ two_ne_zero]
  congr 2
  ring

/-- **Rounding in the IEEE model, from any exponent.** `round` shifts the significand left to the
last place of its binade, where its value and binade are unchanged, and rounds it there: the bits
are the sign, then the index of the value rounded at its binade. -/
theorem round_toNat (s : Sign) {M : ℕ} (hM : 0 < M) (E : ℤ) :
    ∃ T n, Binade T (M * 2 ^ E) ∧ NearestEven n (M * 2 ^ E / 2 ^ T) ∧
      (UnpackedFloat.pack Format.binary64 (UnpackedFloat.round Format.binary64 s M E)).toNat =
        s.toBitVec.toNat * 2 ^ 63 + min (index n T) infMagnitude := by
  have hb := binade_targetExponent hM E
  unfold UnpackedFloat.round
  dsimp only
  generalize Format.binary64.targetExponent (totalExponent M E) = t at hb ⊢
  have hv := decreaseExponent_value M E t
  have hM' : 0 < (decreaseExponent M E t).1 := by
    simp only [decreaseExponent, Nat.shiftLeft_eq]
    positivity
  have hE' : (decreaseExponent M E t).2 ≤ t := by
    simp only [decreaseExponent]
    omega
  -- the shifted significand lies in the same binade, so its target exponent is `t`
  have hb' := binade_targetExponent hM' (decreaseExponent M E t).2
  rw [hv] at hb'
  have ht : Format.binary64.targetExponent
      (totalExponent (decreaseExponent M E t).1 (decreaseExponent M E t).2) = t :=
    le_antisymm (hb'.mono hb le_rfl) (hb.mono hb' le_rfl)
  obtain ⟨T, n, hT, hn, hbits⟩ := roundWithAccuracy_toNat s (Represents.exact _) (by rw [ht]; exact hE')
  rw [hv] at hT hn
  exact ⟨T, n, hT, hn, hbits⟩

theorem toBitVec_negative : Sign.negative.toBitVec.toNat = (true : Bool).toNat := rfl

theorem toBitVec_positive : Sign.positive.toBitVec.toNat = (false : Bool).toNat := rfl

/-- **Rounding a signed integer significand.** The bits of `normalize` are the integer's sign and
the index of its value rounded at its binade, or a zero of the given sign for a zero integer. -/
theorem normalize_toNat {M : ℤ} (hM : M ≠ 0) (E : ℤ) (z : Sign) :
    ∃ T n, Binade T |(M : ℚ) * 2 ^ E| ∧ NearestEven n (|(M : ℚ) * 2 ^ E| / 2 ^ T) ∧
      (UnpackedFloat.pack Format.binary64 (UnpackedFloat.normalize Format.binary64 M E z)).toNat =
        (decide (M < 0)).toNat * 2 ^ 63 + min (index n T) infMagnitude := by
  have hp : (0 : ℚ) < 2 ^ E := zpow_pos two_pos E
  unfold UnpackedFloat.normalize
  rcases lt_or_gt_of_ne hM with hlt | hgt
  · rw [compare_lt_iff_lt.2 hlt]
    have hcast : ((-M).toNat : ℚ) = -(M : ℚ) := by
      have : ((-M).toNat : ℤ) = -M := Int.toNat_of_nonneg (by omega)
      exact_mod_cast this
    have habs : ((-M).toNat : ℚ) * 2 ^ E = |(M : ℚ) * 2 ^ E| := by
      rw [hcast, abs_mul, abs_of_pos hp, abs_of_neg (by exact_mod_cast hlt)]
    obtain ⟨T, n, hT, hn, hbits⟩ := round_toNat .negative (M := (-M).toNat) (by omega) E
    rw [habs] at hT hn
    exact ⟨T, n, hT, hn, by rw [hbits, decide_eq_true hlt, toBitVec_negative]⟩
  · rw [compare_gt_iff_gt.2 hgt]
    have hcast : (M.toNat : ℚ) = M := by
      have : (M.toNat : ℤ) = M := Int.toNat_of_nonneg hgt.le
      exact_mod_cast this
    have habs : (M.toNat : ℚ) * 2 ^ E = |(M : ℚ) * 2 ^ E| := by
      rw [hcast, abs_of_pos (mul_pos (by exact_mod_cast hgt) hp)]
    obtain ⟨T, n, hT, hn, hbits⟩ := round_toNat .positive (M := M.toNat) (by omega) E
    rw [habs] at hT hn
    exact ⟨T, n, hT, hn, by rw [hbits, decide_eq_false (by omega), toBitVec_positive]⟩

namespace RoundsTo

variable {x y : Float} {q : ℚ}

/-- Rounding reads only the bits. -/
theorem of_toNat_eq (h : x.toBits.toNat = y.toBits.toNat) (hy : RoundsTo y q) : RoundsTo x q := by
  have hs : signBit x = signBit y := by unfold signBit; rw [h]
  have hm : magnitude x = magnitude y := by unfold magnitude; rw [h]
  obtain ⟨hneg, hpos, hr⟩ := hy
  exact ⟨fun h => hs ▸ hneg h, fun h => hs ▸ hpos h, hm ▸ hr⟩

/-- A value whose bits are a packed zero is the rounding of zero. -/
theorem of_pack_zero {s : Sign}
    (h : x.toBits.toNat = (UnpackedFloat.pack Format.binary64 (.zero s)).toNat) : RoundsTo x 0 := by
  rw [pack_zero_toNat] at h
  cases s
  · exact of_magnitude_eq_zero (signBit_magnitude_of_toNat (s := true) (by rw [h]; rfl) (by decide)).2
  · exact of_magnitude_eq_zero (signBit_magnitude_of_toNat (s := false) (by rw [h]; rfl) (by decide)).2

/-- A value whose bits are a normalised integer significand is the rounding of its value. -/
theorem of_normalize {M E : ℤ} {z : Sign}
    (h : x.toBits.toNat =
      (UnpackedFloat.pack Format.binary64 (UnpackedFloat.normalize Format.binary64 M E z)).toNat) :
    RoundsTo x (M * 2 ^ E) := by
  by_cases hM : M = 0
  · subst hM
    rw [Int.cast_zero, zero_mul]
    exact of_pack_zero (s := z) (by rw [h]; rfl)
  obtain ⟨T, n, hT, hn, hbits⟩ := normalize_toNat hM E z
  have hp : (0 : ℚ) < 2 ^ E := zpow_pos two_pos E
  refine of_toNat (h.trans hbits) hT hn (fun hq => ?_) (fun hq => ?_)
  · have hM' : (M : ℚ) < 0 := by
      by_contra hc
      exact absurd hq (not_lt.2 (mul_nonneg (not_lt.1 hc) hp.le))
    exact decide_eq_true (by exact_mod_cast hM')
  · have hM' : ¬(M : ℚ) < 0 := fun hc => by nlinarith
    exact decide_eq_false (by exact_mod_cast hM')

end RoundsTo

/-! ## Operands -/

/-- The sign of a finite value as the IEEE model unpacks it. -/
def signOf (b : Binary64) : Sign := if b.neg then .negative else .positive

/-- The exact value of a finite value, from its unpacked sign, significand and exponent. -/
theorem value_eq_apply (b : Binary64) : value b = ((signOf b).apply b.mant : ℚ) * 2 ^ b.exp := by
  unfold value signOf absValue
  cases b.neg <;> simp [Sign.apply]

/-- A significand shifted to a lower exponent, with its sign, keeps its value. -/
theorem apply_decreaseExponent (s : Sign) (m : ℕ) {e t : ℤ} (ht : t ≤ e) :
    ((s.apply (decreaseExponent m e t).1 : ℤ) : ℚ) * 2 ^ t = (s.apply m : ℚ) * 2 ^ e := by
  have hv := decreaseExponent_value m e t
  have he : (decreaseExponent m e t).2 = t := by
    simp only [decreaseExponent]
    omega
  rw [he] at hv
  cases s <;> simp only [Sign.apply, Int.cast_neg, Int.cast_natCast, neg_mul, hv]

/-- Packing the unpacked bits of a nonzero finite value gives its bits back. -/
theorem pack_unpack_toNat {x : Float} {b : Binary64} (h : classify x = .finite b) (hm : 0 < b.mant) :
    (UnpackedFloat.pack Format.binary64 x.toModel.unpack).toNat = x.toBits.toNat := by
  obtain ⟨hlt, hneg, hc, hi⟩ := classify_eq_finite h
  rw [unpack_of_classify h hm, pack_finite_toNat _ hm hc, min_eq_left (hi ▸ hlt.le), hi]
  have hs : (if b.neg then Sign.negative else Sign.positive) = sign x := by
    rw [sign_eq, hneg]
  rw [hs]
  exact signOfBits_add_mod _ x.toBits.toNat_lt

/-- The negation of a nonzero finite value, packed, is the rounding of its negated value. -/
theorem roundsTo_pack_neg {x y : Float} {b : Binary64} (h : classify y = .finite b)
    (hm : 0 < b.mant)
    (hx : x.toBits.toNat = (UnpackedFloat.pack Format.binary64
      (.finite (-signOf b) b.mant b.exp hm)).toNat) : RoundsTo x (-value b) := by
  obtain ⟨-, -, hc, -⟩ := classify_eq_finite h
  have ha := absValue_pos hm
  rw [pack_finite_toNat _ hm hc] at hx
  have habs : |-value b| = b.mant * 2 ^ b.exp := by rw [abs_neg, abs_value]; rfl
  refine RoundsTo.of_toNat (s := !b.neg) ?_ (habs ▸ hc.binade) (habs ▸ Canonical.nearestEven _ _)
    (fun hq => ?_) (fun hq => ?_)
  · rw [hx]
    unfold signOf
    cases b.neg <;> rfl
  all_goals
    cases hb : b.neg <;>
      simp only [value, hb, Bool.false_eq_true, ↓reduceIte, Bool.not_false, Bool.not_true] at hq ⊢
  all_goals linarith

/-- An infinity plus a finite value is that infinity. -/
theorem add_inf_toNat {x y : Float} {s : Bool} {b : Binary64} (hx : classify x = .inf s)
    (hy : classify y = .finite b) : (x + y).toBits.toNat = s.toNat * 2 ^ 63 + infMagnitude := by
  have hadd : UnpackedFloat.add Format.binary64 (.infinity (if s then .negative else .positive))
      y.toModel.unpack = .infinity (if s then .negative else .positive) := by
    rcases unpack_of_classify_cases hy with hu | ⟨_, hu⟩ <;> rw [hu] <;> rfl
  rw [toBits_add, unpack_of_classify_inf hx, hadd, pack_infinity_toNat]
  cases s <;> rfl

/-! ## Sums and differences -/

namespace RoundsTo

variable {x y : Float} {bx b : Binary64}

/-- **Sums are correctly rounded.** The sum of two finite values is the sum of their exact values
rounded to binary64; a zero operand gives the other operand back. -/
theorem add (hx : classify x = .finite bx) (hy : classify y = .finite b) :
    RoundsTo (x + y) (value bx + value b) := by
  rcases Nat.eq_zero_or_pos bx.mant with hmx | hmx
  · have hvx : value bx = 0 := by simp [value, absValue_eq_zero hmx]
    rw [hvx, zero_add]
    rcases Nat.eq_zero_or_pos b.mant with hmy | hmy
    · -- two zeros: a zero
      have hvy : value b = 0 := by simp [value, absValue_eq_zero hmy]
      rw [hvy]
      have hbits := toBits_add x y
      rw [unpack_of_classify_zero hx hmx, unpack_of_classify_zero hy hmy] at hbits
      simp only [UnpackedFloat.add] at hbits
      split_ifs at hbits <;> exact of_pack_zero hbits
    · -- zero and a nonzero value: the value
      refine of_toNat_eq ?_ (of_classify hy)
      rw [toBits_add, unpack_of_classify_zero hx hmx, ← pack_unpack_toNat hy hmy,
        unpack_of_classify hy hmy]
      rfl
  rcases Nat.eq_zero_or_pos b.mant with hmy | hmy
  · -- a nonzero value and zero: the value
    have hvy : value b = 0 := by simp [value, absValue_eq_zero hmy]
    rw [hvy, add_zero]
    refine of_toNat_eq ?_ (of_classify hx)
    rw [toBits_add, unpack_of_classify_zero hy hmy, ← pack_unpack_toNat hx hmx,
      unpack_of_classify hx hmx]
    rfl
  -- two nonzero values: their significands aligned at the smaller exponent, added and rounded
  have hvalue : (((signOf bx).apply (decreaseExponent bx.mant bx.exp (min bx.exp b.exp)).1 +
      (signOf b).apply (decreaseExponent b.mant b.exp (min bx.exp b.exp)).1 : ℤ) : ℚ) *
        2 ^ (min bx.exp b.exp) = value bx + value b := by
    rw [Int.cast_add, add_mul, apply_decreaseExponent _ _ (min_le_left _ _),
      apply_decreaseExponent _ _ (min_le_right _ _), value_eq_apply, value_eq_apply]
  rw [← hvalue]
  exact of_normalize (z := .positive) (by
    rw [toBits_add, unpack_of_classify hx hmx, unpack_of_classify hy hmy]
    rfl)

/-- **Differences are correctly rounded.** The difference of two finite values is the difference
of their exact values rounded to binary64; subtracting a zero gives the value back, and subtracting
from a zero gives the negated value. -/
theorem sub (hx : classify x = .finite bx) (hy : classify y = .finite b) :
    RoundsTo (x - y) (value bx - value b) := by
  rcases Nat.eq_zero_or_pos bx.mant with hmx | hmx
  · have hvx : value bx = 0 := by simp [value, absValue_eq_zero hmx]
    rw [hvx, zero_sub]
    rcases Nat.eq_zero_or_pos b.mant with hmy | hmy
    · -- two zeros: a zero
      have hvy : value b = 0 := by simp [value, absValue_eq_zero hmy]
      rw [hvy, neg_zero]
      have hbits := toBits_sub x y
      rw [unpack_of_classify_zero hx hmx, unpack_of_classify_zero hy hmy] at hbits
      simp only [UnpackedFloat.sub] at hbits
      split_ifs at hbits <;> exact of_pack_zero hbits
    · -- zero less a nonzero value: the value negated
      refine roundsTo_pack_neg hy hmy ?_
      rw [toBits_sub, unpack_of_classify_zero hx hmx, unpack_of_classify hy hmy]
      rfl
  rcases Nat.eq_zero_or_pos b.mant with hmy | hmy
  · -- a nonzero value less zero: the value
    have hvy : value b = 0 := by simp [value, absValue_eq_zero hmy]
    rw [hvy, sub_zero]
    refine of_toNat_eq ?_ (of_classify hx)
    rw [toBits_sub, unpack_of_classify_zero hy hmy, ← pack_unpack_toNat hx hmx,
      unpack_of_classify hx hmx]
    rfl
  -- two nonzero values: their significands aligned at the smaller exponent, subtracted and rounded
  have hvalue : (((signOf bx).apply (decreaseExponent bx.mant bx.exp (min bx.exp b.exp)).1 -
      (signOf b).apply (decreaseExponent b.mant b.exp (min bx.exp b.exp)).1 : ℤ) : ℚ) *
        2 ^ (min bx.exp b.exp) = value bx - value b := by
    rw [Int.cast_sub, sub_mul, apply_decreaseExponent _ _ (min_le_left _ _),
      apply_decreaseExponent _ _ (min_le_right _ _), value_eq_apply, value_eq_apply]
  rw [← hvalue]
  exact of_normalize (z := .positive) (by
    rw [toBits_sub, unpack_of_classify hx hmx, unpack_of_classify hy hmy]
    rfl)

end RoundsTo

end TradeDesk.Binary64
