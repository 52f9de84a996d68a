import Mathlib
import TradeDesk.Proofs.Exact
import TradeDesk.Proofs.FloatMul
import TradeDesk.Proofs.NearestRound

/-!
# Binary64 values as roundings of exact values

`RoundsTo x q` says that the binary64 value `x` is the exact value `q` rounded as IEEE 754 rounds:
its sign bit is set below zero and clear above it (a zero may carry either), and its magnitude is
the index of `|q|` rounded to the nearest at the last place of its binade, a tie to the even
significand, capped at the infinities'. A finite value is the rounding of its own exact value
(`RoundsTo.of_classify`); a product rounds the product of the exact values (`RoundsTo.mul`), the
library's conversions round the fraction they are given (`RoundsTo.nearest`), and a whole power
rounds the exact power (`RoundsTo.powNat`).

Rounding is monotone (`RoundsTo.key_le`): a smaller exact value rounds to a value of smaller or
equal key, and keys order the values that are not NaN (`le_iff_key_le`). So an operation that
rounds its exact result keeps every order the exact operation keeps.
-/

namespace TradeDesk.Binary64

/-- The exact value of a finite binary64 value, with its sign. -/
def value (b : Binary64) : ℚ := if b.neg then -absValue b else absValue b

theorem absValue_nonneg (b : Binary64) : 0 ≤ absValue b := by
  unfold absValue
  positivity

theorem abs_value (b : Binary64) : |value b| = absValue b := by
  unfold value
  split_ifs
  · rw [abs_neg, abs_of_nonneg (absValue_nonneg b)]
  · exact abs_of_nonneg (absValue_nonneg b)

theorem absValue_eq_zero {b : Binary64} (h : b.mant = 0) : absValue b = 0 := by
  simp [absValue, h]

theorem absValue_pos {b : Binary64} (h : 0 < b.mant) : 0 < absValue b := by
  unfold absValue
  have : (0 : ℚ) < b.mant := by exact_mod_cast h
  positivity

theorem key_le_magnitude (x : Float) : key x ≤ magnitude x := by
  unfold key
  split_ifs <;> omega

theorem neg_magnitude_le_key (x : Float) : -(magnitude x : ℤ) ≤ key x := by
  unfold key
  split_ifs <;> omega

/-- `x` is the exact value `q` rounded to binary64: the sign bit follows the sign of `q`, and the
magnitude is the index of `|q|` rounded at the last place `T` of its binade, to the nearest and a
tie to the even significand, capped at the infinities'. -/
structure RoundsTo (x : Float) (q : ℚ) : Prop where
  signBit_of_neg : q < 0 → signBit x = true
  signBit_of_pos : 0 < q → signBit x = false
  rounded : ∃ T n, Binade T |q| ∧ NearestEven n (|q| / 2 ^ T) ∧
    magnitude x = min (index n T) infMagnitude

namespace RoundsTo

variable {x y : Float} {q r : ℚ}

/-- Bits made of a sign bit that follows the sign of `q` above the rounded magnitude of `q`. -/
theorem of_toNat {s : Bool} {T : ℤ} {n : ℕ}
    (hbits : x.toBits.toNat = s.toNat * 2 ^ 63 + min (index n T) infMagnitude)
    (hT : Binade T |q|) (hn : NearestEven n (|q| / 2 ^ T)) (hneg : q < 0 → s = true)
    (hpos : 0 < q → s = false) : RoundsTo x q := by
  obtain ⟨hs, hm⟩ := signBit_magnitude_of_min hbits
  exact ⟨fun h => hs.trans (hneg h), fun h => hs.trans (hpos h), T, n, hT, hn, hm⟩

/-- A zero is the rounding of zero. -/
theorem of_magnitude_eq_zero (h : magnitude x = 0) : RoundsTo x 0 where
  signBit_of_neg h := absurd h (lt_irrefl 0)
  signBit_of_pos h := absurd h (lt_irrefl 0)
  rounded := by
    refine ⟨-1074, 0, ⟨le_rfl, by rw [abs_zero]; positivity, .inl rfl⟩, ?_, ?_⟩
    · rw [abs_zero, zero_div]
      exact_mod_cast NearestEven.of_natCast 0
    · rw [h]
      rfl

/-- Zero rounds to a zero. -/
theorem magnitude_eq_zero (h : RoundsTo x 0) : magnitude x = 0 := by
  obtain ⟨T, n, hT, hn, hm⟩ := h.rounded
  rw [abs_zero, zero_div] at hn
  rw [abs_zero] at hT
  have hn0 : n = 0 := Nat.le_zero.1 (hn.le_natCast (by simp))
  have hT0 : T = -1074 := hT.normal.resolve_right (by
    intro h
    have : (0 : ℚ) < 2 ^ (T + 52) := by positivity
    linarith)
  rw [hm, hn0, hT0]
  rfl

/-- A rounded value is not a NaN. -/
theorem magnitude_le (h : RoundsTo x q) : magnitude x ≤ infMagnitude := by
  obtain ⟨T, n, -, -, hm⟩ := h.rounded
  exact hm ▸ min_le_right _ _

/-- A larger magnitude rounds to a larger or equal magnitude. -/
theorem magnitude_le_magnitude (hx : RoundsTo x q) (hy : RoundsTo y r) (h : |q| ≤ |r|) :
    magnitude x ≤ magnitude y := by
  obtain ⟨T, n, hT, hn, hmx⟩ := hx.rounded
  obtain ⟨U, m, hU, hm, hmy⟩ := hy.rounded
  rw [hmx, hmy]
  exact min_le_min_right _ (index_le_index hT hU hn hm h)

/-- The key of the rounding of a value that is not negative is its magnitude. -/
theorem key_eq_magnitude (h : RoundsTo x q) (hq : 0 ≤ q) : key x = magnitude x := by
  cases hs : signBit x
  · exact key_of_signBit_false hs
  · -- a set sign bit is a zero's
    have hq0 : q = 0 := le_antisymm (not_lt.1 fun hq' => by
      rw [h.signBit_of_pos hq'] at hs
      cases hs) hq
    subst hq0
    rw [key_of_signBit_true hs, h.magnitude_eq_zero]
    rfl

/-- The key of the rounding of a value that is not positive is its magnitude negated. -/
theorem key_eq_neg_magnitude (h : RoundsTo x q) (hq : q ≤ 0) : key x = -(magnitude x : ℤ) := by
  cases hs : signBit x
  · -- a clear sign bit on a value that is not positive is a zero's
    have hq0 : q = 0 := le_antisymm hq (not_lt.1 fun hq' => by
      rw [h.signBit_of_neg hq'] at hs
      cases hs)
    subst hq0
    rw [key_of_signBit_false hs, h.magnitude_eq_zero]
    rfl
  · exact key_of_signBit_true hs

/-- **Rounding is monotone.** The rounding of a smaller value has the smaller or equal key: for
two values of one sign the magnitudes round in order, and a negative value's key is at most zero,
which is at most the key of any value that is not negative. -/
theorem key_le (hx : RoundsTo x q) (hy : RoundsTo y r) (h : q ≤ r) : key x ≤ key y := by
  rcases le_or_gt 0 q with hq | hq
  · have hr : 0 ≤ r := hq.trans h
    rw [hx.key_eq_magnitude hq, hy.key_eq_magnitude hr, Nat.cast_le]
    exact hx.magnitude_le_magnitude hy (by rwa [abs_of_nonneg hq, abs_of_nonneg hr])
  · rw [hx.key_eq_neg_magnitude hq.le]
    rcases le_or_gt 0 r with hr | hr
    · rw [hy.key_eq_magnitude hr]
      omega
    · rw [hy.key_eq_neg_magnitude hr.le, neg_le_neg_iff, Nat.cast_le]
      exact hy.magnitude_le_magnitude hx (by rw [abs_of_neg hr, abs_of_neg hq]; linarith)

/-- Two roundings of one value have one key. -/
theorem key_eq (hx : RoundsTo x q) (hy : RoundsTo y q) : key x = key y :=
  le_antisymm (hx.key_le hy le_rfl) (hy.key_le hx le_rfl)

/-- Of two rounded values, the one rounded from the smaller exact value is the smaller. -/
theorem le (hx : RoundsTo x q) (hy : RoundsTo y r) (h : q ≤ r) : x ≤ y :=
  (le_iff_key_le hx.magnitude_le hy.magnitude_le).2 (hx.key_le hy h)

/-- A finite value is the rounding of its own exact value. -/
theorem of_classify {b : Binary64} (h : classify x = .finite b) : RoundsTo x (value b) := by
  obtain ⟨hlt, hneg, hc, hi⟩ := classify_eq_finite h
  have hv := absValue_nonneg b
  refine ⟨fun hq => ?_, fun hq => ?_, b.exp, b.mant, ?_, ?_, ?_⟩
  · rw [← hneg]
    cases hb : b.neg
    · simp only [value, hb, Bool.false_eq_true, ↓reduceIte] at hq
      linarith
    · rfl
  · rw [← hneg]
    cases hb : b.neg
    · rfl
    · simp only [value, hb, ↓reduceIte] at hq
      linarith
  · rw [abs_value]
    exact hc.binade
  · rw [abs_value]
    exact Canonical.nearestEven b.mant b.exp
  · rw [← hi, min_eq_left (hi ▸ hlt.le)]

/-- **Products are correctly rounded.** The product of two finite values is the product of their
exact values rounded to binary64. -/
theorem mul {bx b : Binary64} (hx : classify x = .finite bx) (hy : classify y = .finite b) :
    RoundsTo (x * y) (value bx * value b) := by
  rcases Nat.eq_zero_or_pos bx.mant with hmx | hmx
  · have hq : value bx * value b = 0 := by simp [value, absValue_eq_zero hmx]
    rw [hq]
    exact of_magnitude_eq_zero ((mul_of_finite hx hy).2.2 (.inl hmx))
  rcases Nat.eq_zero_or_pos b.mant with hmy | hmy
  · have hq : value bx * value b = 0 := by simp [value, absValue_eq_zero hmy]
    rw [hq]
    exact of_magnitude_eq_zero ((mul_of_finite hx hy).2.2 (.inr hmy))
  obtain ⟨T, n, hT, hn, hbits⟩ := mul_toNat hx hy hmx hmy
  have hax := absValue_pos hmx
  have hay := absValue_pos hmy
  rw [← abs_value, ← abs_value, ← abs_mul] at hT hn
  -- the product is negative exactly when one factor is
  refine of_toNat hbits hT hn (fun hq => ?_) (fun hq => ?_) <;>
    cases hbx : bx.neg <;> cases hb : b.neg <;>
    simp only [value, hbx, hb, Bool.false_eq_true, ↓reduceIte] at hq <;> simp <;> nlinarith

/-- **The library's conversions are correctly rounded.** `nearest neg num den` is the fraction
`num / den`, negated when `neg` is set, rounded to binary64. -/
theorem nearest (neg : Bool) (num : ℕ) {den : ℕ} (hden : 0 < den) :
    RoundsTo (Binary64.nearest neg num den) (if neg then -(num / den : ℚ) else num / den) := by
  have habs : |(if neg then -(num / den : ℚ) else num / den)| = num / den := by
    split_ifs <;> simp [abs_div]
  rcases Nat.eq_zero_or_pos num with rfl | hnum
  · simpa using of_magnitude_eq_zero (nearest_zero_bits neg den).2
  obtain ⟨T, n, hT, hn, hbits⟩ := nearest_toNat neg hnum hden
  have hq : (0 : ℚ) < num / den := by positivity
  rw [← habs] at hT hn
  refine of_toNat hbits hT hn (fun h => ?_) (fun h => ?_) <;> cases neg <;> simp at h ⊢ <;> linarith

/-- **Whole powers are correctly rounded.** The power of a finite value is the power of its exact
value rounded to binary64. -/
theorem powNat {x : Float} {b : Binary64} (h : classify x = .finite b) (k : ℕ) :
    RoundsTo (Binary64.powNat x k) (value b ^ k) := by
  obtain ⟨hden, hfrac⟩ := toFraction_spec b
  have hv : value b = if b.neg then -((b.toFraction.1 : ℚ) / b.toFraction.2)
      else (b.toFraction.1 : ℚ) / b.toFraction.2 := by
    rw [hfrac]
    rfl
  -- a negative base keeps its sign in an odd power only
  have hq : value b ^ k = if (b.neg && k % 2 == 1) then
      -(((b.toFraction.1 ^ k : ℕ) : ℚ) / ((b.toFraction.2 ^ k : ℕ) : ℚ))
      else ((b.toFraction.1 ^ k : ℕ) : ℚ) / ((b.toFraction.2 ^ k : ℕ) : ℚ) := by
    rw [hv]
    push_cast
    rw [← div_pow]
    cases b.neg
    · simp
    · rcases Nat.even_or_odd k with hk | hk
      · simp [hk.neg_pow, Nat.even_iff.1 hk]
      · simp [hk.neg_pow, Nat.odd_iff.1 hk]
  rw [hq]
  unfold Binary64.powNat
  rw [h]
  exact nearest _ _ (pow_pos hden k)

end RoundsTo

end TradeDesk.Binary64
