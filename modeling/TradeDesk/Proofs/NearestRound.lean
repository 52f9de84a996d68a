import Mathlib
import TradeDesk.Proofs.FloatRound
import TradeDesk.Decimal.Text

/-!
# The library's conversions are correctly rounded

Every conversion of a decimal text or a whole number to binary64 goes through `nearest`, and
`nearest neg num den` is `num / den` rounded as IEEE 754 rounds (`nearest_toNat`): `normalExponent`
finds the binade of the fraction (`normalExponent_spec`), `scaled` cuts it at the binade's last
place (`scaled_spec`), and `roundHalfEven` rounds to the nearest whole number, a tie to the even one
(`roundHalfEven_nearestEven`). A larger fraction therefore has a nearest value of at least its
magnitude (`magnitude_nearest_le`).

Rounding to decimal places (`Decimal.roundTo`) rounds the exact value times `10^places` to a whole
number and converts that back with `nearest`. Both steps are monotone, so rounding to decimal places
is too (`Decimal.magnitude_roundTo_le`).
-/

namespace TradeDesk.Binary64

open Float.Model Float.Model.UnpackedFloat

/-! ## Rounding a fraction -/

/-- The whole part and remainder of a division, read back as the exact quotient. -/
theorem div_add_mod_div (n d : ℕ) (hd : 0 < d) :
    ((n / d : ℕ) : ℚ) + ((n % d : ℕ) : ℚ) / d = n / d := by
  have hd' : (d : ℚ) ≠ 0 := by exact_mod_cast hd.ne'
  rw [eq_div_iff hd', add_mul, div_mul_cancel₀ _ hd']
  exact_mod_cast Nat.div_add_mod' n d

/-- Rounding half to even is rounding to the nearest whole number, a tie to the even one. -/
theorem roundHalfEven_nearestEven (q : ℕ) {r d : ℕ} (hd : 0 < d) (hr : r < d) :
    NearestEven (roundHalfEven q r d) (q + r / d) := by
  have hd' : (0 : ℚ) < d := by exact_mod_cast hd
  unfold roundHalfEven
  split_ifs with h1 h2 h3
  · -- more than a half: up
    have : (1 : ℚ) / 2 < r / d := by
      rw [lt_div_iff₀ hd']
      have : (d : ℚ) < 2 * r := by exact_mod_cast h1
      linarith
    have : (r : ℚ) / d < 1 := by rw [div_lt_one hd']; exact_mod_cast hr
    exact .of_lt_half (by push_cast; rw [abs_lt]; constructor <;> linarith)
  · -- less than a half: down
    have : (r : ℚ) / d < 1 / 2 := by
      rw [div_lt_iff₀ hd']
      have : (2 * r : ℚ) < d := by exact_mod_cast h2
      linarith
    have : (0 : ℚ) ≤ r / d := by positivity
    exact .of_lt_half (by rw [abs_lt]; constructor <;> linarith)
  · -- exactly a half, from an odd whole part: up to the even neighbour
    have hhalf : (r : ℚ) / d = 1 / 2 := by
      rw [div_eq_iff hd'.ne']
      have : (2 * r : ℚ) = d := by exact_mod_cast (by omega : 2 * r = d)
      linarith
    refine ⟨?_, fun _ => ?_⟩
    · push_cast
      rw [hhalf]
      norm_num
    · simp only [beq_iff_eq] at h3
      rw [Nat.even_add_one, Nat.not_even_iff_odd, Nat.odd_iff]
      exact h3
  · -- exactly a half, from an even whole part: stays
    have hhalf : (r : ℚ) / d = 1 / 2 := by
      rw [div_eq_iff hd'.ne']
      have : (2 * r : ℚ) = d := by exact_mod_cast (by omega : 2 * r = d)
      linarith
    refine ⟨?_, fun _ => ?_⟩
    · rw [hhalf]
      norm_num
    · simp only [beq_iff_eq] at h3
      rw [Nat.even_iff]
      omega

/-- The whole part, remainder and divisor `scaled` returns stand for `num / den / 2^e`. -/
theorem scaled_spec {num den q r d : ℕ} {e : ℤ} (h : scaled num den e = (q, r, d))
    (hden : 0 < den) : 0 < d ∧ r < d ∧ (q : ℚ) + r / d = num / den / 2 ^ e := by
  unfold scaled at h
  split_ifs at h with he
  · -- a non-negative exponent scales the divisor
    simp only [Prod.mk.injEq, Nat.pow_eq] at h
    obtain ⟨rfl, rfl, rfl⟩ := h
    have hd : 0 < den * 2 ^ e.toNat := by positivity
    refine ⟨hd, Nat.mod_lt _ hd, ?_⟩
    rw [div_add_mod_div _ _ hd, div_div]
    push_cast
    rw [← zpow_natCast, Int.toNat_of_nonneg he]
  · -- a negative one scales the dividend
    simp only [Prod.mk.injEq, Nat.pow_eq] at h
    obtain ⟨rfl, rfl, rfl⟩ := h
    refine ⟨hden, Nat.mod_lt _ hden, ?_⟩
    rw [div_add_mod_div _ _ hden]
    push_cast
    rw [← zpow_natCast, Int.toNat_of_nonneg (by omega), zpow_neg]
    field_simp

/-- The whole part `q` of a value `x / 2^e`, read back as bounds on `x`. -/
theorem scaled_bounds {num den q r d : ℕ} {e : ℤ} (h : scaled num den e = (q, r, d))
    (hden : 0 < den) :
    (q : ℚ) * 2 ^ e ≤ num / den ∧ (num / den : ℚ) < (q + 1) * 2 ^ e := by
  obtain ⟨hd, hr, hq⟩ := scaled_spec h hden
  have h0 : (0 : ℚ) ≤ r / d := by positivity
  have h1 : (r : ℚ) / d < 1 := by
    rw [div_lt_one (by exact_mod_cast hd)]
    exact_mod_cast hr
  have h2 := zpow_pos (two_pos : (0 : ℚ) < 2) e
  constructor
  · rw [← le_div_iff₀ h2, ← hq]
    linarith
  · rw [← div_lt_iff₀ h2, ← hq]
    linarith

/-- The first guess of `normalExponent`, from the bit lengths, puts the significand of `num / den`
strictly between `2^51` and `2^53`. -/
theorem log2_guess_bounds {num den : ℕ} (hnum : 0 < num) (hden : 0 < den) :
    (2 : ℚ) ^ ((num.log2 : ℤ) - den.log2 - 52 + 51) < num / den ∧
      (num / den : ℚ) < 2 ^ ((num.log2 : ℤ) - den.log2 - 52 + 53) := by
  obtain ⟨h1, h2⟩ := zpow_log2_bounds hnum
  obtain ⟨h3, h4⟩ := zpow_log2_bounds hden
  have hden' : (0 : ℚ) < den := by exact_mod_cast hden
  constructor
  · rw [lt_div_iff₀ hden']
    calc (2 : ℚ) ^ ((num.log2 : ℤ) - den.log2 - 52 + 51) * den
        < 2 ^ ((num.log2 : ℤ) - den.log2 - 52 + 51) * 2 ^ ((den.log2 : ℤ) + 1) := by gcongr
      _ = 2 ^ (num.log2 : ℤ) := by
        rw [← zpow_add₀ two_ne_zero]
        ring_nf
      _ ≤ num := h1
  · rw [div_lt_iff₀ hden']
    calc (num : ℚ) < 2 ^ ((num.log2 : ℤ) + 1) := h2
      _ = 2 ^ ((num.log2 : ℤ) - den.log2 - 52 + 53) * 2 ^ (den.log2 : ℤ) := by
        rw [← zpow_add₀ two_ne_zero]
        ring_nf
      _ ≤ 2 ^ ((num.log2 : ℤ) - den.log2 - 52 + 53) * den := by gcongr

/-- `normalExponent num den` is the exponent at which `num / den` has a 53-bit significand. -/
theorem normalExponent_spec {num den : ℕ} (hnum : 0 < num) (hden : 0 < den) :
    (2 : ℚ) ^ (normalExponent num den + 52) ≤ num / den ∧
      (num / den : ℚ) < 2 ^ (normalExponent num den + 53) := by
  obtain ⟨hlow, hhigh⟩ := log2_guess_bounds hnum hden
  -- the guess is corrected by one step when its significand falls short of 53 bits
  unfold normalExponent
  generalize (num.log2 : ℤ) - den.log2 - 52 = e0 at hlow hhigh ⊢
  generalize hs : scaled num den e0 = t
  obtain ⟨q, r, d⟩ := t
  obtain ⟨hq1, hq2⟩ := scaled_bounds hs hden
  simp only [Nat.pow_eq]
  rw [hs]
  dsimp only
  have h2e := zpow_pos (two_pos : (0 : ℚ) < 2) e0
  rw [two_zpow_add_53] at hhigh
  have hq53 : q < 2 ^ 53 := by
    have : (q : ℚ) < 2 ^ 53 := lt_of_mul_lt_mul_right (hq1.trans_lt hhigh) h2e.le
    exact_mod_cast this
  rw [if_neg (not_le.2 hq53)]
  split_ifs with h52
  · -- a significand below `2^52`: one step down
    have hq : (q : ℚ) + 1 ≤ 2 ^ 52 := by exact_mod_cast h52
    refine ⟨by rw [show e0 - 1 + 52 = e0 + 51 by ring]; exact hlow.le, ?_⟩
    rw [show e0 - 1 + 53 = e0 + 52 by ring, two_zpow_add_52]
    calc (num / den : ℚ) < (q + 1) * 2 ^ e0 := hq2
      _ ≤ 2 ^ 52 * 2 ^ e0 := by gcongr
  · -- a 53-bit significand: the guess stands
    have hq : (2 : ℚ) ^ 52 ≤ q := by exact_mod_cast not_lt.1 h52
    rw [two_zpow_add_52, two_zpow_add_53]
    exact ⟨le_trans (by gcongr) hq1, hhigh⟩

/-! ## Packing and the nearest value -/

theorem inf_toNat : (1.0 / 0.0 : Float).toBits.toNat = infMagnitude := by
  decide +kernel

theorem neg_inf_toNat : (-(1.0 / 0.0) : Float).toBits.toNat = 2 ^ 63 + infMagnitude := by
  decide +kernel

/-- A word that is not a NaN, read back as a `Float`, keeps its bits. -/
theorem toBits_ofBits_ofNat {n : ℕ} (hn : n < 2 ^ 64) (h : n % 2 ^ 63 ≤ infMagnitude) :
    (Float.ofBits (UInt64.ofNat n)).toBits.toNat = n := by
  have hn' : (UInt64.ofNat n).toNat = n := UInt64.toNat_ofNat_of_lt' hn
  rw [toBits_ofBits _ (by rw [hn']; exact h), hn']

/-- Packing a canonical significand at an exponent in range gives the sign bit above its index. -/
theorem pack_toNat (neg : Bool) {q : ℕ} {e : ℤ} (hc : Canonical q e) (he : e ≤ 971) :
    (pack neg q e).toBits.toNat = neg.toNat * 2 ^ 63 + index q e := by
  obtain ⟨hlt, hge, hn⟩ := hc
  have hsign : (if neg then 2 ^ 63 else 0) = neg.toNat * 2 ^ 63 := by
    cases neg <;> rfl
  have hb := Bool.toNat_le neg
  unfold pack
  simp only [Nat.pow_eq, hsign]
  unfold index
  by_cases h52 : 2 ^ 52 ≤ q
  · -- a normal significand: the biased exponent above the fraction
    rw [if_pos h52, toBits_ofBits_ofNat (by omega) (by unfold infMagnitude; omega)]
    omega
  · -- a subnormal one, at the least exponent
    have h0 : e = -1074 := hn.resolve_left h52
    subst h0
    rw [if_neg h52, toBits_ofBits_ofNat (by omega) (by unfold infMagnitude; omega)]
    omega

/-- The binade of `num / den` is at `normalExponent`, or at the least exponent below it. -/
theorem binade_normalExponent {num den : ℕ} (hnum : 0 < num) (hden : 0 < den) :
    Binade (max (normalExponent num den) (-1074)) (num / den) := by
  obtain ⟨hlo, hhi⟩ := normalExponent_spec hnum hden
  exact Binade.of_bounds hlo hhi

/-- **The library's conversion is correctly rounded.** `nearest neg num den` is `num / den` rounded
to binary64 as the IEEE model rounds: at the last place of its binade, to the nearest significand
and the even one at a tie, with the sign `neg`; past the largest finite value the magnitude is the
infinities'. -/
theorem nearest_toNat (neg : Bool) {num den : ℕ} (hnum : 0 < num) (hden : 0 < den) :
    ∃ T n, Binade T (num / den) ∧ NearestEven n (num / den / 2 ^ T) ∧
      (nearest neg num den).toBits.toNat = neg.toNat * 2 ^ 63 + min (index n T) infMagnitude := by
  have hb := binade_normalExponent hnum hden
  unfold nearest
  rw [if_neg (by simp [hnum.ne', hden.ne'])]
  dsimp only
  generalize max (normalExponent num den) (-1074) = T at hb ⊢
  generalize hs : scaled num den T = t
  obtain ⟨q, r, d⟩ := t
  obtain ⟨hd, hr, hq⟩ := scaled_spec hs hden
  dsimp only
  have hn := roundHalfEven_nearestEven q hd hr
  rw [hq] at hn
  refine ⟨T, _, hb, hn, ?_⟩
  generalize roundHalfEven q r d = n at hn ⊢
  have hT := hb.least
  have hsign : (if neg then -(1.0 / 0.0) else 1.0 / 0.0 : Float).toBits.toNat =
      neg.toNat * 2 ^ 63 + infMagnitude := by
    cases neg
    · rw [if_neg Bool.false_ne_true, inf_toNat]
      rfl
    · rw [if_pos rfl, neg_inf_toNat]
      rfl
  rcases (hn.le_natCast hb.div_le).lt_or_eq with hlt | rfl
  · have hc : Canonical n T := ⟨hlt, hT, hb.normal_of_nearestEven hn⟩
    have hne : (n == Nat.pow 2 53) = false := by
      rw [beq_eq_false_iff_ne, Nat.pow_eq]
      exact hlt.ne
    simp only [hne, Bool.false_eq_true, ↓reduceIte]
    by_cases hover : T > 971
    · -- past the largest exponent: an infinity
      have := hc.normal
      rw [if_pos hover, hsign, min_eq_right (by unfold index infMagnitude; omega)]
    · rw [if_neg hover, pack_toNat neg hc (by omega),
        min_eq_left (by unfold index infMagnitude; have := hc.lt; omega)]
  · -- a carry to `2^53` is the bottom of the next binade
    simp only [show (2 ^ 53 == Nat.pow 2 53) = true from rfl, ↓reduceIte]
    by_cases hover : T + 1 > 971
    · rw [if_pos hover, hsign, min_eq_right (by unfold index infMagnitude; omega)]
    · rw [if_neg hover, Nat.pow_eq, pack_toNat neg ⟨by norm_num, by omega, .inl le_rfl⟩ (by omega),
        min_eq_left (by unfold index infMagnitude; omega)]
      unfold index
      omega

/-- The nearest value to a zero is a zero of the given sign. -/
theorem nearest_zero_bits (neg : Bool) (den : ℕ) :
    signBit (nearest neg 0 den) = neg ∧ magnitude (nearest neg 0 den) = 0 := by
  have h : (nearest neg 0 den).toBits.toNat = neg.toNat * 2 ^ 63 + 0 := by
    cases neg <;> rfl
  exact signBit_magnitude_of_toNat h (by decide)

/-- The nearest value to any fraction has the given sign and is not a NaN. -/
theorem nearest_bits (neg : Bool) (num : ℕ) {den : ℕ} (hden : 0 < den) :
    signBit (nearest neg num den) = neg ∧ magnitude (nearest neg num den) ≤ infMagnitude := by
  rcases Nat.eq_zero_or_pos num with rfl | hnum
  · obtain ⟨hs, hm⟩ := nearest_zero_bits neg den
    exact ⟨hs, by rw [hm]; exact Nat.zero_le _⟩
  · obtain ⟨T, n, -, -, h⟩ := nearest_toNat neg hnum hden
    obtain ⟨hs, hm⟩ := signBit_magnitude_of_min h
    exact ⟨hs, hm ▸ min_le_right _ _⟩

/-- A larger fraction has a nearest value of at least the magnitude, whatever the signs. -/
theorem magnitude_nearest_le (neg neg' : Bool) {num num' den : ℕ} (hden : 0 < den)
    (h : num ≤ num') : magnitude (nearest neg num den) ≤ magnitude (nearest neg' num' den) := by
  rcases Nat.eq_zero_or_pos num with rfl | hnum
  · rw [(nearest_zero_bits neg den).2]
    exact Nat.zero_le _
  obtain ⟨T, n, hT, hn, hx⟩ := nearest_toNat neg hnum hden
  obtain ⟨U, k, hU, hk, hy⟩ := nearest_toNat neg' (lt_of_lt_of_le hnum h) hden
  rw [(signBit_magnitude_of_min hx).2, (signBit_magnitude_of_min hy).2]
  have hv : (num / den : ℚ) ≤ num' / den := by gcongr
  exact min_le_min_right _ (index_le_index hT hU hn hk hv)

/-- The nearest value to a fraction of at least one is not a zero. -/
theorem magnitude_nearest_pos (neg : Bool) {num den : ℕ} (hden : 0 < den) (h : den ≤ num) :
    0 < magnitude (nearest neg num den) := by
  obtain ⟨T, n, hT, hn, hbits⟩ := nearest_toNat neg (lt_of_lt_of_le hden h) hden
  rw [(signBit_magnitude_of_min hbits).2]
  -- a fraction of at least one is at least the last place of its binade, so rounds to at least one
  have h1 : (1 : ℚ) ≤ num / den := by
    rw [one_le_div (by exact_mod_cast hden)]
    exact_mod_cast h
  have hplace : (2 : ℚ) ^ T ≤ num / den := by
    rcases hT.normal with hT' | hT'
    · rw [hT']
      exact le_trans (zpow_le_one_of_nonpos₀ one_le_two (by norm_num)) h1
    · exact le_trans (zpow_le_zpow_right₀ one_le_two (by omega)) hT'
  have hn1 : 1 ≤ n := hn.natCast_le (by
    rw [Nat.cast_one, one_le_div (zpow_pos two_pos T)]
    exact hplace)
  unfold index infMagnitude
  omega

/-- `toFraction` writes the exact magnitude as a fraction. -/
theorem toFraction_spec (b : Binary64) :
    0 < b.toFraction.2 ∧ (b.toFraction.1 : ℚ) / b.toFraction.2 = absValue b := by
  unfold toFraction absValue
  split_ifs with he
  · refine ⟨Nat.one_pos, ?_⟩
    simp only [Nat.pow_eq]
    push_cast
    rw [div_one, ← zpow_natCast, Int.toNat_of_nonneg he]
  · refine ⟨by simp only [Nat.pow_eq]; positivity, ?_⟩
    simp only [Nat.pow_eq]
    push_cast
    rw [← zpow_natCast, Int.toNat_of_nonneg (by omega), zpow_neg, div_eq_mul_inv, inv_inv]

theorem toFraction_pos_iff (b : Binary64) : 0 < b.toFraction.1 ↔ 0 < b.mant := by
  unfold Binary64.toFraction
  split_ifs <;> simp [Nat.pow_eq]

end TradeDesk.Binary64

namespace TradeDesk.Decimal

open Binary64

/-! ## Rounding to decimal places -/

/-- The fixed-place significand is the exact magnitude times `10^places`, rounded to the nearest
whole number, a tie to the even one. -/
theorem Fixed.scaled_nearestEven (b : Binary64) (places : ℕ) :
    NearestEven (Fixed.scaled b places) (absValue b * ((10 ^ places : ℕ) : ℚ)) := by
  obtain ⟨hd, hv⟩ := toFraction_spec b
  unfold Fixed.scaled
  generalize b.toFraction = f at hd hv
  obtain ⟨num, den⟩ := f
  dsimp only at hd hv ⊢
  have h := roundHalfEven_nearestEven ((num * Nat.pow 10 places) / den) hd
    (Nat.mod_lt (num * Nat.pow 10 places) hd)
  rw [div_add_mod_div _ _ hd] at h
  convert h using 1
  rw [← hv, Nat.pow_eq]
  push_cast
  ring

theorem roundTo_of_finite {x : Float} {b : Binary64} (hx : classify x = .finite b)
    (places : ℕ) : roundTo places x = nearest b.neg (Fixed.scaled b places) (Nat.pow 10 places) := by
  unfold roundTo
  rw [hx]
  rfl

/-- A finite value rounded to decimal places keeps its sign and is not a NaN. -/
theorem roundTo_bits {x : Float} {b : Binary64} (hx : classify x = .finite b) (places : ℕ) :
    signBit (roundTo places x) = b.neg ∧ magnitude (roundTo places x) ≤ infMagnitude := by
  rw [roundTo_of_finite hx]
  exact nearest_bits b.neg _ (Nat.pow_pos (by norm_num))

/-- **Rounding to decimal places is monotone.** A finite value of larger magnitude is rounded to
one of at least the magnitude: the exact values are in order, so are their fixed-place
significands, and so are the nearest binary64 values to those. -/
theorem magnitude_roundTo_le {x y : Float} {bx b : Binary64} (hx : classify x = .finite bx)
    (hy : classify y = .finite b) (hxy : magnitude x ≤ magnitude y) (places : ℕ) :
    magnitude (roundTo places x) ≤ magnitude (roundTo places y) := by
  obtain ⟨-, -, hcx, hix⟩ := classify_eq_finite hx
  obtain ⟨-, -, hcy, hiy⟩ := classify_eq_finite hy
  have hv : absValue bx ≤ absValue b :=
    hcx.value_le_of_index_le hcy (by rw [hix, hiy]; exact hxy)
  have hs : Fixed.scaled bx places ≤ Fixed.scaled b places :=
    (Fixed.scaled_nearestEven bx places).mono (Fixed.scaled_nearestEven b places) (by gcongr)
  rw [roundTo_of_finite hx, roundTo_of_finite hy]
  exact magnitude_nearest_le _ _ (Nat.pow_pos (by norm_num)) hs

end TradeDesk.Decimal
