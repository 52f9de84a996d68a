import Mathlib
import TradeDesk.Proofs.FloatOrder

/-!
# Rounding exact values to binary64

A non-negative exact value `x` is rounded to binary64 at the last place `2^T` of its binade
(`Binade T x`: `x` lies below `2^(T+53)`, and at or above `2^(T+52)` unless `T` is the least
exponent `-1074`): `x / 2^T` is rounded to the nearest whole number, the even one at a tie
(`NearestEven`), and the bits of the result below the sign bit are the index of that significand at
that exponent, capped at the infinities'. Rounding this way is monotone (`index_le_index`): a
larger value lies in the same binade, where its significand rounds no lower, or in a higher one,
all of whose significands lie above the lower binade's.

A canonical significand read from the bits is its own rounding, so canonical values are ordered as
their indices (`Canonical.value_le_of_index_le`). The IEEE model behind `Float` rounds in two
shifts that carry round and sticky bits; `roundWithAccuracy_toNat` shows that this is the same
rounding.
-/

namespace TradeDesk.Binary64

open Float.Model Float.Model.UnpackedFloat

/-! ## Rounding to the nearest whole number, a tie to the even one -/

/-- `n` is a whole number nearest to `x`, and the even one when `x` lies halfway between two. -/
structure NearestEven (n : ℕ) (x : ℚ) : Prop where
  near : |(n : ℚ) - x| ≤ 1 / 2
  even_of_half : |(n : ℚ) - x| = 1 / 2 → Even n

namespace NearestEven

variable {n m k : ℕ} {x y : ℚ}

theorem le_add_half (h : NearestEven n x) : (n : ℚ) ≤ x + 1 / 2 := by
  have := (abs_le.1 h.near).2
  linarith

theorem sub_half_le (h : NearestEven n x) : x - 1 / 2 ≤ n := by
  have := (abs_le.1 h.near).1
  linarith

/-- Rounding to the nearest, a tie to the even one, keeps the order: two roundings out of order
would both sit half a unit from one point, and two neighbours are not both even. -/
theorem mono (hn : NearestEven n x) (hm : NearestEven m y) (hxy : x ≤ y) : n ≤ m := by
  by_contra hlt
  have h1 : (m : ℚ) + 1 ≤ n := by exact_mod_cast Nat.lt_of_not_le hlt
  have hn1 := hn.le_add_half
  have hm1 := hm.sub_half_le
  have hnx : |(n : ℚ) - x| = 1 / 2 := by
    rw [abs_of_nonneg (by linarith)]
    linarith
  have hmy : |(m : ℚ) - y| = 1 / 2 := by
    rw [abs_of_nonpos (by linarith)]
    linarith
  have hnm : n = m + 1 := by
    have : (n : ℚ) = m + 1 := by linarith
    exact_mod_cast this
  have hev := hn.even_of_half hnx
  rw [hnm, Nat.even_add_one] at hev
  exact hev (hm.even_of_half hmy)

/-- A value at or below a whole number rounds to at most that number. -/
theorem le_natCast (h : NearestEven n x) (hx : x ≤ k) : n ≤ k := by
  have := h.le_add_half
  have : (n : ℚ) < k + 1 := by linarith
  exact_mod_cast Nat.lt_succ_iff.1 (by exact_mod_cast this)

/-- A value at or above a whole number rounds to at least that number. -/
theorem natCast_le (h : NearestEven n x) (hx : (k : ℚ) ≤ x) : k ≤ n := by
  have := h.sub_half_le
  have : (k : ℚ) < n + 1 := by linarith
  exact Nat.lt_succ_iff.1 (by exact_mod_cast this)

theorem of_natCast (n : ℕ) : NearestEven n n where
  near := by simp
  even_of_half h := by norm_num at h

/-- Within less than a half, the whole number is the nearest one. -/
theorem of_lt_half (h : |(n : ℚ) - x| < 1 / 2) : NearestEven n x where
  near := h.le
  even_of_half h' := absurd h' h.ne

end NearestEven

/-! ## Binades -/

/-- `T` is the exponent of the last place of binary64's significand for the value `x ≥ 0`: `x` lies
below `2^(T+53)`, and at or above `2^(T+52)` unless `T` is the least exponent, `-1074`. -/
structure Binade (T : ℤ) (x : ℚ) : Prop where
  least : -1074 ≤ T
  lt : x < 2 ^ (T + 53)
  normal : T = -1074 ∨ 2 ^ (T + 52) ≤ x

theorem two_zpow_add_53 (T : ℤ) : (2 : ℚ) ^ (T + 53) = 2 ^ 53 * 2 ^ T := by
  rw [zpow_add₀ two_ne_zero, mul_comm]
  rfl

theorem two_zpow_add_52 (T : ℤ) : (2 : ℚ) ^ (T + 52) = 2 ^ 52 * 2 ^ T := by
  rw [zpow_add₀ two_ne_zero, mul_comm]
  rfl

namespace Binade

variable {T U : ℤ} {x y : ℚ}

/-- A larger value lies in the same binade or a higher one. -/
theorem mono (hx : Binade T x) (hy : Binade U y) (hxy : x ≤ y) : T ≤ U := by
  by_contra h
  have hT : (2 : ℚ) ^ (T + 52) ≤ x := hx.normal.resolve_left (by have := hy.least; omega)
  have hlt : (2 : ℚ) ^ (T + 52) < 2 ^ (U + 53) := by linarith [hy.lt]
  have := (zpow_lt_zpow_iff_right₀ (by norm_num : (1 : ℚ) < 2)).1 hlt
  omega

/-- The value in units of the last place is below `2^53`. -/
theorem div_le (hx : Binade T x) : x / 2 ^ T ≤ (2 ^ 53 : ℕ) := by
  rw [div_le_iff₀ (zpow_pos two_pos T)]
  have := hx.lt
  rw [two_zpow_add_53] at this
  push_cast
  linarith

/-- Above the least binade, the value in units of the last place is at least `2^52`. -/
theorem le_div (hx : Binade T x) (hT : T ≠ -1074) : ((2 ^ 52 : ℕ) : ℚ) ≤ x / 2 ^ T := by
  rw [le_div_iff₀ (zpow_pos two_pos T)]
  have := hx.normal.resolve_left hT
  rw [two_zpow_add_52] at this
  push_cast
  linarith

/-- A value between `2^(t+52)` and `2^(t+53)` lies in the binade of `t`, or in the least binade
when `t` is below the least exponent. -/
theorem of_bounds {t : ℤ} (hlo : 2 ^ (t + 52) ≤ x) (hhi : x < 2 ^ (t + 53)) :
    Binade (max t (-1074)) x := by
  refine ⟨le_max_right _ _, hhi.trans_le (zpow_le_zpow_right₀ one_le_two (by omega)), ?_⟩
  rcases max_cases t (-1074) with ⟨h, -⟩ | ⟨h, -⟩
  · exact .inr (by rw [h]; exact hlo)
  · exact .inl h

/-- Above the least binade, the rounded significand has all 53 bits. -/
theorem normal_of_nearestEven {n : ℕ} (hx : Binade T x) (hn : NearestEven n (x / 2 ^ T)) :
    2 ^ 52 ≤ n ∨ T = -1074 := by
  by_cases hT : T = -1074
  · exact .inr hT
  · exact .inl (hn.natCast_le (hx.le_div hT))

end Binade

/-- **Rounding to binary64 is monotone.** The bits a value rounds to are the index of its binade
and its significand rounded to the nearest, a tie to the even one. For `x ≤ y`, either both lie in
one binade and the significands are rounded in order, or `y` lies in a higher binade: then `x`
rounds at most to the bottom of the next binade (a significand of at most `2^53`), and `y` at
least to the bottom of its own (a significand of at least `2^52`). -/
theorem index_le_index {T U : ℤ} {x y : ℚ} {n m : ℕ} (hx : Binade T x) (hy : Binade U y)
    (hn : NearestEven n (x / 2 ^ T)) (hm : NearestEven m (y / 2 ^ U)) (hxy : x ≤ y) :
    index n T ≤ index m U := by
  unfold index
  rcases (hx.mono hy hxy).lt_or_eq with hlt | rfl
  · have hn53 : n ≤ 2 ^ 53 := hn.le_natCast hx.div_le
    have hm52 : 2 ^ 52 ≤ m := hm.natCast_le (hy.le_div (by have := hx.least; omega))
    have := hx.least
    omega
  · have := hn.mono hm (div_le_div_of_nonneg_right hxy (zpow_pos two_pos T).le)
    omega

/-! ## Canonical significands as exact values -/

/-- The exact value of the magnitude of a finite binary64 value. -/
def absValue (b : Binary64) : ℚ := b.mant * 2 ^ b.exp

namespace Canonical

variable {m m₁ m₂ : ℕ} {e e₁ e₂ : ℤ}

/-- Two canonical forms with one index are one form. -/
theorem eq_of_index_eq (h₁ : Canonical m₁ e₁) (h₂ : Canonical m₂ e₂)
    (h : index m₁ e₁ = index m₂ e₂) : m₁ = m₂ ∧ e₁ = e₂ := by
  obtain ⟨hm₁, he₁, hn₁⟩ := h₁
  obtain ⟨hm₂, he₂, hn₂⟩ := h₂
  unfold index at h
  omega

/-- A canonical value lies in the binade of its exponent. -/
theorem binade (h : Canonical m e) : Binade e (m * 2 ^ e) where
  least := h.exp_ge
  lt := by
    rw [two_zpow_add_53]
    have : (m : ℚ) < 2 ^ 53 := by exact_mod_cast h.lt
    gcongr
  normal := h.normal.symm.imp_right fun h52 => by
    rw [two_zpow_add_52]
    have : (2 : ℚ) ^ 52 ≤ m := by exact_mod_cast h52
    gcongr

/-- A canonical value is its own rounding. -/
theorem nearestEven (m : ℕ) (e : ℤ) : NearestEven m (m * 2 ^ e / 2 ^ e) := by
  rw [mul_div_cancel_right₀ _ (zpow_ne_zero e two_ne_zero)]
  exact .of_natCast m

/-- Any value at most a canonical value rounds at most to its index. -/
theorem index_le {T : ℤ} {x : ℚ} {n : ℕ} (h : Canonical m e) (hx : Binade T x)
    (hn : NearestEven n (x / 2 ^ T)) (hle : x ≤ m * 2 ^ e) : index n T ≤ index m e :=
  index_le_index hx h.binade hn (nearestEven m e) hle

/-- Canonical values are ordered as their indices. -/
theorem value_le_of_index_le (h₁ : Canonical m₁ e₁) (h₂ : Canonical m₂ e₂)
    (h : index m₁ e₁ ≤ index m₂ e₂) : (m₁ : ℚ) * 2 ^ e₁ ≤ m₂ * 2 ^ e₂ := by
  by_contra hlt
  have hle := h₁.index_le h₂.binade (nearestEven m₂ e₂) (not_le.1 hlt).le
  obtain ⟨rfl, rfl⟩ := h₁.eq_of_index_eq h₂ (le_antisymm h hle)
  exact hlt le_rfl

end Canonical

/-- A finite value is nonzero exactly when its significand is. -/
theorem mant_pos_iff {x : Float} {b : Binary64} (h : classify x = .finite b) :
    0 < b.mant ↔ 0 < magnitude x := by
  obtain ⟨-, -, hc, hi⟩ := classify_eq_finite h
  rw [← hi]
  unfold index
  have := hc.normal
  omega

/-! ## The bits of a rounded value -/

/-- Bits made of a sign bit above a magnitude. -/
theorem signBit_magnitude_of_toNat {x : Float} {s : Bool} {μ : ℕ}
    (h : x.toBits.toNat = s.toNat * 2 ^ 63 + μ) (hμ : μ < 2 ^ 63) :
    signBit x = s ∧ magnitude x = μ := by
  unfold magnitude
  cases s
  · rw [Bool.toNat_false, Nat.zero_mul, Nat.zero_add] at h
    rw [Bool.eq_false_iff, ne_eq, signBit_iff]
    omega
  · rw [Bool.toNat_true, Nat.one_mul] at h
    rw [signBit_iff]
    omega

theorem infMagnitude_lt : infMagnitude < 2 ^ 63 := by
  unfold infMagnitude
  omega

/-- Bits made of a sign bit above a rounded magnitude. -/
theorem signBit_magnitude_of_min {x : Float} {s : Bool} {μ : ℕ}
    (h : x.toBits.toNat = s.toNat * 2 ^ 63 + min μ infMagnitude) :
    signBit x = s ∧ magnitude x = min μ infMagnitude :=
  signBit_magnitude_of_toNat h (lt_of_le_of_lt (min_le_right _ _) infMagnitude_lt)

/-! ## The significand rounding of the IEEE model -/

/-- What a significand with its round and sticky bits says of the exact value `x` it was cut
from: `x` is the significand, or lies above it by less than, exactly, or more than a half. -/
def Represents (em : ExtendedMantissa) (x : ℚ) : Prop :=
  match em.roundBit, em.stickyBit with
  | false, false => x = em.mantissa
  | false, true => (em.mantissa : ℚ) < x ∧ x < em.mantissa + 1 / 2
  | true, false => x = em.mantissa + 1 / 2
  | true, true => (em.mantissa : ℚ) + 1 / 2 < x ∧ x < em.mantissa + 1

namespace Represents

variable {em : ExtendedMantissa} {x : ℚ}

/-- Shifting out one bit halves the value the bits stand for. -/
theorem shiftRightOne (h : Represents em x) : Represents em.shiftRightOne (x / 2) := by
  obtain ⟨m, r, s⟩ := em
  have hm : (m : ℚ) = 2 * (m / 2 : ℕ) + (m % 2 : ℕ) := by exact_mod_cast (Nat.div_add_mod m 2).symm
  rcases Nat.mod_two_eq_zero_or_one m with hr | hr <;>
    cases r <;> cases s <;>
    simp [Represents, ExtendedMantissa.shiftRightOne, hr] at h hm ⊢ <;>
    grind

/-- Shifting out `k` bits divides the value the bits stand for by `2^k`. -/
theorem shiftRight (h : Represents em x) (k : ℕ) : Represents (em >>> k) (x / 2 ^ (k : ℤ)) := by
  induction k with
  | zero =>
    change Represents em (x / 2 ^ ((0 : ℕ) : ℤ))
    simpa using h
  | succ k ih =>
    have hk := ih.shiftRightOne
    rw [div_div, ← zpow_add_one₀ two_ne_zero] at hk
    rw [Nat.cast_succ]
    exact hk

/-- The model's rounding of the significand is to the nearest, a tie to the even one. -/
theorem nearestEven (h : Represents em x) : NearestEven em.roundedMantissa x := by
  obtain ⟨m, r, s⟩ := em
  simp only [ExtendedMantissa.roundedMantissa, ExtendedMantissa.accuracy]
  cases r <;> cases s <;> simp only [Represents] at h <;>
    simp only [Accuracy.roundToNearestEven]
  · -- exact: the significand itself
    rw [h]
    exact NearestEven.of_natCast m
  · -- below the half: rounded down
    exact NearestEven.of_lt_half (by rw [abs_lt]; constructor <;> linarith [h.1, h.2])
  · -- exactly the half: to the even neighbour
    have habs : |((m + m % 2 : ℕ) : ℚ) - x| = 1 / 2 := by
      rw [h]
      rcases Nat.mod_two_eq_zero_or_one m with hr | hr <;> rw [hr] <;> norm_num
    exact ⟨habs.le, fun _ => by rw [Nat.even_iff]; omega⟩
  · -- above the half: rounded up
    exact NearestEven.of_lt_half (by push_cast; rw [abs_lt]; constructor <;> linarith [h.1, h.2])

/-- The significand is the whole part of the value its bits stand for. -/
theorem bounds (h : Represents em x) : (em.mantissa : ℚ) ≤ x ∧ x < em.mantissa + 1 := by
  obtain ⟨m, r, s⟩ := em
  show (m : ℚ) ≤ x ∧ x < m + 1
  cases r <;> cases s <;> simp only [Represents] at h
  · rw [h]
    constructor <;> linarith
  · constructor <;> linarith [h.1, h.2]
  · rw [h]
    constructor <;> linarith
  · constructor <;> linarith [h.1, h.2]

/-- A significand with no bits cut stands for itself. -/
theorem exact (M : ℕ) : Represents (ExtendedMantissa.ofMantissaAndAccuracy M .exact) M := rfl

end Represents

@[simp] theorem ofMantissaAndAccuracy_mantissa (M : ℕ) (acc : Accuracy) :
    (ExtendedMantissa.ofMantissaAndAccuracy M acc).mantissa = M := by
  rcases acc with _ | (_ | _ | _) <;> rfl

/-! ## Rounding a significand to binary64 -/

theorem targetExponent_binary64 (t : ℤ) :
    Format.binary64.targetExponent t = max (t - 53) (-1074) := by
  simp [Format.targetExponent, Format.mantissaBits, Format.minExponent]

theorem shiftToTargetExponent_eq (m : ℕ) (e : ℤ) (a : Accuracy) :
    shiftToTargetExponent Format.binary64 m e a =
      (ExtendedMantissa.ofMantissaAndAccuracy m a >>>
          (Format.binary64.targetExponent (totalExponent m e) - e).toNat,
        e + (Format.binary64.targetExponent (totalExponent m e) - e).toNat) := rfl

/-- A significand below `2^53` at an exponent in range needs no second shift. -/
theorem shiftToTargetExponent_of_lt {n : ℕ} {T : ℤ} (hn : n < 2 ^ 53) (hT : -1074 ≤ T) :
    shiftToTargetExponent Format.binary64 n T .exact = (⟨n, false, false⟩, T) := by
  have hlog : (n.log2 : ℤ) ≤ 52 := by
    rcases Nat.eq_zero_or_pos n with rfl | hn0
    · simp
    · have := (Nat.log2_lt hn0.ne').2 hn
      omega
  have hk : (Format.binary64.targetExponent (totalExponent n T) - T).toNat = 0 := by
    rw [targetExponent_binary64, totalExponent]
    omega
  rw [shiftToTargetExponent_eq, hk, Nat.cast_zero, add_zero]
  rfl

/-- The carry of a significand rounded up to `2^53` moves it to the next exponent. -/
theorem shiftToTargetExponent_carry {T : ℤ} (hT : -1074 ≤ T) :
    shiftToTargetExponent Format.binary64 (2 ^ 53) T .exact = (⟨2 ^ 52, false, false⟩, T + 1) := by
  have hk : (Format.binary64.targetExponent (totalExponent (2 ^ 53) T) - T).toNat = 1 := by
    rw [targetExponent_binary64, totalExponent, Nat.log2_two_pow]
    omega
  rw [shiftToTargetExponent_eq, hk]
  simp only [ExtendedMantissa.ofMantissaAndAccuracy]
  rfl

/-- A positive whole number lies between the powers of two its bit length gives. -/
theorem zpow_log2_bounds {M : ℕ} (hM : 0 < M) :
    (2 : ℚ) ^ (M.log2 : ℤ) ≤ M ∧ (M : ℚ) < 2 ^ ((M.log2 : ℤ) + 1) := by
  constructor
  · rw [zpow_natCast]
    exact_mod_cast Nat.log2_self_le hM.ne'
  · rw [← Nat.cast_succ, zpow_natCast]
    exact_mod_cast Nat.lt_log2_self

/-- The binade of `M * 2^E` is read off the bit length of `M`. -/
theorem binade_of_log2 {M : ℕ} (hM : 0 < M) (E : ℤ) :
    Binade (max ((M.log2 : ℤ) + 1 + E - 53) (-1074)) (M * 2 ^ E) := by
  obtain ⟨hlo, hhi⟩ := zpow_log2_bounds hM
  apply Binade.of_bounds
  · calc (2 : ℚ) ^ ((M.log2 : ℤ) + 1 + E - 53 + 52) = 2 ^ (M.log2 : ℤ) * 2 ^ E := by
          rw [← zpow_add₀ two_ne_zero]
          ring_nf
      _ ≤ M * 2 ^ E := by gcongr
  · calc (M : ℚ) * 2 ^ E < 2 ^ ((M.log2 : ℤ) + 1) * 2 ^ E := by gcongr
      _ = 2 ^ ((M.log2 : ℤ) + 1 + E - 53 + 53) := by
          rw [← zpow_add₀ two_ne_zero]
          ring_nf

/-- The IEEE model's target exponent for a significand is the last place of its binade. -/
theorem binade_targetExponent {M : ℕ} (hM : 0 < M) (E : ℤ) :
    Binade (Format.binary64.targetExponent (totalExponent M E)) (M * 2 ^ E) := by
  rw [targetExponent_binary64, totalExponent]
  exact binade_of_log2 hM E

/-- At an exponent no finer than its target, an empty significand lies in the least binade too. -/
theorem binade_target {M : ℕ} {E : ℤ}
    (hE : E ≤ Format.binary64.targetExponent (totalExponent M E)) :
    Binade (Format.binary64.targetExponent (totalExponent M E)) (M * 2 ^ E) := by
  rcases Nat.eq_zero_or_pos M with rfl | hM
  · have hT : Format.binary64.targetExponent (totalExponent 0 E) = -1074 := by
      rw [targetExponent_binary64, totalExponent] at hE ⊢
      simp only [Nat.log2_zero, Nat.cast_zero] at hE ⊢
      omega
    rw [hT, Nat.cast_zero, zero_mul]
    exact ⟨le_rfl, by positivity, .inl rfl⟩
  · exact binade_targetExponent hM E

/-- Less than one unit `2^E` above `M * 2^E`, at an exponent `E` no finer than the last place of
the binade of `M * 2^E`, a value lies in the same binade: the binade's top is a whole number of
units, above `M`. -/
theorem Binade.of_floor {T E : ℤ} {M : ℕ} {y : ℚ} (hb : Binade T (M * 2 ^ E)) (hE : E ≤ T)
    (hlo : (M : ℚ) ≤ y) (hhi : y < M + 1) : Binade T (y * 2 ^ E) := by
  have h2E : (0 : ℚ) < 2 ^ E := zpow_pos two_pos E
  obtain ⟨k, hk⟩ : ∃ k : ℕ, T + 53 = E + k := ⟨(T + 53 - E).toNat, by omega⟩
  have htop : (2 : ℚ) ^ (T + 53) = ((2 ^ k : ℕ) : ℚ) * 2 ^ E := by
    rw [hk, zpow_add₀ two_ne_zero, zpow_natCast, mul_comm]
    push_cast
    rfl
  have hM : M + 1 ≤ 2 ^ k := by
    have h := hb.lt
    rw [htop] at h
    exact_mod_cast (lt_of_mul_lt_mul_right h h2E.le)
  refine ⟨hb.least, ?_, hb.normal.imp_right fun h => h.trans (by gcongr)⟩
  calc y * 2 ^ E < (M + 1) * 2 ^ E := by gcongr
    _ ≤ ((2 ^ k : ℕ) : ℚ) * 2 ^ E := by gcongr; exact_mod_cast hM
    _ = 2 ^ (T + 53) := htop.symm

/-- **Rounding in the IEEE model.** A significand `M` at exponent `E` (no finer than binary64's
last place), whose round and sticky bits say it was cut from the exact significand `y`, is cut
at the last place `T` of the binade of `y * 2^E` and rounded to the nearest, a tie to the even;
the bits of the packed result are the sign, then the index of the rounded significand in its
binade, capped at the infinities'. -/
theorem roundWithAccuracy_toNat (s : Sign) {M : ℕ} {E : ℤ} {acc : Accuracy} {y : ℚ}
    (hrep : Represents (ExtendedMantissa.ofMantissaAndAccuracy M acc) y)
    (hE : E ≤ Format.binary64.targetExponent (totalExponent M E)) :
    ∃ T n, Binade T (y * 2 ^ E) ∧ NearestEven n (y * 2 ^ E / 2 ^ T) ∧
      (UnpackedFloat.pack Format.binary64 (roundWithAccuracy Format.binary64 s M E acc)).toNat =
        s.toBitVec.toNat * 2 ^ 63 + min (index n T) infMagnitude := by
  obtain ⟨hlo, hhi⟩ := hrep.bounds
  rw [ofMantissaAndAccuracy_mantissa] at hlo hhi
  have hb := (binade_target hE).of_floor hE hlo hhi
  rw [roundWithAccuracy, shiftToTargetExponent_eq]
  dsimp only
  generalize Format.binary64.targetExponent (totalExponent M E) = T at hE hb ⊢
  -- the first shift cuts the significand at the last place `T = E + k` of its binade
  obtain ⟨k, rfl⟩ : ∃ k : ℕ, T = E + k := ⟨(T - E).toNat, by omega⟩
  have hk : (E + k - E).toNat = k := by omega
  rw [hk]
  have hrep' : Represents (ExtendedMantissa.ofMantissaAndAccuracy M acc >>> k)
      (y * 2 ^ E / 2 ^ (E + k)) := by
    have h := hrep.shiftRight k
    rwa [zpow_add₀ two_ne_zero, mul_comm ((2 : ℚ) ^ E),
      mul_div_mul_right _ _ (zpow_ne_zero E two_ne_zero)]
  have hne := hrep'.nearestEven
  generalize (ExtendedMantissa.ofMantissaAndAccuracy M acc >>> k).roundedMantissa = n at hne ⊢
  refine ⟨E + k, n, hb, hne, ?_⟩
  rcases (hne.le_natCast hb.div_le).lt_or_eq with hlt | rfl
  · rw [shiftToTargetExponent_of_lt hlt hb.least]
    dsimp only
    by_cases hz : n = 0
    · -- a value rounding to zero lies in the least binade
      have hT : E + k = -1074 := (hb.normal_of_nearestEven hne).resolve_left (by omega)
      have h0 : index 0 (-1074) = 0 := by simp [index]
      rw [dif_pos hz, pack_zero_toNat, hz, hT, h0, Nat.zero_min, Nat.add_zero]
    · rw [dif_neg hz, pack_finite_toNat s (Nat.pos_of_ne_zero hz)
        ⟨hlt, hb.least, hb.normal_of_nearestEven hne⟩]
  · -- a carry out of the significand is the bottom of the next binade, one index up
    rw [shiftToTargetExponent_carry hb.least]
    dsimp only
    rw [dif_neg (by positivity), pack_finite_toNat s (by positivity)
      ⟨by norm_num, by have := hb.least; omega, .inl le_rfl⟩]
    have hb' := hb.least
    unfold index
    omega

end TradeDesk.Binary64
