import Mathlib
import TradeDesk.Proofs.FloatRound

/-!
# Binary64 multiplication

The product of two nonzero finite values is their exact product rounded to binary64, with the
exclusive or of their signs (`mul_toNat`); when either is a zero, it is a zero of that sign
(`mul_zero_toNat`). It is never a NaN (`mul_of_finite`), and a nonzero finite value times an
infinity is an infinity (`mul_inf_toNat`). Multiplication is commutative
(`float_mul_comm`), and since rounding is monotone, multiplying by a nonzero finite value keeps the
order of magnitudes (`magnitude_mul_le_mul`), and a factor of magnitude at most one does not
increase it (`magnitude_mul_le`).
-/

namespace TradeDesk.Binary64

open Float.Model Float.Model.UnpackedFloat

/-- A product of two canonical significands is rounded from an exponent no finer than
binary64's last place: unless both operands are subnormal, one significand has 53 bits. -/
theorem mul_exponent_le {m₁ m₂ : ℕ} {e₁ e₂ : ℤ} (h₁ : Canonical m₁ e₁) (h₂ : Canonical m₂ e₂)
    (hm₁ : 0 < m₁) (hm₂ : 0 < m₂) :
    e₁ + e₂ ≤ Format.binary64.targetExponent (totalExponent (m₁ * m₂) (e₁ + e₂)) := by
  rw [targetExponent_binary64, totalExponent]
  have hlog : 2 ^ 52 ≤ m₁ * m₂ → 52 ≤ (m₁ * m₂).log2 :=
    (Nat.le_log2 (Nat.mul_pos hm₁ hm₂).ne').2
  rcases h₁.normal with h | h
  · have := hlog (le_trans h (Nat.le_mul_of_pos_right m₁ hm₂))
    omega
  rcases h₂.normal with h' | h'
  · have := hlog (le_trans h' (Nat.le_mul_of_pos_left m₂ hm₁))
    omega
  · omega

theorem sign_mul_comm (s t : Sign) : s * t = t * s := by
  cases s <;> cases t <;> rfl

/-- The sign of a product, as a bit, is the exclusive or of the operands' sign bits. -/
theorem sign_mul_toNat (a b : Bool) :
    ((if a then Sign.negative else .positive) * (if b then .negative else .positive)).toBitVec.toNat =
      (a ^^ b).toNat := by
  cases a <;> cases b <;> rfl

/-- Multiplication in the IEEE model does not depend on the order of its operands. -/
theorem unpacked_mul_comm (a b : UnpackedFloat) :
    UnpackedFloat.mul Format.binary64 a b = UnpackedFloat.mul Format.binary64 b a := by
  cases a <;> cases b <;> simp only [UnpackedFloat.mul, sign_mul_comm]
  -- two finite operands: the significands and the exponents commute too
  rw [Nat.mul_comm, Int.add_comm]

/-- Binary64 multiplication is commutative. -/
theorem float_mul_comm (x y : Float) : x * y = y * x := by
  show (⟨Float.Model.pack (UnpackedFloat.mul Format.binary64 x.toModel.unpack y.toModel.unpack)⟩ :
    Float) = ⟨Float.Model.pack (UnpackedFloat.mul Format.binary64 y.toModel.unpack x.toModel.unpack)⟩
  rw [unpacked_mul_comm]

theorem toBits_mul (x y : Float) :
    (x * y).toBits.toNat = (UnpackedFloat.pack Format.binary64
      (UnpackedFloat.mul Format.binary64 x.toModel.unpack y.toModel.unpack)).toNat := rfl

/-- A value read as a nonzero finite number unpacks to the same significand and exponent. -/
theorem unpack_of_classify {x : Float} {b : Binary64} (h : classify x = .finite b)
    (hm : 0 < b.mant) :
    x.toModel.unpack = .finite (if b.neg then .negative else .positive) b.mant b.exp hm := by
  obtain ⟨hlt, hneg, hc, hi⟩ := classify_eq_finite h
  rcases unpack_cases x hlt.le with ⟨h0, -⟩ | ⟨hinf, -⟩ | ⟨m, e, hm', -, -, hu, hc', hi'⟩
  · unfold index at hi
    omega
  · omega
  · obtain ⟨rfl, rfl⟩ := hc'.eq_of_index_eq hc (hi'.trans hi.symm)
    rw [hu, sign_eq, hneg]

/-- A value read as a zero unpacks to a zero of its sign. -/
theorem unpack_of_classify_zero {x : Float} {b : Binary64} (h : classify x = .finite b)
    (hm : b.mant = 0) : x.toModel.unpack = .zero (if b.neg then .negative else .positive) := by
  obtain ⟨hlt, hneg, hc, hi⟩ := classify_eq_finite h
  have h0 : magnitude x = 0 := by
    rw [← hi, hm, (hc.normal.resolve_left (by omega) : b.exp = -1074)]
    rfl
  have hu := unpack_of_magnitude_eq_zero _ h0
  change x.toModel.unpack = .zero (sign x) at hu
  rw [hu, sign_eq, hneg]

/-- A finite value unpacks to a zero or to a nonzero finite value of its sign, by its
significand. -/
theorem unpack_of_classify_cases {x : Float} {b : Binary64} (h : classify x = .finite b) :
    x.toModel.unpack = .zero (if b.neg then .negative else .positive) ∨
      ∃ hm : 0 < b.mant,
        x.toModel.unpack = .finite (if b.neg then .negative else .positive) b.mant b.exp hm := by
  rcases Nat.eq_zero_or_pos b.mant with hm | hm
  · exact .inl (unpack_of_classify_zero h hm)
  · exact .inr ⟨hm, unpack_of_classify h hm⟩

/-- An infinity unpacks to an infinity of its sign. -/
theorem unpack_of_classify_inf {x : Float} {s : Bool} (h : classify x = .inf s) :
    x.toModel.unpack = .infinity (if s then .negative else .positive) := by
  obtain ⟨hm, hs⟩ := magnitude_of_classify_inf h
  have hu := unpack_of_magnitude_eq_inf _ hm
  change x.toModel.unpack = .infinity (sign x) at hu
  rw [hu, sign_eq, hs]

/-- **The product of two nonzero finite values.** Its sign bit is the exclusive or of theirs, and
its magnitude is their exact product rounded to binary64: the index of the product's binade and
its significand rounded to the nearest, a tie to the even one, capped at the infinities'. -/
theorem mul_toNat {x y : Float} {bx b : Binary64} (hx : classify x = .finite bx)
    (hy : classify y = .finite b) (hmx : 0 < bx.mant) (hmy : 0 < b.mant) :
    ∃ T n, Binade T (absValue bx * absValue b) ∧
      NearestEven n (absValue bx * absValue b / 2 ^ T) ∧
      (x * y).toBits.toNat = (bx.neg ^^ b.neg).toNat * 2 ^ 63 + min (index n T) infMagnitude := by
  have hcx := (classify_eq_finite hx).2.2.1
  have hcy := (classify_eq_finite hy).2.2.1
  have hv : ((bx.mant * b.mant : ℕ) : ℚ) * 2 ^ (bx.exp + b.exp) = absValue bx * absValue b := by
    rw [absValue, absValue, zpow_add₀ two_ne_zero]
    push_cast
    ring
  rw [toBits_mul, unpack_of_classify hx hmx, unpack_of_classify hy hmy]
  obtain ⟨T, n, hb, hn, hbits⟩ := roundWithAccuracy_toNat
    ((if bx.neg then .negative else .positive) * (if b.neg then .negative else .positive))
    (Represents.exact _) (mul_exponent_le hcx hcy hmx hmy)
  rw [hv] at hb hn
  refine ⟨T, n, hb, hn, ?_⟩
  rw [← sign_mul_toNat, ← hbits]
  rfl

/-- The product of a finite value and a zero is a zero, with the exclusive or of their signs. -/
theorem mul_zero_toNat {x y : Float} {bx b : Binary64} (hx : classify x = .finite bx)
    (hy : classify y = .finite b) (hmy : b.mant = 0) :
    (x * y).toBits.toNat = (bx.neg ^^ b.neg).toNat * 2 ^ 63 := by
  rw [toBits_mul, unpack_of_classify_zero hy hmy, ← sign_mul_toNat, ← pack_zero_toNat]
  rcases unpack_of_classify_cases hx with hu | ⟨_, hu⟩ <;> rw [hu] <;> rfl

/-- The product of a nonzero finite value and an infinity is an infinity, with the exclusive or of
their signs. -/
theorem mul_inf_toNat {x y : Float} {bx : Binary64} {s : Bool} (hx : classify x = .finite bx)
    (hmx : 0 < bx.mant) (hy : classify y = .inf s) :
    (x * y).toBits.toNat = (bx.neg ^^ s).toNat * 2 ^ 63 + infMagnitude := by
  rw [toBits_mul, unpack_of_classify hx hmx, unpack_of_classify_inf hy, ← sign_mul_toNat,
    ← pack_infinity_toNat]
  rfl

/-- The product of two finite values is not a NaN, its sign bit is the exclusive or of theirs, and
it is a zero when either operand is. -/
theorem mul_of_finite {x y : Float} {bx b : Binary64} (hx : classify x = .finite bx)
    (hy : classify y = .finite b) :
    signBit (x * y) = (bx.neg ^^ b.neg) ∧ magnitude (x * y) ≤ infMagnitude ∧
      (bx.mant = 0 ∨ b.mant = 0 → magnitude (x * y) = 0) := by
  -- a zero operand gives a zero of the product's sign
  have hzero (hbits : (x * y).toBits.toNat = (bx.neg ^^ b.neg).toNat * 2 ^ 63 + 0) :
      signBit (x * y) = (bx.neg ^^ b.neg) ∧ magnitude (x * y) ≤ infMagnitude ∧
        (bx.mant = 0 ∨ b.mant = 0 → magnitude (x * y) = 0) := by
    obtain ⟨hs, hm⟩ := signBit_magnitude_of_toNat hbits (by decide)
    exact ⟨hs, hm ▸ Nat.zero_le _, fun _ => hm⟩
  by_cases hmy : b.mant = 0
  · exact hzero (by rw [mul_zero_toNat hx hy hmy, Nat.add_zero])
  by_cases hmx : bx.mant = 0
  · exact hzero (by rw [float_mul_comm, mul_zero_toNat hy hx hmx, Bool.xor_comm, Nat.add_zero])
  · obtain ⟨T, n, -, -, hbits⟩ := mul_toNat hx hy (Nat.pos_of_ne_zero hmx) (Nat.pos_of_ne_zero hmy)
    obtain ⟨hs, hm⟩ := signBit_magnitude_of_min hbits
    exact ⟨hs, hm ▸ min_le_right _ _, fun h => absurd h (by omega)⟩

/-- Multiplying by a nonzero finite value keeps the order of the magnitudes of finite values. -/
theorem magnitude_mul_le_mul {w x y : Float} {bw bx b : Binary64} (hw : classify w = .finite bw)
    (hwm : 0 < bw.mant) (hx : classify x = .finite bx) (hy : classify y = .finite b)
    (hxy : magnitude x ≤ magnitude y) : magnitude (w * x) ≤ magnitude (w * y) := by
  rcases Nat.eq_zero_or_pos bx.mant with hx0 | hx0
  · rw [(mul_of_finite hw hx).2.2 (.inr hx0)]
    exact Nat.zero_le _
  have hy0 : 0 < b.mant := (mant_pos_iff hy).2 (lt_of_lt_of_le ((mant_pos_iff hx).1 hx0) hxy)
  obtain ⟨-, -, hcx, hix⟩ := classify_eq_finite hx
  obtain ⟨-, -, hcy, hiy⟩ := classify_eq_finite hy
  -- the exact products are in order, so their roundings are
  have hv : absValue bw * absValue bx ≤ absValue bw * absValue b :=
    mul_le_mul_of_nonneg_left (hcx.value_le_of_index_le hcy (by rw [hix, hiy]; exact hxy))
      (by unfold absValue; positivity)
  obtain ⟨T, n, hT, hn, hbx⟩ := mul_toNat hw hx hwm hx0
  obtain ⟨U, k, hU, hk, hby⟩ := mul_toNat hw hy hwm hy0
  rw [(signBit_magnitude_of_min hbx).2, (signBit_magnitude_of_min hby).2]
  exact min_le_min_right _ (index_le_index hT hU hn hk hv)

/-- Multiplying by a finite value of magnitude at most one gives at most the magnitude of the
other operand. -/
theorem magnitude_mul_le {w x : Float} {bw bx : Binary64} (hw : classify w = .finite bw)
    (hx : classify x = .finite bx) (hx1 : absValue bx ≤ 1) : magnitude (w * x) ≤ magnitude w := by
  by_cases h0 : bw.mant = 0 ∨ bx.mant = 0
  · rw [(mul_of_finite hw hx).2.2 h0]
    exact Nat.zero_le _
  obtain ⟨hw0, hx0⟩ : 0 < bw.mant ∧ 0 < bx.mant := by omega
  obtain ⟨-, -, hcw, hiw⟩ := classify_eq_finite hw
  have hv : absValue bw * absValue bx ≤ bw.mant * 2 ^ bw.exp :=
    mul_le_of_le_one_right (by unfold absValue; positivity) hx1
  obtain ⟨T, n, hT, hn, hbits⟩ := mul_toNat hw hx hw0 hx0
  rw [(signBit_magnitude_of_min hbits).2, ← hiw]
  exact min_le_of_left_le (hcw.index_le hT hn hv)

/-- A finite value of key at most zero times one of key at least zero has key at most zero, and
is not a NaN. -/
theorem key_mul_nonpos {x y : Float} {bx b : Binary64} (hx : classify x = .finite bx)
    (hy : classify y = .finite b) (hkx : key x ≤ 0) (hky : 0 ≤ key y) :
    magnitude (x * y) ≤ infMagnitude ∧ key (x * y) ≤ 0 := by
  obtain ⟨hs, hinf, hzero⟩ := mul_of_finite hx hy
  refine ⟨hinf, ?_⟩
  rw [(classify_eq_finite hx).2.1, (classify_eq_finite hy).2.1] at hs
  by_cases h0 : bx.mant = 0 ∨ b.mant = 0
  · -- a zero operand: a zero
    unfold key
    rw [hzero h0]
    split <;> simp
  · -- otherwise the signs are opposite or negative: the first is negative, the second positive
    have hpx := (mant_pos_iff hx).1 (by omega)
    have hpy := (mant_pos_iff hy).1 (by omega)
    have hsx : signBit x = true := by
      by_contra h
      rw [Bool.not_eq_true] at h
      rw [key_of_signBit_false h] at hkx
      omega
    have hsy : signBit y = false := by
      by_contra h
      rw [Bool.not_eq_false] at h
      rw [key_of_signBit_true h] at hky
      omega
    rw [key_of_signBit_true (by rw [hs, hsx, hsy]; rfl)]
    omega

end TradeDesk.Binary64
