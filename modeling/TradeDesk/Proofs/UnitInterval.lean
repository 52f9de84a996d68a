import Mathlib
import TradeDesk.Proofs.NumOrder
import TradeDesk.Proofs.FloatAdd

/-!
# Binary64 values in the unit interval

The sizing rules compute with fractions: multipliers, shares of a history, drawdowns and
confidences, all binary64 values between zero and one (`Binary64.InUnit`). Rounding keeps them
there. The rounded product of two of them is one of them, no larger than either factor, and grows
with both factors (`InUnit.mul`, `toRat_mul_le_left`, `toRat_mul_le_mul`); a whole power of one
is one of them and falls as the exponent grows (`InUnit.powNat`, `toRat_powNat_anti`); one less
such a value is one of them and falls as the value grows (`InUnit.one_sub`, `toRat_one_sub_anti`). Each of these
is its exact counterpart read through `RoundsTo`: the exact result stays in `[0, 1]` and in order,
and rounding is monotone and leaves `0` and `1` where they are.

`Num.InUnit` is the same for numbers, which is how the rules hold these values.
-/

namespace TradeDesk

namespace Binary64

/-! ## The binary64 values the rules write as literals -/

theorem classify_one : classify (nearest false 10 10) = .finite ⟨false, 2 ^ 52, -52⟩ := by
  decide

theorem classify_zero : classify (nearest false 0 10) = .finite ⟨false, 0, -1074⟩ := by
  decide

theorem value_one : value ⟨false, 2 ^ 52, -52⟩ = 1 := by
  norm_num [value, absValue]

theorem value_zero : value ⟨false, 0, -1074⟩ = 0 := by
  norm_num [value, absValue]

/-! ## Values in the unit interval -/

/-- A finite binary64 value whose exact value lies in `[0, 1]`. -/
def InUnit (x : Float) : Prop := ∃ b, classify x = .finite b ∧ 0 ≤ value b ∧ value b ≤ 1

variable {x y z w : Float} {q r : ℚ}

namespace InUnit

theorem finite (h : InUnit x) : ∃ b, classify x = .finite b :=
  let ⟨b, hb, _⟩ := h
  ⟨b, hb⟩

theorem toRat_mem (h : InUnit x) : 0 ≤ toRat x ∧ toRat x ≤ 1 := by
  obtain ⟨b, hb, h0, h1⟩ := h
  rw [toRat_of_classify hb]
  exact ⟨h0, h1⟩

theorem roundsTo (h : InUnit x) : RoundsTo x (toRat x) := by
  obtain ⟨b, hb, -⟩ := h
  rw [toRat_of_classify hb]
  exact RoundsTo.of_classify hb

end InUnit

theorem inUnit_one : InUnit (nearest false 10 10) :=
  ⟨_, classify_one, by rw [value_one]; exact zero_le_one, by rw [value_one]⟩

theorem inUnit_zero : InUnit (nearest false 0 10) :=
  ⟨_, classify_zero, by rw [value_zero], by rw [value_zero]; exact zero_le_one⟩

theorem toRat_one : toRat (nearest false 10 10) = 1 := by
  rw [toRat_of_classify classify_one, value_one]

theorem toRat_zero : toRat (nearest false 0 10) = 0 := by
  rw [toRat_of_classify classify_zero, value_zero]

/-- Finite roundings of ordered values are ordered. -/
theorem toRat_le_of_roundsTo (hz : RoundsTo z q) (hw : RoundsTo w r) (h : q ≤ r)
    (fz : ∃ b, classify z = .finite b) (fw : ∃ b, classify w = .finite b) : toRat z ≤ toRat w := by
  obtain ⟨bz, hbz⟩ := fz
  obtain ⟨bw, hbw⟩ := fw
  rw [toRat_of_classify hbz, toRat_of_classify hbw]
  exact hz.value_le hw h hbz hbw

/-- **Rounding keeps the unit interval**: zero and one are binary64 values, so the rounding of a
value between them lies between them. -/
theorem RoundsTo.inUnit (hz : RoundsTo z q) (h0 : 0 ≤ q) (h1 : q ≤ 1) : InUnit z := by
  obtain ⟨b, hb⟩ := hz.finite_of_abs_le classify_one (by
    rw [value_one, abs_of_nonneg h0]
    exact h1)
  have hlo := toRat_le_of_roundsTo inUnit_zero.roundsTo hz (by rwa [toRat_zero]) inUnit_zero.finite
    ⟨b, hb⟩
  have hhi := toRat_le_of_roundsTo hz inUnit_one.roundsTo (by rwa [toRat_one]) ⟨b, hb⟩
    inUnit_one.finite
  rw [toRat_zero, toRat_of_classify hb] at hlo
  rw [toRat_one, toRat_of_classify hb] at hhi
  exact ⟨b, hb, hlo, hhi⟩

/-! ## Products -/

/-- The product of two values in the unit interval rounds their exact product. -/
theorem InUnit.roundsTo_mul (hx : InUnit x) (hy : InUnit y) :
    RoundsTo (x * y) (toRat x * toRat y) := by
  obtain ⟨bx, hbx, -⟩ := hx
  obtain ⟨b, hb, -⟩ := hy
  rw [toRat_of_classify hbx, toRat_of_classify hb]
  exact RoundsTo.mul hbx hb

theorem InUnit.mul (hx : InUnit x) (hy : InUnit y) : InUnit (x * y) := by
  obtain ⟨hx0, hx1⟩ := hx.toRat_mem
  obtain ⟨hy0, hy1⟩ := hy.toRat_mem
  exact (hx.roundsTo_mul hy).inUnit (mul_nonneg hx0 hy0) (mul_le_one₀ hx1 hy0 hy1)

/-- A product grows with both factors. -/
theorem toRat_mul_le_mul {x' y' : Float} (hx' : InUnit x') (hx : InUnit x) (hy' : InUnit y')
    (hy : InUnit y) (h₁ : toRat x' ≤ toRat x) (h₂ : toRat y' ≤ toRat y) :
    toRat (x' * y') ≤ toRat (x * y) :=
  toRat_le_of_roundsTo (hx'.roundsTo_mul hy') (hx.roundsTo_mul hy)
    (mul_le_mul h₁ h₂ hy'.toRat_mem.1 hx.toRat_mem.1) (hx'.mul hy').finite (hx.mul hy).finite

/-- A product is no larger than its first factor. -/
theorem toRat_mul_le_left (hx : InUnit x) (hy : InUnit y) : toRat (x * y) ≤ toRat x :=
  toRat_le_of_roundsTo (hx.roundsTo_mul hy) hx.roundsTo
    (mul_le_of_le_one_right hx.toRat_mem.1 hy.toRat_mem.2) (hx.mul hy).finite hx.finite

/-- A product is no larger than its second factor. -/
theorem toRat_mul_le_right (hx : InUnit x) (hy : InUnit y) : toRat (x * y) ≤ toRat y := by
  rw [float_mul_comm]
  exact toRat_mul_le_left hy hx

/-! ## Powers -/

/-- A power of a value in the unit interval rounds the exact power. -/
theorem InUnit.roundsTo_powNat (hx : InUnit x) (k : ℕ) :
    RoundsTo (powNat x k) (toRat x ^ k) := by
  obtain ⟨b, hb, -⟩ := hx
  rw [toRat_of_classify hb]
  exact RoundsTo.powNat hb k

theorem InUnit.powNat (hx : InUnit x) (k : ℕ) : InUnit (powNat x k) := by
  obtain ⟨h0, h1⟩ := hx.toRat_mem
  exact (hx.roundsTo_powNat k).inUnit (pow_nonneg h0 k) (pow_le_one₀ h0 h1)

/-- A power of a value in the unit interval falls as the exponent grows. -/
theorem toRat_powNat_anti (hx : InUnit x) {k k' : ℕ} (h : k ≤ k') :
    toRat (powNat x k') ≤ toRat (powNat x k) := by
  obtain ⟨h0, h1⟩ := hx.toRat_mem
  exact toRat_le_of_roundsTo (hx.roundsTo_powNat k') (hx.roundsTo_powNat k)
    (pow_le_pow_of_le_one h0 h1 h) (hx.powNat k').finite (hx.powNat k).finite

/-! ## One less a value -/

/-- One less a value in the unit interval rounds their exact difference. -/
theorem InUnit.roundsTo_one_sub (hd : InUnit x) :
    RoundsTo (nearest false 10 10 - x) (1 - toRat x) := by
  obtain ⟨b, hb, -⟩ := hd
  rw [toRat_of_classify hb, ← value_one]
  exact RoundsTo.sub classify_one hb

theorem InUnit.one_sub (hd : InUnit x) : InUnit (nearest false 10 10 - x) := by
  obtain ⟨h0, h1⟩ := hd.toRat_mem
  exact hd.roundsTo_one_sub.inUnit (by linarith) (by linarith)

/-- One less a value falls as the value grows. -/
theorem toRat_one_sub_anti (hx : InUnit x) (hy : InUnit y) (h : toRat x ≤ toRat y) :
    toRat (nearest false 10 10 - y) ≤ toRat (nearest false 10 10 - x) :=
  toRat_le_of_roundsTo hy.roundsTo_one_sub hx.roundsTo_one_sub (by linarith) hy.one_sub.finite
    hx.one_sub.finite

end Binary64

namespace Num

open Binary64 Numeric

/-- A number in the unit interval, held as a binary64 value. -/
def InUnit (a : Num) : Prop := ∃ x, a = .float x ∧ Binary64.InUnit x

variable {a c : Num}

theorem InUnit.isFinite (h : a.InUnit) : a.isFinite = true := by
  obtain ⟨x, rfl, hx⟩ := h
  exact isFinite_float.2 hx.finite

theorem InUnit.toRat_mem (h : a.InUnit) : 0 ≤ a.toRat ∧ a.toRat ≤ 1 := by
  obtain ⟨x, rfl, hx⟩ := h
  exact hx.toRat_mem

theorem InUnit.le_iff (ha : a.InUnit) (hc : c.InUnit) : a ≤ c ↔ a.toRat ≤ c.toRat :=
  le_iff_toRat_le ha.isFinite hc.isFinite

theorem InUnit.mul (ha : a.InUnit) (hc : c.InUnit) : (a * c).InUnit := by
  obtain ⟨x, rfl, hx⟩ := ha
  obtain ⟨y, rfl, hy⟩ := hc
  exact ⟨x * y, rfl, hx.mul hy⟩

theorem toRat_mul_le_mul {a' c' : Num} (ha' : a'.InUnit) (ha : a.InUnit) (hc' : c'.InUnit)
    (hc : c.InUnit) (h₁ : a'.toRat ≤ a.toRat) (h₂ : c'.toRat ≤ c.toRat) :
    (a' * c').toRat ≤ (a * c).toRat := by
  obtain ⟨x', rfl, hx'⟩ := ha'
  obtain ⟨x, rfl, hx⟩ := ha
  obtain ⟨y', rfl, hy'⟩ := hc'
  obtain ⟨y, rfl, hy⟩ := hc
  exact Binary64.toRat_mul_le_mul hx' hx hy' hy h₁ h₂

theorem toRat_mul_le_left (ha : a.InUnit) (hc : c.InUnit) : (a * c).toRat ≤ a.toRat := by
  obtain ⟨x, rfl, hx⟩ := ha
  obtain ⟨y, rfl, hy⟩ := hc
  exact Binary64.toRat_mul_le_left hx hy

theorem inUnit_one : (1.0 : Num).InUnit := ⟨_, rfl, Binary64.inUnit_one⟩

theorem inUnit_zero : (0.0 : Num).InUnit := ⟨_, rfl, Binary64.inUnit_zero⟩

@[simp] theorem toRat_one_point : (1.0 : Num).toRat = 1 := Binary64.toRat_one

@[simp] theorem toRat_zero_point : (0.0 : Num).toRat = 0 := Binary64.toRat_zero

theorem toRat_mul_le_right (ha : a.InUnit) (hc : c.InUnit) : (a * c).toRat ≤ c.toRat := by
  obtain ⟨x, rfl, hx⟩ := ha
  obtain ⟨y, rfl, hy⟩ := hc
  exact Binary64.toRat_mul_le_right hx hy

/-- A decimal literal between zero and one is a binary64 value in the unit interval. -/
theorem inUnit_literal {m e : ℕ} (h : m ≤ Nat.pow 10 e) :
    (OfScientific.ofScientific m true e : Num).InUnit := by
  have hd : 0 < Nat.pow 10 e := Nat.pow_pos (by norm_num)
  have hr := RoundsTo.nearest false m hd
  rw [if_neg Bool.false_ne_true] at hr
  exact ⟨_, rfl, hr.inUnit (by positivity) ((div_le_one (by exact_mod_cast hd)).2 (by exact_mod_cast h))⟩

theorem InUnit.pow (ha : a.InUnit) (k : ℕ) : (a ^ k).InUnit := by
  obtain ⟨x, rfl, hx⟩ := ha
  exact ⟨_, rfl, hx.powNat k⟩

theorem toRat_pow_anti (ha : a.InUnit) {k k' : ℕ} (h : k ≤ k') : (a ^ k').toRat ≤ (a ^ k).toRat := by
  obtain ⟨x, rfl, hx⟩ := ha
  exact toRat_powNat_anti hx h

/-- The larger of two values in the unit interval is one of them. -/
theorem InUnit.larger (ha : a.InUnit) (hc : c.InUnit) : (larger a c).InUnit := by
  unfold Numeric.larger
  split_ifs
  · exact hc
  · exact ha

/-- A value clamped to a band of the unit interval is in it, whatever the value: the band's ends
are kept as they are, and a binary64 value stays one. -/
theorem InUnit.clamp {lo hi : Num} (hlo : lo.InUnit) (hhi : hi.InUnit) (hband : lo ≤ hi)
    (x : Float) : (Numeric.clamp lo hi (.float x)).InUnit := by
  obtain ⟨hfin, h₁, h₂⟩ := clamp_mem hlo.isFinite hhi.isFinite hband (.float x)
  have hlo0 := hlo.toRat_mem.1
  have hhi1 := hhi.toRat_mem.2
  obtain ⟨l, rfl, -⟩ := hlo
  obtain ⟨h, rfl, -⟩ := hhi
  have hfloat : ∃ y, Numeric.clamp (Num.float l) (.float h) (.float x) = .float y := by
    unfold Numeric.clamp Numeric.larger Numeric.smaller
    split_ifs <;> exact ⟨_, rfl⟩
  obtain ⟨y, hy⟩ := hfloat
  rw [hy] at hfin h₁ h₂ ⊢
  obtain ⟨b, hb⟩ := isFinite_float.1 hfin
  rw [toRat_float hb] at h₁ h₂
  exact ⟨y, rfl, b, hb, hlo0.trans h₁, h₂.trans hhi1⟩

/-- A binary64 value held to `[0, 1]` is in the unit interval, whatever the value. -/
theorem inUnit_clamp_unit (x : Float) : (Numeric.clamp (0.0 : Num) 1.0 (.float x)).InUnit :=
  InUnit.clamp inUnit_zero inUnit_one (by decide) x

end Num

end TradeDesk
