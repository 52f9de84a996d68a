import Mathlib
import TradeDesk.Proofs.UnitInterval
import TradeDesk.Proofs.Session
import TradeDesk.Proofs.Update

/-!
# The recommendation in binary64

`Ledger.size` runs on `Num`: every fraction it computes is a binary64 value, each product and
difference rounded. This module shows that the rounding changes none of the shapes the exact
reading has, under a configuration that passes validation (`SizingConfig.Checked`).

* Every factor the rules multiply is a binary64 value in the unit interval (`Num.InUnit`): the
  configured fractions, the streak's power of `0.9` floored at a half, a thin history's share, the
  Kelly stake held to `[0, 1]`, one less a drawdown. Rounded products of such values stay there and
  keep the order of their factors (`Proofs/UnitInterval`).
* The dampers of a session in more distress are those of the other session, each no larger, with
  perhaps some more (`FactorsBelow`); damping by them leaves no more (`FactorsBelow.foldl_le`).
* The sign of a number is the sign of the key of its binary64 value (`Num.le_zero_iff`), so a
  position, a positive fraction of a bankroll that is not a NaN, grows with both
  (`Binary64.mul_le_mul_of_pos`).
* Every ledger a session reaches keeps a finite initial bankroll, a bankroll that is not a NaN and
  a drawdown in the unit interval (`Ledger.Sound`), since its calls book only finite numbers.
-/

namespace TradeDesk

namespace Binary64

open Float.Model

variable {x y x' y' : Float} {bx b bx' : Binary64} {q : ℚ}

/-! ## Values read off their sign bit and magnitude -/

/-- The bits of a value are its sign bit above its magnitude. -/
theorem toNat_eq_signBit_magnitude (x : Float) :
    x.toBits.toNat = (signBit x).toNat * 2 ^ 63 + magnitude x := by
  have hlt : x.toBits.toNat < 2 ^ 64 := x.toBits.toNat_lt
  have hs := signBit_iff x
  unfold magnitude
  cases h : signBit x
  · rw [h] at hs
    have : x.toBits.toNat < 2 ^ 63 := not_le.1 fun h' => Bool.false_ne_true (hs.2 h')
    simp only [Bool.toNat_false, Nat.zero_mul, Nat.zero_add]
    omega
  · rw [h] at hs
    have := hs.1 rfl
    simp only [Bool.toNat_true, Nat.one_mul]
    omega

/-- Two values with one sign bit and one magnitude are the same value. -/
theorem eq_of_signBit_magnitude (hs : signBit x = signBit y) (hm : magnitude x = magnitude y) :
    x = y := by
  apply ext_toBits
  apply UInt64.toNat_inj.1
  rw [toNat_eq_signBit_magnitude x, toNat_eq_signBit_magnitude y, hs, hm]

/-- Two roundings of one exact value have one magnitude. -/
theorem RoundsTo.magnitude_eq (hx : RoundsTo x q) (hy : RoundsTo y q) :
    magnitude x = magnitude y :=
  le_antisymm (hx.magnitude_le_magnitude hy le_rfl) (hy.magnitude_le_magnitude hx le_rfl)

theorem key_zero : key (nearest false 0 10) = 0 := by
  decide

/-- Multiplying a finite value by one gives it back, a zero with its sign. -/
theorem mul_one_point (hx : classify x = .finite bx) : x * nearest false 10 10 = x := by
  have hr := RoundsTo.mul hx classify_one
  rw [value_one, mul_one] at hr
  apply eq_of_signBit_magnitude
  · rw [(mul_of_finite hx classify_one).1, Bool.xor_false, (classify_eq_finite hx).2.1]
  · exact hr.magnitude_eq (RoundsTo.of_classify hx)

/-- One less a zero is one. -/
theorem one_sub_of_toRat_eq_zero (hx : InUnit x) (h0 : toRat x = 0) :
    nearest false 10 10 - x = nearest false 10 10 := by
  have hr := hx.roundsTo_one_sub
  rw [h0, sub_zero] at hr
  have h1 : RoundsTo (nearest false 10 10) 1 := by
    have h := RoundsTo.of_classify classify_one
    rwa [value_one] at h
  apply eq_of_signBit_magnitude
  · rw [hr.signBit_of_pos one_pos, h1.signBit_of_pos one_pos]
  · exact hr.magnitude_eq h1

/-! ## Signs and products -/

/-- A value that is not a NaN and has a key between those of two finite values is finite. -/
theorem finite_of_key_le_key (hy : magnitude y ≤ infMagnitude) (hx : classify x = .finite bx)
    (hx' : classify x' = .finite bx') (h₁ : key x ≤ key y) (h₂ : key y ≤ key x') :
    ∃ b, classify y = .finite b := by
  rcases hc : classify y with b | s | -
  · exact ⟨b, rfl⟩
  · -- an infinity's key lies beyond every finite value's
    have hk := key_of_classify_inf hc
    have hlo := abs_key_lt hx
    have hhi := abs_key_lt hx'
    cases s
    · rw [if_neg Bool.false_ne_true] at hk
      omega
    · rw [if_pos rfl] at hk
      omega
  · exact absurd hy (not_le.2 (magnitude_of_classify_nan hc))

/-- A finite value above zero has its sign bit clear and a significand that is not zero. -/
theorem neg_mant_of_value_pos (h : 0 < value b) : b.neg = false ∧ 0 < b.mant := by
  unfold value at h
  cases hn : b.neg
  · rw [hn, if_neg Bool.false_ne_true] at h
    refine ⟨rfl, Nat.pos_of_ne_zero fun hm => ?_⟩
    rw [absValue_eq_zero hm] at h
    exact lt_irrefl 0 h
  · rw [hn, if_pos rfl] at h
    exact absurd h (not_lt.2 (neg_nonpos.2 (absValue_nonneg b)))

/-- A finite value above zero times `+∞` is `+∞`. -/
theorem mul_inf_of_value_pos (hx : classify x = .finite bx) (h : 0 < value bx)
    (hy : classify y = .inf false) : classify (x * y) = .inf false := by
  obtain ⟨hn, hm⟩ := neg_mant_of_value_pos h
  have hbits := mul_inf_toNat hx hm hy
  rw [hn] at hbits
  obtain ⟨hs, hmag⟩ := signBit_magnitude_of_toNat hbits infMagnitude_lt
  rw [classify_of_eq_inf _ hmag, hs]
  rfl

/-- The key of a finite value is above zero exactly when its exact value is. -/
theorem key_pos_iff (hx : classify x = .finite bx) : 0 < key x ↔ 0 < value bx := by
  rw [← key_zero, ← value_zero, key_lt_iff_value_lt classify_zero hx]

/-- A finite value above zero times a value above zero is at least zero, and not a NaN. -/
theorem zero_le_mul_of_pos (hx : classify x = .finite bx) (h : 0 < value bx)
    (hy : magnitude y ≤ infMagnitude) (hy0 : 0 < key y) : nearest false 0 10 ≤ x * y := by
  have hz := RoundsTo.of_classify classify_zero
  rw [value_zero] at hz
  rcases hc : classify y with b | s | -
  · exact hz.le (RoundsTo.mul hx hc) (mul_nonneg h.le ((key_pos_iff hc).1 hy0).le)
  · cases s
    · exact le_of_classify_inf hz.magnitude_le (mul_inf_of_value_pos hx h hc)
    · rw [key_of_classify_inf hc, if_pos rfl] at hy0
      omega
  · exact absurd hy (not_le.2 (magnitude_of_classify_nan hc))

/-- A value below another is not a NaN, and neither is the other. -/
theorem magnitude_le_of_le (h : x ≤ y) :
    magnitude x ≤ infMagnitude ∧ magnitude y ≤ infMagnitude := by
  by_contra hnan
  rw [not_and_or] at hnan
  -- a NaN operand makes the comparison false
  have hfalse : ¬ x ≤ y := by
    show ¬ Float.le x y = true
    rw [Float.le, decide_eq_true_iff]
    show ¬ x.toModel.unpack.le y.toModel.unpack = true
    rcases hnan with hx | hy
    · have hu : x.toModel.unpack = .notANumber := unpack_of_inf_lt _ (not_le.1 hx)
      rw [hu]
      simp [UnpackedFloat.le, UnpackedFloat.compare]
    · have hu : y.toModel.unpack = .notANumber := unpack_of_inf_lt _ (not_le.1 hy)
      rw [hu]
      cases x.toModel.unpack <;> simp [UnpackedFloat.le, UnpackedFloat.compare]
  exact hfalse h

/-- **A position grows with its fraction and its bankroll.** For positive finite `x' ≤ x` and
`y' ≤ y` with `y'` above zero, `x' * y' ≤ x * y`. A finite bankroll gives rounded products of
ordered exact products; an infinite one makes the larger product `+∞`. -/
theorem mul_le_mul_of_pos (hx' : classify x' = .finite bx') (hx : classify x = .finite bx)
    (h0 : 0 < value bx') (hxx : value bx' ≤ value bx) (hy0 : 0 < key y') (hyy : y' ≤ y) :
    x' * y' ≤ x * y := by
  obtain ⟨hmy', hmy⟩ := magnitude_le_of_le hyy
  have hkk := (le_iff_key_le hmy' hmy).1 hyy
  have hpos : 0 < value bx := h0.trans_le hxx
  rcases hc : classify y with b | s | -
  · -- a finite bankroll: both products round their exact products
    obtain ⟨b', hb'⟩ := finite_of_key_le_key hmy' classify_zero hc (by rw [key_zero]; exact hy0.le) hkk
    have hv' := (key_pos_iff hb').1 hy0
    have hv : value b' ≤ value b := (key_le_iff_value_le hb' hc).1 hkk
    exact (RoundsTo.mul hx' hb').le (RoundsTo.mul hx hc) (mul_le_mul hxx hv hv'.le hpos.le)
  · cases s
    · -- an infinite bankroll makes the larger position `+∞`
      refine le_of_classify_inf ?_ (mul_inf_of_value_pos hx hpos hc)
      rcases hc' : classify y' with b' | s' | -
      · exact (RoundsTo.mul hx' hc').magnitude_le
      · cases s'
        · exact (magnitude_of_classify_inf (mul_inf_of_value_pos hx' h0 hc')).1.le
        · rw [key_of_classify_inf hc', if_pos rfl] at hy0
          omega
      · exact absurd hmy' (not_le.2 (magnitude_of_classify_nan hc'))
    · rw [key_of_classify_inf hc, if_pos rfl] at hkk
      omega
  · exact absurd hmy (not_le.2 (magnitude_of_classify_nan hc))

/-- A value that is not a NaN plus a finite value is not a NaN: an infinity stays itself. -/
theorem magnitude_add_le (hy : magnitude y ≤ infMagnitude) (hx : classify x = .finite bx) :
    magnitude (y + x) ≤ infMagnitude := by
  rcases hc : classify y with b | s | -
  · exact (RoundsTo.add hc hx).magnitude_le
  · exact (signBit_magnitude_of_toNat (add_inf_toNat hc hx) infMagnitude_lt).2.le
  · exact absurd hy (not_le.2 (magnitude_of_classify_nan hc))

end Binary64

namespace Num

open Binary64

variable {a c : Num}

/-! ## The sign of a number -/

@[simp] theorem toRat_int_zero : (0 : Num).toRat = 0 := by
  simp [toRat]

@[simp] theorem toRat_int_one : (1 : Num).toRat = 1 := by
  simp [toRat]

/-- A whole number's binary64 value has a key at most zero exactly when the number is at most
zero: rounding keeps zero and one where they are, and keeps order. -/
theorem key_ofInt_nonpos_iff (n : ℤ) : key (Binary64.ofInt n) ≤ 0 ↔ n ≤ 0 := by
  constructor
  · intro h
    by_contra hn
    have h1 := (RoundsTo.ofInt 1).key_le (RoundsTo.ofInt n)
      (by exact_mod_cast (show (1 : ℤ) ≤ n by omega))
    have hpos : (0 : ℤ) < key (Binary64.ofInt 1) := by decide
    omega
  · intro h
    have h0 := RoundsTo.of_classify classify_zero
    rw [value_zero] at h0
    have h1 := (RoundsTo.ofInt n).key_le h0 (by exact_mod_cast h)
    rwa [key_zero] at h1

/-- **A number is at most zero exactly when the key of its binary64 value is**, unless it is a
NaN. -/
theorem le_zero_iff (ha : magnitude a.toFloat ≤ infMagnitude) : a ≤ 0 ↔ key a.toFloat ≤ 0 := by
  cases a with
  | int n =>
    rw [le_iff_toRat_le rfl rfl, toRat_int, toRat_int_zero]
    show _ ↔ key (Binary64.ofInt n) ≤ 0
    rw [key_ofInt_nonpos_iff]
    exact Int.cast_nonpos
  | float x =>
    rcases hx : classify x with b | s | -
    · rw [le_iff_toRat_le (isFinite_float.2 ⟨b, hx⟩) rfl, toRat_float hx, toRat_int_zero, ← key_zero,
        ← value_zero]
      exact (key_le_iff_value_le hx classify_zero).symm
    · -- an infinity is compared by its sign alone
      show (Num.float x).le (.int 0) = true ↔ key x ≤ 0
      rw [key_of_classify_inf hx]
      cases s <;> simp [le, order, compareIntFloat, hx, infMagnitude]
    · exact absurd ha (not_le.2 (magnitude_of_classify_nan hx))

/-- **A number is above zero exactly when the key of its binary64 value is**, unless it is a
NaN. -/
theorem zero_lt_iff (ha : magnitude a.toFloat ≤ infMagnitude) : 0 < a ↔ 0 < key a.toFloat := by
  cases a with
  | int n =>
    rw [lt_iff_toRat_lt rfl rfl, toRat_int, toRat_int_zero]
    show _ ↔ 0 < key (Binary64.ofInt n)
    have h := key_ofInt_nonpos_iff n
    rw [Int.cast_pos]
    omega
  | float x =>
    rcases hx : classify x with b | s | -
    · rw [lt_iff_toRat_lt rfl (isFinite_float.2 ⟨b, hx⟩), toRat_float hx, toRat_int_zero]
      exact (key_pos_iff hx).symm
    · show (Num.int 0).lt (.float x) = true ↔ 0 < key x
      rw [key_of_classify_inf hx]
      cases s <;> simp [lt, order, compareIntFloat, hx, infMagnitude]
    · exact absurd ha (not_le.2 (magnitude_of_classify_nan hx))

/-- A number that is not a NaN is above zero exactly when it is not at most zero. -/
theorem zero_lt_iff_not_le (ha : magnitude a.toFloat ≤ infMagnitude) : 0 < a ↔ ¬ a ≤ 0 := by
  rw [zero_lt_iff ha, le_zero_iff ha]
  omega

/-- Binary64 values are ordered as numbers as they are as binary64 values. -/
theorem float_le_float {x y : Float} (h : x ≤ y) : Num.float x ≤ .float y := by
  obtain ⟨hx, hy⟩ := magnitude_le_of_le h
  show (Num.float x).le (.float y) = true
  rw [le, order_float_float hx hy]
  rcases ((le_iff_key_le hx hy).1 h).lt_or_eq with hlt | heq
  · simp [compare_lt_iff_lt.2 hlt]
  · simp [heq]

/-! ## The operations the rules apply to binary64 values -/

theorem float_mul (x : Float) (c : Num) : Num.float x * c = .float (x * c.toFloat) := by
  cases c <;> rfl

theorem sub_float (a : Num) (w : Float) : a - .float w = .float (a.toFloat - w) := by
  cases a <;> rfl

theorem one_point_sub (c : Num) : (1.0 : Num) - c = .float (nearest false 10 10 - c.toFloat) := by
  cases c <;> rfl

/-- A quotient is always a binary64 value. -/
theorem div_float (a c : Num) : ∃ w, a / c = .float w := by
  change ∃ w, Num.div a c = .float w
  unfold Num.div
  split
  · split <;> exact ⟨_, rfl⟩
  · exact ⟨_, rfl⟩

/-- The share `n / d` of two whole numbers is the fraction rounded to binary64. -/
theorem natCast_div (n : ℕ) {d : ℕ} (hd : 0 < d) : (n : Num) / (d : Num) = .float (nearest false n d) := by
  change Num.div (.int n) (.int d) = _
  have hd' : ((d : ℤ) == 0) = false := by
    rw [beq_eq_false_iff_ne]
    omega
  have hs : (decide ((n : ℤ) < 0) != decide ((d : ℤ) < 0)) = false := by
    simp only [Int.not_lt.2 (Int.natCast_nonneg n), Int.not_lt.2 (Int.natCast_nonneg d),
      decide_false]
    rfl
  simp only [Num.div, hd', Bool.false_eq_true, if_false, Int.natAbs_natCast, hs]

/-! ## Fractions -/

/-- A fraction as validation accepts it: a binary64 value in `(0, 1]`. -/
structure IsFraction (a : Num) : Prop where
  float : ∃ x, a = .float x
  pos : 0 < a
  le_one : a ≤ 1

theorem IsFraction.isFinite (h : a.IsFraction) : a.isFinite = true :=
  isFinite_of_le_of_le rfl rfl (le_of_lt h.pos) h.le_one

theorem IsFraction.toRat_pos (h : a.IsFraction) : 0 < a.toRat := by
  have h0 := (lt_iff_toRat_lt rfl h.isFinite).1 h.pos
  rwa [toRat_int_zero] at h0

theorem IsFraction.inUnit (h : a.IsFraction) : a.InUnit := by
  have h1 := (le_iff_toRat_le h.isFinite rfl).1 h.le_one
  have h0 := h.toRat_pos
  obtain ⟨x, rfl⟩ := h.float
  obtain ⟨b, hb⟩ := isFinite_float.1 h.isFinite
  rw [toRat_float hb] at h0 h1
  rw [toRat_int_one] at h1
  exact ⟨x, rfl, b, hb, h0.le, h1⟩

/-! ## Products of factors in the unit interval -/

/-- Multiplying by factors in the unit interval, from the left, keeps a value there. -/
theorem foldl_mul_inUnit {k : Num} (hk : k.InUnit) :
    ∀ {ms : List Num}, (∀ a ∈ ms, a.InUnit) → (ms.foldl (· * ·) k).InUnit
  | [], _ => hk
  | a :: ms, h => by
    rw [List.foldl_cons]
    exact foldl_mul_inUnit (hk.mul (h a (List.mem_cons_self ..))) fun b hb =>
      h b (List.mem_cons_of_mem _ hb)

/-- `FactorsBelow ms' ms`: the factors `ms'` damp at least as much as `ms`. Each factor of `ms` is
matched, in order, by one of `ms'` that is no larger, and `ms'` may hold further factors; all lie
in the unit interval. -/
inductive FactorsBelow : List Num → List Num → Prop
  | nil : FactorsBelow [] []
  | cons {a' a : Num} {ms' ms : List Num} (ha' : a'.InUnit) (ha : a.InUnit)
      (hle : a'.toRat ≤ a.toRat) : FactorsBelow ms' ms → FactorsBelow (a' :: ms') (a :: ms)
  | extra {a' : Num} {ms' ms : List Num} (ha' : a'.InUnit) :
      FactorsBelow ms' ms → FactorsBelow (a' :: ms') ms

namespace FactorsBelow

theorem append {ms₁' ms₁ ms₂' ms₂ : List Num} (h₁ : FactorsBelow ms₁' ms₁)
    (h₂ : FactorsBelow ms₂' ms₂) : FactorsBelow (ms₁' ++ ms₂') (ms₁ ++ ms₂) := by
  induction h₁ with
  | nil => exact h₂
  | cons ha' ha hle _ ih => exact .cons ha' ha hle ih
  | extra ha' _ ih => exact .extra ha' ih

/-- Factors of the unit interval damp as much as themselves. -/
theorem refl : ∀ {ms : List Num}, (∀ a ∈ ms, a.InUnit) → FactorsBelow ms ms
  | [], _ => .nil
  | a :: _, h =>
    have ha := h a (List.mem_cons_self ..)
    .cons ha ha le_rfl (refl fun b hb => h b (List.mem_cons_of_mem _ hb))

/-- A factor that applies in `ms` applies in `ms'` too, no larger. -/
theorem ite {P P' : Prop} [Decidable P] [Decidable P'] {a' a : Num} (hP : P → P')
    (ha' : P' → a'.InUnit) (ha : P → a.InUnit) (hle : P → a'.toRat ≤ a.toRat) :
    FactorsBelow (if P' then [a'] else []) (if P then [a] else []) := by
  by_cases hp : P
  · rw [if_pos hp, if_pos (hP hp)]
    exact .cons (ha' (hP hp)) (ha hp) (hle hp) .nil
  · rw [if_neg hp]
    split_ifs with hp'
    · exact .extra (ha' hp') .nil
    · exact .nil

/-- **Damping by more, and smaller, factors leaves no more.** Run from no more, the product with
`ms'` is no more than that with `ms`: a matched factor keeps the order of the two products, and a
further factor of the unit interval can only lower its side. -/
theorem foldl_le {ms' ms : List Num} (h : FactorsBelow ms' ms) {k' k : Num} (hk' : k'.InUnit)
    (hk : k.InUnit) (hle : k'.toRat ≤ k.toRat) :
    (ms'.foldl (· * ·) k').toRat ≤ (ms.foldl (· * ·) k).toRat := by
  induction h generalizing k' k with
  | nil => exact hle
  | cons ha' ha hle' _ ih =>
    exact ih (hk'.mul ha') (hk.mul ha) (toRat_mul_le_mul hk' hk ha' ha hle hle')
  | extra ha' _ ih =>
    exact ih (hk'.mul ha') hk ((toRat_mul_le_left hk' ha').trans hle)

end FactorsBelow

end Num

/-! ## A configuration that passes validation -/

namespace SizingConfig

open Config

/-- What validation guarantees of a sizing configuration, as the rules read it in binary64: every
fraction a binary64 value in `(0, 1]`, a positive history length, and a band the right way round. -/
structure Checked (cfg : SizingConfig Num) : Prop where
  base : cfg.baseMultiplier.IsFraction
  maxKelly : cfg.maxKelly.IsFraction
  minKelly : cfg.minKelly.IsFraction
  lookback_pos : 0 < cfg.lookback
  maxDrawdown : cfg.maxDrawdown.IsFraction
  reduction : cfg.drawdownReduction.IsFraction
  band : cfg.minKelly ≤ cfg.maxKelly

/-- A fraction field reads a binary64 value in `(0, 1]`, or its default if it is one. -/
theorem isFraction_of_field {doc : Value} {k : String} {d x : Num} (hd : d.IsFraction)
    (h : field doc k d fractionField = .ok x) : x.IsFraction := by
  rcases RouterConfig.field_eq_ok h with ⟨-, rfl⟩ | ⟨w, -, hw⟩
  · exact hd
  · obtain ⟨y, rfl, hb⟩ := RouterConfig.floatField_bounds hw
    simp only [checkBounds, List.filter, List.cons_append, List.nil_append, List.findSome?,
      Bound.check] at hb
    split_ifs at hb with h₁ h₂
    exact ⟨⟨y, rfl⟩, h₂, h₁⟩

/-- The history length field reads a positive whole number, or its default. -/
theorem lookback_of_field {doc : Value} {n : Int}
    (h : field doc "lookback_trades" ((standard : SizingConfig Num).lookback : Int)
      (intField [.gt (.int 0)]) = .ok n) : 0 < n := by
  rcases RouterConfig.field_eq_ok h with ⟨-, rfl⟩ | ⟨w, -, hw⟩
  · decide
  · have hb := RouterConfig.intField_bounds hw
    simp [checkBounds, Bound.check, Num.lt, Num.order, compare_lt_iff_lt] at hb
    omega

/-- **Validation checks what the rules rely on.** -/
theorem validate_checked {doc : Value} {cfg : SizingConfig Num} (h : validate doc = .ok cfg) :
    cfg.Checked := by
  unfold validate at h
  cases doc with
  | obj fs | map es =>
    dsimp only at h
    split at h
    · next b hi lo n dd red hb hhi hlo hn hdd hred =>
      split_ifs at h with hband
      cases h
      have fb := isFraction_of_field ⟨⟨_, rfl⟩, by decide, by decide⟩ hb
      have fhi := isFraction_of_field ⟨⟨_, rfl⟩, by decide, by decide⟩ hhi
      have flo := isFraction_of_field ⟨⟨_, rfl⟩, by decide, by decide⟩ hlo
      -- the band is checked on the two values, both finite
      have hband' : lo ≤ hi := by
        rw [Num.le_iff_toRat_le flo.isFinite fhi.isFinite]
        exact not_lt.1 fun h' => hband ((Num.lt_iff_toRat_lt fhi.isFinite flo.isFinite).2 h')
      exact ⟨fb, fhi, flo, show 0 < n.toNat by have := lookback_of_field hn; omega,
        isFraction_of_field ⟨⟨_, rfl⟩, by decide, by decide⟩ hdd,
        isFraction_of_field ⟨⟨_, rfl⟩, by decide, by decide⟩ hred, hband'⟩
    · cases h
  | _ => cases h

end SizingConfig

/-! ## The base fraction -/

namespace Kelly

/-- The stake's part of the multiplier is a binary64 value in the unit interval, whatever the
edge and probability: the Kelly term is a binary64 value (a quotient always is), and the clamp
holds even a NaN or an infinity to `[0, 1]`. -/
theorem stake_part_inUnit {e p f : Num} (h : stake e p = .part f) : f.InUnit := by
  unfold stake at h
  split_ifs at h
  cases h
  obtain ⟨w, hw⟩ := Num.div_float (1.0 - p) (e / (1.0 - p))
  rw [hw, Num.sub_float]
  exact Num.inUnit_clamp_unit _

/-- At a multiplier in the unit interval the Kelly fraction is a binary64 value between nothing
and that multiplier, whatever the edge and the probability. -/
theorem fraction_inUnit {m : Num} (hm : m.InUnit) (e p : Num) :
    (fraction e p m).InUnit ∧ (fraction e p m).toRat ≤ m.toRat := by
  unfold fraction
  cases h : stake e p with
  | whole => exact ⟨hm, le_rfl⟩
  | nothing => exact ⟨Num.inUnit_zero, by rw [Num.toRat_zero_point]; exact hm.toRat_mem.1⟩
  | part f => exact ⟨(stake_part_inUnit h).mul hm, Num.toRat_mul_le_right (stake_part_inUnit h) hm⟩

end Kelly

/-! ## The dampers -/

namespace Ledger

open Binary64 Numeric

section Generic

variable {α : Type} [Numeric α] (cfg : SizingConfig α) (l : Ledger α)

/-- The dampers a session calls for, with their factors: the drawdown guard beyond the maximum
drawdown, the losing streak beyond two losses, and a thin history, in that order. -/
theorem dampers_pairs : (l.dampers cfg).map (fun d => (d.1.damper, d.1.multiplier)) =
    (if cfg.maxDrawdown < l.drawdown then [(Damper.drawdownGuard, cfg.drawdownReduction)] else []) ++
    (if 2 < l.lossStreak then [(Damper.lossStreak, larger 0.5 ((0.9 : α) ^ (l.lossStreak - 2)))]
      else []) ++
    (if l.window.size < cfg.lookback then
      [(Damper.sampleSize, (l.window.size : α) / (cfg.lookback : α))] else []) := by
  unfold dampers
  split_ifs <;> rfl

/-- The dampers' factors, in order. -/
theorem dampers_multipliers : (l.dampers cfg).map (·.1.multiplier) =
    (if cfg.maxDrawdown < l.drawdown then [cfg.drawdownReduction] else []) ++
    (if 2 < l.lossStreak then [larger 0.5 ((0.9 : α) ^ (l.lossStreak - 2))] else []) ++
    (if l.window.size < cfg.lookback then [(l.window.size : α) / (cfg.lookback : α)] else []) := by
  unfold dampers
  split_ifs <;> rfl

/-- Damping one factor after another is folding the factors into the product from the left. -/
theorem foldl_dampers_map (ds : List (Adjustment α × Note α)) (x : α) :
    ds.foldl (fun k (a, _) => k * a.multiplier) x = (ds.map (·.1.multiplier)).foldl (· * ·) x := by
  rw [List.foldl_map]

end Generic

variable {cfg : SizingConfig Num}

/-- The losing streak's factor, a power of `0.9` floored at a half, lies in the unit interval. -/
theorem streak_inUnit (k : ℕ) : (larger (0.5 : Num) ((0.9 : Num) ^ k)).InUnit :=
  (Num.inUnit_literal (by decide)).larger ((Num.inUnit_literal (by decide)).pow k)

/-- A thin history's share of a full one is a binary64 value in the unit interval. -/
theorem history_inUnit {n d : ℕ} (hd : 0 < d) (h : n ≤ d) : ((n : Num) / (d : Num)).InUnit := by
  have hr := RoundsTo.nearest false n hd
  rw [if_neg Bool.false_ne_true] at hr
  rw [Num.natCast_div n hd]
  exact ⟨_, rfl, hr.inUnit (by positivity) ((div_le_one (by exact_mod_cast hd)).2 (by exact_mod_cast h))⟩

/-- A longer history has no smaller a share. -/
theorem history_mono {n n' d : ℕ} (hd : 0 < d) (hn : n' ≤ n) (h : n ≤ d) :
    ((n' : Num) / (d : Num)).toRat ≤ ((n : Num) / (d : Num)).toRat := by
  have hr := RoundsTo.nearest false n hd
  have hr' := RoundsTo.nearest false n' hd
  rw [if_neg Bool.false_ne_true] at hr hr'
  have hfin := history_inUnit hd h
  have hfin' := history_inUnit hd (hn.trans h)
  rw [Num.natCast_div n hd] at hfin ⊢
  rw [Num.natCast_div n' hd] at hfin' ⊢
  obtain ⟨_, hx, hux⟩ := hfin
  obtain ⟨_, hx', hux'⟩ := hfin'
  cases hx
  cases hx'
  exact toRat_le_of_roundsTo hr' hr (div_le_div_of_nonneg_right (by exact_mod_cast hn) (by positivity))
    hux'.finite hux.finite

/-- Under a checked configuration every damper's factor lies in the unit interval. -/
theorem dampers_inUnit (hc : cfg.Checked) (l : Ledger Num) :
    ∀ a ∈ (l.dampers cfg).map (·.1.multiplier), a.InUnit := by
  intro a ha
  rw [dampers_multipliers] at ha
  simp only [List.mem_append] at ha
  rcases ha with (hg | hs) | ht
  · split_ifs at hg
    · rw [List.mem_singleton.1 hg]
      exact hc.reduction.inUnit
    · cases hg
  · split_ifs at hs
    · rw [List.mem_singleton.1 hs]
      exact streak_inUnit _
    · cases hs
  · split_ifs at ht with hn
    · rw [List.mem_singleton.1 ht]
      exact history_inUnit hc.lookback_pos hn.le
    · cases ht

end Ledger

/-! ## What the rules see of a number in the unit interval -/

namespace Num

open Binary64

variable {a c : Num}

/-- A number in the unit interval lies between the whole numbers zero and one. -/
theorem InUnit.bounds (h : a.InUnit) : 0 ≤ a ∧ a ≤ 1 := by
  obtain ⟨h0, h1⟩ := h.toRat_mem
  constructor
  · rw [le_iff_toRat_le rfl h.isFinite, toRat_int_zero]
    exact h0
  · rw [le_iff_toRat_le h.isFinite rfl, toRat_int_one]
    exact h1

/-- The order of two numbers is the order of the keys of their binary64 values, neither a NaN. -/
theorem key_le_key (h : a ≤ c) : magnitude a.toFloat ≤ infMagnitude ∧
    magnitude c.toFloat ≤ infMagnitude ∧ key a.toFloat ≤ key c.toFloat := by
  have f := toFloat_le_toFloat h
  obtain ⟨ha, hc⟩ := magnitude_le_of_le f
  exact ⟨ha, hc, (le_iff_key_le ha hc).1 f⟩

/-- A number whose binary64 value has a key between those of zero and one is finite, with a
binary64 value in the unit interval. -/
theorem inUnit_of_keys (hm : magnitude a.toFloat ≤ infMagnitude) (k0 : 0 ≤ key a.toFloat)
    (k1 : key a.toFloat ≤ key (nearest false 10 10)) :
    a.isFinite = true ∧ Binary64.InUnit a.toFloat := by
  rw [← key_zero] at k0
  obtain ⟨b, hb⟩ := finite_of_key_le_key hm classify_zero classify_one k0 k1
  refine ⟨?_, b, hb, ?_, ?_⟩
  · cases a with
    | int n => rfl
    | float x => exact isFinite_float.2 ⟨b, hb⟩
  · rw [← value_zero]
    exact (key_le_iff_value_le classify_zero hb).1 k0
  · rw [← value_one]
    exact (key_le_iff_value_le hb classify_one).1 k1

/-- **Two numbers with `0 ≤ a ≤ c ≤ 1` are finite, with ordered binary64 values in the unit
interval**: rounding to binary64 keeps the chain, and a value between `0.0` and `1.0` is finite. -/
theorem chain_inUnit (h0 : 0 ≤ a) (hac : a ≤ c) (h1 : c ≤ 1) :
    a.isFinite = true ∧ c.isFinite = true ∧ Binary64.InUnit a.toFloat ∧
      Binary64.InUnit c.toFloat ∧ Binary64.toRat a.toFloat ≤ Binary64.toRat c.toFloat := by
  obtain ⟨-, hma, k0⟩ := key_le_key h0
  obtain ⟨-, hmc, kac⟩ := key_le_key hac
  obtain ⟨-, -, k1⟩ := key_le_key h1
  -- zero and one are `0.0` and `1.0` in binary64
  have e0 : (0 : Num).toFloat = nearest false 0 10 := rfl
  have e1 : (1 : Num).toFloat = nearest false 10 10 := rfl
  rw [e0, key_zero] at k0
  rw [e1] at k1
  obtain ⟨fa, ua⟩ := inUnit_of_keys hma k0 (kac.trans k1)
  obtain ⟨fc, uc⟩ := inUnit_of_keys hmc (k0.trans kac) k1
  refine ⟨fa, fc, ua, uc, ?_⟩
  obtain ⟨ba, hba, -⟩ := ua
  obtain ⟨bc, hbc, -⟩ := uc
  rw [toRat_of_classify hba, toRat_of_classify hbc]
  exact (key_le_iff_value_le hba hbc).1 kac

end Num

/-! ## The ledgers a session reaches -/

/-- A finite binary64 value, as a number. -/
def Num.FiniteFloat (a : Num) : Prop := ∃ x b, a = .float x ∧ Binary64.classify x = .finite b

namespace Ledger

open Binary64

/-- An effect that books only finite binary64 numbers, as a session's calls do. -/
def Effect.Finite : Effect Num → Prop
  | .record _ pnl _ => pnl.FiniteFloat
  | .setBankroll b => b.FiniteFloat
  | .reset => True
  | .keep => True

/-- What every ledger of a session keeps: a finite initial bankroll, a bankroll that is a binary64
value but not a NaN, and a drawdown in the unit interval. -/
structure Sound (l : Ledger Num) : Prop where
  initial : l.initial.FiniteFloat
  bankroll : ∃ x, l.bankroll = .float x ∧ magnitude x ≤ infMagnitude
  drawdown : l.drawdown.InUnit

theorem sound_start {i : Num} (hi : i.FiniteFloat) (n : ℕ) : (start i n).Sound := by
  obtain ⟨x, b, rfl, hb⟩ := hi
  exact ⟨⟨x, b, rfl, hb⟩, ⟨x, rfl, magnitude_le_of_classify hb⟩, Num.inUnit_zero⟩

/-- A drawdown refreshed from a peak and a bankroll lies in the unit interval, whatever they are:
it is a quotient, a binary64 value, held to `[0, 1]`. -/
theorem drawdown_inUnit (peak b : Num) :
    (Numeric.clamp (0.0 : Num) 1.0 ((peak - b) / peak)).InUnit := by
  obtain ⟨w, hw⟩ := Num.div_float (peak - b) peak
  rw [hw]
  exact Num.inUnit_clamp_unit w

/-- **Each effect that books finite numbers keeps a ledger sound.** A finite profit or loss added
to a bankroll that is not a NaN leaves one that is not (an infinity stays itself), a new bankroll
is finite, and every drawdown is recomputed into the unit interval. -/
theorem Sound.after {l : Ledger Num} (hl : l.Sound) {e : Effect Num} (he : e.Finite) :
    (l.after e).Sound := by
  cases e with
  | record won pnl category =>
    obtain ⟨x, b, rfl, hb⟩ := he
    obtain ⟨hi, hB, -, hd⟩ := record_balance l won (.float x) category
    obtain ⟨y, hy, hmy⟩ := hl.bankroll
    refine ⟨?_, ⟨y + x, ?_, magnitude_add_le hmy hb⟩, ?_⟩
    · rw [Ledger.after, hi]
      exact hl.initial
    · rw [Ledger.after, hB, bookTrade_bankroll, hy]
      rfl
    · rw [Ledger.after, hd, bookTrade_drawdown]
      exact drawdown_inUnit _ _
  | setBankroll v =>
    obtain ⟨x, b, rfl, hb⟩ := he
    exact ⟨hl.initial, ⟨x, rfl, magnitude_le_of_classify hb⟩, drawdown_inUnit _ _⟩
  | reset => exact sound_start hl.initial _
  | keep => exact hl

theorem Sound.run {l : Ledger Num} (hl : l.Sound) {es : List (Effect Num)}
    (hes : ∀ e ∈ es, e.Finite) : (l.run es).Sound := by
  induction es generalizing l with
  | nil => exact hl
  | cons e es ih =>
    exact ih (hl.after (hes e (List.mem_cons_self ..))) fun e' he' =>
      hes e' (List.mem_cons_of_mem _ he')

end Ledger

namespace Sizer

/-- An input read as a finite number is a finite binary64 value. -/
theorem finiteValue?_finite {v : Value} {x : Float} (h : finiteValue? v = .ok (some x)) :
    ∃ b, Binary64.classify x = .finite b := by
  unfold finiteValue? at h
  split at h
  · next y _ =>
    by_cases hf : (Num.float y).isFinite = true
    · rw [if_pos hf] at h
      cases h
      exact Num.isFinite_float.1 hf
    · rw [if_neg hf] at h
      cases h
  · cases h
  · cases h

/-- The calls of a session book only finite binary64 numbers. -/
theorem Call.effect_finite (c : Call) : c.effect.Finite := by
  cases c with
  | recordTrade outcome pnl category =>
    simp only [Call.effect]
    split
    · next x _ hx =>
      obtain ⟨b, hb⟩ := finiteValue?_finite hx
      exact ⟨x, b, rfl, hb⟩
    · trivial
  | updateBankroll v =>
    simp only [Call.effect]
    split
    · next x hx =>
      obtain ⟨b, hb⟩ := finiteValue?_finite hx
      exact ⟨x, b, rfl, hb⟩
    · trivial
  | calculate => trivial
  | categoryKelly => trivial
  | reset => trivial
  | getState => trivial

/-- A session is created over a finite binary64 bankroll. -/
theorem create_sound {cfg : SizingConfig Num} {initial : Value} {s : Sizer}
    (hs : create cfg initial = .ok s) : s.config = cfg ∧ s.ledger.Sound := by
  unfold create at hs
  rcases hv : finiteValue? initial with f | _ | x <;>
    simp only [hv, Except.mapError, bind, Except.bind] at hs
  · cases hs
  · cases hs
  · split_ifs at hs
    cases hs
    obtain ⟨b, hb⟩ := finiteValue?_finite hv
    exact ⟨rfl, Ledger.sound_start ⟨x, b, rfl, hb⟩ _⟩

/-- **Every ledger a session reaches is sound**, under the configuration it was created with. -/
theorem run_sound {cfg : SizingConfig Num} {initial : Value} {s : Sizer}
    (hs : create cfg initial = .ok s) (cs : List Call) :
    (s.run cs).config = cfg ∧ (s.run cs).ledger.Sound := by
  obtain ⟨hcfg, hl⟩ := create_sound hs
  obtain ⟨hrl, hrc⟩ := run_ledger s cs
  refine ⟨hrc.trans hcfg, ?_⟩
  rw [hrl]
  exact hl.run fun e he => by
    obtain ⟨c, -, rfl⟩ := List.mem_map.1 he
    exact c.effect_finite

end Sizer

/-! ## The recommendation -/

namespace Num

open Binary64

/-- A number in the unit interval times one less a drawdown of zero is itself: one less a zero is
one, and multiplying by one is exact. -/
theorem mul_one_point_sub {c d : Num} (hc : c.InUnit) (hd : d.InUnit) (h : ¬ 0 < d) :
    c * (1.0 - d) = c := by
  have hd0 : d.toRat = 0 := by
    rw [lt_iff_toRat_lt rfl hd.isFinite, toRat_int_zero] at h
    exact le_antisymm (not_lt.1 h) hd.toRat_mem.1
  obtain ⟨x, rfl, hx⟩ := hc
  obtain ⟨y, rfl, hy⟩ := hd
  obtain ⟨b, hb⟩ := hx.finite
  rw [one_point_sub]
  show Num.float (x * (nearest false 10 10 - y)) = _
  rw [one_sub_of_toRat_eq_zero hy hd0, mul_one_point hb]

end Num

namespace Ledger

open Binary64 Numeric

section Generic

variable {α : Type} [Numeric α] (cfg : SizingConfig α) (l : Ledger α) (e p : α) (notes : List (Note α))

/-- The factors a recommendation lists are the dampers'. -/
theorem size_multipliers :
    (l.size cfg e p notes).adjustments.map (·.multiplier) = (l.dampers cfg).map (·.1.multiplier) := by
  simp only [size, List.map_map]
  rfl

/-- The recommended fraction is the base damped factor by factor, from the left, held to the
band. -/
theorem size_kelly_foldl : (l.size cfg e p notes).kelly = larger cfg.minKelly (smaller cfg.maxKelly
    (((l.size cfg e p notes).adjustments.map (·.multiplier)).foldl (· * ·) (l.size cfg e p notes).base)) := by
  rw [size_multipliers, ← foldl_dampers_map]
  rfl

/-- The confidence is the product of the factors from one, held to `[0, 1]`, and scaled by one
less a positive drawdown. -/
theorem size_confidence_foldl : (l.size cfg e p notes).confidence =
    let damped := clamp 0.0 1.0 (((l.size cfg e p notes).adjustments.map (·.multiplier)).foldl (· * ·) 1.0)
    if zero < l.drawdown then damped * ((1.0 : α) - l.drawdown) else damped := by
  rw [size_multipliers, ← foldl_dampers_map]
  rfl

end Generic

variable {cfg : SizingConfig Num} (hc : cfg.Checked) (e p : Num) (notes : List (Note Num))
include hc

/-- The base fraction is a binary64 value between nothing and the base multiplier. -/
theorem size_base_binary64 (l : Ledger Num) :
    (l.size cfg e p notes).base.InUnit ∧ 0 ≤ (l.size cfg e p notes).base ∧
      (l.size cfg e p notes).base ≤ cfg.baseMultiplier := by
  obtain ⟨hu, hle⟩ := Kelly.fraction_inUnit hc.base.inUnit e p
  exact ⟨hu, hu.bounds.1, (Num.le_iff_toRat_le hu.isFinite hc.base.isFinite).2 hle⟩

/-- The factors a recommendation lists lie in the unit interval, and so does their product. -/
theorem size_factors_binary64 (l : Ledger Num) :
    (∀ a ∈ (l.size cfg e p notes).adjustments.map (·.multiplier), a.InUnit) ∧
      (((l.size cfg e p notes).adjustments.map (·.multiplier)).foldl (· * ·) (1.0 : Num)).InUnit := by
  rw [size_multipliers]
  exact ⟨dampers_inUnit hc l, Num.foldl_mul_inUnit Num.inUnit_one (dampers_inUnit hc l)⟩

/-- The recommended fraction is a binary64 value in the band `[minKelly, maxKelly]`: the damped
base is one in the unit interval, and the band's ends are finite. -/
theorem size_kelly_binary64 (l : Ledger Num) :
    (l.size cfg e p notes).kelly.InUnit ∧ cfg.minKelly ≤ (l.size cfg e p notes).kelly ∧
      (l.size cfg e p notes).kelly ≤ cfg.maxKelly := by
  have hfold := Num.foldl_mul_inUnit (size_base_binary64 hc e p notes l).1
    (size_factors_binary64 hc e p notes l).1
  obtain ⟨x, hx, -⟩ := hfold
  have hlo := hc.minKelly.isFinite
  have hhi := hc.maxKelly.isFinite
  obtain ⟨hfin, h₁, h₂⟩ := Num.clamp_mem hlo hhi hc.band (.float x)
  rw [size_kelly_foldl, hx]
  exact ⟨Num.InUnit.clamp hc.minKelly.inUnit hc.maxKelly.inUnit hc.band x,
    (Num.le_iff_toRat_le hlo hfin).2 h₁, (Num.le_iff_toRat_le hfin hhi).2 h₂⟩

omit hc in
/-- With a bankroll that is not a NaN, the position is the fraction of a positive bankroll, and
nothing otherwise. -/
theorem size_position_binary64 {l : Ledger Num}
    (hB : Binary64.magnitude l.bankroll.toFloat ≤ infMagnitude) :
    (l.size cfg e p notes).position =
      if 0 < l.bankroll then (l.size cfg e p notes).kelly * l.bankroll else 0.0 := by
  by_cases h : (0 : Num) < l.bankroll
  · have h' : ¬ l.bankroll ≤ zero := (Num.zero_lt_iff_not_le hB).1 h
    simp only [size, if_pos h, if_neg h']
  · have h' : l.bankroll ≤ zero := not_not.1 fun h'' => h ((Num.zero_lt_iff_not_le hB).2 h'')
    simp only [size, if_neg h, if_pos h']

/-- With a drawdown in the unit interval, the confidence is the product of the factors held to
`[0, 1]` times one less the drawdown, and lies in the unit interval. -/
theorem size_confidence_binary64 {l : Ledger Num} (hd : l.drawdown.InUnit) :
    (l.size cfg e p notes).confidence =
      clamp 0.0 1.0 (((l.size cfg e p notes).adjustments.map (·.multiplier)).foldl (· * ·) (1.0 : Num)) *
        (1.0 - l.drawdown) ∧ (l.size cfg e p notes).confidence.InUnit := by
  obtain ⟨x, hx, -⟩ := (size_factors_binary64 hc e p notes l).2
  have hdamped := Num.inUnit_clamp_unit x
  rw [size_confidence_foldl, hx]
  by_cases h : zero < l.drawdown
  · rw [if_pos h]
    refine ⟨rfl, hdamped.mul ?_⟩
    obtain ⟨y, hy, huy⟩ := hd
    rw [hy, Num.one_point_sub]
    exact ⟨_, rfl, huy.one_sub⟩
  · rw [if_neg h]
    exact ⟨(Num.mul_one_point_sub hdamped hd h).symm, hdamped⟩

/-! ## A session in more distress -/

/-- **The dampers of a session in more distress damp at least as much**: a drawdown as deep crosses
the limit if the other does, a losing streak as long is beyond two if the other is, and a history
as short is thin if the other is; the guard's factor is the same, the streak's and the history's
are no larger. -/
theorem dampers_below {l l' : Ledger Num} (hdf : l.drawdown.isFinite = true)
    (hdf' : l'.drawdown.isFinite = true) (hd : l.drawdown ≤ l'.drawdown)
    (hk : l.lossStreak ≤ l'.lossStreak) (hn : l'.window.size ≤ l.window.size) :
    Num.FactorsBelow ((l'.dampers cfg).map (·.1.multiplier)) ((l.dampers cfg).map (·.1.multiplier)) := by
  have hdd := (Num.le_iff_toRat_le hdf hdf').1 hd
  have hmax := hc.maxDrawdown.isFinite
  rw [dampers_multipliers, dampers_multipliers]
  refine ((Num.FactorsBelow.ite ?_ (fun _ => hc.reduction.inUnit) (fun _ => hc.reduction.inUnit)
    (fun _ => le_rfl)).append (Num.FactorsBelow.ite (by omega) (fun _ => streak_inUnit _)
    (fun _ => streak_inUnit _) ?_)).append (Num.FactorsBelow.ite (by omega)
    (fun h => history_inUnit hc.lookback_pos h.le) (fun h => history_inUnit hc.lookback_pos h.le)
    (fun h => history_mono hc.lookback_pos hn h.le))
  · intro h
    rw [Num.lt_iff_toRat_lt hmax hdf'] 
    exact ((Num.lt_iff_toRat_lt hmax hdf).1 h).trans_le hdd
  · -- the floor of a half keeps the order of the powers of `0.9`
    intro _
    have h5 : (0.5 : Num).isFinite = true := (Num.inUnit_literal (by decide)).isFinite
    have h9 := Num.inUnit_literal (m := 9) (e := 1) (by decide)
    rw [Num.toRat_larger h5 (h9.pow _).isFinite, Num.toRat_larger h5 (h9.pow _).isFinite]
    exact max_le_max le_rfl (Num.toRat_pow_anti h9 (by omega))

/-- Two recommended fractions are ordered as the damped bases the band holds: the band's ends are
finite, and the damped bases binary64 values of the unit interval. -/
theorem size_kelly_le_of_damped {l l' : Ledger Num} {e' p' : Num} {notes' : List (Note Num)}
    (h : (((l.dampers cfg).map (·.1.multiplier)).foldl (· * ·) (l.size cfg e p notes).base).toRat ≤
      (((l'.dampers cfg).map (·.1.multiplier)).foldl (· * ·) (l'.size cfg e' p' notes').base).toRat) :
    (l.size cfg e p notes).kelly ≤ (l'.size cfg e' p' notes').kelly := by
  have hu := Num.foldl_mul_inUnit (size_base_binary64 hc e p notes l).1 (dampers_inUnit hc l)
  have hu' := Num.foldl_mul_inUnit (size_base_binary64 hc e' p' notes' l').1 (dampers_inUnit hc l')
  have hlo := hc.minKelly.isFinite
  have hhi := hc.maxKelly.isFinite
  rw [Num.le_iff_toRat_le (size_kelly_binary64 hc e p notes l).1.isFinite
    (size_kelly_binary64 hc e' p' notes' l').1.isFinite, size_kelly_foldl, size_kelly_foldl,
    size_multipliers, size_multipliers]
  show (clamp cfg.minKelly cfg.maxKelly _).toRat ≤ (clamp cfg.minKelly cfg.maxKelly _).toRat
  rw [Num.toRat_clamp hlo hhi hu.isFinite, Num.toRat_clamp hlo hhi hu'.isFinite]
  exact max_le_max le_rfl (min_le_min_left _ h)

/-- A session in more distress never gets a larger fraction: the base is the same, damped at least
as much, and held to the same band. -/
theorem size_kelly_anti_binary64 {l l' : Ledger Num} (hdf : l.drawdown.isFinite = true)
    (hdf' : l'.drawdown.isFinite = true) (hd : l.drawdown ≤ l'.drawdown)
    (hk : l.lossStreak ≤ l'.lossStreak) (hn : l'.window.size ≤ l.window.size) :
    (l'.size cfg e p notes).kelly ≤ (l.size cfg e p notes).kelly := by
  have hbase := (size_base_binary64 hc e p notes l).1
  exact size_kelly_le_of_damped hc e p notes
    ((dampers_below hc hdf hdf' hd hk hn).foldl_le hbase hbase le_rfl)

/-- A session in more distress never gets a larger confidence: the damped product is no larger,
and neither is one less the drawdown when it is positive. -/
theorem size_confidence_anti_binary64 {l l' : Ledger Num} (hd0 : 0 ≤ l.drawdown)
    (hd : l.drawdown ≤ l'.drawdown) (hd1 : l'.drawdown ≤ 1) (hk : l.lossStreak ≤ l'.lossStreak)
    (hn : l'.window.size ≤ l.window.size) :
    (l'.size cfg e p notes).confidence ≤ (l.size cfg e p notes).confidence := by
  obtain ⟨hdf, hdf', hud, hud', hdd⟩ := Num.chain_inUnit hd0 hd hd1
  have hfold := (dampers_below hc hdf hdf' hd hk hn).foldl_le Num.inUnit_one Num.inUnit_one le_rfl
  obtain ⟨x, hx, hux⟩ := Num.foldl_mul_inUnit Num.inUnit_one (dampers_inUnit hc l)
  obtain ⟨x', hx', hux'⟩ := Num.foldl_mul_inUnit Num.inUnit_one (dampers_inUnit hc l')
  rw [hx, hx'] at hfold
  -- the damped products held to `[0, 1]`, and one less each drawdown
  have hD := Num.inUnit_clamp_unit x
  have hD' := Num.inUnit_clamp_unit x'
  have hDD : (clamp (0.0 : Num) 1.0 (.float x')).toRat ≤ (clamp (0.0 : Num) 1.0 (.float x)).toRat := by
    have h0 := Num.inUnit_zero.isFinite
    have h1 := Num.inUnit_one.isFinite
    rw [Num.toRat_clamp h0 h1 (Num.isFinite_float.2 hux'.finite),
      Num.toRat_clamp h0 h1 (Num.isFinite_float.2 hux.finite)]
    exact max_le_max le_rfl (min_le_min_left _ hfold)
  have hS : ((1.0 : Num) - l.drawdown).InUnit := by
    rw [Num.one_point_sub]
    exact ⟨_, rfl, hud.one_sub⟩
  have hS' : ((1.0 : Num) - l'.drawdown).InUnit := by
    rw [Num.one_point_sub]
    exact ⟨_, rfl, hud'.one_sub⟩
  have hSS : ((1.0 : Num) - l'.drawdown).toRat ≤ ((1.0 : Num) - l.drawdown).toRat := by
    rw [Num.one_point_sub, Num.one_point_sub]
    exact toRat_one_sub_anti hud hud' hdd
  rw [size_confidence_foldl, size_confidence_foldl, size_multipliers, size_multipliers, hx, hx']
  -- compare by the sign of each drawdown; the deeper one is positive if the other is
  by_cases h : zero < l.drawdown
  · have h' : zero < l'.drawdown := (Num.lt_iff_toRat_lt rfl hdf').2
      (((Num.lt_iff_toRat_lt rfl hdf).1 h).trans_le ((Num.le_iff_toRat_le hdf hdf').1 hd))
    rw [if_pos h, if_pos h', Num.le_iff_toRat_le (hD'.mul hS').isFinite (hD.mul hS).isFinite]
    exact Num.toRat_mul_le_mul hD' hD hS' hS hDD hSS
  · rw [if_neg h]
    by_cases h' : zero < l'.drawdown
    · rw [if_pos h', Num.le_iff_toRat_le (hD'.mul hS').isFinite hD.isFinite]
      exact (Num.toRat_mul_le_left hD' hS').trans hDD
    · rw [if_neg h', Num.le_iff_toRat_le hD'.isFinite hD.isFinite]
      exact hDD

omit hc in
/-- The position as the rules compute it: nothing at a bankroll at most zero, the fraction of it
otherwise. -/
theorem size_position_eq {α : Type} [Numeric α] (cfg : SizingConfig α) (l : Ledger α) (e p : α)
    (notes : List (Note α)) : (l.size cfg e p notes).position =
      if l.bankroll ≤ zero then 0.0 else (l.size cfg e p notes).kelly * l.bankroll := rfl

/-- A smaller fraction of a smaller bankroll is a smaller position. The fractions are positive
binary64 values, at least the band's floor, and the bankrolls are not NaNs since they compare:
so the position is nothing at a bankroll at most zero, and a rounded product that grows with both
factors otherwise. -/
theorem size_position_le_binary64 {l l' : Ledger Num} {e' p' : Num} {notes' : List (Note Num)}
    (hkelly : (l'.size cfg e' p' notes').kelly ≤ (l.size cfg e p notes).kelly)
    (hB : l'.bankroll ≤ l.bankroll) :
    (l'.size cfg e' p' notes').position ≤ (l.size cfg e p notes).position := by
  obtain ⟨hk', hlo', -⟩ := size_kelly_binary64 hc e' p' notes' l'
  have hk := (size_kelly_binary64 hc e p notes l).1
  have hpos := hc.minKelly.toRat_pos.trans_le
    ((Num.le_iff_toRat_le hc.minKelly.isFinite hk'.isFinite).1 hlo')
  have hkk := (Num.le_iff_toRat_le hk'.isFinite hk.isFinite).1 hkelly
  obtain ⟨hmB', hmB, hkB⟩ := Num.key_le_key hB
  rw [size_position_eq, size_position_eq]
  obtain ⟨y', hy', hu'⟩ := hk'
  obtain ⟨y, hy, hu⟩ := hk
  obtain ⟨b', hb'⟩ := hu'.finite
  obtain ⟨b, hb⟩ := hu.finite
  rw [hy', Num.toRat_float hb'] at hpos hkk
  rw [hy, Num.toRat_float hb] at hkk
  rw [hy, hy']
  by_cases hb0 : l.bankroll ≤ zero
  · -- no position at either bankroll
    have hb0' : l'.bankroll ≤ zero := (Num.le_zero_iff hmB').2 (hkB.trans ((Num.le_zero_iff hmB).1 hb0))
    rw [if_pos hb0, if_pos hb0']
    decide
  · have hkey : 0 < key l.bankroll.toFloat :=
      (Num.zero_lt_iff hmB).1 ((Num.zero_lt_iff_not_le hmB).2 hb0)
    rw [if_neg hb0, Num.float_mul]
    by_cases hb0' : l'.bankroll ≤ zero
    · rw [if_pos hb0']
      exact Num.float_le_float (zero_le_mul_of_pos hb (hpos.trans_le hkk) hmB hkey)
    · have hkey' : 0 < key l'.bankroll.toFloat :=
        (Num.zero_lt_iff hmB').1 ((Num.zero_lt_iff_not_le hmB').2 hb0')
      rw [if_neg hb0', Num.float_mul]
      exact Num.float_le_float (mul_le_mul_of_pos hb' hb hpos hkk hkey' (Num.toFloat_le_toFloat hB))

end Ledger

namespace Sizer

/-- A recommendation the session gives is the ledger's for the sanitised inputs. -/
theorem calculate_eq_size {s : Sizer} {edge p : Value} {r : Sizing Num}
    (h : s.calculate edge p = .ok r) :
    ∃ e q notes, sanitize edge p = .ok (e, q, notes) ∧ r = s.ledger.size s.config e q notes := by
  unfold calculate at h
  rcases hs : sanitize edge p with f | ⟨e, q, notes⟩ <;>
    simp only [hs, bind, Except.bind, pure, Except.pure] at h
  · cases h
  · cases h
    exact ⟨e, q, notes, rfl, rfl⟩

end Sizer

end TradeDesk
