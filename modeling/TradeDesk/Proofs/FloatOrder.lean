import Mathlib
import TradeDesk.Binary64

/-!
# The order of binary64 values, read from their bits

A `Float` is a word of 64 bits: a sign bit, eleven exponent bits and fifty-two fraction bits. Below
the sign bit, the bits of the values that are not NaN run from `0` (a zero) to `infMagnitude` (an
infinity), and the finite values between them are the canonical significands `m * 2^e` at their
`index`, so that a larger magnitude is a larger value. IEEE 754 compares two values that are not
NaN by their signs and then their magnitudes, with the two zeros equal; that is the order of their
`key`, the magnitude negated when the sign bit is set (`compare_unpack`). The comparisons of
`Float` are therefore comparisons of integers (`le_iff_key_le`, `lt_iff_key_lt`, `beq_iff_key_eq`).

Going the other way, packing a canonical significand with a sign gives the bits of its index,
capped at the infinities' (`pack_finite_toNat`). The library's own reading of the bits as an exact
number (`classify`) finds the same canonical significand (`classify_eq_finite`).
-/

namespace TradeDesk.Binary64

open Float.Model Float.Model.UnpackedFloat

/-! ## The fields of the bits -/

theorem unpackMantissa_toNat (b : BitVec 64) :
    (@unpackMantissa Format.binary64 b).toNat = b.toNat % 2 ^ 52 := by
  simp [unpackMantissa, BitVec.extractLsb_toNat]

theorem unpackExponent_toNat (b : BitVec 64) :
    (@unpackExponent Format.binary64 b).toNat = b.toNat / 2 ^ 52 % 2 ^ 11 := by
  simp [unpackExponent, BitVec.extractLsb_toNat, Nat.shiftRight_eq_div_pow]

theorem unpackSign_toNat (b : BitVec 64) :
    (@unpackSign Format.binary64 b).toNat = b.toNat / 2 ^ 63 := by
  simp [unpackSign, BitVec.extractLsb_toNat, Nat.shiftRight_eq_div_pow]
  have := b.isLt
  omega

theorem packComponents_toNat (s : Sign) (E : BitVec 11) (M : BitVec 52) :
    (packComponents Format.binary64 s E M).toNat =
      s.toBitVec.toNat * 2 ^ 63 + E.toNat * 2 ^ 52 + M.toNat := by
  have hE := E.isLt
  have hM := M.isLt
  simp only [packComponents, BitVec.toNat_append]
  rw [← Nat.shiftLeft_add_eq_or_of_lt hM, ← Nat.shiftLeft_add_eq_or_of_lt hE]
  simp only [Nat.shiftLeft_eq]
  ring

/-- The sign the top bit of a word gives. -/
def signOfBits (n : ℕ) : Sign := if n < 2 ^ 63 then .positive else .negative

/-- The sign of a value's bits. -/
def sign (x : Float) : Sign := signOfBits x.toBits.toNat

/-- The bits of a value below the sign bit. -/
def magnitude (x : Float) : ℕ := x.toBits.toNat % 2 ^ 63

/-- The magnitude of the infinities: every exponent bit set and no fraction bit. A larger
magnitude is a NaN. -/
def infMagnitude : ℕ := 2047 * 2 ^ 52

/-- The order of values that are not NaN: the magnitude, negated when the sign bit is set. Both
zeros have key `0`, and the infinities have the extreme keys. -/
def key (x : Float) : ℤ := if signBit x then -(magnitude x : ℤ) else magnitude x

theorem signBit_iff (x : Float) : signBit x = true ↔ 2 ^ 63 ≤ x.toBits.toNat := by
  have hlt : x.toBits.toNat < 2 ^ 64 := x.toBits.toNat_lt
  simp only [signBit, Nat.pow_eq, beq_iff_eq]
  omega

theorem sign_eq (x : Float) : sign x = if signBit x then .negative else .positive := by
  unfold sign signOfBits
  by_cases h : x.toBits.toNat < 2 ^ 63
  · rw [if_pos h, if_neg (by rw [signBit_iff]; omega)]
  · rw [if_neg h, if_pos (by rw [signBit_iff]; omega)]

/-- Two values with the same bits are the same value. -/
theorem ext_toBits {x y : Float} (h : x.toBits = y.toBits) : x = y := by
  obtain ⟨⟨bx, hx⟩⟩ := x
  obtain ⟨⟨by', hy⟩⟩ := y
  cases h
  rfl

theorem sign_unpackSign (b : BitVec 64) :
    Sign.ofBitVec (@unpackSign Format.binary64 b) = signOfBits b.toNat := by
  have h := unpackSign_toNat b
  have hlt := b.isLt
  unfold signOfBits Sign.ofBitVec
  by_cases h0 : b.toNat < 2 ^ 63
  · have : @unpackSign Format.binary64 b = 0#1 := by
      apply BitVec.eq_of_toNat_eq
      rw [h]
      simp
      omega
    rw [if_pos this, if_pos h0]
  · have : @unpackSign Format.binary64 b ≠ 0#1 := by
      intro h'
      rw [h'] at h
      simp at h
      omega
    rw [if_neg this, if_neg h0]

theorem exponent_field (b : BitVec 64) :
    (@unpackExponent Format.binary64 b).toNat = b.toNat % 2 ^ 63 / 2 ^ 52 := by
  rw [unpackExponent_toNat]
  have := b.isLt
  omega

theorem fraction_field (b : BitVec 64) :
    (@unpackMantissa Format.binary64 b).toNat = b.toNat % 2 ^ 63 % 2 ^ 52 := by
  rw [unpackMantissa_toNat]
  omega

/-! ## Canonical significands and their place among the magnitudes -/

/-- A significand and exponent in binary64's canonical form: the significand is below `2^53`,
the exponent is at least `-1074`, and the significand is normal (at least `2^52`) unless the
exponent is that least one. -/
structure Canonical (m : ℕ) (e : ℤ) : Prop where
  lt : m < 2 ^ 53
  exp_ge : -1074 ≤ e
  normal : 2 ^ 52 ≤ m ∨ e = -1074

/-- The magnitude bits of `m * 2^e` in canonical form: the biased exponent above the fraction,
with the hidden bit of a normal significand carried into the exponent. -/
def index (m : ℕ) (e : ℤ) : ℕ := (e + 1074).toNat * 2 ^ 52 + m

/-- Comparing two canonical forms by exponent and then by significand compares their indices. -/
theorem Canonical.compare_then {m₁ m₂ : ℕ} {e₁ e₂ : ℤ} (h₁ : Canonical m₁ e₁)
    (h₂ : Canonical m₂ e₂) :
    (compare e₁ e₂).then (compare m₁ m₂) = compare (index m₁ e₁) (index m₂ e₂) := by
  obtain ⟨hm₁, he₁, hn₁⟩ := h₁
  obtain ⟨hm₂, he₂, hn₂⟩ := h₂
  unfold index
  rcases lt_trichotomy e₁ e₂ with h | rfl | h
  · rw [compare_lt_iff_lt.2 h, Ordering.lt_then, eq_comm, compare_lt_iff_lt]
    omega
  · rw [compare_eq_iff_eq.2 rfl, Ordering.eq_then]
    rcases lt_trichotomy m₁ m₂ with h | rfl | h
    · rw [compare_lt_iff_lt.2 h, eq_comm, compare_lt_iff_lt]
      omega
    · simp
    · rw [compare_gt_iff_gt.2 h, eq_comm, compare_gt_iff_gt]
      omega
  · rw [compare_gt_iff_gt.2 h, Ordering.gt_then, eq_comm, compare_gt_iff_gt]
    omega

/-! ## Unpacking the bits -/

theorem unpack_of_magnitude_eq_zero (b : BitVec 64) (h : b.toNat % 2 ^ 63 = 0) :
    unpack Format.binary64 b = .zero (signOfBits b.toNat) := by
  have hE := exponent_field b
  have hF := fraction_field b
  unfold UnpackedFloat.unpack
  dsimp only
  rw [sign_unpackSign]
  have h1 : @unpackExponent Format.binary64 b ≠ -1#_ := by
    intro h'
    rw [h'] at hE
    simp at hE
    omega
  have h2 : @unpackExponent Format.binary64 b = 0#_ := by
    apply BitVec.eq_of_toNat_eq
    rw [hE]
    simp
    omega
  have h3 : @unpackMantissa Format.binary64 b = 0#_ := by
    apply BitVec.eq_of_toNat_eq
    rw [hF]
    simp
    omega
  rw [if_neg h1, if_pos h2, dif_pos h3]

theorem unpack_of_magnitude_eq_inf (b : BitVec 64) (h : b.toNat % 2 ^ 63 = infMagnitude) :
    unpack Format.binary64 b = .infinity (signOfBits b.toNat) := by
  have hE := exponent_field b
  have hF := fraction_field b
  unfold infMagnitude at h
  unfold UnpackedFloat.unpack
  dsimp only
  rw [sign_unpackSign]
  have h1 : @unpackExponent Format.binary64 b = -1#_ := by
    apply BitVec.eq_of_toNat_eq
    rw [hE]
    simp
    omega
  have h3 : @unpackMantissa Format.binary64 b = 0#_ := by
    apply BitVec.eq_of_toNat_eq
    rw [hF]
    simp
    omega
  rw [if_pos h1, if_pos h3]

/-- Every magnitude above the infinities' is a NaN. -/
theorem unpack_of_inf_lt (b : BitVec 64) (h : infMagnitude < b.toNat % 2 ^ 63) :
    unpack Format.binary64 b = .notANumber := by
  have hE := exponent_field b
  have hF := fraction_field b
  have hlt : b.toNat % 2 ^ 63 < 2 ^ 63 := Nat.mod_lt _ (by decide)
  unfold infMagnitude at h
  unfold UnpackedFloat.unpack
  dsimp only
  have h1 : @unpackExponent Format.binary64 b = -1#_ := by
    apply BitVec.eq_of_toNat_eq
    rw [hE]
    simp
    omega
  have h3 : @unpackMantissa Format.binary64 b ≠ 0#_ := by
    intro h'
    rw [h'] at hF
    simp at hF
    omega
  rw [if_pos h1, if_neg h3]

/-- A magnitude strictly between the zeros' and the infinities' unpacks to the canonical
significand whose index it is. -/
theorem unpack_of_lt_inf (b : BitVec 64) (h0 : b.toNat % 2 ^ 63 ≠ 0)
    (h : b.toNat % 2 ^ 63 < infMagnitude) :
    ∃ m e hm, unpack Format.binary64 b = .finite (signOfBits b.toNat) m e hm ∧ Canonical m e ∧
      index m e = b.toNat % 2 ^ 63 := by
  have hE := exponent_field b
  have hF := fraction_field b
  unfold infMagnitude at h
  unfold UnpackedFloat.unpack
  dsimp only
  rw [sign_unpackSign]
  have h1 : @unpackExponent Format.binary64 b ≠ -1#_ := by
    intro h'
    rw [h'] at hE
    simp at hE
    omega
  rw [if_neg h1]
  by_cases h2 : @unpackExponent Format.binary64 b = 0#_
  · -- a subnormal value: the fraction is the significand, at the least exponent
    have hz : b.toNat % 2 ^ 63 < 2 ^ 52 := by
      rw [h2] at hE
      simp at hE
      omega
    have h3 : @unpackMantissa Format.binary64 b ≠ 0#_ := by
      intro h'
      rw [h'] at hF
      simp at hF
      omega
    rw [if_pos h2, dif_neg h3]
    refine ⟨_, _, ?_, rfl, ⟨?_, ?_, ?_⟩, ?_⟩ <;> simp [hF, hE, Format.exponentBias, index] <;>
      omega
  · -- a normal value: the hidden bit joins the fraction
    have hz : 2 ^ 52 ≤ b.toNat % 2 ^ 63 := by
      by_contra hc
      apply h2
      apply BitVec.eq_of_toNat_eq
      rw [hE]
      simp
      omega
    rw [if_neg h2]
    have hm : (1#1 ++ @unpackMantissa Format.binary64 b).toNat =
        2 ^ 52 + b.toNat % 2 ^ 63 % 2 ^ 52 := by
      rw [BitVec.toNat_append, ← hF, ← Nat.shiftLeft_add_eq_or_of_lt (BitVec.isLt _)]
      simp [Nat.shiftLeft_eq]
    refine ⟨_, _, ?_, rfl, ⟨?_, ?_, ?_⟩, ?_⟩ <;> simp [hm, hE, Format.exponentBias, index] <;>
      omega

/-- What the bits of a value that is not NaN unpack to: a zero, an infinity, or the canonical
significand whose index is the magnitude, each with the value's sign. -/
theorem unpack_cases (x : Float) (hx : magnitude x ≤ infMagnitude) :
    (magnitude x = 0 ∧ x.toModel.unpack = .zero (sign x)) ∨
    (magnitude x = infMagnitude ∧ x.toModel.unpack = .infinity (sign x)) ∨
    (∃ m e hm, 0 < magnitude x ∧ magnitude x < infMagnitude ∧
      x.toModel.unpack = .finite (sign x) m e hm ∧ Canonical m e ∧ index m e = magnitude x) := by
  rcases Nat.eq_zero_or_pos (magnitude x) with h0 | h0
  · exact .inl ⟨h0, unpack_of_magnitude_eq_zero _ h0⟩
  rcases hx.lt_or_eq with hlt | heq
  · obtain ⟨m, e, hm, hu, hc, hi⟩ := unpack_of_lt_inf _ h0.ne' hlt
    exact .inr (.inr ⟨m, e, hm, h0, hlt, hu, hc, hi⟩)
  · exact .inr (.inl ⟨heq, unpack_of_magnitude_eq_inf _ heq⟩)

/-! ## The comparisons -/

theorem compare_natCast (a b : ℕ) : compare (a : ℤ) (b : ℤ) = compare a b := by
  rcases lt_trichotomy a b with h | rfl | h
  · rw [compare_lt_iff_lt.2 h, compare_lt_iff_lt.2 (by exact_mod_cast h)]
  · simp
  · rw [compare_gt_iff_gt.2 h, compare_gt_iff_gt.2 (by exact_mod_cast h)]

theorem compare_neg_natCast (a b : ℕ) : compare (-(a : ℤ)) (-(b : ℤ)) = compare b a := by
  rcases lt_trichotomy a b with h | rfl | h
  · rw [compare_gt_iff_gt.2 h, compare_gt_iff_gt.2 (by omega)]
  · simp
  · rw [compare_lt_iff_lt.2 h, compare_lt_iff_lt.2 (by omega)]

/-- IEEE 754 compares two values that are not NaN as their keys compare. -/
theorem compare_unpack {x y : Float} (hx : magnitude x ≤ infMagnitude)
    (hy : magnitude y ≤ infMagnitude) :
    x.toModel.unpack.compare y.toModel.unpack = some (compare (key x) (key y)) := by
  unfold key
  rcases unpack_cases x hx with ⟨hx0, hux⟩ | ⟨hxi, hux⟩ | ⟨m, e, hm, hx0, hxi, hux, hcx, hix⟩ <;>
  rcases unpack_cases y hy with ⟨hy0, huy⟩ | ⟨hyi, huy⟩ | ⟨n, f, hn, hy0, hyi, huy, hcy, hiy⟩ <;>
  rw [hux, huy, sign_eq, sign_eq] <;> cases signBit x <;> cases signBit y
  -- two finite values of one sign: by exponent, then significand, that is, by index
  case inr.inr.inr.inr.false.false =>
    simp [UnpackedFloat.compare, hcx.compare_then hcy, hix, hiy, compare_natCast]
  case inr.inr.inr.inr.true.true =>
    simp [UnpackedFloat.compare, hcx.compare_then hcy, hix, hiy, compare_neg_natCast,
      Nat.compare_swap]
  -- two infinities compare by their signs alone
  case inr.inl.inr.inl.false.false | inr.inl.inr.inl.false.true | inr.inl.inr.inl.true.false
    | inr.inl.inr.inl.true.true =>
    simp only [UnpackedFloat.compare, hxi, hyi]
    rfl
  -- every other pair is ordered by its signs and by which magnitudes are zero or infinite
  all_goals
    simp [UnpackedFloat.compare, infMagnitude, @eq_comm _ Ordering.lt, @eq_comm _ Ordering.eq,
      @eq_comm _ Ordering.gt, compare_lt_iff_lt, compare_gt_iff_gt] at *
    omega

theorem key_of_signBit_false {x : Float} (h : signBit x = false) : key x = magnitude x := by
  rw [key, h]
  rfl

theorem key_of_signBit_true {x : Float} (h : signBit x = true) : key x = -(magnitude x : ℤ) := by
  rw [key, h]
  rfl

/-- A value of positive key has the sign bit clear. -/
theorem signBit_of_key_pos {x : Float} (h : 0 < key x) : signBit x = false := by
  by_contra hs
  rw [Bool.not_eq_false] at hs
  rw [key_of_signBit_true hs] at h
  omega

section Order

variable {x y : Float} (hx : magnitude x ≤ infMagnitude) (hy : magnitude y ≤ infMagnitude)
include hx hy

theorem le_iff_key_le : x ≤ y ↔ key x ≤ key y := by
  show Float.le x y = true ↔ _
  rw [Float.le, decide_eq_true_iff]
  show x.toModel.unpack.le y.toModel.unpack = true ↔ _
  rw [UnpackedFloat.le, compare_unpack hx hy, Option.any_some, Ordering.isLE_iff_ne_gt]
  exact compare_le_iff_le

theorem lt_iff_key_lt : x < y ↔ key x < key y := by
  show Float.lt x y = true ↔ _
  rw [Float.lt, decide_eq_true_iff]
  show x.toModel.unpack.lt y.toModel.unpack = true ↔ _
  rw [UnpackedFloat.lt, compare_unpack hx hy, beq_iff_eq, Option.some_inj, compare_lt_iff_lt]

theorem beq_iff_key_eq : (x == y) = true ↔ key x = key y := by
  show x.toModel.unpack.beq y.toModel.unpack = true ↔ _
  rw [UnpackedFloat.beq, compare_unpack hx hy, beq_iff_eq, Option.some_inj, compare_eq_iff_eq]

/-- Two values with the sign bit clear are ordered as their magnitudes. -/
theorem le_of_magnitude_le (hsx : signBit x = false) (hsy : signBit y = false)
    (h : magnitude x ≤ magnitude y) : x ≤ y := by
  rw [le_iff_key_le hx hy, key_of_signBit_false hsx, key_of_signBit_false hsy]
  exact_mod_cast h

end Order

/-- A NaN is neither below nor above anything. -/
theorem not_lt_of_nan {x : Float} (hx : infMagnitude < magnitude x) (y : Float) :
    ¬ x < y ∧ ¬ y < x := by
  have hu : x.toModel.unpack = .notANumber := unpack_of_inf_lt _ hx
  constructor
  · show ¬ Float.lt x y = true
    rw [Float.lt, decide_eq_true_iff]
    show ¬ x.toModel.unpack.lt y.toModel.unpack = true
    rw [hu]
    simp [UnpackedFloat.lt, UnpackedFloat.compare]
  · show ¬ Float.lt y x = true
    rw [Float.lt, decide_eq_true_iff]
    show ¬ y.toModel.unpack.lt x.toModel.unpack = true
    rw [hu]
    cases y.toModel.unpack <;> simp [UnpackedFloat.lt, UnpackedFloat.compare]

/-! ## Packing -/

/-- The bits of a packed canonical significand: the sign bit, then the significand's index, capped
at the infinities' magnitude when the exponent is past binary64's range. -/
theorem pack_finite_toNat (s : Sign) {m : ℕ} {e : ℤ} (hm : 0 < m) (hc : Canonical m e) :
    (UnpackedFloat.pack Format.binary64 (.finite s m e hm)).toNat =
      s.toBitVec.toNat * 2 ^ 63 + min (index m e) infMagnitude := by
  obtain ⟨hlt, hge, hn⟩ := hc
  have hlog : m.log2 < 53 := (Nat.log2_lt hm.ne').2 hlt
  have hb : (e + (Format.binary64.exponentBias : ℤ) +
      (Format.binary64.mantissaBitsWithoutImplicit : ℤ)).toNat = (e + 1075).toNat := by
    simp [Format.exponentBias]
    omega
  have hx : (2 : ℕ) ^ Format.binary64.exponentBits = 2048 := rfl
  have hM : Format.binary64.mantissaBits = 53 := rfl
  unfold UnpackedFloat.pack
  dsimp only
  simp only [hb, hx, hM]
  split_ifs with hinf hnorm
  · -- past the largest exponent: an infinity
    rw [packedInfinity, packComponents_toNat]
    simp [index, infMagnitude]
    omega
  · -- a normal significand: the biased exponent, and the fraction below the hidden bit
    have h52 : 2 ^ 52 ≤ m := (Nat.le_log2 hm.ne').1 (by omega)
    have hE : (e + 1075).toNat % 2 ^ 11 = (e + 1074).toNat + 1 := by
      rw [Nat.mod_eq_of_lt (by omega)]
      omega
    have hF : m % 2 ^ 52 = m - 2 ^ 52 := by
      rw [Nat.mod_eq_sub_mod h52, Nat.mod_eq_of_lt (by omega)]
    have hmin : min (index m e) infMagnitude = index m e :=
      min_eq_left (by unfold index infMagnitude; omega)
    rw [packComponents_toNat, BitVec.toNat_ofNat, BitVec.toNat_ofNat, hE, hF, hmin, index]
    omega
  · -- a subnormal significand, at the least exponent
    have h52 : m < 2 ^ 52 := (Nat.log2_lt hm.ne').1 (by omega)
    rw [packComponents_toNat]
    simp [index, infMagnitude]
    omega

theorem pack_zero_toNat (s : Sign) :
    (UnpackedFloat.pack Format.binary64 (.zero s)).toNat = s.toBitVec.toNat * 2 ^ 63 := by
  rw [UnpackedFloat.pack, packedZero, packComponents_toNat]
  simp

theorem pack_infinity_toNat (s : Sign) :
    (UnpackedFloat.pack Format.binary64 (.infinity s)).toNat =
      s.toBitVec.toNat * 2 ^ 63 + infMagnitude := by
  rw [UnpackedFloat.pack, packedInfinity, packComponents_toNat]
  simp [infMagnitude]

/-- A word is its sign bit above its magnitude. -/
theorem signOfBits_add_mod (n : ℕ) (hn : n < 2 ^ 64) :
    (signOfBits n).toBitVec.toNat * 2 ^ 63 + n % 2 ^ 63 = n := by
  by_cases h : n < 2 ^ 63
  · rw [signOfBits, if_pos h]
    change 0 * 2 ^ 63 + n % 2 ^ 63 = n
    omega
  · rw [signOfBits, if_neg h]
    change 1 * 2 ^ 63 + n % 2 ^ 63 = n
    omega

/-- Reading the bits of a value that is not NaN back as a `Float` keeps them. -/
theorem toBits_ofBits (a : UInt64) (ha : a.toNat % 2 ^ 63 ≤ infMagnitude) :
    (Float.ofBits a).toBits = a := by
  apply UInt64.toNat_inj.1
  have hlt : a.toBitVec.toNat < 2 ^ 64 := a.toNat_lt
  have hsum := signOfBits_add_mod a.toBitVec.toNat hlt
  change a.toBitVec.toNat % 2 ^ 63 ≤ infMagnitude at ha
  show (UnpackedFloat.pack Format.binary64 (unpack Format.binary64 a.toBitVec)).toNat =
    a.toBitVec.toNat
  rcases Nat.eq_zero_or_pos (a.toBitVec.toNat % 2 ^ 63) with h0 | h0
  · rw [unpack_of_magnitude_eq_zero _ h0, pack_zero_toNat]
    rw [h0, Nat.add_zero] at hsum
    exact hsum
  rcases ha.lt_or_eq with hlt' | heq
  · obtain ⟨m, e, hm, hu, hc, hi⟩ := unpack_of_lt_inf _ h0.ne' hlt'
    rw [hu, pack_finite_toNat _ hm hc, hi, min_eq_left hlt'.le]
    exact hsum
  · rw [unpack_of_magnitude_eq_inf _ heq, pack_infinity_toNat, ← heq]
    exact hsum

/-! ## The exact number the bits stand for -/

/-- The bits of a finite value read as sign, significand and exponent: the sign bit, and the
canonical significand whose index is the magnitude. -/
theorem classify_of_lt_inf (x : Float) (h : magnitude x < infMagnitude) :
    ∃ m e, classify x = .finite ⟨signBit x, m, e⟩ ∧ Canonical m e ∧ index m e = magnitude x := by
  have hlt : x.toBits.toNat < 2 ^ 64 := x.toBits.toNat_lt
  have hbiased : x.toBits.toNat / 2 ^ 52 % 2048 = magnitude x / 2 ^ 52 := by
    unfold magnitude
    omega
  have hfrac : x.toBits.toNat % 2 ^ 52 = magnitude x % 2 ^ 52 := by
    unfold magnitude
    omega
  unfold infMagnitude at h
  unfold classify
  simp only [Nat.pow_eq, hbiased, hfrac]
  have h1 : (magnitude x / 2 ^ 52 == 2047) = false := by
    simp only [beq_eq_false_iff_ne]
    omega
  rw [if_neg (by rw [h1]; exact Bool.false_ne_true)]
  by_cases hz : magnitude x < 2 ^ 52
  · -- a subnormal value or a zero: the fraction is the significand, at the least exponent
    have h0 : (magnitude x / 2 ^ 52 == 0) = true := by
      simp only [beq_iff_eq]
      omega
    rw [if_pos h0]
    refine ⟨_, _, rfl, ⟨by omega, le_rfl, .inr rfl⟩, ?_⟩
    unfold index
    omega
  · -- a normal value: the hidden bit joins the fraction
    have h0 : (magnitude x / 2 ^ 52 == 0) = false := by
      simp only [beq_eq_false_iff_ne]
      omega
    rw [if_neg (by rw [h0]; exact Bool.false_ne_true)]
    refine ⟨_, _, rfl, ⟨by omega, by rw [Int.ofNat_eq_natCast]; omega, .inl (by omega)⟩, ?_⟩
    unfold index
    rw [Int.ofNat_eq_natCast]
    omega

/-- The bits of an infinity are read as an infinity of the sign bit's sign. -/
theorem classify_of_eq_inf (x : Float) (h : magnitude x = infMagnitude) :
    classify x = .inf (signBit x) := by
  have hlt : x.toBits.toNat < 2 ^ 64 := x.toBits.toNat_lt
  unfold magnitude infMagnitude at h
  have hbiased : x.toBits.toNat / 2 ^ 52 % 2048 = 2047 := by omega
  have hfrac : (x.toBits.toNat % 2 ^ 52 == 0) = true := by
    rw [beq_iff_eq]
    omega
  unfold classify
  simp only [Nat.pow_eq, hbiased]
  rw [if_pos (show (2047 == 2047) = true from rfl), if_pos hfrac]
  rfl

/-- Every magnitude above the infinities' is read as a NaN. -/
theorem classify_of_inf_lt (x : Float) (h : infMagnitude < magnitude x) : classify x = .nan := by
  have hlt : x.toBits.toNat < 2 ^ 64 := x.toBits.toNat_lt
  unfold magnitude infMagnitude at h
  have hbiased : x.toBits.toNat / 2 ^ 52 % 2048 = 2047 := by omega
  have hfrac : (x.toBits.toNat % 2 ^ 52 == 0) = false := by
    rw [beq_eq_false_iff_ne]
    omega
  unfold classify
  simp only [Nat.pow_eq, hbiased]
  rw [if_pos (show (2047 == 2047) = true from rfl), if_neg (by rw [hfrac]; exact Bool.false_ne_true)]

/-- A value read as a finite number has the sign bit as its sign, and the canonical significand
whose index is its magnitude. -/
theorem classify_eq_finite {x : Float} {b : Binary64} (h : classify x = .finite b) :
    magnitude x < infMagnitude ∧ b.neg = signBit x ∧ Canonical b.mant b.exp ∧
      index b.mant b.exp = magnitude x := by
  by_cases hx : magnitude x < infMagnitude
  · obtain ⟨m, e, hc, hm, hi⟩ := classify_of_lt_inf x hx
    rw [h, Kind.finite.injEq] at hc
    subst hc
    exact ⟨hx, rfl, hm, hi⟩
  · rcases (not_lt.1 hx).lt_or_eq with hnan | hinf
    · rw [classify_of_inf_lt x hnan] at h
      cases h
    · rw [classify_of_eq_inf x hinf.symm] at h
      cases h

/-- An infinity has the largest magnitude that is not a NaN's, and its sign bit. -/
theorem magnitude_of_classify_inf {x : Float} {s : Bool} (h : classify x = .inf s) :
    magnitude x = infMagnitude ∧ signBit x = s := by
  rcases lt_trichotomy (magnitude x) infMagnitude with hlt | heq | hgt
  · obtain ⟨m, e, hc, -⟩ := classify_of_lt_inf x hlt
    rw [h] at hc
    cases hc
  · rw [classify_of_eq_inf x heq, Kind.inf.injEq] at h
    exact ⟨heq, h⟩
  · rw [classify_of_inf_lt x hgt] at h
    cases h

theorem magnitude_of_classify_nan {x : Float} (h : classify x = .nan) : infMagnitude < magnitude x := by
  by_contra hle
  rcases (not_lt.1 hle).lt_or_eq with hlt | heq
  · obtain ⟨m, e, hc, -⟩ := classify_of_lt_inf x hlt
    rw [h] at hc
    cases hc
  · rw [classify_of_eq_inf x heq] at h
    cases h

end TradeDesk.Binary64
