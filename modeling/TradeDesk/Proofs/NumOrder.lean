import Mathlib
import TradeDesk.Proofs.Rounded
import TradeDesk.Num

/-!
# The exact order of numbers

`Num.order` compares numbers exactly: a whole number against the exact value of a binary64 one, and
two binary64 values as IEEE 754 does. A finite binary64 value's key orders it as its exact value
does (`Binary64.key_le_iff_value_le`), so finite numbers are ordered as their exact values
(`Num.toRat`) are: `Num.le_iff_toRat_le` and `Num.lt_iff_toRat_lt`. Through them the rules'
`larger`, `smaller` and `clamp` are the maximum, the minimum and the clamp of exact values, and a
result that rounds a larger exact value is the larger number (`RoundsTo.value_le`).
-/

namespace TradeDesk

/-- Two comparisons agree when their strict orders do, both ways. -/
theorem compare_eq_of_lt_iff {α β : Type} [LinearOrder α] [LinearOrder β] {a b : α} {c d : β}
    (hlt : a < b ↔ c < d) (hgt : b < a ↔ d < c) : compare a b = compare c d := by
  rcases lt_trichotomy a b with h | rfl | h
  · rw [compare_lt_iff_lt.2 h, compare_lt_iff_lt.2 (hlt.1 h)]
  · have hcd : c = d := le_antisymm (not_lt.1 fun h' => lt_irrefl a (hgt.2 h'))
      (not_lt.1 fun h' => lt_irrefl a (hlt.2 h'))
    rw [compare_eq_iff_eq.2 rfl, hcd, compare_eq_iff_eq.2 rfl]
  · rw [compare_gt_iff_gt.2 h, compare_gt_iff_gt.2 (hgt.1 h)]

namespace Binary64

variable {x y : Float} {bx b : Binary64}

/-- The key of a finite value is its index, negated with the sign. -/
theorem key_of_classify (h : classify x = .finite b) :
    key x = if b.neg then -(index b.mant b.exp : ℤ) else index b.mant b.exp := by
  obtain ⟨-, hneg, -, hi⟩ := classify_eq_finite h
  rw [key, ← hneg, hi]

theorem magnitude_le_of_classify (h : classify x = .finite b) : magnitude x ≤ infMagnitude :=
  (classify_eq_finite h).1.le

/-- A zero index is a zero. -/
theorem value_eq_zero_of_index (h : index b.mant b.exp = 0) : value b = 0 := by
  have hm : b.mant = 0 := by
    unfold index at h
    omega
  simp [value, absValue_eq_zero hm]

/-- Finite values of one key have one exact value: the key gives the sign and the canonical
significand, except for the two zeros, whose values are both zero. -/
theorem value_eq_of_key_eq (hx : classify x = .finite bx) (hy : classify y = .finite b)
    (h : key x = key y) : value bx = value b := by
  obtain ⟨-, -, hcx, -⟩ := classify_eq_finite hx
  obtain ⟨-, -, hcy, -⟩ := classify_eq_finite hy
  rw [key_of_classify hx, key_of_classify hy] at h
  cases hbx : bx.neg <;> cases hb : b.neg <;> simp only [hbx, hb] at h <;>
    simp only [Bool.false_eq_true, ↓reduceIte, neg_inj, Nat.cast_inj] at h
  · obtain ⟨hm, he⟩ := hcx.eq_of_index_eq hcy h
    simp [value, absValue, hbx, hb, hm, he]
  · rw [value_eq_zero_of_index (by omega), value_eq_zero_of_index (by omega)]
  · rw [value_eq_zero_of_index (by omega), value_eq_zero_of_index (by omega)]
  · obtain ⟨hm, he⟩ := hcx.eq_of_index_eq hcy h
    simp [value, absValue, hbx, hb, hm, he]

/-- **Keys order finite values as their exact values.** One way is the monotonicity of rounding,
each value being its own rounding; the other follows, since one key means one value. -/
theorem key_le_iff_value_le (hx : classify x = .finite bx) (hy : classify y = .finite b) :
    key x ≤ key y ↔ value bx ≤ value b := by
  constructor
  · intro h
    by_contra hlt
    have hle := (RoundsTo.of_classify hy).key_le (RoundsTo.of_classify hx) (not_le.1 hlt).le
    exact hlt (value_eq_of_key_eq hx hy (le_antisymm h hle)).le
  · exact (RoundsTo.of_classify hx).key_le (RoundsTo.of_classify hy)

theorem key_lt_iff_value_lt (hx : classify x = .finite bx) (hy : classify y = .finite b) :
    key x < key y ↔ value bx < value b := by
  rw [← not_le, ← not_le, key_le_iff_value_le hy hx]

theorem le_iff_value_le (hx : classify x = .finite bx) (hy : classify y = .finite b) :
    x ≤ y ↔ value bx ≤ value b :=
  (le_iff_key_le (magnitude_le_of_classify hx) (magnitude_le_of_classify hy)).trans
    (key_le_iff_value_le hx hy)

theorem lt_iff_value_lt (hx : classify x = .finite bx) (hy : classify y = .finite b) :
    x < y ↔ value bx < value b :=
  (lt_iff_key_lt (magnitude_le_of_classify hx) (magnitude_le_of_classify hy)).trans
    (key_lt_iff_value_lt hx hy)

theorem beq_iff_value_eq (hx : classify x = .finite bx) (hy : classify y = .finite b) :
    (x == y) = true ↔ value bx = value b := by
  rw [beq_iff_key_eq (magnitude_le_of_classify hx) (magnitude_le_of_classify hy),
    le_antisymm_iff, le_antisymm_iff, key_le_iff_value_le hx hy, key_le_iff_value_le hy hx]

/-- The exact value of a finite binary64 value; infinities and NaNs have none and read as zero. -/
def toRat (x : Float) : ℚ :=
  match classify x with
  | .finite b => value b
  | _ => 0

theorem toRat_of_classify (h : classify x = .finite b) : toRat x = value b := by
  simp [toRat, h]

/-- The key of an infinity is the largest or least of all keys. -/
theorem key_of_classify_inf {s : Bool} (h : classify x = .inf s) :
    key x = if s then -(infMagnitude : ℤ) else infMagnitude := by
  obtain ⟨hm, hs⟩ := magnitude_of_classify_inf h
  rw [key, hs, hm]

/-- The key of a finite value lies strictly between the infinities'. -/
theorem abs_key_lt (h : classify x = .finite b) :
    -(infMagnitude : ℤ) < key x ∧ key x < infMagnitude := by
  have hm : (magnitude x : ℤ) < infMagnitude := by exact_mod_cast (classify_eq_finite h).1
  exact ⟨lt_of_lt_of_le (neg_lt_neg hm) (neg_magnitude_le_key x),
    lt_of_le_of_lt (key_le_magnitude x) hm⟩

/-- A NaN equals nothing. -/
theorem beq_nan_right (h : classify y = .nan) (x : Float) : (x == y) = false := by
  have hu : y.toModel.unpack = .notANumber := unpack_of_inf_lt _ (magnitude_of_classify_nan h)
  show x.toModel.unpack.beq y.toModel.unpack = false
  rw [hu]
  cases x.toModel.unpack <;> rfl

theorem beq_nan_left (h : classify x = .nan) (y : Float) : (x == y) = false := by
  have hu : x.toModel.unpack = .notANumber := unpack_of_inf_lt _ (magnitude_of_classify_nan h)
  show x.toModel.unpack.beq y.toModel.unpack = false
  rw [hu]
  rfl

/-- Every value that is not a NaN is at most `+∞`. -/
theorem le_of_classify_inf (hx : magnitude x ≤ infMagnitude) (hy : classify y = .inf false) :
    x ≤ y := by
  rw [le_iff_key_le hx (magnitude_of_classify_inf hy).1.le, key_of_classify_inf hy,
    if_neg Bool.false_ne_true]
  exact (key_le_magnitude x).trans (by exact_mod_cast hx)

/-- `-∞` is at most every value that is not a NaN. -/
theorem le_of_classify_neg_inf (hx : classify x = .inf true) (hy : magnitude y ≤ infMagnitude) :
    x ≤ y := by
  rw [le_iff_key_le (magnitude_of_classify_inf hx).1.le hy, key_of_classify_inf hx, if_pos rfl]
  exact le_trans (neg_le_neg (by exact_mod_cast hy)) (neg_magnitude_le_key y)

namespace RoundsTo

variable {z w : Float} {q r : ℚ} {bz bw : Binary64}

/-- A whole number converts to its own rounding. -/
theorem ofInt (n : ℤ) : RoundsTo (Binary64.ofInt n) n := by
  have hq : (n : ℚ) = if decide (n < 0) = true then -(n.natAbs : ℚ) else n.natAbs := by
    by_cases hn : n < 0
    · rw [if_pos (decide_eq_true hn), Nat.cast_natAbs, Int.cast_abs,
        abs_of_neg (by exact_mod_cast hn), neg_neg]
    · rw [if_neg (by simpa using hn), Nat.cast_natAbs, Int.cast_abs,
        abs_of_nonneg (by exact_mod_cast not_lt.1 hn)]
  have h := nearest (decide (n < 0)) n.natAbs Nat.one_pos
  simp only [Nat.cast_one, div_one] at h
  rw [hq]
  exact h

/-- Finite roundings of ordered values have ordered exact values. -/
theorem value_le (hz : RoundsTo z q) (hw : RoundsTo w r) (h : q ≤ r)
    (hbz : classify z = .finite bz) (hbw : classify w = .finite bw) : value bz ≤ value bw :=
  (key_le_iff_value_le hbz hbw).1 (hz.key_le hw h)

/-- A value no larger in magnitude than a finite value rounds to a finite value. -/
theorem finite_of_abs_le (hz : RoundsTo z q) (hw : classify w = .finite bw)
    (h : |q| ≤ |value bw|) : ∃ b, classify z = .finite b := by
  have hm := hz.magnitude_le_magnitude (RoundsTo.of_classify hw) h
  obtain ⟨m, e, hc, -⟩ := classify_of_lt_inf z (hm.trans_lt (classify_eq_finite hw).1)
  exact ⟨_, hc⟩

end RoundsTo

end Binary64

namespace Num

open Binary64

/-- The exact value of a number: a whole number as itself, a finite binary64 value as the number
its bits stand for. Infinities and NaNs have none and read as zero. -/
def toRat : Num → ℚ
  | .int n => n
  | .float x => Binary64.toRat x

@[simp] theorem toRat_int (n : ℤ) : (Num.int n).toRat = n := rfl

theorem toRat_float {x : Float} {b : Binary64} (h : classify x = .finite b) :
    (Num.float x).toRat = value b :=
  toRat_of_classify h

theorem isFinite_float {x : Float} : (Num.float x).isFinite = true ↔ ∃ b, classify x = .finite b := by
  simp only [isFinite]
  split <;> simp_all

/-- A whole number is compared with a finite binary64 value as with its exact value. -/
theorem compareIntFloat_finite (m : ℤ) {y : Float} {b : Binary64} (h : classify y = .finite b) :
    compareIntFloat m y = some (compare (m : ℚ) (value b)) := by
  obtain ⟨hden, hfrac⟩ := toFraction_spec b
  have hd : (0 : ℚ) < b.toFraction.2 := by exact_mod_cast hden
  simp only [compareIntFloat, h, exact, Option.some.injEq]
  -- the value is the signed numerator over the denominator
  have hv : value b = ((if b.neg then -(b.toFraction.1 : ℤ) else b.toFraction.1 : ℤ) : ℚ) /
      b.toFraction.2 := by
    unfold value
    split_ifs
    · push_cast
      rw [← hfrac, neg_div]
    · push_cast
      rw [← hfrac]
  rw [hv]
  apply compare_eq_of_lt_iff
  · rw [lt_div_iff₀ hd]
    norm_cast
  · rw [div_lt_iff₀ hd]
    norm_cast

/-- **Finite numbers are compared as their exact values.** -/
theorem order_eq_compare {a c : Num} (ha : a.isFinite = true) (hc : c.isFinite = true) :
    a.order c = some (compare a.toRat c.toRat) := by
  cases a with
  | int m =>
    cases c with
    | int n =>
      simp only [order, toRat_int, Option.some.injEq]
      exact compare_eq_of_lt_iff Int.cast_lt.symm Int.cast_lt.symm
    | float y =>
      obtain ⟨b, hb⟩ := isFinite_float.1 hc
      rw [order, compareIntFloat_finite m hb, toRat_int, toRat_float hb]
  | float x =>
    obtain ⟨bx, hbx⟩ := isFinite_float.1 ha
    cases c with
    | int n =>
      rw [order, compareIntFloat_finite n hbx, toRat_int, toRat_float hbx, Option.map_some,
        Std.OrientedOrd.eq_swap (a := value bx)]
    | float y =>
      obtain ⟨b, hb⟩ := isFinite_float.1 hc
      rw [toRat_float hbx, toRat_float hb]
      simp only [order]
      rcases lt_trichotomy (value bx) (value b) with h | h | h
      · rw [if_pos ((lt_iff_value_lt hbx hb).2 h), compare_lt_iff_lt.2 h]
      · rw [if_neg fun h' => lt_irrefl _ (h ▸ (lt_iff_value_lt hbx hb).1 h'),
          if_neg fun h' => lt_irrefl _ (h ▸ (lt_iff_value_lt hb hbx).1 h'),
          if_pos ((beq_iff_value_eq hbx hb).2 h), h, compare_eq_iff_eq.2 rfl]
      · rw [if_neg fun h' => lt_asymm h ((lt_iff_value_lt hbx hb).1 h'),
          if_pos ((lt_iff_value_lt hb hbx).2 h), compare_gt_iff_gt.2 h]

theorem le_of_lt {a c : Num} (h : a < c) : a ≤ c := by
  show a.le c = true
  rw [le, Bool.or_eq_true]
  exact .inl h

/-- A number between two finite numbers is finite: a NaN is comparable to nothing, and an infinity
lies beyond every finite number. -/
theorem isFinite_of_le_of_le {lo x hi : Num} (hlo : lo.isFinite = true) (hhi : hi.isFinite = true)
    (h₁ : lo ≤ x) (h₂ : x ≤ hi) : x.isFinite = true := by
  cases x with
  | int n => rfl
  | float y =>
    change lo.le (.float y) = true at h₁
    change (Num.float y).le hi = true at h₂
    rcases hy : classify y with b | s | -
    · exact isFinite_float.2 ⟨b, hy⟩
    · have hk := key_of_classify_inf hy
      have hmy : magnitude y ≤ infMagnitude := (magnitude_of_classify_inf hy).1.le
      cases s
      · -- `+∞` lies above every finite number
        cases hi with
        | int n => simp [le, order, compareIntFloat, hy] at h₂
        | float h =>
          obtain ⟨bh, hbh⟩ := isFinite_float.1 hhi
          have hk' := abs_key_lt hbh
          have hlt : h < y := (lt_iff_key_lt (magnitude_le_of_classify hbh) hmy).2 (by
            rw [hk]
            exact hk'.2)
          have hnlt : ¬ y < h := fun h' => by
            rw [lt_iff_key_lt hmy (magnitude_le_of_classify hbh), hk] at h'
            exact absurd h' (not_lt.2 hk'.2.le)
          simp [le, order, hlt, hnlt] at h₂
      · -- `-∞` lies below every finite number
        cases lo with
        | int n => simp [le, order, compareIntFloat, hy] at h₁
        | float l =>
          obtain ⟨bl, hbl⟩ := isFinite_float.1 hlo
          have hk' := abs_key_lt hbl
          have hlt : y < l := (lt_iff_key_lt hmy (magnitude_le_of_classify hbl)).2 (by
            rw [hk]
            exact hk'.1)
          have hnlt : ¬ l < y := fun h' => by
            rw [lt_iff_key_lt (magnitude_le_of_classify hbl) hmy, hk] at h'
            exact absurd h' (not_lt.2 hk'.1.le)
          simp [le, order, hlt, hnlt] at h₁
    · -- a NaN is comparable to nothing
      have hnan := not_lt_of_nan (magnitude_of_classify_nan hy)
      cases lo with
      | int n => simp [le, compareIntFloat, order, hy] at h₁
      | float l => simp [le, order, (hnan l).1, (hnan l).2, beq_nan_right hy] at h₁

section Finite

variable {a c : Num} (ha : a.isFinite = true) (hc : c.isFinite = true)
include ha hc

theorem le_iff_toRat_le : a ≤ c ↔ a.toRat ≤ c.toRat := by
  show a.le c = true ↔ _
  rw [le, order_eq_compare ha hc]
  rcases lt_trichotomy a.toRat c.toRat with h | h | h
  · simp [compare_lt_iff_lt.2 h, h.le]
  · simp [h]
  · simp [compare_gt_iff_gt.2 h, not_le.2 h]

theorem lt_iff_toRat_lt : a < c ↔ a.toRat < c.toRat := by
  show a.lt c = true ↔ _
  rw [lt, order_eq_compare ha hc]
  simp [compare_lt_iff_lt]

/-! ## The rules' comparisons on finite numbers -/

open Numeric

theorem toRat_larger : (larger a c).toRat = max a.toRat c.toRat := by
  unfold larger
  split_ifs with h
  · exact (max_eq_right ((lt_iff_toRat_lt ha hc).1 h).le).symm
  · exact (max_eq_left (not_lt.1 fun h' => h ((lt_iff_toRat_lt ha hc).2 h'))).symm

theorem toRat_smaller : (smaller a c).toRat = min a.toRat c.toRat := by
  unfold smaller
  split_ifs with h
  · exact (min_eq_right ((lt_iff_toRat_lt hc ha).1 h).le).symm
  · exact (min_eq_left (not_lt.1 fun h' => h ((lt_iff_toRat_lt hc ha).2 h'))).symm

theorem isFinite_larger : (larger a c).isFinite = true := by
  unfold larger
  split_ifs <;> assumption

theorem isFinite_smaller : (smaller a c).isFinite = true := by
  unfold smaller
  split_ifs <;> assumption

omit ha hc in
/-- **A clamp lands in its band**, whatever it is given: a NaN or an infinity is replaced by an
end of the band. -/
theorem clamp_mem {lo hi : Num} (hlo : lo.isFinite = true) (hhi : hi.isFinite = true)
    (hband : lo ≤ hi) (x : Num) :
    (clamp lo hi x).isFinite = true ∧ lo.toRat ≤ (clamp lo hi x).toRat ∧
      (clamp lo hi x).toRat ≤ hi.toRat := by
  have hb := (le_iff_toRat_le hlo hhi).1 hband
  unfold clamp larger smaller
  split_ifs with h₁ h₂ h₂
  · have hx := isFinite_of_le_of_le hlo hhi (le_of_lt h₂) (le_of_lt h₁)
    exact ⟨hx, ((lt_iff_toRat_lt hlo hx).1 h₂).le, ((lt_iff_toRat_lt hx hhi).1 h₁).le⟩
  · exact ⟨hlo, le_rfl, hb⟩
  · exact ⟨hhi, hb, le_rfl⟩
  · exact ⟨hlo, le_rfl, hb⟩

omit ha hc in
/-- On finite numbers a clamp is the clamp of the exact values. -/
theorem toRat_clamp {lo hi x : Num} (hlo : lo.isFinite = true) (hhi : hi.isFinite = true)
    (hx : x.isFinite = true) :
    (clamp lo hi x).toRat = max lo.toRat (min hi.toRat x.toRat) := by
  rw [clamp, toRat_larger hlo (isFinite_smaller hhi hx), toRat_smaller hhi hx]

end Finite

/-- Two binary64 values that are not NaNs are compared by their keys. -/
theorem order_float_float {x y : Float} (hx : magnitude x ≤ infMagnitude)
    (hy : magnitude y ≤ infMagnitude) :
    (Num.float x).order (.float y) = some (compare (key x) (key y)) := by
  simp only [order]
  rcases lt_trichotomy (key x) (key y) with h | h | h
  · rw [if_pos ((lt_iff_key_lt hx hy).2 h), compare_lt_iff_lt.2 h]
  · rw [if_neg fun h' => lt_irrefl _ (h ▸ (lt_iff_key_lt hx hy).1 h'),
      if_neg fun h' => lt_irrefl _ (h ▸ (lt_iff_key_lt hy hx).1 h'),
      if_pos ((beq_iff_key_eq hx hy).2 h), h, compare_eq_iff_eq.2 rfl]
  · rw [if_neg fun h' => lt_asymm h ((lt_iff_key_lt hx hy).1 h'),
      if_pos ((lt_iff_key_lt hy hx).2 h), compare_gt_iff_gt.2 h]

/-- **Rounding to binary64 keeps the order of numbers.** Whole numbers round monotonically, and a
finite binary64 value is its own rounding; an infinity bounds every value on its side, and a NaN is
below nothing. -/
theorem toFloat_le_toFloat {a c : Num} (h : a ≤ c) : a.toFloat ≤ c.toFloat := by
  change a.le c = true at h
  cases a with
  | int m =>
    cases c with
    | int n =>
      have hmn := (le_iff_toRat_le (a := .int m) (c := .int n) rfl rfl).1 h
      exact (RoundsTo.ofInt m).le (RoundsTo.ofInt n) hmn
    | float y =>
      rcases hy : classify y with b | s | -
      · have hmy := (le_iff_toRat_le (a := .int m) rfl (isFinite_float.2 ⟨b, hy⟩)).1 h
        rw [toRat_int, toRat_float hy] at hmy
        exact (RoundsTo.ofInt m).le (RoundsTo.of_classify hy) hmy
      · cases s
        · exact le_of_classify_inf (RoundsTo.ofInt m).magnitude_le hy
        · simp [le, order, compareIntFloat, hy] at h
      · simp [le, order, compareIntFloat, hy] at h
  | float x =>
    cases c with
    | int n =>
      rcases hx : classify x with b | s | -
      · have hxn := (le_iff_toRat_le (c := .int n) (isFinite_float.2 ⟨b, hx⟩) rfl).1 h
        rw [toRat_int, toRat_float hx] at hxn
        exact (RoundsTo.of_classify hx).le (RoundsTo.ofInt n) hxn
      · cases s
        · simp [le, order, compareIntFloat, hx] at h
        · exact le_of_classify_neg_inf hx (RoundsTo.ofInt n).magnitude_le
      · simp [le, order, compareIntFloat, hx] at h
    | float y =>
      show x ≤ y
      -- a NaN on either side leaves the two incomparable
      by_cases hx : magnitude x ≤ infMagnitude
      · by_cases hy : magnitude y ≤ infMagnitude
        · rw [le, order_float_float hx hy] at h
          rw [le_iff_key_le hx hy]
          rcases lt_trichotomy (key x) (key y) with hk | hk | hk
          · exact hk.le
          · exact hk.le
          · simp [compare_gt_iff_gt.2 hk] at h
        · have hny := classify_of_inf_lt y (not_le.1 hy)
          have hnan := not_lt_of_nan (not_le.1 hy) x
          simp [le, order, hnan.1, hnan.2, beq_nan_right hny] at h
      · have hnx := classify_of_inf_lt x (not_le.1 hx)
        have hnan := not_lt_of_nan (not_le.1 hx) y
        simp [le, order, hnan.1, hnan.2, beq_nan_left hnx] at h

end Num

end TradeDesk
