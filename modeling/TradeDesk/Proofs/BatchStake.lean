import Mathlib
import TradeDesk.Proofs.FloatMul
import TradeDesk.Proofs.NearestRound
import TradeDesk.Sizing.Kelly

/-!
# The stake of a batch of opportunities

`Kelly.batchStake` stakes a batch at its mean confidence-weighted edge (`Kelly.meanEdge`) at
quarter Kelly, times a correlation factor, held to `[0, 0.25]` and applied to the bankroll, rounded
to cents. For every finite bankroll, every batch whose opportunities convert and every binary64
factor (`Kelly.batchStake_bounded`, with `Kelly.BatchStaked`):

* the stake is at least zero and, over a bankroll above zero, at most a quarter of the bankroll
  rounded to cents: holding to `[0, 0.25]` leaves a fraction with the sign bit clear and at most
  `0.25` (`Num.clamp_quarter`), and both multiplying by the bankroll and rounding to cents keep
  the order (`Kelly.stake_mem`);
* an empty batch, a bankroll at or below zero, or a mean that is not finite, stakes nothing;
* a mean at or below zero stakes nothing when the factor is finite and at or above zero.

The factor itself is never checked, and the last point needs both of its conditions: a negative
factor turns a negative mean into a positive fraction, and a NaN (from a NaN factor, or from a zero
mean times an infinite one) fails every comparison, so the clamp keeps its upper bound and the
batch is staked at a quarter of the bankroll.
-/

namespace TradeDesk

open Binary64
open Numeric (clamp larger smaller sumLeft)

/-! ## The binary64 literals of the stake -/

namespace Binary64

theorem classify_quarter : classify (0.25 : Float) = .finite ⟨false, 2 ^ 52, -54⟩ := by
  decide +kernel

theorem classify_zero_point : classify (0.0 : Float) = .finite ⟨false, 0, -1074⟩ := by
  decide +kernel

theorem absValue_quarter : absValue ⟨false, 2 ^ 52, -54⟩ = 1 / 4 := by
  rw [absValue, zpow_neg]
  norm_num

theorem key_zero_point : key (0.0 : Float) = 0 := by decide +kernel

theorem key_quarter : key (0.25 : Float) = 4598175219545276416 := by decide +kernel

theorem magnitude_quarter : magnitude (0.25 : Float) = 4598175219545276416 := by decide +kernel

end Binary64

/-! ## Comparing numbers exactly -/

namespace Num

/-- A binary64 number is finite exactly when its magnitude is below the infinities'. -/
theorem isFinite_float_iff (x : Float) : (Num.float x).isFinite = true ↔ magnitude x < infMagnitude := by
  constructor
  · intro h
    by_contra hx
    rcases (not_lt.1 hx).lt_or_eq with hnan | hinf
    · simp [isFinite, classify_of_inf_lt x hnan] at h
    · simp [isFinite, classify_of_eq_inf x hinf.symm] at h
  · intro h
    obtain ⟨m, e, hc, -⟩ := classify_of_lt_inf x h
    simp [isFinite, hc]

/-- Of two binary64 numbers, the exact order finds the first below the second exactly when
binary64 does. -/
theorem float_lt_float (a b : Float) : Num.float a < Num.float b ↔ a < b := by
  show (Num.float a).lt (.float b) = true ↔ a < b
  unfold Num.lt Num.order
  dsimp only
  split_ifs with h1 h2 h3 <;> simp [h1]

/-- Zero compared exactly with a finite binary64 number is zero compared with its key. -/
theorem compareIntFloat_zero {x : Float} {b : Binary64} (hx : classify x = .finite b) :
    compareIntFloat 0 x = some (compare 0 (key x)) := by
  have hneg := (classify_eq_finite hx).2.1
  have hpos := (toFraction_pos_iff b).trans (mant_pos_iff hx)
  unfold compareIntFloat
  rw [hx]
  simp only [exact, zero_mul, Option.some.injEq]
  unfold key
  rw [← hneg]
  generalize b.toFraction.1 = n at hpos
  cases b.neg <;> rcases Nat.eq_zero_or_pos (magnitude x) with hμ | hμ
  · simp [hμ, show n = 0 by omega]
  · rw [if_neg Bool.false_ne_true, if_neg Bool.false_ne_true,
      compare_lt_iff_lt.2 (by omega), compare_lt_iff_lt.2 (by omega)]
  · simp [hμ, show n = 0 by omega]
  · rw [if_pos rfl, if_pos rfl, compare_gt_iff_gt.2 (by omega), compare_gt_iff_gt.2 (by omega)]

/-- Where the exact order of two numbers is that of two integers, `≤` is theirs. -/
theorem le_iff_of_order {a b : Num} {u v : ℤ} (h : a.order b = some (compare u v)) :
    a ≤ b ↔ u ≤ v := by
  show a.le b = true ↔ _
  unfold Num.le
  rw [h]
  rcases lt_trichotomy u v with huv | huv | huv
  · simp [compare_lt_iff_lt.2 huv, huv.le]
  · simp [huv]
  · simp [compare_gt_iff_gt.2 huv, not_le.2 huv]

/-- A finite binary64 number is at most the whole number zero exactly when its key is. -/
theorem float_le_zero_iff {x : Float} {b : Binary64} (hx : classify x = .finite b) :
    Num.float x ≤ 0 ↔ key x ≤ 0 := by
  apply le_iff_of_order
  show (compareIntFloat 0 x).map Ordering.swap = _
  rw [compareIntFloat_zero hx, Option.map_some, Int.compare_swap]

/-- The whole number zero is at most a finite binary64 number exactly when its key is at least
zero. -/
theorem zero_le_float_iff {x : Float} {b : Binary64} (hx : classify x = .finite b) :
    (0 : Num) ≤ Num.float x ↔ 0 ≤ key x :=
  le_iff_of_order (compareIntFloat_zero hx)

theorem zero_point_float : (0.0 : Num) = .float 0.0 :=
  congrArg Num.float (ext_toBits (by decide +kernel))

theorem quarter_float : (0.25 : Num) = .float 0.25 :=
  congrArg Num.float (ext_toBits (by decide +kernel))

theorem float_mul_quarter (a : Float) : Num.float a * 0.25 = .float (a * 0.25) := by
  rw [quarter_float]
  rfl

/-! ## Holding a number to `[0, 0.25]` -/

/-- **Clamping to `[0, 0.25]`.** A number at or below zero becomes `0.0`; a NaN, or a number at or
above `0.25`, becomes `0.25`; anything strictly between is kept. A NaN fails every comparison, so
`smaller` keeps the bound it was given first. -/
theorem clamp_quarter (p : Float) :
    (magnitude p ≤ infMagnitude ∧ key p ≤ 0 ∧ clamp (0.0 : Num) 0.25 (.float p) = .float 0.0) ∨
    ((infMagnitude < magnitude p ∨ key 0.25 ≤ key p) ∧
      clamp (0.0 : Num) 0.25 (.float p) = .float 0.25) ∨
    (magnitude p ≤ infMagnitude ∧ 0 < key p ∧ key p < key 0.25 ∧
      clamp (0.0 : Num) 0.25 (.float p) = .float p) := by
  have h0 : magnitude (0.0 : Float) ≤ infMagnitude := by decide +kernel
  have hq : magnitude (0.25 : Float) ≤ infMagnitude := by decide +kernel
  have hlt : (0.0 : Float) < 0.25 := by decide +kernel
  rw [zero_point_float, quarter_float]
  unfold clamp larger smaller
  have hfloor := (float_lt_float 0.0 0.25).2 hlt
  by_cases hnan : infMagnitude < magnitude p
  · -- a NaN is below nothing: the cap
    rw [if_neg (mt (float_lt_float p 0.25).1 (not_lt_of_nan hnan 0.25).1), if_pos hfloor]
    exact .inr (.inl ⟨.inl hnan, rfl⟩)
  have hp := not_lt.1 hnan
  by_cases hcap : p < 0.25
  · rw [if_pos ((float_lt_float _ _).2 hcap)]
    rw [lt_iff_key_lt hp hq] at hcap
    by_cases hpos : (0.0 : Float) < p
    · -- strictly between: kept
      rw [if_pos ((float_lt_float _ _).2 hpos)]
      rw [lt_iff_key_lt h0 hp, key_zero_point] at hpos
      exact .inr (.inr ⟨hp, hpos, hcap, rfl⟩)
    · -- at or below zero: the floor
      rw [if_neg (mt (float_lt_float 0.0 p).1 hpos)]
      rw [lt_iff_key_lt h0 hp, key_zero_point, not_lt] at hpos
      exact .inl ⟨hp, hpos, rfl⟩
  · -- at or above the cap: the cap
    rw [if_neg (mt (float_lt_float p 0.25).1 hcap), if_pos hfloor]
    rw [lt_iff_key_lt hp hq, not_lt] at hcap
    exact .inr (.inl ⟨.inr hcap, rfl⟩)

/-- A finite bankroll the library finds above zero has a positive binary64 value. -/
theorem pos_of_not_le_zero {n : Num} {b : Float} (hb : n.toFloat? = .ok b)
    (hbinf : magnitude b < infMagnitude) (hle : n.le (.int 0) = false) :
    ∃ mb eb, classify b = .finite ⟨false, mb, eb⟩ ∧ 0 < mb := by
  obtain ⟨mb, eb, hcb, -, -⟩ := classify_of_lt_inf b hbinf
  suffices h : signBit b = false ∧ 0 < magnitude b by
    rw [h.1] at hcb
    exact ⟨mb, eb, hcb, (mant_pos_iff hcb).2 h.2⟩
  cases n with
  | int m =>
    -- a whole number above zero converts to the nearest value, which is positive
    simp only [Num.toFloat?] at hb
    split_ifs at hb
    cases hb
    have hm : 0 < m := by
      by_contra h
      have h' : Num.int m ≤ .int 0 := (le_iff_of_order rfl).2 (not_lt.1 h)
      rw [show (Num.int m ≤ .int 0) = (Num.le (.int m) (.int 0) = true) from rfl, hle] at h'
      exact Bool.false_ne_true h'
    have hneg : decide (m < 0) = false := by simp; omega
    rw [ofInt, hneg]
    exact ⟨(nearest_bits false _ Nat.one_pos).1, magnitude_nearest_pos false Nat.one_pos (by omega)⟩
  | float x =>
    -- a binary64 number above zero has a positive key
    cases hb
    have hk : 0 < key b := by
      rw [← not_le, ← Num.float_le_zero_iff hcb]
      intro h
      have h' : (Num.float b).le (.int 0) = true := h
      rw [hle] at h'
      exact Bool.false_ne_true h'
    have hs := signBit_of_key_pos hk
    rw [key_of_signBit_false hs] at hk
    exact ⟨hs, by exact_mod_cast hk⟩

end Num

/-! ## Values -/

namespace Value

/-- `≤` between a number and a whole number is the exact order of the numbers. -/
theorem le?_int {v : Value} {n : Num} (hn : v.asNum? = some n) (m : Int) :
    v.le? (.int m) = .ok (n.le (.int m)) := by
  have hv : v = .num n ∨ ∃ bb, v = .bool bb ∧ n = .int (if bb then 1 else 0) := by
    cases v <;> simp_all [asNum?]
  rcases hv with rfl | ⟨bb, rfl, rfl⟩
  -- either way the comparison is `≤` read off the exact order of the two numbers
  all_goals
    show Except.ok _ = _
    congr 1
    unfold Num.le
    generalize Num.order _ (.int m) = o
    rcases o with _ | _ | _ | _ <;> rfl

/-- A value the library finds finite is a number, whose binary64 value is finite. -/
theorem finite_toFloat {v : Value} {b : Float} (hb : v.toFloat? = .ok b)
    (hfin : v.finite? = .ok true) :
    ∃ n, v.asNum? = some n ∧ n.toFloat? = .ok b ∧ magnitude b < infMagnitude := by
  unfold finite? at hfin
  cases hn : v.asNum? with
  | none =>
    rw [hn] at hfin
    cases hfin
  | some n =>
    rw [hn] at hfin
    have hv : v.toFloat? = n.toFloat? := by
      cases v <;> simp_all [toFloat?, asNum?]
    rw [hv] at hb
    dsimp only at hfin
    rw [hb] at hfin
    refine ⟨n, rfl, hb, ?_⟩
    cases n with
    | float x =>
      cases hb
      exact (Num.isFinite_float_iff b).1 (by simpa [bind, Except.bind, pure, Except.pure] using hfin)
    | int m =>
      -- a whole number that does not overflow is finite: its nearest value is not a NaN, and
      -- not an infinity either
      simp only [Num.toFloat?] at hb
      split_ifs at hb with hover
      cases hb
      have hle := (nearest_bits (decide (m < 0)) m.natAbs Nat.one_pos).2
      refine lt_of_le_of_ne hle fun heq => ?_
      have hinf := classify_of_eq_inf _ heq
      simp [intOverflows, hinf] at hover

/-- A number times a binary64 number: the number is brought to binary64 first. -/
theorem mul?_float {v : Value} {n : Num} {b : Float} (hn : v.asNum? = some n)
    (hb : n.toFloat? = .ok b) (q : Float) : v.mul? (.num (.float q)) = .ok (.num (.float (b * q))) := by
  unfold mul?
  rw [hn]
  cases n with
  | int m =>
    simp only [Num.toFloat?] at hb
    split_ifs at hb with hover
    cases hb
    simp only [asNum?, Num.mixable, hover, Bool.false_eq_true, ↓reduceIte]
    rfl
  | float x =>
    cases hb
    rfl

/-- The product of two binary64 numbers, as values. -/
theorem mul?_floats (x y : Float) :
    Value.mul? (.num (.float x)) (.num (.float y)) = .ok (.num (.float (x * y))) :=
  mul?_float rfl rfl y

end Value

/-! ## The stake of a batch -/

namespace Kelly

/-- The mean confidence-weighted edge of a batch, as its stake computes it: the left-to-right sum of
the weighted edges over their count. -/
def meanEdge (ws : List Float) : Num := (ws.map Num.float |> sumLeft) / (Num.int ws.length)

/-- The mean of any batch is a binary64 number: a true division always is. -/
theorem meanEdge_float (ws : List Float) : ∃ a, meanEdge ws = .float a := by
  unfold meanEdge
  generalize sumLeft (ws.map Num.float) = s
  cases s with
  | int m =>
    show ∃ a, Num.div (.int m) (.int ws.length) = .float a
    unfold Num.div
    dsimp only
    split_ifs
    · exact ⟨_, rfl⟩
    · exact ⟨_, rfl⟩
  | float x => exact ⟨_, rfl⟩

/-- A batch of opportunities that all convert has one weighted edge for each. -/
theorem weighted_ne_nil {o : Value} {os : List Value} {ws : List Float}
    (h : (o :: os).mapM Kelly.weightedEdge = .ok ws) : ws ≠ [] := by
  rw [List.mapM_cons] at h
  cases h1 : Kelly.weightedEdge o <;> cases h2 : os.mapM Kelly.weightedEdge <;>
    simp [h1, h2, bind, Except.bind, pure, Except.pure] at h
  rw [← h]
  exact List.cons_ne_nil _ _

/-- **The stake of a positive bankroll.** At any fraction with the sign bit clear and of at most
the magnitude of `0.25`, the stake of a positive finite bankroll `b`, rounded to cents, lies
between zero and a quarter of the bankroll rounded to cents: multiplying by `b` keeps the order of
the fractions, and so does rounding to cents. -/
theorem stake_mem {b q : Float} {mb : ℕ} {eb : ℤ} (hb : classify b = .finite ⟨false, mb, eb⟩)
    (hmb : 0 < mb) (hsq : signBit q = false) (hq : magnitude q ≤ magnitude 0.25) :
    0.0 ≤ Decimal.roundTo 2 (b * q) ∧ Decimal.roundTo 2 (b * q) ≤ Decimal.roundTo 2 (0.25 * b) := by
  obtain ⟨mq, eq, hcq, -⟩ := classify_of_lt_inf q (hq.trans_lt (by decide +kernel))
  rw [hsq] at hcq
  -- a quarter of the bankroll is at most the bankroll, so it is finite, and so is the stake
  have hquarter : magnitude (b * 0.25) < infMagnitude :=
    lt_of_le_of_lt (magnitude_mul_le hb classify_quarter (by rw [absValue_quarter]; norm_num))
      (classify_eq_finite hb).1
  have hmono : magnitude (b * q) ≤ magnitude (b * 0.25) :=
    magnitude_mul_le_mul hb hmb hcq classify_quarter hq
  obtain ⟨m₁, e₁, hc₁, -⟩ := classify_of_lt_inf (b * q) (hmono.trans_lt hquarter)
  obtain ⟨m₂, e₂, hc₂, -⟩ := classify_of_lt_inf (b * 0.25) hquarter
  rw [(mul_of_finite hb hcq).1] at hc₁
  rw [(mul_of_finite hb classify_quarter).1] at hc₂
  obtain ⟨hs₁, hm₁⟩ := Decimal.roundTo_bits hc₁ 2
  obtain ⟨hs₂, hm₂⟩ := Decimal.roundTo_bits hc₂ 2
  rw [float_mul_comm 0.25 b]
  exact ⟨le_of_magnitude_le (by decide +kernel) hm₁ (by decide +kernel) hs₁
      (by rw [show magnitude (0.0 : Float) = 0 by decide +kernel]; exact Nat.zero_le _),
    le_of_magnitude_le hm₁ hm₂ hs₁ hs₂ (Decimal.magnitude_roundTo_le hc₁ hc₂ hmono 2)⟩

/-- Nothing of a positive bankroll, rounded to cents, is `0.0`. -/
theorem roundTo_mul_zero {b : Float} {mb : ℕ} {eb : ℤ} (hb : classify b = .finite ⟨false, mb, eb⟩) :
    Decimal.roundTo 2 (b * 0.0) = 0.0 := by
  have hz : b * 0.0 = 0.0 := by
    apply ext_toBits
    apply UInt64.toNat_inj.1
    rw [mul_zero_toNat hb classify_zero_point rfl]
    show (false ^^ false).toNat * 2 ^ 63 = (0.0 : Float).toBits.toNat
    decide +kernel
  rw [hz]
  exact ext_toBits (by decide +kernel)

/-- A mean at or below zero, at quarter Kelly and scaled by a finite factor at or above zero, is not
a NaN and is at or below zero. -/
theorem key_scaled_nonpos {a c : Float} (ha : magnitude a < infMagnitude) (hmean : Num.float a ≤ 0)
    (hc : (Num.float c).isFinite = true) (hc0 : 0 ≤ Num.float c) :
    magnitude (a * 0.25 * c) ≤ infMagnitude ∧ key (a * 0.25 * c) ≤ 0 := by
  obtain ⟨ma, ea, hca, -⟩ := classify_of_lt_inf a ha
  obtain ⟨mc, ec, hcc, -⟩ := classify_of_lt_inf c ((Num.isFinite_float_iff c).1 hc)
  have hquarter := key_mul_nonpos hca classify_quarter ((Num.float_le_zero_iff hca).1 hmean)
    (by rw [key_quarter]; norm_num)
  -- a quarter of a finite mean is finite
  have hfin : magnitude (a * 0.25) < infMagnitude :=
    lt_of_le_of_lt (magnitude_mul_le hca classify_quarter (by rw [absValue_quarter]; norm_num)) ha
  obtain ⟨m, e, hcq, -⟩ := classify_of_lt_inf _ hfin
  exact key_mul_nonpos hcq hcc hquarter.2 ((Num.zero_le_float_iff hcc).1 hc0)

/-- What the stake `r` of a batch of opportunities is, for a bankroll `bankroll` of binary64 value
`b` whose opportunities weigh in at the edges `ws`, under the correlation factor `c`. -/
structure BatchStaked (bankroll : Value) (b : Float) (ws : List Float) (c r : Float) : Prop where
  /-- The stake is never below zero. -/
  nonneg : 0.0 ≤ r
  /-- Over a bankroll above zero, it is at most a quarter of the bankroll, rounded to cents. -/
  le_quarter : bankroll.le? (.int 0) = .ok false → r ≤ Decimal.roundTo 2 (0.25 * b)
  /-- No opportunities, a bankroll at or below zero, or a mean weighted edge that is not finite,
  stakes nothing. -/
  zero_of_skip : ws = [] ∨ bankroll.le? (.int 0) = .ok true ∨ (meanEdge ws).isFinite = false →
    r = 0.0
  /-- A mean weighted edge at or below zero stakes nothing under a finite factor at or above
  zero. -/
  zero_of_no_edge : meanEdge ws ≤ 0 → (Num.float c).isFinite = true → 0 ≤ Num.float c → r = 0.0

/-- **The stake of a batch.** For a bankroll the library finds finite, of binary64 value `b`, a
batch whose opportunities all convert, with weighted edges `ws`, and any binary64 correlation
factor `c`, NaN and the infinities included, the stake is a binary64 number at least zero; over a
bankroll above zero it is at most a quarter of the bankroll rounded to cents; it is zero for an
empty batch, a bankroll at or below zero, or a mean that is not finite, and for a mean at or below
zero under a finite factor at or above zero. -/
theorem batchStake_bounded {bankroll : Value} {b : Float} (hb : bankroll.toFloat? = .ok b)
    (hfin : bankroll.finite? = .ok true) {opps : List Value} {ws : List Float}
    (hw : opps.mapM Kelly.weightedEdge = .ok ws) (c : Float) :
    ∃ r, Kelly.batchStake bankroll (.list opps) (.num (.float c)) = .ok (.float r) ∧
      BatchStaked bankroll b ws c r := by
  obtain ⟨n, hn, hnb, hbinf⟩ := Value.finite_toFloat hb hfin
  have hle := Value.le?_int hn 0
  have hpos (h : bankroll.le? (.int 0) = .ok false) :
      ∃ mb eb, classify b = .finite ⟨false, mb, eb⟩ ∧ 0 < mb :=
    Num.pos_of_not_le_zero hnb hbinf (by rw [hle] at h; exact Except.ok.inj h)
  -- a skipped batch stakes `0.0`, which a positive bankroll's quarter is at least
  have hzero : BatchStaked bankroll b ws c 0.0 :=
    { nonneg := by decide +kernel
      le_quarter := fun h => by
        obtain ⟨mb, eb, hcb, hmb⟩ := hpos h
        have h0 := (stake_mem hcb hmb (by decide +kernel) le_rfl).1
        rwa [float_mul_comm] at h0
      zero_of_skip := fun _ => rfl
      zero_of_no_edge := fun _ _ _ => rfl }
  cases opps with
  | nil => exact ⟨0.0, rfl, hzero⟩
  | cons o os =>
    unfold Kelly.batchStake
    simp only [Value.items?, bind, Except.bind, pure, Except.pure, hw, List.isEmpty_cons, hle,
      Bool.false_eq_true, ↓reduceIte]
    rw [show sumLeft (ws.map Num.float) / Num.int ws.length = meanEdge ws from rfl]
    cases hp : n.le (.int 0)
    case true => exact ⟨0.0, rfl, hzero⟩
    obtain ⟨mb, eb, hcb, hmb⟩ := hpos (by rw [hle, hp])
    obtain ⟨a, ha⟩ := meanEdge_float ws
    rw [ha]
    cases hfa : (Num.float a).isFinite
    case false => exact ⟨0.0, rfl, hzero⟩
    -- a finite mean: the fraction is the clamp of the scaled mean
    have hna : ¬ (meanEdge ws).isFinite = false := by rw [ha, hfa]; decide
    simp only [Bool.not_true, Bool.false_eq_true, ↓reduceIte, Num.float_mul_quarter,
      Value.mul?_floats, Value.asNum?]
    have hskip : ¬ (ws = [] ∨ bankroll.le? (.int 0) = .ok true ∨ (meanEdge ws).isFinite = false) := by
      rintro (h | h | h)
      · exact weighted_ne_nil hw h
      · rw [hle, hp] at h
        cases h
      · exact hna h
    -- a mean at or below zero under a finite factor at or above zero scales to a fraction that is
    -- not a NaN and is at or below zero
    have hnoedge (hm : meanEdge ws ≤ 0) (hc : (Num.float c).isFinite = true) (hc0 : 0 ≤ Num.float c) :
        magnitude (a * 0.25 * c) ≤ infMagnitude ∧ key (a * 0.25 * c) ≤ 0 := by
      rw [ha] at hm
      exact key_scaled_nonpos ((Num.isFinite_float_iff a).1 hfa) hm hc hc0
    -- the clamped fraction is `0.0`, or one that such a mean cannot give
    obtain ⟨q, hcl, hsq, hq, hedge⟩ : ∃ q, clamp (0.0 : Num) 0.25 (.float (a * 0.25 * c)) = .float q ∧
        signBit q = false ∧ magnitude q ≤ magnitude 0.25 ∧
        (q = 0.0 ∨ ¬ (magnitude (a * 0.25 * c) ≤ infMagnitude ∧ key (a * 0.25 * c) ≤ 0)) := by
      rcases Num.clamp_quarter (a * 0.25 * c) with ⟨-, -, hcl⟩ | ⟨hcap, hcl⟩ | ⟨-, hk0, hk1, hcl⟩
      · exact ⟨0.0, hcl, by decide +kernel, by decide +kernel, .inl rfl⟩
      · -- a NaN or anything past the cap: the cap
        refine ⟨0.25, hcl, by decide +kernel, le_rfl, .inr fun ⟨hm, hk⟩ => ?_⟩
        rw [key_quarter] at hcap
        omega
      · -- strictly between: kept
        have hs := signBit_of_key_pos hk0
        refine ⟨_, hcl, hs, ?_, .inr fun ⟨_, hk⟩ => by omega⟩
        rw [key_of_signBit_false hs, key_quarter] at hk1
        rw [magnitude_quarter]
        omega
    -- that fraction of the bankroll, rounded to cents
    rw [hcl, Value.mul?_float hn hnb]
    have hmem := stake_mem hcb hmb hsq hq
    refine ⟨_, rfl, hmem.1, fun _ => hmem.2, fun h => absurd h hskip, fun hm hc hc0 => ?_⟩
    rcases hedge with rfl | hedge
    · exact roundTo_mul_zero hcb
    · exact absurd (hnoedge hm hc hc0) hedge

/-- A bankroll of `1000` and one opportunity of edge `-0.3` at full confidence, under the factor
`-1.0`: the factor is finite but below zero, so the stake is bounded but need not be zero. -/
theorem batchStake_bounded_under_negative_factor :
    let bankroll : Value := .num (.int 1000)
    let opps : List Value := [.obj [("edge", .float (-0.3)), ("confidence", .float 1.0)]]
    bankroll.toFloat? = .ok (Binary64.ofInt 1000) ∧ bankroll.finite? = .ok true ∧
      opps.mapM weightedEdge = .ok [-0.3 * 1.0] ∧
      ∃ r, batchStake bankroll (.list opps) (.num (.float (-1.0))) = .ok (.float r) ∧
        BatchStaked bankroll (Binary64.ofInt 1000) [-0.3 * 1.0] (-1.0) r := by
  intro bankroll opps
  have hb : bankroll.toFloat? = .ok (Binary64.ofInt 1000) := rfl
  have hfin : bankroll.finite? = .ok true := rfl
  have hw : opps.mapM weightedEdge = .ok [-0.3 * 1.0] := rfl
  exact ⟨hb, hfin, hw, batchStake_bounded hb hfin hw (-1.0)⟩

end Kelly

end TradeDesk
