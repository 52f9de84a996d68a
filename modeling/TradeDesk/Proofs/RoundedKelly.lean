import Mathlib
import TradeDesk.Proofs.FloatDiv
import TradeDesk.Proofs.RoundedSizing

/-!
# The base fraction in binary64 grows with the edge and the probability

The Kelly term `p - (1 - p) / (e / (1 - p))` is computed in binary64, each operation rounded. For
a positive edge and a probability in `[0, 1)`, raising either never lowers it
(`kellyTerm_key_le`), one operation at a time:

* one less the probability is positive and falls as the probability grows, since a binary64 value
  below one is at most `1 - 2^-53` (`value_le_one_sub_ulp`, `one_sub_pos`);
* the odds `e / (1 - p)` are a correctly rounded quotient at least the edge, and grow
  (`odds_key_le`);
* the quotient `(1 - p) / odds` falls, and is a zero where the odds overflowed to `+∞`
  (`quotient_key_anti`);
* the difference grows, and is `-∞` where that quotient overflowed (`sub_key_le`).

Held to `[0, 1]`, which keeps the order of all values but NaNs (`Num.clamp_unit_le`), and scaled by
the multiplier, the base fraction keeps the order (`Kelly.fraction_le_binary64`), and so does the
recommended fraction, the same factors damping both (`Ledger.size_kelly_le_of_base_binary64`).
-/

namespace TradeDesk

namespace Binary64

open Float.Model

variable {e e' p p' u u' b b' t t' : Float} {be be' bp bp' bu bu' : Binary64}

/-! ## One less the probability -/

/-- Below one, a binary64 value is at most `1 - 2^-53`: from `2^-53` up its significand counts
units of `2^-53`, fewer than `2^53` of them, and below that unit it is below a half. -/
theorem value_le_one_sub_ulp (hx : classify p = .finite bp) (h1 : value bp < 1) :
    value bp ≤ 1 - 2 ^ (-53 : ℤ) := by
  obtain ⟨-, -, hc, -⟩ := classify_eq_finite hx
  unfold value at h1 ⊢
  split_ifs at h1 ⊢
  · linarith [absValue_nonneg bp, (by norm_num : (2 : ℚ) ^ (-53 : ℤ) ≤ 1)]
  unfold absValue at h1 ⊢
  by_cases he : -53 ≤ bp.exp
  · -- a whole number of units `2^-53`, fewer than `2^53`
    obtain ⟨j, hj⟩ : ∃ j : ℕ, bp.exp = -53 + j := ⟨(bp.exp + 53).toNat, by omega⟩
    have hv : (bp.mant : ℚ) * 2 ^ bp.exp = ((bp.mant * 2 ^ j : ℕ) : ℚ) / 2 ^ 53 := by
      rw [hj, zpow_add₀ two_ne_zero, zpow_natCast,
        show (2 : ℚ) ^ (-53 : ℤ) = 1 / 2 ^ 53 by norm_num]
      push_cast
      ring
    rw [hv, div_lt_one (by positivity)] at h1
    rw [hv]
    have hn : bp.mant * 2 ^ j + 1 ≤ 2 ^ 53 := by exact_mod_cast h1
    have hq : ((bp.mant * 2 ^ j : ℕ) : ℚ) + 1 ≤ 2 ^ 53 := by exact_mod_cast hn
    calc ((bp.mant * 2 ^ j : ℕ) : ℚ) / 2 ^ 53 ≤ (2 ^ 53 - 1) / 2 ^ 53 := by gcongr; linarith
      _ = 1 - 2 ^ (-53 : ℤ) := by norm_num
  · -- below one unit `2^-53`: under a half
    have hm : (bp.mant : ℚ) ≤ 2 ^ 53 := by exact_mod_cast hc.lt.le
    calc (bp.mant : ℚ) * 2 ^ bp.exp ≤ 2 ^ 53 * 2 ^ (-54 : ℤ) := by
          gcongr
          · norm_num
          · omega
      _ ≤ 1 - 2 ^ (-53 : ℤ) := by norm_num

/-- One less a binary64 value of `[0, 1)` is in the unit interval and positive: the exact difference
is at least `2^-53`, which rounds to itself. -/
theorem one_sub_pos (hx : InUnit p) (h1 : toRat p < 1) :
    InUnit (nearest false 10 10 - p) ∧ 0 < toRat (nearest false 10 10 - p) := by
  obtain ⟨bp, hp⟩ := hx.finite
  have hulp := value_le_one_sub_ulp hp (toRat_of_classify hp ▸ h1)
  have hw := RoundsTo.nearest false 1 (by norm_num : 0 < Nat.pow 2 53)
  rw [if_neg Bool.false_ne_true] at hw
  have hq : ((1 : ℕ) : ℚ) / (Nat.pow 2 53 : ℕ) ≤ 1 - toRat p := by
    rw [toRat_of_classify hp]
    norm_num [Nat.pow_eq] at hulp ⊢
    linarith
  have hkey := hw.key_le hx.roundsTo_one_sub hq
  have hw0 : 0 < key (nearest false 1 (Nat.pow 2 53)) := by decide
  obtain ⟨bu, hu, hu0, hu1⟩ := hx.one_sub
  refine ⟨⟨bu, hu, hu0, hu1⟩, ?_⟩
  rw [toRat_of_classify hu]
  exact (key_pos_iff hu).1 (hw0.trans_le hkey)

/-! ## The odds and the quotient -/

/-- A quotient by a finite value above zero is correctly rounded. -/
theorem RoundsTo.div_of_pos (hx : classify e = .finite be) (hy : classify u = .finite bu)
    (h : 0 < value bu) : RoundsTo (e / u) (value be / value bu) :=
  RoundsTo.div hx hy (neg_mant_of_value_pos h).2

/-- The odds `e / (1 - p)` of a positive edge grow with the edge and as one less the probability
falls, lie above zero (at least the edge, since `1 - p ≤ 1`), and are not NaNs. -/
theorem odds_key_le (he : classify e = .finite be) (he' : classify e' = .finite be')
    (hu : classify u = .finite bu) (hu' : classify u' = .finite bu') (he0 : 0 < value be)
    (hee : value be ≤ value be') (hu0 : 0 < value bu') (huu : value bu' ≤ value bu)
    (hu1 : value bu ≤ 1) :
    0 < key (e / u) ∧ key (e / u) ≤ key (e' / u') ∧ magnitude (e / u) ≤ infMagnitude ∧
      magnitude (e' / u') ≤ infMagnitude := by
  have hb := RoundsTo.div_of_pos he hu (hu0.trans_le huu)
  have hb' := RoundsTo.div_of_pos he' hu' hu0
  have hge : value be ≤ value be / value bu := le_div_self he0.le (hu0.trans_le huu) hu1
  refine ⟨((key_pos_iff he).2 he0).trans_le ((RoundsTo.of_classify he).key_le hb hge), ?_,
    hb.magnitude_le, hb'.magnitude_le⟩
  exact hb.key_le hb' (div_le_div₀ (he0.le.trans hee) hee hu0 huu)

/-- A value above zero that is not a NaN is a finite value above zero or `+∞`. -/
theorem pos_cases (hb : magnitude b ≤ infMagnitude) (hb0 : 0 < key b) :
    (∃ bb, classify b = .finite bb ∧ 0 < value bb) ∨ classify b = .inf false := by
  rcases hc : classify b with bb | s | -
  · exact .inl ⟨bb, rfl, (key_pos_iff hc).1 hb0⟩
  · -- `-∞` has the least key
    cases s
    · exact .inr rfl
    · rw [key_of_classify_inf hc, if_pos rfl] at hb0
      omega
  · exact absurd hb (not_le.2 (magnitude_of_classify_nan hc))

/-- A finite value above zero over `+∞` is `+0`. -/
theorem div_pos_inf (hu : classify u = .finite bu) (hu0 : 0 < value bu)
    (hb : classify b = .inf false) : key (u / b) = 0 ∧ magnitude (u / b) = 0 := by
  have hbits : (u / b).toBits.toNat = false.toNat * 2 ^ 63 + 0 := by
    rw [div_inf_toNat hu hb, (neg_mant_of_value_pos hu0).1]
    rfl
  obtain ⟨hs, hm⟩ := signBit_magnitude_of_toNat hbits (by decide)
  rw [key_of_signBit_false hs, hm]
  exact ⟨rfl, rfl⟩

/-- A finite value above zero over a value above zero that is not a NaN is at least zero and not a
NaN: a correctly rounded quotient, or a zero over `+∞`. -/
theorem div_key_nonneg (hu : classify u = .finite bu) (hu0 : 0 < value bu)
    (hb : magnitude b ≤ infMagnitude) (hb0 : 0 < key b) :
    0 ≤ key (u / b) ∧ magnitude (u / b) ≤ infMagnitude := by
  rcases pos_cases hb hb0 with ⟨bb, hbb, hbb0⟩ | hinf
  · have ht := RoundsTo.div_of_pos hu hbb hbb0
    rw [ht.key_eq_magnitude (div_pos hu0 hbb0).le]
    exact ⟨Nat.cast_nonneg _, ht.magnitude_le⟩
  · obtain ⟨hk, hm⟩ := div_pos_inf hu hu0 hinf
    rw [hk, hm]
    exact ⟨le_rfl, Nat.zero_le _⟩

/-- The quotient `(1 - p) / odds` falls as the odds grow and as one less the probability falls; it
is at least zero, and `+0` where the larger odds overflowed to `+∞`. -/
theorem quotient_key_anti (hu : classify u = .finite bu) (hu' : classify u' = .finite bu')
    (hu0 : 0 < value bu') (huu : value bu' ≤ value bu) (hb : magnitude b ≤ infMagnitude)
    (hb' : magnitude b' ≤ infMagnitude) (hb0 : 0 < key b) (hbb : key b ≤ key b') :
    0 ≤ key (u' / b') ∧ key (u' / b') ≤ key (u / b) ∧ magnitude (u / b) ≤ infMagnitude ∧
      magnitude (u' / b') ≤ infMagnitude := by
  obtain ⟨ht0, ht⟩ := div_key_nonneg hu (hu0.trans_le huu) hb hb0
  obtain ⟨ht0', ht'⟩ := div_key_nonneg hu' hu0 hb' (hb0.trans_le hbb)
  refine ⟨ht0', ?_, ht, ht'⟩
  rcases pos_cases hb' (hb0.trans_le hbb) with ⟨bb', hbb', hbb0'⟩ | hinf
  · -- finite odds on both sides: two correctly rounded quotients
    obtain ⟨bb, hcb⟩ := finite_of_key_le_key hb classify_zero hbb' (key_zero ▸ hb0.le) hbb
    have hbb0 : 0 < value bb := (key_pos_iff hcb).1 hb0
    have hq := RoundsTo.div_of_pos hu hcb hbb0
    have hq' := RoundsTo.div_of_pos hu' hbb' hbb0'
    exact hq'.key_le hq (div_le_div₀ (hu0.le.trans huu) huu hbb0
      ((key_le_iff_value_le hcb hbb').1 hbb))
  · -- the larger odds overflowed: their quotient is `+0`
    rw [(div_pos_inf hu' hu0 hinf).1]
    exact ht0

/-! ## The difference -/

/-- A finite value less `+∞` is `-∞`. -/
theorem sub_pos_inf (hp : classify p = .finite bp) (ht : classify t = .inf false) :
    key (p - t) = -(infMagnitude : ℤ) ∧ magnitude (p - t) = infMagnitude := by
  obtain ⟨hs, hm⟩ := signBit_magnitude_of_toNat (sub_inf_toNat hp ht) infMagnitude_lt
  rw [key_of_signBit_true hs, hm]
  exact ⟨rfl, rfl⟩

/-- A finite value less a value at least zero that is not a NaN is not a NaN. -/
theorem sub_magnitude_le (hp : classify p = .finite bp) (ht : magnitude t ≤ infMagnitude)
    (ht0 : 0 ≤ key t) : magnitude (p - t) ≤ infMagnitude := by
  rcases ht0.lt_or_eq with ht0 | ht0
  · rcases pos_cases ht ht0 with ⟨bt, hbt, -⟩ | hinf
    · exact (RoundsTo.sub hp hbt).magnitude_le
    · exact (sub_pos_inf hp hinf).2.le
  · -- a key of zero is a zero, which is finite
    rcases hc : classify t with bt | s | -
    · exact (RoundsTo.sub hp hc).magnitude_le
    · rw [key_of_classify_inf hc] at ht0
      split_ifs at ht0 <;> simp [infMagnitude] at ht0
    · exact absurd ht (not_le.2 (magnitude_of_classify_nan hc))

/-- The difference `p - q` grows with `p` and as `q` falls, for finite `p` and `q` at least zero
and not a NaN; where the larger `q` overflowed to `+∞` it is `-∞`, below everything. -/
theorem sub_key_le (hp : classify p = .finite bp) (hp' : classify p' = .finite bp')
    (hpp : value bp ≤ value bp') (ht : magnitude t ≤ infMagnitude)
    (ht' : magnitude t' ≤ infMagnitude) (ht0 : 0 ≤ key t') (htt : key t' ≤ key t) :
    key (p - t) ≤ key (p' - t') ∧ magnitude (p - t) ≤ infMagnitude ∧
      magnitude (p' - t') ≤ infMagnitude := by
  have hg := sub_magnitude_le hp ht (ht0.trans htt)
  have hg' := sub_magnitude_le hp' ht' ht0
  refine ⟨?_, hg, hg'⟩
  rcases hc : classify t with bt | s | -
  · -- finite on both sides: two correctly rounded differences
    obtain ⟨bt', hbt'⟩ := finite_of_key_le_key ht' classify_zero hc (key_zero ▸ ht0) htt
    exact (RoundsTo.sub hp hc).key_le (RoundsTo.sub hp' hbt')
      (sub_le_sub hpp ((key_le_iff_value_le hbt' hc).1 htt))
  · cases s
    · rw [(sub_pos_inf hp hc).1]
      have := neg_magnitude_le_key (p' - t')
      omega
    · -- `-∞` lies below a key at least zero
      rw [key_of_classify_inf hc, if_pos rfl] at htt
      have : 0 < infMagnitude := by unfold infMagnitude; omega
      omega
  · exact absurd ht (not_le.2 (magnitude_of_classify_nan hc))

/-- **The Kelly term is monotone in binary64.** For a positive finite edge and finite
probabilities in `[0, 1)`, raising the edge or the probability never lowers
`p - (1 - p) / (e / (1 - p))` computed in binary64, and neither side is a NaN. -/
theorem kellyTerm_key_le (he : classify e = .finite be) (he' : classify e' = .finite be')
    (hp : classify p = .finite bp) (hp' : classify p' = .finite bp') (he0 : 0 < value be)
    (hee : value be ≤ value be') (hp0 : 0 ≤ value bp) (hpp : value bp ≤ value bp')
    (hp1 : value bp' < 1) :
    key (p - (nearest false 10 10 - p) / (e / (nearest false 10 10 - p))) ≤
        key (p' - (nearest false 10 10 - p') / (e' / (nearest false 10 10 - p'))) ∧
      magnitude (p - (nearest false 10 10 - p) / (e / (nearest false 10 10 - p))) ≤ infMagnitude ∧
      magnitude (p' - (nearest false 10 10 - p') / (e' / (nearest false 10 10 - p'))) ≤
        infMagnitude := by
  have hx : InUnit p := ⟨bp, hp, hp0, hpp.trans hp1.le⟩
  have hx' : InUnit p' := ⟨bp', hp', hp0.trans hpp, hp1.le⟩
  -- one less each probability: positive, and the larger probability's is the smaller
  obtain ⟨⟨bu, hu, -, hu1⟩, -⟩ := one_sub_pos hx (by rw [toRat_of_classify hp]; linarith)
  obtain ⟨⟨bu', hu', -, -⟩, hu0⟩ := one_sub_pos hx' (by rw [toRat_of_classify hp']; exact hp1)
  rw [toRat_of_classify hu'] at hu0
  have huu : value bu' ≤ value bu := by
    have h := toRat_one_sub_anti hx hx' (by rw [toRat_of_classify hp, toRat_of_classify hp']; exact hpp)
    rwa [toRat_of_classify hu, toRat_of_classify hu'] at h
  obtain ⟨hb0, hbb, hb, hb'⟩ := odds_key_le he he' hu hu' he0 hee hu0 huu hu1
  obtain ⟨ht0, htt, ht, ht'⟩ := quotient_key_anti hu hu' hu0 huu hb hb' hb0 hbb
  exact sub_key_le hp hp' hpp ht ht' ht0 htt

end Binary64

namespace Num

open Binary64

/-- Binary64 values that are not NaNs are ordered as numbers by their keys. -/
theorem float_lt_float_iff {x y : Float} (hx : magnitude x ≤ infMagnitude)
    (hy : magnitude y ≤ infMagnitude) : Num.float x < .float y ↔ key x < key y := by
  show (Num.float x).lt (.float y) = true ↔ _
  rw [lt, order_float_float hx hy]
  simp [compare_lt_iff_lt]

/-- Held to `[0, 1]`, a binary64 value that is not a NaN becomes zero, itself or one: the one whose
key is its own held between the keys of zero and one. -/
theorem clamp_unit_key {g : Float} (hg : magnitude g ≤ infMagnitude) :
    ∃ w, Numeric.clamp (0.0 : Num) 1.0 (.float g) = .float w ∧
      key w = max 0 (min (key (nearest false 10 10)) (key g)) := by
  have h0 := magnitude_le_of_classify classify_zero
  have h1 := magnitude_le_of_classify classify_one
  have h01 : key (nearest false 0 10) < key (nearest false 10 10) := by decide
  have hk0 := key_zero
  show ∃ w, Numeric.clamp (Num.float (nearest false 0 10)) (.float (nearest false 10 10)) (.float g) =
    .float w ∧ _
  unfold Numeric.clamp Numeric.larger Numeric.smaller
  -- first against one, then against zero
  split_ifs with hs hl hl
  · have := (float_lt_float_iff hg h1).1 hs
    have := (float_lt_float_iff h0 hg).1 hl
    exact ⟨g, rfl, by omega⟩
  · have := (float_lt_float_iff hg h1).1 hs
    have := mt (float_lt_float_iff h0 hg).2 hl
    exact ⟨_, rfl, by omega⟩
  · have := mt (float_lt_float_iff hg h1).2 hs
    exact ⟨_, rfl, by omega⟩
  · exact absurd ((float_lt_float_iff h0 h1).2 h01) hl

/-- Held to `[0, 1]`, binary64 values that are not NaNs keep their order. -/
theorem clamp_unit_le {g g' : Float} (hg : magnitude g ≤ infMagnitude)
    (hg' : magnitude g' ≤ infMagnitude) (h : key g ≤ key g') :
    (Numeric.clamp (0.0 : Num) 1.0 (.float g)).toRat ≤
      (Numeric.clamp (0.0 : Num) 1.0 (.float g')).toRat := by
  obtain ⟨w, hw, hk⟩ := clamp_unit_key hg
  obtain ⟨w', hw', hk'⟩ := clamp_unit_key hg'
  obtain ⟨x, hx, bx, hbx, -⟩ := inUnit_clamp_unit g
  obtain ⟨x', hx', bx', hbx', -⟩ := inUnit_clamp_unit g'
  rw [hw] at hx ⊢
  rw [hw'] at hx' ⊢
  cases hx
  cases hx'
  rw [toRat_float hbx, toRat_float hbx']
  exact (key_le_iff_value_le hbx hbx').1 (by omega)

end Num

namespace Kelly

open Binary64

/-- The stake rule on binary64 values: the Kelly term is computed in binary64. -/
theorem stake_float (xe xp : Float) : stake (Num.float xe) (Num.float xp) =
    if (1.0 : Num) ≤ .float xp then .whole
    else if (Num.float xe ≤ 0 || Num.float xp ≤ 0) then .nothing
    else .part (Numeric.clamp 0.0 1.0 (.float (xp - (nearest false 10 10 - xp) /
      (xe / (nearest false 10 10 - xp))))) := rfl

/-- **The base fraction grows with the edge and the probability, in binary64.** For finite binary64
edges and probabilities in `[0, 1)`, and a multiplier in the unit interval, raising the edge and the
probability never lowers the Kelly fraction: no edge or no chance stakes nothing, which is the
least, and otherwise the Kelly term grows, is held to `[0, 1]` and is scaled by the same
multiplier. -/
theorem fraction_le_binary64 {m : Num} (hm : m.InUnit) {e e' p p' : Num} (he : e.FiniteFloat)
    (he' : e'.FiniteFloat) (hp : p.FiniteFloat) (hp' : p'.FiniteFloat) (hee : e.toRat ≤ e'.toRat)
    (hp0 : 0 ≤ p.toRat) (hpp : p.toRat ≤ p'.toRat) (hp1 : p'.toRat < 1) :
    (fraction e p m).toRat ≤ (fraction e' p' m).toRat := by
  have hR := (fraction_inUnit hm e' p').1.toRat_mem.1
  obtain ⟨xe, be, rfl, hbe⟩ := he
  obtain ⟨xe', be', rfl, hbe'⟩ := he'
  obtain ⟨xp, bp, rfl, hbp⟩ := hp
  obtain ⟨xp', bp', rfl, hbp'⟩ := hp'
  rw [Num.toRat_float hbe, Num.toRat_float hbe'] at hee
  rw [Num.toRat_float hbp] at hp0
  rw [Num.toRat_float hbp, Num.toRat_float hbp'] at hpp
  rw [Num.toRat_float hbp'] at hp1
  -- the rule's two tests, read off the exact values
  have huncertain {z : Float} {bz : Binary64} (hz : classify z = .finite bz) (h1 : value bz < 1) :
      ¬ (1.0 : Num) ≤ .float z := by
    rw [Num.le_iff_toRat_le rfl (Num.isFinite_float.2 ⟨bz, hz⟩), Num.toRat_one_point,
      Num.toRat_float hz]
    exact not_le.2 h1
  have hnothing {z w : Float} {bz bw : Binary64} (hz : classify z = .finite bz)
      (hw : classify w = .finite bw) :
      (Num.float z ≤ 0 || Num.float w ≤ 0) = true ↔ value bz ≤ 0 ∨ value bw ≤ 0 := by
    simp only [Bool.or_eq_true, decide_eq_true_eq]
    rw [Num.le_iff_toRat_le (Num.isFinite_float.2 ⟨bz, hz⟩) rfl,
      Num.le_iff_toRat_le (Num.isFinite_float.2 ⟨bw, hw⟩) rfl, Num.toRat_float hz,
      Num.toRat_float hw, Num.toRat_int_zero]
  have hw := huncertain hbp (hpp.trans_lt hp1)
  have hw' := huncertain hbp' hp1
  unfold fraction
  by_cases hz : (Num.float xe ≤ 0 || Num.float xp ≤ 0) = true
  · -- no edge or no chance: nothing, the least fraction
    rw [stake_float, if_neg hw, if_pos hz]
    show (0.0 : Num).toRat ≤ _
    rwa [Num.toRat_zero_point]
  -- an edge and a chance: so too for the larger edge and probability
  have hpos : 0 < value be ∧ 0 < value bp := by
    have h := (hnothing hbe hbp).not.1 hz
    rwa [not_or, not_le, not_le] at h
  have hz' : ¬ (Num.float xe' ≤ 0 || Num.float xp' ≤ 0) = true := fun h => by
    rcases (hnothing hbe' hbp').1 h with h | h <;> linarith
  rw [stake_float, stake_float, if_neg hw, if_neg hw', if_neg hz, if_neg hz']
  obtain ⟨hk, hg, hg'⟩ := kellyTerm_key_le hbe hbe' hbp hbp' hpos.1 hee hp0 hpp hp1
  exact Num.toRat_mul_le_mul (Num.inUnit_clamp_unit _) (Num.inUnit_clamp_unit _) hm hm
    (Num.clamp_unit_le hg hg' hk) le_rfl

end Kelly

namespace Ledger

variable {cfg : SizingConfig Num}

/-- At one session, a larger base fraction in binary64 never gives a smaller recommended fraction:
the same factors of the unit interval damp both, and the same band holds them. -/
theorem size_kelly_le_of_base_binary64 (hc : cfg.Checked) (l : Ledger Num) {e e' p p' : Num}
    {notes notes' : List (Note Num)}
    (h : (l.size cfg e p notes).base.toRat ≤ (l.size cfg e' p' notes').base.toRat) :
    (l.size cfg e p notes).kelly ≤ (l.size cfg e' p' notes').kelly :=
  size_kelly_le_of_damped hc e p notes ((Num.FactorsBelow.refl (dampers_inUnit hc l)).foldl_le
    (size_base_binary64 hc e p notes l).1 (size_base_binary64 hc e' p' notes' l).1 h)

end Ledger

end TradeDesk
