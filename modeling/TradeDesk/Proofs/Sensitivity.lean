import Mathlib
import TradeDesk.Proofs.Stake
import TradeDesk.Proofs.RoundedKelly

/-!
# How a recommendation moves with its inputs and with the session

`Ledger.size` reads four things of the session: the drawdown, the losing streak, the number of
trades in the window and the bankroll. Read in exact arithmetic, under a configuration that passes
validation:

* The product of the dampers is the drawdown guard's factor times the streak's times the thin
  history's, each `1` when its damper does not apply (`damping_rat`). The guard's factor never
  rises with the drawdown, the streak's never with the streak, and the history's never falls with
  the history; all lie in `[0, 1]`. So a session in more distress (a deeper drawdown, a longer
  losing streak, a shorter history) never gets a larger fraction, confidence or position, and a
  smaller bankroll never a larger position (`size_le_of_distress`). The same holds in binary64,
  for any drawdowns in `[0, 1]` and any bankrolls: the session in more distress is damped by the
  same factors, each no larger, and perhaps more (`Ledger.dampers_below`), and rounding keeps the
  order of products of values in the unit interval (`Proofs/RoundedSizing`).

* The inputs: a finite edge is sanitised to `max 0 e` and a finite probability below one to
  `max 0 p`, while every `p ≥ 1` becomes `1 - 1e-6`. That value lies below the probabilities of the
  band `(1 - 1e-6, 1)`, which pass unchanged. So the sanitiser keeps the order of two probabilities
  exactly when they do not straddle the band and one (`sanitizeProbability_le_iff`), and so it does
  in binary64, where the band starts at the binary64 value of `1 - 1e-6`
  (`sanitizeProbability_le_iff_binary64`). Off the band the base fraction and the recommended
  fraction never fall as the edge or the probability grows (`calculate_mono`), in exact arithmetic
  and in binary64, where each step of the Kelly term is rounded (`Proofs/RoundedKelly`); across the
  band they can (`calculate_base_drops_across_band`).

`Sizer.calculate_of_finite` ties `Ledger.calculate` to the session's own call on finite inputs.
-/

namespace TradeDesk

/-- On finite inputs the session's recommendation is the ledger's, for their binary64 values. -/
theorem Sizer.calculate_of_finite (s : Sizer) {edge p : Value} {x y : Float}
    (hx : Sizer.finiteValue? edge = .ok (some x)) (hy : Sizer.finiteValue? p = .ok (some y)) :
    s.calculate edge p = .ok (s.ledger.calculate s.config (.float x) (.float y)) := by
  simp only [Sizer.calculate, Sizer.sanitize, hx, hy, Ledger.calculate]
  rfl

namespace Ledger

open Numeric

/-! ## The session's side: the dampers -/

section Dampers

variable (cfg : SizingConfig ℚ)

/-- The drawdown guard's factor: the reduction beyond the maximum drawdown, one otherwise. -/
def guardFactor (d : ℚ) : ℚ := if cfg.maxDrawdown < d then cfg.drawdownReduction else 1

/-- The losing streak's factor: `0.9` for each loss beyond two, but at least a half. -/
def streakFactor (streak : Nat) : ℚ :=
  if 2 < streak then max (1 / 2) ((9 / 10 : ℚ) ^ (streak - 2)) else 1

/-- A thin history's factor: its share of a full history. -/
def historyFactor (n : Nat) : ℚ := if n < cfg.lookback then (n : ℚ) / cfg.lookback else 1

/-- The product of the dampers' factors, one damper at a time. -/
theorem damping_rat (l : Ledger ℚ) : ((l.dampers cfg).map (·.1.multiplier)).prod =
    guardFactor cfg l.drawdown * streakFactor l.lossStreak * historyFactor cfg l.window.size := by
  unfold dampers guardFactor streakFactor historyFactor
  split_ifs <;> norm_num [mul_assoc]

variable {cfg} (hcfg : cfg.Valid)
include hcfg

theorem guardFactor_nonneg (d : ℚ) : 0 ≤ guardFactor cfg d := by
  unfold guardFactor
  split_ifs
  · exact hcfg.reduction_pos.le
  · exact zero_le_one

/-- A deeper drawdown never raises the guard's factor: crossing the limit multiplies by the
reduction, which is at most one. -/
theorem guardFactor_anti {d d' : ℚ} (h : d ≤ d') : guardFactor cfg d' ≤ guardFactor cfg d := by
  unfold guardFactor
  by_cases hd : cfg.maxDrawdown < d
  · rw [if_pos hd, if_pos (hd.trans_le h)]
  · rw [if_neg hd]
    split_ifs
    · exact hcfg.reduction_le_one
    · exact le_rfl

omit hcfg in
theorem historyFactor_nonneg (n : Nat) : 0 ≤ historyFactor cfg n := by
  unfold historyFactor
  split_ifs
  · positivity
  · exact zero_le_one

/-- A longer history never lowers its factor: the share grows with the history and reaches one
with a full history. -/
theorem historyFactor_mono {n n' : Nat} (h : n ≤ n') : historyFactor cfg n ≤ historyFactor cfg n' := by
  have hl : (0 : ℚ) < cfg.lookback := by exact_mod_cast hcfg.lookback_pos
  unfold historyFactor
  by_cases hn' : n' < cfg.lookback
  · rw [if_pos hn', if_pos (h.trans_lt hn')]
    exact div_le_div_of_nonneg_right (by exact_mod_cast h) hl.le
  · rw [if_neg hn']
    split_ifs with hn
    · exact (div_le_one hl).2 (by exact_mod_cast hn.le)
    · exact le_rfl

omit hcfg in
theorem streakFactor_nonneg (streak : Nat) : 0 ≤ streakFactor streak := by
  unfold streakFactor
  split_ifs
  · exact le_max_of_le_left (by norm_num)
  · exact zero_le_one

omit hcfg in
/-- A longer losing streak never raises its factor: each loss beyond two multiplies by `0.9`, and
the floor of a half is below one. -/
theorem streakFactor_anti {k k' : Nat} (h : k ≤ k') : streakFactor k' ≤ streakFactor k := by
  unfold streakFactor
  by_cases hk : 2 < k
  · rw [if_pos hk, if_pos (hk.trans_le h)]
    have hpow : (9 / 10 : ℚ) ^ (k' - 2) ≤ (9 / 10) ^ (k - 2) :=
      pow_le_pow_of_le_one (by norm_num) (by norm_num) (by omega)
    exact max_le_max le_rfl hpow
  · rw [if_neg hk]
    split_ifs
    · exact max_le (by norm_num) (pow_le_one₀ (by norm_num) (by norm_num))
    · exact le_rfl

/-- The product of the dampers never rises with the drawdown or the streak and never falls with
the history. -/
theorem damping_anti {l l' : Ledger ℚ} (hd : l.drawdown ≤ l'.drawdown)
    (hk : l.lossStreak ≤ l'.lossStreak) (hn : l'.window.size ≤ l.window.size) :
    ((l'.dampers cfg).map (·.1.multiplier)).prod ≤ ((l.dampers cfg).map (·.1.multiplier)).prod := by
  rw [damping_rat, damping_rat]
  have hgs : guardFactor cfg l'.drawdown * streakFactor l'.lossStreak ≤
      guardFactor cfg l.drawdown * streakFactor l.lossStreak :=
    mul_le_mul (guardFactor_anti hcfg hd) (streakFactor_anti hk) (streakFactor_nonneg _)
      (guardFactor_nonneg hcfg _)
  exact mul_le_mul hgs (historyFactor_mono hcfg hn) (historyFactor_nonneg _)
    (mul_nonneg (guardFactor_nonneg hcfg _) (streakFactor_nonneg _))

end Dampers

/-! ## The recommendation -/

variable {cfg : SizingConfig ℚ} (hcfg : cfg.Valid)
include hcfg

omit hcfg in
/-- The band `[minKelly, maxKelly]` keeps the order of what it holds. -/
theorem band_le {x y : ℚ} (h : x ≤ y) :
    max cfg.minKelly (min cfg.maxKelly x) ≤ max cfg.minKelly (min cfg.maxKelly y) :=
  max_le_max le_rfl (min_le_min_left _ h)

/-- At one session, a larger base fraction never gives a smaller recommended fraction: both are
damped by the same non-negative product, then held to the band. -/
theorem size_kelly_le_of_base (l : Ledger ℚ) {e e' p p' : ℚ} {notes notes' : List (Note ℚ)}
    (h : Kelly.fraction e p cfg.baseMultiplier ≤ Kelly.fraction e' p' cfg.baseMultiplier) :
    (l.size cfg e p notes).kelly ≤ (l.size cfg e' p' notes').kelly := by
  rw [size_kelly, size_kelly]
  exact band_le (mul_le_mul_of_nonneg_right h (dampers_prod_mem cfg l hcfg).1)

/-- A session in more distress never gets a larger fraction: the base is the same, and the
product of the dampers is smaller. -/
theorem size_kelly_anti (e p : ℚ) (notes : List (Note ℚ)) {l l' : Ledger ℚ}
    (hd : l.drawdown ≤ l'.drawdown) (hk : l.lossStreak ≤ l'.lossStreak)
    (hn : l'.window.size ≤ l.window.size) :
    (l'.size cfg e p notes).kelly ≤ (l.size cfg e p notes).kelly := by
  have hbase : 0 ≤ Kelly.fraction e p cfg.baseMultiplier :=
    (Kelly.fraction_mem e p _ hcfg.base_pos.le).1
  rw [size_kelly, size_kelly]
  exact band_le (mul_le_mul_of_nonneg_left (damping_anti hcfg hd hk hn) hbase)

/-- A session in more distress never gets a larger confidence: the product of the dampers, which
lies in `[0, 1]`, is smaller, and so is one less the drawdown. -/
theorem size_confidence_anti (e p : ℚ) (notes : List (Note ℚ)) {l l' : Ledger ℚ}
    (hd0 : 0 ≤ l.drawdown) (hd : l.drawdown ≤ l'.drawdown) (hd1 : l'.drawdown ≤ 1)
    (hk : l.lossStreak ≤ l'.lossStreak) (hn : l'.window.size ≤ l.window.size) :
    (l'.size cfg e p notes).confidence ≤ (l.size cfg e p notes).confidence := by
  have hm := dampers_prod_mem cfg l hcfg
  have hm' := dampers_prod_mem cfg l' hcfg
  rw [size_confidence cfg l' e p notes (hd0.trans hd), size_confidence cfg l e p notes hd0,
    max_eq_right hm.1, min_eq_right hm.2, max_eq_right hm'.1, min_eq_right hm'.2]
  exact mul_le_mul (damping_anti hcfg hd hk hn) (by linarith) (by linarith) hm.1

/-- The recommended fraction is at least the band's floor, which is positive. -/
theorem size_kelly_pos (l : Ledger ℚ) (e p : ℚ) (notes : List (Note ℚ)) :
    0 < (l.size cfg e p notes).kelly := by
  rw [size_kelly]
  exact hcfg.minKelly_pos.trans_le (le_max_left _ _)

/-- A smaller fraction of a smaller bankroll is a smaller position: the position is the fraction of
a positive bankroll and nothing otherwise, and the fraction is positive. -/
theorem size_position_le {l l' : Ledger ℚ} {e e' p p' : ℚ} {notes notes' : List (Note ℚ)}
    (hkelly : (l'.size cfg e' p' notes').kelly ≤ (l.size cfg e p notes).kelly)
    (hB : l'.bankroll ≤ l.bankroll) :
    (l'.size cfg e' p' notes').position ≤ (l.size cfg e p notes).position := by
  have hpos := size_kelly_pos hcfg l e p notes
  rw [size_position, size_position]
  by_cases hb' : 0 < l'.bankroll
  · rw [if_pos hb', if_pos (hb'.trans_le hB)]
    exact mul_le_mul hkelly hB hb'.le hpos.le
  · rw [if_neg hb']
    split_ifs with hb
    · exact (mul_pos hpos hb).le
    · exact le_rfl

omit hcfg in
/-- **How the recommendation depends on the session**, for any edge and win probability, in exact
arithmetic and in binary64, under a configuration that passes validation. Take two sessions, the
second in at least as much distress as the first: a drawdown as deep (both in `[0, 1]`), a losing
streak as long, and no more trades in its window. Then the second gets no larger a fraction,
confidence or position, the last also with no larger a bankroll. At one session, read field by
field: the fraction and the confidence never rise with the drawdown or the streak and never fall
with the history, and the position never falls with the bankroll. In binary64 the drawdowns may be
any numbers in `[0, 1]` and the bankrolls any numbers, infinities included. -/
theorem size_le_of_distress :
    (∀ (cfg : SizingConfig ℚ), cfg.Valid → ∀ (e p : ℚ) (notes : List (Note ℚ)) (l l' : Ledger ℚ),
      0 ≤ l.drawdown → l.drawdown ≤ l'.drawdown → l'.drawdown ≤ 1 →
      l.lossStreak ≤ l'.lossStreak → l'.window.size ≤ l.window.size →
      (l'.size cfg e p notes).kelly ≤ (l.size cfg e p notes).kelly ∧
      (l'.size cfg e p notes).confidence ≤ (l.size cfg e p notes).confidence ∧
      (l'.bankroll ≤ l.bankroll →
        (l'.size cfg e p notes).position ≤ (l.size cfg e p notes).position)) ∧
    (∀ (doc : Value) (cfg : SizingConfig Num), SizingConfig.validate doc = .ok cfg →
      ∀ (e p : Num) (notes : List (Note Num)) (l l' : Ledger Num),
      0 ≤ l.drawdown → l.drawdown ≤ l'.drawdown → l'.drawdown ≤ 1 →
      l.lossStreak ≤ l'.lossStreak → l'.window.size ≤ l.window.size →
      (l'.size cfg e p notes).kelly ≤ (l.size cfg e p notes).kelly ∧
      (l'.size cfg e p notes).confidence ≤ (l.size cfg e p notes).confidence ∧
      (l'.bankroll ≤ l.bankroll →
        (l'.size cfg e p notes).position ≤ (l.size cfg e p notes).position)) := by
  constructor
  · intro cfg hcfg e p notes l l' hd0 hd hd1 hk hn
    have hkelly := size_kelly_anti hcfg e p notes hd hk hn
    exact ⟨hkelly, size_confidence_anti hcfg e p notes hd0 hd hd1 hk hn,
      size_position_le hcfg hkelly⟩
  · intro doc cfg hv e p notes l l' hd0 hd hd1 hk hn
    have hc := SizingConfig.validate_checked hv
    -- drawdowns between zero and one are finite
    obtain ⟨hdf, hdf', -⟩ := Num.chain_inUnit hd0 hd hd1
    have hkelly := size_kelly_anti_binary64 hc e p notes hdf hdf' hd hk hn
    exact ⟨hkelly, size_confidence_anti_binary64 hc e p notes hd0 hd hd1 hk hn,
      size_position_le_binary64 hc e p notes hkelly⟩

omit hcfg in
/-- A fresh session at `1000` against the same session beyond the drawdown limit, after four
losses in a row and at half the bankroll, under the standard configuration, in exact arithmetic
and in binary64. -/
theorem size_le_of_distress_beyond_limit :
    (let cfg : SizingConfig ℚ := SizingConfig.standard
      let l := start (1000 : ℚ) 20
      let l' := { l with drawdown := 1 / 2, lossStreak := 4, bankroll := 500 }
      cfg.Valid ∧ 0 ≤ l.drawdown ∧ l.drawdown ≤ l'.drawdown ∧ l'.drawdown ≤ 1 ∧
        l.lossStreak ≤ l'.lossStreak ∧ l'.window.size ≤ l.window.size ∧
        ((l'.size cfg 0.1 0.6 []).kelly ≤ (l.size cfg 0.1 0.6 []).kelly ∧
          (l'.size cfg 0.1 0.6 []).confidence ≤ (l.size cfg 0.1 0.6 []).confidence ∧
          (l'.bankroll ≤ l.bankroll →
            (l'.size cfg 0.1 0.6 []).position ≤ (l.size cfg 0.1 0.6 []).position))) ∧
    (let cfg : SizingConfig Num := SizingConfig.standard
      let l := start (Num.float 1000.0) 20
      let l' := { l with drawdown := 0.5, lossStreak := 4, bankroll := .float 500.0 }
      SizingConfig.validate (.obj []) = .ok cfg ∧ 0 ≤ l.drawdown ∧ l.drawdown ≤ l'.drawdown ∧
        l'.drawdown ≤ 1 ∧ l.lossStreak ≤ l'.lossStreak ∧ l'.window.size ≤ l.window.size ∧
        ((l'.size cfg 0.1 0.6 []).kelly ≤ (l.size cfg 0.1 0.6 []).kelly ∧
          (l'.size cfg 0.1 0.6 []).confidence ≤ (l.size cfg 0.1 0.6 []).confidence ∧
          (l'.bankroll ≤ l.bankroll →
            (l'.size cfg 0.1 0.6 []).position ≤ (l.size cfg 0.1 0.6 []).position))) := by
  constructor
  · intro cfg l l'
    have hd0 : 0 ≤ l.drawdown := by norm_num [l, start]
    have hd : l.drawdown ≤ l'.drawdown := by norm_num [l', l, start]
    have hd1 : l'.drawdown ≤ 1 := by norm_num [l']
    have hk : l.lossStreak ≤ l'.lossStreak := by simp [l', l, start]
    exact ⟨SizingConfig.standard_valid, hd0, hd, hd1, hk, le_rfl,
      size_le_of_distress.1 _ SizingConfig.standard_valid 0.1 0.6 [] l l' hd0 hd hd1 hk le_rfl⟩
  · intro cfg l l'
    have hv : SizingConfig.validate (.obj []) = .ok cfg := rfl
    -- the drawdowns `0.0` and `0.5`, compared as binary64 values and with one
    have hd0 : 0 ≤ l.drawdown := Num.inUnit_zero.bounds.1
    have hd : l.drawdown ≤ l'.drawdown := Num.float_le_float (by decide)
    have hd1 : l'.drawdown ≤ 1 := by decide
    have hk : l.lossStreak ≤ l'.lossStreak := by decide
    exact ⟨hv, hd0, hd, hd1, hk, le_rfl,
      size_le_of_distress.2 _ cfg hv 0.1 0.6 [] l l' hd0 hd hd1 hk le_rfl⟩

/-! ## The bet's side: the sanitised inputs -/

omit hcfg in
/-- A finite edge is sanitised to `max 0 e`. -/
theorem sanitizeEdge_rat (e : ℚ) : (sanitizeEdge e).1 = max 0 e := by
  unfold sanitizeEdge
  rw [zero_point_rat]
  split_ifs with h
  · exact (max_eq_left h.le).symm
  · exact (max_eq_right (not_lt.1 h)).symm

omit hcfg in
/-- A finite probability is sanitised to `1 - 1e-6` from one up, and to `max 0 p` below one. -/
theorem sanitizeProbability_rat (p : ℚ) :
    (sanitizeProbability p).1 = if 1 ≤ p then 1 - 1e-6 else max 0 p := by
  unfold sanitizeProbability
  rw [zero_point_rat, one_point_rat]
  by_cases h0 : p < 0
  · have h1 : ¬1 ≤ p := fun h1 => absurd (h1.trans_lt h0) (by norm_num)
    rw [if_pos h0, if_neg h1, max_eq_left h0.le]
  · rw [if_neg h0]
    split_ifs
    · rfl
    · exact (max_eq_right (not_lt.1 h0)).symm

omit hcfg in
/-- Sending every `p ≥ 1` to some `c ≥ 0` and every other `p` to `max 0 p` keeps the order of two
values unless they straddle `c` and one: the lower in `(c, 1)`, which passes as it is, and the
higher at least one, which goes to `c`, below it. -/
theorem clip_le_clip_iff {c p p' : ℚ} (hc : 0 ≤ c) (h : p ≤ p') :
    (if 1 ≤ p then c else max 0 p) ≤ (if 1 ≤ p' then c else max 0 p') ↔
      ¬(c < p ∧ p < 1 ∧ 1 ≤ p') := by
  by_cases h1' : 1 ≤ p'
  · rw [if_pos h1']
    by_cases h1 : 1 ≤ p
    · rw [if_pos h1]
      exact iff_of_true le_rfl fun ⟨_, hp1, _⟩ => absurd h1 (not_le.2 hp1)
    · have hp1 : p < 1 := not_le.1 h1
      rw [if_neg h1]
      constructor
      · rintro hle ⟨hlo, -, -⟩
        exact absurd ((le_max_right 0 p).trans hle) (not_le.2 hlo)
      · intro hband
        have hp : p ≤ c := not_lt.1 fun hlo => hband ⟨hlo, hp1, h1'⟩
        exact max_le hc hp
  · have h1 : ¬1 ≤ p := fun h1 => h1' (h1.trans h)
    rw [if_neg h1', if_neg h1]
    exact iff_of_true (max_le_max le_rfl h) fun ⟨_, _, h1''⟩ => h1' h1''

omit hcfg in
/-- The sanitiser keeps the order of two probabilities unless they straddle the band and one: the
lower in `(1 - 1e-6, 1)`, which passes as it is, and the higher at least one, which goes to
`1 - 1e-6`, below it. -/
theorem sanitizeProbability_le_iff {p p' : ℚ} (h : p ≤ p') :
    (sanitizeProbability p).1 ≤ (sanitizeProbability p').1 ↔ ¬(1 - 1e-6 < p ∧ p < 1 ∧ 1 ≤ p') := by
  rw [sanitizeProbability_rat, sanitizeProbability_rat]
  exact clip_le_clip_iff (by norm_num) h

/-! ## The bet's side in binary64 -/

omit hcfg in
/-- The sanitiser's stand-in for a certain win, `1 - 1e-6` in binary64, is a finite value in
`[0, 1)`. -/
theorem maxWinProbability_binary64 :
    ((1.0 : Num) - 1e-6).FiniteFloat ∧ 0 ≤ ((1.0 : Num) - 1e-6).toRat ∧
      ((1.0 : Num) - 1e-6).toRat < 1 := by
  have hc : Binary64.classify (Binary64.nearest false 10 10 - Binary64.nearest false 1 (Nat.pow 10 6)) =
      .finite ⟨false, 9007190247541737, -53⟩ := by decide
  have hv : ((1.0 : Num) - 1e-6).toRat = 9007190247541737 / 2 ^ 53 := by
    rw [show (1.0 : Num) - 1e-6 = .float (Binary64.nearest false 10 10 -
      Binary64.nearest false 1 (Nat.pow 10 6)) from rfl, Num.toRat_float hc]
    norm_num [Binary64.value, Binary64.absValue]
  rw [hv]
  exact ⟨⟨_, _, rfl, hc⟩, by norm_num, by norm_num⟩

omit hcfg in
/-- A finite binary64 edge is sanitised to a finite binary64 value, read exactly as `max 0 e`. -/
theorem sanitizeEdge_binary64 {x : Float} (hx : (Num.float x).isFinite = true) :
    (sanitizeEdge (Num.float x)).1.FiniteFloat ∧
      (sanitizeEdge (Num.float x)).1.toRat = max 0 (Num.float x).toRat := by
  obtain ⟨b, hb⟩ := Num.isFinite_float.1 hx
  have hlt := Num.lt_iff_toRat_lt hx Num.inUnit_zero.isFinite
  rw [Num.toRat_zero_point] at hlt
  unfold sanitizeEdge
  split_ifs with h
  · exact ⟨⟨_, _, rfl, Binary64.classify_zero⟩, by
      rw [Num.toRat_zero_point, max_eq_left (hlt.1 h).le]⟩
  · exact ⟨⟨x, b, rfl, hb⟩, (max_eq_right (not_lt.1 (mt hlt.2 h))).symm⟩

omit hcfg in
/-- A finite binary64 probability is sanitised to a finite binary64 value: the binary64 value of
`1 - 1e-6` from one up, and one read exactly as `max 0 p` below one. -/
theorem sanitizeProbability_binary64 {y : Float} (hy : (Num.float y).isFinite = true) :
    (sanitizeProbability (Num.float y)).1.FiniteFloat ∧
      (sanitizeProbability (Num.float y)).1.toRat = if 1 ≤ (Num.float y).toRat
        then ((1.0 : Num) - 1e-6).toRat else max 0 (Num.float y).toRat := by
  obtain ⟨b, hb⟩ := Num.isFinite_float.1 hy
  have hlt := Num.lt_iff_toRat_lt hy Num.inUnit_zero.isFinite
  have hle := Num.le_iff_toRat_le Num.inUnit_one.isFinite hy
  rw [Num.toRat_zero_point] at hlt
  rw [Num.toRat_one_point] at hle
  unfold sanitizeProbability
  by_cases h0 : Num.float y < 0.0
  · -- below zero: taken as zero
    have h1 : ¬1 ≤ (Num.float y).toRat := fun h1 => absurd (h1.trans_lt (hlt.1 h0)) (by norm_num)
    rw [if_pos h0, if_neg h1, Num.toRat_zero_point, max_eq_left (hlt.1 h0).le]
    exact ⟨⟨_, _, rfl, Binary64.classify_zero⟩, rfl⟩
  rw [if_neg h0]
  by_cases h1 : (1.0 : Num) ≤ .float y
  · -- from one up: the stand-in for a certain win
    rw [if_pos h1, if_pos (hle.1 h1)]
    exact ⟨maxWinProbability_binary64.1, rfl⟩
  · rw [if_neg h1, if_neg (mt hle.2 h1)]
    exact ⟨⟨y, b, rfl, hb⟩, (max_eq_right (not_lt.1 (mt hlt.2 h0))).symm⟩

omit hcfg in
/-- In binary64 too the sanitiser keeps the order of two probabilities unless they straddle the
band and one, the band starting at the binary64 value of `1 - 1e-6`. -/
theorem sanitizeProbability_le_iff_binary64 {y y' : Float} (hy : (Num.float y).isFinite = true)
    (hy' : (Num.float y').isFinite = true) (h : Num.float y ≤ .float y') :
    (sanitizeProbability (Num.float y)).1.toRat ≤ (sanitizeProbability (Num.float y')).1.toRat ↔
      ¬((1.0 : Num) - 1e-6 < .float y ∧ Num.float y < 1.0 ∧ 1.0 ≤ Num.float y') := by
  obtain ⟨⟨w, bw, hw, hbw⟩, hc0, -⟩ := maxWinProbability_binary64
  have hcf : ((1.0 : Num) - 1e-6).isFinite = true := hw ▸ Num.isFinite_float.2 ⟨bw, hbw⟩
  have hone := Num.inUnit_one.isFinite
  rw [(sanitizeProbability_binary64 hy).2, (sanitizeProbability_binary64 hy').2,
    Num.lt_iff_toRat_lt hcf hy, Num.lt_iff_toRat_lt hy hone, Num.le_iff_toRat_le hone hy',
    Num.toRat_one_point]
  exact clip_le_clip_iff hc0 ((Num.le_iff_toRat_le hy hy').1 h)

omit hcfg in
/-- In binary64, under a configuration that passes validation and at any session, raising a bet's
finite edge and win probability never lowers the base fraction or the recommended fraction, unless
the probabilities straddle the band and one, the band starting at the binary64 value of
`1 - 1e-6`: the sanitised inputs keep their order, and the Kelly fraction grows with them. -/
theorem calculate_le_binary64 {doc : Value} {cfg : SizingConfig Num}
    (hv : SizingConfig.validate doc = .ok cfg) (l : Ledger Num) {x x' y y' : Float}
    (hx : (Num.float x).isFinite = true) (hx' : (Num.float x').isFinite = true)
    (hy : (Num.float y).isFinite = true) (hy' : (Num.float y').isFinite = true)
    (he : Num.float x ≤ .float x') (hp : Num.float y ≤ .float y')
    (hband : ¬((1.0 : Num) - 1e-6 < .float y ∧ Num.float y < 1.0 ∧ 1.0 ≤ Num.float y')) :
    (l.calculate cfg (.float x) (.float y)).base ≤ (l.calculate cfg (.float x') (.float y')).base ∧
      (l.calculate cfg (.float x) (.float y)).kelly ≤
        (l.calculate cfg (.float x') (.float y')).kelly := by
  have hc := SizingConfig.validate_checked hv
  obtain ⟨hef, her⟩ := sanitizeEdge_binary64 hx
  obtain ⟨hef', her'⟩ := sanitizeEdge_binary64 hx'
  obtain ⟨hpf, hpr⟩ := sanitizeProbability_binary64 hy
  obtain ⟨hpf', hpr'⟩ := sanitizeProbability_binary64 hy'
  obtain ⟨-, hc0, hc1⟩ := maxWinProbability_binary64
  have hedge : (sanitizeEdge (Num.float x)).1.toRat ≤ (sanitizeEdge (Num.float x')).1.toRat := by
    rw [her, her']
    exact max_le_max le_rfl ((Num.le_iff_toRat_le hx hx').1 he)
  have hprob := (sanitizeProbability_le_iff_binary64 hy hy' hp).2 hband
  -- the sanitised probabilities lie in `[0, 1)`
  have hp0 : 0 ≤ (sanitizeProbability (Num.float y)).1.toRat := by
    rw [hpr]
    split_ifs
    · exact hc0
    · exact le_max_left _ _
  have hp1 : (sanitizeProbability (Num.float y')).1.toRat < 1 := by
    rw [hpr']
    split_ifs with h1
    · exact hc1
    · exact max_lt (by norm_num) (not_le.1 h1)
  have hbase := Kelly.fraction_le_binary64 hc.base.inUnit hef hef' hpf hpf' hedge hp0 hprob hp1
  have hu := (Kelly.fraction_inUnit hc.base.inUnit (sanitizeEdge (Num.float x)).1
    (sanitizeProbability (Num.float y)).1).1
  have hu' := (Kelly.fraction_inUnit hc.base.inUnit (sanitizeEdge (Num.float x')).1
    (sanitizeProbability (Num.float y')).1).1
  exact ⟨(Num.le_iff_toRat_le hu.isFinite hu'.isFinite).2 hbase,
    size_kelly_le_of_base_binary64 hc l hbase⟩

/-- How the recommendation depends on a bet's finite edge and win probability, in exact arithmetic,
under a valid configuration and at any session. Raising the edge and the probability never lowers
the base fraction or the recommended fraction, unless the probabilities straddle the band and one:
the lower in `(1 - 1e-6, 1)`, taken as it is, and the higher at least one, taken as `1 - 1e-6`.
The same holds in binary64, for any finite binary64 edges and probabilities as the session passes
them on and any configuration that passes validation, the band starting at the binary64 value of
`1 - 1e-6`. -/
theorem calculate_mono (l : Ledger ℚ) {e e' p p' : ℚ} (he : e ≤ e') (hp : p ≤ p')
    (hband : ¬(1 - 1e-6 < p ∧ p < 1 ∧ 1 ≤ p')) :
    ((l.calculate cfg e p).base ≤ (l.calculate cfg e' p').base ∧
      (l.calculate cfg e p).kelly ≤ (l.calculate cfg e' p').kelly) ∧
    (∀ (doc : Value) (cfg' : SizingConfig Num), SizingConfig.validate doc = .ok cfg' →
      ∀ (l' : Ledger Num) (x x' y y' : Float), (Num.float x).isFinite = true →
      (Num.float x').isFinite = true → (Num.float y).isFinite = true →
      (Num.float y').isFinite = true → Num.float x ≤ .float x' → Num.float y ≤ .float y' →
      ¬((1.0 : Num) - 1e-6 < .float y ∧ Num.float y < 1.0 ∧ 1.0 ≤ Num.float y') →
      (l'.calculate cfg' (.float x) (.float y)).base ≤
          (l'.calculate cfg' (.float x') (.float y')).base ∧
        (l'.calculate cfg' (.float x) (.float y)).kelly ≤
          (l'.calculate cfg' (.float x') (.float y')).kelly) := by
  have hedge : (sanitizeEdge e).1 ≤ (sanitizeEdge e').1 := by
    rw [sanitizeEdge_rat, sanitizeEdge_rat]
    exact max_le_max le_rfl he
  have hprob := (sanitizeProbability_le_iff hp).2 hband
  -- the base fraction is the Kelly fraction of the sanitised inputs
  have hbase : Kelly.fraction (sanitizeEdge e).1 (sanitizeProbability p).1 cfg.baseMultiplier ≤
      Kelly.fraction (sanitizeEdge e').1 (sanitizeProbability p').1 cfg.baseMultiplier :=
    Kelly.fraction_le_fraction hcfg.base_pos.le hedge hprob
  exact ⟨⟨hbase, size_kelly_le_of_base hcfg l hbase⟩,
    fun _ _ hv l' _ _ _ _ => calculate_le_binary64 hv l'⟩

omit hcfg in
/-- A fresh session at `1000` under the standard configuration, from an edge of `0.1` at even odds
to an edge of `0.2` with a certain win, in exact arithmetic and in binary64. -/
theorem calculate_mono_to_certain :
    (SizingConfig.standard : SizingConfig ℚ).Valid ∧ (0.1 : ℚ) ≤ 0.2 ∧ (0.5 : ℚ) ≤ 2 ∧
      ¬(1 - 1e-6 < (0.5 : ℚ) ∧ (0.5 : ℚ) < 1 ∧ 1 ≤ (2 : ℚ)) ∧
      (((start (1000 : ℚ) 20).calculate SizingConfig.standard 0.1 0.5).base ≤
          ((start (1000 : ℚ) 20).calculate SizingConfig.standard 0.2 2).base ∧
        ((start (1000 : ℚ) 20).calculate SizingConfig.standard 0.1 0.5).kelly ≤
          ((start (1000 : ℚ) 20).calculate SizingConfig.standard 0.2 2).kelly) ∧
    (let cfg : SizingConfig Num := SizingConfig.standard
      let l := start (Num.float 1000.0) 20
      SizingConfig.validate (.obj []) = .ok cfg ∧ (Num.float 0.1).isFinite = true ∧
        (Num.float 0.2).isFinite = true ∧ (Num.float 0.5).isFinite = true ∧
        (Num.float 2.0).isFinite = true ∧ Num.float 0.1 ≤ .float 0.2 ∧ Num.float 0.5 ≤ .float 2.0 ∧
        ¬((1.0 : Num) - 1e-6 < .float 0.5 ∧ Num.float 0.5 < 1.0 ∧ 1.0 ≤ Num.float 2.0) ∧
        ((l.calculate cfg (.float 0.1) (.float 0.5)).base ≤
            (l.calculate cfg (.float 0.2) (.float 2.0)).base ∧
          (l.calculate cfg (.float 0.1) (.float 0.5)).kelly ≤
            (l.calculate cfg (.float 0.2) (.float 2.0)).kelly)) := by
  have he : (0.1 : ℚ) ≤ 0.2 := by norm_num
  have hp : (0.5 : ℚ) ≤ 2 := by norm_num
  have hband : ¬(1 - 1e-6 < (0.5 : ℚ) ∧ (0.5 : ℚ) < 1 ∧ 1 ≤ (2 : ℚ)) := by norm_num
  obtain ⟨hrat, hfloat⟩ := calculate_mono SizingConfig.standard_valid (start 1000 20) he hp hband
  have hv : SizingConfig.validate (.obj []) = .ok SizingConfig.standard := rfl
  -- the binary64 inputs, tested and compared as binary64 values
  have hx : (Num.float 0.1).isFinite = true := by decide
  have hx' : (Num.float 0.2).isFinite = true := by decide
  have hy : (Num.float 0.5).isFinite = true := by decide
  have hy' : (Num.float 2.0).isFinite = true := by decide
  have he' : Num.float 0.1 ≤ .float 0.2 := Num.float_le_float (by decide)
  have hp' : Num.float 0.5 ≤ .float 2.0 := Num.float_le_float (by decide)
  have hband' : ¬((1.0 : Num) - 1e-6 < .float 0.5 ∧ Num.float 0.5 < 1.0 ∧ 1.0 ≤ Num.float 2.0) := by
    decide
  exact ⟨SizingConfig.standard_valid, he, hp, hband, hrat, hv, hx, hx', hy, hy', he', hp', hband',
    hfloat _ _ hv (start (Num.float 1000.0) 20) _ _ _ _ hx hx' hy hy' he' hp' hband'⟩

omit hcfg in
/-- Across the band the order breaks. At an edge of `1e-12`, a certain win is taken as `1 - 1e-6`,
where the Kelly term `1 - 1e-6 - 1` is negative, and stakes nothing; a probability of `0.9999999`
is taken as it is, with Kelly term `0.9899999`, and stakes nearly a quarter. -/
theorem calculate_base_drops_across_band :
    ((start (1000 : ℚ) 20).calculate SizingConfig.standard 1e-12 1).base = 0 ∧
      ((start (1000 : ℚ) 20).calculate SizingConfig.standard 1e-12 0.9999999).base = 0.247499975 := by
  have he : (sanitizeEdge (1e-12 : ℚ)).1 = 1e-12 := by
    rw [sanitizeEdge_rat]
    norm_num
  have hcertain : (sanitizeProbability (1 : ℚ)).1 = 1 - 1e-6 := by
    rw [sanitizeProbability_rat]
    norm_num
  have hnear : (sanitizeProbability (0.9999999 : ℚ)).1 = 0.9999999 := by
    rw [sanitizeProbability_rat]
    norm_num
  constructor
  · show Kelly.fraction (sanitizeEdge 1e-12).1 (sanitizeProbability 1).1 _ = 0
    rw [he, hcertain, Kelly.fraction_of_odds _ (by norm_num) (by norm_num) (by norm_num)]
    norm_num [Kelly.term]
  · show Kelly.fraction (sanitizeEdge 1e-12).1 (sanitizeProbability 0.9999999).1 _ = _
    rw [he, hnear, Kelly.fraction_of_odds _ (by norm_num) (by norm_num) (by norm_num)]
    norm_num [Kelly.term, SizingConfig.standard]

end Ledger

end TradeDesk
