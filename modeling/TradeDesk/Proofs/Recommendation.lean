import Mathlib
import TradeDesk.Proofs.Drawdown
import TradeDesk.Proofs.RoundedSizing
import TradeDesk.Sizing.Sizer

/-!
# The recommendation for one bet

`Ledger.size` turns a sanitised edge and win probability into a recommendation against the
session. Read in exact arithmetic, under a configuration that passes validation
(`SizingConfig.Valid`) and at any state a session reaches (`size_recommendation`):

* the base fraction is the Kelly fraction at the base multiplier, and lies between nothing and
  that multiplier whatever the edge and probability (`Kelly.fraction_mem`);
* the dampers are the drawdown guard, the losing streak and the thin history, each exactly when
  the session calls for it, in that order (`Ledger.dampers_rat`), and each factor lies in
  `[0, 1]`, so their product does too (`Ledger.dampers_prod_mem`);
* the fraction is the base times that product, held to the band `[minKelly, maxKelly]`;
* the position is that fraction of a positive bankroll, and nothing otherwise;
* the confidence is the product held to `[0, 1]` (where it already lies), times one less the
  drawdown, which a reachable state keeps in `[0, 1]`; so the confidence lies in `[0, 1]`.

Applying the dampers one after another is multiplying by their product (`Ledger.foldl_dampers`):
in exact arithmetic the order of the factors does not matter.

The same theorem reads the definitions in binary64, as a session runs them: for every session
created under a configuration that validation accepts (`SizingConfig.validate_checked`) and every
call it answers, the base is the Kelly fraction of the sanitised inputs, the factors are binary64
values in `[0, 1]` folded in from the left, each product rounded, and the same bounds hold
(`Proofs/RoundedSizing`). There the position needs a bankroll that is not a NaN and the confidence
a drawdown in the unit interval, which every ledger a session reaches keeps (`Sizer.run_sound`).
-/

namespace TradeDesk

/-- What validation guarantees of a sizing configuration (`SizingConfig.validate`), read in exact
arithmetic: every fraction in `(0, 1]`, a positive history length, and a band the right way
round. -/
structure SizingConfig.Valid (cfg : SizingConfig ℚ) : Prop where
  base_pos : 0 < cfg.baseMultiplier
  base_le_one : cfg.baseMultiplier ≤ 1
  maxKelly_pos : 0 < cfg.maxKelly
  maxKelly_le_one : cfg.maxKelly ≤ 1
  minKelly_pos : 0 < cfg.minKelly
  minKelly_le_one : cfg.minKelly ≤ 1
  lookback_pos : 0 < cfg.lookback
  maxDrawdown_pos : 0 < cfg.maxDrawdown
  maxDrawdown_le_one : cfg.maxDrawdown ≤ 1
  reduction_pos : 0 < cfg.drawdownReduction
  reduction_le_one : cfg.drawdownReduction ≤ 1
  band : cfg.minKelly ≤ cfg.maxKelly

/-- The standard configuration passes validation. -/
theorem SizingConfig.standard_valid : (SizingConfig.standard : SizingConfig ℚ).Valid := by
  constructor <;> norm_num [SizingConfig.standard]

namespace Kelly

open Numeric

/-- The part of the multiplier a bet stakes is held to `[0, 1]`. -/
theorem stake_part_mem {edge p f : ℚ} (h : stake edge p = .part f) : 0 ≤ f ∧ f ≤ 1 := by
  unfold stake at h
  split_ifs at h
  cases h
  exact clamp_unit_mem _

/-- At a multiplier `m ≥ 0` the Kelly fraction lies between nothing and `m`, whatever the edge and
the probability. -/
theorem fraction_mem (edge p m : ℚ) (hm : 0 ≤ m) : 0 ≤ fraction edge p m ∧ fraction edge p m ≤ m := by
  unfold fraction
  cases h : stake edge p with
  | whole => exact ⟨hm, le_rfl⟩
  | nothing => norm_num [hm]
  | part f =>
    obtain ⟨h0, h1⟩ := stake_part_mem h
    exact ⟨mul_nonneg h0 hm, mul_le_of_le_one_left hm h1⟩

end Kelly

namespace Ledger

open Numeric

variable (cfg : SizingConfig ℚ) (l : Ledger ℚ)

/-- The dampers a session calls for: the drawdown guard beyond the maximum drawdown, the losing
streak beyond two losses, and a thin history, in that order. -/
theorem dampers_rat : (l.dampers cfg).map (fun d => (d.1.damper, d.1.multiplier)) =
    (if cfg.maxDrawdown < l.drawdown then [(Damper.drawdownGuard, cfg.drawdownReduction)] else []) ++
    (if 2 < l.lossStreak then [(Damper.lossStreak, max (1 / 2) ((9 / 10 : ℚ) ^ (l.lossStreak - 2)))]
      else []) ++
    (if l.window.size < cfg.lookback then [(Damper.sampleSize, (l.window.size : ℚ) / cfg.lookback)]
      else []) := by
  unfold dampers
  split_ifs <;> norm_num

/-- Each damper's factor lies in `[0, 1]`: the drawdown reduction is a fraction, the streak's
factor is a power of `0.9` but at least a half, and a thin history's is the share of the full
history it holds. -/
theorem dampers_factor_mem (hcfg : cfg.Valid) :
    ∀ x ∈ (l.dampers cfg).map (·.1.multiplier), 0 ≤ x ∧ x ≤ 1 := by
  have h := dampers_rat cfg l
  intro x hx
  have hx' : x ∈ ((l.dampers cfg).map (fun d => (d.1.damper, d.1.multiplier))).map (·.2) := by
    simpa [List.map_map] using hx
  rw [h] at hx'
  simp only [List.map_append, List.mem_append] at hx'
  rcases hx' with (hg | hs) | ht
  · split_ifs at hg
    · simp at hg
      subst hg
      exact ⟨hcfg.reduction_pos.le, hcfg.reduction_le_one⟩
    · simp at hg
  · split_ifs at hs
    · simp at hs
      subst hs
      exact ⟨le_max_of_le_left (by norm_num), max_le (by norm_num) (pow_le_one₀ (by norm_num) (by norm_num))⟩
    · simp at hs
  · split_ifs at ht with hn
    · simp at ht
      subst ht
      have hl : (0 : ℚ) < cfg.lookback := by exact_mod_cast hcfg.lookback_pos
      exact ⟨by positivity, (div_le_one hl).2 (by exact_mod_cast hn.le)⟩
    · simp at ht

/-- The product of the dampers' factors lies in `[0, 1]`. -/
theorem dampers_prod_mem (hcfg : cfg.Valid) :
    0 ≤ ((l.dampers cfg).map (·.1.multiplier)).prod ∧
      ((l.dampers cfg).map (·.1.multiplier)).prod ≤ 1 := by
  have h := dampers_factor_mem cfg l hcfg
  refine ⟨List.prod_nonneg fun x hx => (h x hx).1, ?_⟩
  have hle := List.prod_map_le_prod_map₀ id (fun _ => (1 : ℚ)) (fun x hx => (h x hx).1)
    (fun x hx => (h x hx).2)
  simpa [Function.comp_def, List.map_const'] using hle

/-- Damping one factor after another multiplies by their product. -/
theorem foldl_dampers (ds : List (Adjustment ℚ × Note ℚ)) (x : ℚ) :
    ds.foldl (fun k (a, _) => k * a.multiplier) x = x * (ds.map (·.1.multiplier)).prod := by
  induction ds generalizing x with
  | nil => simp
  | cons d ds ih => simp [ih, mul_assoc]

variable (e p : ℚ) (notes : List (Note ℚ))

/-- The recommended fraction is the base damped by the product of the factors, held to the band. -/
theorem size_kelly : (l.size cfg e p notes).kelly = max cfg.minKelly (min cfg.maxKelly
    (Kelly.fraction e p cfg.baseMultiplier * ((l.dampers cfg).map (·.1.multiplier)).prod)) := by
  simp only [size, larger_rat, smaller_rat]
  rw [foldl_dampers]

/-- The position is the fraction of a positive bankroll, and nothing otherwise. -/
theorem size_position : (l.size cfg e p notes).position =
    if 0 < l.bankroll then (l.size cfg e p notes).kelly * l.bankroll else 0 := by
  by_cases h : 0 < l.bankroll
  · simp [size, h, not_le.2 h]
  · simp [size, h, not_lt.1 h, zero_point_rat]

/-- With no drawdown below zero, the confidence is the product of the factors held to `[0, 1]`,
times one less the drawdown. -/
theorem size_confidence (hd : 0 ≤ l.drawdown) : (l.size cfg e p notes).confidence =
    min 1 (max 0 ((l.dampers cfg).map (·.1.multiplier)).prod) * (1 - l.drawdown) := by
  simp only [size, zero_rat]
  rw [clamp_unit_rat, foldl_dampers, one_point_rat, one_mul]
  split_ifs with h
  · rfl
  · rw [le_antisymm (not_lt.1 h) hd, sub_zero, mul_one]

/-- **The recommendation for a bet**, in exact arithmetic and in binary64.

Read exactly, at any state a session reaches, under a valid configuration, for any edge and win
probability: the base fraction is the Kelly fraction at the base multiplier, between nothing and
that multiplier. The adjustments are the drawdown guard, the losing streak and the thin history,
each exactly when the session calls for it, in that order. Their product `m` lies in `[0, 1]`. The
fraction is the base times `m` held to the band. The position is that fraction of a positive
bankroll, and nothing otherwise. The confidence is `m` held to `[0, 1]` times one less the
drawdown, and lies in `[0, 1]`.

In binary64, for every session created under a configuration that passes validation, after any
calls, and for any edge and probability the session sizes: the same holds of the values the session
computes. The base is the Kelly fraction of the sanitised inputs; the factors are binary64 values
in `[0, 1]`; the damped base and the damped one are the factors folded in from the left, each
product rounded; the comparisons are exact. -/
theorem size_recommendation :
    (∀ (i : ℚ) (n : Nat) (es : List (Effect ℚ)) (cfg : SizingConfig ℚ), cfg.Valid →
      ∀ (e p : ℚ) (notes : List (Note ℚ)),
      let l := (start i n).run es
      let r := l.size cfg e p notes
      let m := (r.adjustments.map (·.multiplier)).prod
      (r.base = Kelly.fraction e p cfg.baseMultiplier ∧ 0 ≤ r.base ∧ r.base ≤ cfg.baseMultiplier) ∧
      r.adjustments.map (fun a => (a.damper, a.multiplier)) =
        (if cfg.maxDrawdown < l.drawdown then [(Damper.drawdownGuard, cfg.drawdownReduction)] else []) ++
        (if 2 < l.lossStreak then [(Damper.lossStreak, max (1 / 2) ((9 / 10 : ℚ) ^ (l.lossStreak - 2)))]
          else []) ++
        (if l.window.size < cfg.lookback then [(Damper.sampleSize, (l.window.size : ℚ) / cfg.lookback)]
          else []) ∧
      (0 ≤ m ∧ m ≤ 1) ∧
      (r.kelly = max cfg.minKelly (min cfg.maxKelly (r.base * m)) ∧
        cfg.minKelly ≤ r.kelly ∧ r.kelly ≤ cfg.maxKelly) ∧
      r.position = (if 0 < l.bankroll then r.kelly * l.bankroll else 0) ∧
      (r.confidence = min 1 (max 0 m) * (1 - l.drawdown) ∧ 0 ≤ r.confidence ∧ r.confidence ≤ 1)) ∧
    (∀ (doc : Value) (cfg : SizingConfig Num) (initial : Value) (s : Sizer) (cs : List Sizer.Call)
      (edge p : Value) (r : Sizing Num),
      SizingConfig.validate doc = .ok cfg → Sizer.create cfg initial = .ok s →
      (s.run cs).calculate edge p = .ok r →
      let l := (s.run cs).ledger
      let ms := r.adjustments.map (·.multiplier)
      let m := ms.foldl (· * ·) (1.0 : Num)
      ((∃ e q notes, Sizer.sanitize edge p = .ok (e, q, notes) ∧
          r.base = Kelly.fraction e q cfg.baseMultiplier) ∧ 0 ≤ r.base ∧ r.base ≤ cfg.baseMultiplier) ∧
      r.adjustments.map (fun a => (a.damper, a.multiplier)) =
        (if cfg.maxDrawdown < l.drawdown then [(Damper.drawdownGuard, cfg.drawdownReduction)] else []) ++
        (if 2 < l.lossStreak then [(Damper.lossStreak, larger 0.5 ((0.9 : Num) ^ (l.lossStreak - 2)))]
          else []) ++
        (if l.window.size < cfg.lookback then
          [(Damper.sampleSize, (l.window.size : Num) / (cfg.lookback : Num))] else []) ∧
      ((∀ a ∈ ms, 0 ≤ a ∧ a ≤ 1) ∧ 0 ≤ m ∧ m ≤ 1) ∧
      (r.kelly = larger cfg.minKelly (smaller cfg.maxKelly (ms.foldl (· * ·) r.base)) ∧
        cfg.minKelly ≤ r.kelly ∧ r.kelly ≤ cfg.maxKelly) ∧
      r.position = (if 0 < l.bankroll then r.kelly * l.bankroll else 0.0) ∧
      (r.confidence = clamp 0.0 1.0 m * (1.0 - l.drawdown) ∧ 0 ≤ r.confidence ∧ r.confidence ≤ 1)) := by
  constructor
  · intro i n es cfg hcfg e p notes l r m
    -- the drawdown of a reachable state lies in `[0, 1]`
    have hd := ((PeakAccount.start i n).run es).drawdown_mem
    have hm : m = ((l.dampers cfg).map (·.1.multiplier)).prod := by
      simp only [m, r, size, List.map_map]
      rfl
    have hmem := dampers_prod_mem cfg l hcfg
    rw [← hm] at hmem
    have hbase := Kelly.fraction_mem e p cfg.baseMultiplier hcfg.base_pos.le
    have hkelly : r.kelly = max cfg.minKelly (min cfg.maxKelly (r.base * m)) := by
      rw [hm]
      exact size_kelly cfg l e p notes
    have hconf : r.confidence = min 1 (max 0 m) * (1 - l.drawdown) := by
      rw [hm]
      exact size_confidence cfg l e p notes hd.1
    refine ⟨⟨rfl, hbase⟩, ?_, hmem, ⟨hkelly, ?_, ?_⟩, size_position cfg l e p notes, ⟨hconf, ?_, ?_⟩⟩
    · simp only [r, size, List.map_map]
      exact dampers_rat cfg l
    · rw [hkelly]
      exact le_max_left _ _
    · rw [hkelly]
      exact max_le hcfg.band (min_le_left _ _)
    · rw [hconf, max_eq_right hmem.1, min_eq_right hmem.2]
      exact mul_nonneg hmem.1 (by linarith [hd.2])
    · rw [hconf, max_eq_right hmem.1, min_eq_right hmem.2]
      calc m * (1 - l.drawdown) ≤ 1 * 1 :=
            mul_le_mul hmem.2 (by linarith [hd.1]) (by linarith [hd.2]) zero_le_one
        _ = 1 := one_mul 1
  · intro doc cfg initial s cs edge p r hv hs hr
    have hc := SizingConfig.validate_checked hv
    -- the session's ledger is sound, and the recommendation is its own for the sanitised inputs
    obtain ⟨hcfg, hl⟩ := Sizer.run_sound hs cs
    obtain ⟨e, q, notes, hsan, rfl⟩ := Sizer.calculate_eq_size hr
    rw [hcfg]
    obtain ⟨-, hb0, hb1⟩ := size_base_binary64 hc e q notes (s.run cs).ledger
    obtain ⟨hfac, hm⟩ := size_factors_binary64 hc e q notes (s.run cs).ledger
    obtain ⟨-, hk0, hk1⟩ := size_kelly_binary64 hc e q notes (s.run cs).ledger
    obtain ⟨hconf, hcu⟩ := size_confidence_binary64 hc e q notes hl.drawdown
    obtain ⟨y, hy, hmy⟩ := hl.bankroll
    refine ⟨⟨⟨e, q, notes, hsan, rfl⟩, hb0, hb1⟩, ?_, ⟨fun a ha => (hfac a ha).bounds, hm.bounds⟩,
      ⟨size_kelly_foldl _ _ _ _ _, hk0, hk1⟩, size_position_binary64 e q notes (by rw [hy]; exact hmy),
      ⟨hconf, hcu.bounds⟩⟩
    simp only [size, List.map_map]
    exact dampers_pairs cfg _

/-- A session at `1000` after three losses, under the standard configuration: all three dampers
apply to a bet of edge `0.1` at probability `0.6`, in exact arithmetic and in binary64 (where the
standard configuration is what validating an empty section gives). -/
theorem size_recommendation_after_three_losses :
    ((SizingConfig.standard : SizingConfig ℚ).Valid ∧
      let cfg : SizingConfig ℚ := SizingConfig.standard
      let l := (start 1000 20).run
        [.record false (-100) .null, .record false (-80) .null, .record false (-60) .null]
      let r := l.size cfg 0.1 0.6 []
      let m := (r.adjustments.map (·.multiplier)).prod
      (r.base = Kelly.fraction 0.1 0.6 cfg.baseMultiplier ∧ 0 ≤ r.base ∧
        r.base ≤ cfg.baseMultiplier) ∧
      r.adjustments.map (fun a => (a.damper, a.multiplier)) =
        (if cfg.maxDrawdown < l.drawdown then [(Damper.drawdownGuard, cfg.drawdownReduction)] else []) ++
        (if 2 < l.lossStreak then [(Damper.lossStreak, max (1 / 2) ((9 / 10 : ℚ) ^ (l.lossStreak - 2)))]
          else []) ++
        (if l.window.size < cfg.lookback then [(Damper.sampleSize, (l.window.size : ℚ) / cfg.lookback)]
          else []) ∧
      (0 ≤ m ∧ m ≤ 1) ∧
      (r.kelly = max cfg.minKelly (min cfg.maxKelly (r.base * m)) ∧
        cfg.minKelly ≤ r.kelly ∧ r.kelly ≤ cfg.maxKelly) ∧
      r.position = (if 0 < l.bankroll then r.kelly * l.bankroll else 0) ∧
      (r.confidence = min 1 (max 0 m) * (1 - l.drawdown) ∧ 0 ≤ r.confidence ∧
        r.confidence ≤ 1)) ∧
    (SizingConfig.validate (.obj []) = .ok SizingConfig.standard ∧
      ∃ (s : Sizer) (r : Sizing Num), Sizer.create SizingConfig.standard (.int 1000) = .ok s ∧
      (s.run [.recordTrade (.bool false) (.int (-100)) .null,
        .recordTrade (.bool false) (.int (-80)) .null,
        .recordTrade (.bool false) (.int (-60)) .null]).calculate (.num 0.1) (.num 0.6) = .ok r ∧
      let cfg : SizingConfig Num := SizingConfig.standard
      let l := (s.run [.recordTrade (.bool false) (.int (-100)) .null,
        .recordTrade (.bool false) (.int (-80)) .null,
        .recordTrade (.bool false) (.int (-60)) .null]).ledger
      let ms := r.adjustments.map (·.multiplier)
      let m := ms.foldl (· * ·) (1.0 : Num)
      ((∃ e q notes, Sizer.sanitize (.num 0.1) (.num 0.6) = .ok (e, q, notes) ∧
          r.base = Kelly.fraction e q cfg.baseMultiplier) ∧ 0 ≤ r.base ∧ r.base ≤ cfg.baseMultiplier) ∧
      r.adjustments.map (fun a => (a.damper, a.multiplier)) =
        (if cfg.maxDrawdown < l.drawdown then [(Damper.drawdownGuard, cfg.drawdownReduction)] else []) ++
        (if 2 < l.lossStreak then [(Damper.lossStreak, larger 0.5 ((0.9 : Num) ^ (l.lossStreak - 2)))]
          else []) ++
        (if l.window.size < cfg.lookback then
          [(Damper.sampleSize, (l.window.size : Num) / (cfg.lookback : Num))] else []) ∧
      ((∀ a ∈ ms, 0 ≤ a ∧ a ≤ 1) ∧ 0 ≤ m ∧ m ≤ 1) ∧
      (r.kelly = larger cfg.minKelly (smaller cfg.maxKelly (ms.foldl (· * ·) r.base)) ∧
        cfg.minKelly ≤ r.kelly ∧ r.kelly ≤ cfg.maxKelly) ∧
      r.position = (if 0 < l.bankroll then r.kelly * l.bankroll else 0.0) ∧
      (r.confidence = clamp 0.0 1.0 m * (1.0 - l.drawdown) ∧ 0 ≤ r.confidence ∧
        r.confidence ≤ 1)) := by
  have hv : SizingConfig.validate (.obj []) = .ok SizingConfig.standard := rfl
  refine ⟨⟨SizingConfig.standard_valid,
    size_recommendation.1 1000 20 _ SizingConfig.standard SizingConfig.standard_valid 0.1 0.6 []⟩,
    hv, _, _, Sizer.create_standard, rfl,
    size_recommendation.2 _ _ _ _ _ _ _ _ hv Sizer.create_standard rfl⟩

end Ledger

end TradeDesk
