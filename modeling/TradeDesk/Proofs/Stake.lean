import Mathlib
import TradeDesk.Proofs.Recommendation

/-!
# The stake rule in exact arithmetic

Read at the rationals, the Kelly fraction of a bet with edge `e`, win probability `p` and
multiplier `m` has a closed form (`Kelly.fraction_rat`). A certain win (`p ≥ 1`) stakes the
multiplier, whatever the edge; no edge or no chance stakes nothing; otherwise the stake is the
multiplier times the Kelly term `p - (1 - p)^2 / e` held to `[0, 1]`. The net odds
`b = e / (1 - p)` turn the rule's `(1 - p) / b` into that square over the edge.

Below `p = 1` and at a positive edge the Kelly term grows with the edge and with the probability
(`term_le_of_edge`, `term_le_of_prob`). The three branches meet in order: nothing is the least a
bet stakes and the whole multiplier the most (`fraction_mem`), so the rule is monotone in each
argument across its branches (`fraction_mono_edge`, `fraction_mono_prob`) and in both at once
(`fraction_le_fraction`), for every multiplier `m ≥ 0`.
-/

namespace TradeDesk.Kelly

open Numeric

/-- The Kelly term of a bet: the win probability less the square of the loss probability over the
edge. -/
def term (e p : ℚ) : ℚ := p - (1 - p) ^ 2 / e

/-- The part a bet stakes, in exact arithmetic: `(1 - p) / b` with `b = e / (1 - p)` is the square
of `1 - p` over the edge. -/
theorem stake_rat (e p : ℚ) : stake e p =
    if 1 ≤ p then .whole else if e ≤ 0 ∨ p ≤ 0 then .nothing
    else .part (min 1 (max 0 (term e p))) := by
  have hodds : (1 - p) / (e / (1 - p)) = (1 - p) ^ 2 / e := by
    rw [div_div_eq_mul_div, sq]
  simp only [stake]
  rw [clamp_unit_rat]
  simp only [one_point_rat, zero_rat, hodds, term, decide_eq_true_eq, Bool.or_eq_true]

/-- The Kelly fraction in exact arithmetic, branch by branch. -/
theorem fraction_rat (e p m : ℚ) : fraction e p m =
    if 1 ≤ p then m else if e ≤ 0 ∨ p ≤ 0 then 0 else min 1 (max 0 (term e p)) * m := by
  rw [fraction, stake_rat]
  split_ifs <;> simp [zero_point_rat]

section Branches

variable {e p : ℚ} (m : ℚ)

/-- A certain win stakes the whole multiplier, whatever the edge. -/
theorem fraction_of_certain (hp : 1 ≤ p) : fraction e p m = m := by
  rw [fraction_rat, if_pos hp]

/-- Short of a certain win, no edge or no chance stakes nothing. -/
theorem fraction_of_nothing (hp : p < 1) (h : e ≤ 0 ∨ p ≤ 0) : fraction e p m = 0 := by
  rw [fraction_rat, if_neg (not_le.2 hp), if_pos h]

/-- Short of a certain win, a positive edge and chance stake the Kelly term held to `[0, 1]`. -/
theorem fraction_of_odds (hp : p < 1) (he : 0 < e) (hp0 : 0 < p) :
    fraction e p m = m * min 1 (max 0 (term e p)) := by
  have hn : ¬(e ≤ 0 ∨ p ≤ 0) := by
    rintro (h | h)
    · exact absurd he (not_lt.2 h)
    · exact absurd hp0 (not_lt.2 h)
  rw [fraction_rat, if_neg (not_le.2 hp), if_neg hn, mul_comm]

end Branches

/-- Holding to `[0, 1]` keeps the order. -/
theorem unit_clamp_le {x y : ℚ} (h : x ≤ y) : min 1 (max 0 x) ≤ min 1 (max 0 y) :=
  min_le_min_left 1 (max_le_max_left 0 h)

/-- At a positive edge the Kelly term grows with the edge: the loss term shrinks. -/
theorem term_le_of_edge {e e' : ℚ} (p : ℚ) (he : 0 < e) (hle : e ≤ e') : term e p ≤ term e' p := by
  have hloss : (1 - p) ^ 2 / e' ≤ (1 - p) ^ 2 / e := div_le_div_of_nonneg_left (sq_nonneg _) he hle
  unfold term
  linarith

/-- Below one the Kelly term grows with the probability: the win term rises and the loss term,
the square of a shrinking non-negative number, falls. -/
theorem term_le_of_prob {p p' : ℚ} (e : ℚ) (he : 0 < e) (hle : p ≤ p') (hp' : p' < 1) :
    term e p ≤ term e p' := by
  have hsq : (1 - p') ^ 2 ≤ (1 - p) ^ 2 := pow_le_pow_left₀ (by linarith) (by linarith) 2
  have hloss : (1 - p') ^ 2 / e ≤ (1 - p) ^ 2 / e := div_le_div_of_nonneg_right hsq he.le
  unfold term
  linarith

variable {m : ℚ}

/-- For a multiplier `m ≥ 0` the Kelly fraction never falls as the edge grows. Short of a certain
win and with some chance, the lower edge either stakes nothing or both stake by the Kelly term. -/
theorem fraction_mono_edge (hm : 0 ≤ m) (p : ℚ) : Monotone fun e => fraction e p m := by
  intro e e' hle
  show fraction e p m ≤ fraction e' p m
  by_cases hp : 1 ≤ p
  · rw [fraction_of_certain m hp, fraction_of_certain m hp]
  have hp1 : p < 1 := not_le.1 hp
  by_cases hp0 : p ≤ 0
  · rw [fraction_of_nothing m hp1 (.inr hp0), fraction_of_nothing m hp1 (.inr hp0)]
  have hp0' : 0 < p := not_le.1 hp0
  by_cases he : e ≤ 0
  · rw [fraction_of_nothing m hp1 (.inl he)]
    exact (fraction_mem e' p m hm).1
  have he0 : 0 < e := not_le.1 he
  rw [fraction_of_odds m hp1 he0 hp0', fraction_of_odds m hp1 (he0.trans_le hle) hp0']
  exact mul_le_mul_of_nonneg_left (unit_clamp_le (term_le_of_edge p he0 hle)) hm

/-- For a multiplier `m ≥ 0` the Kelly fraction never falls as the win probability grows. A
certain win at the higher probability stakes the most a bet can; below it, the lower probability
either stakes nothing or both stake by the Kelly term. -/
theorem fraction_mono_prob (hm : 0 ≤ m) (e : ℚ) : Monotone fun p => fraction e p m := by
  intro p p' hle
  show fraction e p m ≤ fraction e p' m
  by_cases hp' : 1 ≤ p'
  · rw [fraction_of_certain m hp']
    exact (fraction_mem e p m hm).2
  have hp1' : p' < 1 := not_le.1 hp'
  have hp1 : p < 1 := hle.trans_lt hp1'
  by_cases hn : e ≤ 0 ∨ p ≤ 0
  · rw [fraction_of_nothing m hp1 hn]
    exact (fraction_mem e p' m hm).1
  obtain ⟨he0, hp0⟩ : 0 < e ∧ 0 < p := by
    rw [not_or, not_le, not_le] at hn
    exact hn
  rw [fraction_of_odds m hp1 he0 hp0, fraction_of_odds m hp1' he0 (hp0.trans_le hle)]
  exact mul_le_mul_of_nonneg_left (unit_clamp_le (term_le_of_prob e he0 hle hp1')) hm

/-- Raising the edge and the win probability together never lowers the Kelly fraction. -/
theorem fraction_le_fraction (hm : 0 ≤ m) {e e' p p' : ℚ} (he : e ≤ e') (hp : p ≤ p') :
    fraction e p m ≤ fraction e' p' m :=
  calc fraction e p m ≤ fraction e' p m := fraction_mono_edge hm p he
    _ ≤ fraction e' p' m := fraction_mono_prob hm e' hp

/-- The Kelly fraction in exact arithmetic, for a multiplier `m ≥ 0` and any edge and win
probability: it lies in `[0, m]`; it is `m` for a certain win, whatever the edge; short of that,
it is nothing without edge or chance, and otherwise `m` times `p - (1 - p)^2 / e` held to `[0, 1]`;
and it never falls as the edge or the probability grows. -/
theorem fraction_shape (m : ℚ) (hm : 0 ≤ m) :
    (∀ e p, 0 ≤ fraction e p m ∧ fraction e p m ≤ m) ∧
    (∀ e p, 1 ≤ p → fraction e p m = m) ∧
    (∀ e p, p < 1 → e ≤ 0 ∨ p ≤ 0 → fraction e p m = 0) ∧
    (∀ e p, p < 1 → 0 < e → 0 < p →
      fraction e p m = m * min 1 (max 0 (p - (1 - p) ^ 2 / e))) ∧
    (∀ p, Monotone fun e => fraction e p m) ∧
    (∀ e, Monotone fun p => fraction e p m) :=
  ⟨fun e p => fraction_mem e p m hm, fun _ _ hp => fraction_of_certain m hp,
    fun _ _ hp h => fraction_of_nothing m hp h, fun _ _ hp he hp0 => fraction_of_odds m hp he hp0,
    fraction_mono_edge hm, fraction_mono_prob hm⟩

/-- At quarter Kelly. -/
theorem fraction_shape_at_quarter :
    0 ≤ (0.25 : ℚ) ∧
    ((∀ e p, 0 ≤ fraction e p (0.25 : ℚ) ∧ fraction e p (0.25 : ℚ) ≤ 0.25) ∧
    (∀ e p, 1 ≤ p → fraction e p (0.25 : ℚ) = 0.25) ∧
    (∀ e p, p < 1 → e ≤ 0 ∨ p ≤ 0 → fraction e p (0.25 : ℚ) = 0) ∧
    (∀ e p, p < 1 → 0 < e → 0 < p →
      fraction e p (0.25 : ℚ) = 0.25 * min 1 (max 0 (p - (1 - p) ^ 2 / e))) ∧
    (∀ p, Monotone fun e => fraction e p (0.25 : ℚ)) ∧
    (∀ e, Monotone fun p => fraction e p (0.25 : ℚ))) :=
  ⟨by norm_num, fraction_shape 0.25 (by norm_num)⟩

end TradeDesk.Kelly
