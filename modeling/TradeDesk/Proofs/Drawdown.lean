import Mathlib
import TradeDesk.Proofs.Exact
import TradeDesk.Proofs.Ledger

/-!
# The peak and the drawdown over every run

A session starts at a positive bankroll `i`, with the peak at `i` and no drawdown. Whatever calls
follow, in exact arithmetic:

* the peak is the largest of `i` and the bankrolls held since the last reset, so it is at least
  the bankroll and at least `i`, and positive;
* the drawdown is the fall of the bankroll from the peak, as a share of the peak, held to
  `[0, 1]`;
* no step lowers the peak but a reset, which puts it back at `i`.

The bankroll may fall to zero or below; nothing here needs it positive. The one division a step
makes without a test before it is the drawdown's, by the peak just raised (`Ledger.refresh`); the
peak is positive in every state a run reaches, so that division is never by zero. (The return of a
trade divides by the bankroll only when the bankroll is positive.)

The proof carries `PeakAccount`, which the start satisfies (`PeakAccount.start`) and every effect
keeps (`PeakAccount.after`), given the bankrolls held as `Ledger.held` lists them. A step is one of
the three cases of `after_cases`; the two effects that move the bankroll are handled at once by
`PeakAccount.rebalanced`.
-/

namespace TradeDesk

namespace Ledger

open Numeric

variable {α : Type} [Numeric α]

/-- The bankrolls a run from `l` holds after each of its effects since its last reset, oldest
first, following `acc`, those held since the last reset before the run. -/
def held (l : Ledger α) (acc : List α) : List (Effect α) → List α
  | [] => acc
  | e :: es => (l.after e).held (if e.isReset then [] else acc ++ [(l.after e).bankroll]) es

/-- The account of the peak of a ledger started at `i`, given `held`, the bankrolls held since
the last reset: the peak is `i` or one of them and at least each of them, it is at least `i` and
the bankroll, and the drawdown is the fall from it held to `[0, 1]`. -/
structure PeakAccount (i : ℚ) (l : Ledger ℚ) (held : List ℚ) : Prop where
  initial : l.initial = i
  attained : l.peak = i ∨ l.peak ∈ held
  bounds : ∀ b ∈ held, b ≤ l.peak
  initial_le : i ≤ l.peak
  bankroll_le : l.bankroll ≤ l.peak
  drawdown : l.drawdown = min 1 (max 0 ((l.peak - l.bankroll) / l.peak))

namespace PeakAccount

/-- A fresh ledger: the peak is the bankroll `i`, and the drawdown is zero. -/
theorem start (i : ℚ) (n : Nat) : PeakAccount i (Ledger.start i n) [] where
  initial := rfl
  attained := .inl rfl
  bounds := by simp
  initial_le := le_rfl
  bankroll_le := le_rfl
  drawdown := by norm_num

variable {i : ℚ} {l : Ledger ℚ} {acc : List ℚ}

/-- Moving the bankroll to `b` and refreshing keeps the account, with `b` held. -/
theorem rebalanced (h : PeakAccount i l acc) {l' : Ledger ℚ} {b : ℚ} (hl : Rebalanced l l' b) :
    PeakAccount i l' (acc ++ [b]) := by
  have hpeak : l'.peak = max l.peak b := by rw [hl.peak, larger_rat]
  refine ⟨hl.initial.trans h.initial, ?_, ?_, ?_, ?_, ?_⟩
  · -- The raised peak is the old one, already accounted for, or the new bankroll.
    rcases max_choice l.peak b with hm | hm <;> rw [hpeak, hm]
    · exact h.attained.imp_right fun hmem => List.mem_append_left _ hmem
    · exact .inr (List.mem_append_right _ (List.mem_singleton_self b))
  · intro x hx
    rw [hpeak]
    rcases List.mem_append.1 hx with hx | hx
    · exact (h.bounds x hx).trans (le_max_left _ _)
    · rw [List.mem_singleton.1 hx]
      exact le_max_right _ _
  · rw [hpeak]
    exact h.initial_le.trans (le_max_left _ _)
  · rw [hpeak, hl.bankroll]
    exact le_max_right _ _
  · rw [hl.drawdown, hpeak, hl.bankroll, larger_rat, clamp_unit_rat]

/-- Every effect keeps the account, with the bankrolls held updated as `held` updates them. -/
theorem after (h : PeakAccount i l acc) (e : Effect ℚ) :
    PeakAccount i (l.after e) (if e.isReset then [] else acc ++ [(l.after e).bankroll]) := by
  rcases after_cases l e with ⟨rfl, hl⟩ | ⟨rfl, hl⟩ | ⟨hr, b, hb⟩
  · rw [hl, h.initial]
    exact start i _
  · rw [hl]
    refine ⟨h.initial, h.attained.imp_right fun hmem => List.mem_append_left _ hmem, ?_,
      h.initial_le, h.bankroll_le, h.drawdown⟩
    intro x hx
    rcases List.mem_append.1 hx with hx | hx
    · exact h.bounds x hx
    · rw [List.mem_singleton.1 hx]
      exact h.bankroll_le
  · rw [hr, if_neg Bool.false_ne_true, hb.bankroll]
    exact h.rebalanced hb

/-- A whole run keeps the account. The induction is on the effects, with the ledger and the
bankrolls held so far generalised. -/
theorem run (h : PeakAccount i l acc) (es : List (Effect ℚ)) :
    PeakAccount i (l.run es) (l.held acc es) := by
  induction es generalizing l acc with
  | nil => exact h
  | cons e es ih => exact ih (h.after e)

/-- The peak is positive once `i` is. -/
theorem peak_pos (h : PeakAccount i l acc) (hi : 0 < i) : 0 < l.peak :=
  hi.trans_le h.initial_le

/-- The drawdown lies in `[0, 1]`. -/
theorem drawdown_mem (h : PeakAccount i l acc) : 0 ≤ l.drawdown ∧ l.drawdown ≤ 1 := by
  rw [h.drawdown]
  exact ⟨le_min zero_le_one (le_max_left _ _), min_le_left _ _⟩

end PeakAccount

/-- No effect but a reset lowers the peak. -/
theorem peak_le_after (l : Ledger ℚ) (e : Effect ℚ) (he : e.isReset = false) :
    l.peak ≤ (l.after e).peak := by
  rcases after_cases l e with ⟨rfl, -⟩ | ⟨-, hl⟩ | ⟨-, b, hb⟩
  · exact absurd he (by decide)
  · rw [hl]
  · rw [hb.peak, larger_rat]
    exact le_max_left _ _

/-- A reset puts the peak back at the initial bankroll. -/
theorem after_reset_peak (l : Ledger α) : (l.after .reset).peak = l.initial := rfl

/-- Over every run of a session started at a positive bankroll `i` with a window of `n` trades,
in exact arithmetic: the peak is the largest of `i` and the bankrolls held since the last reset
(at least the bankroll and `i`, and positive, so the drawdown never divides by zero), the
drawdown is `min 1 (max 0 ((peak - bankroll) / peak))` and lies in `[0, 1]`, and from the state
reached no step lowers the peak but a reset, which restores it to `i`. -/
theorem run_peak_drawdown (i : ℚ) (hi : 0 < i) (n : Nat) (es : List (Effect ℚ)) :
    let l := (start i n).run es
    PeakAccount i l ((start i n).held [] es) ∧ 0 < l.peak ∧ 0 ≤ l.drawdown ∧ l.drawdown ≤ 1 ∧
      (∀ e : Effect ℚ, e.isReset = false → l.peak ≤ (l.after e).peak) ∧
      (l.after .reset).peak = i := by
  intro l
  have h : PeakAccount i l ((start i n).held [] es) := (PeakAccount.start i n).run es
  refine ⟨h, h.peak_pos hi, h.drawdown_mem.1, h.drawdown_mem.2, fun e he => peak_le_after l e he,
    ?_⟩
  rw [after_reset_peak, h.initial]

/-- A session at `1000` whose bankroll a loss drives below zero, then set to `1200`, then reset. -/
theorem run_peak_drawdown_through_ruin :
    0 < (1000 : ℚ) ∧
      let es : List (Effect ℚ) := [.record false (-1500) .null, .setBankroll 1200, .reset]
      let l := (start 1000 20).run es
      PeakAccount 1000 l ((start 1000 20).held [] es) ∧ 0 < l.peak ∧ 0 ≤ l.drawdown ∧
        l.drawdown ≤ 1 ∧ (∀ e : Effect ℚ, e.isReset = false → l.peak ≤ (l.after e).peak) ∧
        (l.after .reset).peak = 1000 :=
  ⟨by norm_num, run_peak_drawdown 1000 (by norm_num) 20 _⟩

end Ledger

end TradeDesk
