import Mathlib
import TradeDesk.Decision
import TradeDesk.Proofs.Sensitivity

/-!
# Sizing, then routing: what a decision does

`Decider.decide` sizes a signal and routes the stake. Once the sizing `s` of the signal is known
(`Decides`, proved by `decide_of_sizing`):

* the decision is a skip, with the decider as it was and so nothing asked of the desk, exactly when
  the stake is zero or less;
* any other stake is routed as a typed order for the market and side at exactly the stake, and the
  desk's route or error is the decision's;
* the sizing session is never changed (`decide_sizer`), and booking an outcome is booking the trade
  without a category.

Read in exact arithmetic (`Ledger.Floored`, proved by `Ledger.calculate_floored`), the fraction of
any recommendation is at least the band's floor, which a valid configuration keeps positive; so the
stake is zero or less exactly when the bankroll is, and a signal with no edge is routed at the floor
of a positive bankroll.
-/

namespace TradeDesk

namespace Ledger

open Numeric

/-- What a recommendation `s` for a signal of edge `e` guarantees in exact arithmetic: the fraction
is at least the band's floor, the stake is zero or less exactly when the bankroll is, and with no
edge a positive bankroll is staked at the floor. -/
structure Floored (cfg : SizingConfig ℚ) (l : Ledger ℚ) (e : ℚ) (s : Sizing ℚ) : Prop where
  /-- The fraction is at least the band's floor. -/
  kelly_ge : cfg.minKelly ≤ s.kelly
  /-- The stake is zero or less exactly when the bankroll is. -/
  position_nonpos_iff : s.position ≤ 0 ↔ l.bankroll ≤ 0
  /-- With no edge, a positive bankroll is staked at the floor. -/
  of_no_edge : e ≤ 0 → 0 < l.bankroll → s.kelly = cfg.minKelly ∧ s.position = cfg.minKelly * l.bankroll

variable {cfg : SizingConfig ℚ} (hcfg : cfg.Valid)
include hcfg

/-- A positive fraction of a bankroll is zero or less exactly when the bankroll is. -/
theorem size_position_nonpos_iff (l : Ledger ℚ) (e p : ℚ) (notes : List (Note ℚ)) :
    (l.size cfg e p notes).position ≤ 0 ↔ l.bankroll ≤ 0 := by
  have hk := size_kelly_pos hcfg l e p notes
  rw [size_position]
  by_cases hb : 0 < l.bankroll
  · rw [if_pos hb]
    exact ⟨fun h => absurd h (not_le.2 (mul_pos hk hb)), fun h => absurd h (not_le.2 hb)⟩
  · rw [if_neg hb]
    exact ⟨fun _ => not_lt.1 hb, fun _ => le_rfl⟩

omit hcfg in
/-- The sanitised probability is short of a certain win. -/
theorem sanitizeProbability_lt_one (p : ℚ) : (sanitizeProbability p).1 < 1 := by
  rw [sanitizeProbability_rat]
  split_ifs with h
  · norm_num
  · exact max_lt one_pos (not_le.1 h)

/-- A signal with no edge has no base fraction, so its fraction is the band's floor. -/
theorem calculate_kelly_of_nonpos (l : Ledger ℚ) {e : ℚ} (he : e ≤ 0) (p : ℚ) :
    (l.calculate cfg e p).kelly = cfg.minKelly := by
  have hbase : Kelly.fraction (sanitizeEdge e).1 (sanitizeProbability p).1 cfg.baseMultiplier = 0 :=
    Kelly.fraction_of_nothing _ (sanitizeProbability_lt_one p)
      (.inl (by rw [sanitizeEdge_rat, max_eq_left he]))
  rw [calculate, size_kelly, hbase, zero_mul, min_eq_right hcfg.maxKelly_pos.le]
  exact max_eq_left hcfg.minKelly_pos.le

/-- Every recommendation, read in exact arithmetic under a valid configuration, is floored. -/
theorem calculate_floored (l : Ledger ℚ) (e p : ℚ) : Floored cfg l e (l.calculate cfg e p) where
  kelly_ge := by
    rw [calculate, size_kelly]
    exact le_max_left _ _
  position_nonpos_iff := size_position_nonpos_iff hcfg l _ _ _
  of_no_edge he hb := by
    have hk := calculate_kelly_of_nonpos hcfg l he p
    refine ⟨hk, ?_⟩
    rw [calculate, size_position, if_pos hb, ← calculate, hk]

end Ledger

namespace Decider

/-- What deciding on a signal does once its sizing `s` is known: a stake of zero or less is
skipped with the decider as it was, any other is routed as a typed order at exactly the stake, and
the sizing session is left as it was. -/
structure Decides (d : Decider) (market side : Value) (s : Sizing Num)
    (r : Decider × Except DecisionError Decision) : Prop where
  /-- The decision is a skip, asking nothing of the desk, exactly when the stake is zero or less. -/
  skip_iff : r = (d, .ok ⟨s, none, some "position size is 0"⟩) ↔ s.position.le (.int 0) = true
  /-- Any other stake is routed for the market and side at exactly the stake; the desk's route or
  error is the decision's. -/
  routed : s.position.le (.int 0) = false →
    r = ({ d with desk := (d.desk.findBestRoute ⟨market, side, .num s.position, true⟩).1 },
      match (d.desk.findBestRoute ⟨market, side, .num s.position, true⟩).2 with
      | .ok o => .ok ⟨s, some o, none⟩
      | .error e => .error (.routing e))
  /-- The sizing session is left as it was. -/
  sizer : r.1.sizer = d.sizer

variable (d : Decider) (market side edge p : Value)

/-- Deciding never changes the sizing session, whatever the signal. -/
theorem decide_sizer : (d.decide market side edge p).1.sizer = d.sizer := by
  unfold decide
  split
  · rfl
  · split
    · rfl
    · rfl

/-- With its sizing known, a decision skips a stake of zero or less. -/
theorem decide_skips {s : Sizing Num} (hs : d.sizer.calculate edge p = .ok s)
    (hle : s.position.le (.int 0) = true) :
    d.decide market side edge p = (d, .ok ⟨s, none, some "position size is 0"⟩) := by
  rw [decide, hs]
  exact if_pos hle

/-- With its sizing known, a decision routes any positive stake. -/
theorem decide_routes {s : Sizing Num} (hs : d.sizer.calculate edge p = .ok s)
    (hle : s.position.le (.int 0) = false) :
    d.decide market side edge p =
      ({ d with desk := (d.desk.findBestRoute ⟨market, side, .num s.position, true⟩).1 },
        match (d.desk.findBestRoute ⟨market, side, .num s.position, true⟩).2 with
        | .ok o => .ok ⟨s, some o, none⟩
        | .error e => .error (.routing e)) := by
  rw [decide, hs]
  exact if_neg (hle ▸ Bool.false_ne_true)

/-- A decision whose sizing is known is a skip or the desk's answer for the stake. -/
theorem decide_of_sizing {s : Sizing Num} (hs : d.sizer.calculate edge p = .ok s) :
    Decides d market side s (d.decide market side edge p) where
  skip_iff := by
    cases hle : s.position.le (.int 0)
    · -- a routed decision carries the desk's route or its error, never a skip
      rw [decide_routes d market side edge p hs hle]
      refine ⟨fun h => ?_, fun h => absurd h Bool.false_ne_true⟩
      have hsnd := congrArg Prod.snd h
      cases hr : (d.desk.findBestRoute ⟨market, side, .num s.position, true⟩).2 <;>
        simp [hr] at hsnd
    · rw [decide_skips d market side edge p hs hle]
      exact ⟨fun _ => rfl, fun _ => rfl⟩
  routed := decide_routes d market side edge p hs
  sizer := decide_sizer d market side edge p

/-- Booking an outcome books the trade in the sizing session without a category, and leaves the
desk as it was. -/
theorem recordOutcome_eq (outcome pnl : Value) :
    d.recordOutcome outcome pnl =
      ({ d with sizer := (d.sizer.recordTrade outcome pnl .null).1 },
        (d.sizer.recordTrade outcome pnl .null).2) := rfl

/-- Sizing, then routing, for every decider and signal whose sizing is known, and in exact
arithmetic for every session under a valid configuration. The decision skips the stake exactly
when it is zero or less, without asking the desk; otherwise it routes exactly the stake as a typed
order for the market and side and answers with the desk's route or error. The sizing session never
changes, and booking an outcome books the trade without a category. In exact arithmetic the
fraction is at least the band's floor, so the stake is zero or less exactly when the bankroll is,
and a signal with no edge is staked at the floor of a positive bankroll. -/
theorem decide_routes_the_stake {s : Sizing Num} (hs : d.sizer.calculate edge p = .ok s)
    (outcome pnl : Value) {cfg : SizingConfig ℚ} (hcfg : cfg.Valid) (l : Ledger ℚ) (e q : ℚ) :
    Decides d market side s (d.decide market side edge p) ∧
      d.recordOutcome outcome pnl =
        ({ d with sizer := (d.sizer.recordTrade outcome pnl .null).1 },
          (d.sizer.recordTrade outcome pnl .null).2) ∧
      Ledger.Floored cfg l e (l.calculate cfg e q) :=
  ⟨decide_of_sizing d market side edge p hs, recordOutcome_eq d outcome pnl,
    Ledger.calculate_floored hcfg l e q⟩

/-- A signal whose edge and probability are not numbers, at a fresh session of `1000` under the
standard configuration: it is sized as no edge, and routed at the floor. -/
theorem decide_routes_the_stake_without_edge :
    let d : Decider := ⟨⟨SizingConfig.standard, Ledger.start (.float 1000.0) 20⟩,
      ⟨Feed.empty, .config RouterConfig.standard, VenueTable.standard, none⟩⟩
    let s := d.sizer.ledger.size d.sizer.config 0.0 0.0 [.edgeNotFinite .null, .probabilityNotFinite .null]
    let cfg : SizingConfig ℚ := SizingConfig.standard
    let l : Ledger ℚ := Ledger.start 1000 20
    d.sizer.calculate .null .null = .ok s ∧ cfg.Valid ∧
      Decides d (.str "m1") (.str "buy") s (d.decide (.str "m1") (.str "buy") .null .null) ∧
      d.recordOutcome (.str "win") (.float 10.0) =
        ({ d with sizer := (d.sizer.recordTrade (.str "win") (.float 10.0) .null).1 },
          (d.sizer.recordTrade (.str "win") (.float 10.0) .null).2) ∧
      Ledger.Floored cfg l 0 (l.calculate cfg 0 (6 / 10)) := by
  intro d s cfg l
  have hs : d.sizer.calculate .null .null = .ok s := rfl
  exact ⟨hs, SizingConfig.standard_valid,
    decide_routes_the_stake d (.str "m1") (.str "buy") .null .null hs (.str "win") (.float 10.0)
      SizingConfig.standard_valid l 0 (6 / 10)⟩

end Decider

end TradeDesk
