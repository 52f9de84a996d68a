import Mathlib
import TradeDesk.Sizing.Ledger

/-!
# What a session's calls do to its ledger

A sizing session changes its ledger in three ways and no other. `Ledger.Effect` names them, with
a fourth that changes nothing: a trade booked (`record`, also when the call then fails on its
category), the bankroll replaced (`setBankroll`), a `reset`, or `keep` (sizing a bet, reading the
state, and every call refused before it books). `Ledger.run` applies effects in order.

The lemmas below say what each step of `Ledger` touches. `refresh` sets only the peak and the
drawdown; `bookTrade` the bankroll side and the window; `countCategory` only the categories;
`countTrade` the streaks, the count and the win rate. `record` is these three in a row, cut short
after `bookTrade` by a category that cannot be a key (`record_fst`). The theorems about whole runs
cite these lemmas and never unfold a step.
-/

namespace TradeDesk

namespace Ledger

/-- What one call of a sizing session does to its ledger. -/
inductive Effect (α : Type) where
  /-- A trade booked, with its outcome, profit and loss, and category. -/
  | record (won : Bool) (pnl : α) (category : Value)
  /-- The bankroll replaced. -/
  | setBankroll (b : α)
  /-- Back to the start. -/
  | reset
  /-- Nothing changed. -/
  | keep

/-- Whether an effect is a reset. -/
def Effect.isReset {α : Type} : Effect α → Bool
  | .reset => true
  | _ => false

variable {α : Type} [Numeric α]

/-- The ledger after an effect. -/
def after (l : Ledger α) : Effect α → Ledger α
  | .record won pnl category => (l.record won pnl category).1
  | .setBankroll b => l.setBankroll b
  | .reset => l.reset
  | .keep => l

/-- The ledger after a run of effects, in order. -/
def run (l : Ledger α) (es : List (Effect α)) : Ledger α := es.foldl after l

@[simp] theorem run_nil (l : Ledger α) : l.run [] = l := rfl

@[simp] theorem run_cons (l : Ledger α) (e : Effect α) (es : List (Effect α)) :
    l.run (e :: es) = (l.after e).run es := rfl

/-! ## The steps, field by field -/

section Category

omit [Numeric α]

variable (l : Ledger α) (won : Bool) (category : Value)

@[simp] theorem countCategory_initial : (l.countCategory category won).initial = l.initial := by
  unfold countCategory; split_ifs <;> rfl
@[simp] theorem countCategory_bankroll : (l.countCategory category won).bankroll = l.bankroll := by
  unfold countCategory; split_ifs <;> rfl
@[simp] theorem countCategory_peak : (l.countCategory category won).peak = l.peak := by
  unfold countCategory; split_ifs <;> rfl
@[simp] theorem countCategory_drawdown :
    (l.countCategory category won).drawdown = l.drawdown := by
  unfold countCategory; split_ifs <;> rfl
@[simp] theorem countCategory_window : (l.countCategory category won).window = l.window := by
  unfold countCategory; split_ifs <;> rfl
@[simp] theorem countCategory_total : (l.countCategory category won).total = l.total := by
  unfold countCategory; split_ifs <;> rfl
@[simp] theorem countCategory_winStreak :
    (l.countCategory category won).winStreak = l.winStreak := by
  unfold countCategory; split_ifs <;> rfl
@[simp] theorem countCategory_lossStreak :
    (l.countCategory category won).lossStreak = l.lossStreak := by
  unfold countCategory; split_ifs <;> rfl

/-- Counting a trade in a category bumps the tally of every entry whose key is that category, or
adds the category with one trade when no entry has it. -/
theorem countCategory_categories :
    (l.countCategory category won).categories =
      if l.categories.any (fun (k, _) => k.sameKey category) then
        l.categories.map fun (k, t) =>
          if k.sameKey category then (k, ⟨t.wins + (if won then 1 else 0), t.total + 1⟩) else (k, t)
      else l.categories ++ [(category, ⟨if won then 1 else 0, 1⟩)] := by
  unfold countCategory
  cases won <;> split_ifs <;> rfl

end Category

section Refresh

variable (l : Ledger α)

@[simp] theorem refresh_initial : l.refresh.initial = l.initial := rfl
@[simp] theorem refresh_bankroll : l.refresh.bankroll = l.bankroll := rfl
@[simp] theorem refresh_window : l.refresh.window = l.window := rfl
@[simp] theorem refresh_total : l.refresh.total = l.total := rfl
@[simp] theorem refresh_winStreak : l.refresh.winStreak = l.winStreak := rfl
@[simp] theorem refresh_lossStreak : l.refresh.lossStreak = l.lossStreak := rfl
@[simp] theorem refresh_winRate : l.refresh.winRate = l.winRate := rfl
@[simp] theorem refresh_categories : l.refresh.categories = l.categories := rfl

theorem refresh_peak : l.refresh.peak = Numeric.larger l.peak l.bankroll := rfl

theorem refresh_drawdown :
    l.refresh.drawdown =
      Numeric.clamp 0.0 1.0 ((Numeric.larger l.peak l.bankroll - l.bankroll) /
        Numeric.larger l.peak l.bankroll) := rfl

end Refresh

section Steps

variable (l : Ledger α) (won : Bool) (pnl : α) (category : Value)

/-- Booking a trade moves the bankroll by its profit and loss, refreshes the peak and drawdown,
and pushes the trade, with its return on the bankroll before it, into the window. -/
theorem bookTrade_eq :
    l.bookTrade won pnl =
      { ({ l with bankroll := l.bankroll + pnl } : Ledger α).refresh with
        window := (l.window.push
          ⟨won, pnl, if Numeric.zero < l.bankroll then pnl / l.bankroll else 0.0⟩).1 } := rfl

theorem bookTrade_bankroll : (l.bookTrade won pnl).bankroll = l.bankroll + pnl := rfl

theorem bookTrade_peak :
    (l.bookTrade won pnl).peak = Numeric.larger l.peak (l.bankroll + pnl) := rfl

theorem bookTrade_drawdown :
    (l.bookTrade won pnl).drawdown =
      Numeric.clamp 0.0 1.0 ((Numeric.larger l.peak (l.bankroll + pnl) - (l.bankroll + pnl)) /
        Numeric.larger l.peak (l.bankroll + pnl)) := rfl

@[simp] theorem bookTrade_initial : (l.bookTrade won pnl).initial = l.initial := rfl
@[simp] theorem bookTrade_total : (l.bookTrade won pnl).total = l.total := rfl
@[simp] theorem bookTrade_winStreak : (l.bookTrade won pnl).winStreak = l.winStreak := rfl
@[simp] theorem bookTrade_lossStreak : (l.bookTrade won pnl).lossStreak = l.lossStreak := rfl
@[simp] theorem bookTrade_winRate : (l.bookTrade won pnl).winRate = l.winRate := rfl
@[simp] theorem bookTrade_categories : (l.bookTrade won pnl).categories = l.categories := rfl

@[simp] theorem countTrade_initial : (l.countTrade won).initial = l.initial := rfl
@[simp] theorem countTrade_bankroll : (l.countTrade won).bankroll = l.bankroll := rfl
@[simp] theorem countTrade_peak : (l.countTrade won).peak = l.peak := rfl
@[simp] theorem countTrade_drawdown : (l.countTrade won).drawdown = l.drawdown := rfl
@[simp] theorem countTrade_window : (l.countTrade won).window = l.window := rfl
@[simp] theorem countTrade_categories : (l.countTrade won).categories = l.categories := rfl
@[simp] theorem countTrade_total : (l.countTrade won).total = l.total + 1 := rfl
@[simp] theorem countTrade_winRate : (l.countTrade won).winRate = l.window.winRate := rfl

theorem countTrade_winStreak :
    (l.countTrade won).winStreak = if won then l.winStreak + 1 else 0 := rfl

theorem countTrade_lossStreak :
    (l.countTrade won).lossStreak = if won then 0 else l.lossStreak + 1 := rfl

/-- Recording a trade books it, then counts its category when the category is a truthy key, then
counts the trade; a truthy category that cannot be a key stops it after the booking. -/
theorem record_fst :
    (l.record won pnl category).1 =
      if category.truthy then
        if category.isKey then ((l.bookTrade won pnl).countCategory category won).countTrade won
        else l.bookTrade won pnl
      else (l.bookTrade won pnl).countTrade won := by
  unfold record
  split <;> (try split) <;> rfl

/-- Recording a trade fails exactly when its category is truthy and cannot be a key. -/
theorem record_snd :
    (l.record won pnl category).2 =
      if category.truthy && !category.isKey then some (.unhashable category.typeName)
      else none := by
  unfold record
  cases category.truthy <;> cases category.isKey <;> rfl

/-- The bankroll side of a recorded trade is the booking's, whether or not the call fails. -/
theorem record_balance :
    (l.record won pnl category).1.initial = l.initial ∧
      (l.record won pnl category).1.bankroll = (l.bookTrade won pnl).bankroll ∧
      (l.record won pnl category).1.peak = (l.bookTrade won pnl).peak ∧
      (l.record won pnl category).1.drawdown = (l.bookTrade won pnl).drawdown := by
  rw [record_fst]
  split <;> (try split) <;> simp

/-- Whatever the category, a recorded trade is in the window as the booking put it there. -/
@[simp] theorem record_window :
    (l.record won pnl category).1.window = (l.bookTrade won pnl).window := by
  rw [record_fst]
  split <;> (try split) <;> simp

/-- A trade with a category that can be a key is booked, its category counted if truthy, and
counted. -/
theorem record_of_isKey (hk : category.isKey = true) :
    (l.record won pnl category).1 =
      (if category.truthy then (l.bookTrade won pnl).countCategory category won
        else l.bookTrade won pnl).countTrade won := by
  rw [record_fst, hk]
  cases category.truthy <;> rfl

end Steps

@[simp] theorem setBankroll_initial (l : Ledger α) (b : α) :
    (l.setBankroll b).initial = l.initial := rfl

@[simp] theorem setBankroll_bankroll (l : Ledger α) (b : α) :
    (l.setBankroll b).bankroll = b := rfl

section SetBankroll

variable (l : Ledger α) (b : α)

@[simp] theorem setBankroll_window : (l.setBankroll b).window = l.window := rfl
@[simp] theorem setBankroll_total : (l.setBankroll b).total = l.total := rfl
@[simp] theorem setBankroll_winStreak : (l.setBankroll b).winStreak = l.winStreak := rfl
@[simp] theorem setBankroll_lossStreak : (l.setBankroll b).lossStreak = l.lossStreak := rfl
@[simp] theorem setBankroll_winRate : (l.setBankroll b).winRate = l.winRate := rfl
@[simp] theorem setBankroll_categories : (l.setBankroll b).categories = l.categories := rfl

end SetBankroll

theorem setBankroll_peak (l : Ledger α) (b : α) :
    (l.setBankroll b).peak = Numeric.larger l.peak b := rfl

theorem setBankroll_drawdown (l : Ledger α) (b : α) :
    (l.setBankroll b).drawdown =
      Numeric.clamp 0.0 1.0 ((Numeric.larger l.peak b - b) / Numeric.larger l.peak b) := rfl

@[simp] theorem reset_eq (l : Ledger α) : l.reset = start l.initial l.window.capacity := rfl

@[simp] theorem start_initial (i : α) (n : Nat) : (start i n).initial = i := rfl
@[simp] theorem start_bankroll (i : α) (n : Nat) : (start i n).bankroll = i := rfl
@[simp] theorem start_peak (i : α) (n : Nat) : (start i n).peak = i := rfl
@[simp] theorem start_drawdown (i : α) (n : Nat) : (start i n).drawdown = 0.0 := rfl

/-- Every effect keeps the initial bankroll. -/
@[simp] theorem after_initial (l : Ledger α) (e : Effect α) : (l.after e).initial = l.initial := by
  cases e with
  | record won pnl category => exact (record_balance l won pnl category).1
  | setBankroll b => rfl
  | reset => rfl
  | keep => rfl

/-! ## What an effect can do to the bankroll side -/

/-- `l'` is `l` with its bankroll moved to `b`, the peak raised to it if it is above, and the
drawdown recomputed from the two. -/
structure Rebalanced (l l' : Ledger α) (b : α) : Prop where
  initial : l'.initial = l.initial
  bankroll : l'.bankroll = b
  peak : l'.peak = Numeric.larger l.peak b
  drawdown : l'.drawdown =
    Numeric.clamp 0.0 1.0 ((Numeric.larger l.peak b - b) / Numeric.larger l.peak b)

/-- An effect starts over, changes nothing, or rebalances: a booked trade moves the bankroll by
its profit and loss, and a new bankroll replaces it, both through `refresh`. -/
theorem after_cases (l : Ledger α) (e : Effect α) :
    (e = .reset ∧ l.after e = start l.initial l.window.capacity) ∨ (e = .keep ∧ l.after e = l) ∨
      (e.isReset = false ∧ ∃ b, Rebalanced l (l.after e) b) := by
  cases e with
  | record won pnl category =>
    obtain ⟨hi, hb, hp, hd⟩ := record_balance l won pnl category
    exact .inr (.inr ⟨rfl, l.bankroll + pnl, ⟨hi, hb, hp, hd⟩⟩)
  | setBankroll b => exact .inr (.inr ⟨rfl, b, ⟨rfl, rfl, rfl, rfl⟩⟩)
  | reset => exact .inl ⟨rfl, rfl⟩
  | keep => exact .inr (.inl ⟨rfl, rfl⟩)

end Ledger

end TradeDesk
