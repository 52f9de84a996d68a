import Mathlib
import TradeDesk.Proofs.Ledger
import TradeDesk.Sizing.Sizer

/-!
# Sessions driven by calls

A caller drives a sizing session (`Sizer`) by calls whose arguments are any values (`Sizer.Call`):
sizing a bet, recording a trade, the Kelly fraction of a category, replacing the bankroll,
resetting, and reading the state. `Sizer.step` makes one call and says whether it returned
normally; `Sizer.run` makes a list of them.

Whatever a call is given, it reaches the ledger through exactly one `Ledger.Effect`, read off the
call by `Sizer.Call.effect` (`step_ledger`): a record call whose outcome and profit and loss are
valid books the trade, an update with a finite bankroll replaces it, a reset resets, and every
other call keeps the ledger. The configuration never changes. So a run of calls is a run of
effects (`run_ledger`), and what is proved of runs of effects holds of sessions.

A failed call leaves the session as it was, with one exception (`step_failed`): a record call
whose outcome and profit and loss are valid but whose category is truthy and cannot be a key
books the trade's bankroll side and window before the category stops it.
-/

namespace TradeDesk

namespace Sizer

/-- A call of a sizing session, with its arguments as the caller gives them. -/
inductive Call where
  | calculate (edge p : Value)
  | recordTrade (outcome pnl category : Value)
  | categoryKelly (category edge : Value)
  | updateBankroll (b : Value)
  | reset
  | getState

/-- One call made on a session: the session after it, and whether the call returned normally. -/
def step (s : Sizer) : Call → Sizer × Bool
  | .calculate edge p => (s, (s.calculate edge p).toBool)
  | .recordTrade outcome pnl category =>
    let r := s.recordTrade outcome pnl category
    (r.1, r.2.toBool)
  | .categoryKelly category edge => (s, (s.categoryKelly category edge).toBool)
  | .updateBankroll b => match s.updateBankroll b with
    | .ok s' => (s', true)
    | .error _ => (s, false)
  | .reset => (s.reset, true)
  | .getState => (s, true)

/-- The session after a list of calls, in order. -/
def run (s : Sizer) (cs : List Call) : Sizer := cs.foldl (fun s c => (s.step c).1) s

@[simp] theorem run_nil (s : Sizer) : s.run [] = s := rfl

@[simp] theorem run_cons (s : Sizer) (c : Call) (cs : List Call) :
    s.run (c :: cs) = (s.step c).1.run cs := rfl

/-- What a call does to the ledger: a record call books its trade once its outcome and profit and
loss are valid, an update replaces the bankroll once it is a finite number, a reset resets, and
nothing else touches the ledger. -/
def Call.effect : Call → Ledger.Effect Num
  | .recordTrade outcome pnl category =>
    match parseOutcome outcome, finiteValue? pnl with
    | .ok won, .ok (some x) => .record won (.float x) category
    | _, _ => .keep
  | .updateBankroll b =>
    match finiteValue? b with
    | .ok (some x) => .setBankroll (.float x)
    | _ => .keep
  | .reset => .reset
  | _ => .keep

/-- A call reaches the ledger only through its effect, and leaves the configuration alone. -/
theorem step_ledger (s : Sizer) (c : Call) :
    (s.step c).1.ledger = s.ledger.after c.effect ∧ (s.step c).1.config = s.config := by
  cases c with
  | recordTrade outcome pnl category =>
    simp only [step, recordTrade, Call.effect]
    -- The call and its effect test the outcome and then the profit and loss alike.
    rcases parseOutcome outcome with _ | won <;> rcases finiteValue? pnl with _ | _ | x <;>
      exact ⟨rfl, rfl⟩
  | updateBankroll b =>
    simp only [step, updateBankroll, Call.effect]
    rcases finiteValue? b with _ | _ | x <;> exact ⟨rfl, rfl⟩
  | calculate edge p => exact ⟨rfl, rfl⟩
  | categoryKelly category edge => exact ⟨rfl, rfl⟩
  | reset => exact ⟨rfl, rfl⟩
  | getState => exact ⟨rfl, rfl⟩

/-- A run of calls is the run of their effects on the ledger, under the same configuration. -/
theorem run_ledger (s : Sizer) (cs : List Call) :
    (s.run cs).ledger = s.ledger.run (cs.map Call.effect) ∧ (s.run cs).config = s.config := by
  induction cs generalizing s with
  | nil => exact ⟨rfl, rfl⟩
  | cons c cs ih =>
    obtain ⟨hl, hc⟩ := step_ledger s c
    obtain ⟨ihl, ihc⟩ := ih (s.step c).1
    rw [run_cons, ihl, ihc, hl, hc]
    exact ⟨rfl, rfl⟩

/-- A session is created fresh: the given configuration, and a ledger started at a binary64
bankroll with a window of the configured lookback. -/
theorem create_fresh {cfg : SizingConfig Num} {initial : Value} {s : Sizer}
    (hs : create cfg initial = .ok s) :
    ∃ x : Float, s = ⟨cfg, Ledger.start (.float x) cfg.lookback⟩ := by
  unfold create at hs
  rcases hv : finiteValue? initial with f | _ | x <;>
    simp only [hv, Except.mapError, bind, Except.bind] at hs
  · cases hs
  · cases hs
  · -- A positive bankroll: the window checks either fail or hand back the fresh session.
    refine ⟨x, ?_⟩
    split_ifs at hs
    cases hs
    rfl

/-- A session over `1000` under the standard configuration: creation checks the bankroll and the
window, each check decided on its own. -/
theorem create_standard : create SizingConfig.standard (.int 1000) =
    .ok ⟨SizingConfig.standard, Ledger.start (.float 1000.0) 20⟩ := by
  have hf : finiteValue? (.int 1000) = .ok (some 1000.0) := by rfl
  have hl : ¬((1000.0 : Float) ≤ 0.0) := by decide
  have hw : Value.fitsWord ((SizingConfig.standard : SizingConfig Num).lookback : Int) = true := by
    decide
  have hm : ¬(8 * (SizingConfig.standard : SizingConfig Num).lookback > Value.memoryBudget) := by
    decide
  simp only [create, hf, Except.mapError, bind, Except.bind, hl, hw, hm, if_false,
    Bool.not_true, Bool.false_eq_true]
  rfl

/-- The calls that book a trade are the record calls with a valid outcome and profit and loss;
the trade is theirs, with the profit and loss as a binary64 value. -/
theorem Call.effect_eq_record {c : Call} {won : Bool} {pnl : Num} {category : Value}
    (he : c.effect = .record won pnl category) :
    ∃ outcome pnl' x, c = .recordTrade outcome pnl' category ∧ parseOutcome outcome = .ok won ∧
      finiteValue? pnl' = .ok (some x) ∧ pnl = .float x := by
  cases c with
  | recordTrade outcome pnl' category' =>
    simp only [Call.effect] at he
    split at he
    · next won' x ho hp =>
      cases he
      exact ⟨outcome, pnl', x, rfl, ho, hp, rfl⟩
    · cases he
  | updateBankroll b =>
    simp only [Call.effect] at he
    split at he <;> cases he
  | calculate edge p => cases he
  | categoryKelly category edge => cases he
  | reset => cases he
  | getState => cases he

/-- A record call whose outcome and profit and loss are valid books the trade; it returns
normally unless its category is truthy and cannot be a key. -/
theorem step_recordTrade (s : Sizer) (outcome pnl category : Value) (won : Bool) (x : Float)
    (ho : parseOutcome outcome = .ok won) (hp : finiteValue? pnl = .ok (some x)) :
    (s.step (.recordTrade outcome pnl category)).1 =
        { s with ledger := (s.ledger.record won (.float x) category).1 } ∧
      (s.step (.recordTrade outcome pnl category)).2 =
        !(category.truthy && !category.isKey) := by
  constructor
  · simp only [step, recordTrade, ho, hp]
  · simp only [step, recordTrade, ho, hp]
    rw [Ledger.record_snd]
    cases category.truthy && !category.isKey <;> rfl

/-- A failed call leaves the session as it was, except a record call with a valid outcome and
profit and loss: that one failed on a truthy category that cannot be a key, after booking the
trade's bankroll side and window. -/
theorem step_failed (s : Sizer) (c : Call) (hf : (s.step c).2 = false) :
    match c.effect with
    | .record won pnl category =>
      category.truthy = true ∧ category.isKey = false ∧
        (s.step c).1 = { s with ledger := s.ledger.bookTrade won pnl }
    | _ => (s.step c).1 = s := by
  cases c with
  | recordTrade outcome pnl category =>
    -- Refused before the lock unless both the outcome and the profit and loss are valid.
    rcases ho : parseOutcome outcome with e | won
    · simp only [Call.effect, ho]
      simp only [step, recordTrade, ho]
    rcases hp : finiteValue? pnl with f | _ | x
    · simp only [Call.effect, ho, hp]
      simp only [step, recordTrade, ho, hp]
    · simp only [Call.effect, ho, hp]
      simp only [step, recordTrade, ho, hp]
    obtain ⟨hs, hb⟩ := step_recordTrade s outcome pnl category won x ho hp
    simp only [Call.effect, ho, hp]
    rw [hb] at hf
    -- The call failed, so the category is truthy and not a key, and recording stopped there.
    have hc : category.truthy = true ∧ category.isKey = false := by
      revert hf
      cases category.truthy <;> cases category.isKey <;> decide
    refine ⟨hc.1, hc.2, ?_⟩
    rw [hs, Ledger.record_fst, if_pos hc.1, if_neg (by simp [hc.2])]
  | updateBankroll b =>
    simp only [step, updateBankroll] at hf ⊢
    rcases hb : finiteValue? b with f | _ | x <;> simp only [hb, Call.effect] at hf ⊢
    exact absurd hf (by decide)
  | calculate edge p => rfl
  | categoryKelly category edge => rfl
  | reset => simp [step] at hf
  | getState => rfl

/-- A fresh session asked to record a won trade of `1` in the category `[1]`: the call fails, and
the trade is booked all the same. -/
theorem step_failed_on_list_category :
    let s : Sizer := ⟨SizingConfig.standard, Ledger.start (.int 1000) 20⟩
    let c := Call.recordTrade (.bool true) (.int 1) (.list [.int 1])
    (s.step c).2 = false ∧
      match c.effect with
      | .record won pnl category =>
        category.truthy = true ∧ category.isKey = false ∧
          (s.step c).1 = { s with ledger := s.ledger.bookTrade won pnl }
      | _ => (s.step c).1 = s := by
  intro s c
  exact ⟨rfl, step_failed s c rfl⟩

end Sizer

end TradeDesk
