import Mathlib
import TradeDesk.Proofs.Session

/-!
# The session's state and the trades behind it

A session keeps only counters, a window of recent trades and a table of category tallies, yet its
state is a function of the trades it has booked since its last reset. Given `T`, those trades in
order, each with the bankroll just before it (`Booked`), and a window of `n` trades:

* the trade count is the length of `T`;
* the window holds the last `min |T| n` trades of `T`, oldest first (`History.recent`), each with
  its profit and loss over the bankroll before it as its return (zero unless that bankroll was
  positive);
* the win rate and the mean profit and loss are those of the window;
* the win streak and the loss streak are the runs of wins and of losses that end `T`
  (`History.streak`);
* the category table lists each non-empty text category of `T`, in the order of its first trade,
  with its wins and trades (`History.table`).

`Agrees` states this of a ledger and a history. A fresh ledger agrees with no trades, booking a
trade whose category is a text or null extends the history by it, a new bankroll keeps it, and
a reset starts it over. For sessions driven by calls, `Sizer.booked` lists the trades of the record
calls that returned normally since the last reset, and `run_agrees` is the statement for every run
from creation whose record calls give a text category or none.
-/

namespace TradeDesk

/-- A trade as a session booked it: its outcome, profit and loss and category, and the bankroll
just before it. -/
structure Booked (α : Type) where
  won : Bool
  pnl : α
  category : Value
  before : α

namespace Booked

variable {α : Type} [Numeric α]

/-- The trade as the window keeps it: its return is the profit and loss over the bankroll before
it when that bankroll is positive, and zero otherwise. -/
def toTrade (t : Booked α) : Trade α :=
  ⟨t.won, t.pnl, if Numeric.zero < t.before then t.pnl / t.before else 0.0⟩

end Booked

namespace Window

variable {β : Type}

@[simp] theorem push_capacity (w : Window β) (x : β) : (w.push x).1.capacity = w.capacity := by
  unfold push
  split <;> rfl

/-- A push appends, and drops the oldest trade once the window is full. -/
theorem push_items (w : Window β) (x : β) :
    (w.push x).1.items =
      if w.items.length < w.capacity then w.items ++ [x] else (w.items ++ [x]).drop 1 := by
  unfold push
  split <;> rfl

end Window

/-- Whether a category is a text or none, the categories a session can always count. -/
def Value.isTextOrNull : Value → Bool
  | .str _ | .null => true
  | _ => false

/-- A text or none can be a key. -/
theorem Value.isKey_of_isTextOrNull {v : Value} (h : v.isTextOrNull = true) : v.isKey = true := by
  cases v <;> simp_all [Value.isTextOrNull, Value.isKey]

/-- The category of a trade as the category table knows it: a non-empty text. -/
def Value.label : Value → Option String
  | .str s => if s.isEmpty then none else some s
  | _ => none

namespace History

variable {α : Type}

/-- The last `n` trades of a history, or all of them when there are fewer, oldest first. -/
def recent (n : Nat) (T : List (Booked α)) : List (Booked α) := T.drop (T.length - n)

/-- The length of the run of trades with outcome `won` that ends a history. -/
def streak (won : Bool) (T : List (Booked α)) : Nat :=
  (T.reverse.takeWhile (·.won == won)).length

/-- The non-empty text categories of a history, each once, in the order of their first trade. -/
def labels (T : List (Booked α)) : List String := (T.filterMap (·.category.label)).eraseDups

/-- The wins and the trades of a history in category `c`. -/
def tally (T : List (Booked α)) (c : String) : Tally :=
  ⟨(T.filter fun t => t.category.label == some c && t.won).length,
    (T.filter fun t => t.category.label == some c).length⟩

/-- The category table of a history: each of its categories with its tally. -/
def table (T : List (Booked α)) : List (Value × Tally) :=
  (labels T).map fun c => (.str c, tally T c)

@[simp] theorem recent_nil (n : Nat) : recent n ([] : List (Booked α)) = [] := by
  simp [recent]

@[simp] theorem streak_nil (won : Bool) : streak won ([] : List (Booked α)) = 0 := rfl

@[simp] theorem table_nil : table ([] : List (Booked α)) = [] := rfl

theorem length_recent (n : Nat) (T : List (Booked α)) : (recent n T).length = min T.length n := by
  simp only [recent, List.length_drop]
  omega

/-- One more trade: the window takes it, and drops its oldest trade once it holds `n`. -/
theorem recent_snoc (n : Nat) (T : List (Booked α)) (t : Booked α) :
    recent n (T ++ [t]) =
      if (recent n T).length < n then recent n T ++ [t] else (recent n T ++ [t]).drop 1 := by
  rw [length_recent]
  simp only [recent, List.length_append, List.length_singleton]
  split
  · -- Fewer than `n` trades: nothing is dropped, before or after.
    have h0 : T.length - n = 0 := by omega
    have h1 : T.length + 1 - n = 0 := by omega
    rw [h0, h1, List.drop_zero, List.drop_zero]
  · -- At least `n` trades: the window drops one more from the front.
    have hle : T.length - n ≤ T.length := Nat.sub_le _ _
    rw [← List.drop_append_of_le_length hle, List.drop_drop]
    congr 1
    omega

/-- One more trade ends the run of its own outcome one longer, and any other run. -/
theorem streak_snoc (won : Bool) (T : List (Booked α)) (t : Booked α) :
    streak won (T ++ [t]) = if t.won = won then streak won T + 1 else 0 := by
  simp only [streak, List.reverse_append, List.reverse_singleton, List.singleton_append,
    List.takeWhile_cons]
  by_cases h : t.won = won <;> simp [h]

theorem tally_snoc_of_ne (T : List (Booked α)) (t : Booked α) (c : String)
    (h : t.category.label ≠ some c) : tally (T ++ [t]) c = tally T c := by
  simp [tally, List.filter_append, h]

theorem tally_snoc_self (T : List (Booked α)) (t : Booked α) (c : String)
    (h : t.category.label = some c) :
    tally (T ++ [t]) c = ⟨(tally T c).wins + (if t.won then 1 else 0), (tally T c).total + 1⟩ := by
  cases hw : t.won <;> simp [tally, List.filter_append, h, hw]

/-- A category not among a history's labels has no trades in it. -/
theorem tally_of_not_mem (T : List (Booked α)) (c : String) (h : c ∉ labels T) :
    tally T c = ⟨0, 0⟩ := by
  simp only [labels, List.mem_eraseDups, List.mem_filterMap, not_exists, not_and] at h
  have hf : ∀ t ∈ T, ¬(t.category.label == some c) = true := by
    intro t ht hc
    exact h t ht (by simpa using hc)
  simp only [tally, Tally.mk.injEq, List.length_eq_zero_iff, List.filter_eq_nil_iff]
  refine ⟨fun t ht hc => ?_, fun t ht => hf t ht⟩
  simp only [Bool.and_eq_true] at hc
  exact hf t ht hc.1

theorem labels_snoc (T : List (Booked α)) (t : Booked α) :
    labels (T ++ [t]) =
      match t.category.label with
      | none => labels T
      | some c => if c ∈ labels T then labels T else labels T ++ [c] := by
  simp only [labels, List.filterMap_append, List.filterMap_cons, List.filterMap_nil]
  cases h : t.category.label with
  | none => simp
  | some c =>
    rw [List.eraseDups_append]
    simp only [List.mem_eraseDups]
    split
    · next hc =>
      rw [List.mem_filterMap] at hc
      simp [List.removeAll, hc]
    · next hc =>
      rw [List.mem_filterMap] at hc
      simp [List.removeAll, hc, List.eraseDups_cons]

/-- A history that ends in a trade ends in a run of that trade's outcome, and in none of the
other. -/
theorem streak_last (T : List (Booked α)) (t : Booked α) :
    0 < streak t.won (T ++ [t]) ∧ streak (!t.won) (T ++ [t]) = 0 := by
  rw [streak_snoc, streak_snoc]
  cases t.won <;> simp

/-- At most one of the two streaks is running. -/
theorem streak_eq_zero_or (T : List (Booked α)) : streak true T = 0 ∨ streak false T = 0 := by
  rcases List.eq_nil_or_concat T with rfl | ⟨T', t, rfl⟩
  · simp
  · have h := streak_last T' t
    cases hw : t.won <;> simp_all

/-- Once there is a trade, exactly one of the two streaks is running. -/
theorem streak_true_pos_iff (T : List (Booked α)) (hT : T ≠ []) :
    0 < streak true T ↔ streak false T = 0 := by
  obtain ⟨T', t, rfl⟩ := (List.eq_nil_or_concat T).resolve_left hT
  rw [List.concat_eq_append]
  have h := streak_last T' t
  cases hw : t.won <;> simp only [hw, Bool.not_true, Bool.not_false] at h <;> omega

/-- Each category of a history is listed once. -/
theorem labels_nodup (T : List (Booked α)) : (labels T).Nodup := by
  induction T using List.reverseRecOn with
  | nil => exact List.nodup_nil
  | append_singleton T t ih =>
    rw [labels_snoc]
    cases t.category.label with
    | none => exact ih
    | some c =>
      dsimp only
      split
      · exact ih
      · next hc =>
        rw [← List.concat_eq_append]
        exact ih.concat hc

/-- The table after a trade in category `c`, as the ledger counts it: the entry of `c` bumped by
the trade, or `c` added last with the trade alone. -/
theorem table_snoc_of_label (T : List (Booked α)) (t : Booked α) (c : String)
    (hc : t.category.label = some c) :
    table (T ++ [t]) =
      if (table T).any (fun (k, _) => k.sameKey (.str c)) then
        (table T).map fun (k, tl) =>
          if k.sameKey (.str c) then (k, ⟨tl.wins + (if t.won then 1 else 0), tl.total + 1⟩)
          else (k, tl)
      else table T ++ [(.str c, ⟨if t.won then 1 else 0, 1⟩)] := by
  -- The keys of the table are the labels; a text key is the same key as `c` only when it is `c`.
  have hany : (table T).any (fun (k, _) => k.sameKey (.str c)) = decide (c ∈ labels T) := by
    simp only [table, List.any_map]
    rw [Bool.eq_iff_iff, List.any_eq_true, decide_eq_true_iff]
    exact ⟨fun ⟨c', hm, he⟩ => by simp_all [Value.sameKey],
      fun hm => ⟨c, hm, by simp [Value.sameKey]⟩⟩
  have hother : ∀ c' : String, c' ≠ c → tally (T ++ [t]) c' = tally T c' := fun c' hne =>
    tally_snoc_of_ne T t c' (by rw [hc]; simpa using hne.symm)
  rw [hany, table, labels_snoc, hc]
  dsimp only
  by_cases hm : c ∈ labels T
  · rw [if_pos hm, if_pos (decide_eq_true hm), table, List.map_map]
    refine List.map_congr_left fun c' _ => ?_
    by_cases he : c' = c
    · subst he
      simp [Value.sameKey, tally_snoc_self T t c' hc]
    · simp [Value.sameKey, he, hother c' he]
  · rw [if_neg hm, if_neg (by simpa using hm), table, List.map_append, List.map_singleton,
      tally_snoc_self T t c hc, tally_of_not_mem T c hm]
    congr 1
    refine List.map_congr_left fun c' hc' => ?_
    have he : c' ≠ c := fun he => hm (he ▸ hc')
    rw [hother c' he]
    simp

/-- A trade without a category leaves the table as it was. -/
theorem table_snoc_of_no_label (T : List (Booked α)) (t : Booked α) (h : t.category.label = none) :
    table (T ++ [t]) = table T := by
  rw [table, labels_snoc, h]
  exact List.map_congr_left fun c _ => by rw [tally_snoc_of_ne T t c (by simp [h])]

/-- A category's wins are among its trades. -/
theorem tally_wins_le (T : List (Booked α)) (c : String) : (tally T c).wins ≤ (tally T c).total :=
  (List.monotone_filter_right T fun t ht => by simp_all).length_le

/-- A category's trades are those with its label among the labels of the history. -/
theorem tally_total (T : List (Booked α)) (c : String) :
    (tally T c).total = (T.filterMap (·.category.label)).count c := by
  rw [List.count_eq_countP, List.countP_filterMap, List.countP_eq_length_filter]
  show (T.filter _).length = _
  congr 1
  refine List.filter_congr fun t _ => ?_
  cases t.category.label <;> simp

/-- The trades of the categories add up to the trades with a category, so to at most all
trades. -/
theorem sum_totals_le (T : List (Booked α)) : ((table T).map (·.2.total)).sum ≤ T.length := by
  set L := T.filterMap (·.category.label)
  -- The labels are the distinct elements of `L`, in another order than `dedup`'s.
  have hperm : List.Perm (labels T) L.dedup :=
    (List.perm_ext_iff_of_nodup (labels_nodup T) (List.nodup_dedup L)).2 fun c => by
      simp [labels, L, List.mem_dedup]
  calc ((table T).map (·.2.total)).sum = ((labels T).map fun c => L.count c).sum := by
        simp [table, List.map_map, Function.comp_def, tally_total, L]
    _ = (L.dedup.map fun c => L.count c).sum := (hperm.map _).sum_eq
    _ = L.length := List.sum_map_count_dedup_eq_length L
    _ ≤ T.length := List.length_filterMap_le _ _

end History

namespace Ledger

open History

variable {α : Type} [Numeric α]

/-- A ledger agrees with a history `T` of booked trades, for a window of `n` trades: it counts the
trades of `T`, its window holds the most recent ones and its win rate is the window's, its streaks
are the runs that end `T`, and its category table is `T`'s. -/
structure Agrees (n : Nat) (l : Ledger α) (T : List (Booked α)) : Prop where
  capacity : l.window.capacity = n
  total : l.total = T.length
  window : l.window.items = (recent n T).map Booked.toTrade
  winRate : l.winRate = l.window.winRate
  winStreak : l.winStreak = streak true T
  lossStreak : l.lossStreak = streak false T
  categories : l.categories = table T

namespace Agrees

/-- A fresh ledger agrees with no trades. -/
theorem start (i : α) (n : Nat) : Agrees n (Ledger.start i n) [] where
  capacity := rfl
  total := rfl
  window := by simp [Ledger.start, Window.empty]
  winRate := rfl
  winStreak := rfl
  lossStreak := rfl
  categories := rfl

variable {n : Nat} {l : Ledger α} {T : List (Booked α)}

/-- Counting a trade `t` that is already in the window, with its category already in the table,
extends the history by `t`. -/
theorem snoc (h : Agrees n l T) (t : Booked α) (m : Ledger α)
    (hw : m.window = (l.window.push t.toTrade).1) (hc : m.categories = table (T ++ [t]))
    (htotal : m.total = l.total) (hws : m.winStreak = l.winStreak)
    (hls : m.lossStreak = l.lossStreak) :
    Agrees n (m.countTrade t.won) (T ++ [t]) where
  capacity := by rw [countTrade_window, hw, Window.push_capacity, h.capacity]
  total := by rw [countTrade_total, htotal, h.total, List.length_append, List.length_singleton]
  window := by
    rw [countTrade_window, hw, Window.push_items, h.window, h.capacity, List.length_map,
      recent_snoc]
    split <;> simp
  winRate := by rw [countTrade_winRate, countTrade_window]
  winStreak := by rw [countTrade_winStreak, streak_snoc, hws, h.winStreak]
  lossStreak := by
    rw [countTrade_lossStreak, streak_snoc, hls, h.lossStreak]
    cases t.won <;> rfl
  categories := by rw [countTrade_categories, hc]

/-- Recording a trade whose category is a text or none extends the history by it, with the
bankroll before it. -/
theorem record (h : Agrees n l T) (won : Bool) (pnl : α) (category : Value)
    (hc : category.isTextOrNull = true) :
    Agrees n (l.record won pnl category).1 (T ++ [⟨won, pnl, category, l.bankroll⟩]) := by
  have hk : category.isKey = true := Value.isKey_of_isTextOrNull hc
  have hw : (l.bookTrade won pnl).window =
      (l.window.push (Booked.toTrade ⟨won, pnl, category, l.bankroll⟩)).1 := rfl
  rw [record_of_isKey l won pnl category hk]
  cases ht : category.truthy
  · -- No category, or the empty text: the table is left alone.
    rw [if_neg Bool.false_ne_true]
    have hl : category.label = none := by
      cases category <;> simp_all [Value.isTextOrNull, Value.truthy, Value.label]
    exact h.snoc _ _ hw (by rw [bookTrade_categories, h.categories, table_snoc_of_no_label _ _ hl])
      rfl rfl rfl
  · -- A non-empty text: counted in the table under itself.
    obtain ⟨c, rfl⟩ : ∃ c, category = .str c := by
      cases category <;> simp_all [Value.isTextOrNull, Value.truthy]
    have hl : (Value.str c).label = some c := by simp_all [Value.truthy, Value.label]
    rw [if_pos rfl]
    refine h.snoc ⟨won, pnl, .str c, l.bankroll⟩ _ (by rw [countCategory_window, hw]) ?_
      (countCategory_total _ _ _) (countCategory_winStreak _ _ _) (countCategory_lossStreak _ _ _)
    rw [countCategory_categories, bookTrade_categories, h.categories, table_snoc_of_label _ _ c hl]

/-- A new bankroll leaves the agreement as it was. -/
theorem setBankroll (h : Agrees n l T) (b : α) : Agrees n (l.setBankroll b) T where
  capacity := by rw [setBankroll_window, h.capacity]
  total := by rw [setBankroll_total, h.total]
  window := by rw [setBankroll_window, h.window]
  winRate := by rw [setBankroll_winRate, setBankroll_window, h.winRate]
  winStreak := by rw [setBankroll_winStreak, h.winStreak]
  lossStreak := by rw [setBankroll_lossStreak, h.lossStreak]
  categories := by rw [setBankroll_categories, h.categories]

/-- A reset agrees with no trades. -/
theorem reset (h : Agrees n l T) : Agrees n l.reset [] := by
  rw [reset_eq, ← h.capacity]
  exact start _ _

end Agrees

end Ledger

namespace Sizer

open History

/-- Whether a call gives no category but a text or none. -/
def Call.textCategory : Call → Bool
  | .recordTrade _ _ category => category.isTextOrNull
  | _ => true

/-- The trades booked since the last reset after one more call, given `acc` before it: a record
call that returns normally adds its trade with the bankroll before it, and a reset clears them. -/
def bookedAfter (s : Sizer) (acc : List (Booked Num)) (c : Call) : List (Booked Num) :=
  match c.effect with
  | .record won pnl category =>
    if (s.step c).2 then acc ++ [⟨won, pnl, category, s.ledger.bankroll⟩] else acc
  | .reset => []
  | _ => acc

/-- The trades booked since the last reset at the end of a run of calls, given `acc` before it. -/
def booked (s : Sizer) (acc : List (Booked Num)) : List Call → List (Booked Num)
  | [] => acc
  | c :: cs => (s.step c).1.booked (s.bookedAfter acc c) cs

variable {n : Nat} {s : Sizer} {acc : List (Booked Num)}

/-- A call that gives a text category or none keeps the ledger in agreement with the trades
booked. -/
theorem agrees_step (h : Ledger.Agrees n s.ledger acc) (c : Call) (hc : c.textCategory = true) :
    Ledger.Agrees n (s.step c).1.ledger (s.bookedAfter acc c) := by
  rw [(step_ledger s c).1, bookedAfter]
  cases he : c.effect with
  | record won pnl category =>
    obtain ⟨outcome, pnl', x, rfl, ho, hp, rfl⟩ := Call.effect_eq_record he
    have htext : category.isTextOrNull = true := hc
    -- A text or none is a key, so the call returns normally and its trade is booked.
    rw [(step_recordTrade s outcome pnl' category won x ho hp).2,
      Value.isKey_of_isTextOrNull htext]
    simp only [Ledger.after, Bool.not_true, Bool.and_false, Bool.not_false, if_true]
    exact h.record won _ category htext
  | setBankroll b => exact h.setBankroll b
  | reset => exact h.reset
  | keep => exact h

/-- A run of calls that give text categories or none keeps the ledger in agreement with the
trades booked. The induction is on the calls, with the session and the trades so far
generalised. -/
theorem agrees_run (h : Ledger.Agrees n s.ledger acc) (cs : List Call)
    (hc : ∀ c ∈ cs, c.textCategory = true) :
    Ledger.Agrees n (s.run cs).ledger (s.booked acc cs) := by
  induction cs generalizing s acc with
  | nil => exact h
  | cons c cs ih =>
    exact ih (agrees_step h c (hc c List.mem_cons_self))
      fun c' hc' => hc c' (List.mem_cons_of_mem c hc')

/-- Over every run from creation whose record calls give a text category or none, with `T` the
trades of the record calls that returned normally since the last reset and `n` the configured
lookback: the trade count is `|T|`; the window holds the last `min |T| n` trades of `T`, oldest
first, each with its return on the bankroll before it, and the win rate is the window's (the state
reports the window's mean profit and loss beside it); the streaks are the runs that end `T`, at
most one of them running and, once there is a trade, exactly one; and the category table lists
each non-empty text category of `T` once, with its wins and trades, wins never above trades and
the trades adding up to at most the trade count. -/
theorem run_agrees (cfg : SizingConfig Num) (initial : Value) (s : Sizer)
    (hs : create cfg initial = .ok s) (cs : List Call) (hc : ∀ c ∈ cs, c.textCategory = true) :
    let l := (s.run cs).ledger
    let T := s.booked [] cs
    l.total = T.length ∧
      l.window.items = (recent cfg.lookback T).map Booked.toTrade ∧
      l.window.items.length = min T.length cfg.lookback ∧
      l.winRate = l.window.winRate ∧
      l.winStreak = streak true T ∧ l.lossStreak = streak false T ∧
      (l.winStreak = 0 ∨ l.lossStreak = 0) ∧
      (T ≠ [] → (0 < l.winStreak ↔ l.lossStreak = 0)) ∧
      l.categories = table T ∧ (labels T).Nodup ∧
      (∀ k ∈ l.categories, k.2.wins ≤ k.2.total) ∧
      (l.categories.map (·.2.total)).sum ≤ l.total := by
  obtain ⟨x, rfl⟩ := create_fresh hs
  intro l T
  have h : Ledger.Agrees cfg.lookback l T := agrees_run (Ledger.Agrees.start _ _) cs hc
  refine ⟨h.total, h.window, ?_, h.winRate, h.winStreak, h.lossStreak, ?_, ?_, h.categories,
    labels_nodup T, ?_, ?_⟩
  · rw [h.window, List.length_map, length_recent]
  · rw [h.winStreak, h.lossStreak]
    exact streak_eq_zero_or T
  · intro hT
    rw [h.winStreak, h.lossStreak]
    exact streak_true_pos_iff T hT
  · -- Every entry of the table is a label with its tally.
    intro k hk
    rw [h.categories] at hk
    obtain ⟨c, _, rfl⟩ := List.mem_map.1 hk
    exact tally_wins_le T c
  · rw [h.categories, h.total]
    exact sum_totals_le T

/-- A session at `1000` with the standard configuration: a won trade in `nba`, a lost one with no
category, and a won one in the empty category. -/
theorem run_agrees_three_trades :
    let s : Sizer := ⟨SizingConfig.standard, Ledger.start (.float 1000.0) 20⟩
    let cs := [Call.recordTrade (.str "win") (.int 10) (.str "nba"),
      .recordTrade (.str "loss") (.int (-5)) .null, .recordTrade (.bool true) (.int 3) (.str "")]
    create SizingConfig.standard (.int 1000) = .ok s ∧ (∀ c ∈ cs, c.textCategory = true) ∧
      let l := (s.run cs).ledger
      let T := s.booked [] cs
      l.total = T.length ∧
        l.window.items = (recent 20 T).map Booked.toTrade ∧
        l.window.items.length = min T.length 20 ∧
        l.winRate = l.window.winRate ∧
        l.winStreak = streak true T ∧ l.lossStreak = streak false T ∧
        (l.winStreak = 0 ∨ l.lossStreak = 0) ∧
        (T ≠ [] → (0 < l.winStreak ↔ l.lossStreak = 0)) ∧
        l.categories = table T ∧ (labels T).Nodup ∧
        (∀ k ∈ l.categories, k.2.wins ≤ k.2.total) ∧
        (l.categories.map (·.2.total)).sum ≤ l.total := by
  intro s cs
  have hs : create SizingConfig.standard (.int 1000) = .ok s := create_standard
  have hc : ∀ c ∈ cs, c.textCategory = true := by decide
  exact ⟨hs, hc, run_agrees SizingConfig.standard (.int 1000) s hs cs hc⟩

end Sizer

end TradeDesk
