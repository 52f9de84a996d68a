import Mathlib
import TradeDesk.Sizing.Ring

/-!
# The slots of a window hold its latest trades

A window of capacity `c` keeps the last `c` trades pushed since it was last cleared
(`Window.latest`). Its slots (`Ring`) hold them in a cyclic layout: the `i`-th oldest trade sits in
the slot `size - i` places behind the cursor, round the end (`Ring.slotOf`, with the remainder of a
difference that may be negative taken to be non-negative). `Ring.Holds r xs` states that layout for
the trades `xs`, together with its bounds: a positive capacity, a slot for each unit of it, the
cursor on a slot, and at most `capacity` slots in use.

Each call keeps the layout (`Ring.Holds.push`, `Ring.Holds.clear`), and a push hands back what the
window of the same trades hands back (`Ring.Holds.evicted`): the slots refine the window
(`Window.push`). The slots in use are then read back as exactly the trades (`Ring.Holds.items`).
Over a run of calls from empty slots (`Ring.run_holds`) the layout holds the latest trades, so the
window's size, fullness, evictions, win rate and mean profit and loss are those of the last `c`
trades pushed since the last clear (`Ring.run_keeps_latest`).

The index arithmetic is done once (`Ring.slotOf_eq`): with the cursor on a slot and at most
`capacity` slots in use, the slot of a trade wraps round the end at most once.
-/

namespace TradeDesk

namespace Window

variable {β : Type}

/-- The last `c` of the trades `L`, or all of them when there are fewer, oldest first. -/
def latest (c : Nat) (L : List β) : List β := L.drop (L.length - c)

@[simp] theorem latest_nil (c : Nat) : latest c ([] : List β) = [] := by
  simp [latest]

theorem length_latest (c : Nat) (L : List β) : (latest c L).length = min L.length c := by
  simp only [latest, List.length_drop]
  omega

/-- A push onto the window that holds the last `c` of the trades `L` holds the last `c` of `L` and
the new trade. It hands back the trade pushed `c` pushes before the new one, and nothing while `L`
has fewer than `c` trades. -/
theorem push_latest (c : Nat) (L : List β) (x : β) :
    Window.push ⟨c, latest c L⟩ x =
      (⟨c, latest c (L ++ [x])⟩, if L.length < c then none else L[L.length - c]?) := by
  have hlen := length_latest c L
  unfold Window.push
  dsimp only
  by_cases hk : L.length < c
  · -- Fewer than `c` trades: nothing is dropped, before or after.
    have h0 : L.length - c = 0 := by omega
    have h1 : (L ++ [x]).length - c = 0 := by
      simp only [List.length_append, List.length_singleton]
      omega
    rw [if_pos (by omega), if_pos hk, latest, latest, h0, h1, List.drop_zero, List.drop_zero]
  · -- At least `c` trades: the window drops the oldest it held, one more from the front of `L`.
    have hle : L.length - c ≤ L.length := Nat.sub_le _ _
    have hdrop : (L ++ [x]).length - c = L.length - c + 1 := by
      simp only [List.length_append, List.length_singleton]
      omega
    rw [if_neg (by omega), if_neg hk, latest, latest, hdrop, ← List.drop_append_of_le_length hle,
      List.drop_drop, List.head?_drop]

end Window

namespace Ring

variable {β : Type}

/-- The slot of the `i`-th oldest trade: `size - i` places behind the cursor, round the end. The
remainder of a whole number by a positive one is never negative. -/
def slotOf (r : Ring β) (i : Nat) : Nat := (((r.cursor : Int) - r.size + i) % r.capacity).toNat

/-- A number below twice the divisor loses the divisor at most once to the remainder. -/
theorem mod_eq_of_lt_two_mul {n c : Nat} (h : n < 2 * c) :
    n % c = if n < c then n else n - c := by
  split
  · exact Nat.mod_eq_of_lt ‹_›
  · rw [Nat.mod_eq_sub_mod (by omega), Nat.mod_eq_of_lt (by omega)]

section Layout

variable (r : Ring β) (hcur : r.cursor < r.capacity) (hsize : r.size ≤ r.capacity)
include hcur hsize

/-- With the cursor on a slot and at most `capacity` slots in use, the slot `size - i` places
behind the cursor, for `i ≤ size`, wraps round the end at most once. -/
theorem slotOf_eq {i : Nat} (hi : i ≤ r.size) :
    r.slotOf i =
      if r.cursor + i < r.size then r.cursor + r.capacity - r.size + i else r.cursor + i - r.size := by
  unfold slotOf
  split
  · -- Behind the first slot: the remainder adds the capacity once.
    have hwrap : ((r.cursor : Int) - r.size + i) % r.capacity =
        (r.cursor : Int) - r.size + i + r.capacity := by
      rw [Int.emod_eq_add_self_emod, Int.emod_eq_of_lt (by omega) (by omega)]
    rw [hwrap]
    omega
  · have hin : ((r.cursor : Int) - r.size + i) % r.capacity = (r.cursor : Int) - r.size + i :=
      Int.emod_eq_of_lt (by omega) (by omega)
    rw [hin]
    omega

/-- The slot just past the newest trade is the cursor's. -/
theorem slotOf_size : r.slotOf r.size = r.cursor := by
  rw [slotOf_eq r hcur hsize le_rfl]
  split <;> omega

/-- No trade in use sits in the cursor's slot, except the oldest once every slot is in use. -/
theorem slotOf_ne_cursor {i : Nat} (hi : i < r.size) (hwrap : r.size < r.capacity + i) :
    r.slotOf i ≠ r.cursor := by
  rw [slotOf_eq r hcur hsize hi.le]
  split <;> omega

/-- Reading on `i` places from the oldest trade's slot, round the end, reaches the slot of the
`i`-th oldest. -/
theorem start_add_mod {i : Nat} (hi : i < r.size) : (r.start + i) % r.capacity = r.slotOf i := by
  have h0 : r.start = r.slotOf 0 := by simp [start, slotOf]
  rw [h0, slotOf_eq r hcur hsize (Nat.zero_le _), slotOf_eq r hcur hsize hi.le,
    mod_eq_of_lt_two_mul (by split <;> omega)]
  split <;> split <;> split <;> omega

end Layout

/-- The cursor after a push, on a slot when it was on one: one slot on, or back at the first. -/
theorem push_cursor_eq (r : Ring β) (x : β) (hcur : r.cursor < r.capacity) :
    (r.push x).1.cursor = if r.cursor + 1 < r.capacity then r.cursor + 1 else 0 := by
  rw [push_cursor, mod_eq_of_lt_two_mul (by omega)]
  split <;> omega

/-- Before every slot is in use, a push keeps the slot of each trade, and of the slot just past
the newest. -/
theorem slotOf_push_of_lt (r : Ring β) (x : β) (hcur : r.cursor < r.capacity)
    (hlt : r.size < r.capacity) {i : Nat} (hi : i ≤ r.size) :
    (r.push x).1.slotOf i = r.slotOf i := by
  have hc := push_cursor_eq r x hcur
  have hs : (r.push x).1.size = r.size + 1 := by simp [hlt]
  rw [slotOf_eq _ (by simp only [push_capacity]; split at hc <;> omega) (by simp only [push_capacity]; omega)
    (by omega), slotOf_eq r hcur hlt.le hi, hc, hs, push_capacity]
  split <;> split <;> split <;> omega

/-- Once every slot is in use, a push makes each trade one place older: the `i`-th oldest after it
sits where the `i + 1`-th oldest did. -/
theorem slotOf_push_of_full (r : Ring β) (x : β) (hcur : r.cursor < r.capacity)
    (hfull : r.size = r.capacity) {i : Nat} (hi : i < r.size) :
    (r.push x).1.slotOf i = r.slotOf (i + 1) := by
  have hc := push_cursor_eq r x hcur
  have hs : (r.push x).1.size = r.size := by simp [hfull]
  rw [slotOf_eq _ (by simp only [push_capacity]; split at hc <;> omega) (by simp only [push_capacity]; omega)
    (by omega), slotOf_eq r hcur hfull.le hi, hc, hs, push_capacity]
  split <;> split <;> split <;> omega

/-- Reading the places below the length of `xs`, each of which gives the trade of `xs` there,
gives `xs` back. -/
theorem filterMap_range_eq {xs : List β} (f : Nat → Option β)
    (hf : ∀ i (hi : i < xs.length), f i = some xs[i]) : (List.range xs.length).filterMap f = xs := by
  induction xs using List.reverseRecOn with
  | nil => rfl
  | append_singleton xs x ih =>
    have hinit : (List.range xs.length).filterMap f = xs :=
      ih fun i hi => by rw [hf i (by simp; omega), List.getElem_append_left hi]
    have hlast : f xs.length = some x := by rw [hf xs.length (by simp)]; simp
    rw [List.length_append, List.length_singleton, List.range_succ, List.filterMap_append, hinit,
      List.filterMap_cons, hlast, List.filterMap_nil]

/-- The slots hold the trades `xs`, oldest first: a positive capacity with a slot for each unit of
it, the cursor on a slot, as many slots in use as trades and at most `capacity` of them, and the
`i`-th oldest trade in the slot `size - i` places behind the cursor, round the end. -/
structure Holds (r : Ring β) (xs : List β) : Prop where
  capacity_pos : 0 < r.capacity
  length_slots : r.slots.length = r.capacity
  cursor_lt : r.cursor < r.capacity
  size_le : r.size ≤ r.capacity
  size_eq : r.size = xs.length
  slot : ∀ i (hi : i < xs.length), r.slots.getD (r.slotOf i) none = some xs[i]

namespace Holds

variable {r : Ring β} {xs : List β}

/-- Empty slots hold no trade. -/
theorem empty {c : Nat} (hc : 0 < c) : Holds (empty c : Ring β) [] where
  capacity_pos := hc
  length_slots := by simp
  cursor_lt := hc
  size_le := Nat.zero_le _
  size_eq := rfl
  slot := fun _ hi => absurd hi (Nat.not_lt_zero _)

/-- Clearing leaves slots that hold no trade. -/
theorem clear (h : Holds r xs) : Holds r.clear [] := Holds.empty h.capacity_pos

/-- Writing over the cursor's slot leaves every trade in use where it was, except the oldest once
every slot is in use. -/
theorem getD_set_slotOf (h : Holds r xs) (x : β) {i : Nat} (hi : i < xs.length)
    (hwrap : xs.length < r.capacity + i) :
    (r.slots.set r.cursor (some x)).getD (r.slotOf i) none = some xs[i] := by
  have hne := slotOf_ne_cursor r h.cursor_lt h.size_le (h.size_eq ▸ hi) (h.size_eq ▸ hwrap)
  rw [List.getD_eq_getElem?_getD, List.getElem?_set, if_neg (Ne.symm hne),
    ← List.getD_eq_getElem?_getD, h.slot i hi]

/-- The cursor's slot, once written, holds the new trade. -/
theorem getD_set_cursor (h : Holds r xs) (x : β) :
    (r.slots.set r.cursor (some x)).getD r.cursor none = some x := by
  have hcur : r.cursor < r.slots.length := h.length_slots ▸ h.cursor_lt
  simp [List.getD_eq_getElem?_getD, hcur]

/-- A push keeps the layout, for the trades the window holds after the same push. -/
theorem push (h : Holds r xs) (x : β) :
    Holds (r.push x).1 (Window.push ⟨r.capacity, xs⟩ x).1.items := by
  have hcur := h.cursor_lt
  have hpos := h.capacity_pos
  have hsz := h.size_eq
  have hle := h.size_le
  have hslots : (r.push x).1.slots.length = (r.push x).1.capacity := by simp [h.length_slots]
  have hcur' : (r.push x).1.cursor < (r.push x).1.capacity := by simp [Nat.mod_lt _ hpos]
  by_cases hlt : r.size < r.capacity
  · -- A free slot: the trade goes just past the newest, and nothing is dropped.
    have hitems : (Window.push ⟨r.capacity, xs⟩ x).1.items = xs ++ [x] := by
      simp [Window.push, ← hsz, hlt]
    have hsize : (r.push x).1.size = (xs ++ [x]).length := by
      rw [push_size, if_pos hlt, hsz]
      simp
    rw [hitems]
    refine ⟨hpos, hslots, hcur', by rw [hsize, push_capacity]; simp; omega, hsize, fun i hi => ?_⟩
    simp only [List.length_append, List.length_singleton] at hi
    rw [slotOf_push_of_lt r x hcur hlt (by omega), push_slots]
    rcases Nat.lt_or_ge i xs.length with hi' | hi'
    · -- An older trade keeps its slot.
      rw [h.getD_set_slotOf x hi' (by omega), List.getElem_append_left hi']
    · -- The new trade is in the cursor's slot.
      obtain rfl : i = xs.length := by omega
      have hnew : r.slotOf xs.length = r.cursor := hsz ▸ slotOf_size r hcur hle
      rw [hnew, h.getD_set_cursor x]
      simp
  · -- Every slot in use: the trade overwrites the oldest, and every other is one place older.
    have hfull : r.size = r.capacity := by omega
    have hitems : (Window.push ⟨r.capacity, xs⟩ x).1.items = (xs ++ [x]).drop 1 := by
      simp [Window.push, ← hsz, hfull]
    have hsize : (r.push x).1.size = ((xs ++ [x]).drop 1).length := by
      rw [push_size, if_neg hlt, hsz]
      simp
    rw [hitems]
    refine ⟨hpos, hslots, hcur', by rw [push_size, if_neg hlt, push_capacity]; exact hle, hsize,
      fun i hi => ?_⟩
    simp only [List.length_drop, List.length_append, List.length_singleton] at hi
    rw [slotOf_push_of_full r x hcur hfull (by omega), push_slots, List.getElem_drop]
    rcases Nat.lt_or_ge (i + 1) xs.length with hi' | hi'
    · -- A trade that was not the oldest keeps its slot.
      rw [h.getD_set_slotOf x hi' (by omega), List.getElem_append_left (by omega)]
      simp only [Nat.add_comm]
    · -- The newest is in the cursor's slot, where the oldest was.
      obtain hlast : i + 1 = xs.length := by omega
      have hnew : r.slotOf (i + 1) = r.cursor := by
        rw [hlast, ← hsz]
        exact slotOf_size r hcur hle
      rw [hnew, h.getD_set_cursor x]
      simp [Nat.add_comm 1 i, hlast]

/-- A push hands back what the window of the same trades hands back: the oldest trade once every
slot is in use, and nothing before. -/
theorem evicted (h : Holds r xs) (x : β) : (r.push x).2 = (Window.push ⟨r.capacity, xs⟩ x).2 := by
  rw [push_snd]
  by_cases hlt : r.size < r.capacity
  · have hne : (r.size == r.capacity) = false := by simp; omega
    simp [Window.push, hne, ← h.size_eq, hlt]
  · -- Every slot in use: the cursor's slot is the oldest trade's.
    have hfull : r.size = r.capacity := by have := h.size_le; omega
    have hxs : 0 < xs.length := by rw [← h.size_eq, hfull]; exact h.capacity_pos
    have hcur := h.cursor_lt
    have hslot0 : r.slotOf 0 = r.cursor := by
      rw [slotOf_eq r hcur h.size_le (Nat.zero_le _)]
      split <;> omega
    have hold := h.slot 0 hxs
    rw [hslot0] at hold
    have hwin : (Window.push ⟨r.capacity, xs⟩ x).2 = xs.head? := by
      simp [Window.push, ← h.size_eq, hfull]
    rw [hwin, if_pos (by simp [hfull]), hold, List.head?_eq_getElem?, List.getElem?_eq_getElem hxs]

/-- The slots in use are read back as exactly the trades, oldest first. -/
theorem items (h : Holds r xs) : r.items = xs := by
  unfold Ring.items
  rw [h.size_eq]
  -- Each slot read holds a trade, so the reading keeps one trade per place.
  have hread : ∀ i (hi : i < xs.length),
      r.slots.getD ((r.start + i) % r.capacity) none = some xs[i] := fun i hi => by
    rw [start_add_mod r h.cursor_lt h.size_le (h.size_eq ▸ hi), h.slot i hi]
  exact filterMap_range_eq _ hread

/-- The slots are full exactly when they hold `capacity` trades. -/
theorem isFull (h : Holds r xs) : r.isFull = true ↔ xs.length = r.capacity := by
  simp [Ring.isFull, h.size_eq]

end Holds

/-- A call on a trade window: a push of a trade, or a clear. -/
inductive Call (β : Type) where
  | push (x : β)
  | clear

/-- The slots after one call. -/
def step (r : Ring β) : Call β → Ring β
  | .push x => (r.push x).1
  | .clear => r.clear

/-- The slots after a run of calls. -/
def run (r : Ring β) (calls : List (Call β)) : Ring β := calls.foldl step r

/-- The trades pushed since the last clear, oldest first. -/
def Call.pushed (calls : List (Call β)) : List β :=
  calls.foldl (fun L call => match call with
    | .push x => L ++ [x]
    | .clear => []) []

@[simp] theorem run_snoc (r : Ring β) (calls : List (Call β)) (call : Call β) :
    run r (calls ++ [call]) = step (run r calls) call := by
  simp [run]

@[simp] theorem pushed_snoc_push (calls : List (Call β)) (x : β) :
    Call.pushed (calls ++ [.push x]) = Call.pushed calls ++ [x] := by
  simp [Call.pushed]

@[simp] theorem pushed_snoc_clear (calls : List (Call β)) :
    Call.pushed (calls ++ [.clear]) = [] := by
  simp [Call.pushed]

/-- A run keeps the number of slots. -/
@[simp] theorem capacity_run (r : Ring β) (calls : List (Call β)) :
    (run r calls).capacity = r.capacity := by
  induction calls using List.reverseRecOn with
  | nil => rfl
  | append_singleton calls call ih =>
    cases call <;> simp [step, clear, ih]

/-- Over any run from `c` empty slots, the slots hold the last `c` trades pushed since the last
clear. -/
theorem run_holds {c : Nat} (hc : 0 < c) (calls : List (Call β)) :
    Holds (run (empty c) calls) (Window.latest c (Call.pushed calls)) := by
  -- Induction on the calls from the end, one step at a time.
  induction calls using List.reverseRecOn with
  | nil => simpa [run, Call.pushed] using (Holds.empty hc : Holds (empty c : Ring β) [])
  | append_singleton calls call ih =>
    cases call with
    | push x =>
      have hstep := ih.push x
      rw [capacity_run, empty_capacity, Window.push_latest] at hstep
      simpa [step] using hstep
    | clear => simpa [step] using ih.clear

open Numeric in
/-- Over any run of pushes and clears on a window of `c ≥ 1` slots, with `L` the trades pushed
since the last clear: the slots hold the last `min |L| c` of them in the cyclic layout, and read
them back oldest first; the window's size is `min |L| c`, and it is full exactly when `L` has `c`
trades; a push hands back nothing while `L` has fewer than `c` trades, and otherwise the trade
pushed `c` pushes before the new one, the oldest the window holds; the win rate and the mean
profit and loss (summed from the left) are those of the trades held, and zero when none is. -/
theorem run_keeps_latest {α : Type} [Numeric α] {c : Nat} (hc : 0 < c)
    (calls : List (Call (Trade α))) :
    let r := run (empty c) calls
    let L := Call.pushed calls
    Holds r (Window.latest c L) ∧ r.items = Window.latest c L ∧ r.size = min L.length c ∧
      (r.isFull = true ↔ c ≤ L.length) ∧
      (∀ x, (r.push x).2 = if L.length < c then none else L[L.length - c]?) ∧
      (c ≤ L.length → L[L.length - c]? = r.items.head?) ∧
      r.toWindow.winRate = (if L.length = 0 then 0.0 else
        (((Window.latest c L).filter (·.won)).length : α) / ((min L.length c : Nat) : α)) ∧
      r.toWindow.meanPnl = (if L.length = 0 then 0.0 else
        sumLeft ((Window.latest c L).map (·.pnl)) / ((min L.length c : Nat) : α)) := by
  intro r L
  have h : Holds r (Window.latest c L) := run_holds hc calls
  have hitems : r.items = Window.latest c L := h.items
  have hcap : r.capacity = c := by simp [r]
  have hlen : (Window.latest c L).length = min L.length c := Window.length_latest c L
  -- The window of the slots has as many trades as the slots have in use.
  have hw : r.toWindow.size = min L.length c := by
    rw [Window.size, toWindow_items, hitems, hlen]
  -- It is empty exactly when nothing was pushed since the last clear.
  have hempty : (min L.length c == 0) = decide (L.length = 0) := by
    rw [Bool.eq_iff_iff, beq_iff_eq, decide_eq_true_iff]
    omega
  refine ⟨h, hitems, by rw [h.size_eq, hlen], ?_, fun x => ?_, fun _ => ?_, ?_, ?_⟩
  · rw [h.isFull, hlen, hcap]
    omega
  · rw [h.evicted, hcap, Window.push_latest]
  · rw [hitems, Window.latest, List.head?_drop]
  · rw [Window.winRate, hw, toWindow_items, hitems, hempty]
    simp only [decide_eq_true_eq]
  · rw [Window.meanPnl, hw, toWindow_items, hitems, hempty]
    simp only [decide_eq_true_eq]

/-- Two slots, and six calls: two pushes, a clear, then three pushes. The window holds the last
two trades since the clear, and a push now hands back the first of them. -/
theorem run_keeps_latest_two_slots :
    let calls : List (Call (Trade Num)) :=
      [.push ⟨true, .int 5, .float 0.1⟩, .push ⟨false, .int (-3), .float (-0.05)⟩, .clear,
        .push ⟨true, .int 2, .float 0.0⟩, .push ⟨false, .int 1, .float 0.0⟩,
        .push ⟨true, .int 4, .float 0.0⟩]
    let r := run (empty 2) calls
    let L := Call.pushed calls
    0 < 2 ∧
      (Holds r (Window.latest 2 L) ∧ r.items = Window.latest 2 L ∧ r.size = min L.length 2 ∧
        (r.isFull = true ↔ 2 ≤ L.length) ∧
        (∀ x, (r.push x).2 = if L.length < 2 then none else L[L.length - 2]?) ∧
        (2 ≤ L.length → L[L.length - 2]? = r.items.head?) ∧
        r.toWindow.winRate = (if L.length = 0 then 0.0 else
          (((Window.latest 2 L).filter (·.won)).length : Num) / ((min L.length 2 : Nat) : Num)) ∧
        r.toWindow.meanPnl = (if L.length = 0 then 0.0 else
          Numeric.sumLeft ((Window.latest 2 L).map (·.pnl)) / ((min L.length 2 : Nat) : Num))) :=
  ⟨by decide, run_keeps_latest (by decide) _⟩

end Ring

end TradeDesk
