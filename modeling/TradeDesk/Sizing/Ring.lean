import TradeDesk.Sizing.Window

/-!
# The slots of a trade window

A trade window keeps its trades in `capacity` slots set aside when it is made, with a cursor on
the slot the next trade goes to and a count of the slots in use (`Ring`). A push writes the trade
at the cursor and moves the cursor on by one, round the end; until every slot is in use it counts
one more, and once every slot is, the slot written over held the oldest trade, which the push hands
back. The trades are read oldest first from the slot `size` places behind the cursor
(`Ring.start`, the remainder of a difference that may be negative, taken to be non-negative)
onwards, round the end. Clearing sets every slot aside again.

`Ring.toWindow` is the window the slots hold: the capacity and the trades in order. The session's
ledger keeps that view (`Window`) directly.
-/

namespace TradeDesk

/-- The slots of a trade window: `capacity` slots, the cursor on the slot the next trade goes to,
and the number of slots in use. -/
structure Ring (β : Type) where
  capacity : Nat
  slots : List (Option β)
  cursor : Nat
  size : Nat

namespace Ring

variable {β : Type}

/-- A window of `capacity` empty slots. -/
def empty (capacity : Nat) : Ring β := ⟨capacity, List.replicate capacity none, 0, 0⟩

/-- The slots of a window whose capacity is given as any value, checked as `Window.open?` checks
it. -/
def open? (capacity : Value) : Except Window.Error (Ring β) :=
  (Window.open? capacity : Except Window.Error (Window β)).map fun w => empty w.capacity

/-- Writes a trade at the cursor and moves the cursor on. When every slot was in use, the trade
written over is returned. -/
def push (r : Ring β) (x : β) : Ring β × Option β :=
  let evicted := if r.size == r.capacity then r.slots.getD r.cursor none else none
  ({ r with
      slots := r.slots.set r.cursor (some x)
      cursor := (r.cursor + 1) % r.capacity
      size := if r.size < r.capacity then r.size + 1 else r.size }, evicted)

/-- The slot of the oldest trade: `size` places behind the cursor, round the end. -/
def start (r : Ring β) : Nat := (((r.cursor : Int) - r.size) % r.capacity).toNat

/-- The trades in the slots in use, oldest first. -/
def items (r : Ring β) : List β :=
  (List.range r.size).filterMap fun i => r.slots.getD ((r.start + i) % r.capacity) none

/-- Every slot set aside again. -/
def clear (r : Ring β) : Ring β := empty r.capacity

/-- Whether every slot is in use. -/
def isFull (r : Ring β) : Bool := r.size == r.capacity

/-- The window the slots hold: the capacity and the trades, oldest first. -/
def toWindow (r : Ring β) : Window β := ⟨r.capacity, r.items⟩

@[simp] theorem empty_capacity (c : Nat) : (empty c : Ring β).capacity = c := rfl
@[simp] theorem empty_slots (c : Nat) : (empty c : Ring β).slots = List.replicate c none := rfl
@[simp] theorem empty_cursor (c : Nat) : (empty c : Ring β).cursor = 0 := rfl
@[simp] theorem empty_size (c : Nat) : (empty c : Ring β).size = 0 := rfl

@[simp] theorem push_capacity (r : Ring β) (x : β) : (r.push x).1.capacity = r.capacity := rfl
@[simp] theorem push_slots (r : Ring β) (x : β) :
    (r.push x).1.slots = r.slots.set r.cursor (some x) := rfl
@[simp] theorem push_cursor (r : Ring β) (x : β) :
    (r.push x).1.cursor = (r.cursor + 1) % r.capacity := rfl
@[simp] theorem push_size (r : Ring β) (x : β) :
    (r.push x).1.size = if r.size < r.capacity then r.size + 1 else r.size := rfl
theorem push_snd (r : Ring β) (x : β) :
    (r.push x).2 = if r.size == r.capacity then r.slots.getD r.cursor none else none := rfl

@[simp] theorem toWindow_capacity (r : Ring β) : r.toWindow.capacity = r.capacity := rfl
@[simp] theorem toWindow_items (r : Ring β) : r.toWindow.items = r.items := rfl

end Ring

end TradeDesk
