import TradeDesk.Value

/-!
# Hashed sets

A set holds its keys in an open-addressing table whose size is a power of two, and a loop over the
set meets them in slot order. A printed set, or a set read item by item, shows its keys in that
order, which this module computes for keys whose hashes are fixed: numbers and truth values.

* `Num.hash?` is the hash of a number: its exact value modulo the Mersenne prime `2^61 - 1`
  (`hashModulus`), with the number's sign. A binary64 value `mant * 2^exp` reduces to
  `mant * 2^(exp mod 61)`, since `2^61` is one modulo the prime, so a whole binary64 value hashes
  as the whole number it equals, and equal keys always share a hash. The hash `-1` is taken by
  `-2`; the infinities hash as `314159` and `-314159`, and a NaN has no fixed hash.
* `SlotTable.order` lays distinct keys with their hashes into a table and reads them back in slot
  order. The table starts with 8 slots, or with room for twice the keys when three fifths of 8 slots
  would not hold them; a key takes the first free slot of its probe sequence (`SlotTable.freeSlot`);
  and once three fifths of the table is taken it is rebuilt with room for four times its keys, each
  placed again in the old slot order.
-/

namespace TradeDesk

/-- The Mersenne prime `2^61 - 1`, the modulus of number hashes. -/
def hashModulus : Nat := Nat.pow 2 61 - 1

/-- A hash from a sign and a remainder modulo `hashModulus`; `-1` becomes `-2`. -/
def signedHash (neg : Bool) (r : Nat) : Int :=
  let h : Int := if neg then -(r : Int) else r
  if h == -1 then -2 else h

/-- The hash of a number (see the module note); `none` for a NaN. -/
def Num.hash? : Num → Option Int
  | .int n => some (signedHash (n < 0) (n.natAbs % hashModulus))
  | .float x => match Binary64.classify x with
    | .nan => none
    | .inf neg => some (if neg then -314159 else 314159)
    | .finite b =>
      some (signedHash b.neg (b.mant % hashModulus * Nat.pow 2 (b.exp % 61).toNat % hashModulus))

/-- The hash of a key, for numbers and truth values (a truth value hashes as `0` or `1`). -/
def Value.hash? (v : Value) : Option Int := v.asNum?.bind Num.hash?

/-- An open-addressing table: each slot is empty or holds a key with its hash. -/
structure SlotTable (α : Type) where
  slots : Array (Option (α × Int))

namespace SlotTable

/-- A hash as an unsigned 64-bit word. -/
def word (h : Int) : Nat := (h % (Nat.pow 2 64 : Int)).toNat

/-- The first free slot of a probe sequence: from the start `i`, the slot itself and, when they lie
inside the table, the nine after it; then the next start `(5 i + 1 + perturb) mod size`, with the
perturbation shifted right by five bits first. `fuel` bounds the starts tried. After thirteen shifts
the perturbation is zero, and from then on the starts run through every slot of a table whose size
is a power of two, so `size + 14` starts always find a free slot when there is one. -/
def freeSlot (slots : Array (Option α)) : Nat → Nat → Nat → Option Nat
  | 0, _, _ => none
  | fuel + 1, i, perturb =>
    let run := if i + 9 < slots.size then List.range 10 else [0]
    match run.find? fun j => (slots.getD (i + j) none).isNone with
    | some j => some (i + j)
    | none =>
      let perturb := perturb / 32
      freeSlot slots fuel ((i * 5 + 1 + perturb) % slots.size) perturb

/-- The slots with a key put in the first free slot of its probe sequence. -/
def place (slots : Array (Option (α × Int))) (k : α × Int) : Array (Option (α × Int)) :=
  match freeSlot slots (slots.size + 14) (word k.2 % slots.size) (word k.2) with
  | some j => slots.setIfInBounds j (some k)
  | none => slots

/-- The keys of a table in slot order. -/
def keys (t : SlotTable α) : List (α × Int) := t.slots.toList.filterMap id

/-- The number of slots of a table rebuilt for `minUsed` keys: the least power of two above
`minUsed`, and at least 8. -/
def sizeAbove (minUsed : Nat) : Nat := max 8 (Nat.pow 2 (Nat.log2 minUsed + 1))

/-- The table rebuilt with `sizeAbove minUsed` slots, its keys placed again in slot order. -/
def resize (t : SlotTable α) (minUsed : Nat) : SlotTable α :=
  ⟨t.keys.foldl place (Array.replicate (sizeAbove minUsed) none)⟩

/-- The table with one more key, rebuilt when three fifths of it is taken: for four times its keys,
or twice above 50000 keys. -/
def add (t : SlotTable α) (k : α × Int) : SlotTable α :=
  let t' : SlotTable α := ⟨place t.slots k⟩
  let used := t'.keys.length
  if used * 5 < (t'.slots.size - 1) * 3 then t'
  else t'.resize (if used > 50000 then used * 2 else used * 4)

/-- Distinct keys with their hashes, in the order a loop over a set built from them meets them
(see the module note). -/
def order (ks : List (α × Int)) : List α :=
  let empty : SlotTable α := ⟨Array.replicate 8 none⟩
  let start := if ks.length * 5 ≥ 7 * 3 then empty.resize (ks.length * 2) else empty
  (ks.foldl add start).keys.map (·.1)

end SlotTable

end TradeDesk
