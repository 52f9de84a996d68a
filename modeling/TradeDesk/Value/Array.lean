import TradeDesk.Value.Arith
import TradeDesk.Stats

/-!
# Documents as arrays of numbers

An array library stores a list of values in one of a few layouts, and its statistics follow the
layout:

* Nested lists make an array of several dimensions when every list at one depth has the same
  length and every other value stands at the same depth; its statistics run over all its items
  in order. The shape is found depth first (`Value.shapeOf`): the first path down to a value or an
  empty list fixes the dimensions, and a later list of another length, or a value or list at
  another depth, makes the nesting ragged and no array (`Fault.ragged`, with the dimensions that
  were still usable; `Fault.tooDeep` beyond 64 dimensions).
* Null, objects, and whole numbers outside `[-2^63, 2^64)` are stored as general values. One of
  them makes the whole array general, and then its statistics compute with the operators of
  `Value.Arith`, item by item from the left (`Value.generalDeviation?`).
* Otherwise the items' storages are joined from the first (`Storage.join`): a text makes an array
  of texts, at least one character wide, which cannot be summed (`Fault.textSum`), and numbers
  met before a text decide how wide the texts must be.
* Otherwise every item is a number or a truth value and the array holds their binary64 values;
  sums are pairwise (`Stats.sumPairwise`).

`Value.deviation?` is the population standard deviation in that layout. `Value.asFloats?` is the
conversion of a list to an array of binary64 values, in which null stands for NaN and a text is
read as a numeral; `Value.floatArray?` is the same for any number of dimensions, and
`Value.sumShape?` is the shape of a sum of such arrays, which broadcasts dimensions of one.
-/

namespace TradeDesk.Value

/-- Whether a value is a list. -/
def isList : Value → Bool
  | .list _ => true
  | _ => false

/-- Whether an array holding the value must store general values. -/
def isGeneral : Value → Bool
  | .null | .obj _ => true
  | .num (.int n) => !(-(Int.pow 2 63) ≤ n && n < Int.pow 2 64)
  | _ => false

/-- How an array stores items that are not general values: as truth values, signed or unsigned
64-bit whole numbers, binary64 numbers, or texts of a width. -/
inductive Storage where
  | truth
  | signed
  | unsigned
  | binary64
  | text (width : Nat)

namespace Storage

/-- The storage one item asks for: a whole number below `2^63` in magnitude is signed, a larger
one unsigned; a text's width is its length. -/
def ofValue : Value → Storage
  | .bool _ => .truth
  | .num (.int n) => if -(Int.pow 2 63) ≤ n && n < Int.pow 2 63 then .signed else .unsigned
  | .str s => .text s.length
  | _ => .binary64

/-- The width of the texts of a storage: the longest text a value stored so can have. -/
def width : Storage → Nat
  | .truth => 5
  | .signed => 21
  | .unsigned => 20
  | .binary64 => 32
  | .text w => w

/-- The storage of an array holding items of two storages: texts as wide as both; truth values
give way to numbers; signed and unsigned whole numbers together need binary64. -/
def join : Storage → Storage → Storage
  | .text a, b => .text (max a b.width)
  | a, .text b => .text (max a.width b)
  | .truth, b => b
  | a, .truth => a
  | .signed, .signed => .signed
  | .unsigned, .unsigned => .unsigned
  | _, _ => .binary64

/-- The storage of an array of items, joined from the first; none for no items. -/
def ofItems : List Value → Option Storage
  | [] => none
  | x :: xs => some (xs.foldl (fun acc v => join acc (ofValue v)) (ofValue x))

end Storage

/-- The binary64 value of a number or truth value in an array of binary64 numbers. -/
def arrayNumber : Value → Float
  | .bool b => if b then 1.0 else 0.0
  | .num n => n.toFloat
  | _ => 0.0

/-- The most dimensions an array can have. -/
def maxDims : Nat := 64

/-- What the search for an array's shape has found so far. -/
structure ShapeSearch where
  /-- The length of the lists at each depth, outermost first. -/
  dims : Array Nat
  /-- How many dimensions can still be used. -/
  depth : Nat
  /-- Whether a value or an empty list has fixed the dimensions. -/
  fixed : Bool
  /-- Whether the nesting has been found ragged. -/
  ragged : Bool

/-- A value that is not a list met at depth `d`: it fixes the depth of the array, and one met at
another depth than a depth already fixed makes the nesting ragged. -/
def ShapeSearch.leaf (s : ShapeSearch) (d : Nat) : ShapeSearch :=
  if s.depth < d then { s with fixed := true, ragged := true }
  else if s.depth != d then { s with depth := d, fixed := true, ragged := s.ragged || s.fixed }
  else { s with fixed := true }

/-- A list of `n` items met at depth `d`: its length is the dimension there until the dimensions
are fixed, and must equal it after. -/
def ShapeSearch.sequence (s : ShapeSearch) (d n : Nat) : Option ShapeSearch :=
  if !s.fixed then some { s with dims := (s.dims.extract 0 d).push n }
  else if s.dims.getD d 0 != n then none
  else some s

mutual

/-- The shape search continued with a value at depth `d`. -/
def discover (v : Value) (d : Nat) (s : ShapeSearch) : ShapeSearch :=
  match v with
  | .list xs =>
    if d == s.depth then { s.leaf d with ragged := true }
    else match s.sequence d xs.length with
      | none => { s with depth := d, ragged := true }
      | some s =>
        if xs.isEmpty then { s with fixed := true, depth := d + 1 } else discoverAll xs (d + 1) s
  | _ => s.leaf d

/-- The shape search continued with the items of a list, at depth `d`. -/
def discoverAll : List Value → Nat → ShapeSearch → ShapeSearch
  | [], _, s => s
  | x :: xs, d, s => discoverAll xs d (discover x d s)

end

mutual

/-- The values of a document that are not lists, in order. -/
def leaves : Value → List Value
  | .list xs => leavesAll xs
  | v => [v]

/-- The values of some documents that are not lists, in order. -/
def leavesAll : List Value → List Value
  | [] => []
  | x :: xs => leaves x ++ leavesAll xs

end

/-- The items of an array made from a list, in order, or why the list makes no array. -/
def shapeOf (xs : List Value) : Except Fault (List Value) :=
  let s := discover (.list xs) 0 ⟨#[], maxDims, false, false⟩
  if s.ragged then
    if s.depth == maxDims then .error .tooDeep else .error (.ragged (s.dims.toList.take s.depth))
  else .ok (leavesAll xs)

/-- The population standard deviation of binary64 values, with pairwise sums. -/
def floatDeviation (xs : List Float) : Float :=
  let m := Stats.mean xs
  (Stats.mean (xs.map fun x => (x - m) * (x - m))).sqrt

/-- The population standard deviation of general values: their sum from the first, divided by the
count; each value less that mean, squared; the squares summed from the first and divided by the
count; and the square root of that. -/
def generalDeviation? (xs : List Value) : Except Fault Float :=
  match xs with
  | [] => .ok (0.0 / 0.0)
  | x :: rest => do
    let total ← rest.foldlM add? x
    let mean ← div? total (.int xs.length)
    let devs ← xs.mapM fun v => sub? v mean
    let squares ← devs.mapM fun d => mul? d d
    match squares with
    | [] => pure (0.0 / 0.0)
    | s :: more =>
      let ss ← more.foldlM add? s
      match ← div? ss (.int xs.length) with
      | .num n => pure n.toFloat.sqrt
      | _ => pure (0.0 / 0.0)

/-- The population standard deviation of a list of values not holding lists, by its layout. -/
def flatDeviation? (xs : List Value) : Except Fault Float :=
  if xs.any isGeneral then generalDeviation? xs
  else match Storage.ofItems xs with
    | some (.text w) => .error (.textSum (max w 1))
    | _ => .ok (floatDeviation (xs.map arrayNumber))

/-- The population standard deviation of a list of values, by its layout (see the module note). -/
def deviation? (xs : List Value) : Except Fault Float := do
  flatDeviation? (← shapeOf xs)

/-- A value in an array of binary64 numbers: null is NaN, and anything else converts as
`Value.toFloat?` does. -/
def arrayFloat? (v : Value) : Except Fault Float :=
  match v with
  | .null => .ok (0.0 / 0.0)
  | _ => v.toFloat?

/-- A list as an array of binary64 numbers of any number of dimensions: its shape and its items in
order, each converted as `arrayFloat?` does. -/
def floatArray? (xs : List Value) : Except Fault (List Nat × List Float) := do
  let s := discover (.list xs) 0 ⟨#[], maxDims, false, false⟩
  if s.ragged then
    if s.depth == maxDims then throw .tooDeep else throw (.ragged (s.dims.toList.take s.depth))
  let items ← (leavesAll xs).mapM arrayFloat?
  pure (s.dims.toList.take s.depth, items)

/-- The shape of the sum of two arrays: the shapes are aligned at their last dimensions, the shorter
one padded with ones, and at each place the dimensions must be equal or one of them one. -/
def broadcast? (a b : List Nat) : Option (List Nat) :=
  let n := max a.length b.length
  let pa := List.replicate (n - a.length) 1 ++ a
  let pb := List.replicate (n - b.length) 1 ++ b
  (pa.zip pb).mapM fun (x, y) =>
    if x == y || y == 1 then some x else if x == 1 then some y else none

/-- The shape of a sum of arrays of the given shapes, added from the left. -/
def sumShape? : List Nat → List (List Nat) → Except Fault (List Nat)
  | acc, [] => .ok acc
  | acc, s :: rest => match broadcast? acc s with
    | some r => sumShape? r rest
    | none => .error (.cannotBroadcast acc s)

/-- A list as an array of binary64 numbers. A list among the items makes no such array. -/
def asFloats? (xs : List Value) : Except Fault (List Float) :=
  if xs.any isList then do
    let _ ← shapeOf xs
    .error (.ragged [xs.length])
  else xs.mapM arrayFloat?

end TradeDesk.Value
