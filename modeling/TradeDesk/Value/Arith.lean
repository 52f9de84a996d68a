import TradeDesk.Value

/-!
# Arithmetic and comparison of documents

Documents combine by the rules of a dynamically typed language, and an operation on values it does
not take fails with a `Fault` instead of producing a value:

* Numbers and truth values are numbers (`Value.asNum?`, a truth value being `0` or `1`). Whole
  numbers combine exactly; a whole number meeting a binary64 one must fit binary64
  (`Num.mixable`). True division (`Value.div?`) of two whole numbers is the binary64 value nearest
  to the exact quotient, and fails when that is beyond the range.
* `+` joins two texts or two lists; `*` repeats a text or a list a whole number of times, a
  negative count giving an empty one, and refuses any other count.
* Order comparisons (`Value.compare?`) relate two numbers exactly (a NaN is in no relation), two
  texts by their characters' codes, and two lists by their first unequal items, or by length when
  one is a prefix of the other. Any other pair is unordered.
* Equality (`Value.eqv`) never fails: numbers by value, texts and lists item by item, objects and
  mappings as maps from keys to values, stamps as `Stamp.same` says, and values of different kinds
  are unequal.

`Value.least?` and `Value.greatest?` pick one of two values the way the built-in minimum and
maximum do: the second value is taken only when it is strictly less (greater) than the first.
-/

namespace TradeDesk.Value

/-- Whether a whole number fits 64-bit two's complement. -/
def fitsWord (n : Int) : Bool := -(Int.pow 2 63) ≤ n && n < Int.pow 2 63

/-- The most bytes a value built by an operation may take; building a larger one runs out of
memory. -/
def memoryBudget : Nat := Nat.pow 2 34

/-- A text or a list repeated `n` times. -/
def repeatSeq (s : Value) (n : Int) : Except Fault Value :=
  if !fitsWord n then .error .indexTooLarge
  else
    let k := n.toNat
    match s with
    | .str t =>
      if t.length * k ≥ Nat.pow 2 63 then .error .textTooLong
      else if t.utf8ByteSize * k > memoryBudget then .error .outOfMemory
      else .ok (.str (String.join (List.replicate k t)))
    | .list xs =>
      if 8 * xs.length * k > memoryBudget then .error .outOfMemory
      else .ok (.list ((List.replicate k xs).flatten))
    | v => .ok v

/-- A sequence `s` multiplied by a count: whole numbers and truth values only. -/
def repeatBy (s n : Value) : Except Fault Value :=
  match n with
  | .num (.int k) => repeatSeq s k
  | .bool t => repeatSeq s (if t then 1 else 0)
  | _ => .error (.repeatByNonInt n.typeName)

/-- Whether a value is a text or a list. -/
def isSequence : Value → Bool
  | .str _ | .list _ => true
  | _ => false

/-- `a + b`. -/
def add? (a b : Value) : Except Fault Value :=
  match a, b with
  | .str s, .str t => .ok (.str (s ++ t))
  | .list xs, .list ys => .ok (.list (xs ++ ys))
  | .str _, _ => .error (.textJoin b.typeName)
  | .list _, _ => .error (.listJoin b.typeName)
  | _, _ => match a.asNum?, b.asNum? with
    | some x, some y => do Num.mixable x y; pure (.num (x + y))
    | _, _ => .error (.operands "+" a.typeName b.typeName)

/-- `a - b`: numbers and truth values only. -/
def sub? (a b : Value) : Except Fault Value :=
  match a.asNum?, b.asNum? with
  | some x, some y => do Num.mixable x y; pure (.num (x - y))
  | _, _ => .error (.operands "-" a.typeName b.typeName)

/-- `a * b`: numbers and truth values multiply; a text or a list is repeated by a whole count on
either side. -/
def mul? (a b : Value) : Except Fault Value :=
  match a.asNum?, b.asNum? with
  | some x, some y => do Num.mixable x y; pure (.num (x * y))
  | _, _ =>
    if a.isSequence then repeatBy a b
    else if b.isSequence then repeatBy b a
    else .error (.operands "*" a.typeName b.typeName)

/-- `a / b`, true division. Two whole numbers give the nearest binary64 value to the exact quotient;
otherwise both operands are first brought to binary64, left first, and then the divisor is checked
for zero. -/
def div? (a b : Value) : Except Fault Value :=
  match a.asNum?, b.asNum? with
  | some (.int m), some (.int n) =>
    if n == 0 then .error (.divisionByZero false)
    else
      let q := Num.div (.int m) (.int n)
      if q.isFinite then .ok (.num q) else .error .quotientTooLarge
  | some x, some y => do
    let u ← x.toFloat?
    let v ← y.toFloat?
    if v == 0.0 then .error (.divisionByZero true) else pure (.float (u / v))
  | _, _ => .error (.operands "/" a.typeName b.typeName)

/-- `-a`: numbers and truth values only. -/
def neg? (a : Value) : Except Fault Value :=
  match a.asNum? with
  | some x => .ok (.num (-x))
  | none => .error (.badNegation a.typeName)

/-- The sum of values from the whole number zero, added from the left. -/
def sum? (xs : List Value) : Except Fault Value := xs.foldlM add? (.int 0)

/-- An order relation. -/
inductive Rel where
  | lt
  | le
  | gt
  | ge
  deriving Repr, DecidableEq

/-- The operator of a relation. -/
def Rel.symbol : Rel → String
  | .lt => "<"
  | .le => "<="
  | .gt => ">"
  | .ge => ">="

/-- Whether a relation holds between two values in the given order. -/
def Rel.holds : Rel → Ordering → Bool
  | .lt, o => o == .lt
  | .le, o => o != .gt
  | .gt, o => o == .gt
  | .ge, o => o != .lt

mutual

/-- Equality of two values (see the module note). -/
def eqv : Value → Value → Bool
  | .null, .null => true
  | .str s, .str t => s == t
  | .list xs, .list ys => eqItems xs ys
  | .obj fs, .obj gs => fs.length == gs.length && eqFields fs gs
  | .map es, .map ds => es.length == ds.length && eqEntries es ds
  | .stamp s, .stamp t => s.same t
  | a, b => match a.asNum?, b.asNum? with
    | some x, some y => x.same y
    | _, _ => false

/-- Equality of two lists, item by item. -/
def eqItems : List Value → List Value → Bool
  | [], [] => true
  | x :: xs, y :: ys => eqv x y && eqItems xs ys
  | _, _ => false

/-- Whether every field of the first object has an equal value under its name in `gs`. -/
def eqFields : List (String × Value) → List (String × Value) → Bool
  | [], _ => true
  | (k, v) :: fs, gs =>
    (match gs.find? (·.1 == k) with
      | some (_, w) => eqv v w
      | none => false) && eqFields fs gs

/-- Whether every entry of the first mapping has an equal value under the same key in `ds`. -/
def eqEntries : List (Value × Value) → List (Value × Value) → Bool
  | [], _ => true
  | (k, v) :: es, ds =>
    (match ds.find? (sameKey k ·.1) with
      | some (_, w) => eqv v w
      | none => false) && eqEntries es ds

end

mutual

/-- Whether relation `r` holds from `a` to `b` (see the module note). -/
def compare? (r : Rel) : Value → Value → Except Fault Bool
  | .str s, .str t => .ok (r.holds (compare s t))
  | .list xs, .list ys => compareItems r xs ys
  | a, b => match a.asNum?, b.asNum? with
    | some x, some y => .ok (match x.order y with
      | some o => r.holds o
      | none => false)
    | _, _ => .error (.unordered r.symbol a.typeName b.typeName)

/-- Relation `r` between two lists: at their first unequal items, or by their lengths. -/
def compareItems (r : Rel) : List Value → List Value → Except Fault Bool
  | x :: xs, y :: ys => if eqv x y then compareItems r xs ys else compare? r x y
  | xs, ys => .ok (r.holds (compare xs.length ys.length))

end

/-- `a ≤ b`. -/
def le? (a b : Value) : Except Fault Bool := compare? .le a b

/-- The smaller of two values: `b` when `b < a`, else `a`. -/
def least? (a b : Value) : Except Fault Value := do
  if ← compare? .lt b a then pure b else pure a

/-- The larger of two values: `b` when `b > a`, else `a`. -/
def greatest? (a b : Value) : Except Fault Value := do
  if ← compare? .gt b a then pure b else pure a

end TradeDesk.Value
