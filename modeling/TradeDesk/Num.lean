import TradeDesk.Binary64
import TradeDesk.Numeric
import TradeDesk.Decimal.Text
import TradeDesk.Fault

/-!
# Numbers as the inputs carry them

A `Num` is a whole number of any size or a binary64 value, and the two stay apart: `5` and `5.0`
are different answers. Whole numbers combine exactly; any operation with a binary64 operand first
rounds the whole operand to binary64 (`Num.toFloat`), and the true quotient of two whole numbers is
the binary64 value nearest to the exact fraction. Comparisons are exact across the two kinds
(`Num.lt`): a whole number is compared with the exact value of the binary64 one, and a NaN is
neither below, above nor equal to anything.

The operations here are total. Where a computation on the inputs must fail instead (a whole number
too large for binary64, a division by zero), the caller checks first and reports a `Fault`.
-/

namespace TradeDesk

/-- A number: whole, or binary64. -/
inductive Num where
  | int (n : Int)
  | float (x : Float)

namespace Num

/-- The binary64 value of a number; a whole number beyond the range becomes infinite. -/
def toFloat : Num → Float
  | .int n => Binary64.ofInt n
  | .float x => x

/-- The binary64 value of a number, or `tooLarge` for a whole number beyond the range. -/
def toFloat? : Num → Except Fault Float
  | .int n => if Binary64.intOverflows n then .error .tooLarge else .ok (Binary64.ofInt n)
  | .float x => .ok x

/-- Whether a binary operation on `a` and `b` can go ahead: when exactly one operand is binary64,
the whole one must fit binary64. -/
def mixable (a b : Num) : Except Fault Unit :=
  match a, b with
  | .int m, .float _ => if Binary64.intOverflows m then .error .tooLarge else .ok ()
  | .float _, .int n => if Binary64.intOverflows n then .error .tooLarge else .ok ()
  | _, _ => .ok ()

/-- Whether a number is finite: every whole number is, and a binary64 value unless it is infinite
or NaN. -/
def isFinite : Num → Bool
  | .int _ => true
  | .float x => match Binary64.classify x with
    | .finite _ => true
    | _ => false

/-- A whole number and a binary64 value combined by the binary64 operation. -/
def lift (i : Int → Int → Int) (f : Float → Float → Float) : Num → Num → Num
  | .int m, .int n => .int (i m n)
  | a, b => .float (f a.toFloat b.toFloat)

instance : Add Num := ⟨lift (· + ·) (· + ·)⟩
instance : Sub Num := ⟨lift (· - ·) (· - ·)⟩
instance : Mul Num := ⟨lift (· * ·) (· * ·)⟩

/-- True division: binary64 always; of two whole numbers, the value nearest to the exact fraction. -/
def div : Num → Num → Num
  | .int m, .int n =>
    if n == 0 then .float (Binary64.ofInt m / 0.0)
    else .float (Binary64.nearest ((m < 0) != (n < 0)) m.natAbs n.natAbs)
  | a, b => .float (a.toFloat / b.toFloat)

instance : Div Num := ⟨div⟩

instance : Neg Num := ⟨fun
  | .int n => .int (-n)
  | .float x => .float (-x)⟩

/-- The sign and exact value `num / den` of a finite binary64 value. -/
def exact (b : Binary64) : Int × Nat :=
  let (num, den) := b.toFraction
  (if b.neg then -(num : Int) else num, den)

/-- Exact comparison of a whole number with a binary64 value: `some` of the ordering, `none` when
the binary64 value is NaN. -/
def compareIntFloat (m : Int) (x : Float) : Option Ordering :=
  match Binary64.classify x with
  | .nan => none
  | .inf neg => some (if neg then .gt else .lt)
  | .finite b =>
    let (num, den) := exact b
    some (compare (m * den) num)

/-- Exact ordering of two numbers; `none` when they are incomparable (a NaN). -/
def order : Num → Num → Option Ordering
  | .int m, .int n => some (compare m n)
  | .int m, .float y => compareIntFloat m y
  | .float x, .int n => (compareIntFloat n x).map Ordering.swap
  | .float x, .float y => if x < y then some .lt else if y < x then some .gt
    else if x == y then some .eq else none

/-- `a < b`, exactly. -/
def lt (a b : Num) : Bool := a.order b == some .lt

/-- `a ≤ b`, exactly. -/
def le (a b : Num) : Bool := a.order b == some .lt || a.order b == some .eq

/-- `a = b` as numbers: `1 = 1.0`, and a NaN equals nothing. -/
def same (a b : Num) : Bool := a.order b == some .eq

instance : LT Num := ⟨fun a b => a.lt b = true⟩
instance : LE Num := ⟨fun a b => a.le b = true⟩
instance decidableLt : DecidableRel (fun a b : Num => a < b) := fun a b => inferInstanceAs (Decidable (a.lt b = true))
instance decidableLe : DecidableRel (fun a b : Num => a ≤ b) := fun a b => inferInstanceAs (Decidable (a.le b = true))

instance : NatCast Num := ⟨fun n => .int n⟩
instance : OfNat Num n := ⟨.int n⟩

/-- Decimal literals are binary64: the value nearest to `m * 10^(±e)`. -/
instance : OfScientific Num :=
  ⟨fun m neg e => .float (if neg then Binary64.nearest false m (Nat.pow 10 e) else Binary64.nearest false (m * Nat.pow 10 e) 1)⟩

/-- Whole powers: exact for whole numbers, the exact power rounded once to binary64 otherwise. -/
def pow : Num → Nat → Num
  | .int m, k => .int (Int.pow m k)
  | .float x, k => .float (Binary64.powNat x k)

instance : HPow Num Nat Num := ⟨pow⟩

instance : Numeric Num where
  approx n := .float n.toFloat
  finite := Num.isFinite
  decLt := fun a b => inferInstanceAs (Decidable (a.lt b = true))
  decLe := fun a b => inferInstanceAs (Decidable (a.le b = true))

/-- The text of a number: digits for a whole number, shortest round-trip text for binary64. -/
def text : Num → String
  | .int n => toString n
  | .float x => Decimal.text x

end Num

/-- Binary64 values compute as themselves; whole numbers enter rounded to nearest. -/
instance : Numeric Float where
  approx x := x
  finite x := x.isFinite
  natCast n := Binary64.ofInt n
  ofScientific m neg e := (OfScientific.ofScientific m neg e : Num).toFloat
  hPow x k := Binary64.powNat x k
  decLt := Float.decLt
  decLe := Float.decLe

end TradeDesk
