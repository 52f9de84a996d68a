import TradeDesk.Binary64

/-!
# Shortest decimal digits of a binary64 value

For a positive finite binary64 value `v`, `Shortest.digits` finds the decimal `d * 10^p` with the
fewest significant digits that reads back as `v`, and of two such decimals the one nearer to `v`.
Reading back means lying in the rounding interval of `v`: the reals halfway to its two binary64
neighbours, ends included exactly when the significand is even (a tie then rounds to `v`).

The search tries 1, 2, … 17 significant digits. On the grid of multiples of `10^p` it needs to test
only the two grid points next to `v`: the interval is convex and holds `v`, so if any grid point lies
in it, the neighbour on the same side does too. All comparisons are exact, in `Nat`.
-/

namespace TradeDesk.Decimal

open Binary64

/-- An exact non-negative number `num / den`, for comparisons. -/
structure Frac where
  num : Nat
  den : Nat

namespace Frac

/-- `d * 10^p` as a fraction. -/
def ofDecimal (d : Nat) (p : Int) : Frac :=
  if 0 ≤ p then ⟨d * Nat.pow 10 p.toNat, 1⟩ else ⟨d, Nat.pow 10 (-p).toNat⟩

/-- `x * 2^t` as a fraction. -/
def ofBinary (x : Nat) (t : Int) : Frac :=
  if 0 ≤ t then ⟨x * Nat.pow 2 t.toNat, 1⟩ else ⟨x, Nat.pow 2 (-t).toNat⟩

/-- `a ≤ b` by cross-multiplication (denominators are positive). -/
def le (a b : Frac) : Bool := a.num * b.den ≤ b.num * a.den

/-- `a < b` by cross-multiplication. -/
def lt (a b : Frac) : Bool := a.num * b.den < b.num * a.den

/-- `|a - b|` as a fraction. -/
def dist (a b : Frac) : Frac :=
  let x := a.num * b.den
  let y := b.num * a.den
  ⟨if x ≤ y then y - x else x - y, a.den * b.den⟩

end Frac

/-- The rounding interval of a positive finite value `mant * 2^exp`, scaled by `2^(exp - 2)`:
the value is `4 * mant`, the upper end `4 * mant + 2`, the lower end `4 * mant - 2`, or
`4 * mant - 1` at a power of two above the subnormals, where the gap below is half the gap above. -/
structure Interval where
  low : Nat
  mid : Nat
  high : Nat
  scale : Int
  closed : Bool

/-- The rounding interval of a positive finite value. -/
def Interval.ofBinary (b : Binary64) : Interval :=
  let lowGap := if b.mant == Nat.pow 2 52 && b.exp > -1074 then 1 else 2
  ⟨4 * b.mant - lowGap, 4 * b.mant, 4 * b.mant + 2, b.exp - 2, b.mant % 2 == 0⟩

/-- Whether `d * 10^p` lies in the interval. -/
def Interval.holds (I : Interval) (d : Nat) (p : Int) : Bool :=
  let x := Frac.ofDecimal d p
  let lo := Frac.ofBinary I.low I.scale
  let hi := Frac.ofBinary I.high I.scale
  if I.closed then lo.le x && x.le hi else lo.lt x && x.lt hi

/-- The number of decimal digits of a positive whole number. -/
def digitCount (n : Nat) : Nat := (Nat.toDigits 10 n).length

/-- The decimal exponent `n` with `10^n ≤ v < 10^(n+1)`, for `v = mid * 2^scale > 0`. The value is
first scaled by `10^400`, which makes the smallest subnormal at least one. -/
def Interval.decimalExponent (I : Interval) : Int :=
  let v := Frac.ofBinary I.mid I.scale
  (digitCount (v.num * Nat.pow 10 400 / v.den) : Int) - 1 - 400

/-- The two grid points next to the value on the grid of multiples of `10^p`: `⌊v / 10^p⌋` and one
more. -/
def Interval.neighbours (I : Interval) (p : Int) : Nat × Nat :=
  let v := Frac.ofBinary I.mid I.scale
  let g := Frac.ofDecimal 1 p
  let lo := (v.num * g.den) / (v.den * g.num)
  (lo, lo + 1)

/-- Of the neighbours on the grid `10^p` that lie in the interval, the nearer to the value; an
exact tie goes to the even one. -/
def Interval.pick (I : Interval) (p : Int) : Option Nat :=
  let (lo, hi) := I.neighbours p
  let v := Frac.ofBinary I.mid I.scale
  match I.holds lo p, I.holds hi p with
  | true, true =>
    let dl := (Frac.ofDecimal lo p).dist v
    let dh := (Frac.ofDecimal hi p).dist v
    if dl.lt dh then some lo
    else if dh.lt dl then some hi
    else if lo % 2 == 0 then some lo else some hi
  | true, false => some lo
  | false, true => some hi
  | false, false => none

/-- Tries `k, k+1, …` significant digits, `fuel` times, on the grid `10^(n - k + 1)`. -/
def Interval.search (I : Interval) (n : Int) : Nat → Nat → Nat × Int
  | 0, _ => (I.mid, I.scale)  -- not reached: 17 digits always suffice
  | fuel + 1, k =>
    let p := n - k + 1
    match I.pick p with
    | some d => (d, p)
    | none => I.search n fuel (k + 1)

/-- Removes trailing zeros of `d`, raising the exponent to match. -/
def stripZeros : Nat → Int → Nat → Nat × Int
  | 0, p, d => (d, p)
  | fuel + 1, p, d => if d % 10 == 0 && d != 0 then stripZeros fuel (p + 1) (d / 10) else (d, p)

/-- The shortest nearest decimal of a positive finite value, as digits and the exponent of the
last digit: the value reads back from `d * 10^p`, and `d` has no trailing zero. -/
def shortest (b : Binary64) : Nat × Int :=
  let I := Interval.ofBinary b
  let (d, p) := I.search I.decimalExponent 17 1
  stripZeros 20 p d

end TradeDesk.Decimal
