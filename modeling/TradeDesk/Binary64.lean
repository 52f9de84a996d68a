/-!
# Binary64 values as exact numbers

A `Float` is an IEEE 754 binary64 value. This module reads its bits as an exact number
`(-1)^neg * mant * 2^exp` (`Binary64.classify`), and goes the other way: `Binary64.nearest`
rounds an exact non-negative fraction `num / den` to the nearest binary64 value, a tie going to
the even significand, with overflow to infinity and gradual underflow. Every conversion of a decimal
text or a whole number into a `Float` in this library goes through `nearest`, so each one is
correctly rounded once, and so do whole powers (`Binary64.powNat`).
-/

namespace TradeDesk

/-- A finite binary64 value: `(-1)^neg * mant * 2^exp`, with `mant < 2^53`. -/
structure Binary64 where
  neg : Bool
  mant : Nat
  exp : Int
  deriving Repr, DecidableEq

namespace Binary64

/-- What the bits of a binary64 value hold. -/
inductive Kind where
  | finite (b : Binary64)
  | inf (neg : Bool)
  | nan
  deriving Repr, DecidableEq

/-- Splits the bits into sign, biased exponent and fraction. The biased exponent 2047 marks
infinities and NaNs, 0 marks zeros and subnormals (whose significand has no hidden bit). -/
def classify (x : Float) : Kind :=
  let bits := x.toBits.toNat
  let neg := bits / Nat.pow 2 63 % 2 == 1
  let biased := bits / Nat.pow 2 52 % 2048
  let frac := bits % Nat.pow 2 52
  if biased == 2047 then
    if frac == 0 then .inf neg else .nan
  else if biased == 0 then
    .finite ⟨neg, frac, -1074⟩
  else
    .finite ⟨neg, frac + Nat.pow 2 52, Int.ofNat biased - 1075⟩

/-- The sign bit, set for negative numbers, `-0.0` and negative NaNs. -/
def signBit (x : Float) : Bool := x.toBits.toNat / Nat.pow 2 63 % 2 == 1

/-- `num / den` as a fraction with the power of two moved to one side. -/
def toFraction (b : Binary64) : Nat × Nat :=
  if 0 ≤ b.exp then (b.mant * Nat.pow 2 b.exp.toNat, 1) else (b.mant, Nat.pow 2 (-b.exp).toNat)

/-- Rounds `q + r/den` (with `r < den`) to a whole number, a half going to the even one. -/
def roundHalfEven (q r den : Nat) : Nat :=
  if 2 * r > den then q + 1
  else if 2 * r < den then q
  else if q % 2 == 1 then q + 1 else q

/-- Packs a sign, a significand below `2^53` and an exponent into bits. A significand of at least
`2^52` is normal (its exponent is above `-1075`); a smaller one is subnormal, at exponent `-1074`. -/
def pack (neg : Bool) (q : Nat) (e : Int) : Float :=
  let sign := if neg then Nat.pow 2 63 else 0
  if Nat.pow 2 52 ≤ q then
    Float.ofBits (UInt64.ofNat (sign + (e + 1075).toNat * Nat.pow 2 52 + (q - Nat.pow 2 52)))
  else
    Float.ofBits (UInt64.ofNat (sign + q))

/-- The whole part of `num * 2^(-e) / den` and its remainder over the scaled denominator. -/
def scaled (num den : Nat) (e : Int) : Nat × Nat × Nat :=
  if 0 ≤ e then
    let d := den * Nat.pow 2 e.toNat
    (num / d, num % d, d)
  else
    let n := num * Nat.pow 2 (-e).toNat
    (n / den, n % den, den)

/-- The binary exponent `e` with `2^52 ≤ num * 2^(-e) / den < 2^53`, found from the bit lengths
and corrected by one step each way. -/
def normalExponent (num den : Nat) : Int :=
  let e0 : Int := (num.log2 : Int) - (den.log2 : Int) - 52
  let (q, _, _) := scaled num den e0
  if Nat.pow 2 53 ≤ q then e0 + 1 else if q < Nat.pow 2 52 then e0 - 1 else e0

/-- The binary64 value nearest to `num / den` (`den > 0`), with sign `neg`; a tie goes to the
even significand. Beyond the largest finite value the result is infinite, and below the
smallest subnormal it is zero of the given sign. -/
def nearest (neg : Bool) (num den : Nat) : Float :=
  if num == 0 || den == 0 then pack neg 0 0
  else
    let e := max (normalExponent num den) (-1074)
    let (q, r, d) := scaled num den e
    let q' := roundHalfEven q r d
    let (q'', e') := if q' == Nat.pow 2 53 then (Nat.pow 2 52, e + 1) else (q', e)
    if e' > 971 then (if neg then -(1.0 / 0.0) else 1.0 / 0.0)
    else pack neg q'' e'

/-- The binary64 value nearest to a whole number. -/
def ofInt (n : Int) : Float := nearest (n < 0) n.natAbs 1

/-- `x^k` for a whole exponent `k`, rounded once: the exact power of a finite value rounded to the
nearest, negative for a negative base and an odd exponent. An infinity's power is an infinity of
that sign and a NaN's is a NaN, except that every value to the power zero is one. -/
def powNat (x : Float) (k : Nat) : Float :=
  match classify x with
  | .finite b =>
    let (num, den) := b.toFraction
    nearest (b.neg && k % 2 == 1) (Nat.pow num k) (Nat.pow den k)
  | .inf neg =>
    if k == 0 then nearest false 1 1
    else if neg && k % 2 == 1 then -(1.0 / 0.0) else 1.0 / 0.0
  | .nan => if k == 0 then nearest false 1 1 else x

/-- Whether a whole number is too large for any finite binary64 value once rounded. -/
def intOverflows (n : Int) : Bool :=
  match classify (ofInt n) with
  | .inf _ => true
  | _ => false

end Binary64

end TradeDesk
