import TradeDesk.Decimal.Shortest
import TradeDesk.Decimal.Fixed

/-!
# Number text

The text of a binary64 value under a `Decimal.Style`: shortest round-trip digits
(`Decimal.Shortest`), written positionally when the decimal exponent lies in a window and in
scientific notation otherwise. `Decimal.Style.standard` is the style this library writes numbers in,
both in answers and inside messages. Fixed places and percentages go through `Decimal.Fixed`.
-/

namespace TradeDesk.Decimal

open Binary64

/-- How a value's shortest digits become text. -/
structure Style where
  /-- Decimal exponents `e` with `positionalFrom ≤ e < positionalBelow` are written positionally. -/
  positionalFrom : Int
  positionalBelow : Int
  /-- A positional whole number keeps a trailing `.0`. -/
  pointZero : Bool
  /-- Least number of exponent digits, zero-padded. -/
  expDigits : Nat
  /-- The exponent of a positive power is written with a `+`. -/
  expPlus : Bool
  nanText : String
  infText : String

/-- Positional from `1e-4` up to below `1e16`, whole numbers as `5.0`, exponents as `e+16` and
`e-05`, and `nan`, `inf`, `-inf`. -/
def Style.standard : Style :=
  { positionalFrom := -4, positionalBelow := 16, pointZero := true, expDigits := 2, expPlus := true,
    nanText := "nan", infText := "inf" }

/-- Digits `ds` (no trailing zero) whose first digit has decimal exponent `e`, written positionally. -/
def positional (s : Style) (ds : String) (e : Int) : String :=
  let n := ds.length
  if e < 0 then "0." ++ Fixed.zeros (-e - 1).toNat ++ ds
  else if e.toNat + 1 ≥ n then
    ds ++ Fixed.zeros (e.toNat + 1 - n) ++ (if s.pointZero then ".0" else "")
  else
    String.ofList (ds.toList.take (e.toNat + 1)) ++ "." ++ String.ofList (ds.toList.drop (e.toNat + 1))

/-- Digits `ds` whose first digit has decimal exponent `e`, in scientific notation. -/
def scientific (s : Style) (ds : String) (e : Int) : String :=
  let mant := match ds.toList with
    | [] => "0"
    | [c] => String.singleton c
    | c :: rest => String.singleton c ++ "." ++ String.ofList rest
  let expAbs := toString e.natAbs
  let padded := Fixed.zeros (s.expDigits - expAbs.length) ++ expAbs
  let sign := if e < 0 then "-" else if s.expPlus then "+" else ""
  mant ++ "e" ++ sign ++ padded

/-- The text of a finite value under a style. -/
def Style.finite (s : Style) (b : Binary64) : String :=
  let sign := if b.neg then "-" else ""
  if b.mant == 0 then sign ++ (if s.pointZero then "0.0" else "0")
  else
    let (d, p) := shortest b
    let ds := toString d
    let e := p + ds.length - 1
    if s.positionalFrom ≤ e && e < s.positionalBelow then sign ++ positional s ds e
    else sign ++ scientific s ds e

/-- The text of any binary64 value under a style. -/
def Style.render (s : Style) (x : Float) : String :=
  match classify x with
  | .finite b => s.finite b
  | .inf neg => (if neg then "-" else "") ++ s.infText
  | .nan => s.nanText

/-- The shortest round-trip text of a value in the standard style. -/
def text (x : Float) : String := Style.standard.render x

/-- A value with `places` decimals, rounded half-even from its exact binary value. -/
def fixed (places : Nat) (x : Float) : String :=
  match classify x with
  | .finite b => Fixed.ofBinary b places
  | .inf neg => (if neg then "-" else "") ++ "inf"
  | .nan => "nan"

/-- A fraction as a percentage with `places` decimals: the value times 100 in binary64, then
fixed places and a percent sign. -/
def percent (places : Nat) (x : Float) : String := fixed places (x * 100.0) ++ "%"

/-- A value rounded to `places` decimals: the nearest binary64 value to the exact value rounded
half-even. Infinities and NaN are returned unchanged. -/
def roundTo (places : Nat) (x : Float) : Float :=
  match classify x with
  | .finite b => Fixed.round b places
  | _ => x

end TradeDesk.Decimal
