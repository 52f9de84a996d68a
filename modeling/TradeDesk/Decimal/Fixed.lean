import TradeDesk.Binary64

/-!
# Fixed decimal places

`Fixed.scaled b places` is the exact value of a finite binary64 value times `10^places`, rounded
to a whole number, a half going to the even neighbour. Writing it with a point before the last
`places` digits gives the fixed-place text of the value (`Fixed.text`), and reading it back to
the nearest binary64 value rounds a number to `places` decimals (`Fixed.round`).
-/

namespace TradeDesk.Decimal.Fixed

open Binary64

/-- `|v| * 10^places`, rounded half-even. -/
def scaled (b : Binary64) (places : Nat) : Nat :=
  let (num, den) := b.toFraction
  let n := num * Nat.pow 10 places
  roundHalfEven (n / den) (n % den) den

/-- `n` zeros. -/
def zeros (n : Nat) : String := String.ofList (List.replicate n '0')

/-- The digits of `q / 10^places` with a point before the last `places` digits (none when
`places = 0`), and at least one digit before the point. -/
def text (q : Nat) (places : Nat) : String :=
  let ds := toString q
  let padded := if ds.length ≤ places then zeros (places + 1 - ds.length) ++ ds else ds
  if places == 0 then padded
  else
    let cut := padded.length - places
    String.ofList (padded.toList.take cut) ++ "." ++ String.ofList (padded.toList.drop cut)

/-- A finite value with `places` decimals; a negative value keeps its minus sign even when it
rounds to zero, as does `-0.0`. -/
def ofBinary (b : Binary64) (places : Nat) : String :=
  (if b.neg then "-" else "") ++ text (scaled b places) places

/-- The binary64 value nearest to the value rounded to `places` decimals (half-even); a zero
keeps the sign of the value. -/
def round (b : Binary64) (places : Nat) : Float :=
  nearest b.neg (scaled b places) (Nat.pow 10 places)

end TradeDesk.Decimal.Fixed
