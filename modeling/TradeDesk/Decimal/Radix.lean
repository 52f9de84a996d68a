import TradeDesk.Decimal.Read
import TradeDesk.Fault

/-!
# Whole numbers in a base

`Decimal.radix? s base` reads a text as a whole number in base 2, 8, 10 or 16, the way the
conversion of a text to a whole number does. The text is first brought to ASCII as for the loose
grammar of `Decimal.Read` (`asciiForm?`). Then, with ASCII blanks allowed around it, it is an
optional sign, for bases 2, 8 and 16 an optional `0b`, `0o` or `0x` (in either case) which one
underscore may follow, and one or more digits of the base among which single underscores may stand.
Anything else is `Fault.badLiteral`, which shows the text as it was given. In base 10 a run of more
than 4300 digits is refused with `Fault.digitLimit` as soon as the run is read, before what follows
it is looked at.
-/

namespace TradeDesk.Decimal

/-- The value of a digit of any base up to 36: `0`–`9`, then `a`–`z` or `A`–`Z` for 10 to 35. -/
def digitValue (c : Char) : Nat :=
  if '0' ≤ c && c ≤ '9' then c.toNat - 48
  else if 'a' ≤ c && c ≤ 'z' then c.toNat - 87
  else if 'A' ≤ c && c ≤ 'Z' then c.toNat - 55
  else 99

/-- A run of digits of a base with single underscores between them, from the front: the value,
the number of digits and the rest; `none` when two underscores stand together or one ends the run.
`prev` tells whether the character before was an underscore. -/
def baseDigits (base : Nat) : List Char → Bool → Nat → Nat → Option (Nat × Nat × List Char)
  | [], prev, acc, k => if prev then none else some (acc, k, [])
  | c :: rest, prev, acc, k =>
    if c == '_' then
      if prev then none else baseDigits base rest true acc k
    else if digitValue c < base then baseDigits base rest false (acc * base + digitValue c) (k + 1)
    else if prev then none
    else some (acc, k, c :: rest)

/-- The base marker that may open the digits of a base: `b`, `o` or `x` after a zero. -/
def baseMarker (base : Nat) (c : Char) : Bool :=
  match base with
  | 2 => c == 'b' || c == 'B'
  | 8 => c == 'o' || c == 'O'
  | 16 => c == 'x' || c == 'X'
  | _ => false

/-- The digits after the sign, with the base marker and one underscore after it dropped. -/
def dropMarker (base : Nat) : List Char → List Char
  | '0' :: m :: rest =>
    if baseMarker base m then
      match rest with
      | '_' :: more => more
      | _ => rest
    else '0' :: m :: rest
  | cs => cs

/-- A text read as a whole number in a base (see the module note). -/
def radix? (s : String) (base : Nat) : Except Fault Int :=
  let refuse : Except Fault Int := .error (.badLiteral base s)
  match s.toList.mapM asciiForm? with
  | none => refuse
  | some cs =>
    let (neg, body) := takeSign (cs.dropWhile isAsciiBlank)
    match dropMarker base body with
    | '_' :: _ => refuse
    | digits =>
      match baseDigits base digits false 0 0 with
      | none => refuse
      | some (v, k, rest) =>
        if base == 10 && k > 4300 then .error (.digitLimit k)
        else if k == 0 || !(rest.all isAsciiBlank) then refuse
        else .ok (if neg then -(v : Int) else v)

end TradeDesk.Decimal
