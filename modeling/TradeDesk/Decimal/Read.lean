import TradeDesk.Binary64
import TradeDesk.Text.Blank
import TradeDesk.Text.Chars

/-!
# Reading decimal numerals

A numeral is read into its digits and a decimal exponent, and its value is the binary64 value
nearest to `digits * 10^exponent` (`Decimal.Numeral.toFloat`), so reading is correctly rounded.

Four spellings are read here, as grammars over the same pieces:

* `Numeral.json`, the interchange grammar: `-?(0|[1-9][0-9]*)(.[0-9]+)?([eE][+-]?[0-9]+)?`. A
  numeral without fraction and exponent is a whole number of any size.
* `Numeral.loose`, the grammar of converting a text to a number. The text is first brought to
  ASCII (`asciiForm?`): a blank outside ASCII becomes a space and a decimal digit of another script
  becomes the ASCII digit of its value; any other character outside ASCII fails the reading. Each
  underscore must then stand between two ASCII digits, and is dropped. What is left is read with
  ASCII blanks around it, an optional sign, and `inf`, `infinity` or `nan` in any case, or digits
  with an optional point and exponent.
* `Numeral.strict`, the grammar of configuration fields: blanks around it, an optional sign,
  `inf`, `infinity` or `nan` in any case, or ASCII digits with an optional point and exponent.
  `Numeral.field` also reads a text that is strict once its underscores are dropped, unless an
  underscore stands at either end or two stand together.
* `Numeral.whole`, whole numbers of configuration fields (`WholeText`), after the blanks around
  the text are trimmed. A sign may lead; a point must be followed by one or more zeros and nothing
  else, and what stands before it is read. A run of zeros and underscores at the front goes
  (`dropLeadingZeros`), whatever follows it, so `0-7` reads as `-7` but `0+7` is refused. The
  underscores go next, none at either end and no two together (`dropUnderscores`); what is left is a
  whole number of the interchange grammar: an optional minus and ASCII digits, a leading zero
  standing alone. A trimmed text longer than 4300 bytes is refused as too long.
-/
namespace TradeDesk.Decimal

/-- A decimal numeral: sign, digits, and the power of ten of the last digit. -/
structure Numeral where
  neg : Bool
  digits : Nat
  exp : Int
  deriving Repr

/-- The value of an ASCII digit. -/
def asciiDigit? (c : Char) : Option Nat :=
  if '0' ≤ c && c ≤ '9' then some (c.toNat - 48) else none

/-- The number of decimal digits of a whole number (one for zero). -/
def width (n : Nat) : Nat := (Nat.toDigits 10 n).length

/-- The binary64 value nearest to the numeral. Exponents far beyond the binary64 range give an
infinity or a zero at once, without building their powers of ten. -/
def Numeral.toFloat (r : Numeral) : Float :=
  if r.digits == 0 then Binary64.nearest r.neg 0 1
  else if (width r.digits : Int) + r.exp > 400 then (if r.neg then -(1.0 / 0.0) else 1.0 / 0.0)
  else if (width r.digits : Int) + r.exp < -400 then Binary64.nearest r.neg 0 1
  else if 0 ≤ r.exp then Binary64.nearest r.neg (r.digits * Nat.pow 10 r.exp.toNat) 1
  else Binary64.nearest r.neg r.digits (Nat.pow 10 (-r.exp).toNat)

/-- Digits read by `digit?` from the front, as `(value, count, rest)`; with `underscores`, one
underscore may stand between two digits. -/
def takeDigits (digit? : Char → Option Nat) (underscores : Bool) :
    List Char → Nat → Nat → Nat × Nat × List Char
  | [], acc, k => (acc, k, [])
  | c :: rest, acc, k =>
    match digit? c with
    | some d => takeDigits digit? underscores rest (acc * 10 + d) (k + 1)
    | none =>
      if underscores && c == '_' && k > 0 && (rest.head?.bind digit?).isSome then
        takeDigits digit? underscores rest acc k
      else (acc, k, c :: rest)

/-- An optional sign at the front: whether it is a minus, and the rest. -/
def takeSign : List Char → Bool × List Char
  | '-' :: rest => (true, rest)
  | '+' :: rest => (false, rest)
  | cs => (false, cs)

/-- An exponent part `[eE][+-]?digits` at the front, if there is one with at least one digit. -/
def takeExponent (digit? : Char → Option Nat) (underscores : Bool) :
    List Char → Option (Int × List Char)
  | c :: rest =>
    if c == 'e' || c == 'E' then
      let (neg, rest) := takeSign rest
      let (v, k, rest) := takeDigits digit? underscores rest 0 0
      if k == 0 then none else some (if neg then -(v : Int) else v, rest)
    else none
  | [] => none

/-- The body of a numeral after its sign: digits, an optional point with digits, an optional
exponent; at least one digit before or after the point. Returns digits, exponent, rest. -/
def takeBody (digit? : Char → Option Nat) (underscores : Bool) (cs : List Char) :
    Option (Nat × Int × List Char) :=
  let (whole, k1, rest) := takeDigits digit? underscores cs 0 0
  let (frac, k2, rest) := match rest with
    | '.' :: rest' => takeDigits digit? underscores rest' whole 0
    | _ => (whole, 0, rest)
  if k1 + k2 == 0 then none
  else
    match takeExponent digit? underscores rest with
    | some (e, rest) => some (frac, e - k2, rest)
    | none => some (frac, -(k2 : Int), rest)

/-- What a whole text reads as under the loose or strict grammar. -/
inductive Reading where
  | numeral (r : Numeral)
  | inf (neg : Bool)
  | nan
  deriving Repr

/-- The binary64 value of a reading. -/
def Reading.toFloat : Reading → Float
  | .numeral r => r.toFloat
  | .inf neg => if neg then -(1.0 / 0.0) else 1.0 / 0.0
  | .nan => 0.0 / 0.0

/-- A whole text read with the given digits, after trimming blanks by `blank`. -/
def readWhole (blank : Char → Bool) (digit? : Char → Option Nat) (underscores : Bool) (s : String) :
    Option Reading :=
  let cs := ((s.toList.dropWhile blank).reverse.dropWhile blank).reverse
  let (neg, body) := takeSign cs
  let word := String.ofList (body.map fun c => if 'A' ≤ c && c ≤ 'Z' then Char.ofNat (c.toNat + 32) else c)
  if word == "inf" || word == "infinity" then some (.inf neg)
  else if word == "nan" then some .nan
  else
    match takeBody digit? underscores body with
    | some (d, e, []) => some (.numeral ⟨neg, d, e⟩)
    | _ => none

/-- The ASCII blanks: space, tab, line feed, vertical tab, form feed and carriage return. -/
def isAsciiBlank (c : Char) : Bool := c == ' ' || ('\t' ≤ c && c ≤ '\r')

/-- The character that a character of a text stands for when the text is read as a number: ASCII
as itself, another blank as a space, and a decimal digit of another script as the ASCII digit of
its value. Any other character has none. -/
def asciiForm? (c : Char) : Option Char :=
  if c.toNat < 127 then some c
  else if Text.isBlank c then some ' '
  else (Unicode.decimalValue? c).map fun d => Char.ofNat (48 + d)

/-- Whether each underscore of a text stands right after an ASCII digit and right before one;
`prev` is the character before the text. -/
def underscoresBetweenDigits (prev : Option Char) : List Char → Bool
  | [] => true
  | c :: rest =>
    (c != '_' || (prev.any Char.isDigit && rest.head?.any Char.isDigit)) &&
      underscoresBetweenDigits (some c) rest

/-- A text read as a number the loose way (see the module note). -/
def Numeral.loose (s : String) : Option Reading := do
  let cs ← s.toList.mapM asciiForm?
  if underscoresBetweenDigits none cs then
    readWhole isAsciiBlank asciiDigit? false (String.ofList (cs.filter (· != '_')))
  else none

/-- Blanks around a configuration field's text. -/
def isFieldBlank (c : Char) : Bool :=
  Text.isBlank c && !(0x1c ≤ c.toNat && c.toNat ≤ 0x1f)

/-- A text read as a number the strict way (see the module note). -/
def Numeral.strict (s : String) : Option Reading :=
  readWhole isFieldBlank asciiDigit? false s

/-- Whether two underscores stand together in a text. -/
def doubledUnderscore : List Char → Bool
  | a :: b :: rest => (a == '_' && b == '_') || doubledUnderscore (b :: rest)
  | _ => false

/-- A text with its underscores dropped, when none stands at either end and no two stand
together. -/
def dropUnderscores (cs : List Char) : Option (List Char) :=
  if cs.head? == some '_' || cs.getLast? == some '_' || doubledUnderscore cs then none
  else some (cs.filter (· != '_'))

/-- A configuration field's text read as a number: the strict reading, or else the strict reading
of the text with its underscores dropped (`dropUnderscores`), as long as that leaves no blank at
either end. -/
def Numeral.field (s : String) : Option Reading :=
  match Numeral.strict s with
  | some r => some r
  | none =>
    match dropUnderscores s.toList with
    | some t =>
      match t.head?, t.getLast? with
      | some a, some b =>
        if isFieldBlank a || isFieldBlank b then none else Numeral.strict (String.ofList t)
      | _, _ => none
    | none => none

/-- ASCII digits read as a whole number; `none` for no digits or a character that is not one. -/
def asciiNat? (cs : List Char) : Option Nat :=
  if cs.isEmpty then none else cs.foldlM (fun acc c => (asciiDigit? c).map (acc * 10 + ·)) 0

/-- Digits of the interchange grammar read as a whole number: ASCII digits, with a leading zero
standing alone. -/
def jsonNat? (cs : List Char) : Option Nat :=
  if cs.length > 1 && cs.head? == some '0' then none else asciiNat? cs

/-- The part of a text before its point, when the point is followed by one or more zeros and
nothing else; the whole text when it has no point. -/
def beforeZeroFraction (cs : List Char) : Option (List Char) :=
  match cs.dropWhile (· != '.') with
  | [] => some cs
  | _ :: zs => if !zs.isEmpty && zs.all (· == '0') then some (cs.takeWhile (· != '.')) else none

/-- A text without the run of zeros and underscores it starts with, when it starts with a zero.
What follows the run is kept whatever it is, and a text that is all run keeps its last character. -/
def dropLeadingZeros (cs : List Char) : List Char :=
  match cs with
  | '0' :: _ =>
    match cs.dropWhile (fun c => c == '0' || c == '_') with
    | [] => (cs.getLast?).toList
    | rest => rest
  | _ => cs

/-- How a configuration field's text reads as a whole number. -/
inductive WholeText where
  | whole (n : Int)
  | unreadable
  | tooLong
  deriving Repr

/-- A configuration field's text read as a whole number (see the module note). -/
def Numeral.whole (s : String) : WholeText :=
  let cs := ((s.toList.dropWhile isFieldBlank).reverse.dropWhile isFieldBlank).reverse
  if (String.ofList cs).utf8ByteSize > 4300 then .tooLong
  else
    let (outer, body) := takeSign cs
    let read : Option Int := do
      let ts := dropLeadingZeros (← beforeZeroFraction body)
      let ds ← dropUnderscores ts
      let (inner, digits) := match ds with
        | '-' :: rest => (true, rest)
        | _ => (false, ds)
      let n ← jsonNat? digits
      pure (if inner != outer then -(n : Int) else n)
    match read with
    | some n => .whole n
    | none => .unreadable

/-- A numeral of the interchange grammar at the front of the input: the whole number, or the
binary64 value when it has a fraction or an exponent, and the rest. -/
def Numeral.json (cs : List Char) : Option ((Int ⊕ Float) × List Char) :=
  let (neg, body) := match cs with
    | '-' :: rest => (true, rest)
    | _ => (false, cs)
  let (whole, k1, rest) := takeDigits asciiDigit? false body 0 0
  -- a leading zero stands alone
  if k1 == 0 || (k1 > 1 && body.head? == some '0') then none
  else
    let frac := match rest with
      | '.' :: rest' =>
        let (f, k2, rest'') := takeDigits asciiDigit? false rest' whole 0
        if k2 == 0 then none else some (f, k2, rest'')
      | _ => some (whole, 0, rest)
    match frac with
    | none => none
    | some (d, k2, rest) =>
      let (e, rest, hasExp) := match rest with
        | c :: more =>
          if c == 'e' || c == 'E' then
            match takeExponent asciiDigit? false (c :: more) with
            | some (e, rest') => (some e, rest', true)
            | none => (none, c :: more, true)
          else (some 0, rest, false)
        | [] => (some 0, [], false)
      match e with
      | none => none
      | some e =>
        if k2 == 0 && !hasExp then some (.inl (if neg then -(d : Int) else d), rest)
        else some (.inr (Numeral.toFloat ⟨neg, d, e - k2⟩), rest)

end TradeDesk.Decimal
