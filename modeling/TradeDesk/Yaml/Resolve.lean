import TradeDesk.Yaml.Token

/-!
# The types of plain scalars

A plain scalar without a tag gets the tag of the first YAML 1.1 type whose pattern its text
matches (`Yaml.resolve`). The patterns tried depend on the first character, in this order:

* `bool`: `yes`, `no`, `true`, `false`, `on`, `off`, each in lower case, capitalised or upper case;
* `float`: `1.5`, `-1_000.`, `1.5e+3` (the exponent needs its sign), `.5`, base-60 fractions
  `1:30.5`, and `.inf`, `-.Inf`, `.NaN`;
* `int`: binary `0b101`, octal `017`, decimal, hexadecimal `0xFF`, and base-60 `1:30`, with
  underscores allowed after the first digit;
* `merge` (`<<`), `null` (`~`, `null`, `Null`, `NULL` and the empty text), `timestamp` (a date
  `2001-12-14`, or a date with a time `2001-12-14t21:59:43.10-05:00`), `value` (`=`) and `yaml`
  (`!`, `&`, `*`).

Every other text is a `str`. A pattern matches the whole text, or the whole text but a final line
feed. `Yaml.stampFields?` reads the fields of a timestamp.
-/

namespace TradeDesk.Yaml

/-- The tag of a type of the YAML core schema. -/
def core (name : String) : String := "tag:yaml.org,2002:" ++ name

/-- Whether a character is an ASCII digit. -/
def isDigit (c : Char) : Bool := '0' ≤ c && c ≤ '9'

/-- Whether a character is an ASCII digit or an underscore. -/
def isDigitMark (c : Char) : Bool := isDigit c || c == '_'

/-- The text after an optional sign. -/
def dropSign : List Char → List Char
  | '-' :: r => r
  | '+' :: r => r
  | cs => cs

/-- Whether a text is empty or an exponent `[eE][-+][0-9]+`. -/
def exponentEnd : List Char → Bool
  | [] => true
  | e :: s :: ds => (e == 'e' || e == 'E') && (s == '-' || s == '+') && !ds.isEmpty && ds.all isDigit
  | _ => false

/-- Whether a text is one or more base-60 groups `:[0-5]?[0-9]` followed by a text that `finish`
accepts. -/
def sexaThen (finish : List Char → Bool) : List Char → Bool
  | ':' :: a :: b :: rest =>
    (a ≤ '5' && isDigit a && isDigit b && (finish rest || sexaThen finish rest)) ||
      (isDigit a && (finish (b :: rest) || sexaThen finish (b :: rest)))
  | [':', a] => isDigit a && finish []
  | _ => false

/-- Whether a text is a truth value. -/
def isBoolText (cs : List Char) : Bool :=
  ["yes", "Yes", "YES", "no", "No", "NO", "true", "True", "TRUE", "false", "False", "FALSE",
    "on", "On", "ON", "off", "Off", "OFF"].any (·.toList == cs)

/-- Whether a text is null. -/
def isNullText (cs : List Char) : Bool :=
  ["~", "null", "Null", "NULL", ""].any (·.toList == cs)

/-- Whether a text is a fractional number (see the module note). -/
def isFloatText (cs : List Char) : Bool :=
  let body := dropSign cs
  let pointed := match body with
    | d :: r => isDigit d && (match r.dropWhile isDigitMark with
      | '.' :: f => exponentEnd (f.dropWhile isDigitMark)
      | _ => false)
    | [] => false
  let leadingPoint := match cs with
    | '.' :: d :: r => isDigit d && exponentEnd (r.dropWhile isDigitMark)
    | _ => false
  let base60 := match body with
    | d :: r => isDigit d && sexaThen (fun rest => match rest with
      | '.' :: f => f.all isDigitMark
      | _ => false) (r.dropWhile isDigitMark)
    | [] => false
  let inf := [".inf", ".Inf", ".INF"].any (·.toList == body)
  let nan := [".nan", ".NaN", ".NAN"].any (·.toList == cs)
  pointed || leadingPoint || base60 || inf || nan

/-- Whether a text is a whole number (see the module note). -/
def isIntText (cs : List Char) : Bool :=
  match dropSign cs with
  | '0' :: 'b' :: r => !r.isEmpty && r.all fun c => c == '0' || c == '1' || c == '_'
  | '0' :: 'x' :: r => !r.isEmpty && r.all fun c =>
      isDigitMark c || ('a' ≤ c && c ≤ 'f') || ('A' ≤ c && c ≤ 'F')
  | ['0'] => true
  | '0' :: r => !r.isEmpty && r.all fun c => ('0' ≤ c && c ≤ '7') || c == '_'
  | d :: r =>
    '1' ≤ d && d ≤ '9' && (r.all isDigitMark || sexaThen List.isEmpty (r.dropWhile isDigitMark))
  | [] => false

/-- An offset from UTC as a timestamp writes it: `Z`, or a sign, hours and optional minutes. -/
inductive Zone where
  | utc
  | offset (neg : Bool) (hours : Nat) (minutes : Option Nat)
  deriving Repr

/-- The time of day of a timestamp as written: hour, minute, second, the digits after the point,
and the zone. -/
structure TimeFields where
  hour : Nat
  minute : Nat
  second : Nat
  fraction : List Char
  zone : Option Zone
  deriving Repr

/-- The fields of a timestamp as written. -/
structure StampFields where
  year : Nat
  month : Nat
  day : Nat
  time : Option TimeFields
  deriving Repr

/-- The value of ASCII digits. -/
def digitsValue (cs : List Char) : Nat := cs.foldl (fun acc c => acc * 10 + (c.toNat - 48)) 0

/-- One or two digits from the front, two when there are two, and the rest. -/
def oneOrTwo : List Char → Option (Nat × List Char)
  | a :: b :: rest =>
    if isDigit a then
      if isDigit b then some (digitsValue [a, b], rest) else some (digitsValue [a], b :: rest)
    else none
  | [a] => if isDigit a then some (digitsValue [a], []) else none
  | [] => none

/-- Exactly two digits from the front, and the rest. -/
def twoDigits : List Char → Option (Nat × List Char)
  | a :: b :: rest => if isDigit a && isDigit b then some (digitsValue [a, b], rest) else none
  | _ => none

/-- Whether a character is a space or a tab. -/
def isBlankChar (c : Char) : Bool := c == ' ' || c == '\t'

/-- The zone at the end of a timestamp: nothing, or blanks then `Z` or a signed offset. -/
def zoneFields? (cs : List Char) : Option (Option Zone) :=
  if cs.isEmpty then some none
  else match cs.dropWhile isBlankChar with
    | ['Z'] => some (some .utc)
    | s :: rest =>
      if s == '+' || s == '-' then
        match oneOrTwo rest with
        | some (h, []) => some (some (.offset (s == '-') h none))
        | some (h, ':' :: more) => match twoDigits more with
          | some (m, []) => some (some (.offset (s == '-') h (some m)))
          | _ => none
        | _ => none
      else none
    | [] => none

/-- The time of a timestamp after its date: `T`, `t` or blanks, then `h:mm:ss`, an optional
fraction and an optional zone, to the end. -/
def timeFields? (cs : List Char) : Option TimeFields := do
  let rest ← match cs with
    | 'T' :: r => some r
    | 't' :: r => some r
    | c :: r => if isBlankChar c then some (r.dropWhile isBlankChar) else none
    | [] => none
  let (hour, rest) ← oneOrTwo rest
  let rest ← match rest with
    | ':' :: r => some r
    | _ => none
  let (minute, rest) ← twoDigits rest
  let rest ← match rest with
    | ':' :: r => some r
    | _ => none
  let (second, rest) ← twoDigits rest
  let (fraction, rest) := match rest with
    | '.' :: r => (r.takeWhile isDigit, r.dropWhile isDigit)
    | _ => ([], rest)
  let zone ← zoneFields? rest
  pure ⟨hour, minute, second, fraction, zone⟩

/-- The fields of a timestamp written `yyyy-m-d` with an optional time, the month and day in one
or two digits, to the end of the text. -/
def exactStampFields? (cs : List Char) : Option StampFields := do
  let (year, rest) ← match cs with
    | a :: b :: c :: d :: '-' :: r =>
      if [a, b, c, d].all isDigit then some (digitsValue [a, b, c, d], r) else none
    | _ => none
  let (month, rest) ← oneOrTwo rest
  let rest ← match rest with
    | '-' :: r => some r
    | _ => none
  let (day, rest) ← oneOrTwo rest
  if rest.isEmpty then some (StampFields.mk year month day none)
  else (timeFields? rest).map fun t => StampFields.mk year month day (some t)

/-- The fields of a timestamp (see `exactStampFields?`); a final line feed is allowed. -/
def stampFields? (cs : List Char) : Option StampFields :=
  match exactStampFields? cs with
  | some f => some f
  | none => if cs.getLast? == some '\n' then exactStampFields? cs.dropLast else none

/-- Whether a text is a timestamp: a date `yyyy-mm-dd` alone, or a date with a time. -/
def isStampText (cs : List Char) : Bool :=
  let dateOnly := cs.length == 10 && (cs.zip (List.range 10)).all fun (c, i) =>
    if i == 4 || i == 7 then c == '-' else isDigit c
  dateOnly || match exactStampFields? cs with
    | some f => f.time.isSome
    | none => false

/-- The tag of a plain scalar's text (see the module note). -/
def resolve (text : String) : String :=
  let cs := text.toList
  let holds := fun (p : List Char → Bool) => p cs || (cs.getLast? == some '\n' && p cs.dropLast)
  let candidates : List (String × (List Char → Bool)) := match cs with
    | [] => [("null", isNullText)]
    | c :: _ =>
      (if "yYnNtTfFoO".toList.contains c then [("bool", isBoolText)] else []) ++
      (if "-+0123456789.".toList.contains c then [("float", isFloatText)] else []) ++
      (if "-+0123456789".toList.contains c then [("int", isIntText)] else []) ++
      (if c == '<' then [("merge", (· == ['<', '<']))] else []) ++
      (if "~nN".toList.contains c then [("null", isNullText)] else []) ++
      (if isDigit c then [("timestamp", isStampText)] else []) ++
      (if c == '=' then [("value", (· == ['=']))] else []) ++
      (if "!&*".toList.contains c then [("yaml", fun t => t == ['!'] || t == ['&'] || t == ['*'])]
        else [])
  match candidates.find? (fun (_, p) => holds p) with
  | some (name, _) => core name
  | none => core "str"

end TradeDesk.Yaml
