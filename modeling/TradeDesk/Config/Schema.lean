import TradeDesk.Value
import TradeDesk.Value.Text
import TradeDesk.Decimal.Read

/-!
# Validating configuration fields

A configuration document is checked field by field. Each field has a kind (a binary64 number, a
whole number, a truth value) and bounds, and a value that fails is reported as an `Issue`: where it
is (`loc`, the path of field names) and what is wrong (`Problem`, with a code and a wording).
All fields of a section are checked, in their declared order, and all their issues are reported.

A text holding a lone surrogate has no UTF-8 form, and no number, truth value or choice is read
from it; a byte string is read as its UTF-8 text, and one that is not UTF-8 is unreadable.
Numbers are read leniently: a binary64 field takes numbers, truth values and texts that read as
numerals (`Decimal.Numeral.field`); a whole-number field takes whole binary64 values below `2^63`
in magnitude and digit texts (`Decimal.Numeral.whole`); a truth-value field takes `0`/`1` and the
usual words. Bounds
are checked upper first (`≤`, `<`), then lower (`≥`, `>`), and the first one that fails is the
field's problem; a NaN fails every bound.
-/

namespace TradeDesk.Config

/-- What is wrong with a field's value. -/
inductive Problem where
  | greaterThan (bound : Num)
  | greaterThanEqual (bound : Num)
  | lessThan (bound : Num)
  | lessThanEqual (bound : Num)
  | floatType
  | floatParsing
  | intType
  | intParsing
  | intParsingSize
  | intFromFloat
  | finiteNumber
  | boolType
  | boolParsing
  | listType
  | enumValue (choices : List String)
  | modelType (model : String)
  | dictType
  /-- A key that is not a text where texts are required. -/
  | stringType
  /-- A text with a lone surrogate where a number, truth value or choice is read from text. -/
  | stringUnicode
  /-- A venue name that names no venue, with the venue error's wording. -/
  | unknownPlatform (text : String)
  | kellyBounds (minKelly maxKelly : Num)

/-- The code of a problem. -/
def Problem.code : Problem → String
  | .greaterThan _ => "greater_than"
  | .greaterThanEqual _ => "greater_than_equal"
  | .lessThan _ => "less_than"
  | .lessThanEqual _ => "less_than_equal"
  | .floatType => "float_type"
  | .floatParsing => "float_parsing"
  | .intType => "int_type"
  | .intParsing => "int_parsing"
  | .intParsingSize => "int_parsing_size"
  | .intFromFloat => "int_from_float"
  | .finiteNumber => "finite_number"
  | .boolType => "bool_type"
  | .boolParsing => "bool_parsing"
  | .listType => "list_type"
  | .enumValue _ => "enum"
  | .modelType _ => "model_type"
  | .dictType => "dict_type"
  | .stringType => "string_type"
  | .stringUnicode => "string_unicode"
  | .unknownPlatform _ => "unknown_platform"
  | .kellyBounds _ _ => "kelly_bounds_invalid"

/-- Choices listed as `'a', 'b' or 'c'`. -/
def choiceList (cs : List String) : String :=
  let qs := cs.map fun c => "'" ++ c ++ "'"
  match qs.reverse with
  | [] => ""
  | [q] => q
  | last :: rest => ", ".intercalate rest.reverse ++ " or " ++ last

/-- The wording of a problem. -/
def Problem.message : Problem → String
  | .greaterThan b => "Input should be greater than " ++ b.text
  | .greaterThanEqual b => "Input should be greater than or equal to " ++ b.text
  | .lessThan b => "Input should be less than " ++ b.text
  | .lessThanEqual b => "Input should be less than or equal to " ++ b.text
  | .floatType => "Input should be a valid number"
  | .floatParsing => "Input should be a valid number, unable to parse string as a number"
  | .intType => "Input should be a valid integer"
  | .intParsing => "Input should be a valid integer, unable to parse string as an integer"
  | .intParsingSize => "Unable to parse input string as an integer, exceeded maximum size"
  | .intFromFloat => "Input should be a valid integer, got a number with a fractional part"
  | .finiteNumber => "Input should be a finite number"
  | .boolType => "Input should be a valid boolean"
  | .boolParsing => "Input should be a valid boolean, unable to interpret input"
  | .listType => "Input should be a valid list"
  | .enumValue cs => "Input should be " ++ choiceList cs
  | .modelType m => "Input should be a valid dictionary or instance of " ++ m
  | .dictType => "Input should be a valid dictionary"
  | .stringType => "Input should be a valid string"
  | .stringUnicode => "Input should be a valid string, unable to parse raw data as a unicode string"
  | .unknownPlatform t => t
  | .kellyBounds lo hi => "min_kelly (" ++ lo.text ++ ") must be <= max_kelly (" ++ hi.text ++ ")"

/-- A problem at a place in the document. -/
structure Issue where
  loc : List String
  problem : Problem

/-- The issues placed under a field name. -/
def Issue.under (k : String) (i : Issue) : Issue := ⟨k :: i.loc, i.problem⟩

/-- The issue list as a document: `loc`, `type`, `msg` for each. -/
def Issue.toValue (i : Issue) : Value :=
  .obj [("loc", .list (i.loc.map .str)), ("type", .str i.problem.code), ("msg", .str i.problem.message)]

/-- A bound on a number. -/
inductive Bound where
  | gt (b : Num)
  | ge (b : Num)
  | lt (b : Num)
  | le (b : Num)

/-- The problem of a value that breaks a bound, if it does. -/
def Bound.check (x : Num) : Bound → Option Problem
  | .gt b => if b.lt x then none else some (.greaterThan b)
  | .ge b => if b.le x then none else some (.greaterThanEqual b)
  | .lt b => if x.lt b then none else some (.lessThan b)
  | .le b => if x.le b then none else some (.lessThanEqual b)

/-- Upper bounds first, then lower ones; the first failure. -/
def checkBounds (bounds : List Bound) (x : Num) : Option Problem :=
  let upper := bounds.filter fun | .lt _ | .le _ => true | _ => false
  let lower := bounds.filter fun | .gt _ | .ge _ => true | _ => false
  (upper ++ lower).findSome? (Bound.check x)

/-- The binary64 value a field reads: numbers within the binary64 range, truth values and numeral
texts. -/
def floatValue (v : Value) : Except Problem Float :=
  match v with
  | .num n => match n.toFloat? with
    | .ok x => pure x
    | .error _ => .error .floatType
  | .bool b => pure (if b then 1.0 else 0.0)
  | .str s => if Unicode.hasSurrogate s then .error .stringUnicode else
    match Decimal.Numeral.field s with
    | some r => pure r.toFloat
    | none => .error .floatParsing
  | .bytes bs => match (Text.utf8? bs).bind Decimal.Numeral.field with
    | some r => pure r.toFloat
    | none => .error .floatParsing
  | _ => .error .floatType

/-- A binary64 field: the value it reads (`floatValue`), within bounds. -/
def floatField (bounds : List Bound) (v : Value) : Except Problem Num := do
  let x ← floatValue v
  match checkBounds bounds (.float x) with
  | some p => .error p
  | none => pure (.float x)

/-- Whether a whole number fits 64-bit two's complement. -/
def fitsWord (n : Int) : Bool := -(Int.pow 2 63) ≤ n && n < Int.pow 2 63

/-- The whole number a binary64 value stands for: it must be finite, whole, and strictly between
`-2^63` and `2^63`. -/
def wholeOfFloat (x : Float) : Except Problem Int :=
  match Binary64.classify x with
  | .finite b =>
    let (num, den) := b.toFraction
    if num % den != 0 then .error .intFromFloat
    else
      let n : Int := if b.neg then -((num / den : Nat) : Int) else (num / den : Nat)
      if -(Int.pow 2 63) < n && n < Int.pow 2 63 then .ok n else .error .intParsingSize
  | _ => .error .finiteNumber

/-- A whole number read from a text (`Decimal.Numeral.whole`). -/
def wholeOfText (s : String) : Except Problem Int :=
  match Decimal.Numeral.whole s with
  | .whole n => .ok n
  | .unreadable => .error .intParsing
  | .tooLong => .error .intParsingSize

/-- The whole number a field reads: whole numbers, truth values, whole binary64 values and digit
texts (`Decimal.Numeral.whole`). -/
def wholeValue (v : Value) : Except Problem Int :=
  match v with
  | .num (.int n) => pure n
  | .bool b => pure (if b then 1 else 0)
  | .num (.float x) => wholeOfFloat x
  | .str s => if Unicode.hasSurrogate s then .error .stringUnicode else wholeOfText s
  | .bytes bs => match Text.utf8? bs with
    | some s => wholeOfText s
    | none => .error .intParsing
  | _ => .error .intType

/-- A whole-number field: the number it reads (`wholeValue`), within bounds. -/
def intField (bounds : List Bound) (v : Value) : Except Problem Int := do
  let n ← wholeValue v
  match checkBounds bounds (.int n) with
  | some p => .error p
  | none => pure n

/-- A truth value read from a whole number: `0` and `1`, and nothing else. -/
def boolOfWhole (n : Int) : Except Problem Bool :=
  if n == 0 then .ok false else if n == 1 then .ok true else .error .boolParsing

/-- A truth value read from a text: the words `true`, `false`, `yes`, `no`, `on`, `off`, `t`, `f`,
`y`, `n` in any case, and `0` and `1`. -/
def boolOfText (s : String) : Except Problem Bool :=
  let w := Text.lowerAscii s
  if ["1", "on", "t", "true", "y", "yes"].contains w then .ok true
  else if ["0", "off", "f", "false", "n", "no"].contains w then .ok false
  else .error .boolParsing

/-- A truth-value field: truth values; the words `true`, `false`, `yes`, `no`, `on`, `off`, `t`,
`f`, `y`, `n` in any case, and `0` and `1`; the whole numbers `0` and `1` of 64 bits; and the
binary64 values that stand for them. Any other whole number of 64 bits, or binary64 value that is a
whole number of 64 bits, is refused as unreadable; every other value has the wrong type. -/
def boolField (v : Value) : Except Problem Bool :=
  match v with
  | .bool b => .ok b
  | .num (.int n) => if fitsWord n then boolOfWhole n else .error .boolType
  | .num (.float x) => match wholeOfFloat x with
    | .ok n => boolOfWhole n
    | .error _ => .error .boolType
  | .str s => if Unicode.hasSurrogate s then .error .stringUnicode else boolOfText s
  | .bytes bs => match Text.utf8? bs with
    | some s => boolOfText s
    | none => .error .boolParsing
  | _ => .error .boolType

/-- Checks one field of a section: the given value if present, else the default; the field's
issues are placed under its name. -/
def field {β : Type} (doc : Value) (k : String) (default : β) (check : Value → Except Problem β) :
    Except (List Issue) β :=
  match doc.get? k with
  | none => .ok default
  | some v => (check v).mapError fun p => [⟨[k], p⟩]

end TradeDesk.Config
