import TradeDesk.Text.Bytes

/-!
# Faults of computations on input values

A `Fault` says why a computation on the values a caller passed in could not go on: a number out of
range, a division by zero, a value of a type the operation does not take, or a value too large to
build. `Fault.message` gives its wording.
-/

namespace TradeDesk

/-- Why a computation on input values stops. -/
inductive Fault where
  /-- A whole number is beyond the binary64 range. -/
  | tooLarge
  /-- A division by zero; `floats` tells whether an operand was binary64. -/
  | divisionByZero (floats : Bool)
  /-- A weighted mean whose weights add up to zero. -/
  | weightsSumToZero
  /-- A finiteness test of a value that is not a number; the value's type is named. -/
  | notReal (typeName : String)
  /-- A conversion to binary64 of a value that is neither a number nor a text. -/
  | notConvertible (typeName : String)
  /-- A conversion to binary64 of a text that is not a numeral. -/
  | unreadable (text : String)
  /-- A conversion to binary64 of a byte string that is not an ASCII numeral. -/
  | unreadableBytes (data : List UInt8)
  /-- An arithmetic operator applied to values of the named types that it does not combine. -/
  | operands (op left right : String)
  /-- A sequence multiplied by a binary64 number (of the named type). -/
  | repeatByNonInt (typeName : String)
  /-- An order comparison between values of the named types. -/
  | unordered (op left right : String)
  /-- A value of the named type used as a collection of items. -/
  | notIterable (typeName : String)
  /-- A value of the named type used as a lookup key. -/
  | unhashable (typeName : String)
  /-- A value of the named type asked for a field it does not have. -/
  | noAttribute (typeName attr : String)
  /-- A value of the named type updated by key. -/
  | noItemAssignment (typeName : String)
  /-- A list updated by a text key. -/
  | listIndexNotInt
  /-- A text indexed by a text key. -/
  | textIndexNotInt
  /-- A membership test in a value of the named type, which holds no items. -/
  | notContainer (typeName : String)
  /-- The true quotient of two whole numbers is beyond the binary64 range. -/
  | quotientTooLarge
  /-- A negation of a value of the named type. -/
  | badNegation (typeName : String)
  /-- A text joined with a value of the named type. -/
  | textJoin (typeName : String)
  /-- A list joined with a value of the named type. -/
  | listJoin (typeName : String)
  /-- A count or size beyond the 64-bit range. -/
  | indexTooLarge
  /-- A repeated text longer than the largest size. -/
  | textTooLong
  /-- A value too large to hold in memory. -/
  | outOfMemory
  /-- An array built from nested lists of different shapes; the dimensions found before the shapes
  part are given. -/
  | ragged (shape : List Nat)
  /-- An array built from lists nested deeper than an array has dimensions. -/
  | tooDeep
  /-- Two arrays of the given shapes added, when the shapes do not broadcast together. -/
  | cannotBroadcast (left right : List Nat)
  /-- An array of one or more dimensions taken as a single number. -/
  | notScalar
  /-- An array of texts summed; the widths of the texts and of their sum are given. -/
  | textSum (width : Nat)
  /-- A decimal numeral of a whole number with more digits than are read, with its digit count. -/
  | digitLimit (count : Nat)
  /-- A document nested deeper than is read; the kind of the container that went too deep is
  given. -/
  | nestingTooDeep (container : String)
  /-- A text that is not a whole number in the given base. -/
  | badLiteral (base : Nat) (text : String)
  /-- A lookup of a name that a table does not hold. -/
  | noKey (name : String)
  /-- The first character of an empty text. -/
  | emptyIndex
  /-- A character code beyond the last code point. -/
  | noSuchChar
  /-- A field of a calendar date or time outside its range, with the rule it breaks. -/
  | calendar (rule : String)
  /-- A call that binds the named parameter of the named function twice: once as the receiver or
  by position, and again by keyword. -/
  | repeatedArgument (function parameter : String)
  deriving Repr, DecidableEq

/-- The dimensions of an array as a tuple: `(2,)` for one, `(2, 3)` for more. -/
def shapeText : List Nat → String
  | [] => "()"
  | [d] => "(" ++ toString d ++ ",)"
  | ds => "(" ++ ", ".intercalate (ds.map toString) ++ ")"

/-- A shape as the broadcasting error writes it, with no blank after a comma: "(2,)", "(2,0)". -/
def tightShapeText : List Nat → String
  | [] => "()"
  | [d] => "(" ++ toString d ++ ",)"
  | ds => "(" ++ ",".intercalate (ds.map toString) ++ ")"

/-- The wording of a fault. -/
def Fault.message : Fault → String
  | .tooLarge => "int too large to convert to float"
  | .divisionByZero floats => if floats then "float division by zero" else "division by zero"
  | .weightsSumToZero => "Weights sum to zero, can't be normalized"
  | .notReal t => "must be real number, not " ++ t
  | .notConvertible t => "float() argument must be a string or a real number, not '" ++ t ++ "'"
  | .unreadable s => "could not convert string to float: " ++ Text.quote s
  | .unreadableBytes bs => "could not convert string to float: " ++ Text.bytesQuote bs
  | .operands op l r => "unsupported operand type(s) for " ++ op ++ ": '" ++ l ++ "' and '" ++ r ++ "'"
  | .repeatByNonInt t => "can't multiply sequence by non-int of type '" ++ t ++ "'"
  | .unordered op l r => "'" ++ op ++ "' not supported between instances of '" ++ l ++ "' and '" ++ r ++ "'"
  | .notIterable t => "'" ++ t ++ "' object is not iterable"
  | .unhashable t => "unhashable type: '" ++ t ++ "'"
  | .noAttribute t a => "'" ++ t ++ "' object has no attribute '" ++ a ++ "'"
  | .noItemAssignment t => "'" ++ t ++ "' object does not support item assignment"
  | .listIndexNotInt => "list indices must be integers or slices, not str"
  | .textIndexNotInt => "string indices must be integers, not 'str'"
  | .notContainer t => "argument of type '" ++ t ++ "' is not iterable"
  | .quotientTooLarge => "integer division result too large for a float"
  | .badNegation t => "bad operand type for unary -: '" ++ t ++ "'"
  | .textJoin t => "can only concatenate str (not \"" ++ t ++ "\") to str"
  | .listJoin t => "can only concatenate list (not \"" ++ t ++ "\") to list"
  | .indexTooLarge => "cannot fit 'int' into an index-sized integer"
  | .textTooLong => "repeated string is too long"
  | .outOfMemory => ""
  | .ragged dims => "setting an array element with a sequence. The requested array has an " ++
      "inhomogeneous shape after " ++ toString dims.length ++ " dimensions. The detected shape was " ++
      shapeText dims ++ " + inhomogeneous part."
  | .tooDeep => "setting an array element with a sequence. The requested array would exceed the " ++
      "maximum number of dimension of 64."
  | .cannotBroadcast l r => "operands could not be broadcast together with shapes " ++
      tightShapeText l ++ " " ++ tightShapeText r ++ " "
  | .notScalar => "only 0-dimensional arrays can be converted to Python scalars"
  | .textSum w => "the resolved dtypes are not compatible with add.reduce. Resolved (dtype('<U" ++
      toString w ++ "'), dtype('<U" ++ toString w ++ "'), dtype('<U" ++ toString (2 * w) ++ "'))"
  | .digitLimit n => "Exceeds the limit (4300 digits) for integer string conversion: value has " ++
      toString n ++ " digits; use sys.set_int_max_str_digits() to increase the limit"
  | .nestingTooDeep c => "maximum recursion depth exceeded while decoding a JSON " ++ c ++
      " from a unicode string"
  | .badLiteral b s => "invalid literal for int() with base " ++ toString b ++ ": " ++
      String.ofList ((Text.quote s).toList.take 200)
  | .noKey k => Text.quote k
  | .emptyIndex => "string index out of range"
  | .noSuchChar => "chr() arg not in range(0x110000)"
  | .calendar r => r
  | .repeatedArgument fn p => fn ++ "() got multiple values for argument '" ++ p ++ "'"

/-- The class of error a fault is reported as. -/
def Fault.kind : Fault → String
  | .tooLarge | .quotientTooLarge | .indexTooLarge | .textTooLong => "OverflowError"
  | .divisionByZero _ | .weightsSumToZero => "ZeroDivisionError"
  | .unreadable _ | .unreadableBytes _ | .ragged _ | .tooDeep | .cannotBroadcast _ _ | .digitLimit _ | .badLiteral _ _ | .noSuchChar | .calendar _ =>
    "ValueError"
  | .noKey _ => "KeyError"
  | .emptyIndex => "IndexError"
  | .nestingTooDeep _ => "RecursionError"
  | .noAttribute _ _ => "AttributeError"
  | .outOfMemory => "MemoryError"
  | _ => "TypeError"

end TradeDesk
