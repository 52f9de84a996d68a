import TradeDesk.Num
import TradeDesk.Decimal.Read
import TradeDesk.Calendar

/-!
# Documents

A `Value` is a document as callers hand it over and as configuration files hold it: null, a truth
value, a number (`Num`), a text, a list, or an object whose fields keep their insertion order.
Configuration files may also hold calendar stamps (`Stamp`) and mappings whose keys are not all
texts (`Value.map`); a mapping whose keys are all texts is an object; and byte strings
(`Value.bytes`).
Every operation of the library that accepts loosely typed input takes a `Value`, and every answer
is a `Value`.

This module gives the structure of documents (field lookup and update, truthiness, type names) and
the two numeric readings of a value that the rules use: `Value.toFloat?`, the conversion of a number
or numeral text to binary64, and `Value.finite?`, the finiteness test, which accepts numbers only.
-/

namespace TradeDesk

/-- A document. -/
inductive Value where
  | null
  | bool (b : Bool)
  | num (n : Num)
  | str (s : String)
  | list (xs : List Value)
  | obj (fields : List (String × Value))
  | stamp (t : Stamp)
  | map (entries : List (Value × Value))
  | bytes (data : List UInt8)

namespace Value

/-- A whole number. -/
def int (n : Int) : Value := .num (.int n)

/-- A binary64 number. -/
def float (x : Float) : Value := .num (.float x)

/-- Whether a key is the text `k`. -/
def isText (k : String) : Value → Bool
  | .str s => s == k
  | _ => false

/-- The value of the first field named `k`, if the value is an object or mapping that has one. -/
def get? (v : Value) (k : String) : Option Value :=
  match v with
  | .obj fs => (fs.find? (·.1 == k)).map (·.2)
  | .map es => (es.find? (isText k ·.1)).map (·.2)
  | _ => none

/-- Whether the value is an object or a mapping. -/
def isDict : Value → Bool
  | .obj _ | .map _ => true
  | _ => false

/-- Whether the value is an object with a field named `k`. -/
def has (v : Value) (k : String) : Bool := (v.get? k).isSome

/-- Sets field `k` of a field list: in place if present, else at the end. -/
def setField (fs : List (String × Value)) (k : String) (x : Value) : List (String × Value) :=
  if fs.any (·.1 == k) then fs.map (fun f => if f.1 == k then (k, x) else f) else fs ++ [(k, x)]

/-- The name of the value's type, as messages about wrong types show it. -/
def typeName : Value → String
  | .null => "NoneType"
  | .bool _ => "bool"
  | .num (.int _) => "int"
  | .num (.float _) => "float"
  | .str _ => "str"
  | .list _ => "list"
  | .obj _ | .map _ => "dict"
  | .stamp t => t.typeName
  | .bytes _ => "bytes"

/-- Truthiness: null, false, zero, the empty text, list and object are false; everything else,
NaN included, is true. -/
def truthy : Value → Bool
  | .null => false
  | .bool b => b
  | .num (.int n) => n != 0
  | .num (.float x) => !(x == 0.0)
  | .str s => !s.isEmpty
  | .list xs => !xs.isEmpty
  | .obj fs => !fs.isEmpty
  | .stamp _ => true
  | .map es => !es.isEmpty
  | .bytes bs => !bs.isEmpty

/-- The number a value stands for in arithmetic: numbers themselves, and truth values as the
whole numbers 1 and 0. -/
def asNum? : Value → Option Num
  | .num n => some n
  | .bool b => some (.int (if b then 1 else 0))
  | _ => none

/-- The finiteness test: defined for numbers and truth values; a whole number must fit binary64. -/
def finite? (v : Value) : Except Fault Bool :=
  match v.asNum? with
  | some n => do
    let _ ← n.toFloat?
    pure n.isFinite
  | none => .error (.notReal v.typeName)

/-- The conversion to binary64: numbers and truth values, texts that read as a numeral
(`Decimal.Numeral.loose`), and byte strings of ASCII characters that read as one. A byte string is
read byte by byte, so a byte outside ASCII, even one that would be a blank or a digit in a text,
fails the reading. -/
def toFloat? (v : Value) : Except Fault Float :=
  match v with
  | .str s => match Decimal.Numeral.loose s with
    | some r => .ok r.toFloat
    | none => .error (.unreadable s)
  | .bytes bs =>
    match (if bs.all (·.toNat < 128) then
        Decimal.Numeral.loose (String.ofList (bs.map fun b => Char.ofNat b.toNat)) else none) with
    | some r => .ok r.toFloat
    | none => .error (.unreadableBytes bs)
  | _ => match v.asNum? with
    | some n => n.toFloat?
    | none => .error (.notConvertible v.typeName)

/-- The items of a value taken as a collection: a list's items, a text's characters, an object's
field names, a byte string's bytes as whole numbers. -/
def items? (v : Value) : Except Fault (List Value) :=
  match v with
  | .list xs => .ok xs
  | .str s => .ok (s.toList.map fun c => .str (String.singleton c))
  | .obj fs => .ok (fs.map fun f => .str f.1)
  | .map es => .ok (es.map (·.1))
  | .bytes bs => .ok (bs.map fun b => .int b.toNat)
  | _ => .error (.notIterable v.typeName)

/-- Whether a value can be a lookup key: null, truth values, numbers, texts, stamps and byte
strings. -/
def isKey : Value → Bool
  | .list _ | .obj _ | .map _ => false
  | _ => true

/-- Whether two keys are the same key: texts by characters, byte strings by bytes, stamps as
`Stamp.same` says, numbers and truth values by value. -/
def sameKey (a b : Value) : Bool :=
  match a, b with
  | .null, .null => true
  | .str s, .str t => s == t
  | .bytes a, .bytes b => a == b
  | .stamp s, .stamp t => s.same t
  | _, _ => match a.asNum?, b.asNum? with
    | some x, some y => x.same y
    | _, _ => false

/-- Sets key `k` of a mapping's entries, keys compared by `same`: the value replaced in place when
an equal key is there (the first key kept), else the pair added at the end. -/
def setEntryBy (same : Value → Value → Bool) (es : List (Value × Value)) (k v : Value) :
    List (Value × Value) :=
  if es.any (same k ·.1) then es.map fun (k', v') => if same k k' then (k', v) else (k', v')
  else es ++ [(k, v)]

/-- Sets key `k` of a mapping's entries, keys compared by `sameKey`. -/
def setEntry (es : List (Value × Value)) (k v : Value) : List (Value × Value) := setEntryBy sameKey es k v

/-- A mapping's entries as a value: an object when every key is a text, else a mapping. -/
def ofEntries (es : List (Value × Value)) : Value :=
  match es.mapM fun (k, v) => match k with
    | .str s => some (s, v)
    | _ => none with
  | some fs => .obj fs
  | none => .map es

end Value

end TradeDesk
