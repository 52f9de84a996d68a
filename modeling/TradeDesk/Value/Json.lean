import TradeDesk.Value.Text

/-!
# Documents as JSON text

`Value.readJson` reads one JSON document: objects, arrays, texts with escapes (a surrogate pair is
one character, and a lone surrogate is kept as its stand-in, `Unicode.standIn`), numbers (`Decimal.Numeral.json`: whole numbers stay whole, any fraction or exponent
makes binary64), `true`, `false`, `null`, and the words `NaN`, `Infinity` and `-Infinity`. Blanks
are space, tab, line feed and carriage return; a raw control character inside a text is refused,
and so is anything after the document. A field name given twice keeps its first place and its last
value. Reading stops with a fault at arrays and objects nested deeper than `maxNesting` and at
whole numbers of more than `maxDigits` digits (`Value.parseJson`).

`Value.writeJson` writes a document back: numbers as `Num.text` writes them, infinities and NaN as
the three words above, texts with the JSON escapes (a lone surrogate by its code).
-/

namespace TradeDesk.Value

/-- Blank characters between JSON tokens. -/
def jsonBlank (c : Char) : Bool := c == ' ' || c == '\t' || c == '\n' || c == '\r'

/-- The value of four hexadecimal digits. -/
def hex4 (a b c d : Char) : Option Nat :=
  let digit (x : Char) : Option Nat :=
    if '0' ≤ x && x ≤ '9' then some (x.toNat - 48)
    else if 'a' ≤ x && x ≤ 'f' then some (x.toNat - 87)
    else if 'A' ≤ x && x ≤ 'F' then some (x.toNat - 55)
    else none
  match digit a, digit b, digit c, digit d with
  | some w, some x, some y, some z => some (((w * 16 + x) * 16 + y) * 16 + z)
  | _, _, _, _ => none

/-- The character of an escape `\uhhhh`; a lone surrogate is kept as its stand-in. -/
def unitChar (n : Nat) : Char := Unicode.ofCode n

/-- The body of a JSON text after its opening quote, up to and past the closing quote. -/
def takeText : List Char → List Char → Option (String × List Char)
  | [], _ => none
  | '"' :: rest, acc => some (String.ofList acc.reverse, rest)
  | '\\' :: 'u' :: a :: b :: c :: d :: '\\' :: 'u' :: e :: f :: g :: h :: rest, acc =>
    match hex4 a b c d, hex4 e f g h with
    | some hi, some lo =>
      if 0xd800 ≤ hi && hi < 0xdc00 && 0xdc00 ≤ lo && lo < 0xe000 then
        takeText rest (Char.ofNat (0x10000 + (hi - 0xd800) * 0x400 + (lo - 0xdc00)) :: acc)
      else takeText ('\\' :: 'u' :: e :: f :: g :: h :: rest) (unitChar hi :: acc)
    | _, _ => none
  | '\\' :: 'u' :: a :: b :: c :: d :: rest, acc =>
    match hex4 a b c d with
    | some n => takeText rest (unitChar n :: acc)
    | none => none
  | '\\' :: e :: rest, acc =>
    match e with
    | '"' => takeText rest ('"' :: acc)
    | '\\' => takeText rest ('\\' :: acc)
    | '/' => takeText rest ('/' :: acc)
    | 'b' => takeText rest ('\x08' :: acc)
    | 'f' => takeText rest ('\x0c' :: acc)
    | 'n' => takeText rest ('\n' :: acc)
    | 'r' => takeText rest ('\r' :: acc)
    | 't' => takeText rest ('\t' :: acc)
    | _ => none
  | c :: rest, acc => if c.toNat < 0x20 then none else takeText rest (c :: acc)

/-- Drops blanks at the front. -/
def skipBlank (cs : List Char) : List Char := cs.dropWhile jsonBlank

/-- Whether `w` stands at the front of `cs`, and what follows it. -/
def takeWord (w : String) (cs : List Char) : Option (List Char) :=
  if w.toList.isPrefixOf cs then some (cs.drop w.length) else none

/-- Why a text does not read as a JSON document: it is not one, or reading it meets a limit. -/
inductive JsonError where
  | malformed
  | fault (f : Fault)

/-- The deepest nesting of arrays and objects that is read. -/
def maxNesting : Nat := 990

/-- The most digits of a whole number that are read. -/
def maxDigits : Nat := 4300

/-- A container opened at nesting `depth`, or the fault of going too deep. -/
def enter (depth : Nat) (container : String) : Except JsonError Unit :=
  if depth > maxNesting then .error (.fault (.nestingTooDeep container)) else .ok ()

/-- A parsed option as a reading: `none` is malformed. -/
def orMalformed {β : Type} : Option β → Except JsonError β
  | some x => .ok x
  | none => .error .malformed

mutual

/-- One JSON value at the front (after blanks), at nesting `depth`, with `fuel` bounding the
nesting and the items. -/
def readValue : Nat → Nat → List Char → Except JsonError (Value × List Char)
  | 0, _, _ => .error .malformed
  | fuel + 1, depth, cs =>
    match skipBlank cs with
    | '{' :: rest => do
      enter (depth + 1) "object"
      match skipBlank rest with
      | '}' :: rest' => pure (.obj [], rest')
      | _ => readFields fuel (depth + 1) rest []
    | '[' :: rest => do
      enter (depth + 1) "array"
      match skipBlank rest with
      | ']' :: rest' => pure (.list [], rest')
      | _ => readItems fuel (depth + 1) rest []
    | '"' :: rest => orMalformed ((takeText rest []).map fun (s, r) => (.str s, r))
    | cs' =>
      match takeWord "true" cs' with
      | some r => pure (.bool true, r)
      | none => match takeWord "false" cs' with
      | some r => pure (.bool false, r)
      | none => match takeWord "null" cs' with
      | some r => pure (.null, r)
      | none => match takeWord "NaN" cs' with
      | some r => pure (.float (0.0 / 0.0), r)
      | none => match takeWord "Infinity" cs' with
      | some r => pure (.float (1.0 / 0.0), r)
      | none => match takeWord "-Infinity" cs' with
      | some r => pure (.float (-(1.0 / 0.0)), r)
      | none => match Decimal.Numeral.json cs' with
      | some (.inl n, r) =>
        let digits := Decimal.width n.natAbs
        if digits > maxDigits then .error (.fault (.digitLimit digits)) else pure (.int n, r)
      | some (.inr x, r) => pure (.float x, r)
      | none => .error .malformed

/-- The items of an array after `[`, up to and past `]`. -/
def readItems : Nat → Nat → List Char → List Value → Except JsonError (Value × List Char)
  | 0, _, _, _ => .error .malformed
  | fuel + 1, depth, cs, acc => do
    let (v, rest) ← readValue fuel depth cs
    match skipBlank rest with
    | ',' :: rest' => readItems fuel depth rest' (v :: acc)
    | ']' :: rest' => pure (.list (v :: acc).reverse, rest')
    | _ => .error .malformed

/-- The fields of an object after `{`, up to and past `}`. -/
def readFields : Nat → Nat → List Char → List (String × Value) → Except JsonError (Value × List Char)
  | 0, _, _, _ => .error .malformed
  | fuel + 1, depth, cs, acc =>
    match skipBlank cs with
    | '"' :: rest => do
      let (k, rest') ← orMalformed (takeText rest [])
      match skipBlank rest' with
      | ':' :: rest'' => do
        let (v, more) ← readValue fuel depth rest''
        match skipBlank more with
        | ',' :: more' => readFields fuel depth more' (setField acc k v)
        | '}' :: more' => pure (.obj (setField acc k v), more')
        | _ => .error .malformed
      | _ => .error .malformed
    | _ => .error .malformed

end

/-- Reads a whole text as one JSON document, blanks allowed around it. -/
def parseJson (s : String) : Except JsonError Value := do
  let cs := s.toList
  let (v, rest) ← readValue (2 * cs.length + 2) 0 cs
  if (skipBlank rest).isEmpty then pure v else .error .malformed

/-- Reads a whole text as one JSON document; `none` when it is not one or meets a limit. -/
def readJson (s : String) : Option Value :=
  match parseJson s with
  | .ok v => some v
  | .error _ => none

/-- A text with the JSON escapes, between double quotes. -/
def jsonText (s : String) : String :=
  let esc (c : Char) : String :=
    if c == '"' then "\\\"" else if c == '\\' then "\\\\"
    else if c == '\n' then "\\n" else if c == '\r' then "\\r" else if c == '\t' then "\\t"
    else if c.toNat < 0x20 then "\\u" ++ Text.hex 4 c.toNat
    else if let some n := Unicode.surrogateOf? c then "\\u" ++ Text.hex 4 n
    else String.singleton c
  "\"" ++ s.toList.foldl (fun acc c => acc ++ esc c) "" ++ "\""

/-- A number as JSON: digits, shortest round-trip text, or `NaN`, `Infinity`, `-Infinity`. -/
def jsonNum : Num → String
  | .int n => toString n
  | .float x => match Binary64.classify x with
    | .finite _ => Decimal.text x
    | .inf neg => if neg then "-Infinity" else "Infinity"
    | .nan => "NaN"

mutual

/-- A document as JSON text. JSON has no stamps, byte strings nor keys other than texts: a stamp is
written as its ISO text, a byte string as the text of its source form, and a mapping as an object
whose names are its keys' plain texts. -/
def writeJson : Value → String
  | .null => "null"
  | .bool b => if b then "true" else "false"
  | .num n => jsonNum n
  | .str s => jsonText s
  | .list xs => "[" ++ writeItems xs ++ "]"
  | .obj fs => "\x7b" ++ writeFields fs ++ "\x7d"
  | .stamp t => jsonText t.text
  | .map es => "\x7b" ++ writeEntries es ++ "\x7d"
  | .bytes bs => jsonText (Text.bytesQuote bs)

/-- Array items as JSON, comma-separated. -/
def writeItems : List Value → String
  | [] => ""
  | [x] => writeJson x
  | x :: xs => writeJson x ++ ", " ++ writeItems xs

/-- Object fields as JSON, comma-separated. -/
def writeFields : List (String × Value) → String
  | [] => ""
  | [(k, v)] => jsonText k ++ ": " ++ writeJson v
  | (k, v) :: fs => jsonText k ++ ": " ++ writeJson v ++ ", " ++ writeFields fs

/-- Mapping entries as JSON object fields named by their keys' plain texts, comma-separated. -/
def writeEntries : List (Value × Value) → String
  | [] => ""
  | [(k, v)] => jsonText k.plain ++ ": " ++ writeJson v
  | (k, v) :: es => jsonText k.plain ++ ": " ++ writeJson v ++ ", " ++ writeEntries es

end

end TradeDesk.Value
