import TradeDesk.Value
import TradeDesk.Text.Bytes

/-!
# Documents in messages

Messages show a document the way it is written in source text: `None`, `True`, `False`, digits,
shortest round-trip numbers, quoted texts (`Text.quote`), `[a, b]`, `{'k': v}`, the constructor
form of stamps (`Stamp.repr`) and `b'…'` for byte strings (`Text.bytesQuote`).
`Value.repr` is that form; `Value.plain` is the same except that a text stands for itself.
-/

namespace TradeDesk.Value

mutual

/-- The source-text form of a document. -/
def repr : Value → String
  | .null => "None"
  | .bool b => if b then "True" else "False"
  | .num n => n.text
  | .str s => Text.quote s
  | .list xs => "[" ++ reprItems xs ++ "]"
  | .obj fs => "\x7b" ++ reprFields fs ++ "\x7d"
  | .stamp t => t.repr
  | .map es => "\x7b" ++ reprEntries es ++ "\x7d"
  | .bytes bs => Text.bytesQuote bs

/-- List items, comma-separated. -/
def reprItems : List Value → String
  | [] => ""
  | [x] => repr x
  | x :: xs => repr x ++ ", " ++ reprItems xs

/-- Object fields as `'k': v`, comma-separated. -/
def reprFields : List (String × Value) → String
  | [] => ""
  | [(k, v)] => Text.quote k ++ ": " ++ repr v
  | (k, v) :: fs => Text.quote k ++ ": " ++ repr v ++ ", " ++ reprFields fs

/-- Mapping entries as `k: v`, comma-separated. -/
def reprEntries : List (Value × Value) → String
  | [] => ""
  | [(k, v)] => repr k ++ ": " ++ repr v
  | (k, v) :: es => repr k ++ ": " ++ repr v ++ ", " ++ reprEntries es

end

/-- The plain text of a document: a text itself, anything else in source-text form. -/
def plain : Value → String
  | .str s => s
  | .stamp t => t.text
  | v => v.repr

end TradeDesk.Value
