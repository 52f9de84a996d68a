import TradeDesk.Text.Chars

/-!
# Quoted text in messages

Messages show a text value quoted: between single quotes, or between double quotes when the text
holds a single quote and no double quote. Inside, a backslash and the chosen quote are escaped,
tab, line feed and carriage return are written `\t`, `\n`, `\r`, and any other character that does
not print is written by its code: `\xhh` below 256, `\uhhhh` below 65536, `\Uhhhhhhhh` above.
A lone surrogate is written by its code too.

`Unicode.printable` decides what prints: everything except control characters, format characters,
separators other than the space, surrogates, private-use characters and unassigned code points.
-/

namespace TradeDesk.Text

/-- `n` in lower-case hexadecimal, zero-padded to `width` digits. -/
def hex (width n : Nat) : String :=
  let ds := Nat.toDigits 16 n
  String.ofList (List.replicate (width - ds.length) '0' ++ ds)

/-- The escaped form of one character inside quotes `q`. -/
def escapeChar (q : Char) (c : Char) : String :=
  if c == '\\' then "\\\\"
  else if c == q then "\\" ++ String.singleton q
  else if c == '\t' then "\\t"
  else if c == '\n' then "\\n"
  else if c == '\r' then "\\r"
  else if let some n := Unicode.surrogateOf? c then "\\u" ++ hex 4 n
  else if Unicode.printable c then String.singleton c
  else if c.toNat < 0x100 then "\\x" ++ hex 2 c.toNat
  else if c.toNat < 0x10000 then "\\u" ++ hex 4 c.toNat
  else "\\U" ++ hex 8 c.toNat

/-- The quoted form of a text, as messages show it. -/
def quote (s : String) : String :=
  let q := if s.contains '\'' && !s.contains '"' then '"' else '\''
  let body := s.toList.foldl (fun acc c => acc ++ escapeChar q c) ""
  String.singleton q ++ body ++ String.singleton q

end TradeDesk.Text
