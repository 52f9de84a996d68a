import TradeDesk.Text.Chars

/-!
# Blank characters, trimming and case folding

`Text.isBlank` is the set of characters that trimming removes: the ASCII tab, line feed,
vertical tab, form feed and carriage return, the four ASCII separators `\x1c`–`\x1f`, the space,
next-line `\x85`, no-break space `\xa0`, and the Unicode spaces and line/paragraph separators.
`Text.trim` removes them at both ends.

`Text.lower` is the full Unicode lower case (`Unicode.lower`); names of venues, sides and modes are
compared after `trim` and `lower`.
-/

namespace TradeDesk.Text

/-- The blank characters that trimming removes. -/
def isBlank (c : Char) : Bool :=
  let n := c.toNat
  (0x09 ≤ n && n ≤ 0x0d) || (0x1c ≤ n && n ≤ 0x20) || n == 0x85 || n == 0xa0 || n == 0x1680 ||
  (0x2000 ≤ n && n ≤ 0x200a) || n == 0x2028 || n == 0x2029 || n == 0x202f || n == 0x205f ||
  n == 0x3000

/-- The text without blank characters at either end. -/
def trim (s : String) : String :=
  String.ofList ((s.toList.dropWhile isBlank).reverse.dropWhile isBlank).reverse

/-- The text in lower case, by the full Unicode mapping (`Unicode.lower`). -/
def lower (s : String) : String := Unicode.lower s

/-- The text in lower case, ASCII letters only. -/
def lowerAscii (s : String) : String :=
  s.map fun c => if 'A' ≤ c && c ≤ 'Z' then Char.ofNat (c.toNat + 32) else c

end TradeDesk.Text
