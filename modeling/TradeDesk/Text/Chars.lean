import TradeDesk.Text.Unicode

/-!
# Character properties and lower case

Lookups into the Unicode tables of `TradeDesk.Text.Unicode`: whether a character prints
(`Unicode.printable`), its decimal digit value (`Unicode.decimalValue?`), whether it has a digit
value at all (`Unicode.isDigit`), and its lower case.

Lower case (`Unicode.lower`) maps each character by the full lower-case mapping, which is the simple
one except for the capital I with dot above, whose lower case is `i` followed by a combining dot.
A capital sigma is the one character whose lower case depends on its neighbours: it is the final
form `ς` when a cased character precedes it and none follows it, skipping case-ignorable
characters in both directions (`Unicode.finalSigma`), and `σ` otherwise.

A text may also hold a lone surrogate code (`0xd800` to `0xdfff`), which no character is: such a
code is kept as the private-use character `0x100000` above it (`Unicode.standIn`), written back as
its code wherever a text is escaped, and refused wherever a text must have a UTF-8 form.
-/

namespace TradeDesk.Unicode

/-- Whether `n` lies in one of the ranges `t[lo], …, t[hi - 1]`, which are closed, sorted and
disjoint. Each step keeps the half of the slice on the side of `n`. -/
def inSlice (t : Array (Nat × Nat)) (n lo hi : Nat) : Bool :=
  if lo < hi then
    let mid := (lo + hi) / 2
    let r := t.getD mid (0, 0)
    if n < r.1 then inSlice t n lo mid
    else if r.2 < n then inSlice t n (mid + 1) hi
    else true
  else false
termination_by hi - lo

/-- Whether `n` lies in one of the ranges of a table. -/
def inRanges (t : Array (Nat × Nat)) (n : Nat) : Bool := inSlice t n 0 t.size

/-- Whether a character prints as itself. -/
def printable (c : Char) : Bool := !inRanges nonPrinting c.toNat

/-- Whether a character has a digit value. -/
def isDigit (c : Char) : Bool := inRanges digitRanges c.toNat

/-- The value of a decimal digit of any script. -/
def decimalValue? (c : Char) : Option Nat :=
  (decimalZeros.find? fun z => z ≤ c.toNat && c.toNat < z + 10).map (c.toNat - ·)

/-- The run of `t[lo], …, t[hi - 1]` whose span holds `n`, if any, for runs whose spans are
sorted and disjoint. -/
def runIn (t : Array (Nat × Nat × Nat × Int)) (n lo hi : Nat) : Option (Nat × Nat × Nat × Int) :=
  if lo < hi then
    let mid := (lo + hi) / 2
    let r := t.getD mid (0, 0, 1, 0)
    if n < r.1 then runIn t n lo mid
    else if r.2.1 < n then runIn t n (mid + 1) hi
    else some r
  else none
termination_by hi - lo

/-- The simple lower case of a character. -/
def lowerSimple (c : Char) : Char :=
  match runIn lowerRuns c.toNat 0 lowerRuns.size with
  | some (lo, _, step, delta) =>
    if (c.toNat - lo) % step == 0 then Char.ofNat ((c.toNat : Int) + delta).toNat else c
  | none => c

/-- The full lower case of a character other than the capital sigma. -/
def lowerFull (c : Char) : List Char :=
  if c.toNat == 0x130 then ['i', Char.ofNat 0x307] else [lowerSimple c]

/-- Whether a character is case-ignorable. -/
def isCaseIgnorable (c : Char) : Bool := inRanges caseIgnorable c.toNat

/-- Whether a character that is not case-ignorable is cased. -/
def isCased (c : Char) : Bool := inRanges cased c.toNat

/-- Whether a capital sigma between `before` (nearest first) and `after` ends a word: past the
case-ignorable characters, a cased one precedes it and none follows it. -/
def finalSigma (before after : List Char) : Bool :=
  (match before.dropWhile isCaseIgnorable with
    | c :: _ => isCased c
    | [] => false) &&
  (match after.dropWhile isCaseIgnorable with
    | c :: _ => !isCased c
    | [] => true)

/-- The lower case of `rest`, where `before` holds the characters before it, nearest first. -/
def lowerFrom (before : List Char) : List Char → List Char
  | [] => []
  | c :: rest =>
    let here :=
      if c.toNat == 0x3a3 then [if finalSigma before rest then Char.ofNat 0x3c2 else Char.ofNat 0x3c3]
      else lowerFull c
    here ++ lowerFrom (c :: before) rest

/-- The text in lower case. -/
def lower (s : String) : String := String.ofList (lowerFrom [] s.toList)

/-- The character that stands for the lone surrogate code `n` in a text. -/
def standIn (n : Nat) : Char := Char.ofNat (0x100000 + n)

/-- The character of a code: the character itself, or the stand-in of a lone surrogate. -/
def ofCode (n : Nat) : Char := if 0xd800 ≤ n && n < 0xe000 then standIn n else Char.ofNat n

/-- The lone surrogate code a character stands for, if it is a stand-in. -/
def surrogateOf? (c : Char) : Option Nat :=
  if 0x10d800 ≤ c.toNat && c.toNat < 0x10e000 then some (c.toNat - 0x100000) else none

/-- Whether a text holds a lone surrogate, and so has no UTF-8 form. -/
def hasSurrogate (s : String) : Bool := s.any fun c => (surrogateOf? c).isSome

/-- A text with each lone surrogate replaced by the replacement character. -/
def lossy (s : String) : String := s.map fun c => if (surrogateOf? c).isSome then '\ufffd' else c

end TradeDesk.Unicode
