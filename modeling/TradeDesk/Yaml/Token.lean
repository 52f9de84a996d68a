import TradeDesk.Fault
import TradeDesk.Text.Quote

/-!
# Tokens of a YAML stream, and why reading one fails

Reading a YAML document goes in three passes: the scanner turns the text into `Token`s, the
composer builds the tree of `Yaml.Node`s from them, and the constructor turns the tree into a
`Value`. Every token and node carries the `Mark` where it starts.

A pass that finds the text malformed reports an `Error`: a character that may not appear in a YAML
text, or a problem at a mark, found while reading a construct that started at another mark (its
context). `Error.message` words it for a file of the given name. The constructor may also fail as
a computation does, with a `Fault`; `Failure` is either.
-/

namespace TradeDesk.Yaml

/-- A place in the text: the index of the character, its line and its column, all from zero. -/
structure Mark where
  index : Nat
  line : Nat
  column : Nat
  deriving Repr, BEq, Inhabited

/-- The mark as messages show it, lines and columns from one. -/
def Mark.describe (name : String) (m : Mark) : String :=
  "  in \"" ++ name ++ "\", line " ++ toString (m.line + 1) ++ ", column " ++ toString (m.column + 1)

/-- What a token is. -/
inductive TokenKind where
  | streamStart
  | streamEnd
  /-- A `%YAML major.minor` directive, a `%TAG handle uri` directive, or another one. -/
  | directive (name : String) (version : Option (Nat × Nat)) (handle : Option (String × String))
  | documentStart
  | documentEnd
  | blockSequenceStart
  | blockMappingStart
  | blockEnd
  | flowSequenceStart
  | flowMappingStart
  | flowSequenceEnd
  | flowMappingEnd
  | key
  | value
  | blockEntry
  | flowEntry
  | alias (name : String)
  | anchor (name : String)
  /-- A tag: its handle, if written with one, and its suffix. -/
  | tag (handle : Option String) (suffix : String)
  /-- A scalar's text, and whether it was written plain (unquoted, not a block scalar). -/
  | scalar (text : String) (plain : Bool)
  deriving Repr, BEq, Inhabited

/-- A token with the marks where it starts and where it ends. -/
structure Token where
  kind : TokenKind
  start : Mark
  stop : Mark
  deriving Repr, Inhabited

/-- The name of a token's kind in messages. -/
def TokenKind.name : TokenKind → String
  | .streamStart => "<stream start>"
  | .streamEnd => "<stream end>"
  | .directive _ _ _ => "<directive>"
  | .documentStart => "<document start>"
  | .documentEnd => "<document end>"
  | .blockSequenceStart => "<block sequence start>"
  | .blockMappingStart => "<block mapping start>"
  | .blockEnd => "<block end>"
  | .flowSequenceStart => "["
  | .flowMappingStart => "\x7b"
  | .flowSequenceEnd => "]"
  | .flowMappingEnd => "\x7d"
  | .key => "?"
  | .value => ":"
  | .blockEntry => "-"
  | .flowEntry => ","
  | .alias _ => "<alias>"
  | .anchor _ => "<anchor>"
  | .tag _ _ => "<tag>"
  | .scalar _ _ => "<scalar>"

/-- Why a text is not a YAML document that can be read. -/
inductive Error where
  /-- A character that may not appear in a YAML text, with its position. -/
  | character (code : Nat) (position : Nat)
  /-- A problem at a mark, found while reading a construct that started at the context mark. -/
  | marked (context : Option String) (contextMark : Option Mark) (problem : String)
      (problemMark : Option Mark)
  deriving Repr

/-- The character code in four or more hexadecimal digits. -/
def hexCode (n : Nat) : String :=
  let digits := String.ofList (Nat.toDigits 16 n)
  String.ofList (List.replicate (4 - digits.length) '0') ++ digits

/-- The wording of an error in a file named `name`: the context and its mark (left out when it is
the problem's mark), the problem and its mark, one to a line. -/
def Error.message (name : String) : Error → String
  | .character code position =>
    "unacceptable character #x" ++ hexCode code ++ ": special characters are not allowed\n" ++
      "  in \"" ++ name ++ "\", position " ++ toString position
  | .marked context contextMark problem problemMark =>
    let showContext := match contextMark, problemMark with
      | some c, some p => !(c == p)
      | some _, none => true
      | none, _ => false
    let lines := context.toList ++
      (if showContext then (contextMark.map (Mark.describe name)).toList else []) ++
      [problem] ++ (problemMark.map (Mark.describe name)).toList
    "\n".intercalate lines

/-- Why reading a YAML document failed: the text is malformed, or building a value failed. -/
inductive Failure where
  | malformed (e : Error)
  | fault (f : Fault)
  deriving Repr

/-- A quoted character, as messages show the character found. -/
def shown (c : Char) : String := Text.quote (String.singleton c)

end TradeDesk.Yaml
