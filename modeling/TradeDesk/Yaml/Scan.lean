import TradeDesk.Yaml.Token

/-!
# Scanning a YAML text into tokens

`Yaml.tokens` turns a text into its tokens, following the YAML 1.1 grammar as the common reader
implements it.

The text is first read with every line end (`\r\n`, `\r`, `\n`) written as `\n`, and must hold only
characters a YAML text may hold (tab, line feed, printable characters). The scanner then reads one
token at a time after skipping spaces, comments and line breaks; only spaces separate tokens (a tab
cannot start one).

Block structure is recovered from columns. The scanner keeps a stack of indentation columns: a
block collection opens when a key or entry starts right of the current column
(`blockMappingStart`, `blockSequenceStart`), and closes (`blockEnd`) when a token starts left of
it. Flow collections (`[ ]`, `{ }`) nest by level and ignore indentation.

A *simple key* is a key written without `?`: a node followed by `:` on the same line, at most
1024 characters further on. Where a node starts that could be such a key, the scanner remembers the
number of the next token (`KeySpot`), one spot for each flow level; when the `:` comes, a `key`
token, and in block context a `blockMappingStart` if the key opens a mapping, are inserted at that
number. A spot goes stale when the line ends; in block context a stale spot at the current
indentation column was required, and is an error.

Scalars come in three styles, each with its own folding of line breaks: plain (ended by `: `,
` #` or a line less indented than the block, and inside flow collections by `,[]{}`), quoted
(single quotes doubled, or backslash escapes in double quotes), and block (`|` keeps line breaks,
`>` folds them; with chomping and indentation indicators).
-/

namespace TradeDesk.Yaml

/-- A place where a simple key may start: the number of the token it would go before, whether a
key is required there, and the mark where it starts. -/
structure KeySpot where
  token : Nat
  required : Bool
  mark : Mark

/-- The state of the scanner. -/
structure Scanner where
  text : Array Char
  mark : Mark
  tokens : Array Token
  flowLevel : Nat
  indent : Int
  indents : List Int
  allowKey : Bool
  keys : List (Nat × KeySpot)
  done : Bool

/-- Scanning: a state over the scanner that may fail. -/
abbrev ScanM := StateT Scanner (Except Failure)

/-! ## Characters -/

/-- Whether a character breaks a line. -/
def isBreak (c : Char) : Bool :=
  c == '\r' || c == '\n' || c == '\x85' || c == '\u2028' || c == '\u2029'

/-- Whether a character is a line break or the end of the text. -/
def isBreakEnd (c : Char) : Bool := c == '\x00' || isBreak c

/-- Whether a character is a blank, a line break or the end of the text. -/
def isBlankEnd (c : Char) : Bool := c == ' ' || c == '\t' || isBreakEnd c

/-- Whether a character is a space, a line break or the end of the text (a tab is not). -/
def isSpaceEnd (c : Char) : Bool := c == ' ' || isBreakEnd c

/-- Whether a character may be part of an anchor, a directive name or a tag handle. -/
def isWordChar (c : Char) : Bool :=
  ('0' ≤ c && c ≤ '9') || ('A' ≤ c && c ≤ 'Z') || ('a' ≤ c && c ≤ 'z') || c == '-' || c == '_'

/-- Whether a character is a hexadecimal digit. -/
def isHexDigit (c : Char) : Bool :=
  ('0' ≤ c && c ≤ '9') || ('A' ≤ c && c ≤ 'F') || ('a' ≤ c && c ≤ 'f')

/-- Whether a character may be part of a tag's URI. -/
def isUriChar (c : Char) : Bool :=
  ('0' ≤ c && c ≤ '9') || ('A' ≤ c && c ≤ 'Z') || ('a' ≤ c && c ≤ 'z') ||
    "-;/?:@&=+$,_.!~*'()[]%".toList.contains c

/-- The value of hexadecimal digits. -/
def hexValue (cs : List Char) : Nat :=
  cs.foldl (fun acc c =>
    acc * 16 + (if c ≤ '9' then c.toNat - 48 else if c ≤ 'F' then c.toNat - 55 else c.toNat - 87)) 0

/-- The number of characters from index `i` on that satisfy `p`. -/
def runLength (text : Array Char) (p : Char → Bool) (i : Nat) : Nat :=
  if h : i < text.size then
    if p text[i] then runLength text p (i + 1) + 1 else 0
  else 0
termination_by text.size - i

/-! ## Moving through the text -/

/-- The character `k` places ahead, or the end marker `\x00` past the end. -/
def peekAt (k : Nat) : ScanM Char := do
  let s ← get
  pure (s.text.getD (s.mark.index + k) '\x00')

/-- The current character. -/
def peek : ScanM Char := peekAt 0

/-- The next `k` characters as a text. -/
def ahead (k : Nat) : ScanM String := do
  let s ← get
  pure (String.ofList (s.text.extract s.mark.index (s.mark.index + k)).toList)

/-- The mark after the character `c` at `m`, followed by `next`: a line break starts a new line,
and a byte order mark takes no column. -/
def Mark.step (m : Mark) (c next : Char) : Mark :=
  if c == '\n' || c == '\x85' || c == '\u2028' || c == '\u2029' || (c == '\r' && next != '\n') then
    ⟨m.index + 1, m.line + 1, 0⟩
  else if c == '\uFEFF' then ⟨m.index + 1, m.line, m.column⟩
  else ⟨m.index + 1, m.line, m.column + 1⟩

/-- The mark `n` characters past `m`. -/
def advance (text : Array Char) : Nat → Mark → Mark
  | 0, m => m
  | n + 1, m => advance text n (m.step (text.getD m.index '\x00') (text.getD (m.index + 1) '\x00'))

/-- Moves `n` characters on. -/
def forward (n : Nat) : ScanM Unit :=
  modify fun s => { s with mark := advance s.text n s.mark }

/-- The current mark. -/
def here : ScanM Mark := do pure (← get).mark

/-- Fails at the current mark. -/
def scanError {α : Type} (context : String) (start : Mark) (problem : String) : ScanM α := do
  throw (.malformed (.marked (some context) (some start) problem (some (← here))))

/-- Moves on while the current character satisfies `p`. -/
def skipWhile (p : Char → Bool) : ScanM Unit := do
  let s ← get
  forward (runLength s.text p s.mark.index)

/-- Takes the characters while they satisfy `p`. -/
def takeWhile (p : Char → Bool) : ScanM String := do
  let s ← get
  let n := runLength s.text p s.mark.index
  let t ← ahead n
  forward n
  pure t

/-- Reads a line break, giving `\n` for `\r\n`, `\r`, `\n` and `\x85`, and the line or paragraph
separator as itself; gives the empty text where there is no line break. -/
def scanLineBreak : ScanM String := do
  let c ← peek
  if c == '\r' || c == '\n' || c == '\x85' then
    if c == '\r' && (← peekAt 1) == '\n' then forward 2 else forward 1
    pure "\n"
  else if c == '\u2028' || c == '\u2029' then
    forward 1
    pure (String.singleton c)
  else pure ""

/-- Whether a document marker (`---` or `...` followed by a blank) starts here. -/
def atDocumentMarker : ScanM Bool := do
  let three ← ahead 3
  pure ((three == "---" || three == "...") && isBlankEnd (← peekAt 3))

/-! ## Tokens, indentation and simple keys -/

/-- Adds a token at the end. -/
def emit (kind : TokenKind) (start stop : Mark) : ScanM Unit :=
  modify fun s => { s with tokens := s.tokens.push ⟨kind, start, stop⟩ }

/-- Inserts a token before the token numbered `n`. -/
def insertAt (n : Nat) (kind : TokenKind) (m : Mark) : ScanM Unit :=
  modify fun s =>
    { s with tokens := (s.tokens.toList.take n ++ [({ kind, start := m, stop := m } : Token)] ++
      s.tokens.toList.drop n).toArray }

/-- Sets whether a simple key may start at the next token. -/
def allowKey (b : Bool) : ScanM Unit := modify fun s => { s with allowKey := b }

/-- Closes the block collections indented right of `column`, each with a `blockEnd`; nothing in
flow context. -/
def unwindIndent (column : Int) : ScanM Unit := do
  let rec pop : List Int → ScanM Unit
    | [] => pure ()
    | i :: rest => do
      let s ← get
      if s.indent > column then
        set { s with indent := i, indents := rest }
        emit .blockEnd s.mark s.mark
        pop rest
  let s ← get
  if s.flowLevel == 0 then pop s.indents

/-- Opens an indentation level at `column` if it is right of the current one; tells whether it
did. -/
def addIndent (column : Nat) : ScanM Bool := do
  let s ← get
  if s.indent < column then
    set { s with indents := s.indent :: s.indents, indent := column }
    pure true
  else pure false

/-- The error of a required simple key that did not get its `:`. -/
def missingColon {α : Type} (k : KeySpot) : ScanM α := do
  throw (.malformed (.marked (some "while scanning a simple key") (some k.mark)
    "could not find expected ':'" (some (← here))))

/-- Forgets the simple key spots that can no longer be keys: those on an earlier line or more than
1024 characters back. -/
def staleKeys : ScanM Unit := do
  let s ← get
  let mut kept : List (Nat × KeySpot) := []
  for (level, k) in s.keys do
    if k.mark.line != s.mark.line || s.mark.index - k.mark.index > 1024 then
      if k.required then missingColon k
    else kept := kept ++ [(level, k)]
  modify fun s => { s with keys := kept }

/-- Forgets the simple key spot of the current flow level. -/
def removeKey : ScanM Unit := do
  let s ← get
  match s.keys.find? (·.1 == s.flowLevel) with
  | some (_, k) =>
    if k.required then missingColon k
    set { s with keys := s.keys.filter (·.1 != s.flowLevel) }
  | none => pure ()

/-- Remembers that a simple key may start at the next token, if one may start here; in block
context it is required when it starts at the indentation column. -/
def saveKey : ScanM Unit := do
  let s ← get
  let required := s.flowLevel == 0 && s.indent == (s.mark.column : Int)
  if s.allowKey then
    removeKey
    modify fun s => { s with keys := s.keys ++ [(s.flowLevel, ⟨s.tokens.size, required, s.mark⟩)] }

/-! ## Skipping to the next token -/

/-- Skips spaces, comments and line breaks up to the next token; a line break in block context
allows a simple key again. `fuel` bounds the lines skipped. -/
def skipToToken : Nat → ScanM Unit
  | 0 => pure ()
  | fuel + 1 => do
    skipWhile (· == ' ')
    if (← peek) == '#' then skipWhile (fun c => !isBreakEnd c)
    if (← scanLineBreak) != "" then
      if (← get).flowLevel == 0 then allowKey true
      skipToToken fuel

/-! ## Directives -/

/-- The error of a malformed directive. -/
def directiveError {α : Type} (start : Mark) (problem : String) : ScanM α :=
  scanError "while scanning a directive" start problem

/-- A directive's name. -/
def directiveName (start : Mark) : ScanM String := do
  let name ← takeWhile isWordChar
  let c ← peek
  if name.isEmpty || !isSpaceEnd c then
    directiveError start ("expected alphabetic or numeric character, but found " ++ shown c)
  pure name

/-- A number of the version of a `%YAML` directive. -/
def versionNumber (start : Mark) : ScanM Nat := do
  let c ← peek
  if !('0' ≤ c && c ≤ '9') then directiveError start ("expected a digit, but found " ++ shown c)
  let digits ← takeWhile fun c => '0' ≤ c && c ≤ '9'
  pure (digits.toList.foldl (fun acc c => acc * 10 + (c.toNat - 48)) 0)

/-- The version of a `%YAML` directive. -/
def versionValue (start : Mark) : ScanM (Nat × Nat) := do
  skipWhile (· == ' ')
  let major ← versionNumber start
  if (← peek) != '.' then directiveError start ("expected a digit or '.', but found " ++ shown (← peek))
  forward 1
  let minor ← versionNumber start
  if !isSpaceEnd (← peek) then directiveError start ("expected a digit or ' ', but found " ++ shown (← peek))
  pure (major, minor)

/-- Decodes `%XX` escapes of a URI as UTF-8. -/
def uriEscapes (name : String) (start : Mark) : ScanM String := do
  let m ← here
  let rec loop : Nat → List UInt8 → ScanM (List UInt8)
    | 0, acc => pure acc
    | fuel + 1, acc => do
      if (← peek) != '%' then return acc
      forward 1
      for k in [0, 1] do
        let c ← peekAt k
        if !isHexDigit c then
          scanError ("while scanning an " ++ name) start
            ("expected URI escape sequence of 2 hexadecimal numbers, but found " ++ shown c)
      let code := hexValue (← ahead 2).toList
      forward 2
      loop fuel (acc ++ [code.toUInt8])
  let bytes ← loop ((← get).text.size + 1) []
  match String.fromUTF8? (ByteArray.mk bytes.toArray) with
  | some t => pure t
  | none =>
    throw (.malformed (.marked (some ("while scanning an " ++ name)) (some start)
      "'utf-8' codec can't decode the escaped bytes" (some m)))

/-- A tag's URI, with its `%XX` escapes decoded. -/
def tagUri (name : String) (start : Mark) : ScanM String := do
  let rec loop : Nat → String → ScanM String
    | 0, acc => pure acc
    | fuel + 1, acc => do
      let part ← takeWhile fun c => isUriChar c && c != '%'
      if (← peek) == '%' then
        let decoded ← uriEscapes name start
        loop fuel (acc ++ part ++ decoded)
      else pure (acc ++ part)
  let uri ← loop ((← get).text.size + 1) ""
  if uri.isEmpty then
    scanError ("while parsing a " ++ name) start ("expected URI, but found " ++ shown (← peek))
  pure uri

/-- A tag handle: `!`, `!!` or `!word!`. -/
def tagHandle (name : String) (start : Mark) : ScanM String := do
  let c ← peek
  if c != '!' then scanError ("while scanning a " ++ name) start ("expected '!', but found " ++ shown c)
  if (← peekAt 1) == ' ' then
    forward 1
    return "!"
  let s ← get
  let n := 1 + runLength s.text isWordChar (s.mark.index + 1)
  let c ← peekAt n
  if c != '!' then
    forward n
    scanError ("while scanning a " ++ name) start ("expected '!', but found " ++ shown c)
  let handle ← ahead (n + 1)
  forward (n + 1)
  pure handle

/-- The handle and URI of a `%TAG` directive. -/
def tagDirectiveValue (start : Mark) : ScanM (String × String) := do
  skipWhile (· == ' ')
  let handle ← tagHandle "directive" start
  if (← peek) != ' ' then directiveError start ("expected ' ', but found " ++ shown (← peek))
  skipWhile (· == ' ')
  let uri ← tagUri "directive" start
  if !isSpaceEnd (← peek) then directiveError start ("expected ' ', but found " ++ shown (← peek))
  pure (handle, uri)

/-- A directive token, with the rest of its line. -/
def scanDirective : ScanM Unit := do
  let start ← here
  forward 1
  let name ← directiveName start
  let (version, handle) ←
    if name == "YAML" then pure (some (← versionValue start), none)
    else if name == "TAG" then pure (none, some (← tagDirectiveValue start))
    else pure (none, none)
  let stop ← here
  if name != "YAML" && name != "TAG" then skipWhile (fun c => !isBreakEnd c)
  skipWhile (· == ' ')
  if (← peek) == '#' then skipWhile (fun c => !isBreakEnd c)
  if !isBreakEnd (← peek) then
    directiveError start ("expected a comment or a line break, but found " ++ shown (← peek))
  let _ ← scanLineBreak
  emit (.directive name version handle) start stop

/-! ## Anchors and tags -/

/-- An anchor (`&name`) or alias (`*name`) token. -/
def scanAnchor (isAlias : Bool) : ScanM Unit := do
  let start ← here
  let name := if isAlias then "alias" else "anchor"
  forward 1
  let word ← takeWhile isWordChar
  let c ← peek
  if word.isEmpty || !(isBlankEnd c || "?:,]\x7d%@".toList.contains c || c == '\x60') then
    scanError ("while scanning an " ++ name) start
      ("expected alphabetic or numeric character, but found " ++ shown c)
  emit (if isAlias then .alias word else .anchor word) start (← here)

/-- A tag token: `!<uri>`, a lone `!`, `!suffix` or `handle!suffix`; it must be followed by a space
or a line break. -/
def scanTag : ScanM Unit := do
  let start ← here
  let next ← peekAt 1
  let (handle, suffix) ←
    if next == '<' then do
      forward 2
      let suffix ← tagUri "tag" start
      if (← peek) != '>' then
        scanError "while parsing a tag" start ("expected '>', but found " ++ shown (← peek))
      forward 1
      pure (none, suffix)
    else if isBlankEnd next then do
      forward 1
      pure (none, "!")
    else do
      let s ← get
      let rest := (s.text.extract (s.mark.index + 1) s.text.size).toList
      let word := rest.takeWhile fun c => !isSpaceEnd c
      let handle ← if word.contains '!' then tagHandle "tag" start else do forward 1; pure "!"
      pure (some handle, ← tagUri "tag" start)
  if !isSpaceEnd (← peek) then
    scanError "while scanning a tag" start ("expected ' ', but found " ++ shown (← peek))
  emit (.tag handle suffix) start (← here)

/-! ## Block scalars -/

/-- The error of a malformed block scalar header. -/
def blockError {α : Type} (start : Mark) (problem : String) : ScanM α :=
  scanError "while scanning a block scalar" start problem

/-- The chomping (`+` keep, `-` strip) and indentation (1 to 9) indicators of a block scalar, in
either order. -/
def blockIndicators (start : Mark) : ScanM (Option Bool × Option Nat) := do
  let zero := "expected indentation indicator in the range 1-9, but found 0"
  let digit := fun (c : Char) => '0' ≤ c && c ≤ '9'
  let c ← peek
  let (chomp, inc) ←
    if c == '+' || c == '-' then do
      forward 1
      let d ← peek
      if digit d then
        if d == '0' then blockError start zero
        forward 1
        pure (some (c == '+'), some (d.toNat - 48))
      else pure (some (c == '+'), none)
    else if digit c then do
      if c == '0' then blockError start zero
      forward 1
      let e ← peek
      if e == '+' || e == '-' then
        forward 1
        pure (some (e == '+'), some (c.toNat - 48))
      else pure (none, some (c.toNat - 48))
    else pure (none, none)
  let c ← peek
  if !isSpaceEnd c then
    blockError start ("expected chomping or indentation indicators, but found " ++ shown c)
  pure (chomp, inc)

/-- The rest of a block scalar's header line: spaces and a comment, then the line break. -/
def blockHeaderEnd (start : Mark) : ScanM Unit := do
  skipWhile (· == ' ')
  if (← peek) == '#' then skipWhile (fun c => !isBreakEnd c)
  let c ← peek
  if !isBreakEnd c then
    scanError "while scanning a block scalar" start
      ("expected a comment or a line break, but found " ++ shown c)
  let _ ← scanLineBreak

/-- The leading empty lines of a block scalar whose indentation is not given: their line breaks,
the largest column reached by their spaces, and the mark after the last break. -/
def blockIndentation : Nat → String → Nat → Mark → ScanM (String × Nat × Mark)
  | 0, breaks, most, stop => pure (breaks, most, stop)
  | fuel + 1, breaks, most, stop => do
    let c ← peek
    if c == ' ' then
      forward 1
      blockIndentation fuel breaks (max most (← here).column) stop
    else if isBreak c then
      let b ← scanLineBreak
      blockIndentation fuel (breaks ++ b) most (← here)
    else pure (breaks, most, stop)

/-- Empty lines inside a block scalar indented at `indent`: their line breaks, and the mark after
the last one. -/
def blockBreaks (indent : Nat) : Nat → String → Mark → ScanM (String × Mark)
  | 0, breaks, stop => pure (breaks, stop)
  | fuel + 1, breaks, stop => do
    let s ← get
    forward (min (indent - s.mark.column) (runLength s.text (· == ' ') s.mark.index))
    if isBreak (← peek) then
      let b ← scanLineBreak
      blockBreaks indent fuel (breaks ++ b) (← here)
    else pure (breaks, stop)

/-- The lines of a block scalar at `indent`, joined: each line break kept, or in a folded scalar
turned into a space between two lines that do not start with a blank (and dropped before empty
lines). Gives the text, the last line break, the breaks after it and the end mark. -/
def blockLines (folded : Bool) (indent : Nat) :
    Nat → String → String → Mark → ScanM (String × String × String × Mark)
  | 0, chunks, breaks, stop => pure (chunks, "", breaks, stop)
  | fuel + 1, chunks, breaks, stop => do
    let leadingNonSpace := !((← peek) == ' ' || (← peek) == '\t')
    let line ← takeWhile fun c => !isBreakEnd c
    let lineBreak ← scanLineBreak
    let s ← get
    let (more, stop) ← blockBreaks indent (s.text.size + 1) "" stop
    let chunks := chunks ++ breaks ++ line
    let s ← get
    if s.mark.column == indent && (← peek) != '\x00' then
      let c ← peek
      let joined :=
        if folded && lineBreak == "\n" && leadingNonSpace && !(c == ' ' || c == '\t') then
          (if more.isEmpty then chunks ++ " " else chunks)
        else chunks ++ lineBreak
      blockLines folded indent fuel joined more stop
    else pure (chunks, lineBreak, more, stop)

/-- A block scalar token (`|` literal or `>` folded). -/
def scanBlockScalar (folded : Bool) : ScanM Unit := do
  let start ← here
  forward 1
  let (chomp, inc) ← blockIndicators start
  blockHeaderEnd start
  let s ← get
  let minIndent := max (s.indent + 1) 1 |>.toNat
  let fuel := s.text.size + 1
  let (breaks, indent, stop) ← match inc with
    | none => do
      let (breaks, most, stop) ← blockIndentation fuel "" 0 (← here)
      pure (breaks, max minIndent most, stop)
    | some i => do
      let (breaks, stop) ← blockBreaks (minIndent + i - 1) fuel "" (← here)
      pure (breaks, minIndent + i - 1, stop)
  let s ← get
  let (chunks, lineBreak, breaks, stop) ←
    if s.mark.column == indent && (← peek) != '\x00' then blockLines folded indent fuel "" breaks stop
    else pure ("", "", breaks, stop)
  let text := chunks ++ (if chomp != some false then lineBreak else "") ++
    (if chomp == some true then breaks else "")
  emit (.scalar text false) start stop

/-! ## Quoted scalars -/

/-- The character of a one-letter escape in a double-quoted scalar. -/
def simpleEscape (c : Char) : Option Char :=
  match c with
  | '0' => some '\x00'
  | 'a' => some '\x07'
  | 'b' => some '\x08'
  | 't' => some '\t'
  | '\t' => some '\t'
  | 'n' => some '\n'
  | 'v' => some '\x0b'
  | 'f' => some '\x0c'
  | 'r' => some '\r'
  | 'e' => some '\x1b'
  | ' ' => some ' '
  | '"' => some '"'
  | '/' => some '/'
  | '\\' => some '\\'
  | 'N' => some '\x85'
  | '_' => some '\xa0'
  | 'L' => some '\u2028'
  | 'P' => some '\u2029'
  | _ => none

/-- The number of hexadecimal digits of a numeric escape (`\x`, `\u`, `\U`). -/
def escapeWidth (c : Char) : Option Nat :=
  match c with
  | 'x' => some 2
  | 'u' => some 4
  | 'U' => some 8
  | _ => none

/-- Line breaks inside a quoted scalar after the first: blanks skipped, breaks kept; a document
marker may not start such a line. -/
def quotedBreaks (start : Mark) : Nat → String → ScanM String
  | 0, acc => pure acc
  | fuel + 1, acc => do
    if ← atDocumentMarker then
      scanError "while scanning a quoted scalar" start "found unexpected document separator"
    skipWhile fun c => c == ' ' || c == '\t'
    if isBreak (← peek) then
      let b ← scanLineBreak
      quotedBreaks start fuel (acc ++ b)
    else pure acc

/-- A run of a quoted scalar without blanks: ordinary characters, doubled single quotes, the other
quote, and in double quotes the escapes (an escaped line break joins lines). -/
def quotedText (double : Bool) (start : Mark) : Nat → String → ScanM String
  | 0, acc => pure acc
  | fuel + 1, acc => do
    let plain ← takeWhile fun c => !(c == '\'' || c == '"' || c == '\\' || isBlankEnd c)
    let acc := acc ++ plain
    let c ← peek
    if !double && c == '\'' && (← peekAt 1) == '\'' then
      forward 2
      quotedText double start fuel (acc.push '\'')
    else if (double && c == '\'') || (!double && (c == '"' || c == '\\')) then
      forward 1
      quotedText double start fuel (acc.push c)
    else if double && c == '\\' then
      forward 1
      let e ← peek
      match simpleEscape e, escapeWidth e with
      | some r, _ =>
        forward 1
        quotedText double start fuel (acc.push r)
      | none, some width =>
        forward 1
        for k in List.range width do
          let d ← peekAt k
          if !isHexDigit d then
            scanError "while scanning a double-quoted scalar" start
              ("expected escape sequence of " ++ toString width ++ " hexadecimal numbers, but found " ++
                shown d)
        let code := hexValue (← ahead width).toList
        if code > 0x10FFFF then throw (.fault .noSuchChar)
        forward width
        quotedText double start fuel (acc.push (Unicode.ofCode code))
      | none, none =>
        if isBreak e then
          let _ ← scanLineBreak
          let breaks ← quotedBreaks start ((← get).text.size + 1) ""
          quotedText double start fuel (acc ++ breaks)
        else
          scanError "while scanning a double-quoted scalar" start
            ("found unknown escape character " ++ shown e)
    else pure acc

/-- Blanks inside a quoted scalar: kept within a line; a line break is folded to a space, or
dropped before empty lines, whose breaks are kept. -/
def quotedSpaces (start : Mark) : ScanM String := do
  let blanks ← takeWhile fun c => c == ' ' || c == '\t'
  let c ← peek
  if c == '\x00' then scanError "while scanning a quoted scalar" start "found unexpected end of stream"
  else if isBreak c then
    let lineBreak ← scanLineBreak
    let breaks ← quotedBreaks start ((← get).text.size + 1) ""
    if lineBreak != "\n" then pure (lineBreak ++ breaks)
    else if breaks.isEmpty then pure " "
    else pure breaks
  else pure blanks

/-- The rest of a quoted scalar up to its closing quote. -/
def quotedRest (double : Bool) (quote : Char) (start : Mark) : Nat → String → ScanM String
  | 0, acc => pure acc
  | fuel + 1, acc => do
    if (← peek) == quote then return acc
    let sp ← quotedSpaces start
    let t ← quotedText double start ((← get).text.size + 1) ""
    quotedRest double quote start fuel (acc ++ sp ++ t)

/-- A quoted scalar token. -/
def scanQuoted (double : Bool) : ScanM Unit := do
  let start ← here
  let quote ← peek
  forward 1
  let fuel := (← get).text.size + 1
  let first ← quotedText double start fuel ""
  let text ← quotedRest double quote start fuel first
  forward 1
  emit (.scalar text false) start (← here)

/-! ## Plain scalars -/

/-- The length of the run of a plain scalar from index `i`: up to a blank, a `:` followed by a
blank (or in flow context by `,[]{}`), or in flow context one of `,?[]{}`. -/
def plainRun (text : Array Char) (flow : Bool) (i : Nat) : Nat :=
  if h : i < text.size then
    let c := text[i]
    let d := text.getD (i + 1) '\x00'
    let stops := isBlankEnd c ||
      (c == ':' && (isBlankEnd d || (flow && ",[]\x7b\x7d".toList.contains d))) ||
      (flow && ",?[]\x7b\x7d".toList.contains c)
    if stops then 0 else plainRun text flow (i + 1) + 1
  else 0
termination_by text.size - i

/-- The blanks after a run of a plain scalar: spaces kept within a line; line breaks folded as in
quoted scalars. `none` when a document marker starts a following line. -/
def plainSpaces : ScanM (Option String) := do
  let blanks ← takeWhile (· == ' ')
  let c ← peek
  if isBreak c then
    let lineBreak ← scanLineBreak
    allowKey true
    if ← atDocumentMarker then return none
    let rec breaks : Nat → String → ScanM (Option String)
      | 0, acc => pure (some acc)
      | fuel + 1, acc => do
        let c ← peek
        if c == ' ' then
          forward 1
          breaks fuel acc
        else if isBreak c then
          let b ← scanLineBreak
          if ← atDocumentMarker then return none
          breaks fuel (acc ++ b)
        else pure (some acc)
    match ← breaks ((← get).text.size + 1) "" with
    | none => pure none
    | some bs =>
      if lineBreak != "\n" then pure (some (lineBreak ++ bs))
      else if bs.isEmpty then pure (some " ")
      else pure (some bs)
  else pure (some blanks)

/-- The runs of a plain scalar, with the blanks between them, while the scalar goes on: a run
follows blanks that are not before a comment, and in block context not left of `indent`. -/
def plainRuns (indent : Int) : Nat → String → String → Mark → ScanM (String × Mark)
  | 0, acc, _, stop => pure (acc, stop)
  | fuel + 1, acc, spaces, stop => do
    if (← peek) == '#' then return (acc, stop)
    let s ← get
    let n := plainRun s.text (s.flowLevel != 0) s.mark.index
    if n == 0 then return (acc, stop)
    allowKey false
    let run ← ahead n
    forward n
    let acc := acc ++ spaces ++ run
    let stop ← here
    match ← plainSpaces with
    | none => pure (acc, stop)
    | some sp =>
      let s ← get
      if sp.isEmpty || (← peek) == '#' || (s.flowLevel == 0 && (s.mark.column : Int) < indent) then
        pure (acc, stop)
      else plainRuns indent fuel acc sp stop

/-- A plain scalar token. -/
def scanPlain : ScanM Unit := do
  let s ← get
  let start := s.mark
  let (text, stop) ← plainRuns (s.indent + 1) (s.text.size + 1) "" "" start
  emit (.scalar text true) start stop

/-! ## Fetching tokens -/

/-- A token of one character. -/
def single (kind : TokenKind) : ScanM Unit := do
  let start ← here
  forward 1
  emit kind start (← here)

/-- The end of the stream: every block closed. -/
def fetchStreamEnd : ScanM Unit := do
  unwindIndent (-1)
  removeKey
  allowKey false
  modify fun s => { s with keys := [] }
  let m ← here
  emit .streamEnd m m
  modify fun s => { s with done := true }

/-- A document marker (`---` or `...`): every block closed. -/
def fetchDocumentMarker (kind : TokenKind) : ScanM Unit := do
  unwindIndent (-1)
  removeKey
  allowKey false
  let start ← here
  forward 3
  emit kind start (← here)

/-- The start of a flow collection, which may itself be a simple key. -/
def fetchFlowStart (kind : TokenKind) : ScanM Unit := do
  saveKey
  modify fun s => { s with flowLevel := s.flowLevel + 1 }
  allowKey true
  single kind

/-- The end of a flow collection. -/
def fetchFlowEnd (kind : TokenKind) : ScanM Unit := do
  removeKey
  modify fun s => { s with flowLevel := s.flowLevel - 1 }
  allowKey false
  single kind

/-- A block sequence entry `-`, opening a sequence at its column when it is the first. -/
def fetchBlockEntry : ScanM Unit := do
  let s ← get
  if s.flowLevel == 0 then
    if !s.allowKey then
      throw (.malformed (.marked none none "sequence entries are not allowed here" (some s.mark)))
    if ← addIndent s.mark.column then emit .blockSequenceStart s.mark s.mark
  allowKey true
  removeKey
  single .blockEntry

/-- A complex key `?`, opening a mapping at its column in block context. -/
def fetchKey : ScanM Unit := do
  let s ← get
  if s.flowLevel == 0 then
    if !s.allowKey then
      throw (.malformed (.marked none none "mapping keys are not allowed here" (some s.mark)))
    if ← addIndent s.mark.column then emit .blockMappingStart s.mark s.mark
  allowKey (s.flowLevel == 0)
  removeKey
  single .key

/-- A value indicator `:`. When a simple key spot waits on this flow level, the key token goes in
before it, and in block context the mapping it opens. -/
def fetchValue : ScanM Unit := do
  let s ← get
  match s.keys.find? (·.1 == s.flowLevel) with
  | some (_, k) =>
    set { s with keys := s.keys.filter (·.1 != s.flowLevel) }
    insertAt k.token .key k.mark
    if s.flowLevel == 0 then
      if ← addIndent k.mark.column then insertAt k.token .blockMappingStart k.mark
    allowKey false
  | none =>
    if s.flowLevel == 0 then
      if !s.allowKey then
        throw (.malformed (.marked none none "mapping values are not allowed here" (some s.mark)))
      if ← addIndent s.mark.column then emit .blockMappingStart s.mark s.mark
    allowKey (s.flowLevel == 0)
    removeKey
  single .value

/-- Whether a plain scalar can start here. -/
def canStartPlain : ScanM Bool := do
  let s ← get
  let c ← peek
  let next ← peekAt 1
  let indicator := isBlankEnd c || "-?:,[]\x7b\x7d#&*!|>'\"%@".toList.contains c || c == '\x60'
  pure (!indicator || (!isBlankEnd next && (c == '-' || (s.flowLevel == 0 && (c == '?' || c == ':')))))

/-- Reads the next token (or the tokens a `:` or a dedent adds). -/
def fetchMoreTokens : ScanM Unit := do
  skipToToken ((← get).text.size + 1)
  staleKeys
  unwindIndent (← here).column
  let s ← get
  let c ← peek
  let next ← peekAt 1
  let flow := s.flowLevel != 0
  if c == '\x00' then fetchStreamEnd
  else if c == '%' && s.mark.column == 0 then
    unwindIndent (-1)
    removeKey
    allowKey false
    scanDirective
  else if c == '-' && s.mark.column == 0 && (← ahead 3) == "---" && isBlankEnd (← peekAt 3) then
    fetchDocumentMarker .documentStart
  else if c == '.' && s.mark.column == 0 && (← ahead 3) == "..." && isBlankEnd (← peekAt 3) then
    fetchDocumentMarker .documentEnd
  else if c == '[' then fetchFlowStart .flowSequenceStart
  else if c == '\x7b' then fetchFlowStart .flowMappingStart
  else if c == ']' then fetchFlowEnd .flowSequenceEnd
  else if c == '\x7d' then fetchFlowEnd .flowMappingEnd
  else if c == ',' then
    allowKey true
    removeKey
    single .flowEntry
  else if c == '-' && isBlankEnd next then fetchBlockEntry
  else if c == '?' && (flow || isBlankEnd next) then fetchKey
  else if c == ':' && (flow || isBlankEnd next) then fetchValue
  else if c == '*' || c == '&' then
    saveKey
    allowKey false
    scanAnchor (c == '*')
  else if c == '!' then
    saveKey
    allowKey false
    scanTag
  else if (c == '|' || c == '>') && !flow then
    allowKey true
    removeKey
    scanBlockScalar (c == '>')
  else if c == '\'' || c == '"' then
    saveKey
    allowKey false
    scanQuoted (c == '"')
  else if ← canStartPlain then
    saveKey
    allowKey false
    scanPlain
  else
    throw (.malformed (.marked (some "while scanning for the next token") none
      ("found character " ++ shown c ++ " that cannot start any token") (some s.mark)))

/-- Reads tokens until the end of the stream; `fuel` bounds the tokens read. -/
def scanAll : Nat → ScanM Unit
  | 0 => pure ()
  | fuel + 1 => do
    if (← get).done then return
    fetchMoreTokens
    scanAll fuel

/-- The text as the reader sees it: every `\r\n` and lone `\r` read as `\n`. -/
def unifyLineEnds : List Char → List Char
  | [] => []
  | '\r' :: '\n' :: rest => '\n' :: unifyLineEnds rest
  | '\r' :: rest => '\n' :: unifyLineEnds rest
  | c :: rest => c :: unifyLineEnds rest

/-- Whether a character may appear in a YAML text. -/
def isPrintable (c : Char) : Bool :=
  let n := c.toNat
  n == 0x09 || n == 0x0A || n == 0x0D || (0x20 ≤ n && n ≤ 0x7E) || n == 0x85 ||
    (0xA0 ≤ n && n ≤ 0xD7FF) || (0xE000 ≤ n && n ≤ 0xFFFD) || (0x10000 ≤ n && n ≤ 0x10FFFF)

/-- The tokens of a text (see the module note). -/
def tokens (text : String) : Except Failure (Array Token) :=
  let cs := unifyLineEnds text.toList
  match (cs.zip (List.range cs.length)).find? (fun (c, _) => !isPrintable c) with
  | some (c, i) => .error (.malformed (.character c.toNat i))
  | none =>
    let start : Mark := ⟨0, 0, 0⟩
    let scanner : Scanner :=
      ⟨cs.toArray, start, #[⟨.streamStart, start, start⟩], 0, -1, [], true, [], false⟩
    let run : ScanM Unit := do
      if (← peek) == '\uFEFF' then forward 1
      scanAll (cs.length + 2)
    match run.run scanner with
    | .ok (_, s) => .ok s.tokens
    | .error e => .error e

end TradeDesk.Yaml
