import TradeDesk.Yaml.Scan
import TradeDesk.Yaml.Resolve

/-!
# Composing the node tree of a YAML document

`Yaml.compose` reads the tokens of a stream as one document and builds its tree of `Node`s. It
follows the YAML 1.1 grammar: an implicit or explicit (`---`) document, block collections made of
keys, values and entries, indentless sequences as mapping values, flow collections with single-pair
mappings inside flow sequences, and empty nodes where a key, value or entry has no content.

A node may carry an anchor (`&a`) and a tag (`!!int`, `!local`, `!<verbatim>`), in either order. A
tag handle is expanded by the document's `%TAG` directives, `!!` standing for the core schema. An
alias (`*a`) stands for the node its anchor was given to, and is that same node: the nodes of a
document are kept in an array (a `Graph`) and refer to each other by their place in it. An anchor
takes effect as soon as its node starts, so a collection may hold itself; an anchor may not be given
twice. A node with no tag, or the non-specific tag `!`, gets its tag here: a plain scalar
(or any scalar tagged `!`) by `Yaml.resolve`, any other scalar `str`, collections `seq` and `map`.

An empty stream has no document (`none`); a second document in the stream is an error.
-/

namespace TradeDesk.Yaml

/-- A node of a document: a scalar's text, a sequence's items or a mapping's pairs in order (each
node given by its place in the document's `Graph`), with its tag and the mark where it starts. -/
inductive Node where
  | scalar (tag : String) (text : String) (start : Mark)
  | seq (tag : String) (items : List Nat) (start : Mark)
  | map (tag : String) (pairs : List (Nat × Nat)) (start : Mark)
  deriving Inhabited

namespace Node

/-- The tag of a node. -/
def tag : Node → String
  | .scalar t _ _ | .seq t _ _ | .map t _ _ => t

/-- The mark where a node starts. -/
def start : Node → Mark
  | .scalar _ _ m | .seq _ _ m | .map _ _ m => m

/-- The kind of a node as messages name it. -/
def kindName : Node → String
  | .scalar _ _ _ => "scalar"
  | .seq _ _ _ => "sequence"
  | .map _ _ _ => "mapping"

/-- The node with its tag replaced. -/
def withTag (t : String) : Node → Node
  | .scalar _ x m => .scalar t x m
  | .seq _ x m => .seq t x m
  | .map _ x m => .map t x m

end Node

/-- The nodes of a document, by place, and the place of its root. -/
structure Graph where
  nodes : Array Node
  root : Nat

/-- The state of the composer: the tokens and the position in them, the nodes so far, the anchors
given so far with the places of their nodes, and the tag handles of the document. -/
structure Composer where
  tokens : Array Token
  pos : Nat
  nodes : Array Node
  anchors : List (String × Nat)
  handles : List (String × String)

/-- Composing: a state over the composer that may fail. -/
abbrev ComposeM := StateT Composer (Except Failure)

/-- The tag handles every document has. -/
def standardHandles : List (String × String) := [("!", "!"), ("!!", "tag:yaml.org,2002:")]

/-- The current token; past the end, the last one (the stream end). -/
def peekToken : ComposeM Token := do
  let c ← get
  pure (c.tokens.getD c.pos (c.tokens.back?.getD default))

/-- Takes the current token. -/
def nextToken : ComposeM Token := do
  let t ← peekToken
  modify fun c => { c with pos := c.pos + 1 }
  pure t

/-- Whether the current token is of a kind that `p` accepts. -/
def checkToken (p : TokenKind → Bool) : ComposeM Bool := do pure (p (← peekToken).kind)

/-- Fails with a problem at a mark, found while reading a construct that started at another. -/
def composeError {α : Type} (context : Option String) (contextMark : Option Mark) (problem : String)
    (at_ : Mark) : ComposeM α :=
  throw (.malformed (.marked context contextMark problem (some at_)))

/-- Whether a token kind is one of the block-structure tokens that end a node's content. -/
def isKeyValueEnd : TokenKind → Bool
  | .key | .value | .blockEnd => true
  | _ => false

/-- Adds a node; its place. -/
def addNode (n : Node) : ComposeM Nat := do
  let c ← get
  set { c with nodes := c.nodes.push n }
  pure c.nodes.size

/-- Replaces the node at a place, once its content is read. -/
def fillNode (i : Nat) (n : Node) : ComposeM Unit :=
  modify fun c => { c with nodes := c.nodes.setIfInBounds i n }

/-- The node at a place. -/
def nodeAt (i : Nat) : ComposeM Node := do pure ((← get).nodes.getD i default)

/-- An empty scalar at a mark: null. -/
def emptyNode (m : Mark) : ComposeM Nat := addNode (.scalar (core "null") "" m)

/-- The anchor and tag before a node's content, in either order: the anchor, the tag as written
(handle and suffix) with the mark of the tag, and the mark where the first of them starts. -/
def properties : ComposeM (Option String × Option (Option String × String × Mark) × Option Mark) := do
  let t ← peekToken
  match t.kind with
  | .anchor a =>
    let _ ← nextToken
    let u ← peekToken
    match u.kind with
    | .tag h s =>
      let _ ← nextToken
      pure (some a, some (h, s, u.start), some t.start)
    | _ => pure (some a, none, some t.start)
  | .tag h s =>
    let _ ← nextToken
    let u ← peekToken
    match u.kind with
    | .anchor a =>
      let _ ← nextToken
      pure (some a, some (h, s, t.start), some t.start)
    | _ => pure (none, some (h, s, t.start), some t.start)
  | _ => pure (none, none, none)

/-- A tag as written, with its handle expanded. -/
def expandTag (start : Mark) : Option (Option String × String × Mark) → ComposeM (Option String)
  | none => pure none
  | some (none, suffix, _) => pure (some suffix)
  | some (some handle, suffix, m) => do
    match (← get).handles.find? (·.1 == handle) with
    | some (_, uri) => pure (some (uri ++ suffix))
    | none =>
      composeError (some "while parsing a node") (some start)
        ("found undefined tag handle " ++ Text.quote handle) m

/-- Checks, as a node with an anchor starts, that the anchor was not given before. -/
def checkAnchor (anchor : Option String) (start : Mark) : ComposeM Unit := do
  match anchor with
  | none => pure ()
  | some a =>
    match (← get).anchors.find? (·.1 == a) with
    | some (_, i) =>
      composeError (some ("found duplicate anchor " ++ Text.quote a ++ "; first occurrence"))
        (some (← nodeAt i).start) "second occurrence" start
    | none => pure ()

/-- Adds a node and gives it its anchor, if it has one; its place. -/
def addAnchored (anchor : Option String) (n : Node) : ComposeM Nat := do
  let i ← addNode n
  if let some a := anchor then modify fun c => { c with anchors := (a, i) :: c.anchors }
  pure i

/-- Whether a tag leaves the node's type to be resolved. -/
def nonSpecific (tag : Option String) : Bool := tag.isNone || tag == some "!"

mutual

/-- A node: an alias, or properties and content; its place. `block` allows block collections, and
`indentless` a sequence whose entries are not indented (as a mapping's value). `fuel` bounds the
depth and length of what is read. -/
def node (fuel : Nat) (block indentless : Bool) : ComposeM Nat :=
  match fuel with
  | 0 => do composeError none none "document nested too deeply" (← peekToken).start
  | fuel + 1 => do
    let t ← peekToken
    if let .alias a := t.kind then
      let _ ← nextToken
      match (← get).anchors.find? (·.1 == a) with
      | some (_, i) => return i
      | none => composeError none none ("found undefined alias " ++ Text.quote a) t.start
    let (anchor, written, propStart) ← properties
    let start := propStart.getD (← peekToken).start
    let tag ← expandTag start written
    checkAnchor anchor start
    let t ← peekToken
    match t.kind with
    | .blockEntry =>
      if indentless then do
        let i ← addAnchored anchor (.seq (if nonSpecific tag then core "seq" else tag.getD "") [] start)
        let items ← indentlessItems fuel []
        fillNode i (.seq (if nonSpecific tag then core "seq" else tag.getD "") items start)
        pure i
      else content fuel block anchor tag start t
    | _ => content fuel block anchor tag start t

/-- A node's content after its properties: a scalar, a collection, or an empty scalar when there
are properties and no content. A collection takes its place (and its anchor) before its content is
read. -/
def content (fuel : Nat) (block : Bool) (anchor tag : Option String) (start : Mark) (t : Token) :
    ComposeM Nat := do
  let collectionTag := fun (default : String) => if nonSpecific tag then core default else tag.getD ""
  match t.kind with
  | .scalar text plain =>
    let _ ← nextToken
    let resolved := match tag with
      | none => if plain then resolve text else core "str"
      | some "!" => resolve text
      | some other => other
    addAnchored anchor (.scalar resolved text start)
  | .flowSequenceStart =>
    let _ ← nextToken
    let i ← addAnchored anchor (.seq (collectionTag "seq") [] start)
    fillNode i (.seq (collectionTag "seq") (← flowItems fuel t.start true []) start)
    pure i
  | .flowMappingStart =>
    let _ ← nextToken
    let i ← addAnchored anchor (.map (collectionTag "map") [] start)
    fillNode i (.map (collectionTag "map") (← flowPairs fuel t.start true []) start)
    pure i
  | .blockSequenceStart =>
    if block then do
      let _ ← nextToken
      let i ← addAnchored anchor (.seq (collectionTag "seq") [] start)
      fillNode i (.seq (collectionTag "seq") (← blockItems fuel t.start []) start)
      pure i
    else missing fuel block anchor tag start t
  | .blockMappingStart =>
    if block then do
      let _ ← nextToken
      let i ← addAnchored anchor (.map (collectionTag "map") [] start)
      fillNode i (.map (collectionTag "map") (← blockPairs fuel t.start []) start)
      pure i
    else missing fuel block anchor tag start t
  | _ => missing fuel block anchor tag start t

/-- No content after a node's properties: an empty scalar if there were any, else an error. -/
def missing (_fuel : Nat) (block : Bool) (anchor tag : Option String) (start : Mark) (t : Token) :
    ComposeM Nat :=
  if anchor.isSome || tag.isSome then
    addAnchored anchor (.scalar (if nonSpecific tag then core "null" else tag.getD "") "" start)
  else
    composeError (some ("while parsing a " ++ (if block then "block" else "flow") ++ " node"))
      (some start) ("expected the node content, but found " ++ Text.quote t.kind.name) t.start

/-- The entries of an indentless sequence. -/
def indentlessItems (fuel : Nat) (acc : List Nat) : ComposeM (List Nat) :=
  match fuel with
  | 0 => pure acc
  | fuel + 1 => do
    let t ← peekToken
    if t.kind != .blockEntry then return acc
    let _ ← nextToken
    let item ← if ← checkToken fun k => k == .blockEntry || isKeyValueEnd k then emptyNode t.stop
      else node fuel true false
    indentlessItems fuel (acc ++ [item])

/-- The entries of a block sequence, up to its end. -/
def blockItems (fuel : Nat) (opening : Mark) (acc : List Nat) : ComposeM (List Nat) :=
  match fuel with
  | 0 => pure acc
  | fuel + 1 => do
    let t ← peekToken
    match t.kind with
    | .blockEntry =>
      let _ ← nextToken
      let item ← if ← checkToken fun k => k == .blockEntry || k == .blockEnd then emptyNode t.stop
        else node fuel true false
      blockItems fuel opening (acc ++ [item])
    | .blockEnd =>
      let _ ← nextToken
      pure acc
    | k =>
      composeError (some "while parsing a block collection") (some opening)
        ("expected <block end>, but found " ++ Text.quote k.name) t.start

/-- The pairs of a block mapping, up to its end. -/
def blockPairs (fuel : Nat) (opening : Mark) (acc : List (Nat × Nat)) :
    ComposeM (List (Nat × Nat)) :=
  match fuel with
  | 0 => pure acc
  | fuel + 1 => do
    let t ← peekToken
    match t.kind with
    | .key =>
      let _ ← nextToken
      let key ← if ← checkToken isKeyValueEnd then emptyNode t.stop else node fuel true true
      let v ← peekToken
      let value ← if v.kind == .value then do
          let _ ← nextToken
          if ← checkToken isKeyValueEnd then emptyNode v.stop else node fuel true true
        else emptyNode v.start
      blockPairs fuel opening (acc ++ [(key, value)])
    | .blockEnd =>
      let _ ← nextToken
      pure acc
    | k =>
      composeError (some "while parsing a block mapping") (some opening)
        ("expected <block end>, but found " ++ Text.quote k.name) t.start

/-- The items of a flow sequence, up to and past its closing bracket; a `key` token starts a
single-pair mapping. -/
def flowItems (fuel : Nat) (opening : Mark) (first : Bool) (acc : List Nat) : ComposeM (List Nat) :=
  match fuel with
  | 0 => pure acc
  | fuel + 1 => do
    if ← checkToken (· == .flowSequenceEnd) then
      let _ ← nextToken
      return acc
    if !first then
      let t ← peekToken
      if t.kind == .flowEntry then let _ ← nextToken
      else
        composeError (some "while parsing a flow sequence") (some opening)
          ("expected ',' or ']', but got " ++ Text.quote t.kind.name) t.start
    let t ← peekToken
    match t.kind with
    | .key =>
      let _ ← nextToken
      let pairAt ← addNode (.map (core "map") [] t.start)
      let key ← if ← checkToken fun k => k == .value || k == .flowEntry || k == .flowSequenceEnd then
          emptyNode t.stop
        else node fuel false false
      let v ← peekToken
      let value ← if v.kind == .value then do
          let _ ← nextToken
          if ← checkToken fun k => k == .flowEntry || k == .flowSequenceEnd then emptyNode v.stop
          else node fuel false false
        else emptyNode v.start
      fillNode pairAt (.map (core "map") [(key, value)] t.start)
      flowItems fuel opening false (acc ++ [pairAt])
    | .flowSequenceEnd =>
      let _ ← nextToken
      pure acc
    | _ =>
      let item ← node fuel false false
      flowItems fuel opening false (acc ++ [item])

/-- The pairs of a flow mapping, up to and past its closing brace; an entry without `:` has a null
value. -/
def flowPairs (fuel : Nat) (opening : Mark) (first : Bool) (acc : List (Nat × Nat)) :
    ComposeM (List (Nat × Nat)) :=
  match fuel with
  | 0 => pure acc
  | fuel + 1 => do
    if ← checkToken (· == .flowMappingEnd) then
      let _ ← nextToken
      return acc
    if !first then
      let t ← peekToken
      if t.kind == .flowEntry then let _ ← nextToken
      else
        composeError (some "while parsing a flow mapping") (some opening)
          ("expected ',' or '\x7d', but got " ++ Text.quote t.kind.name) t.start
    let t ← peekToken
    match t.kind with
    | .key =>
      let _ ← nextToken
      let key ← if ← checkToken fun k => k == .value || k == .flowEntry || k == .flowMappingEnd then
          emptyNode t.stop
        else node fuel false false
      let v ← peekToken
      let value ← if v.kind == .value then do
          let _ ← nextToken
          if ← checkToken fun k => k == .flowEntry || k == .flowMappingEnd then emptyNode v.stop
          else node fuel false false
        else emptyNode v.start
      flowPairs fuel opening false (acc ++ [(key, value)])
    | .flowMappingEnd =>
      let _ ← nextToken
      pure acc
    | _ =>
      let key ← node fuel false false
      let value ← emptyNode (← peekToken).start
      flowPairs fuel opening false (acc ++ [(key, value)])

end

/-- The directives before an explicit document: the tag handles they declare, with the standard
ones added. -/
def directives (fuel : Nat) (version : Option (Nat × Nat)) (handles : List (String × String)) :
    ComposeM Unit :=
  match fuel with
  | 0 => pure ()
  | fuel + 1 => do
    let t ← peekToken
    match t.kind with
    | .directive name v h =>
      let _ ← nextToken
      if name == "YAML" then
        if version.isSome then composeError none none "found duplicate YAML directive" t.start
        match v with
        | some (major, _) =>
          if major != 1 then
            composeError none none "found incompatible YAML document (version 1.* is required)" t.start
          directives fuel v handles
        | none => directives fuel version handles
      else if name == "TAG" then
        match h with
        | some (handle, uri) =>
          if handles.any (·.1 == handle) then
            composeError none none ("duplicate tag handle " ++ Text.quote handle) t.start
          directives fuel version (handles ++ [(handle, uri)])
        | none => directives fuel version handles
      else directives fuel version handles
    | _ =>
      let added := standardHandles.filter fun (h, _) => !handles.any (·.1 == h)
      modify fun c => { c with handles := handles ++ added }

/-- Skips document end markers. -/
def skipDocumentEnds (fuel : Nat) : ComposeM Unit :=
  match fuel with
  | 0 => pure ()
  | fuel + 1 => do
    if ← checkToken (· == .documentEnd) then
      let _ ← nextToken
      skipDocumentEnds fuel

/-- The start of an explicit document: its directives and the `---` marker; the mark where it
starts. -/
def explicitStart (fuel : Nat) : ComposeM Mark := do
  let start := (← peekToken).start
  directives fuel none []
  let t ← peekToken
  if t.kind != .documentStart then
    composeError none none ("expected '<document start>', but found " ++ Text.quote t.kind.name) t.start
  let _ ← nextToken
  pure start

/-- The place of the root of the stream's one document, if it has one (see the module note). -/
def document (fuel : Nat) : ComposeM (Option Nat) := do
  let _ ← nextToken
  let implicit ← checkToken fun k => !(k matches .directive _ _ _ | .documentStart | .streamEnd)
  let root ← if implicit then do
      modify fun c => { c with handles := standardHandles }
      node fuel true false
    else do
      skipDocumentEnds fuel
      if ← checkToken (· == .streamEnd) then return none
      let _ ← explicitStart fuel
      if ← checkToken fun k => k matches .directive _ _ _ | .documentStart | .documentEnd | .streamEnd then
        emptyNode (← peekToken).start
      else node fuel true false
  if ← checkToken (· == .documentEnd) then let _ ← nextToken
  skipDocumentEnds fuel
  if ← checkToken (· == .streamEnd) then return some root
  let second ← explicitStart fuel
  composeError (some "expected a single document in the stream") (some (← nodeAt root).start)
    "but found another document" second

/-- The one document of a text as a node graph; `none` for a stream without documents. -/
def compose (text : String) : Except Failure (Option Graph) := do
  let ts ← tokens text
  let run := document (2 * ts.size + 2)
  match run.run ⟨ts, 0, #[], [], standardHandles⟩ with
  | .ok (root, c) => pure (root.map fun r => ⟨c.nodes, r⟩)
  | .error e => throw e

end TradeDesk.Yaml
