import TradeDesk.Yaml.Compose
import TradeDesk.Decimal.Radix
import TradeDesk.Value.Arith
import TradeDesk.Value.Shared
import TradeDesk.Text.Bytes
import TradeDesk.Value.Hash

/-!
# Values from YAML nodes

`Yaml.build` turns a document's node graph into a shared document (`Store`, `Part`) by the tags
of its nodes. Scalars become values held whole:

* `str` is the text; `null` is null; `bool` is the truth value of `yes`, `true`, `on` or `no`,
  `false`, `off` in any case (any other text is `Fault.noKey`).
* `int` drops underscores, takes a sign, and reads `0` as zero, `0b…` in base 2, `0x…` in base 16,
  other texts starting with `0` in base 8, texts with colons in base 60, and the rest in base 10
  (`Decimal.radix?`); an empty text fails as `Fault.emptyIndex`.
* `float` drops underscores and lowers the case; `.inf` and `.nan` are the special values, texts
  with colons are base-60 sums of fractional parts added from the last, and the rest is read as a
  number (`Value.toFloat?`).
* `timestamp` is a `Stamp` (`Stamp.ofDate?`, `Stamp.ofTime?`).
* `binary` is a byte string: the text must be ASCII, and is decoded as base64 (`Text.base64`).

Collections become cells of the store:

* `seq` is a list of its items, and `map` a mapping: a later pair with the same key replaces the
  value and keeps the first key; a key that is a collection fails. Two NaN keys are the same key
  only when they are one node, or both the text `.nan`. Merge keys (`<<`) are resolved first
  (`flatten`).
* `set` is the set of a mapping's keys, in the order of their slots when every key is a number or
  a truth value (`SlotTable.order`), else in the mapping's order.
* `omap` and `pairs` are lists of pairs, from a sequence of mappings of one pair each.

Any other tag has no constructor, and a tag for the wrong kind of node fails.

Each node is built once: a node met again (through an alias) is the same part, so a collection is
shared wherever its node is used, and may hold itself. A collection is made empty when it is met and
filled later; the collections are filled in the order they were met, each filling building its
items, keys and values in order (and so meeting more collections). Scalars are built when met. The
first failure in that order stops the build.
-/

namespace TradeDesk.Yaml

/-- A failure of construction at a mark. -/
def constructError (context : Option String) (contextMark : Option Mark) (problem : String)
    (m : Mark) : Failure :=
  .malformed (.marked context contextMark problem (some m))

/-- A whole number from the text of an `int` node (see the module note). -/
def wholeOf (text : String) : Except Fault Int := do
  let cs := (text.replace "_" "").toList
  match cs with
  | [] => throw .emptyIndex
  | c :: _ =>
    let neg := c == '-'
    let body := if c == '+' || c == '-' then cs.drop 1 else cs
    let signed := fun (n : Int) => if neg then -n else n
    if body == ['0'] then pure 0
    else if body.take 2 == ['0', 'b'] then signed <$> Decimal.radix? (String.ofList (body.drop 2)) 2
    else if body.take 2 == ['0', 'x'] then signed <$> Decimal.radix? (String.ofList (body.drop 2)) 16
    else match body with
      | [] => throw .emptyIndex
      | '0' :: _ => signed <$> Decimal.radix? (String.ofList body) 8
      | _ =>
        if body.contains ':' then do
          let parts ← ((String.ofList body).splitOn ":").mapM (Decimal.radix? · 10)
          pure (signed (parts.foldl (fun acc d => acc * 60 + d) 0))
        else signed <$> Decimal.radix? (String.ofList body) 10

/-- The base-60 sum of fractional parts, the last part first: each part times its power of sixty,
which must fit binary64. -/
def sexagesimal (parts : List Float) : Except Fault Float :=
  let step := fun (acc : Float × Int) (d : Float) => do
    let b ← (Num.int acc.2).toFloat?
    pure (acc.1 + d * b, acc.2 * 60)
  (parts.reverse.foldlM step ((0.0 : Float), (1 : Int))).map fun (r : Float × Int) => r.1

/-- A binary64 number from the text of a `float` node (see the module note). -/
def floatOf (text : String) : Except Fault Float := do
  let cs := (Unicode.lower (text.replace "_" "")).toList
  match cs with
  | [] => throw .emptyIndex
  | c :: _ =>
    let neg := c == '-'
    let body := String.ofList (if c == '+' || c == '-' then cs.drop 1 else cs)
    let signed := fun (x : Float) => if neg then -x else x
    if body == ".inf" then pure (signed (1.0 / 0.0))
    else if body == ".nan" then pure (0.0 / 0.0)
    else if body.contains ':' then do
      let parts ← (body.splitOn ":").mapM fun p => Value.toFloat? (.str p)
      signed <$> sexagesimal parts
    else signed <$> Value.toFloat? (.str body)

/-- A truth value from the text of a `bool` node. -/
def truthOf (text : String) : Except Fault Bool :=
  let word := Unicode.lower text
  if word == "yes" || word == "true" || word == "on" then .ok true
  else if word == "no" || word == "false" || word == "off" then .ok false
  else .error (.noKey word)

/-- A stamp from the text of a `timestamp` node: the fraction of a second is cut or padded to six
digits, and an offset is in minutes, `Z` being zero. A text that is not a timestamp has no fields
to read. -/
def stampOf (text : String) : Except Fault Stamp :=
  match stampFields? text.toList with
  | none => .error (.noAttribute "NoneType" "groupdict")
  | some f => match f.time with
    | none => Stamp.ofDate? f.year f.month f.day
    | some t =>
      let six := t.fraction.take 6
      let micro := digitsValue (six ++ List.replicate (6 - six.length) '0')
      let offset : Option Int := match t.zone with
        | none => none
        | some .utc => some 0
        | some (.offset neg h m) =>
          let d : Int := h * 60 + m.getD 0
          some (if neg then -d else d)
      Stamp.ofTime? f.year f.month f.day t.hour t.minute t.second micro offset

/-- The tags of scalars, which a collection node cannot have. -/
def scalarTags : List String := ["str", "null", "bool", "int", "float", "timestamp", "binary"].map core

/-- The text of a character in an encoding error: `\xhh`, `\uhhhh` or `\Uhhhhhhhh` by its code,
a lone surrogate by its own code. -/
def codeText (c : Char) : String :=
  let n := (Unicode.surrogateOf? c).getD c.toNat
  if n < 0x100 then "\\x" ++ Text.hex 2 n
  else if n < 0x10000 then "\\u" ++ Text.hex 4 n
  else "\\U" ++ Text.hex 8 n

/-- Why a text is not ASCII: the first run of characters outside it, by position. -/
def asciiFault? (text : String) : Option String :=
  let cs := text.toList
  let at_ := (cs.takeWhile (·.toNat < 128)).length
  if at_ == cs.length then none
  else
    let run := ((cs.drop at_).takeWhile (·.toNat ≥ 128)).length
    let reason := ": ordinal not in range(128)"
    if run == 1 then
      some ("'ascii' codec can't encode character '" ++ codeText (cs.getD at_ ' ') ++ "' in position " ++
        toString at_ ++ reason)
    else
      some ("'ascii' codec can't encode characters in position " ++ toString at_ ++ "-" ++
        toString (at_ + run - 1) ++ reason)

/-- A byte string from the text of a `binary` node. -/
def bytesOf (text : String) (m : Mark) : Except Failure Value :=
  match asciiFault? text with
  | some why => .error (constructError none none ("failed to convert base64 data into ascii: " ++ why) m)
  | none => match Text.base64 (text.toList.map fun c => UInt8.ofNat c.toNat) with
    | .ok bs => .ok (.bytes bs)
    | .error e => .error (constructError none none ("failed to decode base64 data: " ++ e.message) m)

/-- The value of a scalar node by its tag. -/
def scalarValue (tag text : String) (m : Mark) : Except Failure Value :=
  let lift := fun {α : Type} (r : Except Fault α) (f : α → Value) =>
    (r.map f).mapError Failure.fault
  if tag == core "str" then .ok (.str text)
  else if tag == core "null" then .ok .null
  else if tag == core "bool" then lift (truthOf text) .bool
  else if tag == core "int" then lift (wholeOf text) Value.int
  else if tag == core "float" then lift (floatOf text) Value.float
  else if tag == core "timestamp" then lift (stampOf text) .stamp
  else if tag == core "binary" then bytesOf text m
  else .error (constructError none none ("could not determine a constructor for the tag " ++
    Text.quote tag) m)

/-- The failure of a node whose tag is for another kind of node, or has no constructor. -/
def tagMismatch (n : Node) : Failure :=
  if scalarTags.contains n.tag then
    constructError none none ("expected a scalar node, but found " ++ n.kindName) n.start
  else
    constructError none none ("could not determine a constructor for the tag " ++ Text.quote n.tag)
      n.start

/-- How a collection is filled: a list of items, a mapping, a set of keys, or a list of pairs (with
the context its failures name). -/
inductive Filling where
  | items
  | entries
  | keys
  | pairs (context : String)

/-- The empty collection a tag makes, and how it is filled; none for the tags of scalars. -/
def collectionOf (tag : String) : Option (Cell × Filling) :=
  if tag == core "seq" then some (.list [], .items)
  else if tag == core "map" then some (.dict [], .entries)
  else if tag == core "set" then some (.set [], .keys)
  else if tag == core "omap" then some (.list [], .pairs "while constructing an ordered map")
  else if tag == core "pairs" then some (.list [], .pairs "while constructing pairs")
  else none

/-- The state of a build: the node graph (in which merge keys are resolved as mappings are filled),
the store so far, the part built for each node, and the collections to fill, in the order they
were met, with the first of them not yet filled. -/
structure Builder where
  nodes : Array Node
  store : Store
  built : Array (Option Part)
  queue : Array (Nat × Nat × Filling)
  next : Nat

/-- Building: a state over the builder that may fail. -/
abbrev BuildM := StateT Builder (Except Failure)

/-- The node at a place. -/
def nodeOf (i : Nat) : BuildM Node := do pure ((← get).nodes.getD i default)

/-- Replaces the node at a place. -/
def setNode (i : Nat) (n : Node) : BuildM Unit :=
  modify fun b => { b with nodes := b.nodes.setIfInBounds i n }

/-- Records the part built for a node. -/
def record (i : Nat) (p : Part) : BuildM Unit :=
  modify fun b => { b with built := b.built.setIfInBounds i (some p) }

/-- The part of the node at a place: the one built before, or a new one. A collection is made
empty and queued to be filled; a scalar is built now. -/
def part (i : Nat) : BuildM Part := do
  let b ← get
  if let some p := b.built.getD i none then return p
  let n := b.nodes.getD i default
  match collectionOf n.tag with
  | some (empty, filling) =>
    let (store, c) := b.store.alloc empty
    set { b with store := store, queue := b.queue.push (i, c, filling) }
    record i (.ref c)
    pure (.ref c)
  | none =>
    match n with
    | .scalar tag text m =>
      match scalarValue tag text m with
      | .ok v =>
        record i (.whole v)
        pure (.whole v)
      | .error e => throw e
    | _ => throw (tagMismatch n)

/-- The pairs of the mapping at a place. -/
def pairsOf (i : Nat) : BuildM (List (Nat × Nat)) := do
  match ← nodeOf i with
  | .map _ ps _ => pure ps
  | _ => pure []

mutual

/-- Resolves the merge keys of the mapping at place `i`, in the graph: each merge key is removed,
and the pairs it merges (those of a mapping, or of each mapping of a sequence, the later ones
first) are put before the mapping's own pairs. A key tagged `value` becomes a text. A mapping is
resolved before its pairs are merged. `fuel` bounds the steps. -/
def flatten (fuel : Nat) (i : Nat) : BuildM Unit :=
  match fuel with
  | 0 => pure ()
  | fuel + 1 => do
    let merged ← flattenFrom fuel i 0 []
    if !merged.isEmpty then
      match ← nodeOf i with
      | .map t ps m => setNode i (.map t (merged ++ ps) m)
      | _ => pure ()

/-- The loop of `flatten` at pair `index` of the mapping at place `i`, with the pairs merged so far;
the pairs are read afresh at each step, as resolving a merged mapping may change them. -/
def flattenFrom (fuel : Nat) (i index : Nat) (merged : List (Nat × Nat)) : BuildM (List (Nat × Nat)) :=
  match fuel with
  | 0 => pure merged
  | fuel + 1 => do
    let (t, ps, m) := match ← nodeOf i with
      | .map t ps m => (t, ps, m)
      | n => (n.tag, [], n.start)
    match ps.drop index with
    | [] => pure merged
    | (k, v) :: _ =>
      let key ← nodeOf k
      let context := some "while constructing a mapping"
      if key.tag == core "merge" then
        setNode i (.map t (ps.eraseIdx index) m)
        match ← nodeOf v with
        | .map _ _ _ =>
          flatten fuel v
          flattenFrom fuel i index (merged ++ (← pairsOf v))
        | .seq _ subs _ =>
          let lists ← subs.mapM fun sub => do
            match ← nodeOf sub with
            | .map _ _ _ =>
              flatten fuel sub
              pairsOf sub
            | other =>
              throw (constructError context (some m)
                ("expected a mapping for merging, but found " ++ other.kindName) other.start)
          flattenFrom fuel i index (merged ++ lists.reverse.flatten)
        | other =>
          throw (constructError context (some m)
            ("expected a mapping or list of mappings for merging, but found " ++ other.kindName)
            other.start)
      else if key.tag == core "value" then
        setNode k (key.withTag (core "str"))
        flattenFrom fuel i (index + 1) merged
      else flattenFrom fuel i (index + 1) merged

end

/-- Whether a scalar node is the text `.nan` as a `float`, whatever its sign and case: all such
nodes build one and the same NaN. -/
def sharedNaN (n : Node) : Bool :=
  match n with
  | .scalar tag text _ =>
    tag == core "float" &&
      (let cs := (Unicode.lower (text.replace "_" "")).toList
       let body := match cs with
         | c :: rest => if c == '+' || c == '-' then rest else cs
         | [] => []
       body == ".nan".toList)
  | _ => false

/-- Whether two keys, each with the identity of what built it, are the same key: one identity, or
equal values other than NaN. -/
def sameKey (a b : Part × Nat) : Bool :=
  a.2 == b.2 ||
    match a.1, b.1 with
    | .whole x, .whole y => Value.sameKey x y
    | _, _ => false

/-- Sets a key of a mapping under construction: the value replaced in place when the same key is
there, the first key kept, else the entry added at the end. -/
def setKey (es : List ((Part × Nat) × Part)) (k : Part × Nat) (v : Part) : List ((Part × Nat) × Part) :=
  if es.any (sameKey k ·.1) then es.map fun e => if sameKey k e.1 then (e.1, v) else e
  else es ++ [(k, v)]

/-- The entries of the mapping at a place, its merge keys resolved first: each key, then whether
it can be a key, then its value. -/
def mappingOf (fuel : Nat) (i : Nat) : BuildM (List (Part × Part)) := do
  match ← nodeOf i with
  | .map _ _ _ =>
    flatten fuel i
    let m := (← nodeOf i).start
    let step := fun (acc : List ((Part × Nat) × Part)) (kv : Nat × Nat) => do
      let k ← part kv.1
      if k matches .ref _ then
        throw (constructError (some "while constructing a mapping") (some m) "found unhashable key"
          (← nodeOf kv.1).start)
      let identity := if sharedNaN (← nodeOf kv.1) then 0 else kv.1 + 1
      let v ← part kv.2
      pure (setKey acc (k, identity) v)
    let es ← (← pairsOf i).foldlM step []
    pure (es.map fun ((k, _), v) => (k, v))
  | n => throw (constructError none none ("expected a mapping node, but found " ++ n.kindName) n.start)

/-- The keys of a set in the order a loop over it meets them: by their slots when each is a number
or a truth value, whose hashes are fixed; else as given. -/
def setOrder (ks : List Part) : List Part :=
  let hashed := ks.mapM fun k => match k with
    | .whole v => v.hash?.map (k, ·)
    | _ => none
  match hashed with
  | some hs => SlotTable.order hs
  | none => ks

/-- Fills the collection in cell `c` from the node at place `i`. -/
def fill (fuel : Nat) (i c : Nat) : Filling → BuildM Unit
  | .items => do
    match ← nodeOf i with
    | .seq _ items _ =>
      let ps ← items.mapM part
      modify fun b => { b with store := b.store.put c (.list ps) }
    | n => throw (constructError none none ("expected a sequence node, but found " ++ n.kindName) n.start)
  | .entries => do
    let es ← mappingOf fuel i
    modify fun b => { b with store := b.store.put c (.dict es) }
  | .keys => do
    let es ← mappingOf fuel i
    modify fun b => { b with store := b.store.put c (.set (setOrder (es.map (·.1)))) }
  | .pairs context => do
    match ← nodeOf i with
    | .seq _ subs m =>
      let ps ← subs.mapM fun sub => do
        match ← nodeOf sub with
        | .map _ [(k, v)] _ => pure (Part.pair (← part k) (← part v))
        | .map _ kvs sm =>
          throw (constructError (some context) (some m)
            ("expected a single mapping item, but found " ++ toString kvs.length ++ " items") sm)
        | other =>
          throw (constructError (some context) (some m)
            ("expected a mapping of length 1, but found " ++ other.kindName) other.start)
      modify fun b => { b with store := b.store.put c (.list ps) }
    | n =>
      throw (constructError (some context) (some n.start) ("expected a sequence, but found " ++ n.kindName)
        n.start)

/-- Fills the queued collections in order, until none is left; `steps` bounds their number. -/
def fillAll (fuel : Nat) : Nat → BuildM Unit
  | 0 => pure ()
  | steps + 1 => do
    let b ← get
    match b.queue[b.next]? with
    | none => pure ()
    | some (i, c, filling) =>
      set { b with next := b.next + 1 }
      fill fuel i c filling
      fillAll fuel steps

/-- The number of pairs of all mappings of a graph. -/
def pairCount (g : Graph) : Nat :=
  g.nodes.foldl (fun acc n => match n with
    | .map _ ps _ => acc + ps.length
    | _ => acc) 0

/-- The shared document of a node graph (see the module note). Each node is queued at most once,
so the queue is filled within as many steps as there are nodes; merge keys are resolved within a
number of steps cubic in the size of the graph. -/
def build (g : Graph) : Except Failure (Store × Part) := do
  let size := g.nodes.size + pairCount g + 2
  let fuel := size * size * size
  let run : BuildM Part := do
    let root ← part g.root
    fillAll fuel (g.nodes.size + 1)
    pure root
  let (root, b) ← run.run ⟨g.nodes, Store.empty, Array.replicate g.nodes.size none, #[], 0⟩
  pure (b.store, root)

end TradeDesk.Yaml
