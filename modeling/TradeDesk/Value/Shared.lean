import TradeDesk.Value.Merge
import TradeDesk.Value.Text

/-!
# Shared documents

A YAML file can name a collection and use it again elsewhere, even inside itself. Its document is
then a graph rather than a tree: a `Store` of collections (`Cell`s) by address, and `Part`s that are
values held whole, pairs, or references to cells. A cell changed through one reference is changed
for every reference.

* `Store.repr` and `Store.plain` print a part as messages show it. A collection met again inside
  itself is printed `[...]` or `{...}`, as the printer stops at a collection it is already printing.
* `Store.mergeFields` lays overrides over a mapping cell in place, as `Value.mergeFields` does over
  a tree: an object laid over a mapping is merged into that mapping, in its own cell, so the change
  shows through every reference to it.
* `Store.view` is the tree a reader sees when it looks `depth` levels of collections down: below
  that, a collection shows only its kind. Sets and pairs are seen as lists.
* `Store.listing` is the items of a part as a loop over it meets them (a mapping's keys, a pair's
  two sides), each given as its printed text.
-/

namespace TradeDesk

/-- A part of a shared document: a value held whole, a pair of parts, or a reference to a cell. -/
inductive Part where
  | whole (v : Value)
  | pair (first second : Part)
  | ref (cell : Nat)

/-- A collection of a shared document: a list, a mapping, or a set. -/
inductive Cell where
  | list (items : List Part)
  | dict (entries : List (Part × Part))
  | set (items : List Part)

/-- The collections of a shared document, by address. -/
structure Store where
  cells : Array Cell

namespace Store

/-- The store with no collections. -/
def empty : Store := ⟨#[]⟩

/-- The cell at an address; an empty list past the end. -/
def get (s : Store) (i : Nat) : Cell := s.cells.getD i (.list [])

/-- The store with the cell at an address replaced. -/
def put (s : Store) (i : Nat) (c : Cell) : Store := ⟨s.cells.setIfInBounds i c⟩

/-- A new cell, at the first free address, which is returned. -/
def alloc (s : Store) (c : Cell) : Store × Nat := (⟨s.cells.push c⟩, s.cells.size)

/-- Whether a key part is the text `k`. -/
def isName (k : String) : Part → Bool
  | .whole (.str t) => t == k
  | _ => false

/-- The part under the text key `k` of a mapping part, if it is a mapping that has one. -/
def lookup (s : Store) (p : Part) (k : String) : Option Part :=
  match p with
  | .whole v => (v.get? k).map .whole
  | .ref c => match s.get c with
    | .dict es => (es.find? (isName k ·.1)).map (·.2)
    | _ => none
  | .pair _ _ => none

/-- Sets the text key `k` of a mapping's entries: in place if present, else at the end. -/
def setName (es : List (Part × Part)) (k : String) (v : Part) : List (Part × Part) :=
  if es.any (isName k ·.1) then es.map fun e => if isName k e.1 then (e.1, v) else e
  else es ++ [(.whole (.str k), v)]

/-- The text of a cycle's placeholder: what the printer shows for a collection it is already
printing. -/
def again : Cell → String
  | .list _ => "[...]"
  | .dict _ => "\x7b...\x7d"
  | .set _ => "set(...)"

/-- The source-text form of a part. `open_` holds the cells being printed; `fuel` bounds the depth,
and the depth of a part is at most twice the number of cells, as a path without a repeated cell
passes each cell once and a pair holds no pair. -/
def reprWith (s : Store) : Nat → List Nat → Part → String
  | 0, _, _ => "..."
  | _ + 1, _, .whole v => v.repr
  | fuel + 1, open_, .pair a b => "(" ++ reprWith s fuel open_ a ++ ", " ++ reprWith s fuel open_ b ++ ")"
  | fuel + 1, open_, .ref c =>
    let cell := s.get c
    if open_.contains c then again cell
    else
      let inner := reprWith s fuel (c :: open_)
      match cell with
      | .list items => "[" ++ ", ".intercalate (items.map inner) ++ "]"
      | .dict es => "\x7b" ++ ", ".intercalate (es.map fun (k, v) => inner k ++ ": " ++ inner v) ++ "\x7d"
      | .set items =>
        if items.isEmpty then "set()" else "\x7b" ++ ", ".intercalate (items.map inner) ++ "\x7d"

/-- The source-text form of a part. -/
def repr (s : Store) (p : Part) : String := reprWith s (2 * s.cells.size + 4) [] p

/-- The plain text of a part: a value as `Value.plain` gives it, anything else in source-text form. -/
def plain (s : Store) (p : Part) : String :=
  match p with
  | .whole v => v.plain
  | _ => s.repr p

mutual

/-- The fields `changes` laid over the mapping in cell `i`, in order. -/
def mergeFields (s : Store) (i : Nat) : List (String × Value) → Store
  | [] => s
  | (k, v) :: rest => mergeFields (mergeField s i k v) i rest
termination_by structural xs => xs

/-- One field laid over the mapping in cell `i`: an object merges into a mapping held under the
same name, in its cell or whole; anything else replaces the value or is added at the end. -/
def mergeField (s : Store) (i : Nat) (k : String) : Value → Store
  | .obj o =>
    match s.get i with
    | .dict es =>
      match es.find? (isName k ·.1) with
      | some (_, .ref j) =>
        match s.get j with
        | .dict _ => mergeFields s j o
        | _ => s.put i (.dict (setName es k (.whole (.obj o))))
      | some (_, .whole w) =>
        if w.isDict then s.put i (.dict (setName es k (.whole (w.mergeInto o))))
        else s.put i (.dict (setName es k (.whole (.obj o))))
      | _ => s.put i (.dict (setName es k (.whole (.obj o))))
    | _ => s
  | v =>
    match s.get i with
    | .dict es => s.put i (.dict (setName es k (.whole v)))
    | _ => s
termination_by structural v => v

end

/-- The tree of a part seen `depth` levels of collections down (see the module note). -/
def view (s : Store) : Nat → Part → Value
  | _, .whole v => v
  | 0, .pair _ _ => .list []
  | 0, .ref c => match s.get c with
    | .dict _ => .obj []
    | _ => .list []
  | d + 1, .pair a b => .list [view s d a, view s d b]
  | d + 1, .ref c => match s.get c with
    | .list items => .list (items.map (view s d))
    | .set items => .list (items.map (view s d))
    | .dict es => Value.ofEntries (es.map fun (k, v) => (view s d k, view s d v))

/-- The items of a part as a loop over it meets them, each as its printed text; a value held whole
is given as it is. -/
def listing (s : Store) (p : Part) : Value :=
  let texts := fun (ps : List Part) => Value.list (ps.map fun q => .str (s.plain q))
  match p with
  | .whole v => v
  | .pair a b => texts [a, b]
  | .ref c => match s.get c with
    | .list items => texts items
    | .set items => texts items
    | .dict es => texts (es.map (·.1))

end Store

end TradeDesk
