import TradeDesk.Value.Arith

/-!
# Merging documents

`Value.mergeFields base changes` lays the fields `changes` onto `base`, in their order: where
both hold an object (or, in `base`, a mapping) under a name, the two are merged the same way;
otherwise a field of `changes` replaces the one of `base` in place, or is added at the end. Lists
and other values are replaced whole. `Value.mergeEntries` does the same onto a mapping's entries,
where only a key that is the text of the name is that name.

`Value.merge?` is the same merge on documents of any kind, failing where the merge would use a value
as what it is not: `changes` must be an object (its fields are read), and a `base` that is not an
object can neither take a field nor, when the field's value is an object, be asked whether it holds
the field's name unless it is a text (which holds the names it contains) or a list (which holds its
items). A text or a list that holds the name cannot be indexed by it.
-/

namespace TradeDesk.Value

mutual

/-- The given fields laid onto `base`, in order. -/
def mergeFields (base : List (String × Value)) : List (String × Value) → List (String × Value)
  | [] => base
  | (k, v) :: rest => mergeFields (mergeField base k v) rest
termination_by structural xs => xs

/-- One field laid onto `base`: objects merge, anything else replaces. -/
def mergeField (base : List (String × Value)) (k : String) : Value → List (String × Value)
  | .obj o =>
    match base.find? (·.1 == k) with
    | some (_, .obj b) => setField base k (.obj (mergeFields b o))
    | some (_, .map b) => setField base k (ofEntries (mergeEntries b o))
    | _ => setField base k (.obj o)
  | v => setField base k v
termination_by structural v => v

/-- The given fields laid onto a mapping's entries, in order. -/
def mergeEntries (base : List (Value × Value)) : List (String × Value) → List (Value × Value)
  | [] => base
  | (k, v) :: rest => mergeEntries (mergeEntry base k v) rest
termination_by structural xs => xs

/-- One field laid onto a mapping's entries: objects merge, anything else replaces. -/
def mergeEntry (base : List (Value × Value)) (k : String) : Value → List (Value × Value)
  | .obj o =>
    match base.find? (isText k ·.1) with
    | some (_, .obj b) => setEntry base (.str k) (.obj (mergeFields b o))
    | some (_, .map b) => setEntry base (.str k) (ofEntries (mergeEntries b o))
    | _ => setEntry base (.str k) (.obj o)
  | v => setEntry base (.str k) v
termination_by structural v => v

end

/-- The fields `changes` laid onto an object or mapping; any other base is left as it is. -/
def mergeInto (base : Value) (changes : List (String × Value)) : Value :=
  match base with
  | .obj fs => .obj (mergeFields fs changes)
  | .map es => ofEntries (mergeEntries es changes)
  | _ => base

/-- Whether `p` occurs in `s` as a contiguous part. -/
def isInfix (p : List Char) : List Char → Bool
  | [] => p.isEmpty
  | c :: cs => p.isPrefixOf (c :: cs) || isInfix p cs

/-- Whether a value holds a name: a text as a part of it, a list as an item, an object as a field
name. Other values hold nothing. -/
def holds? (container : Value) (k : String) : Except Fault Bool :=
  match container with
  | .str s => .ok (isInfix k.toList s.toList)
  | .list xs => .ok (xs.any (eqv · (.str k)))
  | .obj fs => .ok (fs.any (·.1 == k))
  | .map es => .ok (es.any (isText k ·.1))
  | _ => .error (.notContainer container.typeName)

/-- One field laid onto a base of any kind (see the module note). -/
def mergeInto? (base : Value) (k : String) (v : Value) : Except Fault Value :=
  match base with
  | .obj fs => .ok (.obj (mergeField fs k v))
  | .map es => .ok (ofEntries (mergeEntry es k v))
  | _ => do
    if v matches .obj _ then
      if ← holds? base k then
        match base with
        | .list _ => throw .listIndexNotInt
        | _ => throw .textIndexNotInt
    match base with
    | .list _ => throw .listIndexNotInt
    | _ => throw (.noItemAssignment base.typeName)

/-- The fields of `changes` laid onto a base of any kind, in order. -/
def merge? (base changes : Value) : Except Fault Value :=
  match changes with
  | .obj os => os.foldlM (fun b (k, v) => mergeInto? b k v) base
  | _ => .error (.noAttribute changes.typeName "items")

end TradeDesk.Value
