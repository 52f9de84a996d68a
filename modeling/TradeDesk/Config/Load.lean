import TradeDesk.Config.Settings
import TradeDesk.Config.Env
import TradeDesk.Value.Merge
import TradeDesk.Value.Shared
import TradeDesk.Yaml

/-!
# Loading settings

`Settings.ofDocument` validates an in-memory document (a false one counts as empty).
`Settings.load` takes a settings file's shared document (none when the file is missing, null for an
empty file), requires a mapping at its top, lays the environment's overrides over it in place
(`Config.Env.overrides`, `Store.mergeFields`), so that a mapping the file uses in several places
takes the overrides in all of them, and validates the result. `Settings.loadText` first reads the
file's text as YAML (`Yaml.read`): a malformed text is refused with the reader's wording, and a
value that cannot be built stops loading with its fault.

Validation reads a shared document through `Settings.documentOf`: the tree of its first three
levels (the settings, their sections, and the venue overrides in theirs), which is as deep as the
schema looks, and the list of enabled venues as the texts of its items, which is all the schema
uses of them. A document that holds itself is so read without unfolding it.
-/

namespace TradeDesk

/-- Why settings could not be loaded. -/
inductive LoadError where
  | missing (path : String)
  /-- A file that is not YAML, with the reader's wording. -/
  | unparsable (path reason : String)
  | notMapping (path : String)
  | invalid (issues : List Config.Issue)
  /-- A fault that stopped validation or the reading of the environment. -/
  | fault (f : Fault)

/-- The wording of a load error. -/
def LoadError.message : LoadError → String
  | .missing p => "Configuration file not found at: " ++ p
  | .unparsable p r => "Error parsing YAML file at " ++ p ++ ": " ++ r
  | .notMapping p => "YAML file '" ++ p ++ "' must contain a mapping at the top level."
  | .invalid _ => "Failed to validate settings."
  | .fault f => f.message

namespace Settings

/-- Settings from an in-memory document; a false document counts as an empty object. -/
def ofDocument (raw : Value) : Except LoadError Settings :=
  match validate (if raw.truthy then raw else .obj []) with
  | .ok s => .ok s
  | .error (.issues is) => .error (.invalid is)
  | .error (.fault f) => .error (.fault f)

/-- A field of an object or mapping replaced, when it is there. -/
def replaceField (v : Value) (k : String) (x : Value) : Value :=
  match v with
  | .obj fs => .obj (fs.map fun f => if f.1 == k then (k, x) else f)
  | .map es => .map (es.map fun e => if Value.isText k e.1 then (e.1, x) else e)
  | _ => v

/-- The document validation reads from a shared one (see the module note). -/
def documentOf (s : Store) (root : Part) : Value :=
  let doc := s.view 3 root
  match (s.lookup root "router").bind (s.lookup · "enabled_platforms") with
  | some venues =>
    replaceField doc "router"
      (replaceField ((doc.get? "router").getD .null) "enabled_platforms" (s.listing venues))
  | none => doc

/-- Whether a part is a mapping. -/
def isMapping (s : Store) : Part → Bool
  | .whole v => v.isDict
  | .ref c => (s.get c matches .dict _)
  | .pair _ _ => false

/-- Settings from a file's shared document and the environment (see the module note). -/
def load (path : String) (file : Option (Store × Part)) (env : List (String × String)) :
    Except LoadError Settings := do
  let (s, root) ← match file with
    | none => .error (.missing path)
    | some (s, .whole .null) => pure (s, Part.whole (.obj []))
    | some (s, p) => if isMapping s p then pure (s, p) else .error (.notMapping path)
  let fromEnv ← (Config.Env.overrides env).mapError .fault
  let (s, root) := match fromEnv, root with
    | .obj os, .ref c => (s.mergeFields c os, root)
    | .obj os, .whole v => (s, .whole (v.mergeInto os))
    | _, _ => (s, root)
  ofDocument (documentOf s root)

/-- Settings from a file's document given as a tree, none when the file is missing, and the
environment. -/
def loadValue (path : String) (file : Option Value) (env : List (String × String)) :
    Except LoadError Settings :=
  load path (file.map fun v => (Store.empty, .whole v)) env

/-- Settings from a file's text, none when the file is missing, and the environment (see the
module note). -/
def loadText (path : String) (text : Option String) (env : List (String × String)) :
    Except LoadError Settings :=
  match text with
  | none => load path none env
  | some t => match Yaml.read t with
    | .ok doc => load path (some doc) env
    | .error (.malformed e) => .error (.unparsable path (e.message path))
    | .error (.fault f) => .error (.fault f)

end Settings

end TradeDesk
