import TradeDesk.Yaml.Construct

/-!
# Reading YAML configuration files

A configuration file is one YAML 1.1 document. `Yaml.read` scans it (`Yaml.tokens`), composes its
node graph (`Yaml.compose`) and builds its shared document (`Yaml.build`); a file without a
document is null. Reading fails with a `Yaml.Failure`: a malformed text, or a value that cannot be
built.
-/

namespace TradeDesk.Yaml

/-- The shared document of a YAML text (see the module note). -/
def read (text : String) : Except Failure (Store × Part) := do
  match ← compose text with
  | none => pure (Store.empty, .whole .null)
  | some g => build g

end TradeDesk.Yaml
