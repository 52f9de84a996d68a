import TradeDesk.Value.Json
import TradeDesk.Text.Blank

/-!
# Settings from environment variables

A variable named `TRADE_CORE_<PATH>` sets the setting at `<PATH>`: the name without the
`TRADE_CORE` prefix, stripped of underscores at both ends, lower-cased and split at double
underscores, so `TRADE_CORE_ROUTER__MAX_SLIPPAGE` sets `router.max_slippage`. Other names are
ignored.

A value that looks like JSON is read as JSON (`Env.parse`): a bracketed list or braced object, the
words `true`, `false`, `null` in any case, or digits with at most one point, where a digit is any
character with a digit value, in any script. If it does not read, or looks like nothing of these,
it stays text; but reading stops at a JSON limit even where the text would not have read, so 4301
ones followed by `²` fail on the digits of their whole number before the `²` is reached. The variables are applied in order into one nested
object; a path that runs through a value that is not an object fails.
-/

namespace TradeDesk.Config.Env

/-- The path a variable name sets, if it is a settings variable. -/
def path? (name : String) : Option (List String) :=
  if !name.startsWith "TRADE_CORE_" then none
  else
    let rest := (name.toList.drop 10)
    let core := ((rest.dropWhile (· == '_')).reverse.dropWhile (· == '_')).reverse
    some ((Text.lower (String.ofList core)).splitOn "__")

/-- Whether a text is digits once its first point is removed: characters with a digit value in any
script (`Unicode.isDigit`), such as `²` or `٣`, not only ASCII ones. -/
def numeralLike (s : String) : Bool :=
  let cs := s.toList
  let cs := match cs.idxOf? '.' with
    | some i => cs.eraseIdx i
    | none => cs
  !cs.isEmpty && cs.all Unicode.isDigit

/-- The value a variable holds: JSON if it looks like it and reads, else the text. Reading JSON
that meets a limit fails. -/
def parse (value : String) : Except Fault Value :=
  let low := Text.lower value
  let word := low == "true" || low == "false" || low == "null"
  let looks := (value.startsWith "[" && value.endsWith "]") || (value.startsWith "\x7b" && value.endsWith "\x7d") ||
    word || numeralLike value
  if looks then
    match Value.parseJson (if word then low else value) with
    | .ok v => .ok v
    | .error .malformed => .ok (.str value)
    | .error (.fault f) => .error f
  else .ok (.str value)

/-- The value at `parts` set inside the fields `d`, creating objects on the way. -/
def setPath (d : List (String × Value)) : List String → Value → Except Fault (List (String × Value))
  | [], _ => .ok d
  | [k], v => .ok (Value.setField d k v)
  | k :: rest, v =>
    match d.find? (·.1 == k) with
    | none => do
      let sub ← setPath [] rest v
      pure (Value.setField d k (.obj sub))
    | some (_, .obj sub) => do
      let sub' ← setPath sub rest v
      pure (Value.setField d k (.obj sub'))
    | some (_, other) =>
      match rest with
      | [_] => match other with
        | .list _ => .error .listIndexNotInt
        | _ => .error (.noItemAssignment other.typeName)
      | _ => .error (.noAttribute other.typeName "setdefault")

/-- The variables in order, a repeated name keeping its first place and its last value. -/
def dedupe (env : List (String × String)) : List (String × String) :=
  env.foldl (fun acc (k, v) =>
    if acc.any (·.1 == k) then acc.map fun (k', v') => if k' == k then (k', v) else (k', v')
    else acc ++ [(k, v)]) []

/-- The nested settings object the variables describe. -/
def overrides (env : List (String × String)) : Except Fault Value := do
  let fs ← (dedupe env).foldlM (fun d (name, value) =>
    match path? name with
    | some parts => do setPath d parts (← parse value)
    | none => pure d) []
  pure (.obj fs)

end TradeDesk.Config.Env
