import TradeDesk.Config.Schema
import TradeDesk.Venue.Basic
import TradeDesk.Numeric

/-!
# Router configuration

The knobs of the order router: the ranking mode, the slippage cap in percent, whether resting
(maker) orders are preferred, whether an order may be split and over how many venues at most, the
linear impact coefficient, the share of quoted depth a resting order may take, which venues are
enabled (all when unset), and the per-quote and whole-route timeouts in milliseconds.

`RouterConfig.validate` checks a document. A mode text is trimmed and lower-cased before it is
matched; enabled venues are resolved one by one (`Venue.resolve`), and a value that is not a
collection of items stops validation with a fault rather than an issue.
-/

namespace TradeDesk

/-- How candidates are ranked. -/
inductive Mode where
  | bestPrice
  | bestLiquidity
  | lowestFee
  | balanced
  deriving Repr, DecidableEq

/-- The name of a mode. -/
def Mode.name : Mode → String
  | .bestPrice => "best_price"
  | .bestLiquidity => "best_liquidity"
  | .lowestFee => "lowest_fee"
  | .balanced => "balanced"

/-- All modes, in declared order. -/
def Mode.all : List Mode := [.bestPrice, .bestLiquidity, .lowestFee, .balanced]

/-- The mode with exactly this name. -/
def Mode.ofName? (s : String) : Option Mode := Mode.all.find? (·.name == s)

/-- The knobs of the order router. -/
structure RouterConfig (α : Type) where
  mode : Mode
  maxSlippage : α
  preferMaker : Bool
  allowSplitting : Bool
  enabled : Option (List Venue)
  maxSplit : Nat
  impact : α
  makerDepthRatio : α
  quoteTimeoutMs : Nat
  routeTimeoutMs : Nat

namespace RouterConfig

/-- Balanced ranking, a 1% slippage cap, maker orders preferred, no splitting (at most three venues
when on), impact 0.05, half the depth for resting orders, every venue, 1.5 s per quote and 4 s per
route. -/
def standard {α : Type} [Numeric α] : RouterConfig α :=
  ⟨.balanced, 1.0, true, false, none, 3, 0.05, 0.5, 1500, 4000⟩

open Config

/-- Why a router configuration was refused. -/
inductive Refusal where
  | issues (is : List Issue)
  | fault (f : Fault)

/-- The mode field: a text is trimmed and lower-cased, then must name a mode; a byte string must be
the UTF-8 form of a mode's name as it is. -/
def modeField (v : Value) : Except Problem Mode :=
  let choices := Problem.enumValue (Mode.all.map Mode.name)
  match v with
  | .str s =>
    if Unicode.hasSurrogate s then .error .stringUnicode
    else match Mode.ofName? (Text.lower (Text.trim s)) with
    | some m => .ok m
    | none => .error choices
  | .bytes bs => match (Text.utf8? bs).bind Mode.ofName? with
    | some m => .ok m
    | none => .error choices
  | _ => .error choices

/-- The enabled-venues field: null, or a collection whose items all name venues. -/
def venuesField (v : Value) : Except Refusal (Except Problem (Option (List Venue))) :=
  match v with
  | .null => .ok (.ok none)
  | _ => match v.items? with
    | .error f => .error (.fault f)
    | .ok xs => .ok (match xs.mapM Venue.resolve with
      | .ok ps => .ok (some ps)
      | .error u => .error (.unknownPlatform u.message))

/-- The issues of a check, none when it passed. -/
def issuesOf {β : Type} : Except (List Issue) β → List Issue
  | .ok _ => []
  | .error e => e

/-- A router configuration from a document; the issues are placed relative to the section. -/
def validate (doc : Value) : Except Refusal (RouterConfig Num) :=
  match doc with
  | .obj _ | .map _ => do
    let d : RouterConfig Num := standard
    let mode := field doc "mode" d.mode modeField
    let slip := field doc "max_slippage" d.maxSlippage (floatField [.gt (.int 0)])
    let maker := field doc "prefer_maker" d.preferMaker boolField
    let split := field doc "allow_splitting" d.allowSplitting boolField
    let venues ← match doc.get? "enabled_platforms" with
      | none => pure (.ok d.enabled)
      | some v => do
        let r ← venuesField v
        pure (r.mapError fun p => [⟨["enabled_platforms"], p⟩])
    let most := field doc "max_split_platforms" (d.maxSplit : Int) (intField [.ge (.int 2)])
    let impact := field doc "impact_coefficient" d.impact (floatField [.gt (.int 0)])
    let ratio := field doc "maker_depth_ratio" d.makerDepthRatio (floatField [.gt (.int 0), .le (.int 1)])
    let qt := field doc "quote_timeout_ms" (d.quoteTimeoutMs : Int) (intField [.gt (.int 0)])
    let rt := field doc "route_timeout_ms" (d.routeTimeoutMs : Int) (intField [.gt (.int 0)])
    match mode, slip, maker, split, venues, most, impact, ratio, qt, rt with
    | .ok m, .ok s, .ok pm, .ok al, .ok vs, .ok n, .ok k, .ok r, .ok q, .ok t =>
      pure ⟨m, s, pm, al, vs, n.toNat, k, r, q.toNat, t.toNat⟩
    | _, _, _, _, _, _, _, _, _, _ =>
      .error (.issues (issuesOf mode ++ issuesOf slip ++ issuesOf maker ++ issuesOf split ++
        issuesOf venues ++ issuesOf most ++ issuesOf impact ++ issuesOf ratio ++ issuesOf qt ++
        issuesOf rt))
  | _ => .error (.issues [⟨[], .modelType "RouterConfig"⟩])

/-- A number as a configuration document writes it: infinities and NaN become null. -/
def dumpNum (n : Num) : Value := if n.isFinite then .num n else .null

/-- The configuration's fields; `dump` writes infinities and NaN as null, as a document does,
and otherwise numbers are kept as they are. -/
def fields (c : RouterConfig Num) (dump : Bool) : List (String × Value) :=
  let num := fun n => if dump then dumpNum n else .num n
  [("mode", .str c.mode.name), ("max_slippage", num c.maxSlippage),
    ("prefer_maker", .bool c.preferMaker), ("allow_splitting", .bool c.allowSplitting),
    ("enabled_platforms", match c.enabled with
      | some ps => .list (ps.map fun p => .str p.name)
      | none => .null),
    ("max_split_platforms", .int c.maxSplit), ("impact_coefficient", num c.impact),
    ("maker_depth_ratio", num c.makerDepthRatio), ("quote_timeout_ms", .int c.quoteTimeoutMs),
    ("route_timeout_ms", .int c.routeTimeoutMs)]

/-- The configuration as a document. -/
def toValue (c : RouterConfig Num) : Value := .obj (c.fields true)

/-- The configuration with some fields replaced, checked again; unknown fields are ignored. -/
def update (c : RouterConfig Num) (changes : List (String × Value)) : Except Refusal (RouterConfig Num) :=
  validate (.obj (changes.foldl (fun acc (k, v) => Value.setField acc k v) (c.fields false)))

end RouterConfig

end TradeDesk
