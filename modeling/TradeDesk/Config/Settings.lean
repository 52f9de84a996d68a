import TradeDesk.Config.Sizing
import TradeDesk.Config.Router
import TradeDesk.Venue.Table

/-!
# Settings

The whole configuration: the initial bankroll, the sizing and router sections, and per-venue
overrides of fees and latency (`Override`). `Settings.validate` checks a document section by
section, in that order, and gathers every issue with its full location. Venue names in the
overrides are resolved once their entries are valid; a later entry for the same venue replaces an
earlier one.
-/

namespace TradeDesk

/-- A patch over one venue's fees and latency; an absent field keeps the default. -/
structure Override where
  takerBps : Option Num
  makerBps : Option Num
  latencyMs : Option Num

/-- The whole configuration. -/
structure Settings where
  initialBankroll : Num
  sizing : SizingConfig Num
  router : RouterConfig Num
  venues : List (Venue × Override)

namespace Settings

open Config

/-- An optional binary64 field: null, or a number within bounds. -/
def optionalFloat (bounds : List Bound) (v : Value) : Except Problem (Option Num) :=
  match v with
  | .null => .ok none
  | _ => (floatField bounds v).map some

/-- One venue override from a document. -/
def validateOverride (doc : Value) : Except (List Issue) Override :=
  match doc with
  | .obj _ | .map _ =>
    let t := field doc "taker_bps" none (optionalFloat [])
    let m := field doc "maker_bps" none (optionalFloat [])
    let l := field doc "latency_ms" none (optionalFloat [.ge (.int 0)])
    match t, m, l with
    | .ok t, .ok m, .ok l => .ok ⟨t, m, l⟩
    | _, _, _ => .error (SizingConfig.issuesOf t ++ SizingConfig.issuesOf m ++ SizingConfig.issuesOf l)
  | _ => .error [⟨[], .modelType "VenueOverride"⟩]

/-- Sets a venue's override: in place if present, else at the end. -/
def setVenue (vs : List (Venue × Override)) (v : Venue) (o : Override) : List (Venue × Override) :=
  if vs.any (·.1 == v) then vs.map fun (w, p) => if w == v then (w, o) else (w, p) else vs ++ [(v, o)]

/-- Where a key of a mapping is reported: a text as itself with each lone surrogate replaced, a
truth value as `1` or `0`, anything else in source-text form. -/
def keyLoc : Value → String
  | .str s => Unicode.lossy s
  | .bool b => if b then "1" else "0"
  | v => v.repr

/-- The entries of an object or mapping, keys as values. -/
def entriesOf : Value → List (Value × Value)
  | .obj fs => fs.map fun (k, v) => (.str k, v)
  | .map es => es
  | _ => []

/-- The venue overrides from a document: every key a text (a byte string counts as its UTF-8 text)
and every entry valid, then every name resolved. A key that is not a text is reported under its
place with `[key]`. -/
def validateVenues (doc : Value) : Except (List Issue) (List (Venue × Override)) :=
  if !doc.isDict then .error [⟨[], .dictType⟩]
  else
    let checked : List (Except Problem String × List Issue × Except (List Issue) Override) :=
      (entriesOf doc).map fun (k, e) =>
        let here := keyLoc k
        let name : Except Problem String := match k with
          | .str s => .ok s
          | .bytes bs => match Text.utf8? bs with
            | some s => .ok s
            | none => .error .stringUnicode
          | _ => .error .stringType
        let keyIssues : List Issue := match name with
          | .ok _ => []
          | .error p => [⟨[here, "[key]"], p⟩]
        (name, keyIssues, (validateOverride e).mapError fun is => is.map (Issue.under here))
    let issues := checked.flatMap fun (_, ks, r) => ks ++ SizingConfig.issuesOf r
    if !issues.isEmpty then .error issues
    else
      checked.foldlM (fun acc (k, _, r) => match r, k with
        | .ok o, .ok name => match Venue.resolve (.str name) with
          | .ok v => .ok (setVenue acc v o)
          | .error u => .error [⟨[], .unknownPlatform u.message⟩]
        | .error e, _ => .error e
        | _, .error p => .error [⟨[], p⟩]) []

/-- Why settings were refused: located issues, or a fault that stopped validation. -/
abbrev Refusal := RouterConfig.Refusal

/-- The issues of a section placed under its name. -/
def under {β : Type} (k : String) (r : Except (List Issue) β) : Except (List Issue) β :=
  r.mapError fun is => is.map (Issue.under k)

/-- A section that is an object checked by `check`, or the default when absent. -/
def subsection {β : Type} (doc : Value) (k : String) (default : β) (model : String)
    (check : Value → Except (List Issue) β) : Except (List Issue) β :=
  match doc.get? k with
  | none => .ok default
  | some v => if v.isDict then under k (check v) else .error [⟨[k], .modelType model⟩]

/-- Settings from a document (see the module note). -/
def validate (doc : Value) : Except Refusal Settings :=
  match doc with
  | .obj _ | .map _ => do
    let bank := field doc "initial_bankroll" (1000.0 : Num) (floatField [.gt (.int 0)])
    let sizing := subsection doc "sizing" SizingConfig.standard "SizingConfig" SizingConfig.validate
    let router : Except (List Issue) (RouterConfig Num) ← match doc.get? "router" with
      | none => pure (.ok RouterConfig.standard)
      | some v =>
        if v.isDict then match RouterConfig.validate v with
          | .ok c => pure (.ok c)
          | .error (.issues is) => pure (.error (is.map (Issue.under "router")))
          | .error (.fault f) => .error (.fault f)
        else pure (.error [⟨["router"], .modelType "RouterConfig"⟩])
    let venues : Except (List Issue) (List (Venue × Override)) := match doc.get? "venues" with
      | none => .ok []
      | some v => under "venues" (validateVenues v)
    match bank, sizing, router, venues with
    | .ok b, .ok s, .ok r, .ok vs => pure ⟨b, s, r, vs⟩
    | _, _, _, _ =>
      .error (.issues (SizingConfig.issuesOf bank ++ SizingConfig.issuesOf sizing ++
        SizingConfig.issuesOf router ++ SizingConfig.issuesOf venues))
  | _ => .error (.issues [⟨[], .modelType "Settings"⟩])

/-- An optional number as a document. -/
def optNum (x : Option Num) (dump : Bool) : Value :=
  match x with
  | some n => if dump then RouterConfig.dumpNum n else .num n
  | none => .null

/-- An override as a document; `dump` writes infinities and NaN as null. -/
def overrideValue (o : Override) (dump : Bool) : Value :=
  .obj [("taker_bps", optNum o.takerBps dump), ("maker_bps", optNum o.makerBps dump),
    ("latency_ms", optNum o.latencyMs dump)]

/-- The settings as a document; `dump` writes infinities and NaN as null, as a JSON document does,
and otherwise numbers are kept as they are. -/
def toValue (s : Settings) (dump : Bool) : Value :=
  .obj [("initial_bankroll", optNum (some s.initialBankroll) dump), ("sizing", s.sizing.toValue),
    ("router", .obj (s.router.fields dump)),
    ("venues", .obj (s.venues.map fun (v, o) => (v.name, overrideValue o dump)))]

/-- The venue table the settings describe: the defaults with each override applied in order. -/
def venueTable (s : Settings) : Except OverrideError (VenueTable Num) :=
  VenueTable.standard.override (.obj (s.venues.map fun (v, o) => (v.name, overrideValue o false)))

end Settings

end TradeDesk
