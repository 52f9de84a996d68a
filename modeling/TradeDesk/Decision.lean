import TradeDesk.Sizing.Sizer
import TradeDesk.Routing.Desk

/-!
# Sizing, then routing

A `Decider` pairs a sizing session with a routing desk. `Decider.decide` sizes the stake for a
signal first; a stake of zero or less is skipped without asking the desk, and any other stake is
routed as a typed order for the market and side. A refusal or fault of the desk is the decision's
error. Deciding never changes the sizing session; `Decider.recordOutcome` books a trade there
without a category.
-/

namespace TradeDesk

/-- A sized and, unless skipped, routed trade. -/
structure Decision where
  sizing : Sizing Num
  routing : Option (Outcome Num)
  skipped : Option String

/-- Whether a decision can be executed: it was routed. -/
def Decision.executable (d : Decision) : Bool := d.routing.isSome

/-- Why a decision failed: the sizing's fault, or the desk's error. -/
inductive DecisionError where
  | fault (f : Fault)
  | routing (e : RouteError Num)

/-- A sizing session and a routing desk. -/
structure Decider where
  sizer : Sizer
  desk : Desk

namespace Decider

/-- The decision for a signal (see the module note). -/
def decide (d : Decider) (market side edge p : Value) : Decider × Except DecisionError Decision :=
  match d.sizer.calculate edge p with
  | .error f => (d, .error (.fault f))
  | .ok s =>
    if s.position.le (.int 0) then (d, .ok ⟨s, none, some "position size is 0"⟩)
    else
      let (desk, r) := d.desk.findBestRoute ⟨market, side, .num s.position, true⟩
      ({ d with desk }, match r with
        | .ok o => .ok ⟨s, some o, none⟩
        | .error e => .error (.routing e))

/-- A trade's outcome booked in the sizing session, without a category. -/
def recordOutcome (d : Decider) (outcome pnl : Value) : Decider × Except SizerError Unit :=
  let (s, r) := d.sizer.recordTrade outcome pnl .null
  ({ d with sizer := s }, r)

end Decider

/-- A decision as a document. -/
def Decision.toValue (d : Decision) : Value :=
  .obj [("sizing", d.sizing.toValue), ("routing", (d.routing.map Outcome.toValue).getD .null),
    ("skipped_reason", (d.skipped.map .str).getD .null), ("executable", .bool d.executable)]

end TradeDesk
