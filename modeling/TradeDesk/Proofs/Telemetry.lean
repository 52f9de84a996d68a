import Mathlib
import TradeDesk.Proofs.Legs

/-!
# What the telemetry log records over a run of routing calls

A desk that keeps a log records one event per routing call that found a route or was refused, and
nothing for a call stopped by a fault (`Desk.findBestRoute_step`). Over a run of calls
(`Desk.routeAll`) the log therefore grows by exactly those calls' events, in call order
(`Desk.routeAll_log`), each event saying of its call what `Recorded` lists: it is a found route
exactly when the call returned; a found route carries the validated order's market, side and size,
where the route sends the order, and the route's net price, fees and savings; a refusal carries
its kind, message and warnings, and the market as the caller gave it when the order came as a
typed request, but an empty market when it came as a mapping.

Where a found route sends the order is settled so that the sizes add up to it: one venue takes it
all, or the last leg of a split takes the order less the sum of the legs before it
(`Router.allocation_sizes`, recorded of every found event as `Event.Settled`). In binary64 that
last size is itself rounded, so the logged sizes, summed from the left, come to `h + (size - h)`
for the binary64 sum `h` of the legs before the last, which may miss the order in its last place;
read in exact arithmetic they add up to the order (`Router.allocation_sum`).
-/

namespace TradeDesk

namespace Event

open Numeric

/-- Where a found route's event says the order goes: the whole order to one venue, or legs whose
last size is the order less the binary64 sum of the sizes before it. -/
def Settled : Event Num → Prop
  | .found _ _ size alloc _ _ _ _ =>
    alloc.map (·.2) = [size] ∨ ∃ hs, alloc.map (·.2) = hs ++ [size - sumLeft hs]
  | .failed _ _ _ _ => True

end Event

/-- Whether a routing call leaves an event: every answer but a fault does. -/
def Logged : Except (RouteError Num) (Outcome Num) → Bool
  | .error (.fault _) => false
  | _ => true

/-- What the event of a routing call for the order `o` with answer `r` says of the call. -/
structure Recorded (o : Order) (r : Except (RouteError Num) (Outcome Num)) (e : Event Num) :
    Prop where
  /-- The event is a found route exactly when the call returned one. -/
  kind_iff : e.kind = "route_found" ↔ ∃ out, r = .ok out
  /-- A found route records the validated order, where the route sends it, and the route's net
  price, fees, savings and dropped venues. -/
  found : ∀ out, r = .ok out → ∃ req, Desk.validate o = .ok req ∧
    e = .found req.market req.side req.size (Event.allocation req out.best) out.best.net
      out.best.fees out.savings out.dropped
  /-- A refusal records the market as a typed request gave it (an empty one for a mapping), the
  kind of refusal, its message and its warnings. -/
  failed : ∀ ref, r = .error (.refused ref) →
    e = .failed (if o.typed then o.market else .str "") ref.kind.name ref.message ref.warnings
  /-- A found route's sizes are settled on the order: one venue takes it whole, or the last leg
  takes the order less the binary64 sum of the legs before it. -/
  settled : e.Settled

namespace Recorded

/-- The event of a found route. -/
theorem ofOutcome {o : Order} {req : Request Num} (hv : Desk.validate o = .ok req)
    {out : Outcome Num} (hs : (Event.ofOutcome req out).Settled) :
    Recorded o (.ok out) (Event.ofOutcome req out) where
  kind_iff := ⟨fun _ => ⟨out, rfl⟩, fun _ => rfl⟩
  found out' h := by
    cases h
    exact ⟨req, hv, rfl⟩
  failed _ h := by cases h
  settled := hs

/-- The event of a refusal. -/
theorem ofRefusal (o : Order) (ref : Refusal Num) :
    Recorded o (.error (.refused ref))
      (Event.ofRefusal (if o.typed then o.market else .str "") ref) where
  kind_iff := by
    constructor
    · intro h
      simp [Event.ofRefusal, Event.kind] at h
    · rintro ⟨_, h⟩
      cases h
  found _ h := by cases h
  failed ref' h := by
    cases h
    rfl
  settled := trivial

end Recorded

namespace Router

open Numeric

variable {α : Type} [Numeric α] [Display α] (cfg : RouterConfig α) (table : VenueTable α)
  (req : Request α)

/-- A found route sends the whole order to one venue, or splits it into legs whose last size is the
order less the sum of the sizes before it. -/
theorem allocation_sizes {listing : List Value} {fetch : Except Fault (Venue → Fetched α)}
    {out : Outcome α} (h : route cfg table req listing fetch = .ok out) :
    (Event.allocation req out.best).map (·.2) = [req.size] ∨
      ∃ hs, (Event.allocation req out.best).map (·.2) = hs ++ [req.size - sumLeft hs] := by
  cases hb : out.best with
  | single c => exact .inl rfl
  | split s =>
    obtain ⟨col, ws, a, -, ha, hs⟩ := route_split cfg table req h hb
    rw [Event.allocation, Split.route_legs hs, List.map_map, List.map_map]
    exact .inr (Split.sizes_allocate cfg req.size ha)

end Router

namespace Desk

/-- One routing call: a fault leaves the desk as it was, and any other answer adds its event to
the log, if one is kept, and changes nothing else. -/
theorem findBestRoute_step (d : Desk) (o : Order) :
    (Logged (d.findBestRoute o).2 = false ∧ (d.findBestRoute o).1 = d) ∨
      (Logged (d.findBestRoute o).2 = true ∧
        ∃ e, Recorded o (d.findBestRoute o).2 e ∧ (d.findBestRoute o).1 = d.note e) := by
  unfold findBestRoute
  cases hv : validate o with
  | error err =>
    cases err with
    | refused ref => exact .inr ⟨rfl, _, Recorded.ofRefusal o ref, rfl⟩
    | fault f => exact .inl ⟨rfl, rfl⟩
  | ok req =>
    dsimp only
    cases hp : d.prepare req with
    | error f => exact .inl ⟨rfl, rfl⟩
    | ok cl =>
      obtain ⟨cfg, listing⟩ := cl
      dsimp only
      cases hr : Router.route cfg d.table req listing ((timing cfg).map (d.feed.fetch (.str req.market))) with
      | ok out =>
        exact .inr ⟨rfl, _, Recorded.ofOutcome hv (Router.allocation_sizes cfg d.table req hr), rfl⟩
      | error err =>
        cases err with
        | refused ref => exact .inr ⟨rfl, _, Recorded.ofRefusal o ref, rfl⟩
        | fault f => exact .inl ⟨rfl, rfl⟩

/-- A run of routing calls, each on the desk the previous call left, with their answers. -/
def routeAll : Desk → List Order → Desk × List (Except (RouteError Num) (Outcome Num))
  | d, [] => (d, [])
  | d, o :: os =>
    let (d', r) := d.findBestRoute o
    let (d'', rs) := d'.routeAll os
    (d'', r :: rs)

@[simp] theorem routeAll_nil (d : Desk) : d.routeAll [] = (d, []) := rfl

theorem routeAll_cons (d : Desk) (o : Order) (os : List Order) :
    d.routeAll (o :: os) =
      (((d.findBestRoute o).1.routeAll os).1,
        (d.findBestRoute o).2 :: ((d.findBestRoute o).1.routeAll os).2) := rfl

/-- A run answers each call once. -/
theorem length_routeAll (d : Desk) (os : List Order) : (d.routeAll os).2.length = os.length := by
  induction os generalizing d with
  | nil => rfl
  | cons o os ih => simp [routeAll_cons, ih]

/-- Over a run of routing calls on a desk that keeps a log, the log grows by one event for each
call that found a route or was refused, in call order, each recording its call. -/
theorem routeAll_log (d : Desk) (os : List Order) {evs : List (Event Num)} (h : d.log = some evs) :
    ∃ es, (d.routeAll os).1.log = some (evs ++ es) ∧
      List.Forall₂ (fun c e => Recorded c.1 c.2 e)
        ((os.zip (d.routeAll os).2).filter (fun c => Logged c.2)) es := by
  induction os generalizing d evs with
  | nil => exact ⟨[], by simpa using h, by simp⟩
  | cons o os ih =>
    rw [routeAll_cons]
    rcases findBestRoute_step d o with ⟨hf, hd⟩ | ⟨hl, e, he, hd⟩
    · -- a fault leaves no event and the desk as it was
      rw [hd]
      obtain ⟨es, hlog, hrec⟩ := ih d h
      refine ⟨es, hlog, ?_⟩
      rw [List.zip_cons_cons, List.filter_cons_of_neg (by simpa using hf)]
      exact hrec
    · -- any other answer adds its event, and the rest of the run adds the rest
      have h' : (d.findBestRoute o).1.log = some (evs ++ [e]) := by
        rw [hd, note, h]
        rfl
      obtain ⟨es, hlog, hrec⟩ := ih (d.findBestRoute o).1 h'
      refine ⟨e :: es, by rw [hlog, List.append_assoc, List.singleton_append], ?_⟩
      rw [List.zip_cons_cons, List.filter_cons_of_pos (by simpa using hl)]
      exact List.Forall₂.cons he hrec

end Desk

namespace Router

variable (cfg : RouterConfig ℚ) (table : VenueTable ℚ) (req : Request ℚ)

/-- In exact arithmetic the sizes a found route sends to its venues add up to the order: a single
venue takes all of it, and the legs of a split are the allocation's, which add up to the order. -/
theorem allocation_sum {listing : List Value} {fetch : Except Fault (Venue → Fetched ℚ)}
    {out : Outcome ℚ} (h : route cfg table req listing fetch = .ok out) :
    ((Event.allocation req out.best).map (·.2)).sum = req.size := by
  cases hb : out.best with
  | single c => simp [Event.allocation]
  | split s =>
    obtain ⟨col, ws, a, -, ha, hs⟩ := route_split cfg table req h hb
    have hsize := Split.pos_of_allocate ha
    rw [Event.allocation, Split.route_legs hs, List.map_map, List.map_map]
    exact (Split.allocate_legs cfg req.size _ hsize ha).2.2.2

end Router

namespace Desk

/-- The telemetry of a run of routing calls on a desk that keeps a log. Each call is answered once;
the log grows by one event for each call that found a route or was refused, in call order, and by
nothing for a call stopped by a fault; each event is a found route exactly when its call returned,
a found route carrying the validated order's market, side and size, where the route sends it and
the route's net price, fees and savings, and a refusal carrying the market as a typed request gave
it (an empty market for an order given as a mapping), the kind of refusal and its warnings. A found
route logs the whole order at one venue, or legs whose last size is the order less the binary64
sum of the legs before it, so that the logged sizes sum to that binary64 sum plus the rest; in
exact arithmetic they add up to the order. -/
theorem routeAll_telemetry (d : Desk) (os : List Order) {evs : List (Event Num)}
    (h : d.log = some evs) :
    (d.routeAll os).2.length = os.length ∧
      (∃ es, (d.routeAll os).1.log = some (evs ++ es) ∧
        List.Forall₂ (fun c e => Recorded c.1 c.2 e)
          ((os.zip (d.routeAll os).2).filter (fun c => Logged c.2)) es) ∧
      ∀ (cfg : RouterConfig ℚ) (table : VenueTable ℚ) (req : Request ℚ) (listing : List Value)
        (fetch : Except Fault (Venue → Fetched ℚ)) (out : Outcome ℚ),
        Router.route cfg table req listing fetch = .ok out →
          ((Event.allocation req out.best).map (·.2)).sum = req.size :=
  ⟨length_routeAll d os, routeAll_log d os h,
    fun cfg table req _ _ _ hr => Router.allocation_sum cfg table req hr⟩

/-- A fresh log over one venue's quote, and two refused orders for its market, one typed and one
given as a mapping. -/
theorem routeAll_telemetry_of_refusals :
    let d : Desk := ⟨{ Feed.empty with
        quotes := [((.str "m1", .kalshi), ⟨.float 0.5, .float 1000.0⟩)] },
      .config RouterConfig.standard, VenueTable.standard, some []⟩
    let os : List Order := [⟨.str "m1", .str "hold", .int 10, true⟩,
      ⟨.str "m1", .str "hold", .int 10, false⟩]
    d.log = some [] ∧ (d.routeAll os).2.length = os.length ∧
      (∃ es, (d.routeAll os).1.log = some ([] ++ es) ∧
        List.Forall₂ (fun c e => Recorded c.1 c.2 e)
          ((os.zip (d.routeAll os).2).filter (fun c => Logged c.2)) es) ∧
      ∀ (cfg : RouterConfig ℚ) (table : VenueTable ℚ) (req : Request ℚ) (listing : List Value)
        (fetch : Except Fault (Venue → Fetched ℚ)) (out : Outcome ℚ),
        Router.route cfg table req listing fetch = .ok out →
          ((Event.allocation req out.best).map (·.2)).sum = req.size := by
  intro d os
  exact ⟨rfl, routeAll_telemetry d os rfl⟩

end Desk

end TradeDesk
