import Mathlib
import TradeDesk.Proofs.Route
import TradeDesk.Routing.Desk

/-!
# Finding the best route for an order

A desk answers an order in one of four ways, read by `Router.verdict`: an invalid request, no
liquidity, a route, or a fault. `Desk.findBestRoute_verdict` says which, for a desk set up with a
configuration, over a feed whose verbatim answers read without a fault, and for an order whose size
is not a whole number too large for binary64:

* an order that fails its checks is an invalid request; `Order.Accepts` says which orders pass
  them (`Desk.validate_eq_ok_iff`): a non-empty market text, a side naming buy or sell once
  trimmed and lower-cased, and a size that converts to a finite binary64 above zero;
* a valid order whose market no enabled venue lists is an invalid request;
* otherwise the time limits are converted to binary64 seconds first, and limits beyond binary64
  are a fault, although the order is valid and has a venue to ask;
* within them, the verdict is the one `Router.verdictOf` reads off the venues' answers, and a
  route found holds the ranked candidates within the cap, the route `Router.chosen` among the
  candidates, and the savings of that route against the ranked ones.

Asking a venue never faults over such a feed (`Feed.fetch_isFault`), and a market given as text is
always listed (`Feed.listing_str`), so these are the only cases.
-/

namespace TradeDesk

namespace Feed

/-- A market given as text can be a key, so the feed lists its venues. -/
theorem listing_str (f : Feed) (m : String) : ∃ listing, f.listing (.str m) = .ok listing :=
  ⟨_, rfl⟩

/-- A feed whose verbatim answers all read without a fault never faults when a venue is asked:
every other answer is a quote or a drop. -/
theorem fetch_isFault (f : Feed) (hraw : ∀ e ∈ f.raw, (readQuote e.2).isFault = false)
    (market : Value) (t : Timing) (v : Venue) : (f.fetch market t v).isFault = false := by
  unfold fetch
  split
  · rfl
  dsimp only
  split
  · rfl
  split
  · next answer ha =>
    -- The verbatim answer found is one of the feed's entries.
    obtain ⟨e, he, rfl⟩ : ∃ e ∈ f.raw, e.2 = answer := by
      obtain ⟨e, he, rfl⟩ := Option.map_eq_some_iff.1 ha
      exact ⟨e, List.mem_of_find?_eq_some he, rfl⟩
    exact hraw e he
  split
  · rfl
  -- Unavailable, the installed quote, or not listed.
  split <;> (try split) <;> rfl

end Feed

namespace Order

/-- An order that checks into the request `req` (see `Desk.validate`): a market that is a
non-empty text, a side text naming buy or sell once trimmed and lower-cased, and a size that
converts to a finite binary64 above zero. -/
structure Accepts (o : Order) (req : Request Num) : Prop where
  market : o.market = .str req.market
  market_ne : req.market ≠ ""
  side : ∃ s, o.side = .str s ∧ Side.ofName? (Text.lower (Text.trim s)) = some req.side
  size : ∃ x : Float, o.size.toFloat? = .ok x ∧ x.isFinite = true ∧ ¬ x ≤ 0.0 ∧
    req.size = .float x

end Order

namespace Desk

/-- Checking an order accepts it as a request that `Order.Accepts` describes, or refuses it as
invalid, or meets a size that is a whole number too large for binary64. -/
theorem validate_cases (o : Order) :
    (∃ req, validate o = .ok req ∧ o.Accepts req) ∨
      (∃ r, validate o = .error (.refused r) ∧ r.kind = .invalidRequest) ∨
      (validate o = .error (.fault .tooLarge) ∧ o.size.toFloat? = .error .tooLarge) := by
  obtain ⟨market, side, size, typed⟩ := o
  unfold validate
  dsimp only
  -- The market: a non-empty text.
  split
  case h_2 => exact .inr (.inl ⟨_, rfl, rfl⟩)
  next _ m =>
  split
  · exact .inr (.inl ⟨_, rfl, rfl⟩)
  next hm =>
  -- The side, named once trimmed and lower-cased.
  split
  case h_2 => exact .inr (.inl ⟨_, rfl, rfl⟩)
  next sd hs =>
  -- The size: a number, finite and above zero.
  split
  case h_2 hx => exact .inr (.inr ⟨rfl, hx⟩)
  case h_3 => exact .inr (.inl ⟨_, rfl, rfl⟩)
  next x hx =>
  simp only [pure_bind]
  split
  · exact .inr (.inl ⟨_, rfl, rfl⟩)
  next hc =>
  refine .inl ⟨_, rfl, ?_⟩
  obtain ⟨s, rfl, hs⟩ :
      ∃ s, side = .str s ∧ Side.ofName? (Text.lower (Text.trim s)) = some sd := by
    split at hs
    · exact ⟨_, rfl, hs⟩
    · cases hs
  simp only [Bool.or_eq_true, Bool.not_eq_true', decide_eq_true_eq, not_or, Bool.not_eq_false] at hc
  exact ⟨rfl, mt String.isEmpty_iff.2 hm, ⟨s, rfl, hs⟩, ⟨x, hx, hc.1, hc.2, rfl⟩⟩

/-- The checks of an order accept exactly the orders that `Order.Accepts` describes. -/
theorem validate_eq_ok_iff (o : Order) (req : Request Num) :
    validate o = .ok req ↔ o.Accepts req := by
  constructor
  · intro h
    rcases validate_cases o with ⟨req', h', ha⟩ | ⟨r, h', -⟩ | ⟨h', -⟩ <;> rw [h'] at h <;>
      cases h
    exact ha
  · obtain ⟨market, side, size, typed⟩ := o
    rintro ⟨hm, hne, ⟨s, hs, hside⟩, ⟨x, hx, hfin, hpos, hsize⟩⟩
    obtain ⟨m, sd, z⟩ := req
    dsimp only at hm hs hx hne hside hsize
    subst hm hs hsize
    have he : m.isEmpty = false := String.isEmpty_eq_false_iff.2 hne
    unfold validate
    simp only [he, hside, hx, hfin, decide_eq_false hpos, Bool.false_eq_true, if_false, pure_bind,
      Bool.not_true, Bool.false_or]
    rfl

/-- A desk set up with a configuration prepares an order with it and the feed's listing. -/
theorem prepare_config (d : Desk) (cfg : RouterConfig Num) (hd : d.setup = .config cfg)
    (req : Request Num) (listing : List Value)
    (hl : d.feed.listing (.str req.market) = .ok listing) :
    d.prepare req = .ok (cfg, listing) := by
  unfold prepare
  rw [hl, hd]
  rfl

/-- An order the checks refuse is answered with the refusal. -/
theorem findBestRoute_of_error (d : Desk) (o : Order) (e : RouteError Num)
    (hv : validate o = .error e) : (d.findBestRoute o).2 = .error e := by
  unfold findBestRoute
  rw [hv]
  cases e <;> rfl

/-- A valid order that the desk prepares is answered with its route. -/
theorem findBestRoute_of_ok (d : Desk) (o : Order) (req : Request Num) (cfg : RouterConfig Num)
    (listing : List Value) (hv : validate o = .ok req) (hp : d.prepare req = .ok (cfg, listing)) :
    (d.findBestRoute o).2 =
      Router.route cfg d.table req listing ((timing cfg).map (d.feed.fetch (.str req.market))) := by
  unfold findBestRoute
  rw [hv]
  dsimp only
  rw [hp]
  dsimp only
  -- The log aside, the route's answer is passed on as it is.
  cases Router.route cfg d.table req listing ((timing cfg).map (d.feed.fetch (.str req.market)))
    with
  | ok out => rfl
  | error e => cases e <;> rfl

/-- What a desk set up with a configuration answers an order whose size is not a whole number too
large for binary64, over a feed whose verbatim answers read without a fault. An order that fails
its checks is an invalid request. A valid order is an invalid request when no enabled venue lists
its market, and a fault when the time limits are beyond binary64; otherwise its verdict is read off
the candidates, and a route found holds the ranked candidates within the cap, the route chosen
among the candidates, and that route's savings against the ranked ones. -/
theorem findBestRoute_verdict (d : Desk) (cfg : RouterConfig Num) (hd : d.setup = .config cfg)
    (hraw : ∀ e ∈ d.feed.raw, (Feed.readQuote e.2).isFault = false) (o : Order)
    (hsize : o.size.toFloat? ≠ .error .tooLarge) :
    ((∀ req, ¬ o.Accepts req) → Router.verdict (d.findBestRoute o).2 = .invalid) ∧
    ∀ req, o.Accepts req → ∃ listing, d.feed.listing (.str req.market) = .ok listing ∧
      let ps := (Router.targets cfg.enabled listing).1
      let fetch := d.feed.fetch (.str req.market)
      Router.verdict (d.findBestRoute o).2 =
        (match timing cfg with
          | .error f => if ps.isEmpty then .invalid else .fault f
          | .ok t => Router.verdictOf cfg d.table req ps (fetch t)) ∧
      ∀ out, (d.findBestRoute o).2 = .ok out → ∃ t, timing cfg = .ok t ∧
        let cands := Router.usableCandidates cfg d.table req (Router.answers (fetch t) ps)
        out.routes = Rank.rank cfg.mode req.side cfg.preferMaker (Router.underCap cfg cands) ∧
          Router.chosen cfg d.table req cands = some out.best ∧
          out.savings = Router.savings out.best.net out.routes req := by
  constructor
  · intro hna
    rcases validate_cases o with ⟨req, -, ha⟩ | ⟨r, hv, hk⟩ | ⟨-, hz⟩
    · exact absurd ha (hna req)
    · rw [findBestRoute_of_error d o _ hv]
      simp [Router.verdict, hk]
    · exact absurd hz hsize
  · intro req ha
    obtain ⟨listing, hl⟩ := Feed.listing_str d.feed req.market
    refine ⟨listing, hl, ?_⟩
    dsimp only
    rw [findBestRoute_of_ok d o req cfg listing ((validate_eq_ok_iff o req).2 ha)
      (prepare_config d cfg hd req listing hl)]
    have hf := Feed.fetch_isFault d.feed hraw (.str req.market)
    cases ht : timing cfg with
    | error f =>
      -- Time limits beyond binary64: a fault as soon as there is a venue to ask.
      have hv := Router.verdict_route_error cfg d.table req listing f
      refine ⟨hv, fun out h => ?_⟩
      have h' : Router.route cfg d.table req listing (.error f) = .ok out := h
      rw [h'] at hv
      split at hv <;> cases hv
    | ok t =>
      have hr := Router.route_spec cfg d.table req listing _ (hf t)
      exact ⟨hr.1, fun out h => ⟨t, rfl, hr.2 out h⟩⟩

/-- A desk with the standard configuration and a feed of one quote, and an order to buy `100`. -/
theorem findBestRoute_verdict_one_quote :
    let d : Desk := ⟨{ Feed.empty with
        quotes := [((.str "m1", .kalshi), ⟨.float 0.5, .float 1000.0⟩)] },
      .config RouterConfig.standard, VenueTable.standard, none⟩
    let o : Order := ⟨.str "m1", .str "buy", .num (.float 100.0), false⟩
    let cfg : RouterConfig Num := RouterConfig.standard
    d.setup = .config cfg ∧ (∀ e ∈ d.feed.raw, (Feed.readQuote e.2).isFault = false) ∧
    o.size.toFloat? ≠ .error .tooLarge ∧
    ((∀ req, ¬ o.Accepts req) → Router.verdict (d.findBestRoute o).2 = .invalid) ∧
    ∀ req, o.Accepts req → ∃ listing, d.feed.listing (.str req.market) = .ok listing ∧
      let ps := (Router.targets cfg.enabled listing).1
      let fetch := d.feed.fetch (.str req.market)
      Router.verdict (d.findBestRoute o).2 =
        (match timing cfg with
          | .error f => if ps.isEmpty then .invalid else .fault f
          | .ok t => Router.verdictOf cfg d.table req ps (fetch t)) ∧
      ∀ out, (d.findBestRoute o).2 = .ok out → ∃ t, timing cfg = .ok t ∧
        let cands := Router.usableCandidates cfg d.table req (Router.answers (fetch t) ps)
        out.routes = Rank.rank cfg.mode req.side cfg.preferMaker (Router.underCap cfg cands) ∧
          Router.chosen cfg d.table req cands = some out.best ∧
          out.savings = Router.savings out.best.net out.routes req := by
  intro d o cfg
  have hraw : ∀ e ∈ d.feed.raw, (Feed.readQuote e.2).isFault = false := fun e he => nomatch he
  have hsize : o.size.toFloat? ≠ .error .tooLarge := fun h => nomatch h
  exact ⟨rfl, hraw, hsize, findBestRoute_verdict d cfg rfl hraw o hsize⟩

end Desk

end TradeDesk
