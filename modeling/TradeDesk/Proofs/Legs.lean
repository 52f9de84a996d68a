import Mathlib
import TradeDesk.Proofs.Allocation
import TradeDesk.Proofs.Partition

/-!
# What the legs of a split route take

When no candidate can take a whole order within the slippage cap and splitting is allowed, routing
allocates the order over all the ranked candidates (`Split.allocate`) and prices each leg as a
candidate of its own at the leg's size (`Split.route`). A route found this way came from such an
allocation (`Router.route_split`), and its legs are the allocation's, each priced at its size
(`Split.route_legs`).

Read in exact arithmetic (`route_split_legs`): every leg is priced at its own size on its own venue.
Every leg but the last takes exactly its venue's capacity under the cap, so its slippage is within
the cap (`Cost.slippagePercent_le`) and its size within the quoted depth. The last leg takes the
rest of the order. The allocation accepts the order once what is left is within a billionth of it,
and the last leg absorbs that rest, so it may take more than its venue's capacity, by at most a
billionth of the order, and slip past the cap by as much as that share of its depth costs.

Messages quote an exact value as they would quote its nearest binary64 value (`displayRat`).
-/

namespace TradeDesk

/-- An exact value is written into messages as its nearest binary64 value is. -/
instance displayRat : Display ℚ :=
  ⟨fun places x => Display.fixed places (Binary64.nearest (decide (x.num < 0)) x.num.natAbs x.den),
    fun x => Display.text (Binary64.nearest (decide (x.num < 0)) x.num.natAbs x.den)⟩

namespace Split

variable {α : Type} [Numeric α]

/-- The legs of a combined route are the legs it was given. -/
theorem combine_legs {legs : List (Leg α)} {s : Split α} (h : combine legs = some s) :
    s.legs = legs := by
  simp only [combine, bind, Option.bind_eq_some_iff, pure, Option.some.injEq] at h
  obtain ⟨_, _, _, _, rfl⟩ := h
  rfl

/-- Each leg of a routed allocation is its candidate's venue and size, priced at that size. -/
theorem route_legs {price : Candidate α → α → Candidate α} {a : List (Candidate α × α)}
    {s : Split α} (h : route price a = some s) :
    s.legs = a.map fun x => ⟨x.1.venue, x.2, price x.1 x.2⟩ :=
  combine_legs h

/-- An allocation that succeeds is of a positive order: over an order of no size the walk is over
before the first venue, with no leg. -/
theorem pos_of_allocate {ranked : List (Candidate ℚ)} {size : ℚ} {cfg : RouterConfig ℚ}
    {legs : List (Candidate ℚ × ℚ)} (h : allocate ranked size cfg = some legs) : 0 < size := by
  by_contra hs
  have hle : size ≤ tolerance * size := by
    have := mul_nonneg (sub_nonneg.2 tolerance_lt_one.le) (neg_nonneg.2 (not_lt.1 hs))
    linarith
  have hd : (⟨size, []⟩ : Walk ℚ).done cfg size = true := by
    simp [Walk.done, hle]
  unfold allocate at h
  rw [Walk.foldl_of_done cfg size hd] at h
  simp at h

end Split

namespace Cost

/-- An order within a venue's capacity under the cap, up to `t`, slips at most past the cap by what
`t` of the venue's depth costs; exactly within the cap when `t` is zero. -/
theorem slippagePercent_le {x depth cap impact t : ℚ} (hk : 0 < impact) (hd : 0 < depth)
    (hx : x ≤ capacity depth cap impact + t) :
    slippagePercent x depth impact ≤ cap + 100 * impact * t / depth := by
  have hcap : capacity depth cap impact ≤ depth * cap / (100 * impact) := by
    simp only [capacity, Numeric.smaller_rat]
    norm_num
  have hk' : 0 < 100 * impact := by positivity
  calc slippagePercent x depth impact = 100 * impact * x / depth := by
        norm_num [slippagePercent]
        ring
    _ ≤ 100 * impact * (depth * cap / (100 * impact) + t) / depth := by gcongr; linarith
    _ = cap + 100 * impact * t / depth := by field_simp

end Cost

namespace Router

variable {α : Type} [Numeric α] [Display α] (cfg : RouterConfig α) (table : VenueTable α)
  (req : Request α)

omit [Display α] in
/-- A candidate is priced at the size it is given. -/
@[simp] theorem candidate_size (p : Venue) (q : Quote α) (size : α) :
    (candidate cfg table req p q size).size = size := rfl

omit [Display α] in
/-- A candidate is priced against the depth of its quote. -/
@[simp] theorem candidate_depth (p : Venue) (q : Quote α) (size : α) :
    (candidate cfg table req p q size).depth = q.depth := rfl

omit [Display α] in
/-- A candidate slips as its size against its quote's depth makes it, whatever the side. -/
@[simp] theorem candidate_slippage (p : Venue) (q : Quote α) (size : α) :
    (candidate cfg table req p q size).slippage = Cost.slippagePercent size q.depth cfg.impact := by
  unfold candidate Candidate.build Cost.estimate
  cases req.side <;> rfl

/-- A split found over the candidates above the cap is the routed allocation of the order over
their ranking. -/
theorem overCap_split {cands : List (Candidate α)} {ws : List String} {dropped : List (Venue × String)}
    {s : Split α} {reason : Aspect} {ws' : List String}
    (h : overCap cfg table req cands ws dropped = .ok (.split s, reason, ws')) :
    ∃ a, Split.allocate (Rank.rank cfg.mode req.side cfg.preferMaker cands) req.size cfg = some a ∧
      Split.route (fun c sz => candidate cfg table req c.venue ⟨c.quoted, c.depth⟩ sz) a = some s := by
  unfold overCap at h
  cases hs : cfg.allowSplitting
  case false =>
    -- Without splitting the route is a single candidate, if any.
    simp only [hs, Bool.false_eq_true, if_false] at h
    split at h <;> simp at h
  simp only [hs, if_true] at h
  cases ha : Split.allocate (Rank.rank cfg.mode req.side cfg.preferMaker cands) req.size cfg with
  | none => simp [ha] at h
  | some a =>
    cases hr : Split.route (fun c sz => candidate cfg table req c.venue ⟨c.quoted, c.depth⟩ sz) a with
    | none => simp [ha, hr] at h
    | some sp =>
      simp only [ha, hr, Except.ok.injEq, Prod.mk.injEq, Route.split.injEq] at h
      exact ⟨a, rfl, h.1 ▸ hr⟩

/-- A split route comes from the allocation of the order over the ranking of all the candidates
priced from the collected quotes. -/
theorem route_split {listing : List Value} {fetch : Except Fault (Venue → Fetched α)}
    {out : Outcome α} {s : Split α} (h : route cfg table req listing fetch = .ok out)
    (hs : out.best = .split s) :
    ∃ col ws a, collect cfg req listing fetch = .ok (col, ws) ∧
      Split.allocate (Rank.rank cfg.mode req.side cfg.preferMaker
        (price cfg table req col.quotes).candidates) req.size cfg = some a ∧
      Split.route (fun c sz => candidate cfg table req c.venue ⟨c.quoted, c.depth⟩ sz) a = some s := by
  cases hc : collect cfg req listing fetch with
  | error e =>
    rw [route_of_collect_error cfg table req hc] at h
    cases h
  | ok v =>
  obtain ⟨col, ws⟩ := v
  refine ⟨col, ws, ?_⟩
  unfold route at h
  rw [hc] at h
  simp only [bind, Except.bind] at h
  by_cases hq : col.quotes.isEmpty
  · simp [hq, throw, throwThe, MonadExceptOf.throw] at h
  simp only [hq, Bool.false_eq_true, if_false] at h
  generalize hp : price cfg table req col.quotes = priced at h
  by_cases hcand : priced.candidates.isEmpty
  · simp [hcand, throw, throwThe, MonadExceptOf.throw] at h
  simp only [hcand, Bool.false_eq_true, if_false] at h
  cases hr : Rank.rank cfg.mode req.side cfg.preferMaker (withinCap cfg priced.candidates).1 with
  | cons best rest =>
    -- A candidate within the cap is the route: not a split.
    simp only [hr, pure, Except.pure, Except.ok.injEq] at h
    rw [← h] at hs
    cases hs
  | nil =>
    -- No candidate within the cap: the route is what `overCap` gives.
    simp only [hr] at h
    split at h
    · cases h
    · next v ho =>
      obtain ⟨best, reason, warnings⟩ := v
      simp only [pure, Except.pure, Except.ok.injEq] at h
      rw [← h] at hs
      cases hs
      obtain ⟨a, ha, hroute⟩ := overCap_split cfg table req ho
      exact ⟨a, rfl, ha, hroute⟩

section Exact

variable (cfg : RouterConfig ℚ) (table : VenueTable ℚ) (req : Request ℚ)

/-- A candidate priced from a usable quote has a positive depth. -/
theorem depth_pos_of_mem_price {quotes : List (Venue × Quote ℚ)} {c : Candidate ℚ}
    (hc : c ∈ (price cfg table req quotes).candidates) : 0 < c.depth := by
  rw [price_candidates] at hc
  obtain ⟨⟨p, q⟩, -, hpq⟩ := List.mem_filterMap.1 hc
  by_cases hu : usable q
  · simp only [hu, if_true, Option.some.injEq] at hpq
    subst hpq
    simp only [usable, Numeric.finite_rat, Numeric.zero_rat, Bool.true_and, Bool.and_eq_true,
      decide_eq_true_eq] at hu
    exact hu.2
  · simp [hu] at hpq

end Exact

end Router

open Split in
/-- In exact arithmetic, under a router configuration with a positive impact coefficient, every
split route that routing finds, whatever the order, the listing and the venues' answers, has a last
leg, and its legs take this much. Each leg is priced at its own size on its own venue, and is
positive. Every leg but the last takes exactly its venue's capacity under the slippage cap, so it
slips within the cap and stays within the quoted depth. The last leg takes at most a billionth of
the order more than its venue's capacity, and slips past the cap by at most what that share of the
order costs against its depth. -/
theorem route_split_legs (cfg : RouterConfig ℚ) (hk : 0 < cfg.impact) (table : VenueTable ℚ)
    (req : Request ℚ) (listing : List Value) (fetch : Except Fault (Venue → Fetched ℚ))
    (out : Outcome ℚ) (s : Split ℚ) (h : Router.route cfg table req listing fetch = .ok out)
    (hs : out.best = .split s) :
    ∃ init last, s.legs = init ++ [last] ∧
      (∀ l ∈ s.legs, l.candidate.size = l.size ∧ l.candidate.venue = l.venue ∧ 0 < l.size) ∧
      (∀ l ∈ init, l.size = Cost.capacity l.candidate.depth cfg.maxSlippage cfg.impact ∧
        l.candidate.slippage ≤ cfg.maxSlippage ∧ l.size ≤ l.candidate.depth) ∧
      last.size ≤ Cost.capacity last.candidate.depth cfg.maxSlippage cfg.impact +
        tolerance * req.size ∧
      last.candidate.slippage ≤
        cfg.maxSlippage + 100 * cfg.impact * (tolerance * req.size) / last.candidate.depth := by
  obtain ⟨col, ws, a, -, ha, hr⟩ := Router.route_split cfg table req h hs
  have hsize := pos_of_allocate ha
  obtain ⟨-, hpos, hsub, -⟩ := allocate_legs cfg req.size _ hsize ha
  obtain ⟨pre, c, -, -, hfull, -, rfl⟩ := allocate_eq_some cfg req.size _ hsize ha
  -- The allocated candidates are ranked candidates, priced from usable quotes.
  have hdepth : ∀ d ∈ pre ++ [c], 0 < d.depth := by
    intro d hd
    have hd' := hsub.subset (by rwa [List.map_append, candidates_fullLegs])
    exact Router.depth_pos_of_mem_price cfg table req ((Rank.rank_perm _ _ _ _).mem_iff.1 hd')
  have hc := hdepth c (List.mem_append_right _ (List.mem_singleton_self c))
  have hlast : req.size - reach cfg pre ≤ capacityOf cfg c + tolerance * req.size := by
    rw [reach_append, reach_cons, reach_nil, add_zero] at hfull
    linarith [show (1 - tolerance) * req.size = req.size - tolerance * req.size by ring]
  -- Each allocated candidate and size becomes a leg priced at that size.
  let leg : Candidate ℚ × ℚ → Leg ℚ := fun x =>
    ⟨x.1.venue, x.2, Router.candidate cfg table req x.1.venue ⟨x.1.quoted, x.1.depth⟩ x.2⟩
  have hlegs : s.legs = (fullLegs cfg pre).map leg ++ [leg (c, req.size - reach cfg pre)] := by
    rw [route_legs hr, List.map_append, List.map_singleton]
  refine ⟨_, _, hlegs, fun l hl => ?_, fun l hl => ?_, by exact hlast,
    by simpa [leg] using Cost.slippagePercent_le hk hc hlast⟩
  · -- Every leg is its allocated size, priced at that size.
    rw [route_legs hr] at hl
    obtain ⟨x, hx, rfl⟩ := List.mem_map.1 hl
    exact ⟨rfl, rfl, hpos x hx⟩
  · -- A leg before the last is a taker at its whole capacity.
    obtain ⟨x, hx, rfl⟩ := List.mem_map.1 hl
    obtain ⟨d, hd, rfl⟩ := List.mem_map.1 hx
    have hd0 := hdepth d (List.mem_append_left _ hd)
    refine ⟨rfl, ?_, ?_⟩
    · simpa [leg] using Cost.slippagePercent_le hk hd0 (le_add_of_nonneg_right le_rfl : capacityOf cfg d ≤ capacityOf cfg d + 0)
    · simp only [leg, capacityOf, Cost.capacity, Numeric.smaller_rat, Router.candidate_depth]
      exact min_le_left _ _

/-- Two venues quoting a depth of `499.9999996` each, for a purchase of `1000` under a 5% cap at
impact `0.05` with splitting allowed: routing splits the order, and its last leg takes more than its
venue's capacity. -/
theorem route_split_legs_past_capacity :
    let cfg : RouterConfig ℚ := ⟨.bestPrice, 5, false, true, none, 3, 0.05, 0.5, 1500, 4000⟩
    let req : Request ℚ := ⟨"m1", .buy, 1000⟩
    let listing : List Value := [.str "kalshi", .str "polymarket"]
    let fetch : Except Fault (Venue → Fetched ℚ) := .ok fun
      | .kalshi => .quote ⟨0.5, 499.9999996⟩
      | .polymarket => .quote ⟨0.52, 499.9999996⟩
      | _ => .dropped "unavailable: market not listed"
    0 < cfg.impact ∧ ∃ out s, Router.route cfg VenueTable.standard req listing fetch = .ok out ∧
      out.best = .split s ∧
      (∃ l ∈ s.legs, Cost.capacity l.candidate.depth cfg.maxSlippage cfg.impact < l.size) ∧
      ∃ init last, s.legs = init ++ [last] ∧
        (∀ l ∈ s.legs, l.candidate.size = l.size ∧ l.candidate.venue = l.venue ∧ 0 < l.size) ∧
        (∀ l ∈ init, l.size = Cost.capacity l.candidate.depth cfg.maxSlippage cfg.impact ∧
          l.candidate.slippage ≤ cfg.maxSlippage ∧ l.size ≤ l.candidate.depth) ∧
        last.size ≤ Cost.capacity last.candidate.depth cfg.maxSlippage cfg.impact +
          Split.tolerance * req.size ∧
        last.candidate.slippage ≤
          cfg.maxSlippage + 100 * cfg.impact * (Split.tolerance * req.size) / last.candidate.depth := by
  intro cfg req listing fetch
  have hk : 0 < cfg.impact := by norm_num [cfg]
  -- Routing this order, run by the kernel: a split with a leg past its venue's capacity.
  have hrun : (match Router.route cfg VenueTable.standard req listing fetch with
      | .ok out => (match out.best with
        | .split s => s.legs.any fun l =>
          decide (Cost.capacity l.candidate.depth cfg.maxSlippage cfg.impact < l.size)
        | .single _ => false)
      | .error _ => false) = true := by
    decide +kernel
  cases hr : Router.route cfg VenueTable.standard req listing fetch with
  | error e => simp [hr] at hrun
  | ok out =>
    rw [hr] at hrun
    cases hb : out.best with
    | single c => simp [hb] at hrun
    | split s =>
      simp only [hb, List.any_eq_true, decide_eq_true_eq] at hrun
      exact ⟨hk, out, s, rfl, hb, hrun, route_split_legs cfg hk _ req listing fetch out s hr hb⟩

end TradeDesk
