import Mathlib
import TradeDesk.Proofs.SortPerm
import TradeDesk.Routing.Router

/-!
# Routing an order, read off its candidates

When no venue faults, what routing an order comes to is decided by its candidates: the candidates
of the usable quotes the target venues gave (`Router.usableCandidates` of `Router.answers`), and
those of them within the slippage cap (`Router.underCap`; a slippage that is not a number is not
above the cap, since the cap test is a comparison that fails).

`Router.route_spec` says which answer routing gives (`Router.verdictOf`): an invalid request when
there is no target, no liquidity when no quote is usable, a route when a candidate is within the
cap or splitting is off, and otherwise whatever the split of the order over all the ranked
candidates comes to; a split whose legs weigh nothing is a fault. It also says what a found route
holds: the ranked candidates within the cap, the route `Router.chosen` among the candidates, and
the savings against the worst of the ranked. Venues that cannot be asked stop
routing with their fault as soon as there is a target (`Router.verdict_route_error`).

The ranking only reorders the candidates (`Rank.rank_perm`, from `Sort.stable_perm`), so it gives
a first candidate exactly when there is one.
-/

namespace TradeDesk

namespace Rank

open Numeric

variable {α : Type} [Numeric α]

/-- Rescaling keeps one value per candidate. -/
theorem length_normalize (xs : List α) : (normalize xs).length = xs.length := by
  cases xs with
  | nil => simp [normalize, columnMax, maxOf]
  | cons x xs =>
    -- A non-empty column has a greatest and a least value, NaN or not.
    obtain ⟨hi, hhi⟩ : ∃ hi, columnMax (x :: xs) = some hi := by
      unfold columnMax
      split <;> simp [maxOf]
    obtain ⟨lo, hlo⟩ : ∃ lo, columnMin (x :: xs) = some lo := by
      unfold columnMin
      split <;> simp [minOf]
    simp only [normalize, hhi, hlo]
    split <;> simp

theorem length_priceColumn (side : Side) (xs : List α) :
    (priceColumn side xs).length = xs.length := by
  unfold priceColumn
  dsimp only
  split
  · split <;> simp [length_normalize]
  · exact length_normalize xs

theorem length_primaries (mode : Mode) (side : Side) (cs : List (Candidate α)) :
    (primaries mode side cs).length = cs.length := by
  cases mode <;> simp [primaries, balancedScores, penalties, length_normalize, length_priceColumn]

/-- Ranking reorders the candidates and keeps each of them. -/
theorem rank_perm (mode : Mode) (side : Side) (preferMaker : Bool) (cs : List (Candidate α)) :
    (rank mode side preferMaker cs).Perm cs := by
  unfold rank
  refine ((Sort.stable_perm _ _).map _).trans ?_
  -- Each candidate is keyed by its own primary number, and the keys are dropped again.
  have hsnd : ((fun x : Key α × Candidate α => x.2) ∘
      fun (x : α × Candidate α) => (keyOf preferMaker x.2 x.1, x.2)) = Prod.snd := rfl
  rw [List.map_map, hsnd, List.map_snd_zip (by rw [length_primaries])]

/-- Ranking gives no candidate exactly when there is none. -/
theorem rank_eq_nil_iff (mode : Mode) (side : Side) (preferMaker : Bool)
    (cs : List (Candidate α)) : rank mode side preferMaker cs = [] ↔ cs = [] := by
  have h := rank_perm mode side preferMaker cs
  constructor
  · intro hr
    rw [hr] at h
    exact List.nil_perm.1 h
  · intro hc
    subst hc
    exact h.eq_nil

/-- Ranking some candidates gives a first one. -/
theorem exists_rank_eq_cons (mode : Mode) (side : Side) (preferMaker : Bool)
    {cs : List (Candidate α)} (h : ¬ cs.isEmpty) :
    ∃ best rest, rank mode side preferMaker cs = best :: rest :=
  List.exists_cons_of_ne_nil
    (mt (rank_eq_nil_iff mode side preferMaker cs).1 (mt List.isEmpty_iff.2 h))

end Rank

namespace Fetched

variable {α : Type}

/-- The quote a venue gave, if it gave one. -/
def quote? : Fetched α → Option (Quote α)
  | .quote q => some q
  | _ => none

/-- Why a venue was dropped, if it was. -/
def drop? : Fetched α → Option String
  | .dropped why => some why
  | _ => none

/-- Whether asking a venue stopped the collection. -/
def isFault : Fetched α → Bool
  | .fault _ => true
  | _ => false

end Fetched

namespace Collection

variable {α : Type}

/-- Gathering outcomes none of which is a fault appends their quotes and their drops, in order. -/
theorem foldlM_add (outcomes : List (Venue × Fetched α)) (c : Collection α)
    (h : ∀ x ∈ outcomes, x.2.isFault = false) :
    outcomes.foldlM add c =
      .ok ⟨c.quotes ++ outcomes.filterMap (fun x => x.2.quote?.map (x.1, ·)),
        c.dropped ++ outcomes.filterMap (fun x => x.2.drop?.map (x.1, ·))⟩ := by
  induction outcomes generalizing c with
  | nil =>
    simp only [List.foldlM_nil, List.filterMap_nil, List.append_nil]
    rfl
  | cons x outcomes ih =>
    obtain ⟨v, r⟩ := x
    have ht : ∀ y ∈ outcomes, y.2.isFault = false := fun y hy => h y (List.mem_cons_of_mem _ hy)
    cases r with
    | quote q =>
      simp only [List.foldlM_cons, add, bind, Except.bind, ih _ ht]
      simp [Fetched.quote?, Fetched.drop?]
    | dropped why =>
      simp only [List.foldlM_cons, add, bind, Except.bind, ih _ ht]
      simp [Fetched.quote?, Fetched.drop?]
    | fault f => simp [Fetched.isFault] at h

/-- Gathering outcomes none of which is a fault keeps their quotes and their drops, in order. -/
theorem gather_eq (outcomes : List (Venue × Fetched α))
    (h : ∀ x ∈ outcomes, x.2.isFault = false) :
    gather outcomes = .ok ⟨outcomes.filterMap (fun x => x.2.quote?.map (x.1, ·)),
      outcomes.filterMap (fun x => x.2.drop?.map (x.1, ·))⟩ := by
  rw [gather, foldlM_add outcomes empty h]
  rfl

end Collection

namespace Router

section Collect

variable {α : Type}

/-- The quotes the venues `ps` gave, in venue order. -/
def answers (f : Venue → Fetched α) (ps : List Venue) : List (Venue × Quote α) :=
  ps.filterMap fun p => (f p).quote?.map (p, ·)

/-- No target venue: the request is invalid, before any venue is asked. -/
theorem collect_of_isEmpty (cfg : RouterConfig α) (req : Request α) (listing : List Value)
    (fetch : Except Fault (Venue → Fetched α)) (h : (targets cfg.enabled listing).1.isEmpty) :
    ∃ r, collect cfg req listing fetch = .error (.refused r) ∧ r.kind = .invalidRequest := by
  unfold collect
  simp only [h, if_true]
  exact ⟨_, rfl, rfl⟩

/-- Some target venue, and the venues cannot be asked: the fault that stopped the asking. -/
theorem collect_of_error (cfg : RouterConfig α) (req : Request α) (listing : List Value)
    (e : Fault) (h : (targets cfg.enabled listing).1.isEmpty = false) :
    collect cfg req listing (.error e) = .error (.fault e) := by
  unfold collect
  simp only [h, Bool.false_eq_true, if_false]
  rfl

/-- Some target venue, each answering with a quote or a drop: the quotes of the targets, in
order. -/
theorem collect_quotes (cfg : RouterConfig α) (req : Request α) (listing : List Value)
    (f : Venue → Fetched α) (hf : ∀ p, (f p).isFault = false)
    (h : (targets cfg.enabled listing).1.isEmpty = false) :
    ∃ col ws, collect cfg req listing (.ok f) = .ok (col, ws) ∧
      col.quotes = answers f (targets cfg.enabled listing).1 := by
  unfold collect
  simp only [h, Bool.false_eq_true, if_false, Except.mapError, bind, Except.bind]
  rw [Collection.gather_eq _ fun x hx => by
    obtain ⟨p, _, rfl⟩ := List.mem_map.1 hx
    exact hf p]
  refine ⟨_, _, rfl, ?_⟩
  simp [answers, List.filterMap_map]

/-- What routing an order came to: refused as an invalid request, refused for want of liquidity,
routed, or stopped by a fault. -/
inductive Verdict where
  | invalid
  | noLiquidity
  | routed
  | fault (f : Fault)
  deriving DecidableEq

/-- The verdict of a routing answer. -/
def verdict : Except (RouteError α) (Outcome α) → Verdict
  | .ok _ => .routed
  | .error (.refused r) => match r.kind with
    | .invalidRequest => .invalid
    | .noLiquidity => .noLiquidity
  | .error (.fault f) => .fault f

end Collect

open Numeric

variable {α : Type} [Numeric α] [Display α]

/-- The candidates of the usable quotes, in order. -/
def usableCandidates (cfg : RouterConfig α) (table : VenueTable α) (req : Request α)
    (quotes : List (Venue × Quote α)) : List (Candidate α) :=
  quotes.filterMap fun (p, q) =>
    if usable q then some (candidate cfg table req p q req.size) else none

/-- The candidates within the slippage cap: those whose slippage is not above it. A slippage that
is not a number is not above the cap. -/
def underCap (cfg : RouterConfig α) (cs : List (Candidate α)) : List (Candidate α) :=
  cs.filter fun c => !decide (cfg.maxSlippage < c.slippage)

/-- Pricing, in closed form: the candidates of the usable quotes, and for each unusable quote
the drop of its venue and a warning, each in order. -/
theorem price_eq (cfg : RouterConfig α) (table : VenueTable α) (req : Request α)
    (quotes : List (Venue × Quote α)) :
    price cfg table req quotes =
      ⟨usableCandidates cfg table req quotes,
        quotes.filterMap fun (p, q) => if usable q then none else some (p, "no usable liquidity quoted"),
        quotes.filterMap fun (p, q) => if usable q then none else
          some (p.name ++ " dropped: no usable liquidity quoted (price=" ++ Display.text q.price ++
            ", depth=" ++ Display.text q.depth ++ ")")⟩ := by
  unfold price usableCandidates
  -- Each step of the fold appends to the candidates or to the drops and warnings before it.
  induction quotes using List.reverseRecOn with
  | nil => rfl
  | append_singleton quotes pq ih =>
    rw [List.foldl_append, List.foldl_cons, List.foldl_nil, ih]
    obtain ⟨p, q⟩ := pq
    by_cases hq : usable q <;> simp [hq]

/-- Pricing keeps the candidates of the usable quotes, in order. -/
theorem price_candidates (cfg : RouterConfig α) (table : VenueTable α) (req : Request α)
    (quotes : List (Venue × Quote α)) :
    (price cfg table req quotes).candidates = usableCandidates cfg table req quotes := by
  rw [price_eq]

/-- The slippage cap, in closed form: the candidates not above the cap, and a warning for each
candidate above it, in order. -/
theorem withinCap_eq (cfg : RouterConfig α) (cs : List (Candidate α)) :
    withinCap cfg cs =
      (underCap cfg cs, cs.filterMap fun c => if cfg.maxSlippage < c.slippage then
        some (c.venue.name ++ " filtered: slippage " ++ Display.fixed 2 c.slippage ++ "% > max " ++
          Display.fixed 2 cfg.maxSlippage ++ "%") else none) := by
  unfold withinCap underCap
  induction cs using List.reverseRecOn with
  | nil => rfl
  | append_singleton cs c ih =>
    rw [List.foldl_append, List.foldl_cons, List.foldl_nil, List.filter_append,
      List.filterMap_append, ih]
    by_cases hc : cfg.maxSlippage < c.slippage <;> simp [hc]

/-- The candidates the cap lets through are those not above it. -/
theorem withinCap_fst (cfg : RouterConfig α) (cs : List (Candidate α)) :
    (withinCap cfg cs).1 = underCap cfg cs := by
  rw [withinCap_eq]

/-- The verdict of routing an order to the venues `ps` that answer as `f` says, read off their
candidates: no venue is an invalid request, and no usable quote is no liquidity; a candidate
within the cap, or no splitting, gives a route; otherwise the split of the order over all the
ranked candidates decides, and a split whose sizes weigh nothing is a fault. -/
def verdictOf (cfg : RouterConfig α) (table : VenueTable α) (req : Request α) (ps : List Venue)
    (f : Venue → Fetched α) : Verdict :=
  let cands := usableCandidates cfg table req (answers f ps)
  if ps.isEmpty then .invalid
  else if cands.isEmpty then .noLiquidity
  else if !(underCap cfg cands).isEmpty || !cfg.allowSplitting then .routed
  else match Split.allocate (Rank.rank cfg.mode req.side cfg.preferMaker cands) req.size cfg with
    | none => .noLiquidity
    | some a =>
      match Split.route (fun c s => candidate cfg table req c.venue ⟨c.quoted, c.depth⟩ s)
          a with
      | some _ => .routed
      | none => .fault .weightsSumToZero

/-- The route chosen among the candidates `cands`: the first-ranked candidate within the cap; when
none is within it, the split of the order over all the ranked candidates if splitting is allowed,
else the first-ranked candidate above the cap. -/
def chosen (cfg : RouterConfig α) (table : VenueTable α) (req : Request α)
    (cands : List (Candidate α)) : Option (Route α) :=
  match Rank.rank cfg.mode req.side cfg.preferMaker (underCap cfg cands) with
  | best :: _ => some (.single best)
  | [] =>
    let ranked := Rank.rank cfg.mode req.side cfg.preferMaker cands
    if cfg.allowSplitting then
      (Split.allocate ranked req.size cfg).bind fun a =>
        (Split.route (fun c s => candidate cfg table req c.venue ⟨c.quoted, c.depth⟩ s)
          a).map .split
    else ranked.head?.map .single

/-- With no venue faulting, routing gives the verdict `verdictOf` reads off the candidates, and a
route it finds holds the ranked candidates within the cap, the route `chosen` among all the
candidates, and the savings of that route against the ranked ones. -/
theorem route_spec (cfg : RouterConfig α) (table : VenueTable α) (req : Request α)
    (listing : List Value) (f : Venue → Fetched α) (hf : ∀ p, (f p).isFault = false) :
    let cands := usableCandidates cfg table req (answers f (targets cfg.enabled listing).1)
    verdict (route cfg table req listing (.ok f)) =
        verdictOf cfg table req (targets cfg.enabled listing).1 f ∧
      ∀ out, route cfg table req listing (.ok f) = .ok out →
        out.routes = Rank.rank cfg.mode req.side cfg.preferMaker (underCap cfg cands) ∧
        chosen cfg table req cands = some out.best ∧
        out.savings = savings out.best.net out.routes req := by
  dsimp only
  unfold verdictOf
  cases hps : (targets cfg.enabled listing).1.isEmpty
  case true =>
    -- No target: refused as invalid before any venue is asked.
    obtain ⟨r, hr, hk⟩ := collect_of_isEmpty cfg req listing (.ok f) hps
    unfold route
    rw [hr]
    refine ⟨by simp [verdict, hk, bind, Except.bind], fun out h => ?_⟩
    cases h
  obtain ⟨col, ws, hc, hq⟩ := collect_quotes cfg req listing f hf hps
  unfold route
  rw [hc]
  simp only [bind, Except.bind]
  rw [hq, price_candidates, withinCap_fst]
  by_cases h1 : (answers f (targets cfg.enabled listing).1).isEmpty
  · -- No quote: no candidate either, and no liquidity.
    rw [List.isEmpty_iff.1 h1]
    refine ⟨by simp [usableCandidates, verdict, noLiquidity, throw, throwThe, MonadExceptOf.throw],
      fun out h => ?_⟩
    simp [throw, throwThe, MonadExceptOf.throw] at h
  rw [if_neg h1]
  generalize usableCandidates cfg table req (answers f (targets cfg.enabled listing).1) = cands
  by_cases h3 : cands.isEmpty
  · -- No usable quote: no liquidity.
    refine ⟨by simp [h3, verdict, noLiquidity, throw, throwThe, MonadExceptOf.throw],
      fun out h => ?_⟩
    simp [h3, throw, throwThe, MonadExceptOf.throw] at h
  rw [if_neg h3]
  simp only [h3, Bool.false_eq_true, if_false]
  by_cases h4 : (underCap cfg cands).isEmpty
  case neg =>
    -- A candidate within the cap: the first-ranked of those is the route.
    obtain ⟨best, rest, hb⟩ := Rank.exists_rank_eq_cons cfg.mode req.side cfg.preferMaker h4
    simp only [hb, h4, Bool.not_false, Bool.true_or, if_true]
    refine ⟨rfl, fun out h => ?_⟩
    obtain rfl := Except.ok.inj h
    exact ⟨rfl, by simp only [chosen, hb], rfl⟩
  -- Nothing within the cap: the candidates above it decide.
  have h5 : Rank.rank cfg.mode req.side cfg.preferMaker (underCap cfg cands) = [] :=
    (Rank.rank_eq_nil_iff _ _ _ _).2 (List.isEmpty_iff.1 h4)
  simp only [h5, h4, Bool.not_true, Bool.false_or]
  unfold overCap
  cases hs : cfg.allowSplitting
  case false =>
    -- No splitting: the first-ranked candidate above the cap, which exists.
    obtain ⟨best, rest, hb⟩ := Rank.exists_rank_eq_cons cfg.mode req.side cfg.preferMaker h3
    simp only [hb, Bool.not_false, if_true, Bool.false_eq_true, if_false]
    refine ⟨rfl, fun out h => ?_⟩
    obtain rfl := Except.ok.inj h
    exact ⟨rfl, by simp only [chosen, h5, hs, hb, Bool.false_eq_true, if_false, List.head?_cons,
      Option.map_some], rfl⟩
  -- Splitting: the allocation, then the combination of its legs, decide.
  simp only [Bool.not_true, Bool.false_eq_true, if_false, if_true]
  cases ha : Split.allocate (Rank.rank cfg.mode req.side cfg.preferMaker cands) req.size cfg
  case none => exact ⟨rfl, fun out h => by cases h⟩
  next a =>
  dsimp only
  cases hr : Split.route (fun c s => candidate cfg table req c.venue ⟨c.quoted, c.depth⟩ s) a
  case none => exact ⟨rfl, fun out h => by cases h⟩
  next sp =>
  refine ⟨rfl, fun out h => ?_⟩
  obtain rfl := Except.ok.inj h
  exact ⟨rfl, by simp only [chosen, h5, hs, ha, hr, if_true, Option.bind_some, Option.map_some],
    rfl⟩

/-- Venues that cannot be asked: an invalid request when there is no target, else the fault. -/
theorem verdict_route_error (cfg : RouterConfig α) (table : VenueTable α) (req : Request α)
    (listing : List Value) (e : Fault) :
    verdict (route cfg table req listing (.error e)) =
      if (targets cfg.enabled listing).1.isEmpty then .invalid else .fault e := by
  unfold route
  cases hps : (targets cfg.enabled listing).1.isEmpty
  · rw [collect_of_error cfg req listing e hps]
    rfl
  · obtain ⟨r, hr, hk⟩ := collect_of_isEmpty cfg req listing (.error e) hps
    rw [hr]
    simp [verdict, hk, bind, Except.bind]

end Router

end TradeDesk
