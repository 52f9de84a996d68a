import Mathlib
import TradeDesk.Proofs.Route

/-!
# How routing ends once the quotes are in

`Router.route` first collects the quotes of the target venues (`Router.collect`); all that follows
is computed from them. This module says once what each stage does with the venues and the
warnings, so that statements about routing need not unfold it again:

* gathering the venues' answers puts each venue asked among the quotes or among the drops, once,
  and fails only on a venue that faulted (`Collection.gather_eq_ok`, `Collection.gather_perm`,
  `Collection.gather_eq_error`);
* collecting succeeds only with a target venue and venues that can be asked, and its warnings are
  those of the names that name no venue followed by one for each dropped venue
  (`Router.collect_eq_ok`); it fails as an invalid request when there is no target, and otherwise
  with the fault met (`Router.collect_eq_error`);
* after the collection, routing ends in one of three ways (`Router.Settled`, by
  `Router.route_settled`): a route that holds the ranked candidates within the cap, the drops of
  the collection and the pricing, and the warnings of each stage; a refusal for want of liquidity,
  when no candidate is within the cap, that carries those drops and the candidates; or a split
  whose legs weigh nothing.

`Router.quotes` shares the collection and the stages up to the ranking
(`Router.quotes_of_collect`).
-/

namespace TradeDesk

namespace Collection

variable {α : Type}

/-- A gathering that succeeds met no fault. -/
theorem foldlM_add_no_fault {outcomes : List (Venue × Fetched α)} {c col : Collection α}
    (h : outcomes.foldlM add c = .ok col) : ∀ x ∈ outcomes, x.2.isFault = false := by
  induction outcomes generalizing c with
  | nil => simp
  | cons x outcomes ih =>
    obtain ⟨v, r⟩ := x
    -- A fault stops the gathering at once; a quote or a drop goes on with the rest.
    cases r with
    | fault f => simp [add, bind, Except.bind] at h
    | quote q =>
      simp only [List.foldlM_cons, add, bind, Except.bind] at h
      simpa [Fetched.isFault] using ih h
    | dropped why =>
      simp only [List.foldlM_cons, add, bind, Except.bind] at h
      simpa [Fetched.isFault] using ih h

/-- A gathering that succeeds met no fault, and keeps the quotes and the drops in order. -/
theorem gather_eq_ok {outcomes : List (Venue × Fetched α)} {col : Collection α}
    (h : gather outcomes = .ok col) :
    (∀ x ∈ outcomes, x.2.isFault = false) ∧
      col = ⟨outcomes.filterMap (fun x => x.2.quote?.map (x.1, ·)),
        outcomes.filterMap (fun x => x.2.drop?.map (x.1, ·))⟩ := by
  have hf := foldlM_add_no_fault h
  rw [gather_eq outcomes hf] at h
  exact ⟨hf, (Except.ok.inj h).symm⟩

/-- A gathering that fails met a venue that faulted with that fault. -/
theorem gather_eq_error {outcomes : List (Venue × Fetched α)} {f : Fault}
    (h : gather outcomes = .error f) : ∃ x ∈ outcomes, x.2 = .fault f := by
  unfold gather at h
  generalize (empty : Collection α) = c at h
  induction outcomes generalizing c with
  | nil => cases h
  | cons x outcomes ih =>
    obtain ⟨v, r⟩ := x
    cases r with
    | fault g =>
      simp only [List.foldlM_cons, add, bind, Except.bind, Except.error.injEq] at h
      exact ⟨_, List.mem_cons_self, by rw [h]⟩
    | quote q =>
      simp only [List.foldlM_cons, add, bind, Except.bind] at h
      obtain ⟨y, hy, hyf⟩ := ih _ h
      exact ⟨y, List.mem_cons_of_mem _ hy, hyf⟩
    | dropped why =>
      simp only [List.foldlM_cons, add, bind, Except.bind] at h
      obtain ⟨y, hy, hyf⟩ := ih _ h
      exact ⟨y, List.mem_cons_of_mem _ hy, hyf⟩

/-- With no fault, each venue asked is among the quotes or among the drops, once. -/
theorem gather_perm (outcomes : List (Venue × Fetched α))
    (h : ∀ x ∈ outcomes, x.2.isFault = false) :
    ((outcomes.filterMap (fun x => x.2.quote?.map (x.1, ·))).map Prod.fst ++
      (outcomes.filterMap (fun x => x.2.drop?.map (x.1, ·))).map Prod.fst).Perm
      (outcomes.map Prod.fst) := by
  induction outcomes with
  | nil => simp
  | cons x outcomes ih =>
    obtain ⟨v, r⟩ := x
    have ht := ih fun y hy => h y (List.mem_cons_of_mem _ hy)
    cases r with
    | quote q => simpa [Fetched.quote?, Fetched.drop?] using ht
    | dropped why =>
      -- The venue joins the drops, behind the quotes.
      simpa [Fetched.quote?, Fetched.drop?] using List.perm_middle.trans (ht.cons v)
    | fault f => simp [Fetched.isFault] at h

end Collection

namespace Router

section Collect

variable {α : Type} (cfg : RouterConfig α) (req : Request α) {listing : List Value}
  {fetch : Except Fault (Venue → Fetched α)}

/-- A collection that succeeds had a target venue and venues that could be asked; it holds what
the targets' answers gathered into, and its warnings are those of the names that name no venue,
then one for each dropped venue. -/
theorem collect_eq_ok {col : Collection α} {ws : List String}
    (h : collect cfg req listing fetch = .ok (col, ws)) :
    ∃ f, fetch = .ok f ∧ (targets cfg.enabled listing).1.isEmpty = false ∧
      Collection.gather ((targets cfg.enabled listing).1.map fun p => (p, f p)) = .ok col ∧
      ws = (targets cfg.enabled listing).2 ++
        col.dropped.map fun (p, why) => p.name ++ " dropped: " ++ why := by
  unfold collect at h
  cases hps : (targets cfg.enabled listing).1.isEmpty
  case true =>
    simp only [hps, if_true] at h
    cases h
  simp only [hps, Bool.false_eq_true, if_false] at h
  cases fetch with
  | error e => cases h
  | ok f =>
    cases hg : Collection.gather ((targets cfg.enabled listing).1.map fun p => (p, f p)) with
    | error e => simp [hg, Except.mapError, bind, Except.bind] at h
    | ok c =>
      simp only [hg, Except.mapError, bind, Except.bind, pure, Except.pure, Except.ok.injEq,
        Prod.mk.injEq] at h
      obtain ⟨rfl, rfl⟩ := h
      exact ⟨f, rfl, rfl, hg, rfl⟩

/-- A collection that fails is an invalid request when there is no target venue; otherwise it
meets a fault, of the venues as a whole or of one target venue. -/
theorem collect_eq_error {e : RouteError α} (h : collect cfg req listing fetch = .error e) :
    (∃ rf, e = .refused rf ∧ rf.kind = .invalidRequest ∧ (targets cfg.enabled listing).1 = []) ∨
      ∃ f, e = .fault f ∧
        (fetch = .error f ∨ ∃ g, fetch = .ok g ∧ ∃ p ∈ (targets cfg.enabled listing).1, g p = .fault f) := by
  unfold collect at h
  cases hps : (targets cfg.enabled listing).1.isEmpty
  case true =>
    simp only [hps, if_true] at h
    cases h
    exact .inl ⟨_, rfl, rfl, List.isEmpty_iff.1 hps⟩
  simp only [hps, Bool.false_eq_true, if_false] at h
  cases fetch with
  | error f =>
    cases h
    exact .inr ⟨f, rfl, .inl rfl⟩
  | ok g =>
    cases hg : Collection.gather ((targets cfg.enabled listing).1.map fun p => (p, g p)) with
    | error f =>
      simp only [hg, Except.mapError, bind, Except.bind, Except.error.injEq] at h
      -- The fault is the answer of a target venue.
      obtain ⟨x, hx, hxf⟩ := Collection.gather_eq_error hg
      obtain ⟨p, hp, rfl⟩ := List.mem_map.1 hx
      exact .inr ⟨f, h.symm, .inr ⟨g, rfl, p, hp, hxf⟩⟩
    | ok c => simp [hg, Except.mapError, bind, Except.bind, pure, Except.pure] at h

end Collect

open Numeric

variable {α : Type} [Numeric α] [Display α] (cfg : RouterConfig α) (table : VenueTable α)
  (req : Request α)

/-- How routing ends once the quotes `col` are collected with the warnings `ws`. -/
inductive Settled (col : Collection α) (ws : List String) :
    Except (RouteError α) (Outcome α) → Prop
  /-- A route: it holds the ranked candidates within the cap and the drops of the collection and
  the pricing; its warnings are those so far, then those of the pricing and the cap, then at most
  one that the target slippage was exceeded. -/
  | found (out : Outcome α)
      (dropped : out.dropped = col.dropped ++ (price cfg table req col.quotes).dropped)
      (routes : out.routes = Rank.rank cfg.mode req.side cfg.preferMaker
        (withinCap cfg (price cfg table req col.quotes).candidates).1)
      (extra : List String)
      (warnings : out.warnings = ws ++ (price cfg table req col.quotes).warnings ++
        (withinCap cfg (price cfg table req col.quotes).candidates).2 ++ extra)
      (exceeded : ∀ w ∈ extra, w.startsWith "target slippage exceeded: " = true) :
      Settled col ws (.ok out)
  /-- No liquidity: no candidate is within the cap, and the refusal carries the drops of the
  collection and the pricing, and the candidates in some order. -/
  | dry (rf : Refusal α) (kind : rf.kind = .noLiquidity)
      (dropped : rf.dropped = col.dropped ++ (price cfg table req col.quotes).dropped)
      (capped : (withinCap cfg (price cfg table req col.quotes).candidates).1 = [])
      (routes : rf.routes.Perm (price cfg table req col.quotes).candidates) :
      Settled col ws (.error (.refused rf))
  /-- A split of the order whose legs weigh nothing, when no candidate is within the cap. -/
  | weightless (capped : (withinCap cfg (price cfg table req col.quotes).candidates).1 = []) :
      Settled col ws (.error (.fault .weightsSumToZero))

/-- No quote, nothing priced. -/
@[simp] theorem price_nil : price cfg table req [] = ⟨[], [], []⟩ := rfl

/-- No candidate, nothing within the cap. -/
@[simp] theorem withinCap_nil : withinCap cfg ([] : List (Candidate α)) = ([], []) := rfl

/-- A refusal for want of liquidity before any candidate is priced within the cap. -/
theorem settled_dry_of_nil (col : Collection α) (ws : List String)
    (hc : (price cfg table req col.quotes).candidates = []) (msg : String) (warnings : List String) :
    Settled cfg table req col ws
      (.error (noLiquidity msg [] warnings (col.dropped ++ (price cfg table req col.quotes).dropped))) :=
  .dry _ rfl rfl (by rw [hc]; rfl) (by rw [hc])

/-- When no candidate is within the cap, the candidates above it settle the route. -/
theorem overCap_settled (col : Collection α) (ws : List String)
    (hc : (price cfg table req col.quotes).candidates ≠ [])
    (hcap : (withinCap cfg (price cfg table req col.quotes).candidates).1 = []) :
    Settled cfg table req col ws
      ((overCap cfg table req (price cfg table req col.quotes).candidates
          (ws ++ (price cfg table req col.quotes).warnings ++
            (withinCap cfg (price cfg table req col.quotes).candidates).2)
          (col.dropped ++ (price cfg table req col.quotes).dropped)).bind
        fun (best, reason, warnings) =>
          .ok ⟨best, [], recommend cfg best req reason warnings, warnings,
            col.dropped ++ (price cfg table req col.quotes).dropped, savings best.net [] req⟩) := by
  have hperm := Rank.rank_perm cfg.mode req.side cfg.preferMaker
    (price cfg table req col.quotes).candidates
  have hroutes : Rank.rank cfg.mode req.side cfg.preferMaker
      (withinCap cfg (price cfg table req col.quotes).candidates).1 = [] := by
    rw [hcap]
    exact (Rank.rank_eq_nil_iff _ _ _ _).2 rfl
  unfold overCap
  cases hs : cfg.allowSplitting
  case true =>
    -- Splitting: the allocation fails for want of liquidity, or its legs are combined.
    simp only [if_true]
    cases Split.allocate (Rank.rank cfg.mode req.side cfg.preferMaker
        (price cfg table req col.quotes).candidates) req.size cfg with
    | none => exact .dry _ rfl rfl hcap hperm
    | some a =>
      dsimp only
      cases Split.route (fun c s => candidate cfg table req c.venue ⟨c.quoted, c.depth⟩ s) a with
      | none => exact .weightless hcap
      | some sp => exact .found _ rfl hroutes.symm [] (by simp) (by simp)
  case false =>
    -- No splitting: the first-ranked candidate above the cap, which exists, with a warning.
    simp only [Bool.false_eq_true, if_false]
    obtain ⟨best, rest, hb⟩ := Rank.exists_rank_eq_cons cfg.mode req.side cfg.preferMaker
      (show ¬(price cfg table req col.quotes).candidates.isEmpty by simpa using hc)
    rw [hb]
    refine .found _ rfl hroutes.symm _ rfl fun w hw => ?_
    obtain rfl := List.mem_singleton.1 hw
    simp [String.startsWith_string_iff, String.toList_append, List.append_assoc]

/-- Once the quotes are collected, routing settles in one of the three ways of `Settled`. -/
theorem route_settled {listing : List Value} {fetch : Except Fault (Venue → Fetched α)}
    {col : Collection α} {ws : List String} (h : collect cfg req listing fetch = .ok (col, ws)) :
    Settled cfg table req col ws (route cfg table req listing fetch) := by
  unfold route
  rw [h]
  simp only [bind, Except.bind]
  by_cases hq : col.quotes.isEmpty
  · -- No quote: nothing is priced.
    have hnil : col.quotes = [] := List.isEmpty_iff.1 hq
    simp only [hq, if_true, throw, throwThe, MonadExceptOf.throw]
    have hd := settled_dry_of_nil cfg table req col ws (by rw [hnil]; rfl)
      ("no venue responded for '" ++ req.market ++ "'") ws
    rw [hnil, price_nil, List.append_nil] at hd
    exact hd
  simp only [hq, Bool.false_eq_true, if_false]
  generalize hp : price cfg table req col.quotes = priced
  by_cases hc : priced.candidates.isEmpty
  · -- No usable quote.
    simp only [hc, if_true, throw, throwThe, MonadExceptOf.throw]
    exact hp ▸ settled_dry_of_nil cfg table req col ws (hp ▸ List.isEmpty_iff.1 hc) _ _
  simp only [hc, Bool.false_eq_true, if_false]
  cases hr : Rank.rank cfg.mode req.side cfg.preferMaker (withinCap cfg priced.candidates).1 with
  | cons best rest =>
    -- A candidate within the cap: the first-ranked of those.
    exact .found _ (by rw [hp]) (by rw [hp, hr]) [] (by simp [hp]) (by simp)
  | nil =>
    -- None within the cap: the candidates above it decide.
    have hcap := (Rank.rank_eq_nil_iff _ _ _ _).1 hr
    have hs := overCap_settled cfg table req col ws
      (by rw [hp]; exact fun he => hc (List.isEmpty_iff.2 he)) (by rw [hp]; exact hcap)
    rw [hp] at hs
    cases ho : overCap cfg table req priced.candidates
        (ws ++ priced.warnings ++ (withinCap cfg priced.candidates).2)
        (col.dropped ++ priced.dropped) with
    | error e =>
      rw [ho] at hs
      exact hs
    | ok v =>
      rw [ho] at hs
      obtain ⟨best, reason, warnings⟩ := v
      exact hs

/-- Quoting shares the collection: a collection that fails is its answer, and otherwise the answer
is the ranking of the candidates within the cap. -/
theorem quotes_of_collect (listing : List Value) (fetch : Except Fault (Venue → Fetched α)) :
    quotes cfg table req listing fetch = (collect cfg req listing fetch).map fun (col, _) =>
      Rank.rank cfg.mode req.side cfg.preferMaker
        (withinCap cfg (price cfg table req col.quotes).candidates).1 := by
  unfold quotes
  cases collect cfg req listing fetch with
  | error e => rfl
  | ok v => rfl

/-- A collection that fails is routing's answer. -/
theorem route_of_collect_error {listing : List Value} {fetch : Except Fault (Venue → Fetched α)}
    {e : RouteError α} (h : collect cfg req listing fetch = .error e) :
    route cfg table req listing fetch = .error e := by
  unfold route
  rw [h]
  rfl

end Router

end TradeDesk
