import Mathlib
import TradeDesk.Proofs.Desk
import TradeDesk.Proofs.Outcome

/-!
# Every target venue is accounted for once

Routing an order asks each target venue (listed for the market and enabled, each once) for a
quote, and each venue leaves the pipeline at one place at most: it is dropped (no answer in time,
unavailable, an error, an empty quote, or a quote that cannot be traded), or it becomes a
candidate, which the slippage cap keeps among the ranked routes or filters out. A found route
accounts for the targets (`Router.Accounts`): the dropped venues, the ranked candidates and the
filtered candidates are the targets, each once; each dropped venue is named by one
`<venue> dropped:` warning and each filtered one by one `<venue> filtered:` warning, and no other
venue is named so. A refusal for want of liquidity accounts for them likewise with its dropped
venues and the candidates it carries (`Router.route_accounts`). `Desk.findBestRoute_accounts`
says the same of a desk's answer to any order.

The warnings are texts, and a warning names a venue when it opens with the venue's name, a blank,
and the verb. No venue's name holds a blank, so a text that opens with one venue's name and a blank
opens with no other's (`Venue.prefix_name_iff`); the warnings about unsupported names and about the
target slippage open with words that are no venue's name.
-/

namespace TradeDesk

/-- Two lists that open with a part free of the marker `a`, then `a`, are one a prefix of the other
exactly when the parts agree and the rests are one a prefix of the other. -/
theorem prefix_append_cons_iff {a : Char} {s t : List Char} :
    ∀ {x y : List Char}, a ∉ x → a ∉ y → (x ++ a :: s <+: y ++ a :: t ↔ x = y ∧ s <+: t)
  | [], [], _, _ => by simp
  | [], c :: y, _, hy => by
    simp only [List.nil_append, List.cons_append, List.cons_prefix_cons, List.nil_eq,
      reduceCtorEq, false_and, iff_false, not_and]
    rintro rfl
    exact absurd List.mem_cons_self hy
  | c :: x, [], hx, _ => by
    simp only [List.nil_append, List.cons_append, List.cons_prefix_cons, reduceCtorEq,
      false_and, iff_false, not_and]
    rintro rfl
    exact absurd List.mem_cons_self hx
  | c :: x, d :: y, hx, hy => by
    simp only [List.cons_append, List.cons_prefix_cons, List.cons.injEq]
    rw [prefix_append_cons_iff (fun h => hx (List.mem_cons_of_mem _ h))
      (fun h => hy (List.mem_cons_of_mem _ h))]
    tauto

namespace Venue

/-- No venue's name holds a blank. -/
theorem blank_not_mem_name (v : Venue) : ' ' ∉ v.name.toList := by
  cases v <;> simp [name]

/-- Venues are told apart by their names. -/
theorem name_inj {a b : Venue} : a.name = b.name ↔ a = b := by
  cases a <;> cases b <;> simp [name]

/-- A text that opens with the name of `p` and a blank opens with the name of `v` and a blank
exactly when `p` is `v`. -/
@[simp] theorem prefix_name_iff (v p : Venue) (s t : List Char) :
    v.name.toList ++ ' ' :: s <+: p.name.toList ++ ' ' :: t ↔ v = p ∧ s <+: t := by
  rw [prefix_append_cons_iff (blank_not_mem_name v) (blank_not_mem_name p), String.toList_inj,
    name_inj]

/-- A text opening with a character that opens no venue's name opens with no venue's name. -/
theorem startsWith_name_eq_false {w : String} {c : Char} (hw : w.toList.head? = some c)
    (hc : ∀ v : Venue, v.name.toList.head? ≠ some c) (v : Venue) (s : String) :
    w.startsWith (v.name ++ s) = false := by
  rw [Bool.eq_false_iff, ne_eq, String.startsWith_string_iff, String.toList_append]
  intro hp
  -- A venue's name is not empty, so the text would open with its first character.
  obtain ⟨d, n, hn⟩ : ∃ d n, v.name.toList = d :: n := by
    cases v <;> exact ⟨_, _, rfl⟩
  rw [hn, List.cons_append] at hp
  obtain ⟨u, hu⟩ := hp
  rw [← hu, List.cons_append, List.head?_cons, Option.some.injEq] at hw
  exact hc v (by rw [hn, hw, List.head?_cons])

end Venue

namespace Router

/-- The warning that venue `p` was dropped names `p` as dropped, and no other venue. -/
theorem dropped_names (p v : Venue) (why : String) :
    (p.name ++ " dropped: " ++ why).startsWith (v.name ++ " dropped:") = (p == v) := by
  rw [Bool.eq_iff_iff, beq_iff_eq]
  simp only [String.startsWith_string_iff, String.toList_append, List.append_assoc]
  simp only [String.reduceToList, List.cons_append, List.nil_append, Venue.prefix_name_iff]
  simp [eq_comm]

/-- The warning that venue `p` was dropped names no venue as filtered. -/
theorem dropped_names_no_filtered (p v : Venue) (why : String) :
    (p.name ++ " dropped: " ++ why).startsWith (v.name ++ " filtered:") = false := by
  rw [Bool.eq_false_iff, ne_eq]
  simp only [String.startsWith_string_iff, String.toList_append, List.append_assoc]
  simp [Venue.prefix_name_iff]

/-- The warning that venue `p` was filtered names `p` as filtered, and no other venue. -/
theorem filtered_names (p v : Venue) (why : String) :
    (p.name ++ " filtered: " ++ why).startsWith (v.name ++ " filtered:") = (p == v) := by
  rw [Bool.eq_iff_iff, beq_iff_eq]
  simp only [String.startsWith_string_iff, String.toList_append, List.append_assoc]
  simp only [String.reduceToList, List.cons_append, List.nil_append, Venue.prefix_name_iff]
  simp [eq_comm]

/-- The warning that venue `p` was filtered names no venue as dropped. -/
theorem filtered_names_no_dropped (p v : Venue) (why : String) :
    (p.name ++ " filtered: " ++ why).startsWith (v.name ++ " dropped:") = false := by
  rw [Bool.eq_false_iff, ne_eq]
  simp only [String.startsWith_string_iff, String.toList_append, List.append_assoc]
  simp [Venue.prefix_name_iff]

/-- A warning about a name that names no venue opens with `ignoring`, which no venue's name
opens with. -/
theorem unsupported_names_none (x : String) (v : Venue) (s : String) :
    ("ignoring unsupported venue '" ++ x ++ "'").startsWith (v.name ++ s) = false :=
  Venue.startsWith_name_eq_false
    (show ("ignoring unsupported venue '" ++ x ++ "'").toList.head? = some 'i' by simp)
    (fun v => by cases v <;> simp [Venue.name]) v s

/-- A warning that the target slippage was exceeded names no venue. -/
theorem exceeded_names_none {w : String}
    (hw : w.startsWith "target slippage exceeded: " = true) (v : Venue) (s : String) :
    w.startsWith (v.name ++ s) = false := by
  rw [String.startsWith_string_iff] at hw
  obtain ⟨u, hu⟩ := hw
  have hhead : w.toList.head? = some 't' := by
    rw [← hu]
    simp
  exact Venue.startsWith_name_eq_false hhead (fun v => by cases v <;> simp [Venue.name]) v s

section Targets

/-- The targets read off a listing with every venue enabled: a name that names a venue adds it
unless it is already there, and any other name adds a warning. -/
theorem targets_none_snoc (listing : List Value) (raw : Value) :
    targets none (listing ++ [raw]) =
      match Venue.resolve raw with
      | .ok p => (if (targets none listing).1.contains p then (targets none listing).1
          else (targets none listing).1 ++ [p], (targets none listing).2)
      | .error _ => ((targets none listing).1,
          (targets none listing).2 ++ ["ignoring unsupported venue '" ++ raw.plain ++ "'"]) := by
  simp only [targets, List.foldl_append, List.foldl_cons, List.foldl_nil]
  cases Venue.resolve raw <;> rfl

/-- Restricting the targets to the enabled venues keeps their order and the warnings. -/
theorem targets_some (es : List Venue) (listing : List Value) :
    targets (some es) listing = ((targets none listing).1.filter es.contains, (targets none listing).2) :=
  rfl

/-- Each target venue is listed once. -/
theorem targets_nodup (enabled : Option (List Venue)) (listing : List Value) :
    (targets enabled listing).1.Nodup := by
  have hnone : (targets none listing).1.Nodup := by
    induction listing using List.reverseRecOn with
    | nil => exact List.nodup_nil
    | append_singleton listing raw ih =>
      rw [targets_none_snoc]
      split
      · next p _ =>
        dsimp only
        split
        · exact ih
        · next hp =>
          rw [← List.concat_eq_append]
          exact ih.concat (by simpa using hp)
      · exact ih
  cases enabled with
  | none => exact hnone
  | some es => exact hnone.filter _

/-- The warnings of a listing are all about names that name no venue. -/
theorem targets_warnings (enabled : Option (List Venue)) (listing : List Value) :
    ∀ w ∈ (targets enabled listing).2, ∃ x, w = "ignoring unsupported venue '" ++ x ++ "'" := by
  have hnone : ∀ w ∈ (targets none listing).2, ∃ x, w = "ignoring unsupported venue '" ++ x ++ "'" := by
    induction listing using List.reverseRecOn with
    | nil => simp [targets]
    | append_singleton listing raw ih =>
      rw [targets_none_snoc]
      split
      · exact ih
      · intro w hw
        rcases List.mem_append.1 hw with hw | hw
        · exact ih w hw
        · exact ⟨raw.plain, List.mem_singleton.1 hw⟩
  cases enabled with
  | none => exact hnone
  | some es => exact hnone

/-- No warning of a listing names a venue. -/
theorem countP_targets_warnings (enabled : Option (List Venue)) (listing : List Value) (v : Venue)
    (s : String) : (targets enabled listing).2.countP (·.startsWith (v.name ++ s)) = 0 :=
  List.countP_eq_zero.2 fun w hw => by
    obtain ⟨x, rfl⟩ := targets_warnings enabled listing w hw
    simp [unsupported_names_none]

end Targets

/-- The drop warnings of some dropped venues name each of them as dropped, as often as it is
there, and no venue as filtered. -/
theorem countP_drop_warnings (ds : List (Venue × String)) (v : Venue) :
    (ds.map fun (p, why) => p.name ++ " dropped: " ++ why).countP
        (·.startsWith (v.name ++ " dropped:")) = (ds.map Prod.fst).count v ∧
      (ds.map fun (p, why) => p.name ++ " dropped: " ++ why).countP
        (·.startsWith (v.name ++ " filtered:")) = 0 := by
  constructor
  · simp only [List.countP_map, List.count, Function.comp_def, dropped_names]
  · simp [List.countP_map, Function.comp_def, dropped_names_no_filtered]

/-- The warning of an unusable quote is a drop warning with the quote as its reason. -/
theorem unusable_warning_eq (p : Venue) (x y : String) :
    p.name ++ " dropped: no usable liquidity quoted (price=" ++ x ++ ", depth=" ++ y ++ ")" =
      p.name ++ " dropped: " ++ ("no usable liquidity quoted (price=" ++ x ++ ", depth=" ++ y ++ ")") := by
  simp only [String.append_assoc]
  rfl

/-- The warning of a candidate above the cap is a filter warning with the slippages as its
reason. -/
theorem capped_warning_eq (p : Venue) (x y : String) :
    p.name ++ " filtered: slippage " ++ x ++ "% > max " ++ y ++ "%" =
      p.name ++ " filtered: " ++ ("slippage " ++ x ++ "% > max " ++ y ++ "%") := by
  simp only [String.append_assoc]
  rfl

section Stages

open Numeric

variable {α : Type} [Numeric α] [Display α] (cfg : RouterConfig α) (table : VenueTable α)
  (req : Request α)

omit [Display α] in
@[simp] theorem candidate_venue (p : Venue) (q : Quote α) (size : α) :
    (candidate cfg table req p q size).venue = p := rfl

/-- Each quoted venue becomes a candidate or is dropped as unusable, once. -/
theorem price_perm (quotes : List (Venue × Quote α)) :
    ((usableCandidates cfg table req quotes).map (·.venue) ++
      (price cfg table req quotes).dropped.map Prod.fst).Perm (quotes.map Prod.fst) := by
  rw [price_eq]
  induction quotes with
  | nil => simp [usableCandidates]
  | cons pq quotes ih =>
    obtain ⟨p, q⟩ := pq
    by_cases hq : usable q
    · simpa [usableCandidates, hq] using ih.cons p
    · -- An unusable quote joins the drops, behind the candidates.
      simpa [usableCandidates, hq] using List.perm_middle.trans (ih.cons p)

/-- The warnings of the pricing name the venues of the unusable quotes as dropped, and no venue
as filtered. -/
theorem countP_price_warnings (quotes : List (Venue × Quote α)) (v : Venue) :
    (price cfg table req quotes).warnings.countP (·.startsWith (v.name ++ " dropped:")) =
        ((price cfg table req quotes).dropped.map Prod.fst).count v ∧
      (price cfg table req quotes).warnings.countP (·.startsWith (v.name ++ " filtered:")) = 0 := by
  rw [price_eq]
  induction quotes with
  | nil => simp
  | cons pq quotes ih =>
    obtain ⟨p, q⟩ := pq
    by_cases hq : usable q
    · simpa [hq] using ih
    · simp only [unusable_warning_eq] at ih
      simp only [hq, Bool.false_eq_true, if_false, List.filterMap_cons, List.countP_cons,
        List.map_cons, List.count_cons, unusable_warning_eq, dropped_names,
        dropped_names_no_filtered]
      omega

omit [Display α] in
/-- The venues of the candidates within the cap and of those above it are the venues of the
candidates, each once. -/
theorem underCap_perm (cs : List (Candidate α)) :
    ((underCap cfg cs).map (·.venue) ++
      (cs.filter fun c => decide (cfg.maxSlippage < c.slippage)).map (·.venue)).Perm
      (cs.map (·.venue)) := by
  rw [← List.map_append]
  refine List.Perm.map _ ?_
  simpa [underCap] using List.filter_append_perm (fun c => !decide (cfg.maxSlippage < c.slippage)) cs

/-- The warnings of the cap name the venues of the candidates above it as filtered, and no venue
as dropped. -/
theorem countP_withinCap_warnings (cs : List (Candidate α)) (v : Venue) :
    (withinCap cfg cs).2.countP (·.startsWith (v.name ++ " filtered:")) =
        ((cs.filter fun c => decide (cfg.maxSlippage < c.slippage)).map (·.venue)).count v ∧
      (withinCap cfg cs).2.countP (·.startsWith (v.name ++ " dropped:")) = 0 := by
  rw [withinCap_eq]
  induction cs with
  | nil => simp
  | cons c cs ih =>
    by_cases hc : cfg.maxSlippage < c.slippage
    · simp only [capped_warning_eq] at ih
      simp only [hc, if_true, decide_true, List.filterMap_cons, List.filter_cons, List.countP_cons,
        List.map_cons, List.count_cons, capped_warning_eq, filtered_names, filtered_names_no_dropped,
        Bool.false_eq_true, if_false]
      omega
    · simpa [hc] using ih

end Stages

section Collect

variable {α : Type} (cfg : RouterConfig α) (req : Request α) {listing : List Value}
  {fetch : Except Fault (Venue → Fetched α)}

/-- A collection that succeeds asked the venues through some `f`: its quotes are the targets'
answers, each target is among its quotes or its drops, once, and its warnings are those of the
listing, then one drop warning for each dropped venue. -/
theorem collect_accounts {col : Collection α} {ws : List String}
    (h : collect cfg req listing fetch = .ok (col, ws)) :
    ∃ f, fetch = .ok f ∧ col.quotes = answers f (targets cfg.enabled listing).1 ∧
      (col.quotes.map Prod.fst ++ col.dropped.map Prod.fst).Perm (targets cfg.enabled listing).1 ∧
      ws = (targets cfg.enabled listing).2 ++
        col.dropped.map fun (p, why) => p.name ++ " dropped: " ++ why := by
  obtain ⟨f, hf, -, hg, hws⟩ := collect_eq_ok cfg req h
  obtain ⟨hno, rfl⟩ := Collection.gather_eq_ok hg
  refine ⟨f, hf, by simp [answers, List.filterMap_map], ?_, hws⟩
  simpa [List.map_map, Function.comp_def] using Collection.gather_perm _ hno

end Collect

/-- How a found route accounts for the target venues `ps`, given the venues `filtered` of the
candidates above the cap: the dropped venues, the ranked candidates and the filtered venues are
the targets, each once; and each venue is named by as many `<venue> dropped:` warnings as it is
dropped, and by as many `<venue> filtered:` warnings as it is filtered. -/
structure Accounts {α : Type} (ps filtered : List Venue) (out : Outcome α) : Prop where
  perm : (out.dropped.map Prod.fst ++ out.routes.map (·.venue) ++ filtered).Perm ps
  dropped_warnings : ∀ v : Venue,
    out.warnings.countP (·.startsWith (v.name ++ " dropped:")) = (out.dropped.map Prod.fst).count v
  filtered_warnings : ∀ v : Venue,
    out.warnings.countP (·.startsWith (v.name ++ " filtered:")) = filtered.count v

section Accounting

open Numeric

variable {α : Type} [Numeric α] [Display α] (cfg : RouterConfig α) (table : VenueTable α)
  (req : Request α)

/-- Each target of a collection is dropped, in the collection or by the pricing, or is a usable
candidate, once. -/
theorem dropped_perm {col : Collection α} {ps : List Venue}
    (hcol : (col.quotes.map Prod.fst ++ col.dropped.map Prod.fst).Perm ps) :
    ((col.dropped ++ (price cfg table req col.quotes).dropped).map Prod.fst ++
      (usableCandidates cfg table req col.quotes).map (·.venue)).Perm ps := by
  have hp := List.perm_iff_count.1 (price_perm cfg table req col.quotes)
  have hc := List.perm_iff_count.1 hcol
  refine List.perm_iff_count.2 fun v => ?_
  have e1 := hp v
  have e2 := hc v
  simp only [List.map_append, List.count_append] at e1 e2 ⊢
  omega

/-- A found route accounts for the targets of its collection. -/
theorem found_accounts {col : Collection α} {ws : List String} {ps : List Venue} {out : Outcome α}
    (hcol : (col.quotes.map Prod.fst ++ col.dropped.map Prod.fst).Perm ps)
    (hws : ws = (targets cfg.enabled listing).2 ++
      col.dropped.map fun (p, why) => p.name ++ " dropped: " ++ why)
    (hdropped : out.dropped = col.dropped ++ (price cfg table req col.quotes).dropped)
    (hroutes : out.routes = Rank.rank cfg.mode req.side cfg.preferMaker
      (withinCap cfg (price cfg table req col.quotes).candidates).1)
    {extra : List String}
    (hwarnings : out.warnings = ws ++ (price cfg table req col.quotes).warnings ++
      (withinCap cfg (price cfg table req col.quotes).candidates).2 ++ extra)
    (hextra : ∀ w ∈ extra, w.startsWith "target slippage exceeded: " = true) :
    Accounts ps (((usableCandidates cfg table req col.quotes).filter
      fun c => decide (cfg.maxSlippage < c.slippage)).map (·.venue)) out := by
  rw [price_candidates, withinCap_fst] at hroutes
  rw [price_candidates] at hwarnings
  -- The ranking keeps the candidates within the cap, and those with the ones above it are all.
  have hr := List.perm_iff_count.1 ((Rank.rank_perm cfg.mode req.side cfg.preferMaker
    (underCap cfg (usableCandidates cfg table req col.quotes))).map (·.venue))
  have hu := List.perm_iff_count.1 (underCap_perm cfg (usableCandidates cfg table req col.quotes))
  have hd := List.perm_iff_count.1 (dropped_perm cfg table req hcol)
  -- The warning that the target slippage was exceeded names no venue.
  have hx : ∀ (v : Venue) (s : String), extra.countP (·.startsWith (v.name ++ s)) = 0 :=
    fun v s => List.countP_eq_zero.2 fun w hw => by simp [exceeded_names_none (hextra w hw)]
  refine ⟨List.perm_iff_count.2 fun v => ?_, fun v => ?_, fun v => ?_⟩
  · have e1 := hr v
    have e2 := hu v
    have e3 := hd v
    rw [hroutes, hdropped]
    simp only [List.map_append, List.count_append] at e2 e3 ⊢
    omega
  · obtain ⟨p1, -⟩ := countP_price_warnings cfg table req col.quotes v
    obtain ⟨-, c1⟩ := countP_withinCap_warnings cfg (usableCandidates cfg table req col.quotes) v
    obtain ⟨d1, -⟩ := countP_drop_warnings col.dropped v
    rw [hwarnings, hws, hdropped, withinCap_eq]
    simp only [List.countP_append, countP_targets_warnings, d1, p1, hx, List.map_append,
      List.count_append]
    rw [withinCap_eq] at c1
    simp only at c1
    omega
  · obtain ⟨-, p2⟩ := countP_price_warnings cfg table req col.quotes v
    obtain ⟨c2, -⟩ := countP_withinCap_warnings cfg (usableCandidates cfg table req col.quotes) v
    obtain ⟨-, d2⟩ := countP_drop_warnings col.dropped v
    rw [hwarnings, hws, withinCap_eq]
    rw [withinCap_eq] at c2
    simp only [List.countP_append, countP_targets_warnings, d2, p2, hx] at c2 ⊢
    omega

/-- A route, or a refusal for want of liquidity, comes after a collection that succeeded. -/
theorem collect_ok_of_route {listing : List Value} {fetch : Except Fault (Venue → Fetched α)}
    {ans : Except (RouteError α) (Outcome α)} (h : route cfg table req listing fetch = ans)
    (hans : ∀ e, ans = .error e → ∃ rf, e = .refused rf ∧ rf.kind = .noLiquidity) :
    ∃ col ws, collect cfg req listing fetch = .ok (col, ws) := by
  cases hc : collect cfg req listing fetch with
  | ok v => exact ⟨v.1, v.2, rfl⟩
  | error e =>
    -- A collection fails as an invalid request or with a fault.
    rw [route_of_collect_error cfg table req hc] at h
    obtain ⟨rf, rfl, hk⟩ := hans e h.symm
    rcases collect_eq_error cfg req hc with ⟨rf', he, hk', -⟩ | ⟨f, he, -⟩
    · cases he
      rw [hk] at hk'
      cases hk'
    · cases he

/-- Routing accounts for its target venues: they are listed once; a found route accounts for them
(`Accounts`), the filtered venues being those of the usable candidates above the cap; and a
refusal for want of liquidity carries drops that, with the usable candidates, are the targets,
each once, and carries those candidates in some order. -/
theorem route_accounts (listing : List Value) (fetch : Except Fault (Venue → Fetched α)) :
    let ps := (targets cfg.enabled listing).1
    ps.Nodup ∧
      (∀ out, route cfg table req listing fetch = .ok out → ∃ f, fetch = .ok f ∧
        Accounts ps (((usableCandidates cfg table req (answers f ps)).filter
          fun c => decide (cfg.maxSlippage < c.slippage)).map (·.venue)) out) ∧
      (∀ rf, route cfg table req listing fetch = .error (.refused rf) →
        rf.kind = .noLiquidity → ∃ f, fetch = .ok f ∧
          (rf.dropped.map Prod.fst ++
            (usableCandidates cfg table req (answers f ps)).map (·.venue)).Perm ps ∧
          rf.routes.Perm (usableCandidates cfg table req (answers f ps))) := by
  intro ps
  refine ⟨targets_nodup _ _, fun out h => ?_, fun rf h hk => ?_⟩
  · -- A route: the stages of `Settled.found` account for every target.
    obtain ⟨col, ws, hc⟩ := collect_ok_of_route cfg table req h fun e he => by cases he
    obtain ⟨f, rfl, hq, hcol, hws⟩ := collect_accounts cfg req hc
    have hs := route_settled cfg table req hc
    rw [h] at hs
    refine ⟨f, rfl, ?_⟩
    rw [← hq]
    cases hs with
    | found _ hdropped hroutes extra hwarnings hextra =>
      exact found_accounts cfg table req hcol hws hdropped hroutes hwarnings hextra
  · -- No liquidity: the refusal carries the drops and the candidates (`Settled.dry`).
    obtain ⟨col, ws, hc⟩ := collect_ok_of_route cfg table req h fun e he => by
      cases he
      exact ⟨rf, rfl, hk⟩
    obtain ⟨f, rfl, hq, hcol, hws⟩ := collect_accounts cfg req hc
    have hs := route_settled cfg table req hc
    rw [h] at hs
    refine ⟨f, rfl, ?_⟩
    rw [← hq]
    cases hs with
    | dry _ _ hdropped _ hroutes =>
      rw [price_candidates] at hroutes
      exact ⟨hdropped ▸ dropped_perm cfg table req hcol, hroutes⟩

end Accounting

end Router

namespace Desk

/-- An answer of a desk that is a route or a refusal for want of liquidity routed a valid order:
it is the answer of routing the order with the feed's listing for its market. -/
theorem findBestRoute_routed (d : Desk) (cfg : RouterConfig Num) (hd : d.setup = .config cfg)
    (o : Order) {ans : Except (RouteError Num) (Outcome Num)} (h : (d.findBestRoute o).2 = ans)
    (hans : ∀ e, ans = .error e → ∃ rf, e = .refused rf ∧ rf.kind = .noLiquidity) :
    ∃ req listing, validate o = .ok req ∧ d.feed.listing (.str req.market) = .ok listing ∧
      Router.route cfg d.table req listing ((timing cfg).map (d.feed.fetch (.str req.market))) =
        ans := by
  rcases validate_cases o with ⟨req, hv, -⟩ | ⟨r, hv, hk⟩ | ⟨hv, -⟩
  · obtain ⟨listing, hl⟩ := Feed.listing_str d.feed req.market
    refine ⟨req, listing, hv, hl, ?_⟩
    rw [← h, findBestRoute_of_ok d o req cfg listing hv (prepare_config d cfg hd req listing hl)]
  · -- The checks refuse the order as invalid, which is no want of liquidity.
    rw [findBestRoute_of_error d o _ hv] at h
    obtain ⟨rf, he, hk'⟩ := hans _ h.symm
    cases he
    rw [hk] at hk'
    cases hk'
  · rw [findBestRoute_of_error d o _ hv] at h
    obtain ⟨rf, he, -⟩ := hans _ h.symm
    cases he

/-- Asking the venues through the desk's feed succeeds only within the time limits. -/
theorem fetch_eq_ok {cfg : RouterConfig Num} {g : Venue → Fetched Num} {market : Value}
    {feed : Feed} (h : (timing cfg).map (feed.fetch market) = .ok g) :
    ∃ t, timing cfg = .ok t ∧ g = feed.fetch market t := by
  cases ht : timing cfg with
  | error f =>
    rw [ht] at h
    cases h
  | ok t =>
    rw [ht] at h
    exact ⟨t, rfl, (Except.ok.inj h).symm⟩

/-- A desk's answer to any order accounts for the target venues of the order's market, each once.
A found route holds the targets, each once, among its dropped venues, its ranked candidates and
the usable candidates above the cap; each venue is named by as many `<venue> dropped:` warnings
as it is dropped and by as many `<venue> filtered:` warnings as it is filtered. A refusal for want
of liquidity holds them among its dropped venues and the usable candidates, which it carries. -/
theorem findBestRoute_accounts (d : Desk) (cfg : RouterConfig Num) (hd : d.setup = .config cfg)
    (o : Order) :
    (∀ out, (d.findBestRoute o).2 = .ok out →
      ∃ req listing t, validate o = .ok req ∧ d.feed.listing (.str req.market) = .ok listing ∧
        timing cfg = .ok t ∧
        let ps := (Router.targets cfg.enabled listing).1
        let cands := Router.usableCandidates cfg d.table req
          (Router.answers (d.feed.fetch (.str req.market) t) ps)
        ps.Nodup ∧ Router.Accounts ps
          ((cands.filter fun c => decide (cfg.maxSlippage < c.slippage)).map (·.venue)) out) ∧
    (∀ rf, (d.findBestRoute o).2 = .error (.refused rf) → rf.kind = .noLiquidity →
      ∃ req listing t, validate o = .ok req ∧ d.feed.listing (.str req.market) = .ok listing ∧
        timing cfg = .ok t ∧
        let ps := (Router.targets cfg.enabled listing).1
        let cands := Router.usableCandidates cfg d.table req
          (Router.answers (d.feed.fetch (.str req.market) t) ps)
        ps.Nodup ∧ (rf.dropped.map Prod.fst ++ cands.map (·.venue)).Perm ps ∧
          rf.routes.Perm cands) := by
  refine ⟨fun out h => ?_, fun rf h hk => ?_⟩
  · obtain ⟨req, listing, hv, hl, hr⟩ := findBestRoute_routed d cfg hd o h fun e he => by cases he
    obtain ⟨hnodup, hfound, -⟩ := Router.route_accounts cfg d.table req listing
      ((timing cfg).map (d.feed.fetch (.str req.market)))
    obtain ⟨g, hg, hacc⟩ := hfound out hr
    obtain ⟨t, ht, rfl⟩ := fetch_eq_ok hg
    exact ⟨req, listing, t, hv, hl, ht, hnodup, hacc⟩
  · obtain ⟨req, listing, hv, hl, hr⟩ := findBestRoute_routed d cfg hd o h fun e he => by
      cases he
      exact ⟨rf, rfl, hk⟩
    obtain ⟨hnodup, -, hdry⟩ := Router.route_accounts cfg d.table req listing
      ((timing cfg).map (d.feed.fetch (.str req.market)))
    obtain ⟨g, hg, hperm, hroutes⟩ := hdry rf hr hk
    obtain ⟨t, ht, rfl⟩ := fetch_eq_ok hg
    exact ⟨req, listing, t, hv, hl, ht, hnodup, hperm, hroutes⟩

/-- A desk with the standard configuration, a feed where kalshi quotes market `m1` and drift is
halted on it, and an order to buy `100`. -/
theorem findBestRoute_accounts_halted_venue :
    let d : Desk := ⟨{ Feed.empty with
        quotes := [((.str "m1", .kalshi), ⟨.float 0.5, .float 1000.0⟩)]
        down := [((.str "m1", .drift), .str "halted")] },
      .config RouterConfig.standard, VenueTable.standard, none⟩
    let o : Order := ⟨.str "m1", .str "buy", .num (.float 100.0), false⟩
    let cfg : RouterConfig Num := RouterConfig.standard
    d.setup = .config cfg ∧
    (∀ out, (d.findBestRoute o).2 = .ok out →
      ∃ req listing t, validate o = .ok req ∧ d.feed.listing (.str req.market) = .ok listing ∧
        timing cfg = .ok t ∧
        let ps := (Router.targets cfg.enabled listing).1
        let cands := Router.usableCandidates cfg d.table req
          (Router.answers (d.feed.fetch (.str req.market) t) ps)
        ps.Nodup ∧ Router.Accounts ps
          ((cands.filter fun c => decide (cfg.maxSlippage < c.slippage)).map (·.venue)) out) ∧
    (∀ rf, (d.findBestRoute o).2 = .error (.refused rf) → rf.kind = .noLiquidity →
      ∃ req listing t, validate o = .ok req ∧ d.feed.listing (.str req.market) = .ok listing ∧
        timing cfg = .ok t ∧
        let ps := (Router.targets cfg.enabled listing).1
        let cands := Router.usableCandidates cfg d.table req
          (Router.answers (d.feed.fetch (.str req.market) t) ps)
        ps.Nodup ∧ (rf.dropped.map Prod.fst ++ cands.map (·.venue)).Perm ps ∧
          rf.routes.Perm cands) :=
  ⟨rfl, findBestRoute_accounts _ _ rfl _⟩

end Desk

end TradeDesk
