import Mathlib
import TradeDesk.Proofs.Partition

/-!
# What a desk answers besides a route

Quoting an order (`Desk.getQuotes`) goes the way routing it (`Desk.findBestRoute`) goes up to the
ranking of the candidates within the cap, and `Desk.getQuotes_agrees` says the two answers agree:
quoting answers the ranked candidates of a route found, nothing where routing finds no liquidity,
and the same refusal exactly where routing refuses an order as invalid.

Every refusal is an invalid request or a want of liquidity; what else stops a desk set up with a
configuration is a fault, and `Desk.findBestRoute_faults` says which. It is a whole number beyond
binary64, met where it is converted: the order's size, a time limit of the configuration, or a
number in a venue's verbatim answer; or, for routing only, a split of an order over venues whose
weights come to nothing. A size beyond binary64 is such a fault, where any other size that does not
convert, or converts to a value that is not finite and above zero, is an invalid request.
-/

namespace TradeDesk

/-- A number fails to convert to binary64 only as a whole number beyond the range. -/
theorem Num.toFloat?_eq_error {n : Num} {f : Fault} (h : n.toFloat? = .error f) : f = .tooLarge := by
  cases n with
  | int n =>
    by_cases ho : Binary64.intOverflows n
    · simp only [Num.toFloat?, ho, if_true, Except.error.injEq] at h
      exact h.symm
    · simp only [Num.toFloat?, ho, Bool.false_eq_true, if_false, reduceCtorEq] at h
  | float x => cases h

namespace Timing

/-- Converting milliseconds fails only on a whole number beyond binary64. -/
theorem seconds_eq_error {ms : Nat} {f : Fault} (h : seconds ms = .error f) : f = .tooLarge := by
  unfold seconds at h
  cases hx : (Num.int ms).toFloat? with
  | error g =>
    rw [hx] at h
    cases h
    exact Num.toFloat?_eq_error hx
  | ok x =>
    rw [hx] at h
    cases h

/-- Converting both limits fails only on a whole number beyond binary64. -/
theorem ofMillis_eq_error {quoteMs routeMs : Nat} {f : Fault}
    (h : ofMillis quoteMs routeMs = .error f) : f = .tooLarge := by
  unfold ofMillis at h
  cases hq : seconds quoteMs with
  | error g =>
    rw [hq] at h
    cases h
    exact seconds_eq_error hq
  | ok q =>
    cases hr : seconds routeMs with
    | error g =>
      rw [hq, hr] at h
      cases h
      exact seconds_eq_error hr
    | ok r =>
      rw [hq, hr] at h
      cases h

end Timing

/-- The entry found for a market and venue is the entry of one of the keys. -/
theorem Keyed.find?_mem {β : Type} {xs : Keyed β} {market : Value} {v : Venue} {b : β}
    (h : xs.find? market v = some b) : ∃ e ∈ xs, e.2 = b := by
  obtain ⟨e, he, rfl⟩ := Option.map_eq_some_iff.1 h
  exact ⟨e, List.mem_of_find?_eq_some he, rfl⟩

namespace Feed

/-- A verbatim answer reads as a fault only on a whole number beyond binary64. -/
theorem readQuote_eq_fault {answer : Value} {e : Fault} (h : readQuote answer = .fault e) :
    e = .tooLarge := by
  unfold readQuote at h
  dsimp only at h
  -- Past the shape checks, each of the price and the depth is converted, and only a conversion
  -- beyond binary64 is a fault; every other way through is a drop or a quote.
  split at h
  · split at h
    · cases h
    · cases h
    · split at h
      · split at h
        · cases h
        · cases h
          rfl
        · cases h
      · cases h
        rfl
      · cases h
    · cases h
  · cases h

/-- Asking a venue faults only on a verbatim answer of the feed that reads as a fault, which is a
whole number beyond binary64. -/
theorem fetch_eq_fault (f : Feed) {market : Value} {t : Timing} {v : Venue} {e : Fault}
    (h : f.fetch market t v = .fault e) :
    e = .tooLarge ∧ ∃ x ∈ f.raw, readQuote x.2 = .fault .tooLarge := by
  unfold fetch at h
  split at h
  · cases h
  dsimp only at h
  split at h
  · cases h
  split at h
  · next answer ha =>
    obtain ⟨x, hx, rfl⟩ := Keyed.find?_mem ha
    obtain rfl := readQuote_eq_fault h
    exact ⟨rfl, x, hx, h⟩
  split at h
  · cases h
  -- Unavailable, the installed quote, or not listed: none of them a fault.
  split at h <;> (try split at h) <;> cases h

end Feed

namespace Router

variable {α : Type} [Numeric α] [Display α] (cfg : RouterConfig α) (table : VenueTable α)
  (req : Request α) (listing : List Value) (fetch : Except Fault (Venue → Fetched α))

/-- A fault of a collection came from the venues: they could not be asked, or a target venue's
answer was the fault. -/
def VenueFault (f : Fault) : Prop :=
  fetch = .error f ∨ ∃ g, fetch = .ok g ∧ ∃ p ∈ (targets cfg.enabled listing).1, g p = .fault f

/-- Quoting and routing agree: quoting answers the ranked candidates of a route found, nothing
where routing finds no liquidity, and the refusal of an invalid request exactly where routing
refuses it. -/
theorem quotes_agree :
    (∀ out, route cfg table req listing fetch = .ok out →
      quotes cfg table req listing fetch = .ok out.routes) ∧
    (∀ rf, route cfg table req listing fetch = .error (.refused rf) → rf.kind = .noLiquidity →
      quotes cfg table req listing fetch = .ok []) ∧
    (∀ rf, rf.kind = .invalidRequest →
      (route cfg table req listing fetch = .error (.refused rf) ↔
        quotes cfg table req listing fetch = .error (.refused rf))) := by
  rw [quotes_of_collect]
  cases hc : collect cfg req listing fetch with
  | error e =>
    -- Both pass on the collection's failure, and a collection refuses only invalid requests.
    rw [route_of_collect_error cfg table req hc]
    refine ⟨fun out h => (nomatch h), fun rf h hk => ?_, fun rf _ => by simp [Except.map]⟩
    cases h
    rcases collect_eq_error cfg req hc with ⟨rf', he, hk', -⟩ | ⟨f, he, -⟩
    · cases he
      rw [hk'] at hk
      cases hk
    · cases he
  | ok v =>
    obtain ⟨col, ws⟩ := v
    have hs := route_settled cfg table req hc
    generalize route cfg table req listing fetch = ans at hs
    cases hs with
    | found out _ routes =>
      refine ⟨fun o h => ?_, fun rf h => (nomatch h), fun rf _ => ⟨fun h => (nomatch h), fun h => (nomatch h)⟩⟩
      cases h
      exact congrArg Except.ok routes.symm
    | dry rf₀ kind _ capped _ =>
      refine ⟨fun o h => (nomatch h), fun rf _ _ => ?_, fun rf hk => ⟨fun h => ?_, fun h => (nomatch h)⟩⟩
      · -- Nothing within the cap ranks as nothing.
        exact congrArg Except.ok ((Rank.rank_eq_nil_iff _ _ _ _).2 capped)
      · cases h
        rw [kind] at hk
        cases hk
    | weightless _ =>
      exact ⟨fun o h => (nomatch h), fun rf h => (nomatch h),
        fun rf _ => ⟨fun h => (nomatch h), fun h => (nomatch h)⟩⟩

/-- Routing faults where the venues do, or where the candidates are all above the cap and the
split over them has nothing to weigh. -/
theorem route_eq_fault {f : Fault} (h : route cfg table req listing fetch = .error (.fault f)) :
    VenueFault cfg listing fetch f ∨ f = .weightsSumToZero := by
  cases hc : collect cfg req listing fetch with
  | error e =>
    rw [route_of_collect_error cfg table req hc] at h
    cases h
    rcases collect_eq_error cfg req hc with ⟨rf, he, -⟩ | ⟨g, he, hv⟩
    · cases he
    · cases he
      exact .inl hv
  | ok v =>
    have hs := route_settled cfg table req hc
    rw [h] at hs
    cases hs
    exact .inr rfl

/-- Quoting faults only where the venues do. -/
theorem quotes_eq_fault {f : Fault} (h : quotes cfg table req listing fetch = .error (.fault f)) :
    VenueFault cfg listing fetch f := by
  rw [quotes_of_collect] at h
  cases hc : collect cfg req listing fetch with
  | error e =>
    rw [hc] at h
    cases h
    rcases collect_eq_error cfg req hc with ⟨rf, he, -⟩ | ⟨g, he, hv⟩
    · cases he
    · cases he
      exact hv
  | ok v =>
    rw [hc] at h
    cases h

end Router

namespace Desk

/-- An order the checks refuse is quoted with the refusal. -/
theorem getQuotes_of_error (d : Desk) (o : Order) (e : RouteError Num)
    (hv : validate o = .error e) : d.getQuotes o = .error e := by
  unfold getQuotes
  rw [hv]
  rfl

/-- A valid order the desk cannot prepare is quoted, and routed, with the fault. -/
theorem answers_of_prepare_error (d : Desk) (o : Order) (req : Request Num) (f : Fault)
    (hv : validate o = .ok req) (hp : d.prepare req = .error f) :
    (d.findBestRoute o).2 = .error (.fault f) ∧ d.getQuotes o = .error (.fault f) := by
  unfold findBestRoute getQuotes
  rw [hv]
  dsimp only [bind, Except.bind]
  rw [hp]
  exact ⟨rfl, rfl⟩

/-- A valid order that the desk prepares is quoted with its quotes. -/
theorem getQuotes_of_ok (d : Desk) (o : Order) (req : Request Num) (cfg : RouterConfig Num)
    (listing : List Value) (hv : validate o = .ok req) (hp : d.prepare req = .ok (cfg, listing)) :
    d.getQuotes o =
      Router.quotes cfg d.table req listing ((timing cfg).map (d.feed.fetch (.str req.market))) := by
  unfold getQuotes
  rw [hv]
  dsimp only [bind, Except.bind]
  rw [hp]
  rfl

/-- The checks never refuse an order for want of liquidity. -/
theorem validate_refused_kind (o : Order) (rf : Refusal Num)
    (hv : validate o = .error (.refused rf)) : rf.kind = .invalidRequest := by
  rcases validate_cases o with ⟨req, h, -⟩ | ⟨r, h, hk⟩ | ⟨h, -⟩ <;> rw [h] at hv <;> cases hv
  exact hk

/-- Quoting an order agrees with routing it: when routing finds a route, quoting answers its
ranked candidates; when routing finds no liquidity, quoting answers none; and quoting refuses an
order as invalid exactly when routing does, with the same refusal. -/
theorem getQuotes_agrees (d : Desk) (o : Order) :
    (∀ out, (d.findBestRoute o).2 = .ok out → d.getQuotes o = .ok out.routes) ∧
    (∀ rf, (d.findBestRoute o).2 = .error (.refused rf) → rf.kind = .noLiquidity →
      d.getQuotes o = .ok []) ∧
    (∀ rf, rf.kind = .invalidRequest →
      ((d.findBestRoute o).2 = .error (.refused rf) ↔ d.getQuotes o = .error (.refused rf))) := by
  cases hv : validate o with
  | error e =>
    -- Both answer the refusal of the checks, which is never for want of liquidity.
    rw [findBestRoute_of_error d o e hv, getQuotes_of_error d o e hv]
    refine ⟨fun out h => (nomatch h), fun rf h hk => ?_, fun rf _ => by simp⟩
    cases h
    rw [validate_refused_kind o rf hv] at hk
    cases hk
  | ok req =>
    cases hp : d.prepare req with
    | error f =>
      obtain ⟨hr, hq⟩ := answers_of_prepare_error d o req f hv hp
      rw [hr, hq]
      exact ⟨fun out h => (nomatch h), fun rf h => (nomatch h),
        fun rf _ => ⟨fun h => (nomatch h), fun h => (nomatch h)⟩⟩
    | ok v =>
      obtain ⟨cfg, listing⟩ := v
      rw [findBestRoute_of_ok d o req cfg listing hv hp, getQuotes_of_ok d o req cfg listing hv hp]
      exact Router.quotes_agree cfg d.table req listing _

/-- The whole numbers beyond binary64 that an order can meet at a desk: its size, a time limit of
the configuration, or a number in one of the feed's verbatim answers. -/
def Overflows (d : Desk) (cfg : RouterConfig Num) (o : Order) : Prop :=
  o.size.toFloat? = .error .tooLarge ∨ timing cfg = .error .tooLarge ∨
    ∃ x ∈ d.feed.raw, Feed.readQuote x.2 = .fault .tooLarge

/-- Asking the venues through the desk's feed fails only where the time limits do. -/
theorem timing_of_fetch_eq_error {cfg : RouterConfig Num} {market : Value} {feed : Feed} {f : Fault}
    (h : (timing cfg).map (feed.fetch market) = .error f) : timing cfg = .error f := by
  cases ht : timing cfg with
  | error f' =>
    rw [ht] at h
    cases h
    rfl
  | ok t =>
    rw [ht] at h
    cases h

/-- The venues' faults under a desk's time limits and feed are overflows. -/
theorem venueFault_overflows (d : Desk) (cfg : RouterConfig Num) (o : Order) (m : Value)
    (listing : List Value) {f : Fault}
    (h : Router.VenueFault cfg listing ((timing cfg).map (d.feed.fetch m)) f) :
    f = .tooLarge ∧ d.Overflows cfg o := by
  rcases h with h | ⟨g, hg, p, -, hp⟩
  · -- The time limits did not convert.
    have ht := timing_of_fetch_eq_error h
    obtain rfl := Timing.ofMillis_eq_error ht
    exact ⟨rfl, .inr (.inl ht)⟩
  · -- A venue's verbatim answer read as a fault.
    obtain ⟨t, -, rfl⟩ := fetch_eq_ok hg
    obtain ⟨rfl, hraw⟩ := Feed.fetch_eq_fault d.feed hp
    exact ⟨rfl, .inr (.inr hraw)⟩

/-- A valid order at a desk set up with a configuration is routed and quoted over the feed's
listing of its market, under the configuration's time limits. -/
theorem answers_of_ok (d : Desk) (cfg : RouterConfig Num) (hd : d.setup = .config cfg) (o : Order)
    (req : Request Num) (hv : validate o = .ok req) :
    ∃ listing, let fetch := (timing cfg).map (d.feed.fetch (.str req.market))
      (d.findBestRoute o).2 = Router.route cfg d.table req listing fetch ∧
        d.getQuotes o = Router.quotes cfg d.table req listing fetch := by
  obtain ⟨listing, hl⟩ := Feed.listing_str d.feed req.market
  have hp := prepare_config d cfg hd req listing hl
  exact ⟨listing, findBestRoute_of_ok d o req cfg listing hv hp,
    getQuotes_of_ok d o req cfg listing hv hp⟩

/-- An order that passes the market and side checks with a size beyond binary64 is a fault. -/
theorem validate_of_size_tooLarge (o : Order) (m s : String) (sd : Side)
    (hm : o.market = .str m) (hne : m ≠ "") (hs : o.side = .str s)
    (hsd : Side.ofName? (Text.lower (Text.trim s)) = some sd) (hz : o.size.toFloat? = .error .tooLarge) :
    validate o = .error (.fault .tooLarge) := by
  obtain ⟨market, side, size, typed⟩ := o
  dsimp only at hm hs hz
  subst hm hs
  have he : m.isEmpty = false := String.isEmpty_eq_false_iff.2 hne
  unfold validate
  simp only [he, hsd, hz, Bool.false_eq_true, if_false, pure_bind]
  rfl

/-- A size that does not convert for a reason other than its magnitude, or converts to a value
that is not finite and above zero, fails the checks as an invalid request. -/
theorem validate_of_bad_size (o : Order)
    (hz : (∃ e, o.size.toFloat? = .error e ∧ e ≠ .tooLarge) ∨
      ∃ x : Float, o.size.toFloat? = .ok x ∧ (x.isFinite = false ∨ x ≤ 0.0)) :
    ∃ rf, validate o = .error (.refused rf) ∧ rf.kind = .invalidRequest := by
  rcases validate_cases o with ⟨req, -, ha⟩ | hr | ⟨-, htl⟩
  · -- An accepted size converts to a finite value above zero.
    obtain ⟨x, hx, hfin, hpos, -⟩ := ha.size
    rcases hz with ⟨e, he, -⟩ | ⟨y, hy, hbad⟩
    · rw [hx] at he
      cases he
    · rw [hx] at hy
      cases hy
      rcases hbad with hb | hb
      · rw [hfin] at hb
        cases hb
      · exact absurd hb hpos
  · exact hr
  · rcases hz with ⟨e, he, hne⟩ | ⟨y, hy, -⟩
    · rw [htl] at he
      cases he
      exact absurd rfl hne
    · rw [htl] at hy
      cases hy

/-- What stops a desk set up with a configuration, besides a refusal. Routing faults only on a
whole number beyond binary64 that the order meets (`Desk.Overflows`), or on a split whose weights
come to nothing; quoting only on such a whole number. An order that passes the market and side
checks with a size beyond binary64 is that fault, while a size that does not convert for another
reason, or converts to a value that is not finite and above zero, is an invalid request. -/
theorem findBestRoute_faults (d : Desk) (cfg : RouterConfig Num) (hd : d.setup = .config cfg)
    (o : Order) :
    (∀ f, (d.findBestRoute o).2 = .error (.fault f) →
      (f = .tooLarge ∧ d.Overflows cfg o) ∨ f = .weightsSumToZero) ∧
    (∀ f, d.getQuotes o = .error (.fault f) → f = .tooLarge ∧ d.Overflows cfg o) ∧
    (∀ m s sd, o.market = .str m → m ≠ "" → o.side = .str s →
      Side.ofName? (Text.lower (Text.trim s)) = some sd → o.size.toFloat? = .error .tooLarge →
      (d.findBestRoute o).2 = .error (.fault .tooLarge) ∧ d.getQuotes o = .error (.fault .tooLarge)) ∧
    ((∃ e, o.size.toFloat? = .error e ∧ e ≠ .tooLarge) ∨
        (∃ x : Float, o.size.toFloat? = .ok x ∧ (x.isFinite = false ∨ x ≤ 0.0)) →
      ∃ rf, rf.kind = .invalidRequest ∧ (d.findBestRoute o).2 = .error (.refused rf) ∧
        d.getQuotes o = .error (.refused rf)) := by
  refine ⟨fun f h => ?_, fun f h => ?_, fun m s sd hm hne hs hsd hz => ?_, fun hz => ?_⟩
  · rcases validate_cases o with ⟨req, hv, -⟩ | ⟨rf, hv, -⟩ | ⟨hv, htl⟩
    · obtain ⟨listing, hr, -⟩ := answers_of_ok d cfg hd o req hv
      rw [hr] at h
      exact (Router.route_eq_fault cfg d.table req listing _ h).imp_left
        (venueFault_overflows d cfg o _ listing)
    · rw [findBestRoute_of_error d o _ hv] at h
      cases h
    · rw [findBestRoute_of_error d o _ hv] at h
      cases h
      exact .inl ⟨rfl, .inl htl⟩
  · rcases validate_cases o with ⟨req, hv, -⟩ | ⟨rf, hv, -⟩ | ⟨hv, htl⟩
    · obtain ⟨listing, -, hq⟩ := answers_of_ok d cfg hd o req hv
      rw [hq] at h
      exact venueFault_overflows d cfg o _ listing (Router.quotes_eq_fault cfg d.table req listing _ h)
    · rw [getQuotes_of_error d o _ hv] at h
      cases h
    · rw [getQuotes_of_error d o _ hv] at h
      cases h
      exact ⟨rfl, .inl htl⟩
  · have hv := validate_of_size_tooLarge o m s sd hm hne hs hsd hz
    exact ⟨findBestRoute_of_error d o _ hv, getQuotes_of_error d o _ hv⟩
  · obtain ⟨rf, hv, hk⟩ := validate_of_bad_size o hz
    exact ⟨rf, hk, findBestRoute_of_error d o _ hv, getQuotes_of_error d o _ hv⟩

/-- A desk with the standard configuration and a feed of one quote, and an order to buy ten to
the power four hundred. -/
theorem findBestRoute_faults_huge_size :
    let d : Desk := ⟨{ Feed.empty with
        quotes := [((.str "m1", .kalshi), ⟨.float 0.5, .float 1000.0⟩)] },
      .config RouterConfig.standard, VenueTable.standard, none⟩
    let o : Order := ⟨.str "m1", .str "buy", .num (.int (Nat.pow 10 400)), false⟩
    let cfg : RouterConfig Num := RouterConfig.standard
    d.setup = .config cfg ∧
    (∀ f, (d.findBestRoute o).2 = .error (.fault f) →
      (f = .tooLarge ∧ d.Overflows cfg o) ∨ f = .weightsSumToZero) ∧
    (∀ f, d.getQuotes o = .error (.fault f) → f = .tooLarge ∧ d.Overflows cfg o) ∧
    (∀ m s sd, o.market = .str m → m ≠ "" → o.side = .str s →
      Side.ofName? (Text.lower (Text.trim s)) = some sd → o.size.toFloat? = .error .tooLarge →
      (d.findBestRoute o).2 = .error (.fault .tooLarge) ∧ d.getQuotes o = .error (.fault .tooLarge)) ∧
    ((∃ e, o.size.toFloat? = .error e ∧ e ≠ .tooLarge) ∨
        (∃ x : Float, o.size.toFloat? = .ok x ∧ (x.isFinite = false ∨ x ≤ 0.0)) →
      ∃ rf, rf.kind = .invalidRequest ∧ (d.findBestRoute o).2 = .error (.refused rf) ∧
        d.getQuotes o = .error (.refused rf)) :=
  ⟨rfl, findBestRoute_faults _ _ rfl _⟩

end Desk

end TradeDesk
