import Mathlib
import TradeDesk.Proofs.Exact
import TradeDesk.Routing.Cost
import TradeDesk.Config.Router

/-!
# The price of an order on one venue

`Cost.estimate` prices an order of some size against a venue's quote, and `Candidate.build`
reports the result as the venue's candidate. Read in exact arithmetic, for a usable quote (a
positive price and depth), a positive size and a configuration that passes validation
(`RouterConfig.Valid`), the breakdown is what `Cost.Priced` says (`estimate_priced`):

* the slippage is `100 * impact * size / depth`, so it is positive;
* the order rests as a maker exactly when resting is preferred and the order is at most the
  configured share of the depth; the fee rate is the maker rate then and the taker rate otherwise,
  and a negative rate (a rebate) counts as zero, so the fees are never negative;
* a purchase pays the quote moved up by the slippage, then the fee rate on top: its net price is at
  least its execution price, which is at least the quote;
* a sale receives the quote moved down by the slippage but never below zero, and pays the fee rate
  out of it: its net price is at most its execution price, which lies between zero and the quote.
  Nothing bounds the fee rate of a venue's overrides, and the floor at zero comes before the fees:
  the net price of a sale is negative exactly when the fee rate passes 10000 basis points and the
  sale still receives something.

Where the fee rates are ordered, maker below taker and taker at most 10000 basis points, a larger
order never gets a better price (`build_mono_size`). The slippage grows with the size, an order that
grows can only stop resting, which moves it from the maker rate to the taker rate, and each factor
of the net price moves against the order: for a sale both the execution price and what is left
after fees shrink, and neither goes below zero.
-/

namespace TradeDesk

/-- What validation guarantees of a router configuration (`RouterConfig.validate`), read in exact
arithmetic: a positive slippage cap and impact coefficient, a share of depth for resting orders in
`(0, 1]`, splits over at least two venues, and positive time limits. -/
structure RouterConfig.Valid (cfg : RouterConfig ℚ) : Prop where
  maxSlippage_pos : 0 < cfg.maxSlippage
  maxSplit_ge_two : 2 ≤ cfg.maxSplit
  impact_pos : 0 < cfg.impact
  ratio_pos : 0 < cfg.makerDepthRatio
  ratio_le_one : cfg.makerDepthRatio ≤ 1
  quoteTimeout_pos : 0 < cfg.quoteTimeoutMs
  routeTimeout_pos : 0 < cfg.routeTimeoutMs

/-- The standard configuration passes validation. -/
theorem RouterConfig.standard_valid : (RouterConfig.standard : RouterConfig ℚ).Valid := by
  constructor <;> norm_num [RouterConfig.standard]

/-- A quote that can be traded, in exact arithmetic, where every value is finite (`Cost.usableOf`):
a positive price and a positive depth. -/
structure Quote.Usable (q : Quote ℚ) : Prop where
  price_pos : 0 < q.price
  depth_pos : 0 < q.depth

/-- Whether the net price `a` is no worse than `b` for an order on `side`: no higher for a
purchase, no lower for a sale. -/
def Side.NoWorse : Side → ℚ → ℚ → Prop
  | .buy, a, b => a ≤ b
  | .sell, a, b => b ≤ a

/-- Whether the net price `a` is strictly better than `b` for an order on `side`. -/
def Side.Better : Side → ℚ → ℚ → Prop
  | .buy, a, b => a < b
  | .sell, a, b => b < a

instance Side.decidableNoWorse (side : Side) (a b : ℚ) : Decidable (side.NoWorse a b) :=
  match side with
  | .buy => inferInstanceAs (Decidable (a ≤ b))
  | .sell => inferInstanceAs (Decidable (b ≤ a))

instance Side.decidableBetter (side : Side) (a b : ℚ) : Decidable (side.Better a b) :=
  match side with
  | .buy => inferInstanceAs (Decidable (a < b))
  | .sell => inferInstanceAs (Decidable (b < a))

namespace Cost

open Numeric

/-! ## The breakdown, field by field -/

section Fields

variable {α : Type} [Numeric α] (q : Quote α) (side : Side) (venue : Profile α) (size : α)
  (preferMaker : Bool) (impact ratio : α)

@[simp] theorem estimate_slippage :
    (estimate q side venue size preferMaker impact ratio).slippage =
      slippagePercent size q.depth impact := by
  cases side <;> rfl

@[simp] theorem estimate_isMaker :
    (estimate q side venue size preferMaker impact ratio).isMaker =
      (preferMaker && canRest size q.depth ratio) := by
  cases side <;> rfl

@[simp] theorem estimate_feeBps :
    (estimate q side venue size preferMaker impact ratio).feeBps =
      larger 0.0 (venue.feeBps (preferMaker && canRest size q.depth ratio)) := by
  cases side <;> rfl

theorem estimate_fees :
    (estimate q side venue size preferMaker impact ratio).fees =
      size * (estimate q side venue size preferMaker impact ratio).feeBps / 10000.0 := by
  cases side <;> rfl

@[simp] theorem estimate_execPrice_buy :
    (estimate q .buy venue size preferMaker impact ratio).execPrice =
      q.price * ((1.0 : α) + slippagePercent size q.depth impact / 100.0) := rfl

theorem estimate_net_buy :
    (estimate q .buy venue size preferMaker impact ratio).net =
      (estimate q .buy venue size preferMaker impact ratio).execPrice *
        ((1.0 : α) + (estimate q .buy venue size preferMaker impact ratio).feeBps / 10000.0) := rfl

@[simp] theorem estimate_execPrice_sell :
    (estimate q .sell venue size preferMaker impact ratio).execPrice =
      larger 0.0 (q.price * ((1.0 : α) - slippagePercent size q.depth impact / 100.0)) := rfl

theorem estimate_net_sell :
    (estimate q .sell venue size preferMaker impact ratio).net =
      (estimate q .sell venue size preferMaker impact ratio).execPrice *
        ((1.0 : α) - (estimate q .sell venue size preferMaker impact ratio).feeBps / 10000.0) := rfl

end Fields

/-- The candidate carries the breakdown's net price, fees, slippage and maker status. -/
theorem build_reports {α : Type} [Numeric α] (v : Venue) (q : Quote α) (side : Side)
    (venue : Profile α) (size : α) (preferMaker : Bool) (impact ratio : α) :
    let c := estimate q side venue size preferMaker impact ratio
    let k := Candidate.build v q side venue size preferMaker impact ratio
    k.net = c.net ∧ k.fees = c.fees ∧ k.slippage = c.slippage ∧ k.isMaker = c.isMaker :=
  ⟨rfl, rfl, rfl, rfl⟩

/-! ## In exact arithmetic -/

/-- Linear impact: the share of the depth taken, times `100 * impact`. -/
theorem slippagePercent_rat (size depth impact : ℚ) :
    slippagePercent size depth impact = 100 * impact * size / depth := by
  rw [slippagePercent, hundred_point_rat, mul_div_assoc]

theorem slippagePercent_pos {size depth impact : ℚ} (hs : 0 < size) (hd : 0 < depth)
    (hk : 0 < impact) : 0 < slippagePercent size depth impact := by
  rw [slippagePercent_rat]
  positivity

/-- A larger order slips more. -/
theorem slippagePercent_mono {depth impact : ℚ} (hd : 0 < depth) (hk : 0 < impact) :
    Monotone fun size => slippagePercent size depth impact := by
  intro s s' hle
  simp only [slippagePercent_rat]
  gcongr

/-- An order rests when it is at most the share `ratio` of the depth. -/
theorem canRest_iff (size depth ratio : ℚ) : canRest size depth ratio = true ↔ size ≤ ratio * depth := by
  rw [canRest, decide_eq_true_iff, mul_comm]

/-- An order that rests would rest if it were smaller. -/
theorem canRest_of_le {s s' depth ratio : ℚ} (hle : s ≤ s') (h : canRest s' depth ratio = true) :
    canRest s depth ratio = true := by
  rw [canRest_iff] at h ⊢
  exact hle.trans h

/-- The fee rate applied: the rate of the order's kind, a rebate counted as zero. -/
theorem feeBps_rat (q : Quote ℚ) (side : Side) (venue : Profile ℚ) (size : ℚ) (preferMaker : Bool)
    (impact ratio : ℚ) :
    (estimate q side venue size preferMaker impact ratio).feeBps =
      max 0 (venue.feeBps (preferMaker && canRest size q.depth ratio)) := by
  rw [estimate_feeBps, larger_rat, zero_point_rat]

/-- With the maker rate no higher than the taker rate, a larger order never pays a lower rate: as it
grows it can only stop resting. -/
theorem feeRate_mono {venue : Profile ℚ} (hfee : max 0 venue.makerBps ≤ max 0 venue.takerBps)
    (preferMaker : Bool) {depth ratio s s' : ℚ} (hle : s ≤ s') :
    max 0 (venue.feeBps (preferMaker && canRest s depth ratio)) ≤
      max 0 (venue.feeBps (preferMaker && canRest s' depth ratio)) := by
  cases preferMaker
  · exact le_rfl
  cases hs' : canRest s' depth ratio
  · -- The larger order crosses; the smaller one pays the maker or the taker rate.
    cases canRest s depth ratio
    · exact le_rfl
    · exact hfee
  · rw [canRest_of_le hle hs']

/-- A purchase pays at least the quote: the slippage moves it up. -/
theorem quote_le_execPrice_buy {price slip : ℚ} (hp : 0 < price) (hslip : 0 ≤ slip) :
    price ≤ price * ((1.0 : ℚ) + slip / 100.0) := by
  rw [one_point_rat, hundred_point_rat]
  have : 0 ≤ slip / 100 := by positivity
  exact le_mul_of_one_le_right hp.le (by linarith)

/-- A sale receives between zero and the quote before fees: the slippage moves the quote down, and
the floor at zero stops it there. -/
theorem execPrice_sell_mem {price slip : ℚ} (hp : 0 < price) (hslip : 0 ≤ slip) :
    0 ≤ larger 0.0 (price * ((1.0 : ℚ) - slip / 100.0)) ∧
      larger 0.0 (price * ((1.0 : ℚ) - slip / 100.0)) ≤ price := by
  rw [larger_rat, zero_point_rat, one_point_rat, hundred_point_rat]
  have : 0 ≤ slip / 100 := by positivity
  exact ⟨le_max_left _ _, max_le hp.le (mul_le_of_le_one_right hp.le (by linarith))⟩

/-- A purchase that slips more pays more. -/
theorem execPrice_buy_mono {price : ℚ} (hp : 0 < price) {slip slip' : ℚ} (hle : slip ≤ slip') :
    price * ((1.0 : ℚ) + slip / 100.0) ≤ price * ((1.0 : ℚ) + slip' / 100.0) := by
  rw [one_point_rat, hundred_point_rat]
  gcongr

/-- A sale that slips more receives less, down to zero. -/
theorem execPrice_sell_anti {price : ℚ} (hp : 0 < price) {slip slip' : ℚ} (hle : slip ≤ slip') :
    larger 0.0 (price * ((1.0 : ℚ) - slip' / 100.0)) ≤ larger 0.0 (price * ((1.0 : ℚ) - slip / 100.0)) := by
  rw [larger_rat, larger_rat, one_point_rat, hundred_point_rat]
  gcongr

/-! ## The breakdown of one order -/

/-- What pricing an order of `size` against the quote `q` on a venue with profile `venue` gives,
read in exact arithmetic. -/
structure Priced (q : Quote ℚ) (side : Side) (venue : Profile ℚ) (size : ℚ) (preferMaker : Bool)
    (impact ratio : ℚ) (c : Cost ℚ) : Prop where
  /-- Linear impact: taking the whole depth costs `100 * impact` percent. -/
  slippage_eq : c.slippage = 100 * impact * size / q.depth
  slippage_pos : 0 < c.slippage
  /-- The order rests exactly when resting is preferred and it is at most the share `ratio` of the
  depth. -/
  isMaker_iff : c.isMaker = true ↔ preferMaker = true ∧ size ≤ ratio * q.depth
  /-- The rate of the order's kind, a rebate counted as zero. -/
  feeBps_eq : c.feeBps = max 0 (venue.feeBps c.isMaker)
  fees_eq : c.fees = size * c.feeBps / 10000
  fees_nonneg : 0 ≤ c.fees
  /-- A purchase pays at least the quote, and the fees on top. -/
  buy : side = .buy → q.price ≤ c.execPrice ∧ c.execPrice ≤ c.net
  /-- A sale receives between zero and the quote, and the fees come out of that. Its net price is
  negative exactly when the fee rate passes 10000 basis points and the sale receives something. -/
  sell : side = .sell → 0 ≤ c.execPrice ∧ c.execPrice ≤ q.price ∧ c.net ≤ c.execPrice ∧
    (c.net < 0 ↔ 10000 < c.feeBps ∧ 0 < c.execPrice)

/-- A purchase's net price is its execution price times one plus the fee rate, at least that
price when the rate is not negative. -/
theorem le_net_buy {exec fee : ℚ} (he : 0 ≤ exec) (hf : 0 ≤ fee) :
    exec ≤ exec * ((1.0 : ℚ) + fee / 10000.0) := by
  rw [one_point_rat, ten_thousand_point_rat]
  have : 0 ≤ fee / 10000 := by positivity
  exact le_mul_of_one_le_right he (by linarith)

/-- A sale's net price is its execution price times one less the fee rate: at most that price when
the rate is not negative, and negative exactly when the rate passes 10000 basis points and the
price is positive. -/
theorem net_sell {exec fee : ℚ} (he : 0 ≤ exec) (hf : 0 ≤ fee) :
    exec * ((1.0 : ℚ) - fee / 10000.0) ≤ exec ∧
      (exec * ((1.0 : ℚ) - fee / 10000.0) < 0 ↔ 10000 < fee ∧ 0 < exec) := by
  rw [one_point_rat, ten_thousand_point_rat]
  have hfee : 0 ≤ fee / 10000 := by positivity
  refine ⟨mul_le_of_le_one_right he (by linarith), ?_⟩
  constructor
  · intro hneg
    -- A zero price nets zero, so the price is positive and the factor is what is negative.
    have hexec : 0 < exec := lt_of_le_of_ne he fun h => by simp [← h] at hneg
    have hfactor : 1 - fee / 10000 < 0 := neg_of_mul_neg_right hneg he
    refine ⟨?_, hexec⟩
    have : 1 < fee / 10000 := by linarith
    rwa [lt_div_iff₀ (by norm_num), one_mul] at this
  · rintro ⟨hf', hexec⟩
    have : 1 < fee / 10000 := by rwa [lt_div_iff₀ (by norm_num), one_mul]
    exact mul_neg_of_pos_of_neg hexec (by linarith)

/-- Pricing an order under a valid configuration, on a usable quote and with a positive size: the
breakdown is as `Priced` says, and the candidate reports it. -/
theorem estimate_priced {cfg : RouterConfig ℚ} (hcfg : cfg.Valid) {q : Quote ℚ} (hq : q.Usable)
    (v : Venue) (side : Side) (venue : Profile ℚ) {size : ℚ} (hs : 0 < size) :
    let c := estimate q side venue size cfg.preferMaker cfg.impact cfg.makerDepthRatio
    let k := Candidate.build v q side venue size cfg.preferMaker cfg.impact cfg.makerDepthRatio
    Priced q side venue size cfg.preferMaker cfg.impact cfg.makerDepthRatio c ∧
      k.net = c.net ∧ k.fees = c.fees ∧ k.slippage = c.slippage ∧ k.isMaker = c.isMaker := by
  intro c k
  refine ⟨?_, build_reports v q side venue size cfg.preferMaker cfg.impact cfg.makerDepthRatio⟩
  have hslip : 0 < c.slippage := by
    rw [estimate_slippage]
    exact slippagePercent_pos hs hq.depth_pos hcfg.impact_pos
  have hfee : c.feeBps = max 0 (venue.feeBps c.isMaker) := by
    rw [feeBps_rat, estimate_isMaker]
  have hfees : c.fees = size * c.feeBps / 10000 := by
    rw [estimate_fees, ten_thousand_point_rat]
  have hfee0 : 0 ≤ c.feeBps := hfee ▸ le_max_left _ _
  refine ⟨by rw [estimate_slippage, slippagePercent_rat], hslip, ?_, hfee, hfees,
    hfees ▸ div_nonneg (mul_nonneg hs.le hfee0) (by norm_num), ?_, ?_⟩
  · rw [estimate_isMaker, Bool.and_eq_true, canRest_iff]
  · -- A purchase: the quote moved up, then the fee factor of at least one.
    rintro rfl
    have hq' := quote_le_execPrice_buy hq.price_pos hslip.le
    rw [estimate_slippage] at hq'
    refine ⟨hq', ?_⟩
    rw [estimate_net_buy]
    exact le_net_buy (hq.price_pos.le.trans hq') hfee0
  · -- A sale: the quote moved down and floored, then the fee factor.
    rintro rfl
    rw [estimate_slippage] at hslip
    have hexec := execPrice_sell_mem hq.price_pos hslip.le
    rw [← estimate_execPrice_sell q venue size cfg.preferMaker cfg.impact cfg.makerDepthRatio]
      at hexec
    have hnet := net_sell hexec.1 hfee0
    rw [← estimate_net_sell] at hnet
    exact ⟨hexec.1, hexec.2, hnet.1, hnet.2⟩

/-- Selling 100 against a quote of `0.5` with depth 1000 on a venue whose taker rate is 20000 basis
points, without resting: the sale receives `0.4975` before fees, and its net price is negative. -/
theorem estimate_priced_past_full_fee :
    let cfg : RouterConfig ℚ := { RouterConfig.standard with preferMaker := false }
    let q : Quote ℚ := ⟨1 / 2, 1000⟩
    let venue : Profile ℚ := ⟨20000, 17, 800⟩
    let c := estimate q .sell venue 100 cfg.preferMaker cfg.impact cfg.makerDepthRatio
    let k := Candidate.build .kalshi q .sell venue 100 cfg.preferMaker cfg.impact cfg.makerDepthRatio
    cfg.Valid ∧ q.Usable ∧ (0 : ℚ) < 100 ∧
      (Priced q .sell venue 100 cfg.preferMaker cfg.impact cfg.makerDepthRatio c ∧
        k.net = c.net ∧ k.fees = c.fees ∧ k.slippage = c.slippage ∧ k.isMaker = c.isMaker) ∧
      c.feeBps = 20000 ∧ c.execPrice = 0.4975 ∧ c.net < 0 := by
  intro cfg q venue c k
  have hcfg : cfg.Valid := by
    constructor <;> norm_num [cfg, RouterConfig.standard]
  have hq : q.Usable := ⟨by norm_num [q], by norm_num [q]⟩
  have h := estimate_priced hcfg hq .kalshi .sell venue (show (0 : ℚ) < 100 by norm_num)
  have hfee : c.feeBps = 20000 := by
    rw [feeBps_rat]
    norm_num [cfg, venue, RouterConfig.standard, Profile.feeBps]
  have hexec : c.execPrice = 0.4975 := by
    rw [estimate_execPrice_sell, larger_rat, slippagePercent_rat]
    norm_num [cfg, q, RouterConfig.standard]
  refine ⟨hcfg, hq, by norm_num, h, hfee, hexec, ?_⟩
  exact ((h.1.sell rfl).2.2.2).2 ⟨by rw [hfee]; norm_num, by rw [hexec]; norm_num⟩

/-! ## A larger order -/

/-- The fee rate of either kind is at most the taker rate, rebates counted as zero, when the maker
rate is no higher. -/
theorem feeRate_le_taker {venue : Profile ℚ} (hfee : max 0 venue.makerBps ≤ max 0 venue.takerBps)
    (isMaker : Bool) : max 0 (venue.feeBps isMaker) ≤ max 0 venue.takerBps := by
  cases isMaker
  · exact le_rfl
  · exact hfee

/-- A purchase's net price grows with its execution price and its fee rate. -/
theorem net_buy_mono {e e' f f' : ℚ} (he : 0 ≤ e) (hle : e ≤ e') (hf : 0 ≤ f) (hf' : f ≤ f') :
    e * ((1.0 : ℚ) + f / 10000.0) ≤ e' * ((1.0 : ℚ) + f' / 10000.0) := by
  rw [one_point_rat, ten_thousand_point_rat]
  exact mul_le_mul hle (by gcongr) (by positivity) (he.trans hle)

/-- A sale's net price shrinks as its execution price shrinks and its fee rate grows, while the
rate stays at most 10000 basis points, so that what is left after fees is not negative. -/
theorem net_sell_anti {e e' f f' : ℚ} (he' : 0 ≤ e') (hle : e' ≤ e) (hf : f ≤ f')
    (hf' : f' ≤ 10000) :
    e' * ((1.0 : ℚ) - f' / 10000.0) ≤ e * ((1.0 : ℚ) - f / 10000.0) := by
  rw [one_point_rat, ten_thousand_point_rat]
  have hleft : 0 ≤ 1 - f' / 10000 := by
    rw [sub_nonneg, div_le_one (by norm_num)]
    exact hf'
  have hfactor : 1 - f' / 10000 ≤ 1 - f / 10000 := by gcongr
  exact mul_le_mul hle hfactor hleft (he'.trans hle)

/-- A larger order never gets a better price on a venue whose maker rate is no higher than its
taker rate and whose taker rate is at most 10000 basis points, rebates counted as zero: its
slippage and fees are no smaller, and its net price is no better, across the switch from resting
to crossing too. -/
theorem build_mono_size {cfg : RouterConfig ℚ} (hcfg : cfg.Valid) {q : Quote ℚ} (hq : q.Usable)
    (v : Venue) (side : Side) {venue : Profile ℚ}
    (hmaker : max 0 venue.makerBps ≤ max 0 venue.takerBps) (htaker : max 0 venue.takerBps ≤ 10000)
    {s s' : ℚ} (hs : 0 < s) (hle : s ≤ s') :
    let c := Candidate.build v q side venue s cfg.preferMaker cfg.impact cfg.makerDepthRatio
    let c' := Candidate.build v q side venue s' cfg.preferMaker cfg.impact cfg.makerDepthRatio
    c.slippage ≤ c'.slippage ∧ c.fees ≤ c'.fees ∧ side.NoWorse c.net c'.net := by
  intro c c'
  have hslip : slippagePercent s q.depth cfg.impact ≤ slippagePercent s' q.depth cfg.impact :=
    slippagePercent_mono hq.depth_pos hcfg.impact_pos hle
  have hslip0 : 0 ≤ slippagePercent s q.depth cfg.impact :=
    (slippagePercent_pos hs hq.depth_pos hcfg.impact_pos).le
  -- The rates the two orders pay, in basis points.
  set r := max 0 (venue.feeBps (cfg.preferMaker && canRest s q.depth cfg.makerDepthRatio)) with hr
  set r' := max 0 (venue.feeBps (cfg.preferMaker && canRest s' q.depth cfg.makerDepthRatio))
    with hr'
  have hrate : r ≤ r' := feeRate_mono hmaker cfg.preferMaker hle
  have hrate0 : 0 ≤ r := le_max_left _ _
  have hrate1 : r' ≤ 10000 := (feeRate_le_taker hmaker _).trans htaker
  have hs' : 0 ≤ s' := hs.le.trans hle
  refine ⟨?_, ?_, ?_⟩
  · show (estimate q side venue s _ _ _).slippage ≤ (estimate q side venue s' _ _ _).slippage
    rw [estimate_slippage, estimate_slippage]
    exact hslip
  · show (estimate q side venue s _ _ _).fees ≤ (estimate q side venue s' _ _ _).fees
    rw [estimate_fees, estimate_fees, feeBps_rat, feeBps_rat, ← hr, ← hr']
    gcongr
  · cases side with
    | buy =>
      show (estimate q .buy venue s _ _ _).net ≤ (estimate q .buy venue s' _ _ _).net
      rw [estimate_net_buy, estimate_net_buy, feeBps_rat, feeBps_rat, ← hr, ← hr',
        estimate_execPrice_buy, estimate_execPrice_buy]
      exact net_buy_mono (hq.price_pos.le.trans (quote_le_execPrice_buy hq.price_pos hslip0))
        (execPrice_buy_mono hq.price_pos hslip) hrate0 hrate
    | sell =>
      show (estimate q .sell venue s' _ _ _).net ≤ (estimate q .sell venue s _ _ _).net
      rw [estimate_net_sell, estimate_net_sell, feeBps_rat, feeBps_rat, ← hr, ← hr',
        estimate_execPrice_sell, estimate_execPrice_sell]
      exact net_sell_anti (execPrice_sell_mem hq.price_pos (hslip0.trans hslip)).1
        (execPrice_sell_anti hq.price_pos hslip) hrate hrate1

/-- Buying 100 and then 600 against a quote of `0.5` with depth 1000 on a venue charging 17 basis
points to resting orders and 120 to crossing ones: the first order rests and the second crosses,
and the second pays no less in slippage, fees and net price. -/
theorem build_mono_size_across_resting :
    let cfg : RouterConfig ℚ := RouterConfig.standard
    let q : Quote ℚ := ⟨1 / 2, 1000⟩
    let venue : Profile ℚ := ⟨120, 17, 800⟩
    let c := Candidate.build .kalshi q .buy venue 100 cfg.preferMaker cfg.impact cfg.makerDepthRatio
    let c' := Candidate.build .kalshi q .buy venue 600 cfg.preferMaker cfg.impact cfg.makerDepthRatio
    cfg.Valid ∧ q.Usable ∧
      max 0 venue.makerBps ≤ max 0 venue.takerBps ∧ max 0 venue.takerBps ≤ 10000 ∧
      (0 : ℚ) < 100 ∧ (100 : ℚ) ≤ 600 ∧ c.isMaker = true ∧ c'.isMaker = false ∧
      (c.slippage ≤ c'.slippage ∧ c.fees ≤ c'.fees ∧ Side.buy.NoWorse c.net c'.net) := by
  intro cfg q venue c c'
  have hq : q.Usable := ⟨by norm_num [q], by norm_num [q]⟩
  have hmaker : max 0 venue.makerBps ≤ max 0 venue.takerBps := by norm_num [venue]
  have htaker : max 0 venue.takerBps ≤ 10000 := by norm_num [venue]
  refine ⟨RouterConfig.standard_valid, hq, hmaker, htaker, by norm_num, by norm_num, ?_, ?_,
    build_mono_size RouterConfig.standard_valid hq .kalshi .buy hmaker htaker
      (by norm_num) (by norm_num)⟩
  · rw [(build_reports .kalshi q .buy venue 100 _ _ _).2.2.2, estimate_isMaker, Bool.and_eq_true,
      canRest_iff]
    norm_num [cfg, q, RouterConfig.standard]
  · rw [(build_reports .kalshi q .buy venue 600 _ _ _).2.2.2, estimate_isMaker, Bool.eq_false_iff,
      ne_eq, Bool.and_eq_true, canRest_iff]
    norm_num [cfg, q, RouterConfig.standard]

end Cost

end TradeDesk
