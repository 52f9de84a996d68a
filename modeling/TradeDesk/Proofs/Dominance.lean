import Mathlib
import TradeDesk.Proofs.RankOrder
import TradeDesk.Proofs.Pricing

/-!
# A dominated candidate ranks behind

In balanced mode a candidate's score is the sum of four penalties, each its value in a column of
the pool rescaled to `[0, 1]`: the net price (turned over for a sale), the fees, the slippage and
the latency. Read in exact arithmetic, rescaling a column is zero throughout when the column has no
spread, and otherwise the increasing affine map that sends the column's least value to 0 and its
greatest to 1 (`rescaled_of_bounds`). So each penalty lies in `[0, 1]`, a score in `[0, 4]`, and a
value no worse in its column never has a higher penalty; one strictly better has a strictly lower
penalty, since two different values give the column a spread.

A candidate that Pareto-dominates another (`Candidate.Dominates`: no worse in all four aspects and
strictly better in one) therefore scores strictly less (`balancedScore_lt_of_dominates`). The
ranking sorts by the score first (`rank_pairwise_le`), so the dominating candidate comes before
the dominated one and never after it, whatever the pool, and the first candidate of a ranking is
dominated by none (`rank_balanced_dominance`).
-/

namespace TradeDesk

/-- Candidate `a` Pareto-dominates `b` for an order on `side`: no worse in net price, fees,
slippage and latency, and strictly better in at least one of them. -/
structure Candidate.Dominates (side : Side) (a b : Candidate ℚ) : Prop where
  net : side.NoWorse a.net b.net
  fees : a.fees ≤ b.fees
  slippage : a.slippage ≤ b.slippage
  latency : a.latency ≤ b.latency
  strict : side.Better a.net b.net ∨ a.fees < b.fees ∨ a.slippage < b.slippage ∨
    a.latency < b.latency

namespace Rank

open Numeric

/-! ## Rescaling a column -/

section Rescale

variable {xs : List ℚ}

@[simp] theorem rescaled_nil (x : ℚ) : rescaled [] x = 0 := by
  simp [rescaled, columnMax, columnMin, maxOf, zero_point_rat]

/-- A column with a least value `lo` and a greatest value `hi` is rescaled by the affine map sending
`lo` to 0 and `hi` to 1, or to 0 throughout when it has no spread. -/
theorem rescaled_of_bounds {hi lo : ℚ} (hhi : xs.max? = some hi) (hlo : xs.min? = some lo)
    (x : ℚ) : rescaled xs x = if hi - lo ≤ 0 then 0 else (x - lo) / (hi - lo) := by
  simp [rescaled, columnMax_rat, columnMin_rat, hhi, hlo, zero_point_rat]

/-- A column with a value has a least and a greatest value, and the value lies between them. -/
theorem exists_bounds {x : ℚ} (hx : x ∈ xs) :
    ∃ hi lo, xs.max? = some hi ∧ xs.min? = some lo ∧ lo ≤ x ∧ x ≤ hi := by
  cases xs with
  | nil => simp at hx
  | cons y ys =>
    obtain ⟨hi, lo, hhi, hlo⟩ := exists_columnMax_columnMin y ys
    rw [columnMax_rat] at hhi
    rw [columnMin_rat] at hlo
    exact ⟨hi, lo, hhi, hlo, (List.min?_eq_some_iff.1 hlo).2 x hx,
      (List.max?_eq_some_iff.1 hhi).2 x hx⟩

/-- A value of a column is rescaled into `[0, 1]`. -/
theorem rescaled_mem_unit {x : ℚ} (hx : x ∈ xs) : 0 ≤ rescaled xs x ∧ rescaled xs x ≤ 1 := by
  obtain ⟨hi, lo, hhi, hlo, hlx, hxh⟩ := exists_bounds hx
  rw [rescaled_of_bounds hhi hlo]
  split_ifs with hflat
  · exact ⟨le_rfl, zero_le_one⟩
  · have hspan : 0 < hi - lo := lt_of_not_ge hflat
    exact ⟨div_nonneg (by linarith) hspan.le, (div_le_one hspan).2 (by linarith)⟩

/-- Rescaling keeps the order of values. -/
theorem rescaled_mono (xs : List ℚ) : Monotone (rescaled xs) := by
  intro x y hxy
  cases xs with
  | nil => simp
  | cons z zs =>
    obtain ⟨hi, lo, hhi, hlo, -⟩ := exists_bounds (List.mem_cons_self (a := z) (l := zs))
    rw [rescaled_of_bounds hhi hlo, rescaled_of_bounds hhi hlo]
    split_ifs with hflat
    · exact le_rfl
    · exact div_le_div_of_nonneg_right (by linarith) (lt_of_not_ge hflat).le

/-- Two different values of a column give it a spread, so they are rescaled apart. -/
theorem rescaled_lt {x y : ℚ} (hx : x ∈ xs) (hy : y ∈ xs) (hxy : x < y) :
    rescaled xs x < rescaled xs y := by
  obtain ⟨hi, lo, hhi, hlo, hlx, -⟩ := exists_bounds hx
  have hyh : y ≤ hi := (List.max?_eq_some_iff.1 hhi).2 y hy
  have hspan : 0 < hi - lo := by linarith
  rw [rescaled_of_bounds hhi hlo, rescaled_of_bounds hhi hlo, if_neg (not_le.2 hspan),
    if_neg (not_le.2 hspan)]
  exact div_lt_div_of_pos_right (by linarith) hspan

/-- A column with no two different values is rescaled to zero throughout. -/
theorem rescaled_eq_zero_of_flat (hflat : ∀ x ∈ xs, ∀ y ∈ xs, ¬x < y) (z : ℚ) :
    rescaled xs z = 0 := by
  cases xs with
  | nil => simp
  | cons w ws =>
    obtain ⟨hi, lo, hhi, hlo, -⟩ := exists_bounds (List.mem_cons_self (a := w) (l := ws))
    have hnot := hflat lo (List.min?_eq_some_iff.1 hlo).1 hi (List.max?_eq_some_iff.1 hhi).1
    rw [rescaled_of_bounds hhi hlo, if_pos (by linarith [not_lt.1 hnot])]

end Rescale

/-! ## The price penalty -/

section Price

variable {xs : List ℚ}

/-- For a purchase the price penalty is the rescaled net price. -/
theorem priceScore_buy (xs : List ℚ) : priceScore .buy xs = rescaled xs := by
  funext x
  simp only [priceScore]

/-- For a sale over a column with a spread, the price penalty is the rescaled net price turned
over: the greatest rescaled value is one, so the turn is taken. -/
theorem priceScore_sell_of_lt {x y : ℚ} (hx : x ∈ xs) (hy : y ∈ xs) (hxy : x < y) :
    priceScore .sell xs = fun z => 1 - rescaled xs z := by
  have hpos : 0 < rescaled xs y := (rescaled_mem_unit hx).1.trans_lt (rescaled_lt hx hy hxy)
  -- The greatest value of the rescaled column is at least the rescaled `y`.
  obtain ⟨m, hm⟩ : ∃ m, (normalize xs).max? = some m := by
    rw [← Option.isSome_iff_exists, Option.isSome_iff_ne_none, Ne, List.max?_eq_none_iff,
      normalize_eq_map, List.map_eq_nil_iff]
    exact List.ne_nil_of_mem hx
  have hym : rescaled xs y ≤ m :=
    (List.max?_eq_some_iff.1 hm).2 _ (by rw [normalize_eq_map]; exact List.mem_map_of_mem hy)
  funext z
  simp only [priceScore, columnMax_rat, hm, zero_point_rat, if_pos (hpos.trans_le hym),
    one_point_rat]

/-- For a sale a higher net price never has a higher penalty. -/
theorem priceScore_sell_anti (xs : List ℚ) : Antitone (priceScore .sell xs) := by
  intro x y hxy
  by_cases hspread : ∃ a ∈ xs, ∃ b ∈ xs, a < b
  · obtain ⟨a, ha, b, hb, hab⟩ := hspread
    rw [priceScore_sell_of_lt ha hb hab]
    exact sub_le_sub_left (rescaled_mono xs hxy) 1
  · -- Without a spread every value is rescaled to zero, so the penalty does not depend on it.
    have h0 := rescaled_eq_zero_of_flat fun a ha b hb hab => hspread ⟨a, ha, b, hb, hab⟩
    simp only [priceScore, h0, le_refl]

/-- A price penalty lies in `[0, 1]`. -/
theorem priceScore_mem_unit (side : Side) {x : ℚ} (hx : x ∈ xs) :
    0 ≤ priceScore side xs x ∧ priceScore side xs x ≤ 1 := by
  have hr := rescaled_mem_unit hx
  unfold priceScore
  split
  · split_ifs
    · rw [one_point_rat]
      exact ⟨by linarith, by linarith⟩
    · exact hr
  · exact hr

/-- A net price no worse has no higher penalty. -/
theorem priceScore_le (side : Side) (xs : List ℚ) {x y : ℚ} (h : side.NoWorse x y) :
    priceScore side xs x ≤ priceScore side xs y := by
  cases side with
  | buy =>
    rw [priceScore_buy]
    exact rescaled_mono xs h
  | sell => exact priceScore_sell_anti xs h

/-- A strictly better net price of the column has a strictly lower penalty. -/
theorem priceScore_lt (side : Side) {x y : ℚ} (hx : x ∈ xs) (hy : y ∈ xs)
    (h : side.Better x y) : priceScore side xs x < priceScore side xs y := by
  cases side with
  | buy =>
    rw [priceScore_buy]
    exact rescaled_lt hx hy h
  | sell =>
    rw [priceScore_sell_of_lt hy hx h]
    exact sub_lt_sub_left (rescaled_lt hy hx h) 1

end Price

/-! ## Scores -/

section Scores

variable {cs : List (Candidate ℚ)} (side : Side)

/-- A candidate's balanced score at the rationals: its four penalties in the pool's columns. -/
theorem balancedScore_rat (c : Candidate ℚ) :
    balancedScore cs side c =
      priceScore side (cs.map (·.net)) c.net + rescaled (cs.map (·.fees)) c.fees +
        rescaled (cs.map (·.slippage)) c.slippage + rescaled (cs.map (·.latency)) c.latency := by
  simp only [balancedScore, approx_rat]

/-- A candidate of the pool scores between 0 and 4. -/
theorem balancedScore_mem {c : Candidate ℚ} (hc : c ∈ cs) :
    0 ≤ balancedScore cs side c ∧ balancedScore cs side c ≤ 4 := by
  have hp := priceScore_mem_unit side (List.mem_map_of_mem (f := (·.net)) hc)
  have hf := rescaled_mem_unit (List.mem_map_of_mem (f := (·.fees)) hc)
  have hs := rescaled_mem_unit (List.mem_map_of_mem (f := (·.slippage)) hc)
  have hl := rescaled_mem_unit (List.mem_map_of_mem (f := (·.latency)) hc)
  rw [balancedScore_rat]
  constructor <;> linarith

/-- A candidate that dominates another scores strictly less: each penalty is no higher, and the
one of the aspect where it is strictly better is strictly lower. -/
theorem balancedScore_lt_of_dominates {a b : Candidate ℚ} (ha : a ∈ cs) (hb : b ∈ cs)
    (h : a.Dominates side b) : balancedScore cs side a < balancedScore cs side b := by
  have hp := priceScore_le side (cs.map (·.net)) h.net
  have hf := rescaled_mono (cs.map (·.fees)) h.fees
  have hs := rescaled_mono (cs.map (·.slippage)) h.slippage
  have hl := rescaled_mono (cs.map (·.latency)) h.latency
  rw [balancedScore_rat, balancedScore_rat]
  rcases h.strict with hlt | hlt | hlt | hlt
  · have := priceScore_lt side (List.mem_map_of_mem (f := (·.net)) ha)
      (List.mem_map_of_mem (f := (·.net)) hb) hlt
    linarith
  · have := rescaled_lt (List.mem_map_of_mem (f := (·.fees)) ha)
      (List.mem_map_of_mem (f := (·.fees)) hb) hlt
    linarith
  · have := rescaled_lt (List.mem_map_of_mem (f := (·.slippage)) ha)
      (List.mem_map_of_mem (f := (·.slippage)) hb) hlt
    linarith
  · have := rescaled_lt (List.mem_map_of_mem (f := (·.latency)) ha)
      (List.mem_map_of_mem (f := (·.latency)) hb) hlt
    linarith

/-- Every value of a rescaled column lies in `[0, 1]`. -/
theorem normalize_mem_unit (xs : List ℚ) : ∀ x ∈ normalize xs, 0 ≤ x ∧ x ≤ 1 := by
  intro x hx
  rw [normalize_eq_map] at hx
  obtain ⟨y, hy, rfl⟩ := List.mem_map.1 hx
  exact rescaled_mem_unit hy

/-- Every value of a price column lies in `[0, 1]`. -/
theorem priceColumn_mem_unit (xs : List ℚ) : ∀ x ∈ priceColumn side xs, 0 ≤ x ∧ x ≤ 1 := by
  intro x hx
  rw [priceColumn_eq_map] at hx
  obtain ⟨y, hy, rfl⟩ := List.mem_map.1 hx
  exact priceScore_mem_unit side hy

/-- Every penalty the program computes for the pool lies in `[0, 1]`. -/
theorem penalties_mem_unit (asp : Aspect) :
    ∀ x ∈ column (penalties cs side) asp, 0 ≤ x ∧ x ≤ 1 := by
  cases asp with
  | price => exact priceColumn_mem_unit side _
  | fee => exact normalize_mem_unit _
  | liquidity => exact normalize_mem_unit _
  | speed => exact normalize_mem_unit _

end Scores

/-! ## The ranking -/

/-- Of two different members of a list, one comes before the other. -/
theorem pair_sublist_or {β : Type} {l : List β} {a b : β} (ha : a ∈ l) (hb : b ∈ l)
    (hab : a ≠ b) : [a, b].Sublist l ∨ [b, a].Sublist l := by
  induction l with
  | nil => simp at ha
  | cons x l ih =>
    rcases List.mem_cons.1 ha with rfl | ha'
    · exact .inl ((List.singleton_sublist.2 ((List.mem_cons.1 hb).resolve_left hab.symm)).cons_cons _)
    rcases List.mem_cons.1 hb with rfl | hb'
    · exact .inr ((List.singleton_sublist.2 ha').cons_cons _)
    exact (ih ha' hb').imp (·.cons x) (·.cons x)

section Ranking

variable (mode : Mode) (side : Side) (preferMaker : Bool) (cs : List (Candidate ℚ))

/-- The keys never fall along a ranking, whatever the pool: the sort orders the candidates paired
with their keys, and each pair it returns is one it was given. -/
theorem rank_pairwise_le :
    (rank mode side preferMaker cs).Pairwise fun c d =>
      order mode side preferMaker cs c ≤ order mode side preferMaker cs d := by
  rw [rank_eq_stable, List.pairwise_map]
  have hsorted := Sort.stable_key_le (fun a b => Key.lt_iff a.1 b.1)
    (cs.map fun c => (keyIn mode side preferMaker cs c, c))
  refine List.Pairwise.imp_of_mem (fun hp hq hpq => ?_) hsorted
  obtain ⟨c, -, rfl⟩ := List.mem_map.1 ((Sort.stable_perm _ _).subset hp)
  obtain ⟨d, -, rfl⟩ := List.mem_map.1 ((Sort.stable_perm _ _).subset hq)
  exact hpq

/-- A candidate of the pool whose primary number is strictly less than another's is ranked before
it, and never after it. -/
theorem rank_before_of_primaryOf_lt {a b : Candidate ℚ} (ha : a ∈ cs) (hb : b ∈ cs)
    (h : primaryOf mode side cs a < primaryOf mode side cs b) :
    [a, b].Sublist (rank mode side preferMaker cs) ∧ ¬[b, a].Sublist (rank mode side preferMaker cs) := by
  have hnot : ¬[b, a].Sublist (rank mode side preferMaker cs) := by
    intro hba
    have hle := List.pairwise_pair.1 ((rank_pairwise_le mode side preferMaker cs).sublist hba)
    -- The keys' first field is the primary number.
    rcases Prod.Lex.toLex_le_toLex.1 hle with hlt | ⟨heq, -⟩
    · exact absurd (hlt.trans h) (lt_irrefl _)
    · exact lt_irrefl _ (h.trans_eq heq)
  have hperm := rank_perm mode side preferMaker cs
  have hab : a ≠ b := by
    rintro rfl
    exact lt_irrefl _ h
  refine ⟨?_, hnot⟩
  exact (pair_sublist_or (hperm.symm.subset ha) (hperm.symm.subset hb) hab).resolve_right hnot

end Ranking

/-- What balanced ranking makes of a pool of candidates, at the rationals. -/
structure RanksDominated (side : Side) (preferMaker : Bool) (cs : List (Candidate ℚ)) : Prop where
  /-- Every penalty lies in `[0, 1]`. -/
  penalty_mem : ∀ asp, ∀ x ∈ column (penalties cs side) asp, 0 ≤ x ∧ x ≤ 1
  /-- The program's scores are the candidates' own. -/
  scores_eq : balancedScores cs side = cs.map (balancedScore cs side)
  /-- Every score lies in `[0, 4]`. -/
  score_mem : ∀ x ∈ balancedScores cs side, 0 ≤ x ∧ x ≤ 4
  /-- A candidate that dominates another scores strictly less. -/
  score_lt : ∀ a ∈ cs, ∀ b ∈ cs, a.Dominates side b →
    balancedScore cs side a < balancedScore cs side b
  /-- A candidate that dominates another is ranked before it, and never after it. -/
  before : ∀ a ∈ cs, ∀ b ∈ cs, a.Dominates side b →
    [a, b].Sublist (rank .balanced side preferMaker cs) ∧
      ¬[b, a].Sublist (rank .balanced side preferMaker cs)
  /-- No candidate of the pool dominates the first of the ranking. -/
  first_undominated : ∀ first rest, rank .balanced side preferMaker cs = first :: rest →
    ∀ c ∈ cs, ¬c.Dominates side first

/-- Balanced ranking of any pool, for either side, at the rationals: penalties in `[0, 1]`, scores
in `[0, 4]`, and a candidate that Pareto-dominates another scores strictly less and is ranked
before it; so the first candidate is dominated by none. -/
theorem rank_balanced_dominance (side : Side) (preferMaker : Bool) (cs : List (Candidate ℚ)) :
    RanksDominated side preferMaker cs where
  penalty_mem := penalties_mem_unit side
  scores_eq := balancedScores_eq_map cs side
  score_mem := by
    intro x hx
    rw [balancedScores_eq_map] at hx
    obtain ⟨c, hc, rfl⟩ := List.mem_map.1 hx
    exact balancedScore_mem side hc
  score_lt a ha b hb h := balancedScore_lt_of_dominates side ha hb h
  before a ha b hb h :=
    rank_before_of_primaryOf_lt .balanced side preferMaker cs ha hb
      (balancedScore_lt_of_dominates side ha hb h)
  first_undominated := by
    intro first rest hrank c hc hdom
    have hfirst : first ∈ cs := (rank_perm .balanced side preferMaker cs).subset (by simp [hrank])
    have hlt := balancedScore_lt_of_dominates side hc hfirst hdom
    have hne : c ≠ first := fun h => lt_irrefl _ (h ▸ hlt)
    -- The dominating candidate is not the head, so it comes after it, which it may not.
    have hc' : c ∈ rest := by
      have hmem := (rank_perm .balanced side preferMaker cs).symm.subset hc
      rw [hrank] at hmem
      exact (List.mem_cons.1 hmem).resolve_left hne
    apply (rank_before_of_primaryOf_lt .balanced side preferMaker cs hc hfirst hlt).2
    rw [hrank]
    exact (List.singleton_sublist.2 hc').cons_cons first

end Rank

end TradeDesk
