import Mathlib
import TradeDesk.Proofs.SortOrder
import TradeDesk.Proofs.Route
import TradeDesk.Proofs.Partition
import TradeDesk.Proofs.Exact

/-!
# The ranking is the order of a key

Each mode ranks candidates by a key: the candidate's primary number, its latency, whether its maker
status misses the preference, and its venue's name, compared in that order. The primary number is
the candidate's own in every mode but the balanced one, where it is the sum of the candidate's
penalties, each rescaled against the least and greatest values of its column over the whole pool
(`Rank.primaryOf`). The program computes the column of these numbers (`primaries_eq_map`), so a
ranking is the stable sort of the candidates by their keys (`rank_eq_stable`).

Read at the rationals, comparing keys field by field is comparing them lexicographically
(`Key.lt_iff`), a strict linear order, and a venue's name tells it apart. So once no two candidates
share a venue, the stable sort puts the keys in increasing order (`rank_sorted`). The least and
greatest values of a column do not depend on the order of the pool, and neither does any key
(`primaryOf_perm`): every reordering of the pool ranks to the same list.
-/

namespace TradeDesk

namespace Rank

open Numeric

variable {α : Type} [Numeric α]

/-! ## Each candidate's primary number -/

/-- A value of a column rescaled to `[0, 1]` by the column's least and greatest values, as
`normalize` rescales each of them. -/
def rescaled (xs : List α) (x : α) : α :=
  match columnMax xs, columnMin xs with
  | some hi, some lo => if hi - lo ≤ (0.0 : α) then 0.0 else (x - lo) / (hi - lo)
  | _, _ => 0.0

/-- The price penalty of a value of the price column: rescaled, and turned over for a sale when
the greatest rescaled value is positive. -/
def priceScore (side : Side) (xs : List α) (x : α) : α :=
  match side, columnMax (normalize xs) with
  | .sell, some hi => if (0.0 : α) < hi then (1.0 : α) - rescaled xs x else rescaled xs x
  | _, _ => rescaled xs x

/-- A candidate's balanced score in a pool: the sum of its four penalties. -/
def balancedScore (cs : List (Candidate α)) (side : Side) (c : Candidate α) : α :=
  priceScore side (cs.map fun c => approx c.net) (approx c.net) +
    rescaled (cs.map fun c => approx c.fees) (approx c.fees) +
    rescaled (cs.map fun c => approx c.slippage) (approx c.slippage) +
    rescaled (cs.map fun c => approx c.latency) (approx c.latency)

/-- The primary number of a candidate in a pool under a mode. -/
def primaryOf (mode : Mode) (side : Side) (cs : List (Candidate α)) (c : Candidate α) : α :=
  match mode with
  | .bestPrice => match side with
    | .buy => c.net
    | .sell => -c.net
  | .bestLiquidity => c.slippage
  | .lowestFee => c.fees
  | .balanced => balancedScore cs side c

/-- The key a candidate is ranked by in a pool. -/
def keyIn (mode : Mode) (side : Side) (preferMaker : Bool) (cs : List (Candidate α))
    (c : Candidate α) : Key α :=
  keyOf preferMaker c (primaryOf mode side cs c)

/-- A column with a value has a greatest and a least value, NaN or not. -/
theorem exists_columnMax_columnMin (x : α) (xs : List α) :
    ∃ hi lo, columnMax (x :: xs) = some hi ∧ columnMin (x :: xs) = some lo := by
  obtain ⟨hi, hhi⟩ : ∃ hi, columnMax (x :: xs) = some hi := by
    unfold columnMax
    split <;> simp [maxOf]
  obtain ⟨lo, hlo⟩ : ∃ lo, columnMin (x :: xs) = some lo := by
    unfold columnMin
    split <;> simp [minOf]
  exact ⟨hi, lo, hhi, hlo⟩

/-- Rescaling a column rescales each of its values on its own. -/
theorem normalize_eq_map (xs : List α) : normalize xs = xs.map (rescaled xs) := by
  cases xs with
  | nil => simp [normalize, columnMax, maxOf]
  | cons x xs =>
    obtain ⟨hi, lo, hhi, hlo⟩ := exists_columnMax_columnMin x xs
    have hr : rescaled (x :: xs) =
        fun y => if hi - lo ≤ (0.0 : α) then 0.0 else (y - lo) / (hi - lo) := by
      funext y
      simp [rescaled, hhi, hlo]
    rw [hr]
    simp only [normalize, hhi, hlo]
    split <;> simp [*]

theorem priceColumn_eq_map (side : Side) (xs : List α) :
    priceColumn side xs = xs.map (priceScore side xs) := by
  cases side with
  | buy => simp [priceColumn, priceScore, normalize_eq_map]
  | sell =>
    unfold priceColumn priceScore
    dsimp only
    -- The turn for a sale is decided once, by the greatest rescaled value.
    cases columnMax (normalize xs) with
    | none => simp [normalize_eq_map]
    | some hi =>
      dsimp only
      split_ifs <;> simp [normalize_eq_map]

theorem balancedScores_eq_map (cs : List (Candidate α)) (side : Side) :
    balancedScores cs side = cs.map (balancedScore cs side) := by
  simp [balancedScores, penalties, priceColumn_eq_map, normalize_eq_map, List.zip_map',
    balancedScore]

/-- The program's column of primary numbers holds each candidate's own. -/
theorem primaries_eq_map (mode : Mode) (side : Side) (cs : List (Candidate α)) :
    primaries mode side cs = cs.map (primaryOf mode side cs) := by
  cases mode <;> cases side <;> simp [primaries, primaryOf, balancedScores_eq_map]

/-- A ranking is the stable sort of the candidates by their keys. -/
theorem rank_eq_stable (mode : Mode) (side : Side) (preferMaker : Bool) (cs : List (Candidate α)) :
    rank mode side preferMaker cs = (Sort.stable (fun a b => a.1.lt b.1)
      (cs.map fun c => (keyIn mode side preferMaker cs c, c))).map (·.2) := by
  unfold rank
  rw [primaries_eq_map, ← List.map_prod_right_eq_zip]
  simp [keyIn, Function.comp_def]

/-! ## At the rationals -/

/-- No rational is a NaN. -/
@[simp] theorem isNaN_rat (x : ℚ) : isNaN x = false := by
  simp [isNaN]

theorem columnMax_rat (xs : List ℚ) : columnMax xs = xs.max? := by
  have hfind : xs.find? isNaN = none := List.find?_eq_none.2 fun x _ => by simp
  have hlarger : (larger : ℚ → ℚ → ℚ) = max := funext₂ larger_rat
  cases xs with
  | nil => simp [columnMax, maxOf]
  | cons x xs =>
    simp only [columnMax, hfind, maxOf, hlarger]
    rfl

theorem columnMin_rat (xs : List ℚ) : columnMin xs = xs.min? := by
  have hfind : xs.find? isNaN = none := List.find?_eq_none.2 fun x _ => by simp
  have hsmaller : (smaller : ℚ → ℚ → ℚ) = min := funext₂ smaller_rat
  cases xs with
  | nil => simp [columnMin, minOf]
  | cons x xs =>
    simp only [columnMin, hfind, minOf, hsmaller]
    rfl

/-- The greatest of some rationals does not depend on their order. -/
theorem max?_eq_of_perm {xs ys : List ℚ} (h : xs.Perm ys) : xs.max? = ys.max? := by
  cases hx : xs.max? with
  | none =>
    rw [List.max?_eq_none_iff] at hx
    subst hx
    rw [List.nil_perm.1 h, List.max?_nil]
  | some a =>
    obtain ⟨ha, hle⟩ := List.max?_eq_some_iff.1 hx
    exact (List.max?_eq_some_iff.2 ⟨h.subset ha, fun b hb => hle b (h.symm.subset hb)⟩).symm

/-- The least of some rationals does not depend on their order. -/
theorem min?_eq_of_perm {xs ys : List ℚ} (h : xs.Perm ys) : xs.min? = ys.min? := by
  cases hx : xs.min? with
  | none =>
    rw [List.min?_eq_none_iff] at hx
    subst hx
    rw [List.nil_perm.1 h, List.min?_nil]
  | some a =>
    obtain ⟨ha, hle⟩ := List.min?_eq_some_iff.1 hx
    exact (List.min?_eq_some_iff.2 ⟨h.subset ha, fun b hb => hle b (h.symm.subset hb)⟩).symm

theorem rescaled_perm {xs ys : List ℚ} (h : xs.Perm ys) : rescaled xs = rescaled ys := by
  funext x
  simp only [rescaled, columnMax_rat, columnMin_rat, max?_eq_of_perm h, min?_eq_of_perm h]

theorem priceScore_perm (side : Side) {xs ys : List ℚ} (h : xs.Perm ys) :
    priceScore side xs = priceScore side ys := by
  have hn : (normalize xs).Perm (normalize ys) := by
    rw [normalize_eq_map, normalize_eq_map, rescaled_perm h]
    exact h.map _
  funext x
  simp only [priceScore, columnMax_rat, max?_eq_of_perm hn, rescaled_perm h]

/-- A candidate's primary number depends on the pool, not on its order. -/
theorem primaryOf_perm (mode : Mode) (side : Side) {cs cs' : List (Candidate ℚ)}
    (h : cs.Perm cs') : primaryOf mode side cs = primaryOf mode side cs' := by
  funext c
  cases mode with
  | balanced =>
    simp only [primaryOf, balancedScore]
    rw [priceScore_perm side (h.map _), rescaled_perm (h.map _), rescaled_perm (h.map _),
      rescaled_perm (h.map _)]
  | _ => rfl

theorem keyIn_perm (mode : Mode) (side : Side) (preferMaker : Bool)
    {cs cs' : List (Candidate ℚ)} (h : cs.Perm cs') :
    keyIn mode side preferMaker cs = keyIn mode side preferMaker cs' := by
  funext c
  simp only [keyIn, primaryOf_perm mode side h]

/-! ## Keys in lexicographic order -/

@[simp] theorem same_rat (a b : ℚ) : same a b = decide (a = b) := by
  rw [same, ← Bool.decide_and]
  simp only [← le_antisymm_iff]

/-- A key at the rationals read as a tuple, compared lexicographically. -/
def Key.lex (k : Key ℚ) : ℚ ×ₗ ℚ ×ₗ ℕ ×ₗ String :=
  toLex (k.primary, toLex (k.latency, toLex (k.mismatch, k.name)))

/-- Comparing keys field by field, at the first field where they differ, is comparing them
lexicographically. -/
theorem Key.lt_iff (a b : Key ℚ) : a.lt b = true ↔ a.lex < b.lex := by
  simp only [Key.lt, Key.lex, same_rat, Prod.Lex.toLex_lt_toLex]
  by_cases hp : a.primary = b.primary <;> by_cases hl : a.latency = b.latency <;>
    by_cases hm : a.mismatch = b.mismatch <;> simp [hp, hl, hm]

/-! ## The ranking -/

section Ranking

variable (mode : Mode) (side : Side) (preferMaker : Bool)

/-- The key a candidate is ranked by in a pool, read lexicographically: its primary number, its
latency, whether its maker status misses the preference, and its venue's name. -/
def order (cs : List (Candidate ℚ)) (c : Candidate ℚ) : ℚ ×ₗ ℚ ×ₗ ℕ ×ₗ String :=
  toLex (primaryOf mode side cs c,
    toLex (c.latency, toLex (if c.isMaker == preferMaker then 0 else 1, c.venue.name)))

/-- A candidate's key ends with its venue's name, so candidates at different venues have different
keys. -/
theorem nodup_order {cs : List (Candidate ℚ)} (hcs : (cs.map (·.venue)).Nodup) :
    (cs.map (order mode side preferMaker cs)).Nodup := by
  have hnames : ((cs.map (·.venue)).map Venue.name).Nodup :=
    hcs.map fun _ _ h => Venue.name_inj.1 h
  refine List.Nodup.of_map (fun o => (ofLex (ofLex (ofLex o).2).2).2) ?_
  simpa [List.map_map, Function.comp_def, order] using hnames

/-- The candidates paired with their keys, as the ranking sorts them, have different keys. -/
theorem nodup_keyed {cs : List (Candidate ℚ)} (hcs : (cs.map (·.venue)).Nodup) :
    ((cs.map fun c => (keyIn mode side preferMaker cs c, c)).map fun p => p.1.lex).Nodup := by
  rw [List.map_map]
  exact nodup_order mode side preferMaker hcs

/-- The primary numbers of two candidates keep the order of their keys. -/
theorem primaryOf_le_of_order_lt {cs : List (Candidate ℚ)} {c d : Candidate ℚ}
    (h : order mode side preferMaker cs c < order mode side preferMaker cs d) :
    primaryOf mode side cs c ≤ primaryOf mode side cs d := by
  rcases Prod.Lex.toLex_lt_toLex.1 h with h | ⟨h, -⟩
  · exact h.le
  · exact h.le

/-- With no venue twice, the keys increase strictly along the ranking. The sort orders the
candidates paired with their keys, and each pair it returns is one it was given. -/
theorem rank_sorted {cs : List (Candidate ℚ)} (hcs : (cs.map (·.venue)).Nodup) :
    (rank mode side preferMaker cs).Pairwise fun c d =>
      order mode side preferMaker cs c < order mode side preferMaker cs d := by
  rw [rank_eq_stable, List.pairwise_map]
  have hnd := nodup_keyed mode side preferMaker hcs
  have hsorted := Sort.stable_key_lt (fun a b => Key.lt_iff a.1 b.1) _ hnd
  refine List.Pairwise.imp_of_mem (fun hp hq hpq => ?_) hsorted
  obtain ⟨c, -, rfl⟩ := List.mem_map.1 ((Sort.stable_perm _ _).subset hp)
  obtain ⟨d, -, rfl⟩ := List.mem_map.1 ((Sort.stable_perm _ _).subset hq)
  exact hpq

/-- With no venue twice, every reordering of the pool ranks to the same list: the keys do not
depend on the pool's order, and a sort by keys no two candidates share has one result. -/
theorem rank_eq_of_perm {cs cs' : List (Candidate ℚ)} (hp : cs'.Perm cs)
    (hcs : (cs.map (·.venue)).Nodup) :
    rank mode side preferMaker cs' = rank mode side preferMaker cs := by
  rw [rank_eq_stable, rank_eq_stable, keyIn_perm mode side preferMaker hp]
  have hnd := nodup_keyed mode side preferMaker hcs
  rw [Sort.stable_eq_of_perm (fun a b => Key.lt_iff a.1 b.1) (hp.map _)
    (((hp.map _).map _).nodup_iff.2 hnd)]

end Ranking

/-- What ranking a pool of candidates comes to, at the rationals. -/
structure RanksByKey (mode : Mode) (side : Side) (preferMaker : Bool)
    (cs : List (Candidate ℚ)) : Prop where
  /-- The program's primary numbers are the candidates' own. -/
  primaries_eq : primaries mode side cs = cs.map (primaryOf mode side cs)
  /-- The ranking reorders the candidates. -/
  perm : (rank mode side preferMaker cs).Perm cs
  /-- The keys increase strictly along the ranking. -/
  sorted : (rank mode side preferMaker cs).Pairwise fun c d =>
    order mode side preferMaker cs c < order mode side preferMaker cs d
  /-- Every reordering of the pool ranks to the same list. -/
  reorder : ∀ cs', cs'.Perm cs → rank mode side preferMaker cs' = rank mode side preferMaker cs
  /-- By best price, the first candidate has the least net price for a purchase and the greatest
  for a sale. -/
  first_best : mode = .bestPrice → ∀ best rest, rank mode side preferMaker cs = best :: rest →
    ∀ c ∈ cs, (side = .buy → best.net ≤ c.net) ∧ (side = .sell → c.net ≤ best.net)
  /-- By lowest fee, the fees never fall along the ranking. -/
  fees_sorted : mode = .lowestFee →
    (rank mode side preferMaker cs).Pairwise fun c d => c.fees ≤ d.fees

/-- Ranking a pool with no venue twice, at the rationals: a reordering of the pool along which the
key (primary number, latency, maker mismatch, venue name) strictly increases, the same for every
order of the pool; by best price the first candidate has the best net price, and by lowest fee the
fees never fall. -/
theorem rank_ranks_by_key (mode : Mode) (side : Side) (preferMaker : Bool)
    (cs : List (Candidate ℚ)) (hcs : (cs.map (·.venue)).Nodup) :
    RanksByKey mode side preferMaker cs where
  primaries_eq := primaries_eq_map mode side cs
  perm := rank_perm mode side preferMaker cs
  sorted := rank_sorted mode side preferMaker hcs
  reorder _ hp := rank_eq_of_perm mode side preferMaker hp hcs
  first_best := by
    rintro rfl best rest h c hc
    have hs := rank_sorted .bestPrice side preferMaker hcs
    rw [h, List.pairwise_cons] at hs
    -- The first candidate's key is below every other's, so is its signed net price.
    have hle : primaryOf .bestPrice side cs best ≤ primaryOf .bestPrice side cs c := by
      rcases List.mem_cons.1 (h ▸ (rank_perm .bestPrice side preferMaker cs).symm.subset hc)
        with rfl | hc'
      · exact le_rfl
      · exact primaryOf_le_of_order_lt .bestPrice side preferMaker (hs.1 c hc')
    constructor
    · rintro rfl
      exact hle
    · rintro rfl
      exact neg_le_neg_iff.1 hle
  fees_sorted := by
    rintro rfl
    exact (rank_sorted .lowestFee side preferMaker hcs).imp
      (primaryOf_le_of_order_lt .lowestFee side preferMaker)

/-- A pool of two candidates at different venues. -/
def twoVenues : List (Candidate ℚ) :=
  [{ venue := .kalshi, net := 0.52, fees := 0.01, slippage := 0.2, isMaker := true,
      latency := 120, quoted := 0.5, depth := 100, size := 10 },
    { venue := .polymarket, net := 0.5, fees := 0.02, slippage := 0.1, isMaker := false,
      latency := 80, quoted := 0.5, depth := 200, size := 10 }]

/-- Selling into two venues, balanced. -/
theorem rank_ranks_by_key_two_venues :
    (twoVenues.map (·.venue)).Nodup ∧ RanksByKey .balanced .sell true twoVenues :=
  ⟨by decide, rank_ranks_by_key .balanced .sell true twoVenues (by decide)⟩

end Rank

end TradeDesk
