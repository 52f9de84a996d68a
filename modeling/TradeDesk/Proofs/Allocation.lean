import Mathlib
import TradeDesk.Proofs.Exact
import TradeDesk.Routing.Split

/-!
# Splitting an order, in closed form

`Split.allocate` walks the ranked candidates once. Read in exact arithmetic, the walk has a closed
form. Call a candidate a *taker* of an order of `size` when its capacity under the slippage cap
(`capacityOf`) is more than a billionth of the order (`tolerance * size`). Every other candidate is
passed over without a leg (`Walk.step_skip`), so the walk over the ranked candidates is the walk
over the takers alone (`foldl_takers`). Over the takers, each venue takes its whole capacity until
what is left is within a billionth of the order or the venue limit is reached; the venue that fills
the order takes the smaller of what is left and its capacity (`walk_ends`, by induction on the
takers, with what is left and the legs so far generalised).

So the allocation fails exactly when the first `maxSplit` takers together fall short of all but a
billionth of the order (`allocate_eq_none_iff`). Otherwise its legs are the shortest run of takers
that reaches that much, each at its whole capacity but the last, which takes the rest of the order
(`allocate_eq_some`); they are on distinct venues in rank order, each positive, and add up to the
order exactly (`allocate_closed_form`).
-/

namespace TradeDesk

namespace Split

open Numeric

section Walk

variable {α : Type} [Numeric α] (cfg : RouterConfig α) (size : α)

/-- A finished walk passes every venue by. -/
theorem Walk.step_of_done {w : Walk α} (h : w.done cfg size = true) (c : Candidate α) :
    w.step cfg size c = w := by
  simp [Walk.step, h]

/-- A finished walk stays as it is, whatever venues follow. -/
theorem Walk.foldl_of_done {w : Walk α} (h : w.done cfg size = true) (cs : List (Candidate α)) :
    cs.foldl (Walk.step cfg size) w = w := by
  induction cs with
  | nil => rfl
  | cons c cs ih => rw [List.foldl_cons, Walk.step_of_done cfg size h, ih]

/-- Settling sets the last leg to the order less the others. -/
theorem settle_append (legs : List (Candidate α × α)) (c : Candidate α) (x : α) :
    settle size (legs ++ [(c, x)]) = legs ++ [(c, size - sumLeft (legs.map (·.2)))] := by
  simp [settle]

/-- The sizes of an allocation end with the order less the sum of the sizes before it, in the
arithmetic of the rules. -/
theorem sizes_allocate {ranked : List (Candidate α)} {a : List (Candidate α × α)}
    (h : allocate ranked size cfg = some a) : ∃ hs, a.map (·.2) = hs ++ [size - sumLeft hs] := by
  unfold allocate at h
  generalize ranked.foldl (Walk.step cfg size) ⟨size, []⟩ = w at h
  dsimp only at h
  split_ifs at h with hw
  cases h
  rcases List.eq_nil_or_concat w.legs.reverse with hl | ⟨legs, ⟨c, x⟩, hl⟩
  · -- a walk with no leg does not allocate
    rw [List.reverse_eq_nil_iff] at hl
    simp [hl] at hw
  · rw [hl, List.concat_eq_append, settle_append]
    exact ⟨legs.map (·.2), by simp⟩

end Walk

/-- The tolerance is a positive share of the order. -/
theorem tolerance_pos : (0 : ℚ) < tolerance := by
  norm_num [tolerance]

/-- The tolerance is less than the whole order. -/
theorem tolerance_lt_one : (tolerance : ℚ) < 1 := by
  norm_num [tolerance]

section Exact

variable (cfg : RouterConfig ℚ) (size : ℚ)

/-- A venue's capacity under the slippage cap, as the walk reads it off a candidate. -/
def capacityOf (c : Candidate ℚ) : ℚ := Cost.capacity c.depth cfg.maxSlippage cfg.impact

/-- Exactly, the capacity is the depth, or less when the slippage cap binds first. -/
theorem capacityOf_eq (c : Candidate ℚ) :
    capacityOf cfg c = min c.depth (c.depth * cfg.maxSlippage / (100 * cfg.impact)) := by
  norm_num [capacityOf, Cost.capacity]

/-- The candidates that take a part of an order of `size`, in rank order: those whose capacity is
more than a billionth of it. -/
def takers (ranked : List (Candidate ℚ)) : List (Candidate ℚ) :=
  ranked.filter fun c => tolerance * size < capacityOf cfg c

/-- The capacity of some candidates together. -/
def reach (cs : List (Candidate ℚ)) : ℚ := (cs.map (capacityOf cfg)).sum

/-- The candidates, each with a leg of its whole capacity. -/
def fullLegs (cs : List (Candidate ℚ)) : List (Candidate ℚ × ℚ) :=
  cs.map fun c => (c, capacityOf cfg c)

@[simp] theorem reach_nil : reach cfg [] = 0 := rfl

@[simp] theorem reach_cons (c : Candidate ℚ) (cs : List (Candidate ℚ)) :
    reach cfg (c :: cs) = capacityOf cfg c + reach cfg cs := by
  simp [reach]

@[simp] theorem reach_append (cs ds : List (Candidate ℚ)) :
    reach cfg (cs ++ ds) = reach cfg cs + reach cfg ds := by
  simp [reach]

/-- Among candidates of capacity at least zero, a run that starts another reaches no further. -/
theorem reach_le_of_prefix {cs ds : List (Candidate ℚ)} (h : cs <+: ds)
    (hds : ∀ c ∈ ds, 0 ≤ capacityOf cfg c) : reach cfg cs ≤ reach cfg ds := by
  obtain ⟨es, rfl⟩ := h
  rw [reach_append, le_add_iff_nonneg_right]
  exact List.sum_nonneg fun x hx => by
    obtain ⟨c, hc, rfl⟩ := List.mem_map.1 hx
    exact hds c (List.mem_append_right _ hc)

/-- The sizes of full legs are the capacities. -/
theorem sizes_fullLegs (cs : List (Candidate ℚ)) :
    (fullLegs cfg cs).map (·.2) = cs.map (capacityOf cfg) := by
  simp [fullLegs]

/-- The candidates of full legs are the candidates themselves. -/
theorem candidates_fullLegs (cs : List (Candidate ℚ)) : (fullLegs cfg cs).map (·.1) = cs := by
  simp only [fullLegs, List.map_map]
  exact List.map_id _

/-- A walk is not over while the venue limit is not reached and more than a billionth of the order
is left. -/
theorem Walk.done_eq_false {w : Walk ℚ} :
    w.done cfg size = false ↔ w.legs.length < cfg.maxSplit ∧ tolerance * size < w.remaining := by
  simp [Walk.done]

/-- A venue whose capacity is at most a billionth of the order takes no leg. -/
theorem Walk.step_skip (w : Walk ℚ) {c : Candidate ℚ} (hc : capacityOf cfg c ≤ tolerance * size) :
    w.step cfg size c = w := by
  have ht : min w.remaining (capacityOf cfg c) ≤ tolerance * size := (min_le_right _ _).trans hc
  unfold capacityOf at ht
  simp [Walk.step, ht]

/-- A taker met while the walk is not over takes the smaller of what is left and its capacity. -/
theorem Walk.step_take {w : Walk ℚ} (hw : w.done cfg size = false) {c : Candidate ℚ}
    (hc : tolerance * size < capacityOf cfg c) :
    w.step cfg size c = ⟨w.remaining - min w.remaining (capacityOf cfg c),
      (c, min w.remaining (capacityOf cfg c)) :: w.legs⟩ := by
  obtain ⟨-, hr⟩ := (Walk.done_eq_false cfg size).1 hw
  have ht : ¬min w.remaining (capacityOf cfg c) ≤ tolerance * size := not_le.2 (lt_min hr hc)
  unfold capacityOf at ht ⊢
  simp only [Walk.step, hw, Bool.false_eq_true, if_false, smaller_rat, if_neg ht]

/-- Passing over the candidates that take nothing changes no walk: the walk over the ranked
candidates is the walk over the takers. -/
theorem foldl_takers (ranked : List (Candidate ℚ)) (w : Walk ℚ) :
    ranked.foldl (Walk.step cfg size) w = (takers cfg size ranked).foldl (Walk.step cfg size) w := by
  induction ranked generalizing w with
  | nil => rfl
  | cons c cs ih =>
    by_cases hc : tolerance * size < capacityOf cfg c
    · simp [takers, hc, ih]
    · simp [takers, hc, Walk.step_skip cfg size w (not_lt.1 hc), ih]

/-- Taking the smaller of what is left and a capacity that would leave at most `t` leaves at most
`t`, for `t` at least zero. -/
theorem sub_min_le {r c t : ℚ} (h : r - c ≤ t) (ht : 0 ≤ t) : r - min r c ≤ t := by
  rcases min_choice r c with hm | hm <;> rw [hm] <;> linarith

/-- How a walk over the takers `Q` ends, started with `r` of the order left and the legs `legs`
(last first). In both ways the takers `pre` take their whole capacity, one after another, and
leave more than a billionth of the order after each. -/
inductive Ends (r : ℚ) (legs : List (Candidate ℚ × ℚ)) (Q : List (Candidate ℚ)) : Walk ℚ → Prop
  /-- The next taker `c` leaves at most a billionth of the order: it takes the smaller of what is
  left and its capacity, and the walk is over. -/
  | filled (pre : List (Candidate ℚ)) (c : Candidate ℚ) (rest : List (Candidate ℚ))
      (split : Q = pre ++ c :: rest) (room : legs.length + pre.length < cfg.maxSplit)
      (short : ∀ p, p <+: pre → tolerance * size < r - reach cfg p)
      (full : r - reach cfg (pre ++ [c]) ≤ tolerance * size) :
      Ends r legs Q ⟨r - reach cfg pre - min (r - reach cfg pre) (capacityOf cfg c),
        (c, min (r - reach cfg pre) (capacityOf cfg c)) :: ((fullLegs cfg pre).reverse ++ legs)⟩
  /-- The venue limit is reached, or no taker is left. -/
  | short (pre rest : List (Candidate ℚ)) (split : Q = pre ++ rest)
      (room : legs.length + pre.length ≤ cfg.maxSplit)
      (stop : legs.length + pre.length = cfg.maxSplit ∨ rest = [])
      (short : ∀ p, p <+: pre → tolerance * size < r - reach cfg p) :
      Ends r legs Q ⟨r - reach cfg pre, (fullLegs cfg pre).reverse ++ legs⟩

/-- A walk that has taken nothing yet, with more than a billionth of the order left, ends short
with no taker used when its venue limit is reached or no taker is left. -/
theorem Ends.stopped {r : ℚ} {legs : List (Candidate ℚ × ℚ)} {Q : List (Candidate ℚ)}
    (hr : tolerance * size < r) (room : legs.length ≤ cfg.maxSplit)
    (stop : legs.length = cfg.maxSplit ∨ Q = []) :
    Ends cfg size r legs Q ⟨r, legs⟩ := by
  have h := @Ends.short cfg size r legs Q [] Q rfl
    (by simpa using room) (by simpa using stop) fun p hp => by
      rw [List.prefix_nil.1 hp, reach_nil, sub_zero]
      exact hr
  simpa [fullLegs] using h

/-- A run of takers each leaving more than a billionth of the order, after a first taker `q` that
took its whole capacity, is such a run with `q` in front. -/
theorem prefix_cons_short {r : ℚ} {q : Candidate ℚ} {pre : List (Candidate ℚ)}
    (hr : tolerance * size < r)
    (h : ∀ p, p <+: pre → tolerance * size < r - capacityOf cfg q - reach cfg p) :
    ∀ p, p <+: q :: pre → tolerance * size < r - reach cfg p := by
  intro p hp
  rcases List.prefix_cons_iff.1 hp with rfl | ⟨t, rfl, ht⟩
  · simpa using hr
  · have := h t ht
    rw [reach_cons]
    linarith

/-- A walk whose first taker `q` took its whole capacity ends as the walk over the rest does. -/
theorem Ends.cons {r : ℚ} {legs : List (Candidate ℚ × ℚ)} {q : Candidate ℚ}
    {Q : List (Candidate ℚ)} {w : Walk ℚ} (hr : tolerance * size < r)
    (h : Ends cfg size (r - capacityOf cfg q) ((q, capacityOf cfg q) :: legs) Q w) :
    Ends cfg size r legs (q :: Q) w := by
  have hlegs : ∀ pre : List (Candidate ℚ), (fullLegs cfg pre).reverse ++ (q, capacityOf cfg q) :: legs =
      (fullLegs cfg (q :: pre)).reverse ++ legs := by
    simp [fullLegs]
  have hleft : ∀ pre : List (Candidate ℚ), r - capacityOf cfg q - reach cfg pre = r - reach cfg (q :: pre) := by
    intro pre
    rw [reach_cons]
    ring
  cases h with
  | filled pre c rest split room short full =>
    rw [hlegs, hleft]
    refine .filled (q :: pre) c rest (by rw [split]; rfl)
      (by simp only [List.length_cons] at room ⊢; omega)
      (prefix_cons_short cfg size hr short) ?_
    rw [List.cons_append, ← hleft]
    exact full
  | short pre rest split room stop short =>
    rw [hlegs, hleft]
    exact .short (q :: pre) rest (by rw [split]; rfl)
      (by simp only [List.length_cons] at room ⊢; omega)
      (stop.imp (fun h => by simp only [List.length_cons] at h ⊢; omega) id)
      (prefix_cons_short cfg size hr short)

/-- The walk over takers ends in one of the two ways of `Ends`. The induction is on the takers,
with what is left and the legs so far generalised: while the walk is not over, the first taker
fills the order, or takes its whole capacity and the walk goes on. -/
theorem walk_ends (Q : List (Candidate ℚ)) (hQ : ∀ q ∈ Q, tolerance * size < capacityOf cfg q)
    (ht : 0 ≤ tolerance * size) (r : ℚ) (legs : List (Candidate ℚ × ℚ))
    (room : legs.length ≤ cfg.maxSplit) (hr : tolerance * size < r) :
    Ends cfg size r legs Q (Q.foldl (Walk.step cfg size) ⟨r, legs⟩) := by
  induction Q generalizing r legs with
  | nil => exact Ends.stopped cfg size hr room (.inr rfl)
  | cons q Q ih =>
    have hq := hQ q List.mem_cons_self
    rcases room.lt_or_eq with hlt | heq
    case inr =>
      -- The venue limit is already reached.
      have hd : (⟨r, legs⟩ : Walk ℚ).done cfg size = true := by simp [Walk.done, heq]
      rw [Walk.foldl_of_done cfg size hd]
      exact Ends.stopped cfg size hr room (.inl heq)
    have hw : (⟨r, legs⟩ : Walk ℚ).done cfg size = false :=
      (Walk.done_eq_false cfg size).2 ⟨hlt, hr⟩
    rw [List.foldl_cons, Walk.step_take cfg size hw hq]
    by_cases hfill : r - capacityOf cfg q ≤ tolerance * size
    · -- `q` fills the order and the walk is over.
      have hleft := sub_min_le (by simpa using hfill) ht
      have hd : (⟨r - min r (capacityOf cfg q), (q, min r (capacityOf cfg q)) :: legs⟩ : Walk ℚ).done
          cfg size = true := by
        simp [Walk.done, hleft]
      rw [Walk.foldl_of_done cfg size hd]
      have h := @Ends.filled cfg size r legs (q :: Q) [] q Q rfl (by simpa using hlt) (fun p hp => by simpa [List.prefix_nil.1 hp] using hr)
        (by simpa using hfill)
      simpa [fullLegs] using h
    · -- `q` takes its whole capacity and leaves more than a billionth of the order.
      have hmore : tolerance * size < r - capacityOf cfg q := not_le.1 hfill
      rw [min_eq_right (by linarith)]
      exact Ends.cons cfg size hr (ih (fun q' hq' => hQ q' (List.mem_cons_of_mem _ hq')) _ _
        (by simp; omega) hmore)

/-- The walk of an allocation ends as the walk over the takers does, from the whole order and no
leg. -/
theorem allocate_walk_ends (ranked : List (Candidate ℚ)) (hsize : 0 < size) :
    Ends cfg size size [] (takers cfg size ranked)
      (ranked.foldl (Walk.step cfg size) ⟨size, []⟩) := by
  have ht : 0 < tolerance * size := mul_pos tolerance_pos hsize
  rw [foldl_takers]
  refine walk_ends cfg size _ (fun q hq => ?_) ht.le size [] (Nat.zero_le _) ?_
  · simpa [takers] using (List.mem_filter.1 hq).2
  · calc tolerance * size < 1 * size := mul_lt_mul_of_pos_right tolerance_lt_one hsize
      _ = size := one_mul size

/-- The allocation, read off how its walk ends. Filled: the legs of the takers used, each at its
whole capacity but the last, which takes the rest of the order. Short: none. -/
theorem allocate_cases (ranked : List (Candidate ℚ)) (hsize : 0 < size) :
    (∃ pre c rest, takers cfg size ranked = pre ++ c :: rest ∧ pre.length < cfg.maxSplit ∧
      (∀ p, p <+: pre → tolerance * size < size - reach cfg p) ∧
      size - reach cfg (pre ++ [c]) ≤ tolerance * size ∧
      allocate ranked size cfg = some (fullLegs cfg pre ++ [(c, size - reach cfg pre)])) ∨
    (∃ pre rest, takers cfg size ranked = pre ++ rest ∧ pre.length ≤ cfg.maxSplit ∧
      (pre.length = cfg.maxSplit ∨ rest = []) ∧ tolerance * size < size - reach cfg pre ∧
      allocate ranked size cfg = none) := by
  have hends := allocate_walk_ends cfg size ranked hsize
  have ht : 0 < tolerance * size := mul_pos tolerance_pos hsize
  unfold allocate
  generalize ranked.foldl (Walk.step cfg size) ⟨size, []⟩ = w at hends ⊢
  cases hends with
  | filled pre c rest split room short full =>
    -- The last taker leaves at most a billionth of the order; settling gives it the rest.
    have hleft : size - reach cfg pre - min (size - reach cfg pre) (capacityOf cfg c) ≤
        tolerance * size :=
      sub_min_le (by rw [reach_append, reach_cons, reach_nil] at full; linarith) ht.le
    refine .inl ⟨pre, c, rest, split, by simpa using room, short, full, ?_⟩
    rw [if_neg (by simp [not_lt.2 hleft])]
    simp [settle_append, sizes_fullLegs, reach]
  | short pre rest split room stop short =>
    -- More than a billionth of the order is left.
    have hmore := short pre (List.prefix_refl pre)
    refine .inr ⟨pre, rest, split, by simpa using room, by simpa using stop, hmore, ?_⟩
    simp [hmore]

/-- The takers' capacities are more than a billionth of a positive order, so at least zero. -/
theorem capacityOf_nonneg_of_mem_takers {ranked : List (Candidate ℚ)} (hsize : 0 < size)
    {c : Candidate ℚ} (hc : c ∈ takers cfg size ranked) : 0 ≤ capacityOf cfg c := by
  have ht := mul_pos tolerance_pos hsize
  have hc : tolerance * size < capacityOf cfg c := by
    simpa [takers] using (List.mem_filter.1 hc).2
  linarith

/-- The allocation fails exactly when the first `maxSplit` takers together fall short of all but a
billionth of the order. -/
theorem allocate_eq_none_iff (ranked : List (Candidate ℚ)) (hsize : 0 < size) :
    allocate ranked size cfg = none ↔
      reach cfg ((takers cfg size ranked).take cfg.maxSplit) < (1 - tolerance) * size := by
  have hone : (1 - tolerance) * size = size - tolerance * size := by ring
  rw [hone]
  rcases allocate_cases cfg size ranked hsize with
    ⟨pre, c, rest, split, room, -, full, h⟩ | ⟨pre, rest, split, room, stop, more, h⟩
  · -- Filled: the takers used are among the first `maxSplit`, and reach far enough.
    rw [h]
    simp only [reduceCtorEq, false_iff, not_lt]
    have hpre : pre ++ [c] <+: (takers cfg size ranked).take cfg.maxSplit :=
      List.prefix_take_iff.2 ⟨⟨rest, by simp [split]⟩, by simpa using room⟩
    have hle := reach_le_of_prefix cfg hpre fun d hd =>
      capacityOf_nonneg_of_mem_takers cfg size hsize (List.mem_of_mem_take hd)
    linarith
  · -- Short: the first `maxSplit` takers are the ones used.
    have htake : (takers cfg size ranked).take cfg.maxSplit = pre := by
      rw [split]
      rcases stop with hm | rfl
      · exact List.take_left' hm
      · simpa using room
    rw [h, htake]
    simp only [true_iff]
    linarith

/-- A successful allocation is the shortest run of takers that reaches all but a billionth of the
order, within the venue limit: each at its whole capacity but the last, which takes the rest. -/
theorem allocate_eq_some (ranked : List (Candidate ℚ)) (hsize : 0 < size)
    {legs : List (Candidate ℚ × ℚ)} (h : allocate ranked size cfg = some legs) :
    ∃ pre c, pre ++ [c] <+: takers cfg size ranked ∧ pre.length < cfg.maxSplit ∧
      (1 - tolerance) * size ≤ reach cfg (pre ++ [c]) ∧
      (∀ p, p <+: pre → reach cfg p < (1 - tolerance) * size) ∧
      legs = fullLegs cfg pre ++ [(c, size - reach cfg pre)] := by
  have hone : (1 - tolerance) * size = size - tolerance * size := by ring
  rcases allocate_cases cfg size ranked hsize with
    ⟨pre, c, rest, split, room, short, full, ha⟩ | ⟨-, -, -, -, -, -, ha⟩
  · rw [ha] at h
    refine ⟨pre, c, ⟨rest, by simp [split]⟩, room, by rw [hone]; linarith, fun p hp => ?_,
      (Option.some.inj h).symm⟩
    have := short p hp
    rw [hone]
    linarith
  · rw [ha] at h
    cases h

/-- The legs of a successful allocation: at least one, each positive, on candidates in rank order,
adding up to the order exactly. -/
theorem allocate_legs (ranked : List (Candidate ℚ)) (hsize : 0 < size)
    {legs : List (Candidate ℚ × ℚ)} (h : allocate ranked size cfg = some legs) :
    legs ≠ [] ∧ (∀ l ∈ legs, 0 < l.2) ∧ (legs.map (·.1)).Sublist ranked ∧ (legs.map (·.2)).sum = size := by
  obtain ⟨pre, c, hpre, -, -, short, rfl⟩ := allocate_eq_some cfg size ranked hsize h
  have ht : 0 < tolerance * size := mul_pos tolerance_pos hsize
  have hlast : tolerance * size < size - reach cfg pre := by
    have := short pre (List.prefix_refl pre)
    linarith [show (1 - tolerance) * size = size - tolerance * size by ring]
  refine ⟨by simp, fun l hl => ?_, ?_, ?_⟩
  · -- A full leg takes a taker's capacity; the last one the rest, more than a billionth.
    rcases List.mem_append.1 hl with hl | hl
    · obtain ⟨d, hd, rfl⟩ := List.mem_map.1 hl
      have hdt : d ∈ takers cfg size ranked := hpre.sublist.subset (List.mem_append_left _ hd)
      exact ht.trans (by simpa [takers] using (List.mem_filter.1 hdt).2)
    · rw [List.mem_singleton.1 hl]
      exact ht.trans hlast
  · have hcands : (fullLegs cfg pre ++ [(c, size - reach cfg pre)]).map (·.1) = pre ++ [c] := by
      rw [List.map_append, candidates_fullLegs]
      rfl
    rw [hcands]
    exact hpre.sublist.trans List.filter_sublist
  · simp [sizes_fullLegs, reach]

end Exact

/-- In exact arithmetic, for an order of positive size over ranked candidates on distinct venues:
the allocation fails exactly when the first `maxSplit` takers together fall short of all but a
billionth of the order. Otherwise its legs are the shortest run of takers that reaches that much,
within the venue limit, each at its capacity under the cap but the last, which takes the rest of
the order; so there is at least one leg, each is positive, and they are in rank order on distinct
venues and add up to the order exactly. -/
theorem allocate_closed_form (ranked : List (Candidate ℚ)) (size : ℚ) (cfg : RouterConfig ℚ)
    (hsize : 0 < size) (hvenues : (ranked.map (·.venue)).Nodup) :
    let Q := takers cfg size ranked
    (allocate ranked size cfg = none ↔ reach cfg (Q.take cfg.maxSplit) < (1 - tolerance) * size) ∧
    ∀ legs, allocate ranked size cfg = some legs →
      (∃ pre c, pre ++ [c] <+: Q ∧ pre.length < cfg.maxSplit ∧
        (1 - tolerance) * size ≤ reach cfg (pre ++ [c]) ∧
        (∀ p, p <+: pre → reach cfg p < (1 - tolerance) * size) ∧
        legs = fullLegs cfg pre ++ [(c, size - reach cfg pre)]) ∧
      legs ≠ [] ∧ (∀ l ∈ legs, 0 < l.2) ∧ (legs.map (·.1)).Sublist ranked ∧
      (legs.map (·.1.venue)).Nodup ∧ (legs.map (·.2)).sum = size := by
  intro Q
  refine ⟨allocate_eq_none_iff cfg size ranked hsize, fun legs h => ?_⟩
  obtain ⟨hne, hpos, hsub, hsum⟩ := allocate_legs cfg size ranked hsize h
  refine ⟨allocate_eq_some cfg size ranked hsize h, hne, hpos, hsub, ?_, hsum⟩
  -- Distinct venues: the legs' candidates are a sublist of the ranked ones.
  have h := (hsub.map (·.venue)).nodup hvenues
  rw [List.map_map] at h
  exact h

/-- Four venues under a 5% cap at impact `0.05`, each able to take its whole depth: `40`, a
hundred-billionth (passed over), `40` and `40`, for an order of `100` over at most three venues. -/
theorem allocate_closed_form_passes_over_dust :
    let ranked : List (Candidate ℚ) :=
      [⟨.polymarket, 0.5, 0, 10, false, 500, 0.5, 40, 100⟩,
        ⟨.kalshi, 0.5, 0, 10, false, 800, 0.5, 0.00000000001, 100⟩,
        ⟨.manifold, 0.5, 0, 10, false, 300, 0.5, 40, 100⟩,
        ⟨.metaculus, 0.5, 0, 10, false, 300, 0.5, 40, 100⟩]
    let cfg : RouterConfig ℚ := ⟨.bestPrice, 5, false, true, none, 3, 0.05, 0.5, 1500, 4000⟩
    0 < (100 : ℚ) ∧ (ranked.map (·.venue)).Nodup ∧
      let Q := takers cfg 100 ranked
      (allocate ranked 100 cfg = none ↔ reach cfg (Q.take cfg.maxSplit) < (1 - tolerance) * 100) ∧
      ∀ legs, allocate ranked 100 cfg = some legs →
        (∃ pre c, pre ++ [c] <+: Q ∧ pre.length < cfg.maxSplit ∧
          (1 - tolerance) * 100 ≤ reach cfg (pre ++ [c]) ∧
          (∀ p, p <+: pre → reach cfg p < (1 - tolerance) * 100) ∧
          legs = fullLegs cfg pre ++ [(c, 100 - reach cfg pre)]) ∧
        legs ≠ [] ∧ (∀ l ∈ legs, 0 < l.2) ∧ (legs.map (·.1)).Sublist ranked ∧
        (legs.map (·.1.venue)).Nodup ∧ (legs.map (·.2)).sum = 100 :=
  ⟨by norm_num, by decide, allocate_closed_form _ _ _ (by norm_num) (by decide)⟩

end Split

end TradeDesk
