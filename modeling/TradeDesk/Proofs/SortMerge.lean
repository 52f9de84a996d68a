import Mathlib
import TradeDesk.Proofs.SortSearch

/-!
# The galloping merge is the stable merge

Two neighbouring runs in order are merged by `Sort.mergeRuns` into exactly their stable merge,
`List.merge` taking from the first run unless the second run's element is below
(`mergeRuns_eq`), for a comparison that is a strict weak order. Galloping, trimming and merging
from either end change how many comparisons are made, never the result.

* Four block laws of the stable merge: a stretch of the first run that may come before the second
  run's head goes first whole (`merge_append_left`), a stretch of the second run below the first
  run's head goes first whole (`merge_append_right`), and at the back, a stretch above everything
  left of the other run goes last whole (`merge_append_of_above`, `merge_append_of_below`).
* A merge from the fronts keeps `LowAt`: what is merged, followed by the stable merge of what is
  left, is the stable merge of the two runs. Each step takes an element or a galloped stretch by
  one of the laws, and the exits hold because one run is used up, or because the last element of
  the first run is above all of the second. A merge from the backs keeps `HighAt` in the same way.
* Trimming the ends that are already in place is the first and last law again (`mergeRuns_eq`).
-/

namespace TradeDesk.Sort

variable {β : Type} {lt : β → β → Id Bool}

/-- The comparison the stable merge takes from the first run by: the second run's element is not
below the first run's. -/
def precedesB (lt : β → β → Id Bool) (a b : β) : Bool := !(lt b a).run

@[simp] theorem precedesB_eq_true {a b : β} : precedesB lt a b = true ↔ Precedes lt a b := by
  simp [precedesB, Precedes]

@[simp] theorem precedesB_eq_false {a b : β} : precedesB lt a b = false ↔ (lt b a).run = true := by
  simp [precedesB]

/-! ## Block laws of the stable merge -/

/-- A stretch of the first run whose elements may come before the second run's head goes first. -/
theorem merge_append_left {xs₁ xs₂ ys : List β} {y : β} (h : ∀ x ∈ xs₁, Precedes lt x y) :
    List.merge (xs₁ ++ xs₂) (y :: ys) (precedesB lt) =
      xs₁ ++ List.merge xs₂ (y :: ys) (precedesB lt) := by
  induction xs₁ with
  | nil => rfl
  | cons x xs₁ ih =>
    rw [List.cons_append, List.cons_merge_cons_pos _ _ _ (precedesB_eq_true.2 (h x (by simp))),
      ih fun x hx => h x (List.mem_cons_of_mem _ hx), List.cons_append]

/-- A stretch of the second run whose elements are below the first run's head goes first. -/
theorem merge_append_right {xs ys₁ ys₂ : List β} {x : β} (h : ∀ y ∈ ys₁, (lt y x).run = true) :
    List.merge (x :: xs) (ys₁ ++ ys₂) (precedesB lt) =
      ys₁ ++ List.merge (x :: xs) ys₂ (precedesB lt) := by
  induction ys₁ with
  | nil => rfl
  | cons y ys₁ ih =>
    have hxy : ¬precedesB lt x y = true := by simp [precedesB, h y List.mem_cons_self]
    rw [List.cons_append, List.cons_merge_cons_neg _ _ _ hxy,
      ih fun y hy => h y (List.mem_cons_of_mem _ hy), List.cons_append]

/-- A stretch at the back of the first run above everything in the second run goes last. The
induction is on what comes before it in both runs. -/
theorem merge_append_of_above {xs₁ xs₂ ys : List β}
    (h : ∀ x ∈ xs₂, ∀ y ∈ ys, (lt y x).run = true) :
    List.merge (xs₁ ++ xs₂) ys (precedesB lt) = List.merge xs₁ ys (precedesB lt) ++ xs₂ := by
  induction xs₁ generalizing ys with
  | nil =>
    cases xs₂ with
    | nil => simp
    | cons x xs₂ =>
      have hx := @merge_append_right β lt xs₂ ys [] x fun y hy => h x (by simp) y hy
      rw [List.append_nil] at hx
      simpa using hx
  | cons x xs₁ ih =>
    induction ys with
    | nil => simp
    | cons y ys ihy =>
      rw [List.cons_append, List.cons_merge_cons, List.cons_merge_cons]
      split
      · rw [ih h, List.cons_append]
      · rw [List.cons_append, ← List.cons_append, ihy fun x' hx' y' hy' =>
          h x' hx' y' (List.mem_cons_of_mem _ hy')]

/-- A stretch at the back of the second run that everything in the first run may come before goes
last. -/
theorem merge_append_of_below {xs ys₁ ys₂ : List β} (h : ∀ x ∈ xs, ∀ y ∈ ys₂, Precedes lt x y) :
    List.merge xs (ys₁ ++ ys₂) (precedesB lt) = List.merge xs ys₁ (precedesB lt) ++ ys₂ := by
  induction ys₁ generalizing xs with
  | nil =>
    rw [List.nil_append, List.merge_right,
      List.merge_of_le fun x y hx hy => precedesB_eq_true.2 (h x hx y hy)]
  | cons y ys₁ ih =>
    induction xs with
    | nil => simp
    | cons x xs ihx =>
      rw [List.cons_append, List.cons_merge_cons, List.cons_merge_cons]
      split
      · rw [← List.cons_append, ihx fun x' hx' y' hy' => h x' (List.mem_cons_of_mem _ hx') y' hy',
          List.cons_append]
      · rw [ih h, List.cons_append]

/-- The stable merge of a list with a list all below it puts the second first. -/
theorem merge_of_below_all {xs ys : List β} (h : ∀ x ∈ xs, ∀ y ∈ ys, (lt y x).run = true) :
    List.merge xs ys (precedesB lt) = ys ++ xs := by
  simpa using @merge_append_of_above β lt [] xs ys h

/-! ## Runs ready to merge -/

/-- Two runs as `mergeRuns` hands them to a merge: both in order, the second starting with `b0`
below every element of the first, and the first ending with `aLast` above every element of the
second. -/
structure Trimmed (lt : β → β → Id Bool) (a b : Array β) (b0 aLast : β) : Prop where
  left_sorted : a.toList.Pairwise (Precedes lt)
  right_sorted : b.toList.Pairwise (Precedes lt)
  first : b[0]? = some b0
  first_below : ∀ x ∈ a.toList, (lt b0 x).run = true
  last : a[a.size - 1]? = some aLast
  last_above : ∀ y ∈ b.toList, (lt y aLast).run = true

/-- In a run in order, everything up to an element may come before it. -/
theorem precedes_of_mem_take (hlt : StrictWeak lt) {l : List β} (hs : l.Pairwise (Precedes lt))
    {n : Nat} (hn : 1 ≤ n) {x : β} (hx : l[n - 1]? = some x) :
    ∀ z ∈ l.take n, Precedes lt z x := by
  have ht := take_eq_concat_of_getElem? l (n - 1) hx
  rw [Nat.sub_add_cancel hn] at ht
  have hs' : (l.take (n - 1) ++ [x]).Pairwise (Precedes lt) := ht ▸ hs.sublist (List.take_sublist _ _)
  intro z hz
  rw [ht, List.mem_append, List.mem_singleton] at hz
  rcases hz with hz | rfl
  · exact (List.pairwise_append.1 hs').2.2 z hz x List.mem_cons_self
  · exact hlt.refl z

/-! ## Merging from the fronts -/

/-- A stretch of a run from `i` on, of `k` elements or fewer, given by its positions. -/
theorem forall_mem_take_drop {a : Array β} {i k : Nat} {Q : β → Prop}
    (hk : ∀ p (hp : i + p < a.size), p < k → Q a[i + p]) : ∀ x ∈ (a.toList.drop i).take k, Q x := by
  intro x hx
  obtain ⟨p, hp, rfl⟩ := List.mem_take_iff_getElem.1 hx
  have hp' : p < a.size - i := by simpa using (lt_min_iff.1 hp).2
  simpa using hk p (by omega) (lt_min_iff.1 hp).1

/-- Where a merge from the fronts stands against `target`: what is merged, followed by the stable
merge of what is left of the two runs, is the target. -/
def LowAt (lt : β → β → Id Bool) (a b : Array β) (i j : Nat) (out : Array β) (target : List β) :
    Prop :=
  out.toList ++ List.merge (a.toList.drop i) (b.toList.drop j) (precedesB lt) = target

namespace LowAt

variable {a b : Array β} {i j : Nat} {out : Array β} {target : List β}

/-- The first run's element goes next when the second run's is not below it. -/
theorem takeA (h : LowAt lt a b i j out target) {x y : β} (hx : a[i]? = some x)
    (hy : b[j]? = some y) (hxy : Precedes lt x y) : LowAt lt a b (i + 1) j (out.push x) target := by
  unfold LowAt at h ⊢
  rw [drop_eq_cons_of_getElem? a.toList i (by rwa [Array.getElem?_toList]),
    drop_eq_cons_of_getElem? b.toList j (by rwa [Array.getElem?_toList]),
    List.cons_merge_cons_pos _ _ _ (precedesB_eq_true.2 hxy),
    ← drop_eq_cons_of_getElem? b.toList j (by rwa [Array.getElem?_toList])] at h
  simpa using h

/-- The second run's element goes next when it is below the first run's. -/
theorem takeB (h : LowAt lt a b i j out target) {x y : β} (hx : a[i]? = some x)
    (hy : b[j]? = some y) (hyx : (lt y x).run = true) :
    LowAt lt a b i (j + 1) (out.push y) target := by
  unfold LowAt at h ⊢
  have hxy : ¬precedesB lt x y = true := by simp [precedesB, hyx]
  rw [drop_eq_cons_of_getElem? a.toList i (by rwa [Array.getElem?_toList]),
    drop_eq_cons_of_getElem? b.toList j (by rwa [Array.getElem?_toList]),
    List.cons_merge_cons_neg _ _ _ hxy,
    ← drop_eq_cons_of_getElem? a.toList i (by rwa [Array.getElem?_toList])] at h
  simpa using h

/-- A galloped stretch of the first run that may come before the second run's element goes next. -/
theorem runA (h : LowAt lt a b i j out target) {y : β} (hy : b[j]? = some y) (k : Nat)
    (hk : ∀ p (hp : i + p < a.size), p < k → Precedes lt a[i + p] y) :
    LowAt lt a b (i + k) j (out ++ a.extract i (i + k)) target := by
  unfold LowAt at h ⊢
  have hA : a.toList.drop i = (a.toList.drop i).take k ++ a.toList.drop (i + k) := by
    rw [← List.drop_drop, List.take_append_drop]
  have hpre : ∀ x ∈ (a.toList.drop i).take k, Precedes lt x y := forall_mem_take_drop hk
  rw [hA, drop_eq_cons_of_getElem? b.toList j (by rwa [Array.getElem?_toList]),
    merge_append_left hpre, ← drop_eq_cons_of_getElem? b.toList j (by rwa [Array.getElem?_toList])]
    at h
  simpa [List.take_drop, List.append_assoc] using h

/-- A galloped stretch of the second run below the first run's element goes next. -/
theorem runB (h : LowAt lt a b i j out target) {x : β} (hx : a[i]? = some x) (k : Nat)
    (hk : ∀ q (hq : j + q < b.size), q < k → (lt b[j + q] x).run = true) :
    LowAt lt a b i (j + k) (out ++ b.extract j (j + k)) target := by
  unfold LowAt at h ⊢
  have hB : b.toList.drop j = (b.toList.drop j).take k ++ b.toList.drop (j + k) := by
    rw [← List.drop_drop, List.take_append_drop]
  have hbelow : ∀ y ∈ (b.toList.drop j).take k, (lt y x).run = true := forall_mem_take_drop hk
  rw [hB, drop_eq_cons_of_getElem? a.toList i (by rwa [Array.getElem?_toList]),
    merge_append_right hbelow, ← drop_eq_cons_of_getElem? a.toList i (by rwa [Array.getElem?_toList])]
    at h
  simpa [List.take_drop, List.append_assoc] using h

/-- With one run used up, what is left of the other follows what is merged. -/
theorem done (h : LowAt lt a b i j out target) (hend : a.size ≤ i ∨ b.size ≤ j) :
    lowDone a b i j out = target := by
  unfold LowAt at h
  rw [lowDone_eq, ← h]
  rcases hend with hi | hj
  · have hA : a.toList.drop i = [] := List.drop_eq_nil_of_le (by simpa using hi)
    rw [hA, List.nil_merge, List.append_nil]
  · have hB : b.toList.drop j = [] := List.drop_eq_nil_of_le (by simpa using hj)
    rw [hB, List.merge_right, List.append_nil]

/-- With one element of the first run left, above all of the second run, it goes last. -/
theorem last (h : LowAt lt a b i j out target) (hi : a.size - i = 1) {aLast : β}
    (haLast : a[a.size - 1]? = some aLast) (hlast : ∀ y ∈ b.toList, (lt y aLast).run = true) :
    lowLast a b i j out = target := by
  unfold LowAt at h
  have hA : a.toList.drop i = [aLast] := by
    rw [drop_eq_cons_of_getElem? a.toList i (by rw [Array.getElem?_toList]; convert haLast using 2; omega),
      List.drop_eq_nil_of_le (by simp; omega)]
  rw [lowLast_eq, ← h, hA, merge_of_below_all fun x hx y hy => by
    rw [List.mem_singleton.1 hx]
    exact hlast y (List.mem_of_mem_drop hy), List.append_assoc]

end LowAt

/-- A merge from the fronts under way ends in the stable merge of the two runs. Besides `LowAt`
the induction on the fuel carries the bounds the merge's tests keep: two elements of the first
run are left, one of the second, and the fuel covers what is left. The gallops' searches split
what is left of a run where the comparison with the other run's next element turns. -/
theorem lowSteps_eq (hlt : StrictWeak lt) {a b : Array β} {b0 aLast : β}
    (ht : Trimmed lt a b b0 aLast) {target : List β} (fuel i j : Nat) (out : Array β) (g : Nat)
    (st : Stage) (h : LowAt lt a b i j out target) (hi : 2 ≤ a.size - i) (hj : j < b.size)
    (hfuel : a.size - i + (b.size - j) ≤ fuel + 1) :
    (lowSteps lt fuel a b i j out g st).run.1 = target := by
  induction fuel generalizing i j out g st with
  | zero => exact h.done (by omega)
  | succ fuel ih =>
    have hx : a[i]? = some a[i] := Array.getElem?_eq_getElem (by omega)
    have hy : b[j]? = some b[j] := Array.getElem?_eq_getElem hj
    cases st with
    | plain aw bw =>
      simp only [lowSteps, hx, hy, Id.run_bind]
      cases hyx : (lt b[j] a[i]).run
      · -- The first run's element goes next.
        have h' := h.takeA hx hy hyx
        simp only [Bool.false_eq_true, ↓reduceIte]
        split
        · next hend => exact h'.last (by simpa using hend) ht.last ht.last_above
        next hend =>
        have hi' : 2 ≤ a.size - (i + 1) := by simp at hend; omega
        split
        · exact ih _ _ _ _ _ h' hi' hj (by omega)
        · exact ih _ _ _ _ _ h' hi' hj (by omega)
      · -- The second run's element goes next.
        have h' := h.takeB hx hy hyx
        simp only [↓reduceIte]
        split
        · next hend => exact h'.done (.inr (by simp at hend; omega))
        next hend =>
        have hj' : j + 1 < b.size := by simp at hend; omega
        split
        · exact ih _ _ _ _ _ h' hi hj' (by omega)
        · exact ih _ _ _ _ _ h' hi hj' (by omega)
    | gallop =>
      simp only [lowSteps, hy, Id.run_bind]
      -- The first gallop: the stretch of the first run that may come before `b[j]`.
      have hs := gallopRight_splits hlt b[j] (fun t => a.getD (i + t) b[j]) (a.size - i) 0
        ((sortedUpTo_getD hlt a ht.left_sorted b[j]).shift i) (by omega)
      generalize (gallopRight lt b[j] (fun t => a.getD (i + t) b[j]) (a.size - i) 0).run = k at hs ⊢
      have h1 := h.runA hy k fun p hp hpk => by
        simpa [Precedes, Array.getD_eq_getD_getElem?, hp] using hs.below p (Nat.zero_le p) hpk
      split
      · next hend => exact h1.last (by simpa using hend) ht.last ht.last_above
      next hend1 =>
      split
      · next hend => exact h1.done (.inl hend)
      next hend2 =>
      have hik : i + k < a.size := by omega
      have hxk : a[i + k]? = some a[i + k] := Array.getElem?_eq_getElem hik
      have h2 := h1.takeB hxk hy (by
        simpa [Array.getD_eq_getD_getElem?, hik] using hs.above k le_rfl (by omega))
      split
      · next hend => exact h2.done (.inr hend)
      next hend3 =>
      simp only [hxk, Id.run_bind]
      -- The second gallop: the stretch of the second run below `a[i + k]`.
      have hs2 := gallopLeft_splits hlt a[i + k] (fun t => b.getD (j + 1 + t) a[i + k])
        (b.size - (j + 1)) 0 ((sortedUpTo_getD hlt b ht.right_sorted a[i + k]).shift (j + 1))
        (by omega)
      generalize (gallopLeft lt a[i + k] (fun t => b.getD (j + 1 + t) a[i + k])
        (b.size - (j + 1)) 0).run = k2 at hs2 ⊢
      have h3 := h2.runB hxk k2 fun q hq hqk => by
        simpa [Array.getD_eq_getD_getElem?, hq] using hs2.below q (Nat.zero_le q) hqk
      split
      · next hend => exact h3.done (.inr hend)
      next hend4 =>
      have hjk : j + 1 + k2 < b.size := by omega
      have h4 := h3.takeA hxk (Array.getElem?_eq_getElem hjk) (by
        simpa [Precedes, Array.getD_eq_getD_getElem?, hjk] using hs2.above k2 le_rfl (by omega))
      split
      · next hend => exact h4.last (by simpa using hend) ht.last ht.last_above
      next hend5 =>
      have hi' : 2 ≤ a.size - (i + k + 1) := by simp at hend1 hend5; omega
      split
      · exact ih _ _ _ _ _ h4 hi' hjk (by omega)
      · exact ih _ _ _ _ _ h4 hi' hjk (by omega)

/-- Two runs ready to merge, merged from the fronts, give their stable merge. -/
theorem mergeLow_eq (hlt : StrictWeak lt) {a b : Array β} {b0 aLast : β}
    (ht : Trimmed lt a b b0 aLast) (g : Nat) :
    (mergeLow lt g a b).run.1 = List.merge a.toList b.toList (precedesB lt) := by
  have ha1 : 1 ≤ a.size := by
    have := (Array.getElem?_eq_some_iff.1 ht.last).1
    omega
  have hb1 : 1 ≤ b.size := (Array.getElem?_eq_some_iff.1 ht.first).1
  -- The first element of the second run goes first.
  have h0 : LowAt lt a b 0 0 #[] (List.merge a.toList b.toList (precedesB lt)) := by
    simp [LowAt]
  have h := h0.takeB (Array.getElem?_eq_getElem (by omega : 0 < a.size)) ht.first
    (ht.first_below _ (Array.getElem_mem_toList _))
  simp only [Array.push_empty, Nat.zero_add] at h
  unfold mergeLow
  rw [ht.first]
  dsimp only
  split
  · next h1 =>
    have hdrop : b.toList.drop 1 = [] := List.drop_eq_nil_of_le (by simp_all)
    simpa [LowAt, hdrop] using h
  split
  · next h1 => exact h.last (by simpa using h1) ht.last ht.last_above
  next h1 h2 =>
  simp only [beq_iff_eq] at h1 h2
  exact lowSteps_eq hlt ht _ 0 1 _ g _ h (by omega) (by omega) (by omega)


/-! ## Merging from the backs -/

/-- Where a merge from the backs stands against `target`: the stable merge of what is left of the
two runs, followed by what is merged, is the target. -/
def HighAt (lt : β → β → Id Bool) (a b : Array β) (ia ib : Nat) (tail target : List β) : Prop :=
  List.merge (a.toList.take ia) (b.toList.take ib) (precedesB lt) ++ tail = target

/-- What is left of a run once its back from `r` on is taken. -/
theorem take_eq_take_append_extract (a : Array β) {r n : Nat} (hr : r ≤ n) :
    a.toList.take n = a.toList.take r ++ (a.extract r n).toList := by
  rw [Array.toList_extract, List.extract_eq_take_drop, ← List.take_add, Nat.add_sub_cancel' hr]

namespace HighAt

variable {a b : Array β} {ia ib : Nat} {tail target : List β}

/-- The first run's last element left goes to the back when everything left of the second run is
below it. -/
theorem takeA (h : HighAt lt a b ia ib tail target) (hia : 1 ≤ ia) {x : β}
    (hx : a[ia - 1]? = some x) (hall : ∀ z ∈ b.toList.take ib, (lt z x).run = true) :
    HighAt lt a b (ia - 1) ib (x :: tail) target := by
  unfold HighAt at h ⊢
  have ht := take_eq_concat_of_getElem? a.toList (ia - 1) (by rwa [Array.getElem?_toList])
  rw [Nat.sub_add_cancel hia] at ht
  rw [ht, merge_append_of_above fun x' hx' z hz => by
    rw [List.mem_singleton.1 hx']
    exact hall z hz] at h
  simpa using h

/-- The second run's last element left goes to the back when everything left of the first run may
come before it. -/
theorem takeB (h : HighAt lt a b ia ib tail target) (hib : 1 ≤ ib) {y : β}
    (hy : b[ib - 1]? = some y) (hall : ∀ z ∈ a.toList.take ia, Precedes lt z y) :
    HighAt lt a b ia (ib - 1) (y :: tail) target := by
  unfold HighAt at h ⊢
  have ht := take_eq_concat_of_getElem? b.toList (ib - 1) (by rwa [Array.getElem?_toList])
  rw [Nat.sub_add_cancel hib] at ht
  rw [ht, merge_append_of_below fun z hz y' hy' => by
    rw [List.mem_singleton.1 hy']
    exact hall z hz] at h
  simpa using h

/-- A galloped stretch at the back of the first run, above everything left of the second run,
goes to the back. -/
theorem runA (h : HighAt lt a b ia ib tail target) {r : Nat} (hr : r ≤ ia)
    (hall : ∀ p (hp : p < a.size), r ≤ p → p < ia → ∀ z ∈ b.toList.take ib, (lt z a[p]).run = true) :
    HighAt lt a b r ib ((a.extract r ia).toList ++ tail) target := by
  unfold HighAt at h ⊢
  rw [take_eq_take_append_extract a hr, merge_append_of_above fun x hx z hz => by
    obtain ⟨q, hq, rfl⟩ := Array.mem_extract_iff_getElem.1 (Array.mem_def.2 hx)
    exact hall (r + q) _ (by omega) (by omega) z hz] at h
  simpa using h

/-- A galloped stretch at the back of the second run, that everything left of the first run may
come before, goes to the back. -/
theorem runB (h : HighAt lt a b ia ib tail target) {r : Nat} (hr : r ≤ ib)
    (hall : ∀ q (hq : q < b.size), r ≤ q → q < ib → ∀ z ∈ a.toList.take ia, Precedes lt z b[q]) :
    HighAt lt a b ia r ((b.extract r ib).toList ++ tail) target := by
  unfold HighAt at h ⊢
  rw [take_eq_take_append_extract b hr, merge_append_of_below fun z hz y hy => by
    obtain ⟨q, hq, rfl⟩ := Array.mem_extract_iff_getElem.1 (Array.mem_def.2 hy)
    exact hall (r + q) _ (by omega) (by omega) z hz] at h
  simpa using h

/-- With one run used up, what is left of the other goes before what is merged. -/
theorem done (h : HighAt lt a b ia ib tail target) (hend : ia = 0 ∨ ib = 0) :
    highDone a b ia ib tail = target := by
  unfold HighAt at h
  rw [highDone_eq, ← h]
  rcases hend with rfl | rfl
  · rw [List.take_zero, List.nil_merge, List.nil_append]
  · rw [List.take_zero, List.merge_right, List.append_nil]

/-- With one element of the second run left, below all of the first run, it goes first. -/
theorem first (h : HighAt lt a b ia ib tail target) (hib : ib = 1) {b0 : β}
    (hb0 : b[0]? = some b0) (hfirst : ∀ x ∈ a.toList, (lt b0 x).run = true) :
    highFirst a b ia ib tail = target := by
  subst hib
  unfold HighAt at h
  have hB : b.toList.take 1 = [b0] := by
    rw [take_eq_concat_of_getElem? b.toList 0 (by rwa [Array.getElem?_toList]), List.take_zero,
      List.nil_append]
  rw [highFirst_eq, ← h, hB, merge_of_below_all fun x hx y hy => by
    rw [List.mem_singleton.1 hy]
    exact hfirst x (List.mem_of_mem_take hx)]

end HighAt

/-- A merge from the backs under way ends in the stable merge of the two runs. Besides `HighAt`
the induction on the fuel carries the bounds the merge's tests keep: an element of the first run is
left and two of the second, and the fuel covers what is left. -/
theorem highSteps_eq (hlt : StrictWeak lt) {a b : Array β} {b0 aLast : β}
    (ht : Trimmed lt a b b0 aLast) {target : List β} (fuel ia ib : Nat) (tail : List β) (g : Nat)
    (st : Stage) (h : HighAt lt a b ia ib tail target) (hia : 1 ≤ ia) (hia' : ia ≤ a.size)
    (hib : 2 ≤ ib) (hib' : ib ≤ b.size) (hfuel : ia + ib ≤ fuel + 2) :
    (highSteps lt fuel a b ia ib tail g st).run.1 = target := by
  induction fuel generalizing ia ib tail g st with
  | zero => exact absurd hfuel (by omega)
  | succ fuel ih =>
    obtain ⟨x, hx⟩ : ∃ x, a[ia - 1]? = some x := ⟨_, Array.getElem?_eq_getElem (by omega)⟩
    obtain ⟨y, hy⟩ : ∃ y, b[ib - 1]? = some y := ⟨_, Array.getElem?_eq_getElem (by omega)⟩
    -- What is left of each run may come before its last element left.
    have hxa := precedes_of_mem_take hlt ht.left_sorted hia (by rw [Array.getElem?_toList]; exact hx)
    have hyb := precedes_of_mem_take hlt ht.right_sorted (by omega : 1 ≤ ib)
      (by rw [Array.getElem?_toList]; exact hy)
    cases st with
    | plain aw bw =>
      simp only [highSteps, hx, hy, Id.run_bind]
      cases hyx : (lt y x).run
      · -- The second run's element goes to the back.
        have h' := h.takeB (by omega) hy fun z hz => hlt.trans (hxa z hz) hyx
        simp only [Bool.false_eq_true, ↓reduceIte]
        split
        · next hend =>
          rw [beq_iff_eq] at hend
          rw [hend] at h'
          exact h'.first rfl ht.first ht.first_below
        next hend =>
        rw [beq_iff_eq] at hend
        split
        · exact ih _ _ _ _ _ h' hia hia' (by omega) (by omega) (by omega)
        · exact ih _ _ _ _ _ h' hia hia' (by omega) (by omega) (by omega)
      · -- The first run's element goes to the back.
        have h' := h.takeA hia hx fun z hz => hlt.lt_of_precedes_of_lt (hyb z hz) hyx
        simp only [↓reduceIte]
        split
        · next hend =>
          rw [beq_iff_eq] at hend
          rw [hend] at h'
          exact h'.done (.inl rfl)
        next hend =>
        rw [beq_iff_eq] at hend
        split
        · exact ih _ _ _ _ _ h' (by omega) (by omega) hib hib' (by omega)
        · exact ih _ _ _ _ _ h' (by omega) (by omega) hib hib' (by omega)
    | gallop =>
      simp only [highSteps, hy, Id.run_bind]
      -- The first gallop: the first run from `r` on is above `y`.
      have hs := gallopRight_splits hlt y (fun t => a.getD t y) ia (ia - 1)
        ((sortedUpTo_getD hlt a ht.left_sorted _).mono hia') (by omega)
      generalize (gallopRight lt y (fun t => a.getD t y) ia (ia - 1)).run = r at hs ⊢
      have hr : ia - (ia - r) = r := by
        have := hs.le
        omega
      simp only [hr]
      have h1 := h.runA hs.le fun p hp hrp hpi z hz => hlt.lt_of_precedes_of_lt (hyb z hz)
        (by simpa [Array.getD_eq_getD_getElem?, hp] using hs.above p hrp hpi)
      split
      · next hend => exact h1.done (.inl (by simpa using hend))
      next hend1 =>
      have hr1 : 1 ≤ r := by
        simp at hend1
        omega
      have h2 := h1.takeB (by omega) hy fun z hz => by
        obtain ⟨p, hp, rfl⟩ := List.mem_take_iff_getElem.1 hz
        have hp' : p < a.size := by simpa using (lt_min_iff.1 hp).2
        simpa [Precedes, Array.getD_eq_getD_getElem?, hp'] using
          hs.below p (Nat.zero_le p) (lt_min_iff.1 hp).1
      split
      · next hend =>
        exact h2.first (by simpa using hend) ht.first ht.first_below
      next hend2 =>
      rw [beq_iff_eq] at hend2
      obtain ⟨x', hxr⟩ : ∃ x', a[r - 1]? = some x' :=
        ⟨_, Array.getElem?_eq_getElem (by have := hs.le; omega)⟩
      simp only [hxr, Id.run_bind]
      -- The second gallop: the second run from `r2` on may come after `x'`.
      have hs2 := gallopLeft_splits hlt x' (fun t => b.getD t x') (ib - 1) (ib - 1 - 1)
        ((sortedUpTo_getD hlt b ht.right_sorted _).mono (by omega)) (by omega)
      generalize (gallopLeft lt x' (fun t => b.getD t x') (ib - 1) (ib - 1 - 1)).run = r2
        at hs2 ⊢
      have hr2 : ib - 1 - (ib - 1 - r2) = r2 := by
        have := hs2.le
        omega
      simp only [hr2]
      have hxa' := precedes_of_mem_take hlt ht.left_sorted hr1
        (by rw [Array.getElem?_toList]; exact hxr)
      have h3 := h2.runB hs2.le fun q hq hrq hqi z hz => hlt.trans (hxa' z hz)
        (by simpa [Precedes, Array.getD_eq_getD_getElem?, hq] using hs2.above q hrq hqi)
      split
      · next hend =>
        exact h3.first (by simpa using hend) ht.first ht.first_below
      next hend3 =>
      split
      · next hend => exact h3.done (.inr (by simpa using hend))
      next hend4 =>
      have h4 := h3.takeA hr1 hxr fun z hz => by
        obtain ⟨q, hq, rfl⟩ := List.mem_take_iff_getElem.1 hz
        have hq' : q < b.size := by simpa using (lt_min_iff.1 hq).2
        simpa [Array.getD_eq_getD_getElem?, hq'] using
          hs2.below q (Nat.zero_le q) (lt_min_iff.1 hq).1
      split
      · next hend => exact h4.done (.inl (by simpa using hend))
      next hend5 =>
      simp only [beq_iff_eq] at hend3 hend4 hend5
      have hle2 := hs2.le
      split
      · exact ih _ _ _ _ _ h4 (by omega) (by omega) (by omega) (by omega) (by omega)
      · exact ih _ _ _ _ _ h4 (by omega) (by omega) (by omega) (by omega) (by omega)

/-- Two runs ready to merge, merged from the backs, give their stable merge. -/
theorem mergeHigh_eq (hlt : StrictWeak lt) {a b : Array β} {b0 aLast : β}
    (ht : Trimmed lt a b b0 aLast) (g : Nat) :
    (mergeHigh lt g a b).run.1 = List.merge a.toList b.toList (precedesB lt) := by
  have ha1 : 1 ≤ a.size := by
    have := (Array.getElem?_eq_some_iff.1 ht.last).1
    omega
  have hb1 : 1 ≤ b.size := (Array.getElem?_eq_some_iff.1 ht.first).1
  -- The last element of the first run goes last.
  have h0 : HighAt lt a b a.size b.size [] (List.merge a.toList b.toList (precedesB lt)) := by
    simp [HighAt, ← Array.length_toList]
  have h := h0.takeA ha1 ht.last fun z hz => ht.last_above z (List.mem_of_mem_take hz)
  unfold mergeHigh
  rw [ht.last]
  dsimp only
  split
  · next h1 =>
    rw [beq_iff_eq] at h1
    unfold HighAt at h
    rw [h1, Nat.sub_self, List.take_zero, List.nil_merge, List.take_of_length_le (by simp)] at h
    exact h
  split
  · next h2 =>
    rw [beq_iff_eq] at h2
    rw [h2] at h
    exact h.first rfl ht.first ht.first_below
  next h1 h2 =>
  simp only [beq_iff_eq] at h1 h2
  exact highSteps_eq hlt ht _ _ _ _ g _ h (by omega) (by omega) (by omega) le_rfl (by omega)


/-! ## Trimming the ends in place -/

/-- What a search over a run's elements puts before its split satisfies the searched test. -/
theorem mem_take_of_splits (P : β → Bool) {l : List β} {d : β} {k : Nat}
    (hs : Splits (fun p => P (l.toArray.getD p d)) 0 l.length k) : ∀ x ∈ l.take k, P x = true := by
  intro x hx
  obtain ⟨p, hp, rfl⟩ := List.mem_take_iff_getElem.1 hx
  have hpl : p < l.length := (lt_min_iff.1 hp).2
  simpa [Array.getD_eq_getD_getElem?, hpl] using hs.below p (Nat.zero_le p) (lt_min_iff.1 hp).1

/-- What a search over a run's elements puts after its split fails the searched test. -/
theorem mem_drop_of_splits (P : β → Bool) {l : List β} {d : β} {k : Nat}
    (hs : Splits (fun p => P (l.toArray.getD p d)) 0 l.length k) :
    ∀ x ∈ l.drop k, P x = false := by
  intro x hx
  obtain ⟨p, hp, rfl⟩ := List.mem_drop_iff_getElem.1 hx
  have hkp : k + p < l.length := by omega
  simpa [Array.getD_eq_getD_getElem?, hkp] using hs.above (k + p) (by omega) hkp

/-- In a run in order, everything may come before its last element. -/
theorem precedes_last (hlt : StrictWeak lt) {l : List β} (hs : l.Pairwise (Precedes lt)) {x : β}
    (hx : l[l.length - 1]? = some x) : ∀ z ∈ l, Precedes lt z x := by
  have hn : 1 ≤ l.length := by
    have := (List.getElem?_eq_some_iff.1 hx).1
    omega
  simpa [List.take_of_length_le] using precedes_of_mem_take hlt hs hn hx

/-- The stable merge leaves in place the front of the first run that may come before the second
run's head, and the back of the second run that everything in the rest of the first may come
before. -/
theorem merge_eq_trimmed {a b : List β} {b0 : β} (hb0 : b[0]? = some b0) {k nb : Nat}
    (hk : ∀ x ∈ a.take k, Precedes lt x b0)
    (hnb : ∀ x ∈ a.drop k, ∀ y ∈ b.drop nb, Precedes lt x y) :
    List.merge a b (precedesB lt) =
      a.take k ++ List.merge (a.drop k) (b.take nb) (precedesB lt) ++ b.drop nb := by
  have hb : b = b0 :: b.drop 1 := by simpa using drop_eq_cons_of_getElem? b 0 hb0
  calc List.merge a b (precedesB lt)
      = List.merge (a.take k ++ a.drop k) b (precedesB lt) := by rw [List.take_append_drop]
    _ = a.take k ++ List.merge (a.drop k) b (precedesB lt) := by rw [hb, merge_append_left hk]
    _ = a.take k ++ List.merge (a.drop k) (b.take nb ++ b.drop nb) (precedesB lt) := by
      rw [List.take_append_drop]
    _ = a.take k ++ List.merge (a.drop k) (b.take nb) (precedesB lt) ++ b.drop nb := by
      rw [merge_append_of_below hnb, List.append_assoc]

/-- Two neighbouring runs in order are merged into their stable merge. The first gallop finds the
front of the first run that stays in place, the second the back of the second run; what is
between is a pair of runs ready to merge, from the fronts or the backs. -/
theorem mergeRuns_eq (hlt : StrictWeak lt) (g : Nat) {a b : List β}
    (ha : a.Pairwise (Precedes lt)) (hb : b.Pairwise (Precedes lt)) :
    (mergeRuns lt g a b).run.1 = List.merge a b (precedesB lt) := by
  unfold mergeRuns
  dsimp only
  split
  · next hb0 =>
    have hnil : b = [] := by simpa using hb0
    simp [hnil]
  next b0 hb0 =>
  rw [List.getElem?_toArray] at hb0
  simp only [Id.run_bind]
  have hb0le : ∀ y ∈ b, Precedes lt b0 y := by
    have hcons : b = b0 :: b.drop 1 := by simpa using drop_eq_cons_of_getElem? b 0 hb0
    intro y hy
    rw [hcons] at hb hy
    rcases List.mem_cons.1 hy with rfl | hy
    · exact hlt.refl _
    · exact List.rel_of_pairwise_cons hb hy
  by_cases ha0 : a = []
  · subst ha0
    simp
  -- The front of the first run that may come before `b0` stays in place.
  have hs := gallopRight_splits hlt b0 (fun t => a.toArray.getD t b0) a.toArray.size 0
    (sortedUpTo_getD hlt a.toArray (by simpa using ha) b0) (by simpa [List.length_pos_iff] using ha0)
  generalize (gallopRight lt b0 (fun t => a.toArray.getD t b0) a.toArray.size 0).run = k at hs ⊢
  have hA : ∀ x ∈ a.take k, Precedes lt x b0 := fun x hx => by
    simpa [Precedes] using mem_take_of_splits (fun x => !(lt b0 x).run) hs x hx
  have hAb : ∀ x ∈ a.drop k, (lt b0 x).run = true := fun x hx => by
    simpa using mem_drop_of_splits (fun x => !(lt b0 x).run) hs x hx
  have hrest : (a.toArray.extract k a.toArray.size).toList = a.drop k := by simp
  split
  · next hnone =>
    -- Nothing of the first run is left: it all goes before the second.
    have hk : a.length ≤ k := by
      have h0 := Array.getElem?_eq_none_iff.1 hnone
      simp at h0
      omega
    rw [List.take_of_length_le hk] at hA
    rw [List.merge_of_le fun x y hx hy => precedesB_eq_true.2 (hlt.trans (hA x hx) (hb0le y hy))]
    rfl
  next aLast hlast =>
  simp only [Id.run_bind]
  have hlastA : ∀ x ∈ a.drop k, Precedes lt x aLast := by
    rw [← hrest]
    exact precedes_last hlt (hrest ▸ ha.sublist (List.drop_sublist _ _))
      (by rwa [Array.getElem?_toList, Array.length_toList])
  -- The back of the second run that may come after `aLast` stays in place.
  have hs2 := gallopLeft_splits hlt aLast (fun t => b.toArray.getD t aLast) b.toArray.size
    (b.toArray.size - 1) (sortedUpTo_getD hlt b.toArray (by simpa using hb) aLast)
    (by have := (List.getElem?_eq_some_iff.1 hb0).1; simp; omega)
  generalize (gallopLeft lt aLast (fun t => b.toArray.getD t aLast) b.toArray.size
    (b.toArray.size - 1)).run = nb at hs2 ⊢
  have hB : ∀ y ∈ b.take nb, (lt y aLast).run = true :=
    mem_take_of_splits (fun y => (lt y aLast).run) hs2
  have hBa : ∀ y ∈ b.drop nb, Precedes lt aLast y :=
    mem_drop_of_splits (fun y => (lt y aLast).run) hs2
  rw [merge_eq_trimmed hb0 hA fun x hx y hy => hlt.trans (hlastA x hx) (hBa y hy)]
  split
  · next hnb =>
    have hnb0 : nb = 0 := by simpa using hnb
    subst hnb0
    simp
  next hnb =>
  have hnb1 : 1 ≤ nb := by
    simp at hnb
    omega
  have hnbl : nb ≤ b.length := hs2.le
  have ht : Trimmed lt (a.toArray.extract k a.toArray.size) (b.toArray.extract 0 nb) b0 aLast :=
    { left_sorted := by
        rw [hrest]
        exact ha.sublist (List.drop_sublist _ _)
      right_sorted := by simpa using hb.sublist (List.take_sublist _ _)
      first := by simpa [List.getElem?_take, show 0 < nb by omega] using hb0
      first_below := by
        rw [hrest]
        exact hAb
      last := hlast
      last_above := by simpa using hB }
  split
  · simp only [Id.run_bind]
    rw [mergeLow_eq hlt ht, hrest]
    simp
  · simp only [Id.run_bind]
    rw [mergeHigh_eq hlt ht, hrest]
    simp

end TradeDesk.Sort
