import Mathlib
import TradeDesk.Sort

/-!
# The stable sort keeps every element

`Sort.stable lt xs` is a permutation of `xs` (`stable_perm`), whatever the comparison: a
comparison that is not a strict weak order may change the order the sort produces, never which
elements it produces. The proof follows the sort's own structure.

* A run taken from the front and the rest after it are together a permutation of the list
  (`takeRun_perm`), and a run is never empty, so the runs use up the list within the sort's fuel.
  A short run lengthened by binary insertion keeps the elements it took (`grown_perm`).
* A merge from the fronts keeps `LowInv`: what is merged, followed by what is left of each run, is
  a permutation of the two runs. Each step takes one element or a galloped stretch from one side,
  and each of these keeps the invariant whatever position the gallop's search returns
  (`LowInv.runA`), so no property of the searches is needed. A merge from the backs keeps
  `HighInv` in the same way, with what is left in front of what is merged; it takes from a run
  only while at least one element of it is left, which the merge's own tests guarantee.
* The stack of runs is read bottom run first (`pending`); merging two neighbouring runs of it
  keeps its elements (`mergeTop_perm`, `mergeUnder_perm`), and so do settling and collapsing it.
-/

namespace TradeDesk.Sort

variable {β : Type} (lt : β → β → Id Bool)

/-! ## Runs -/

theorem descending_perm (prev : β) (acc xs : List β) :
    ((descending lt prev acc xs).run.1 ++ (descending lt prev acc xs).run.2).Perm (acc ++ xs) := by
  induction xs generalizing prev acc with
  | nil => simp [descending]
  | cons x xs ih =>
    simp only [descending, Id.run_bind]
    cases (lt x prev).run
    · simp
    · simp only [↓reduceIte]
      exact (ih x (x :: acc)).trans List.perm_middle.symm

theorem length_le_descending (prev : β) (acc xs : List β) :
    acc.length ≤ (descending lt prev acc xs).run.1.length := by
  induction xs generalizing prev acc with
  | nil => simp [descending]
  | cons x xs ih =>
    simp only [descending, Id.run_bind]
    cases (lt x prev).run
    · simp
    · simp only [↓reduceIte]
      exact (Nat.le_succ _).trans (ih x (x :: acc))

theorem ascending_perm (prev : β) (acc xs : List β) :
    ((ascending lt prev acc xs).run.1 ++ (ascending lt prev acc xs).run.2).Perm (acc ++ xs) := by
  induction xs generalizing prev acc with
  | nil => simp [ascending, List.reverse_perm]
  | cons x xs ih =>
    simp only [ascending, Id.run_bind]
    cases (lt x prev).run
    · simp only [Bool.false_eq_true, ↓reduceIte]
      exact (ih x (x :: acc)).trans List.perm_middle.symm
    · simpa using (List.reverse_perm acc).append_right (x :: xs)

theorem length_le_ascending (prev : β) (acc xs : List β) :
    acc.length ≤ (ascending lt prev acc xs).run.1.length := by
  induction xs generalizing prev acc with
  | nil => simp [ascending]
  | cons x xs ih =>
    simp only [ascending, Id.run_bind]
    cases (lt x prev).run
    · simp only [Bool.false_eq_true, ↓reduceIte]
      exact (Nat.le_succ _).trans (ih x (x :: acc))
    · simp

/-- The run at the front of a list and the rest after it are together a permutation of it. -/
theorem takeRun_perm (xs : List β) :
    ((takeRun lt xs).run.1 ++ (takeRun lt xs).run.2).Perm xs := by
  match xs with
  | [] => simp [takeRun]
  | [a] => simp [takeRun]
  | a :: b :: rest =>
    simp only [takeRun, Id.run_bind]
    cases (lt b a).run
    · simp only [Bool.false_eq_true, ↓reduceIte]
      exact (ascending_perm lt b [b, a] rest).trans (List.Perm.swap a b rest)
    · simp only [↓reduceIte]
      exact (descending_perm lt b [b, a] rest).trans (List.Perm.swap a b rest)

/-- A non-empty list starts with a non-empty run: a descending run is turned around whole, and an
ascending one holds its first two elements. -/
theorem takeRun_ne_nil (xs : List β) (hxs : xs ≠ []) : (takeRun lt xs).run.1 ≠ [] := by
  match xs with
  | [a] => simp [takeRun]
  | a :: b :: rest =>
    simp only [takeRun, Id.run_bind]
    apply List.ne_nil_of_length_pos
    cases (lt b a).run
    · simp only [Bool.false_eq_true, ↓reduceIte]
      exact Nat.lt_of_lt_of_le (by simp) (length_le_ascending lt b [b, a] rest)
    · simp only [↓reduceIte]
      exact Nat.lt_of_lt_of_le (by simp) (length_le_descending lt b [b, a] rest)

theorem insertSorted_perm (sorted : List β) (x : β) :
    (insertSorted lt sorted x).run.Perm (x :: sorted) := by
  simp only [insertSorted, Id.run_bind]
  exact List.perm_middle.trans (by rw [List.take_append_drop])

/-- Inserting the elements of `ys` one by one adds exactly them. -/
theorem foldlM_insertSorted_perm (run ys : List β) :
    (ys.foldlM (insertSorted lt) run).run.Perm (run ++ ys) := by
  induction ys generalizing run with
  | nil => simp
  | cons y ys ih =>
    rw [List.foldlM_cons, Id.run_bind]
    exact (ih _).trans (((insertSorted_perm lt run y).append_right ys).trans List.perm_middle.symm)


/-! ## Merging -/

theorem drop_eq_cons_of_getElem? (A : List β) (i : Nat) {x : β} (hx : A[i]? = some x) :
    A.drop i = x :: A.drop (i + 1) := by
  obtain ⟨hi, rfl⟩ := List.getElem?_eq_some_iff.1 hx
  exact List.drop_eq_getElem_cons hi

theorem take_eq_concat_of_getElem? (A : List β) (i : Nat) {x : β} (hx : A[i]? = some x) :
    A.take (i + 1) = A.take i ++ [x] := by
  obtain ⟨hi, rfl⟩ := List.getElem?_eq_some_iff.1 hx
  exact List.take_succ_eq_append_getElem hi

/-- The first `i` elements are the first `i - k` and the `k` or fewer before them. -/
theorem take_eq_take_sub_append (A : List β) (i k : Nat) :
    A.take i = A.take (i - k) ++ (A.drop (i - k)).take (i - (i - k)) := by
  rw [← List.take_add, Nat.add_sub_cancel' (Nat.sub_le i k)]

theorem toList_extract_size (a : Array β) (i : Nat) :
    (a.extract i a.size).toList = a.toList.drop i := by
  simp

theorem toList_extract_zero (a : Array β) (i : Nat) :
    (a.extract 0 i).toList = a.toList.take i := by
  simp

theorem lowDone_eq (a b : Array β) (i j : Nat) (out : Array β) :
    lowDone a b i j out = out.toList ++ a.toList.drop i ++ b.toList.drop j := by
  simp only [lowDone, Array.toList_append, toList_extract_size]

theorem lowLast_eq (a b : Array β) (i j : Nat) (out : Array β) :
    lowLast a b i j out = out.toList ++ b.toList.drop j ++ a.toList.drop i := by
  simp only [lowLast, Array.toList_append, toList_extract_size]

/-- Where a merge from the fronts stands: `out` merged, `a` from `i` and `b` from `j` left, and
together a permutation of the two runs. -/
def LowInv (a b : Array β) (i j : Nat) (out : Array β) : Prop :=
  (out.toList ++ a.toList.drop i ++ b.toList.drop j).Perm (a.toList ++ b.toList)

namespace LowInv

variable {a b : Array β} {i j : Nat} {out : Array β}

theorem takeA (h : LowInv a b i j out) {x : β} (hx : a[i]? = some x) :
    LowInv a b (i + 1) j (out.push x) := by
  unfold LowInv at h ⊢
  rw [drop_eq_cons_of_getElem? a.toList i (by rwa [Array.getElem?_toList])] at h
  simpa using h

theorem takeB (h : LowInv a b i j out) {y : β} (hy : b[j]? = some y) :
    LowInv a b i (j + 1) (out.push y) := by
  unfold LowInv at h ⊢
  rw [drop_eq_cons_of_getElem? b.toList j (by rwa [Array.getElem?_toList])] at h
  refine List.Perm.trans ?_ h
  simp only [Array.toList_push, List.append_assoc, List.cons_append, List.nil_append]
  exact (List.perm_middle.symm).append_left out.toList

theorem runA (h : LowInv a b i j out) (k : Nat) :
    LowInv a b (i + k) j (out ++ a.extract i (i + k)) := by
  unfold LowInv at h ⊢
  rwa [Array.toList_append, Array.toList_extract, List.extract_eq_take_drop,
    Nat.add_sub_cancel_left, List.append_assoc out.toList, ← List.drop_drop,
    List.take_append_drop]

theorem runB (h : LowInv a b i j out) (k : Nat) :
    LowInv a b i (j + k) (out ++ b.extract j (j + k)) := by
  unfold LowInv at h ⊢
  have hB : b.toList.drop j = (b.toList.drop j).take k ++ b.toList.drop (j + k) := by
    rw [← List.drop_drop, List.take_append_drop]
  rw [hB] at h
  refine List.Perm.trans ?_ h
  simp only [Array.toList_append, Array.toList_extract, List.extract_eq_take_drop,
    Nat.add_sub_cancel_left, List.append_assoc]
  exact (List.perm_append_comm_assoc _ _ _).append_left out.toList

theorem done (h : LowInv a b i j out) : (lowDone a b i j out).Perm (a.toList ++ b.toList) := by
  rw [lowDone_eq]
  exact h

theorem last (h : LowInv a b i j out) : (lowLast a b i j out).Perm (a.toList ++ b.toList) := by
  rw [lowLast_eq]
  refine List.Perm.trans ?_ h
  rw [List.append_assoc, List.append_assoc]
  exact (List.perm_append_comm).append_left out.toList

end LowInv

/-- A merge from the fronts under way ends in a permutation of the two runs, out of fuel or not.
The induction is on the fuel, with the positions, the merged part, the threshold and the stage
generalised; every exit is `lowDone` or `lowLast` of a state that keeps `LowInv`. -/
theorem lowSteps_perm (a b : Array β) (fuel i j : Nat) (out : Array β) (g : Nat) (st : Stage)
    (h : LowInv a b i j out) :
    (lowSteps lt fuel a b i j out g st).run.1.Perm (a.toList ++ b.toList) := by
  induction fuel generalizing i j out g st with
  | zero => exact h.done
  | succ fuel ih =>
    cases st with
    | plain aw bw =>
      simp only [lowSteps]
      rcases hx : a[i]? with _ | x <;> rcases hy : b[j]? with _ | y
      · exact h.done
      · exact h.done
      · exact h.done
      simp only [Id.run_bind]
      cases (lt y x).run
      · have h' := h.takeA hx
        simp only [Bool.false_eq_true, ↓reduceIte]
        split_ifs
        · exact h'.last
        · exact ih _ _ _ _ _ h'
        · exact ih _ _ _ _ _ h'
      · have h' := h.takeB hy
        simp only [↓reduceIte]
        split_ifs
        · exact h'.done
        · exact ih _ _ _ _ _ h'
        · exact ih _ _ _ _ _ h'
    | gallop =>
      simp only [lowSteps]
      rcases hy : b[j]? with _ | y
      · exact h.done
      simp only [Id.run_bind]
      -- The first gallop takes `k` elements of the first run, whatever `k` the search returns.
      generalize (gallopRight lt y _ _ 0).run = k
      have h1 := h.runA k
      split
      · exact h1.last
      split
      · exact h1.done
      have h2 := h1.takeB hy
      split
      · exact h2.done
      rcases hx : a[i + k]? with _ | x
      · exact h2.done
      simp only [Id.run_bind]
      -- The second gallop takes `k2` elements of the second run.
      generalize (gallopLeft lt x _ _ 0).run = k2
      have h3 := h2.runB k2
      split
      · exact h3.done
      have h4 := h3.takeA hx
      split
      · exact h4.last
      split
      · exact ih _ _ _ _ _ h4
      · exact ih _ _ _ _ _ h4

theorem lowInv_start (a b : Array β) : LowInv a b 0 0 #[] := by
  simp [LowInv]

theorem mergeLow_perm (g : Nat) (a b : Array β) :
    (mergeLow lt g a b).run.1.Perm (a.toList ++ b.toList) := by
  unfold mergeLow
  rcases hb : b[0]? with _ | b0
  · -- An empty second run.
    have hb' : b.toList = [] := by
      simpa [Array.getElem?_eq_none_iff, ← Array.length_toList] using hb
    simp [hb']
  -- The first element of the second run is known to go first.
  have h := (lowInv_start a b).takeB hb
  simp only [Array.push_empty, Nat.zero_add] at h
  dsimp only
  split
  · next h1 =>
    have hdrop : b.toList.drop 1 = [] := List.drop_eq_nil_of_le (by simp_all)
    simpa [LowInv, hdrop] using h
  split
  · exact h.last
  · exact lowSteps_perm lt a b _ 0 1 _ g _ h

theorem highDone_eq (a b : Array β) (ia ib : Nat) (tail : List β) :
    highDone a b ia ib tail = a.toList.take ia ++ b.toList.take ib ++ tail := by
  simp only [highDone, toList_extract_zero]

theorem highFirst_eq (a b : Array β) (ia ib : Nat) (tail : List β) :
    highFirst a b ia ib tail = b.toList.take ib ++ a.toList.take ia ++ tail := by
  simp only [highFirst, toList_extract_zero]

/-- Where a merge from the backs stands: `a` up to `ia` and `b` up to `ib` left, `tail` merged, and
together a permutation of the two runs. -/
def HighInv (a b : Array β) (ia ib : Nat) (tail : List β) : Prop :=
  (a.toList.take ia ++ b.toList.take ib ++ tail).Perm (a.toList ++ b.toList)

namespace HighInv

variable {a b : Array β} {ia ib : Nat} {tail : List β}

theorem takeA (h : HighInv a b ia ib tail) (hia : 1 ≤ ia) {x : β} (hx : a[ia - 1]? = some x) :
    HighInv a b (ia - 1) ib (x :: tail) := by
  unfold HighInv at h ⊢
  have ht := take_eq_concat_of_getElem? a.toList (ia - 1) (by rwa [Array.getElem?_toList])
  rw [Nat.sub_add_cancel hia] at ht
  rw [ht] at h
  refine List.Perm.trans ?_ h
  simp only [List.append_assoc, List.cons_append, List.nil_append]
  exact List.perm_middle.append_left _

theorem takeB (h : HighInv a b ia ib tail) (hib : 1 ≤ ib) {y : β} (hy : b[ib - 1]? = some y) :
    HighInv a b ia (ib - 1) (y :: tail) := by
  unfold HighInv at h ⊢
  have ht := take_eq_concat_of_getElem? b.toList (ib - 1) (by rwa [Array.getElem?_toList])
  rw [Nat.sub_add_cancel hib] at ht
  rw [ht] at h
  simpa using h

theorem runA (h : HighInv a b ia ib tail) (k : Nat) :
    HighInv a b (ia - k) ib ((a.extract (ia - k) ia).toList ++ tail) := by
  unfold HighInv at h ⊢
  rw [take_eq_take_sub_append a.toList ia k] at h
  refine List.Perm.trans ?_ h
  simp only [Array.toList_extract, List.extract_eq_take_drop, List.append_assoc]
  exact (List.perm_append_comm_assoc _ _ _).symm.append_left _

theorem runB (h : HighInv a b ia ib tail) (k : Nat) :
    HighInv a b ia (ib - k) ((b.extract (ib - k) ib).toList ++ tail) := by
  unfold HighInv at h ⊢
  rw [take_eq_take_sub_append b.toList ib k] at h
  simpa [Array.toList_extract, List.extract_eq_take_drop, List.append_assoc] using h

theorem done (h : HighInv a b ia ib tail) :
    (highDone a b ia ib tail).Perm (a.toList ++ b.toList) := by
  rw [highDone_eq]
  exact h

theorem first (h : HighInv a b ia ib tail) :
    (highFirst a b ia ib tail).Perm (a.toList ++ b.toList) := by
  rw [highFirst_eq]
  refine List.Perm.trans ?_ h
  exact List.perm_append_comm.append_right tail

end HighInv

/-- A merge from the backs under way ends in a permutation of the two runs. Besides `HighInv` the
induction carries the bounds the merge's tests keep: an element of the first run is left, and
either two of the second run are or the second run is empty. -/
theorem highSteps_perm (a b : Array β) (fuel ia ib : Nat) (tail : List β) (g : Nat) (st : Stage)
    (h : HighInv a b ia ib tail) (hia : 1 ≤ ia) (hib : 2 ≤ ib ∨ b.size = 0) :
    (highSteps lt fuel a b ia ib tail g st).run.1.Perm (a.toList ++ b.toList) := by
  induction fuel generalizing ia ib tail g st with
  | zero => exact h.done
  | succ fuel ih =>
    -- An element of the second run is left only while `ib` is at least two.
    have hb2 : ∀ {y : β}, b[ib - 1]? = some y → 2 ≤ ib := fun hy => by
      rcases hib with hib | hib
      · exact hib
      · simp [Array.getElem?_eq_none_iff.2 (by omega : b.size ≤ ib - 1)] at hy
    cases st with
    | plain aw bw =>
      simp only [highSteps]
      rcases hx : a[ia - 1]? with _ | x <;> rcases hy : b[ib - 1]? with _ | y
      · exact h.done
      · exact h.done
      · exact h.done
      simp only [Id.run_bind]
      cases (lt y x).run
      · have h' := h.takeB (by have := hb2 hy; omega) hy
        simp only [Bool.false_eq_true, ↓reduceIte]
        split
        · next hc =>
          rw [beq_iff_eq] at hc
          rw [← hc]
          exact h'.first
        · next hc =>
          rw [beq_iff_eq] at hc
          have hib' : 2 ≤ ib - 1 ∨ b.size = 0 := .inl (by have := hb2 hy; omega)
          split
          · exact ih _ _ _ _ _ h' hia hib'
          · exact ih _ _ _ _ _ h' hia hib'
      · have h' := h.takeA hia hx
        simp only [↓reduceIte]
        split
        · next hc =>
          rw [beq_iff_eq] at hc
          rw [← hc]
          exact h'.done
        · next hc =>
          rw [beq_iff_eq] at hc
          have hia' : 1 ≤ ia - 1 := by omega
          split
          · exact ih _ _ _ _ _ h' hia' hib
          · exact ih _ _ _ _ _ h' hia' hib
    | gallop =>
      simp only [highSteps]
      rcases hy : b[ib - 1]? with _ | y
      · exact h.done
      simp only [Id.run_bind]
      -- The first gallop leaves `r` elements of the first run, whatever `r` the search returns.
      generalize (gallopRight lt y _ _ _).run = r
      have h1 := h.runA (ia - r)
      split
      · exact h1.done
      next hia1 =>
      rw [beq_iff_eq] at hia1
      have h2 := h1.takeB (by have := hb2 hy; omega) hy
      split
      · exact h2.first
      next hib1 =>
      rw [beq_iff_eq] at hib1
      rcases hx : a[ia - (ia - r) - 1]? with _ | x
      · exact h2.done
      simp only [Id.run_bind]
      generalize (gallopLeft lt x _ _ _).run = r2
      have h3 := h2.runB (ib - 1 - r2)
      split
      · exact h3.first
      next hib2 =>
      split
      · exact h3.done
      next hib3 =>
      simp only [beq_iff_eq] at hib2 hib3
      have h4 := h3.takeA (by omega) hx
      split
      · exact h4.done
      next hia2 =>
      rw [beq_iff_eq] at hia2
      split
      · exact ih _ _ _ _ _ h4 (by omega) (.inl (by omega))
      · exact ih _ _ _ _ _ h4 (by omega) (.inl (by omega))

theorem highInv_start (a b : Array β) : HighInv a b a.size b.size [] := by
  simp [HighInv, ← Array.length_toList]

theorem mergeHigh_perm (g : Nat) (a b : Array β) :
    (mergeHigh lt g a b).run.1.Perm (a.toList ++ b.toList) := by
  unfold mergeHigh
  rcases ha : a[a.size - 1]? with _ | aLast
  · -- An empty first run.
    have ha' : a.toList = [] := by
      rw [Array.getElem?_eq_none_iff] at ha
      simpa [← Array.length_toList] using (by omega : a.size = 0)
    simp [ha']
  -- The last element of the first run is known to go last.
  have hsize : 1 ≤ a.size := by
    have := (Array.getElem?_eq_some_iff.1 ha).1
    omega
  have h := (highInv_start a b).takeA hsize ha
  dsimp only
  split
  · next h1 =>
    rw [beq_iff_eq] at h1
    unfold HighInv at h
    rw [h1, Nat.sub_self, List.take_zero, List.nil_append,
      List.take_of_length_le (by simp)] at h
    exact h
  next h1 =>
  split
  · next h2 =>
    rw [beq_iff_eq] at h2
    rw [h2] at h
    exact h.first
  next h2 =>
  simp only [beq_iff_eq] at h1 h2
  exact highSteps_perm lt a b _ _ _ _ g _ h (by omega) (by omega)

/-- What a merge of neighbouring runs puts together: the first run's front, the merged middle, and
the second run's back. -/
theorem merged_perm (a b : List β) (k nb : Nat) (merged : List β)
    (h : merged.Perm ((a.toArray.extract k a.toArray.size).toList ++
      (b.toArray.extract 0 nb).toList)) :
    (a.take k ++ merged ++ b.drop nb).Perm (a ++ b) := by
  rw [toList_extract_size, toList_extract_zero, List.toList_toArray, List.toList_toArray] at h
  refine ((h.append_left (a.take k)).append_right (b.drop nb)).trans ?_
  rw [← List.append_assoc, List.take_append_drop, List.append_assoc, List.take_append_drop]

/-- Merging two neighbouring runs gives a permutation of the two. -/
theorem mergeRuns_perm (g : Nat) (a b : List β) :
    (mergeRuns lt g a b).run.1.Perm (a ++ b) := by
  unfold mergeRuns
  dsimp only
  split
  · simp
  next b0 _ =>
  simp only [Id.run_bind]
  generalize (gallopRight lt b0 (fun t => a.toArray.getD t b0) a.toArray.size 0).run = k
  split
  · simp
  next aLast _ =>
  simp only [Id.run_bind]
  generalize (gallopLeft lt aLast _ _ _).run = nb
  split
  · simp
  -- The trimmed middle parts are merged from the end of the shorter one.
  split
  · simp only [Id.run_bind]
    exact merged_perm a b k nb _ (mergeLow_perm lt g _ _)
  · simp only [Id.run_bind]
    exact merged_perm a b k nb _ (mergeHigh_perm lt g _ _)

/-! ## The stack of runs -/

/-- The elements on a stack of runs, from the bottom run up. -/
def pending (stack : List (Pending β)) : List β := stack.reverse.flatMap (·.items)

@[simp] theorem pending_nil : pending ([] : List (Pending β)) = [] := rfl

@[simp] theorem pending_cons (r : Pending β) (stack : List (Pending β)) :
    pending (r :: stack) = pending stack ++ r.items := by
  simp [pending]

theorem mergeTop_perm (stack : List (Pending β)) (g : Nat) :
    (pending (mergeTop lt stack g).run.1).Perm (pending stack) := by
  unfold mergeTop
  split
  · next top below rest =>
    simp only [Id.run_bind, Id.run_pure, pending_cons, List.append_assoc]
    exact (mergeRuns_perm lt g below.items top.items).append_left _
  · rfl

theorem mergeUnder_perm (stack : List (Pending β)) (g : Nat) :
    (pending (mergeUnder lt stack g).run.1).Perm (pending stack) := by
  unfold mergeUnder
  split
  · next top second third rest =>
    simp only [Id.run_bind, Id.run_pure, pending_cons]
    have h := ((mergeRuns_perm lt g third.items second.items).append_left
      (pending rest)).append_right top.items
    simpa only [List.append_assoc] using h
  · rfl

theorem settle_perm (p fuel : Nat) (stack : List (Pending β)) (g : Nat) :
    (pending (settle lt p fuel stack g).run.1).Perm (pending stack) := by
  induction fuel generalizing stack g with
  | zero => rfl
  | succ fuel ih =>
    unfold settle
    split
    · split
      · simp only [Id.run_bind]
        exact (ih _ _).trans (mergeTop_perm lt _ g)
      · rfl
    · rfl

theorem collapse_perm (fuel : Nat) (stack : List (Pending β)) (g : Nat) :
    (pending (collapse lt fuel stack g).run.1).Perm (pending stack) := by
  induction fuel generalizing stack g with
  | zero => rfl
  | succ fuel ih =>
    unfold collapse
    split
    · -- The top two runs, or the two below the top when the third is the shorter.
      split
      · simp only [Id.run_bind]
        exact (ih _ _).trans (mergeUnder_perm lt _ g)
      · simp only [Id.run_bind]
        exact (ih _ _).trans (mergeTop_perm lt _ g)
    · simp only [Id.run_bind]
      exact (ih _ _).trans (mergeTop_perm lt _ g)
    · rfl

@[simp] theorem pending_withTopPower (p : Nat) (stack : List (Pending β)) :
    pending (withTopPower p stack) = pending stack := by
  cases stack <;> simp [withTopPower]

/-- A run lengthened by inserting the elements after it keeps them all. -/
theorem grown_perm (run rest : List β) (want : Nat) :
    (((rest.take want).foldlM (insertSorted lt) run).run ++ rest.drop want).Perm
      (run ++ rest) := by
  refine ((foldlM_insertSorted_perm lt run (rest.take want)).append_right _).trans ?_
  rw [List.append_assoc, List.take_append_drop]

/-- A run pushed on a stack that was rearranged without losing elements. -/
theorem pending_push_perm {stack stack' : List (Pending β)} {rest xs : List β} (r : Pending β)
    (hs : (pending stack').Perm (pending stack)) (hx : (r.items ++ rest).Perm xs) :
    (pending (r :: stack') ++ rest).Perm (pending stack ++ xs) := by
  rw [pending_cons, List.append_assoc]
  exact hs.append hx

/-- Pushing the runs of `xs` adds exactly the elements of `xs` to the stack, given more fuel than
`xs` has elements. The induction is on the fuel; each run takes at least one element. -/
theorem pushRuns_perm (n least fuel : Nat) (xs : List β) (lo : Nat) (stack : List (Pending β))
    (g : Nat) (hfuel : xs.length < fuel) :
    (pending (pushRuns lt n least fuel xs lo stack g).run.1).Perm (pending stack ++ xs) := by
  induction fuel generalizing xs lo stack g with
  | zero => omega
  | succ fuel ih =>
    unfold pushRuns
    split
    · next hxs =>
      simp_all
    next hxs =>
    simp only [Id.run_bind]
    have hne := takeRun_ne_nil lt xs (by simpa using hxs)
    have hp := takeRun_perm lt xs
    generalize (takeRun lt xs).run = r at hne hp ⊢
    obtain ⟨run, rest⟩ := r
    dsimp only at hne hp ⊢
    -- Each run holds at least one element, so the rest is shorter and the fuel lasts.
    have hlen := hp.length_eq
    have hrun : 0 < run.length := List.length_pos_of_ne_nil hne
    simp only [List.length_append] at hlen
    split
    · have hg := grown_perm lt run rest (min xs.length least - run.length)
      have hglen := hg.length_eq
      simp only [List.length_append, List.length_drop] at hglen
      cases stack with
      | nil =>
        simp only [Id.run_bind, Id.run_pure]
        exact (ih _ _ _ _ (by rw [List.length_drop]; omega)).trans
          (pending_push_perm _ (List.Perm.refl _) (hg.trans hp))
      | cons top tail =>
        simp only [Id.run_bind, Id.run_pure]
        refine (ih _ _ _ _ (by rw [List.length_drop]; omega)).trans
          (pending_push_perm _ ?_ (hg.trans hp))
        rw [pending_withTopPower]
        exact settle_perm lt _ _ _ g
    · cases stack with
      | nil =>
        simp only [Id.run_bind, Id.run_pure]
        exact (ih _ _ _ _ (by omega)).trans (pending_push_perm _ (List.Perm.refl _) hp)
      | cons top tail =>
        simp only [Id.run_bind, Id.run_pure]
        refine (ih _ _ _ _ (by omega)).trans (pending_push_perm _ ?_ hp)
        rw [pending_withTopPower]
        exact settle_perm lt _ _ _ g

/-- The sort keeps every element: its result is a permutation of the list, whatever the
comparison. -/
theorem stableM_perm (xs : List β) : (stableM lt xs).run.Perm xs := by
  unfold stableM
  split
  · rfl
  · rfl
  · simp only [Id.run_bind, Id.run_pure]
    have h := pushRuns_perm lt xs.length (minRun xs.length) (xs.length + 1) xs 0 [] minGallop
      (Nat.lt_succ_self _)
    rw [pending_nil, List.nil_append] at h
    exact (collapse_perm lt _ _ _).trans h

theorem stable_perm (lt : β → β → Bool) (xs : List β) : (stable lt xs).Perm xs :=
  stableM_perm (fun a b => pure (lt a b)) xs

end TradeDesk.Sort