import Mathlib
import TradeDesk.Proofs.SortPerm
import TradeDesk.Proofs.SortMerge

/-!
# The stable sort sorts

For a comparison that is a strict weak order, `Sort.stable lt xs` is in order: no element of it is
below one before it (`stable_sorted`). With `stable_perm` it is a sorted permutation of `xs`.

* Every run pushed on the stack is in order (`takeRun_sorted`, `foldlM_insertSorted_sorted`), and
  merging two neighbouring runs gives their stable merge (`mergeRuns_eq`), which is in order. So
  settling and collapsing keep every run on the stack in order (`RunsSorted`).
* Collapsing a stack with as much fuel as it has runs leaves at most one run, and the sort returns
  that run.

A comparison by a key into a linear order is a strict weak order (`strictWeak_of_key`). Sorting by
a key that no two elements share puts the keys in increasing order, and then the sort of every
reordering of a list is the same list (`stable_eq_of_perm`).
-/

namespace TradeDesk.Sort

variable {β : Type} {lt : β → β → Id Bool}

/-- Every run on a stack is in order. -/
def RunsSorted (lt : β → β → Id Bool) (stack : List (Pending β)) : Prop :=
  ∀ r ∈ stack, r.items.Pairwise (Precedes lt)

@[simp] theorem runsSorted_nil : RunsSorted lt [] := by
  simp [RunsSorted]

@[simp] theorem runsSorted_cons {r : Pending β} {stack : List (Pending β)} :
    RunsSorted lt (r :: stack) ↔ r.items.Pairwise (Precedes lt) ∧ RunsSorted lt stack :=
  List.forall_mem_cons

@[simp] theorem runsSorted_withTopPower {p : Nat} {stack : List (Pending β)} :
    RunsSorted lt (withTopPower p stack) ↔ RunsSorted lt stack := by
  cases stack <;> simp [withTopPower]

section Sorted

variable (hlt : StrictWeak lt)
include hlt

/-- The stable merge of two runs in order is in order. -/
theorem merge_sorted {a b : List β} (ha : a.Pairwise (Precedes lt))
    (hb : b.Pairwise (Precedes lt)) : (List.merge a b (precedesB lt)).Pairwise (Precedes lt) := by
  have htrans : ∀ x y z, precedesB lt x y = true → precedesB lt y z = true →
      precedesB lt x z = true := by
    simp only [precedesB_eq_true]
    exact fun _ _ _ => hlt.trans
  have htotal : ∀ x y, (precedesB lt x y || precedesB lt y x) = true := by
    intro x y
    rcases hlt.total x y with h | h <;> simp [h]
  simpa using @List.pairwise_merge β (precedesB lt) htrans htotal a b (by simpa using ha)
    (by simpa using hb)

/-- Merging two neighbouring runs in order gives a run in order. -/
theorem mergeRuns_sorted (g : Nat) {a b : List β} (ha : a.Pairwise (Precedes lt))
    (hb : b.Pairwise (Precedes lt)) : (mergeRuns lt g a b).run.1.Pairwise (Precedes lt) := by
  rw [mergeRuns_eq hlt g ha hb]
  exact merge_sorted hlt ha hb

theorem mergeTop_sorted {stack : List (Pending β)} (g : Nat) (h : RunsSorted lt stack) :
    RunsSorted lt (mergeTop lt stack g).run.1 := by
  unfold mergeTop
  split
  · next top below rest =>
    simp only [runsSorted_cons] at h
    simp only [Id.run_bind, Id.run_pure, runsSorted_cons]
    exact ⟨mergeRuns_sorted hlt g h.2.1 h.1, h.2.2⟩
  · exact h

theorem mergeUnder_sorted {stack : List (Pending β)} (g : Nat) (h : RunsSorted lt stack) :
    RunsSorted lt (mergeUnder lt stack g).run.1 := by
  unfold mergeUnder
  split
  · next top second third rest =>
    simp only [runsSorted_cons] at h
    simp only [Id.run_bind, Id.run_pure, runsSorted_cons]
    exact ⟨h.1, mergeRuns_sorted hlt g h.2.2.1 h.2.1, h.2.2.2⟩
  · exact h

theorem settle_sorted (p fuel : Nat) {stack : List (Pending β)} (g : Nat)
    (h : RunsSorted lt stack) : RunsSorted lt (settle lt p fuel stack g).run.1 := by
  induction fuel generalizing stack g with
  | zero => exact h
  | succ fuel ih =>
    unfold settle
    split
    · split
      · simp only [Id.run_bind]
        exact ih _ (mergeTop_sorted hlt g h)
      · exact h
    · exact h

theorem collapse_sorted (fuel : Nat) {stack : List (Pending β)} (g : Nat)
    (h : RunsSorted lt stack) : RunsSorted lt (collapse lt fuel stack g).run.1 := by
  induction fuel generalizing stack g with
  | zero => exact h
  | succ fuel ih =>
    unfold collapse
    split
    · split
      · simp only [Id.run_bind]
        exact ih _ (mergeUnder_sorted hlt g h)
      · simp only [Id.run_bind]
        exact ih _ (mergeTop_sorted hlt g h)
    · simp only [Id.run_bind]
      exact ih _ (mergeTop_sorted hlt g h)
    · exact h

/-- Every run the sort pushes is in order, and so is every run on the stack after it. -/
theorem pushRuns_sorted (n least fuel : Nat) (xs : List β) (lo : Nat) {stack : List (Pending β)}
    (g : Nat) (h : RunsSorted lt stack) :
    RunsSorted lt (pushRuns lt n least fuel xs lo stack g).run.1 := by
  induction fuel generalizing xs lo stack g with
  | zero => exact h
  | succ fuel ih =>
    unfold pushRuns
    split
    · exact h
    simp only [Id.run_bind]
    have hrun := takeRun_sorted hlt xs
    generalize (takeRun lt xs).run = r at hrun ⊢
    obtain ⟨run, rest⟩ := r
    dsimp only at hrun ⊢
    -- The run pushed is the run taken, lengthened or not, on the stack settled below it.
    split
    · have hg := foldlM_insertSorted_sorted hlt run (rest.take (min xs.length least - run.length))
        hrun
      cases stack with
      | nil =>
        simp only [Id.run_bind, Id.run_pure]
        exact ih _ _ _ (by simpa using hg)
      | cons top tail =>
        simp only [Id.run_bind, Id.run_pure]
        exact ih _ _ _ (runsSorted_cons.2 ⟨hg, by simpa using settle_sorted hlt _ _ g h⟩)
    · cases stack with
      | nil =>
        simp only [Id.run_bind, Id.run_pure]
        exact ih _ _ _ (by simpa using hrun)
      | cons top tail =>
        simp only [Id.run_bind, Id.run_pure]
        exact ih _ _ _ (runsSorted_cons.2 ⟨hrun, by simpa using settle_sorted hlt _ _ g h⟩)

end Sorted

/-- Merging two runs of a stack of at least two leaves one run fewer. -/
theorem length_mergeTop (lt : β → β → Id Bool) (stack : List (Pending β)) (g : Nat) (h : 2 ≤ stack.length) :
    (mergeTop lt stack g).run.1.length + 1 = stack.length := by
  unfold mergeTop
  split
  · simp
  · next hn =>
    match stack, h with
    | _ :: _ :: _, _ => exact absurd rfl (hn _ _ _)

/-- Merging the two runs below the top of a stack of at least three leaves one run fewer. -/
theorem length_mergeUnder (lt : β → β → Id Bool) (stack : List (Pending β)) (g : Nat) (h : 3 ≤ stack.length) :
    (mergeUnder lt stack g).run.1.length + 1 = stack.length := by
  unfold mergeUnder
  split
  · simp
  · next hn =>
    match stack, h with
    | _ :: _ :: _ :: _, _ => exact absurd rfl (hn _ _ _ _)

/-- Collapsing a stack with as much fuel as it has runs, less one, leaves at most one run: each
round merges two runs into one. -/
theorem length_collapse_le (lt : β → β → Id Bool) (fuel : Nat) (stack : List (Pending β)) (g : Nat)
    (h : stack.length ≤ fuel + 1) : (collapse lt fuel stack g).run.1.length ≤ 1 := by
  induction fuel generalizing stack g with
  | zero => exact h
  | succ fuel ih =>
    unfold collapse
    split
    · next top second third rest =>
      have h3 : 3 ≤ (top :: second :: third :: rest).length := by simp
      split
      · simp only [Id.run_bind]
        exact ih _ _ (by have := length_mergeUnder lt _ g h3; omega)
      · simp only [Id.run_bind]
        exact ih _ _ (by have := length_mergeTop lt (top :: second :: third :: rest) g (by simp); omega)
    · next top second rest _ =>
      simp only [Id.run_bind]
      exact ih _ _ (by have := length_mergeTop lt (top :: second :: rest) g (by simp); omega)
    · next hn3 hn2 =>
      rcases stack with _ | ⟨a, _ | ⟨b, rest⟩⟩
      · simp
      · simp
      · exact absurd rfl (hn2 a b rest)

/-- For a strict weak order the sort's result is in order. -/
theorem stableM_sorted (hlt : StrictWeak lt) (xs : List β) :
    (stableM lt xs).run.Pairwise (Precedes lt) := by
  unfold stableM
  split
  · simp
  · simp
  simp only [Id.run_bind, Id.run_pure]
  have hs := pushRuns_sorted hlt xs.length (minRun xs.length) (xs.length + 1) xs 0 minGallop
    (show RunsSorted lt [] from runsSorted_nil)
  generalize (pushRuns lt xs.length (minRun xs.length) (xs.length + 1) xs 0 [] minGallop).run = p
    at hs ⊢
  obtain ⟨stack, g⟩ := p
  have hc := collapse_sorted hlt stack.length g hs
  have hl := length_collapse_le lt stack.length stack g (by omega)
  generalize (collapse lt stack.length stack g).run = q at hc hl ⊢
  obtain ⟨runs, _⟩ := q
  -- At most one run is left, and the result is its elements.
  match runs, hc, hl with
  | [], _, _ => simp
  | [r], hc, _ => simpa using hc
  | _ :: _ :: _, _, hl => simp at hl

/-- For a strict weak order the sort's result is in order: no element is below one before it. -/
theorem stable_sorted (lt : β → β → Bool) (hlt : StrictWeak fun a b => (pure (lt a b) : Id Bool))
    (xs : List β) : (stable lt xs).Pairwise fun a b => lt b a = false :=
  stableM_sorted hlt xs

/-! ## Sorting by a key -/

section Key

variable {γ : Type} [LinearOrder γ] (f : β → γ)

/-- Comparing by a key into a linear order is a strict weak order. -/
theorem strictWeak_of_key {lt : β → β → Bool} (hf : ∀ a b, lt a b = true ↔ f a < f b) :
    StrictWeak fun a b => (pure (lt a b) : Id Bool) where
  asymm {a b} hab := by
    have h := (hf a b).1 hab
    show lt b a = false
    rw [Bool.eq_false_iff, ne_eq, hf]
    exact not_lt.2 h.le
  trans {a b c} hab hbc := by
    simp only [Precedes, Id.run_pure, Bool.eq_false_iff, ne_eq, hf, not_lt] at hab hbc ⊢
    exact hab.trans hbc

variable {f} {lt : β → β → Bool} (hf : ∀ a b, lt a b = true ↔ f a < f b)
include hf

/-- Sorting by a key puts the keys in order. -/
theorem stable_key_le (xs : List β) : (stable lt xs).Pairwise fun a b => f a ≤ f b := by
  refine (stable_sorted lt (strictWeak_of_key f hf) xs).imp fun {a b} h => ?_
  simpa [Bool.eq_false_iff, hf] using h

/-- Sorting by a key that no two elements share puts the keys in increasing order. -/
theorem stable_key_lt (xs : List β) (hxs : (xs.map f).Nodup) :
    (stable lt xs).Pairwise fun a b => f a < f b := by
  have hnd : ((stable lt xs).map f).Nodup := ((stable_perm lt xs).map f).nodup_iff.2 hxs
  rw [List.Nodup, List.pairwise_map] at hnd
  exact ((stable_key_le hf xs).and hnd).imp fun h => lt_of_le_of_ne h.1 h.2

/-- Sorting by a key that no two elements share gives the same list for every reordering. -/
theorem stable_eq_of_perm {xs ys : List β} (hp : xs.Perm ys) (hxs : (xs.map f).Nodup) :
    stable lt xs = stable lt ys :=
  List.Perm.eq_of_pairwise (fun _ _ _ _ hab hba => absurd (hab.trans hba) (lt_irrefl _))
    (stable_key_lt hf xs hxs) (stable_key_lt hf ys ((hp.map f).nodup_iff.1 hxs))
    ((stable_perm lt xs).trans (hp.trans (stable_perm lt ys).symm))

end Key

end TradeDesk.Sort
