import Mathlib
import TradeDesk.Proofs.SortPerm

/-!
# The sort's searches and runs

For a comparison that is a strict weak order (`Sort.StrictWeak`: being below is asymmetric, and
"may come before", `Precedes lt a b`, is transitive), the pieces of `Sort.stable` that look for
places and runs find the right ones.

* A binary search over `[l, r)`, for a test that holds on a prefix of the range, returns where the
  prefix ends (`search_splits`).
* A gallop from a hint searches exponentially away from it (`expand_spec`), then binarily in the
  last stretch. Over elements in order, `gallopLeft` returns how many of them are below the key,
  and `gallopRight` how many the key is not below (`gallopLeft_splits`, `gallopRight_splits`).
* A run taken from the front of a list is in order (`takeRun_sorted`): a strictly descending run
  is turned around, and an ascending one never has an element below the one before it. Inserting
  by binary search keeps a list in order (`insertSorted_sorted`).
-/

namespace TradeDesk.Sort

variable {β : Type}

/-- `a` may come before `b` under the comparison: `b` is not below `a`. -/
def Precedes (lt : β → β → Id Bool) (a b : β) : Prop := (lt b a).run = false

/-- A comparison that is a strict weak order: being below is asymmetric, and "may come before" is
transitive. -/
structure StrictWeak (lt : β → β → Id Bool) : Prop where
  asymm : ∀ {a b : β}, (lt a b).run = true → (lt b a).run = false
  trans : ∀ {a b c : β}, Precedes lt a b → Precedes lt b c → Precedes lt a c

namespace StrictWeak

variable {lt : β → β → Id Bool} (h : StrictWeak lt) {a b c : β}
include h

theorem refl (a : β) : Precedes lt a a := by
  unfold Precedes
  cases ha : (lt a a).run
  · rfl
  · have ha' := h.asymm ha
    rw [ha] at ha'
    exact ha'

theorem precedes_of_lt (hab : (lt a b).run = true) : Precedes lt a b := h.asymm hab

omit h in
theorem lt_of_not_precedes (hab : ¬Precedes lt a b) : (lt b a).run = true := by
  unfold Precedes at hab
  simpa using hab

theorem total (a b : β) : Precedes lt a b ∨ Precedes lt b a := by
  by_cases hab : Precedes lt a b
  · exact .inl hab
  · exact .inr (h.precedes_of_lt (lt_of_not_precedes hab))

/-- Below something that may come before `c`'s superior is below `c`. -/
theorem lt_of_precedes_of_lt (hab : Precedes lt a b) (hbc : (lt b c).run = true) :
    (lt a c).run = true := by
  by_contra hac
  have hca : Precedes lt c a := by simpa [Precedes] using hac
  have hcb := h.trans hca hab
  rw [Precedes, hbc] at hcb
  exact Bool.noConfusion hcb

theorem lt_of_lt_of_precedes (hab : (lt a b).run = true) (hbc : Precedes lt b c) :
    (lt a c).run = true := by
  by_contra hac
  have hca : Precedes lt c a := by simpa [Precedes] using hac
  have hba := h.trans hbc hca
  rw [Precedes, hab] at hba
  exact Bool.noConfusion hba

end StrictWeak

/-! ## Binary and exponential searches -/

/-- The test `P` holds on a prefix of `[l, r)`: where it holds, it holds at every earlier position
of the range. -/
def HoldsOnPrefix (P : Nat → Bool) (l r : Nat) : Prop :=
  ∀ p q, l ≤ p → p ≤ q → q < r → P q = true → P p = true

/-- `i` is where the test `P` stops holding on `[l, r)`. -/
structure Splits (P : Nat → Bool) (l r i : Nat) : Prop where
  ge : l ≤ i
  le : i ≤ r
  below : ∀ p, l ≤ p → p < i → P p = true
  above : ∀ p, i ≤ p → p < r → P p = false

/-- Binary search finds where the prefix ends. The induction follows the search: the test at the
midpoint decides which half holds the end of the prefix. -/
theorem search_splits (before : Nat → Id Bool) (l r : Nat) (hlr : l ≤ r)
    (hP : HoldsOnPrefix (fun p => (before p).run) l r) :
    Splits (fun p => (before p).run) l r (search before l r).run := by
  fun_induction search before l r with
  | case1 l r h mid ih ih' =>
    simp only [Id.run_bind]
    cases hm : (before mid).run
    · -- The test fails at the midpoint, so everywhere after it.
      have hs := ih' (by omega) fun p q hp hpq hq => hP p q hp hpq (by omega)
      simp only [Bool.false_eq_true, ↓reduceIte]
      refine ⟨hs.ge, by have := hs.le; omega, hs.below, fun p hp hpr => ?_⟩
      by_cases hpm : p < mid
      · exact hs.above p hp hpm
      · cases hq : (before p).run
        · rfl
        · have hmid : (before mid).run = true := hP mid p (by omega) (by omega) hpr hq
          rw [hmid] at hm
          exact hm
    · -- The test holds at the midpoint, so everywhere before it.
      have hs := ih (by omega) fun p q hp hpq hq => hP p q (by omega) hpq hq
      simp only [↓reduceIte]
      refine ⟨by have := hs.ge; omega, hs.le, fun p hp hpi => ?_, hs.above⟩
      by_cases hpm : mid + 1 ≤ p
      · exact hs.below p hpm hpi
      · exact hP p mid hp (by omega) (by omega) hm
  | case2 l r h =>
    rw [Id.run_pure]
    exact ⟨le_rfl, hlr, fun p hp hpi => absurd hpi (by omega),
      fun p hp hpr => absurd hpr (by omega)⟩

/-- What an exponential search ends with: the test holds at `last`, `last < ofs ≤ limit`, and `ofs`
is the limit or a position where the test fails. -/
structure Expanded (more : Nat → Id Bool) (limit : Nat) (r : Nat × Nat) : Prop where
  holds : (more r.1).run = true
  lt : r.1 < r.2
  le : r.2 ≤ limit
  stop : r.2 = limit ∨ (more r.2).run = false

/-- An exponential search from a position where the test holds, below the limit. The induction
follows the search: each doubling moves `last` to a position where the test holds. -/
theorem expand_spec (more : Nat → Id Bool) (limit last ofs : Nat) (hm : (more last).run = true)
    (hlo : last < ofs) (hll : last < limit) :
    Expanded more limit (expand more limit last ofs).run := by
  fun_induction expand more limit last ofs with
  | case1 last ofs h ih =>
    simp only [Id.run_bind]
    cases hofs : (more ofs).run
    · simp only [Bool.false_eq_true, ↓reduceIte, Id.run_pure]
      exact ⟨hm, hlo, h.le, .inr hofs⟩
    · simp only [↓reduceIte]
      exact ih hofs (by omega) h
  | case2 last ofs h =>
    exact ⟨hm, hll, le_rfl, .inl rfl⟩

section Gallop

variable (P : Nat → Bool) (n hint : Nat) (hP : HoldsOnPrefix P 0 n) (hh : hint < n)
include hP hh

/-- A gallop up from a hint where the test holds: the exponential search brackets the end of the
prefix between `hint + last`, where the test holds, and `hint + ofs`, the end or a failure. -/
theorem splits_of_expand_up (hph : P hint = true) (more before : Nat → Id Bool)
    (hmore : ∀ o, (more o).run = P (hint + o)) (hbefore : ∀ p, (before p).run = P p) :
    Splits P 0 n (search before ((expand more (n - hint) 0 1).run.1 + hint + 1)
      ((expand more (n - hint) 0 1).run.2 + hint)).run := by
  have he := expand_spec more (n - hint) 0 1 (by rw [hmore, Nat.add_zero]; exact hph) Nat.zero_lt_one
    (by omega)
  generalize (expand more (n - hint) 0 1).run = r at he ⊢
  obtain ⟨last, ofs⟩ := r
  dsimp only at he ⊢
  obtain ⟨hlast, hlt, hle, hstop⟩ := he
  simp only [hmore] at hlast hstop
  have hP' : HoldsOnPrefix (fun p => (before p).run) (last + hint + 1) (ofs + hint) := by
    intro p q hp hpq hq
    simp only [hbefore]
    exact hP p q (Nat.zero_le _) hpq (by omega)
  have hs := search_splits before _ _ (by omega) hP'
  simp only [hbefore] at hs
  refine ⟨Nat.zero_le _, by have := hs.le; omega, fun p _ hpi => ?_, fun p hip hpn => ?_⟩
  · by_cases hpl : last + hint + 1 ≤ p
    · exact hs.below p hpl hpi
    · exact hP p (hint + last) (Nat.zero_le _) (by omega) (by omega) hlast
  · by_cases hpo : p < ofs + hint
    · exact hs.above p hip hpo
    · -- Past the bracket, the search stopped at a failure before the end.
      rcases hstop with hofs | hofs
      · omega
      · cases hp : P p
        · rfl
        · rw [hP (hint + ofs) p (Nat.zero_le _) (by omega) hpn hp] at hofs
          exact hofs

/-- A gallop down from a hint where the test fails: the exponential search brackets the end of
the prefix between `hint - ofs`, the start or a position where the test holds, and `hint - last`,
where it fails. -/
theorem splits_of_expand_down (hph : P hint = false) (more before : Nat → Id Bool)
    (hmore : ∀ o, (more o).run = !P (hint - o)) (hbefore : ∀ p, (before p).run = P p) :
    Splits P 0 n (search before (hint + 1 - (expand more (hint + 1) 0 1).run.2)
      (hint - (expand more (hint + 1) 0 1).run.1)).run := by
  have he := expand_spec more (hint + 1) 0 1 (by rw [hmore, Nat.sub_zero, hph]; rfl)
    Nat.zero_lt_one (by omega)
  generalize (expand more (hint + 1) 0 1).run = r at he ⊢
  obtain ⟨last, ofs⟩ := r
  dsimp only at he ⊢
  obtain ⟨hlast, hlt, hle, hstop⟩ := he
  simp only [hmore, Bool.not_eq_true', Bool.not_eq_false'] at hlast hstop
  have hP' : HoldsOnPrefix (fun p => (before p).run) (hint + 1 - ofs) (hint - last) := by
    intro p q hp hpq hq
    simp only [hbefore]
    exact hP p q (Nat.zero_le _) hpq (by omega)
  have hs := search_splits before _ _ (by omega) hP'
  simp only [hbefore] at hs
  refine ⟨Nat.zero_le _, by have := hs.le; omega, fun p _ hpi => ?_, fun p hip hpn => ?_⟩
  · by_cases hpl : hint + 1 - ofs ≤ p
    · exact hs.below p hpl hpi
    · -- Before the bracket, the search stopped at a position where the test holds.
      rcases hstop with hofs | hofs
      · omega
      · exact hP p (hint - ofs) (Nat.zero_le _) (by omega) (by omega) hofs
  · by_cases hpo : p < hint - last
    · exact hs.above p hip hpo
    · cases hp : P p
      · rfl
      · rw [hP (hint - last) p (Nat.zero_le _) (by omega) hpn hp] at hlast
        exact hlast

end Gallop

/-- The elements `get 0, …, get (n - 1)` are in order. -/
def SortedUpTo (lt : β → β → Id Bool) (get : Nat → β) (n : Nat) : Prop :=
  ∀ p q, p ≤ q → q < n → Precedes lt (get p) (get q)

variable {lt : β → β → Id Bool} (hlt : StrictWeak lt)
include hlt

/-- Over elements in order, being below a key holds on a prefix. -/
theorem holdsOnPrefix_lt_key {get : Nat → β} {n : Nat} (hs : SortedUpTo lt get n) (key : β) :
    HoldsOnPrefix (fun p => (lt (get p) key).run) 0 n :=
  fun p q _ hpq hq hlt' => hlt.lt_of_precedes_of_lt (hs p q hpq hq) hlt'

/-- Over elements in order, not being above a key holds on a prefix. -/
theorem holdsOnPrefix_not_above {get : Nat → β} {n : Nat} (hs : SortedUpTo lt get n) (key : β) :
    HoldsOnPrefix (fun p => !(lt key (get p)).run) 0 n := by
  intro p q _ hpq hq hq'
  simp only [Bool.not_eq_true'] at hq' ⊢
  exact hlt.trans (hs p q hpq hq) hq'

/-- `gallopLeft` returns how many of the elements in order are below the key. -/
theorem gallopLeft_splits (key : β) (get : Nat → β) (n hint : Nat) (hs : SortedUpTo lt get n)
    (hh : hint < n) : Splits (fun p => (lt (get p) key).run) 0 n (gallopLeft lt key get n hint).run := by
  have hP := holdsOnPrefix_lt_key hlt hs key
  unfold gallopLeft
  simp only [Id.run_bind]
  cases hph : (lt (get hint) key).run
  · simp only [Bool.false_eq_true, ↓reduceIte]
    exact splits_of_expand_down _ n hint hP hh hph _ _ (fun o => by simp) (fun p => rfl)
  · simp only [↓reduceIte]
    exact splits_of_expand_up _ n hint hP hh hph _ _ (fun o => rfl) (fun p => rfl)

/-- `gallopRight` returns how many of the elements in order the key is not below. -/
theorem gallopRight_splits (key : β) (get : Nat → β) (n hint : Nat) (hs : SortedUpTo lt get n)
    (hh : hint < n) :
    Splits (fun p => !(lt key (get p)).run) 0 n (gallopRight lt key get n hint).run := by
  have hP := holdsOnPrefix_not_above hlt hs key
  unfold gallopRight
  simp only [Id.run_bind]
  cases hph : (lt key (get hint)).run
  · simp only [Bool.false_eq_true, ↓reduceIte]
    exact splits_of_expand_up _ n hint hP hh (by simp [hph]) _ _ (fun o => by simp)
      (fun p => by simp)
  · simp only [↓reduceIte]
    exact splits_of_expand_down _ n hint hP hh (by simp [hph]) _ _ (fun o => by simp)
      (fun p => by simp)

/-- The elements of an array in order, read through `getD`. -/
theorem sortedUpTo_getD (a : Array β) (hs : a.toList.Pairwise (Precedes lt)) (d : β) :
    SortedUpTo lt (fun t => a.getD t d) a.size := by
  intro p q hpq hq
  have hp : p < a.size := by omega
  simp only [Array.getD_eq_getD_getElem?, Array.getElem?_eq_getElem hp,
    Array.getElem?_eq_getElem hq, Option.getD_some]
  rcases Nat.eq_or_lt_of_le hpq with rfl | hpq
  · exact hlt.refl _
  · have h := List.pairwise_iff_getElem.1 hs p q (by simpa using hp) (by simpa using hq) hpq
    simpa using h

omit hlt in
/-- Elements in order from position `i` on. -/
theorem SortedUpTo.shift {get : Nat → β} {n : Nat} (hs : SortedUpTo lt get n) (i : Nat) :
    SortedUpTo lt (fun t => get (i + t)) (n - i) :=
  fun p q hpq hq => hs (i + p) (i + q) (by omega) (by omega)

omit hlt in
/-- Elements in order up to `n` are in order up to any `m ≤ n`. -/
theorem SortedUpTo.mono {get : Nat → β} {n m : Nat} (hs : SortedUpTo lt get n) (hmn : m ≤ n) :
    SortedUpTo lt get m :=
  fun p q hpq hq => hs p q hpq (by omega)

/-! ## Runs and insertion -/

/-- A strictly descending run, kept turned around in `prev :: rest`, is in order once done. The
induction is on the elements after it: each one below `prev` is below the whole run. -/
theorem descending_sorted (prev : β) (rest xs : List β)
    (hacc : (prev :: rest).Pairwise fun u v => (lt u v).run = true) :
    (descending lt prev (prev :: rest) xs).run.1.Pairwise (Precedes lt) := by
  induction xs generalizing prev rest with
  | nil => simpa [descending] using hacc.imp hlt.precedes_of_lt
  | cons x xs ih =>
    simp only [descending, Id.run_bind]
    cases hx : (lt x prev).run
    · simpa using hacc.imp hlt.precedes_of_lt
    · simp only [↓reduceIte]
      refine ih x (prev :: rest) (List.Pairwise.cons (fun v hv => ?_) hacc)
      rcases List.mem_cons.1 hv with rfl | hv
      · exact hx
      · exact hlt.lt_of_lt_of_precedes hx (hlt.precedes_of_lt (List.rel_of_pairwise_cons hacc hv))

/-- An ascending run, kept from its last element `prev` back, is in order once done: each element
added is not below `prev`, which is not below the rest. -/
theorem ascending_sorted (prev : β) (rest xs : List β)
    (hacc : (prev :: rest).Pairwise fun u v => Precedes lt v u) :
    (ascending lt prev (prev :: rest) xs).run.1.Pairwise (Precedes lt) := by
  induction xs generalizing prev rest with
  | nil =>
    have h := (@List.pairwise_reverse β (Precedes lt) (prev :: rest)).2 hacc
    simpa [ascending] using h
  | cons x xs ih =>
    simp only [ascending, Id.run_bind]
    cases hx : (lt x prev).run
    · simp only [Bool.false_eq_true, ↓reduceIte]
      refine ih x (prev :: rest) (List.Pairwise.cons (fun v hv => ?_) hacc)
      rcases List.mem_cons.1 hv with rfl | hv
      · exact hx
      · exact hlt.trans (List.rel_of_pairwise_cons hacc hv) hx
    · have h := (@List.pairwise_reverse β (Precedes lt) (prev :: rest)).2 hacc
      simpa using h

/-- The run at the front of a list is in order. -/
theorem takeRun_sorted (xs : List β) : (takeRun lt xs).run.1.Pairwise (Precedes lt) := by
  match xs with
  | [] => simp [takeRun]
  | [a] => simp [takeRun]
  | a :: b :: rest =>
    simp only [takeRun, Id.run_bind]
    cases hba : (lt b a).run
    · simp only [Bool.false_eq_true, ↓reduceIte]
      exact ascending_sorted hlt b [a] rest (by simpa [Precedes] using hba)
    · simp only [↓reduceIte]
      exact descending_sorted hlt b [a] rest (by simpa using hba)

omit hlt in
/-- A list in order with `x` put at position `i`, after every element that may come before it and
before every element it may come before, is in order. -/
theorem pairwise_insertAt {l : List β} (hs : l.Pairwise (Precedes lt)) (x : β) (i : Nat)
    (hbefore : ∀ p (hp : p < l.length), p < i → Precedes lt l[p] x)
    (hafter : ∀ p (hp : p < l.length), i ≤ p → Precedes lt x l[p]) :
    (l.take i ++ x :: l.drop i).Pairwise (Precedes lt) := by
  have hsplit := hs
  rw [← List.take_append_drop i l, List.pairwise_append] at hsplit
  obtain ⟨htake, hdrop, hcross⟩ := hsplit
  refine List.pairwise_append.2 ⟨htake, List.Pairwise.cons (fun y hy => ?_) hdrop, ?_⟩
  · obtain ⟨q, hq, rfl⟩ := List.mem_drop_iff_getElem.1 hy
    exact hafter (i + q) (by omega) (Nat.le_add_right _ _)
  · intro u hu v hv
    rcases List.mem_cons.1 hv with rfl | hv
    · obtain ⟨p, hp, rfl⟩ := List.mem_take_iff_getElem.1 hu
      exact hbefore p _ (lt_min_iff.1 hp).1
    · exact hcross u hu v hv

/-- Inserting by binary search keeps a list in order: the search finds the first element the
inserted one is below. -/
theorem insertSorted_sorted (sorted : List β) (x : β) (hs : sorted.Pairwise (Precedes lt)) :
    (insertSorted lt sorted x).run.Pairwise (Precedes lt) := by
  have hget := sortedUpTo_getD hlt sorted.toArray (by simpa using hs) x
  have hsp := search_splits (fun p : Nat => (do return !(← lt x (sorted.toArray.getD p x)) : Id Bool))
    0 sorted.toArray.size (Nat.zero_le _) (holdsOnPrefix_not_above hlt hget x)
  -- Whatever position splits the list so, `x` put there keeps it in order.
  have hput : ∀ i, Splits (fun p => !(lt x (sorted.toArray.getD p x)).run) 0 sorted.toArray.size i →
      (sorted.take i ++ x :: sorted.drop i).Pairwise (Precedes lt) := by
    intro i hi
    refine pairwise_insertAt hs x i (fun p hp hpi => ?_) (fun p hp hip => ?_)
    · have h := hi.below p (Nat.zero_le _) hpi
      simpa [Precedes, Array.getD_eq_getD_getElem?, hp] using h
    · have h := hi.above p hip (by simpa using hp)
      exact hlt.precedes_of_lt (by simpa [Array.getD_eq_getD_getElem?, hp] using h)
  exact hput _ hsp

/-- Inserting the elements of `ys` one by one keeps a list in order. -/
theorem foldlM_insertSorted_sorted (run ys : List β) (hs : run.Pairwise (Precedes lt)) :
    (ys.foldlM (insertSorted lt) run).run.Pairwise (Precedes lt) := by
  induction ys generalizing run with
  | nil => simpa using hs
  | cons y ys ih =>
    rw [List.foldlM_cons, Id.run_bind]
    exact ih _ (insertSorted_sorted hlt run y hs)

end TradeDesk.Sort
