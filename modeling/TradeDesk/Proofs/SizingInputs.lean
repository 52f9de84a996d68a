import Mathlib
import TradeDesk.Sizing.Sizer

/-!
# How sizing reads its inputs

Sizing a bet takes its edge and win probability as any values at all. Each is read once
(`Sizer.finiteValue?`): converted to binary64 the way a number, a truth value, a numeral text or an
ASCII numeral byte string converts, and kept if the result is finite. A value that is not a finite
number (`Value.IsNumber` fails: a text or byte string that is not a numeral, null, a list, an
object, or one that converts to an infinity or a NaN) is read as zero, with a warning. A whole
number is a finite number, but one beyond the binary64 range (`Value.Oversized`) cannot be
converted at all: the conversion fails, and the finiteness test does not catch that failure.

So sizing a bet fails exactly when its edge or its probability is a whole number beyond binary64,
and then with that fault; otherwise it returns a recommendation, where an input that is not a
finite number counts as zero, its warning in its place (`Sizer.inputs_read`). The Kelly fraction of
a category computes its probability itself, always a binary64 value, so it fails exactly when the
category cannot be a key or the edge is such a whole number.
-/

namespace TradeDesk

namespace Value

/-- A whole number too large for binary64: converting it to a float overflows. -/
def Oversized (v : Value) : Prop := ∃ n, v = .int n ∧ Binary64.intOverflows n = true

/-- A finite number: a whole number, or a value whose binary64 conversion is finite. -/
def IsNumber (v : Value) : Prop :=
  (∃ n, v = .int n) ∨ ∃ x, v.toFloat? = .ok x ∧ (Num.float x).isFinite = true

/-- The truth values convert as `0` and `1`, which fit binary64. -/
theorem intOverflows_of_bool (b : Bool) : Binary64.intOverflows (if b then 1 else 0) = false := by
  cases b <;> decide +kernel

/-- Converting a value to binary64 overflows exactly for a whole number beyond the range: a truth
value converts as `0` or `1`, and a numeral text or byte string is rounded, never refused for its
size. -/
theorem toFloat?_eq_tooLarge {v : Value} : v.toFloat? = .error .tooLarge ↔ v.Oversized := by
  cases v with
  | num n =>
    cases n with
    | int n =>
      simp only [toFloat?, asNum?, Num.toFloat?, Oversized, Value.int, num.injEq, Num.int.injEq,
        exists_eq_left']
      cases Binary64.intOverflows n <;> simp
    | float x => simp [toFloat?, asNum?, Num.toFloat?, Oversized, Value.int]
  | bool b =>
    simp only [toFloat?, asNum?, Num.toFloat?, intOverflows_of_bool, Bool.false_eq_true, if_false,
      reduceCtorEq, false_iff]
    rintro ⟨n, hn, -⟩
    cases hn
  | str s | bytes s =>
    -- A numeral text or byte string is rounded, never refused for its size.
    simp only [toFloat?, Oversized, Value.int, reduceCtorEq, false_and, exists_false, iff_false]
    split <;> simp
  | null | list _ | obj _ | stamp _ | map _ =>
    -- Not numbers: they are refused as not convertible.
    simp [toFloat?, asNum?, Oversized, Value.int]

end Value

namespace Sizer

/-- Reading an input fails exactly on a whole number beyond binary64, with that fault. -/
theorem finiteValue?_eq_error {v : Value} {f : Fault} :
    finiteValue? v = .error f ↔ f = .tooLarge ∧ v.Oversized := by
  rw [← Value.toFloat?_eq_tooLarge]
  unfold finiteValue?
  cases h : v.toFloat? with
  | ok x => simp
  | error g =>
    cases g <;> simp [eq_comm]

/-- An input that is not a whole number beyond binary64 is read. -/
theorem finiteValue?_ok {v : Value} (hv : ¬v.Oversized) : ∃ r, finiteValue? v = .ok r := by
  cases h : finiteValue? v with
  | ok r => exact ⟨r, rfl⟩
  | error f => exact absurd (finiteValue?_eq_error.1 h).2 hv

/-- An input that is not a finite number is read as no number. -/
theorem finiteValue?_of_not_number {v : Value} (hv : ¬v.IsNumber) : finiteValue? v = .ok none := by
  unfold finiteValue?
  cases h : v.toFloat? with
  | ok x =>
    -- A converted value that is finite would make the input a finite number.
    have hx : (Num.float x).isFinite = false :=
      Bool.eq_false_iff.2 fun hf => hv (.inr ⟨x, h, hf⟩)
    simp [hx]
  | error g =>
    cases g
    case tooLarge =>
      obtain ⟨n, rfl, -⟩ := Value.toFloat?_eq_tooLarge.1 h
      exact absurd (.inl ⟨n, rfl⟩) hv
    all_goals rfl

/-- Sizing a bet fails where reading the edge fails, or, the edge read, where reading the
probability fails. -/
theorem calculate_eq_error (s : Sizer) (edge p : Value) (f : Fault) :
    s.calculate edge p = .error f ↔
      finiteValue? edge = .error f ∨
        (∃ r, finiteValue? edge = .ok r) ∧ finiteValue? p = .error f := by
  unfold calculate sanitize
  cases he : finiteValue? edge with
  | error g => simp [bind, Except.bind]
  | ok r =>
    cases hp : finiteValue? p with
    | error g => cases r <;> simp [bind, Except.bind, pure, Except.pure]
    | ok r' => cases r <;> cases r' <;> simp [bind, Except.bind, pure, Except.pure]

/-- Sizing a bet with an edge that is not a finite number sizes it at edge zero, the edge's
warning first. -/
theorem calculate_of_edge_not_number (s : Sizer) {edge p : Value} (he : ¬edge.IsNumber)
    (hp : ¬p.Oversized) :
    ∃ q pn, s.calculate edge p = .ok (s.ledger.size s.config 0.0 q (.edgeNotFinite edge :: pn)) := by
  obtain ⟨r, hr⟩ := finiteValue?_ok hp
  unfold calculate sanitize
  rw [finiteValue?_of_not_number he, hr]
  -- The probability is read or not; either way the edge's warning comes first.
  cases r <;> simp only [bind, Except.bind, pure, Except.pure, List.singleton_append] <;>
    exact ⟨_, _, rfl⟩

/-- Sizing a bet with a probability that is not a finite number sizes it at probability zero, the
probability's warning after the edge's. -/
theorem calculate_of_probability_not_number (s : Sizer) {edge p : Value} (he : ¬edge.Oversized)
    (hp : ¬p.IsNumber) :
    ∃ e en, s.calculate edge p =
      .ok (s.ledger.size s.config e 0.0 (en ++ [.probabilityNotFinite p])) := by
  obtain ⟨r, hr⟩ := finiteValue?_ok he
  unfold calculate sanitize
  rw [hr, finiteValue?_of_not_number hp]
  cases r <;> simp only [bind, Except.bind, pure, Except.pure] <;> exact ⟨_, _, rfl⟩

/-- A category's win probability, when the category can be a key, is a binary64 value: `0.6`, or
its wins over its trades. -/
theorem categoryProbability_eq_ok (l : Ledger Num) {category : Value} (hk : category.isKey = true) :
    ∃ x, l.categoryProbability category = .ok (.float x) := by
  unfold Ledger.categoryProbability
  rw [hk]
  simp only [Bool.not_true, Bool.false_eq_true, if_false]
  split
  · split
    · exact ⟨_, rfl⟩
    · -- Wins over trades is a true quotient of two whole numbers.
      simp only [Nat.cast, NatCast.natCast, HDiv.hDiv, Div.div, Num.div]
      split <;> exact ⟨_, rfl⟩
  · exact ⟨_, rfl⟩

/-- Sizing a bet fails exactly when its edge or its probability is a whole number beyond binary64,
and then with that fault. -/
theorem calculate_faults (s : Sizer) (edge p : Value) (f : Fault) :
    s.calculate edge p = .error f ↔ f = .tooLarge ∧ (edge.Oversized ∨ p.Oversized) := by
  rw [calculate_eq_error, finiteValue?_eq_error, finiteValue?_eq_error]
  constructor
  · rintro (⟨rfl, he⟩ | ⟨-, rfl, hp⟩)
    · exact ⟨rfl, .inl he⟩
    · exact ⟨rfl, .inr hp⟩
  · rintro ⟨rfl, he | hp⟩
    · exact .inl ⟨rfl, he⟩
    · -- Past an edge that reads, only the probability can fail.
      by_cases he : edge.Oversized
      · exact .inl ⟨rfl, he⟩
      · exact .inr ⟨finiteValue?_ok he, rfl, hp⟩

/-- The Kelly fraction of a category fails exactly when the category cannot be a key, or when the
edge is a whole number beyond binary64. -/
theorem categoryKelly_eq_error (s : Sizer) (category edge : Value) (f : Fault) :
    s.categoryKelly category edge = .error f ↔
      (category.isKey = false ∧ f = .unhashable category.typeName) ∨
        (category.isKey = true ∧ f = .tooLarge ∧ edge.Oversized) := by
  cases hk : category.isKey with
  | false =>
    simp [categoryKelly, Ledger.categoryProbability, hk, bind, Except.bind, eq_comm]
  | true =>
    obtain ⟨x, hx⟩ := categoryProbability_eq_ok s.ledger hk
    have hnum : ¬(Value.num (.float x)).Oversized := by
      rintro ⟨n, hn, -⟩
      cases hn
    -- The category's probability reads, so the call fails as sizing at that probability does.
    have hcalc := calculate_faults s edge (.num (.float x)) f
    simp only [hnum, or_false] at hcalc
    simp only [categoryKelly, hx, bind, Except.bind, Bool.true_eq_false, false_and, true_and,
      false_or]
    cases hc : s.calculate edge (.num (.float x)) with
    | error g =>
      rw [hc] at hcalc
      simp only [Except.error.injEq] at hcalc ⊢
      exact hcalc
    | ok r =>
      rw [hc] at hcalc
      simpa [pure, Except.pure] using hcalc

/-- What sizing a bet, and the Kelly fraction of a category, do with inputs of any kind. -/
structure InputsRead (s : Sizer) (edge p : Value) : Prop where
  /-- Sizing fails exactly when an input is a whole number beyond binary64, with that fault. -/
  faults : ∀ f, s.calculate edge p = .error f ↔ f = .tooLarge ∧ (edge.Oversized ∨ p.Oversized)
  /-- Otherwise it returns a recommendation. -/
  returns : ¬edge.Oversized → ¬p.Oversized → ∃ r, s.calculate edge p = .ok r
  /-- An edge that is not a finite number counts as zero, its warning first. -/
  edge_zero : ¬edge.IsNumber → ¬p.Oversized →
    ∃ q pn, s.calculate edge p = .ok (s.ledger.size s.config 0.0 q (.edgeNotFinite edge :: pn))
  /-- A probability that is not a finite number counts as zero, its warning after the edge's. -/
  probability_zero : ¬edge.Oversized → ¬p.IsNumber →
    ∃ e en, s.calculate edge p =
      .ok (s.ledger.size s.config e 0.0 (en ++ [.probabilityNotFinite p]))
  /-- The Kelly fraction of a category fails exactly when the category cannot be a key, or the
  edge is a whole number beyond binary64. -/
  category_faults : ∀ category f, s.categoryKelly category edge = .error f ↔
    (category.isKey = false ∧ f = .unhashable category.typeName) ∨
      (category.isKey = true ∧ f = .tooLarge ∧ edge.Oversized)

/-- Sizing a bet, at any session and with inputs of any kind, fails only on a whole number beyond
binary64 and otherwise treats an input that is not a finite number as zero, with a warning; the
Kelly fraction of a category fails only on such an edge or a category that cannot be a key. -/
theorem inputs_read (s : Sizer) (edge p : Value) : s.InputsRead edge p where
  faults := calculate_faults s edge p
  returns he hp := by
    cases h : s.calculate edge p with
    | ok r => exact ⟨r, rfl⟩
    | error f =>
      obtain ⟨-, he' | hp'⟩ := (calculate_faults s edge p f).1 h
      · exact absurd he' he
      · exact absurd hp' hp
  edge_zero := calculate_of_edge_not_number s
  probability_zero := calculate_of_probability_not_number s
  category_faults category := categoryKelly_eq_error s category edge

/-- A fresh session asked to size a bet of edge `10^400`: the whole number does not fit binary64,
so sizing fails, and so does the Kelly fraction of the category `x` at that edge. -/
theorem inputs_read_at_huge_edge :
    let s : Sizer := ⟨SizingConfig.standard, Ledger.start (.int 1000) 20⟩
    let edge : Value := .int (Int.pow 10 400)
    s.InputsRead edge (.num 0.6) ∧ edge.Oversized ∧
      s.calculate edge (.num 0.6) = .error .tooLarge ∧
      s.categoryKelly (.str "x") edge = .error .tooLarge := by
  intro s edge
  have h := inputs_read s edge (.num 0.6)
  have hov : edge.Oversized := ⟨_, rfl, by decide +kernel⟩
  exact ⟨h, hov, (h.faults .tooLarge).2 ⟨rfl, .inl hov⟩,
    (h.category_faults (.str "x") .tooLarge).2 (.inr ⟨rfl, rfl, hov⟩)⟩

end Sizer

end TradeDesk
