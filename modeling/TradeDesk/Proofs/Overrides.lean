import Mathlib
import TradeDesk.Proofs.Loading
import TradeDesk.Proofs.Merge

/-!
# Reading the environment: the order of the variables does not matter

`Config.Env.overrides` lays each settings variable's value at its path, one variable after the
other, creating objects on the way (`Config.Env.setPath`). One insertion is described by what the
document reads at each path afterwards (`Value.at?`): the value at its path and as itself below it
(`at?_setPath_append`), an object above it that gained the path's next name (`at?_setPath_above`),
and every other path as before (`at?_setPath_off`). It fails only where a value that is not an
object stands strictly above the path (`setPath_blocked`).

From these, two invariants of the fold over the variables:

* every value that is not an object lies at or below a path laid so far (`Covered`), so reading
  the environment fails on a path only where one variable's path properly extends another's;
* while the paths are prefix-free, the document is the deep union of the one-path trees laid so far
  (`Value.DeepUnion`): each value at its path, above them objects whose names are exactly the next
  steps towards the values, and nothing else.

`overrides_deep_union` gathers the two: with distinct names and prefix-free paths, every order of
the variables reads as the same deep union, unless a value is JSON past a reading limit, which
fails in every order; and any failure is such a value or a path that extends another.
-/

namespace TradeDesk

/-- A bind succeeds where its first step succeeds and its second succeeds after it. -/
theorem bind_eq_ok {ε α β : Type} {x : Except ε α} {g : α → Except ε β} {b : β} :
    x >>= g = .ok b ↔ ∃ a, x = .ok a ∧ g a = .ok b := by
  cases x with
  | error e => simp [bind, Except.bind]
  | ok a => simp [bind, Except.bind]

namespace Value

theorem at?_setField (fs : List (String × Value)) (a k : String) (x : Value) (q : List String) :
    (Value.obj (setField fs a x)).at? (k :: q) =
      if a = k then x.at? q else (Value.obj fs).at? (k :: q) := by
  simp only [at?, get?_setField]
  split_ifs <;> rfl

theorem at?_obj_cons (fs : List (String × Value)) (k : String) (q : List String) :
    (Value.obj fs).at? (k :: q) = ((fs.find? (·.1 == k)).map (·.2)).bind (·.at? q) := rfl

@[simp] theorem at?_nil_cons (k : String) (q : List String) : (Value.obj []).at? (k :: q) = none :=
  rfl

@[simp] theorem namesAt_obj_nil (fs : List (String × Value)) :
    (Value.obj fs).namesAt [] = fs.map Prod.fst := rfl

@[simp] theorem namesAt_nil (q : List String) : (Value.obj []).namesAt q = [] := by
  cases q <;> rfl

end Value

namespace Config.Env

open Value

/-! ## One insertion -/

section SetPath

variable {d d' : List (String × Value)} {p q : List String} {x : Value}

/-- The top object after a field is set holds the old names and the set one. -/
theorem top_setField (d : List (String × Value)) (k : String) (w : Value) (rest : List String) :
    ∃ fs, (Value.obj (setField d k w)).at? [] = some (.obj fs) ∧
      (∀ k', k' ∈ fs.map Prod.fst ↔ k' ∈ (Value.obj d).namesAt [] ∨ [] ++ [k'] <+: k :: rest) ∧
      (((Value.obj d).namesAt []).Nodup → (fs.map Prod.fst).Nodup) :=
  ⟨_, rfl, fun k' => by
    rw [mem_names_setField, namesAt_obj_nil, List.nil_append, List.singleton_prefix_cons_iff,
      or_comm], fun hd => nodup_setField hd _ _⟩

/-- The set value reads at its path, and below it as itself. -/
theorem at?_setPath_append (h : setPath d p x = .ok d') (hp : p ≠ []) (r : List String) :
    (Value.obj d').at? (p ++ r) = x.at? r := by
  fun_induction setPath d p x generalizing d' with
  | case1 => exact absurd rfl hp
  | case2 d k v =>
    cases h
    simp [at?_setField]
  | case3 d k rest v hrest _ ih | case4 d k rest v hrest _ _ _ ih =>
    obtain ⟨sub, hsub, h⟩ := bind_eq_ok.1 h
    cases h
    rw [List.cons_append, at?_setField, if_pos rfl]
    exact ih hsub hrest
  | case5 | case6 | case7 => cases h

/-- A path apart from the set one, neither above it nor at or below it, reads as before. -/
theorem at?_setPath_off (h : setPath d p x = .ok d') (hpq : ¬p <+: q) (hqp : ¬q <+: p) :
    (Value.obj d').at? q = (Value.obj d).at? q := by
  fun_induction setPath d p x generalizing d' q with
  | case1 => exact absurd List.nil_prefix hpq
  | case2 d k v =>
    cases h
    cases q with
    | nil => exact absurd List.nil_prefix hqp
    | cons k' q =>
      have hk : k ≠ k' := by
        rintro rfl
        exact hpq (List.singleton_prefix_cons_iff.2 rfl)
      rw [at?_setField, if_neg hk]
  | case3 d k rest v _ hfind ih =>
    obtain ⟨sub, hsub, h⟩ := bind_eq_ok.1 h
    cases h
    cases q with
    | nil => exact absurd List.nil_prefix hqp
    | cons k' q =>
      rw [at?_setField]
      split_ifs with hk
      · -- the field is new: below it stands the object made for the rest of the path
        subst hk
        rw [List.prefix_cons_inj] at hpq hqp
        rw [ih hsub hpq hqp, at?_obj_cons, hfind]
        cases q with
        | nil => exact absurd List.nil_prefix hqp
        | cons => rfl
      · rfl
  | case4 d k rest v _ _ sub hfind ih =>
    obtain ⟨sub', hsub, h⟩ := bind_eq_ok.1 h
    cases h
    cases q with
    | nil => exact absurd List.nil_prefix hqp
    | cons k' q =>
      rw [at?_setField]
      split_ifs with hk
      · subst hk
        rw [List.prefix_cons_inj] at hpq hqp
        rw [ih hsub hpq hqp, at?_obj_cons, hfind]
        rfl
      · rfl
  | case5 | case6 | case7 => cases h

/-- A node strictly above the set path is an object afterwards: it holds the names it held, and
the path's next step. -/
theorem at?_setPath_above (h : setPath d p x = .ok d') (hq : q <+: p) (hne : q ≠ p) :
    ∃ fs, (Value.obj d').at? q = some (.obj fs) ∧
      (∀ k, k ∈ fs.map Prod.fst ↔ k ∈ (Value.obj d).namesAt q ∨ q ++ [k] <+: p) ∧
      (((Value.obj d).namesAt q).Nodup → (fs.map Prod.fst).Nodup) := by
  fun_induction setPath d p x generalizing d' q with
  | case1 => exact absurd (List.prefix_nil.1 hq) hne
  | case2 d k v =>
    cases h
    cases q with
    | nil => exact top_setField d k v []
    | cons k' q =>
      obtain ⟨rfl, hq'⟩ := List.cons_prefix_cons.1 hq
      exact absurd (congrArg (k' :: ·) (List.prefix_nil.1 hq')) hne
  | case3 d k rest v _ hfind ih =>
    obtain ⟨sub, hsub, h⟩ := bind_eq_ok.1 h
    cases h
    cases q with
    | nil => exact top_setField d k _ rest
    | cons k' q =>
      obtain ⟨rfl, hq'⟩ := List.cons_prefix_cons.1 hq
      obtain ⟨fs, hfs, hnames, hnd⟩ := ih hsub hq' (fun h' => hne (congrArg (k' :: ·) h'))
      -- the field is new, so the old document has no names below it
      have hold : (Value.obj d).namesAt (k' :: q) = [] := by
        simp [namesAt_cons, get?_obj, hfind]
      refine ⟨fs, by rw [at?_setField, if_pos rfl, hfs], fun k => ?_, fun _ => hnd (by simp)⟩
      rw [hnames, hold, namesAt_nil, List.cons_append, List.prefix_cons_inj]
  | case4 d k rest v _ _ sub hfind ih =>
    obtain ⟨sub', hsub, h⟩ := bind_eq_ok.1 h
    cases h
    cases q with
    | nil => exact top_setField d k _ rest
    | cons k' q =>
      obtain ⟨rfl, hq'⟩ := List.cons_prefix_cons.1 hq
      obtain ⟨fs, hfs, hnames, hnd⟩ := ih hsub hq' (fun h' => hne (congrArg (k' :: ·) h'))
      have hold : (Value.obj d).namesAt (k' :: q) = (Value.obj sub).namesAt q := by
        simp [namesAt_cons, get?_obj, hfind]
      refine ⟨fs, by rw [at?_setField, if_pos rfl, hfs], fun k => ?_, fun h => hnd (hold ▸ h)⟩
      rw [hnames, hold, List.cons_append, List.prefix_cons_inj]
  | case5 | case6 | case7 => cases h

/-- An insertion fails only where a value that is not an object stands strictly above the path. -/
theorem setPath_blocked {f : Fault} (h : setPath d p x = .error f) :
    ∃ q w, q <+: p ∧ q ≠ p ∧ (Value.obj d).at? q = some w ∧ w.isObj = false := by
  fun_induction setPath d p x with
  | case1 | case2 => cases h
  | case3 d k rest v _ _ ih =>
    -- the path below a new field runs through objects made on the way
    obtain h | ⟨_, -, h⟩ := bind_eq_error.1 h
    · obtain ⟨q, w, -, -, hw, hobj⟩ := ih h
      cases q with
      | nil => cases hw; cases hobj
      | cons => cases hw
    · cases h
  | case4 d k rest v _ _ sub hfind ih =>
    obtain h | ⟨_, -, h⟩ := bind_eq_error.1 h
    · obtain ⟨q, w, hq, hne, hw, hobj⟩ := ih h
      refine ⟨k :: q, w, (List.prefix_cons_inj k).2 hq, fun h' => hne (List.cons_injective h'), ?_,
        hobj⟩
      rw [at?_obj_cons, hfind]
      exact hw
    · cases h
  | case5 d k v _ _ xs _ _ hfind =>
    refine ⟨[k], .list xs, List.singleton_prefix_cons_iff.2 rfl, by simp, ?_, rfl⟩
    rw [at?_obj_cons, hfind]
    rfl
  | case6 d k v _ other _ hfind _ _ _ | case7 d k _ v _ _ other _ hfind _ =>
    refine ⟨[k], other, List.singleton_prefix_cons_iff.2 rfl, by simp_all, ?_, ?_⟩
    · rw [at?_obj_cons, hfind]
      rfl
    · cases other <;> simp_all [isObj]

end SetPath

end Config.Env

/-! ## Deep unions of one-path trees -/

namespace Value

section Union

variable (lays : List String → Value → Prop)

/-- `q` is the root, or lies strictly above a path of `lays`. -/
def Above (q : List String) : Prop :=
  q = [] ∨ ∃ p x, lays p x ∧ q <+: p ∧ q ≠ p

/-- `q` leads to a path of `lays`: it is a prefix of one. -/
def Reaches (q : List String) : Prop :=
  ∃ p x, lays p x ∧ q <+: p

/-- `v` is the deep union of the one-path trees `p ↦ x` of `lays`: each value stands at its path;
the root and every node above a value are objects whose distinct names are exactly the next steps
towards the values; and nothing else reads, but what lies within a value. -/
structure DeepUnion (v : Value) : Prop where
  leaf : ∀ p x, lays p x → v.at? p = some x
  node : ∀ q, Above lays q → ∃ fs, v.at? q = some (.obj fs) ∧ (fs.map Prod.fst).Nodup ∧
    ∀ k, k ∈ fs.map Prod.fst ↔ Reaches lays (q ++ [k])
  only : ∀ q w, v.at? q = some w → Above lays q ∨ ∃ p x, lays p x ∧ p <+: q

end Union

/-- Two documents are the same nested dict: the same paths read in both, a value that is not an
object reads the same in both, and an object has the same names in both. -/
def SameDict (v w : Value) : Prop :=
  ∀ q, ((v.at? q).isSome ↔ (w.at? q).isSome) ∧
    (∀ u, u.isObj = false → (v.at? q = some u ↔ w.at? q = some u)) ∧
    ∀ k, k ∈ v.namesAt q ↔ k ∈ w.namesAt q

theorem at?_append (v : Value) (p r : List String) : v.at? (p ++ r) = (v.at? p).bind (·.at? r) := by
  induction p generalizing v with
  | nil => rfl
  | cons k p ih =>
    simp only [List.cons_append, at?]
    cases v.get? k with
    | none => rfl
    | some w => exact ih w

theorem namesAt_of_at? {v : Value} {q : List String} {fs : List (String × Value)}
    (h : v.at? q = some (.obj fs)) : v.namesAt q = fs.map Prod.fst := by
  simp [namesAt, h]

theorem namesAt_of_at?_none {v : Value} {q : List String} (h : v.at? q = none) :
    v.namesAt q = [] := by
  simp [namesAt, h]

namespace DeepUnion

variable {lays : List String → Value → Prop} {v : Value}

/-- With no values, the deep union is the empty object. -/
theorem empty : DeepUnion (fun _ _ => False) (.obj []) where
  leaf _ _ h := h.elim
  node q hq := by
    obtain rfl | ⟨_, _, h, -⟩ := hq
    · exact ⟨[], rfl, List.nodup_nil, fun k => by simp [Reaches]⟩
    · exact h.elim
  only q _ h := by
    cases q with
    | nil => exact .inl (.inl rfl)
    | cons => cases h

/-- A path with no value at or above it reads nothing unless it lies above a value. -/
theorem at?_eq_none (hu : DeepUnion lays v) {q : List String} (hq : ¬Above lays q)
    (hleaf : ∀ p x, lays p x → ¬p <+: q) : v.at? q = none := by
  cases h : v.at? q with
  | none => rfl
  | some w =>
    obtain hab | ⟨p, x, hp, hpq⟩ := hu.only q w h
    · exact absurd hab hq
    · exact absurd hpq (hleaf p x hp)

/-- A path with no value at or above it holds exactly the next steps towards the values, with no
name twice. -/
theorem names_iff (hu : DeepUnion lays v) {q : List String} (hleaf : ∀ p x, lays p x → ¬p <+: q) :
    (v.namesAt q).Nodup ∧ ∀ k, k ∈ v.namesAt q ↔ Reaches lays (q ++ [k]) := by
  by_cases hq : Above lays q
  · obtain ⟨fs, hfs, hnd, hnames⟩ := hu.node q hq
    rw [namesAt_of_at? hfs]
    exact ⟨hnd, hnames⟩
  · -- nothing reads at `q`, and no value lies below it
    rw [namesAt_of_at?_none (hu.at?_eq_none hq hleaf)]
    refine ⟨List.nodup_nil, fun k => ⟨fun h => (List.not_mem_nil h).elim, ?_⟩⟩
    rintro ⟨p, x, hp, hqp⟩
    refine absurd (.inr ⟨p, x, hp, (List.prefix_append q [k]).trans hqp, ?_⟩) hq
    rintro rfl
    simpa using hqp.length_le

/-- Two deep unions of the same values are the same nested dict. -/
theorem same {w : Value} (hv : DeepUnion lays v) (hw : DeepUnion lays w) : SameDict v w := by
  intro q
  by_cases hleaf : ∃ p x, lays p x ∧ p <+: q
  · -- at or below a value, both read what the value reads
    obtain ⟨p, x, hp, r, rfl⟩ := hleaf
    have heq : v.at? (p ++ r) = w.at? (p ++ r) := by
      rw [at?_append, at?_append, hv.leaf p x hp, hw.leaf p x hp]
    simp only [heq, namesAt, true_and, implies_true]
  · replace hleaf : ∀ p x, lays p x → ¬p <+: q := fun p x hp hpq => hleaf ⟨p, x, hp, hpq⟩
    by_cases hq : Above lays q
    · -- above the values, both are objects with the same names
      obtain ⟨fs, hfs, -, hf⟩ := hv.node q hq
      obtain ⟨gs, hgs, -, hg⟩ := hw.node q hq
      refine ⟨by simp [hfs, hgs], fun u hu => ?_, fun k => ?_⟩
      · rw [hfs, hgs]
        constructor <;> rintro ⟨⟩ <;> simp [isObj] at hu
      · rw [namesAt_of_at? hfs, namesAt_of_at? hgs, hf, hg]
    · have hv0 := hv.at?_eq_none hq hleaf
      have hw0 := hw.at?_eq_none hq hleaf
      simp [hv0, hw0, namesAt_of_at?_none]

end DeepUnion

end Value

namespace Config.Env

open Value

/-! ## One insertion into a deep union -/

section Insert

variable {lays : List String → Value → Prop} {d : List (String × Value)} {p : List String}
  {x : Value}

theorem prefix_antisymm {p q : List String} (h₁ : p <+: q) (h₂ : q <+: p) : p = q :=
  h₁.eq_of_length (le_antisymm h₁.length_le h₂.length_le)

/-- Two paths: one at or below the other, strictly above it, or apart. -/
theorem prefix_cases (p q : List String) :
    p <+: q ∨ (q <+: p ∧ q ≠ p) ∨ (¬p <+: q ∧ ¬q <+: p) := by
  by_cases h₁ : p <+: q
  · exact .inl h₁
  · by_cases h₂ : q <+: p
    · exact .inr (.inl ⟨h₂, by rintro rfl; exact h₁ h₂⟩)
    · exact .inr (.inr ⟨h₁, h₂⟩)

/-- Nothing but objects stands above a path apart from every value of a deep union, so laying a
value there goes through. -/
theorem setPath_ok_of_apart (hu : DeepUnion lays (.obj d))
    (hapart : ∀ p' x', lays p' x' → ¬p <+: p' ∧ ¬p' <+: p) (x : Value) :
    ∃ d', setPath d p x = .ok d' := by
  have hclear : ∀ q w, q <+: p → q ≠ p → (Value.obj d).at? q = some w → w.isObj = true := by
    intro q w hq hne hw
    obtain hab | ⟨p', x', hp', hpq⟩ := hu.only q w hw
    · obtain ⟨fs, hfs, -⟩ := hu.node q hab
      rw [hfs] at hw
      cases hw
      rfl
    · exact absurd (hpq.trans hq) (hapart p' x' hp').2
  cases hs : setPath d p x with
  | ok d' => exact ⟨d', rfl⟩
  | error f =>
    obtain ⟨q, w, hq, hne, hw, hobj⟩ := setPath_blocked hs
    simp [hclear q w hq hne hw] at hobj

section Laid

variable {d' : List (String × Value)}

/-- After laying a value apart from the others, each node above a value or the new path is an
object naming exactly the next steps towards them. -/
theorem node_setPath (hu : DeepUnion lays (.obj d)) (hp : p ≠ [])
    (hapart : ∀ p' x', lays p' x' → ¬p <+: p' ∧ ¬p' <+: p) (hd' : setPath d p x = .ok d')
    (q : List String) (hq : Above (fun p' x' => lays p' x' ∨ p' = p ∧ x' = x) q) :
    ∃ fs, (Value.obj d').at? q = some (.obj fs) ∧ (fs.map Prod.fst).Nodup ∧
      ∀ k, k ∈ fs.map Prod.fst ↔ Reaches (fun p' x' => lays p' x' ∨ p' = p ∧ x' = x) (q ++ [k]) := by
  rcases prefix_cases p q with hpq | ⟨hqp, hne⟩ | ⟨hpq, hqp⟩
  · -- no node lies above a value and at or below the new path
    exfalso
    obtain rfl | ⟨p', x', hp' | ⟨rfl, rfl⟩, hqp', hne'⟩ := hq
    · exact hp (List.prefix_nil.1 hpq)
    · exact (hapart p' x' hp').1 (hpq.trans hqp')
    · exact hne' (prefix_antisymm hqp' hpq)
  · -- above the new path: the names it had, and the path's next step
    obtain ⟨fs, hfs, hnames, hnd⟩ := at?_setPath_above hd' hqp hne
    obtain ⟨hnd₀, hnames₀⟩ := hu.names_iff fun p' x' hp' h => (hapart p' x' hp').2 (h.trans hqp)
    refine ⟨fs, hfs, hnd hnd₀, fun k => ?_⟩
    rw [hnames, hnames₀]
    constructor
    · rintro (⟨p', x', hp', h⟩ | h)
      · exact ⟨p', x', .inl hp', h⟩
      · exact ⟨p, x, .inr ⟨rfl, rfl⟩, h⟩
    · rintro ⟨p', x', hp' | ⟨rfl, rfl⟩, h⟩
      · exact .inl ⟨p', x', hp', h⟩
      · exact .inr h
  · -- apart from the new path: as before, and no next step leads to it
    have hab : Above lays q := by
      obtain rfl | ⟨p', x', hp' | ⟨rfl, rfl⟩, hqp', hne'⟩ := hq
      · exact absurd List.nil_prefix hqp
      · exact .inr ⟨p', x', hp', hqp', hne'⟩
      · exact absurd hqp' hqp
    obtain ⟨fs, hfs, hnd, hnames⟩ := hu.node q hab
    refine ⟨fs, by rw [at?_setPath_off hd' hpq hqp, hfs], hnd, fun k => ?_⟩
    rw [hnames]
    constructor
    · rintro ⟨p', x', hp', h⟩
      exact ⟨p', x', .inl hp', h⟩
    · rintro ⟨p', x', hp' | ⟨rfl, rfl⟩, h⟩
      · exact ⟨p', x', hp', h⟩
      · exact absurd ((List.prefix_append q [k]).trans h) hqp

/-- After laying a value, what reads lies above a value or the new path, or within one. -/
theorem only_setPath (hu : DeepUnion lays (.obj d)) (hd' : setPath d p x = .ok d')
    (q : List String) (w : Value) (hw : (Value.obj d').at? q = some w) :
    Above (fun p' x' => lays p' x' ∨ p' = p ∧ x' = x) q ∨
      ∃ p' x', (lays p' x' ∨ p' = p ∧ x' = x) ∧ p' <+: q := by
  rcases prefix_cases p q with hpq | ⟨hqp, hne⟩ | ⟨hpq, hqp⟩
  · exact .inr ⟨p, x, .inr ⟨rfl, rfl⟩, hpq⟩
  · exact .inl (.inr ⟨p, x, .inr ⟨rfl, rfl⟩, hqp, hne⟩)
  · rw [at?_setPath_off hd' hpq hqp] at hw
    obtain (rfl | ⟨p', x', hp', h⟩) | ⟨p', x', hp', h⟩ := hu.only q w hw
    · exact .inl (.inl rfl)
    · exact .inl (.inr ⟨p', x', .inl hp', h⟩)
    · exact .inr ⟨p', x', .inl hp', h⟩

end Laid

/-- Laying a value at a path apart from every value of a deep union succeeds, and gives the deep
union with the new value. -/
theorem setPath_deepUnion (hu : DeepUnion lays (.obj d)) (hp : p ≠ [])
    (hapart : ∀ p' x', lays p' x' → ¬p <+: p' ∧ ¬p' <+: p) :
    ∃ d', setPath d p x = .ok d' ∧
      DeepUnion (fun p' x' => lays p' x' ∨ p' = p ∧ x' = x) (.obj d') := by
  obtain ⟨d', hd'⟩ := setPath_ok_of_apart hu hapart x
  refine ⟨d', hd', ⟨?_, node_setPath hu hp hapart hd', only_setPath hu hd'⟩⟩
  -- each value at its path: the old ones are apart from the new path
  rintro p' x' (hp' | ⟨rfl, rfl⟩)
  · rw [at?_setPath_off hd' (hapart p' x' hp').1 (hapart p' x' hp').2]
    exact hu.leaf p' x' hp'
  · have h := at?_setPath_append hd' hp []
    rw [List.append_nil] at h
    exact h

end Insert

/-! ## The variables, one after the other -/

section Fold

theorem splitOnAux_ne_nil (s sep : String) (b i j : String.Pos.Raw) (r : List String) :
    String.splitOnAux s sep b i j r ≠ [] := by
  fun_induction String.splitOnAux s sep b i j r with
  | case1 => simp
  | case2 | case3 | case4 => assumption

theorem splitOn_ne_nil (s sep : String) : s.splitOn sep ≠ [] := by
  unfold String.splitOn
  split
  · simp
  · exact splitOnAux_ne_nil _ _ _ _ _ _

/-- A settings variable's path has at least one step. -/
theorem path?_ne_nil {name : String} {p : List String} (h : path? name = some p) : p ≠ [] := by
  unfold path? at h
  split at h
  · cases h
  · cases h
    exact splitOn_ne_nil _ _

/-- One variable laid over the fields so far: its value read and set at its path, when its name is
a settings variable's. -/
def lay (d : List (String × Value)) : String × String → Except Fault (List (String × Value))
  | (name, value) => match path? name with
    | some parts => do setPath d parts (← parse value)
    | none => pure d

theorem overrides_eq (env : List (String × String)) :
    overrides env = (dedupe env).foldlM lay [] >>= fun fs => pure (.obj fs) := rfl

theorem lay_of_none {d : List (String × Value)} {name : String} (value : String)
    (h : path? name = none) : lay d (name, value) = .ok d := by
  simp only [lay, h]
  rfl

theorem lay_of_some {d : List (String × Value)} {name : String} {p : List String} (value : String)
    (h : path? name = some p) : lay d (name, value) = parse value >>= setPath d p := by
  simp only [lay, h]

/-- The settings the variables lay: a settings variable's path, with its value read. -/
def Lays (env : List (String × String)) (p : List String) (x : Value) : Prop :=
  ∃ e ∈ env, path? e.1 = some p ∧ parse e.2 = .ok x

theorem lays_append_singleton (env : List (String × String)) (e : String × String) :
    Lays (env ++ [e]) = fun p x => Lays env p x ∨ path? e.1 = some p ∧ parse e.2 = .ok x := by
  funext p x
  simp only [Lays, List.mem_append, List.mem_singleton, or_and_right, exists_or, exists_eq_left]

/-- No settings variable's path is a prefix of another's, or the same. -/
def PrefixFree (env : List (String × String)) : Prop :=
  ∀ a ∈ env, ∀ b ∈ env, a ≠ b → ∀ p ∈ path? a.1, ∀ q ∈ path? b.1, ¬p <+: q

/-- What reading the variables `env` gives: the deep union of their settings when every settings
variable's value reads, and a JSON reading limit met by one of the values otherwise. -/
def ReadsAs (env : List (String × String)) : Except Fault Value → Prop
  | .ok v => (∀ e ∈ env, ∀ p ∈ path? e.1, ∃ x, parse e.2 = .ok x) ∧ DeepUnion (Lays env) v
  | .error f => f.JsonLimit ∧ ∃ e ∈ env, (path? e.1).isSome ∧ parse e.2 = .error f

/-- A variable whose name is not among those laid, in a prefix-free environment, has a path apart
from every path laid. -/
theorem apart_of_prefixFree {done vars : List (String × String)} {name value : String}
    {p : List String} (hnd : ((done ++ (name, value) :: vars).map Prod.fst).Nodup)
    (hfree : PrefixFree (done ++ (name, value) :: vars)) (hp : path? name = some p) :
    ∀ p' x', Lays done p' x' → ¬p <+: p' ∧ ¬p' <+: p := by
  rintro p' x' ⟨e', he', hp', -⟩
  have hne : e' ≠ (name, value) := by
    rintro rfl
    rw [List.map_append, List.nodup_append] at hnd
    exact hnd.2.2 _ (List.mem_map_of_mem he') _ (List.mem_map_of_mem List.mem_cons_self) rfl
  have hmem : (name, value) ∈ done ++ (name, value) :: vars := by simp
  have hmem' : e' ∈ done ++ (name, value) :: vars := List.mem_append_left _ he'
  exact ⟨hfree _ hmem _ hmem' hne.symm p hp p' hp', hfree _ hmem' _ hmem hne p' hp' p hp⟩

/-- Laying one variable whose path is apart from those laid keeps the fold's invariant (each
variable laid reads, and the fields are the deep union of their settings), or fails at its value,
past a JSON reading limit. -/
theorem lay_readsAs {done : List (String × String)} {d : List (String × Value)}
    {e : String × String} (hr : ReadsAs done (.ok (.obj d)))
    (hapart : ∀ p ∈ path? e.1, ∀ p' x', Lays done p' x' → ¬p <+: p' ∧ ¬p' <+: p) :
    (∃ d', lay d e = .ok d' ∧ ReadsAs (done ++ [e]) (.ok (.obj d'))) ∨
      ∃ f, lay d e = .error f ∧ f.JsonLimit ∧ (path? e.1).isSome ∧ parse e.2 = .error f := by
  obtain ⟨name, value⟩ := e
  obtain ⟨hread, hu⟩ := hr
  -- the new variable reads, and every variable laid before it still does
  have hread' : (∀ p ∈ path? name, ∃ x, parse value = .ok x) →
      ∀ e ∈ done ++ [(name, value)], ∀ p ∈ path? e.1, ∃ x, parse e.2 = .ok x := by
    intro hnew e he
    rw [List.mem_append, List.mem_singleton] at he
    obtain he | rfl := he
    · exact hread e he
    · exact hnew
  cases hp : path? name with
  | none =>
    refine .inl ⟨d, lay_of_none value hp, hread' (by simp [hp]), ?_⟩
    rw [lays_append_singleton]
    simpa [hp] using hu
  | some p =>
    cases hx : parse value with
    | error f =>
      refine .inr ⟨f, ?_, parse_eq_error hx, rfl, rfl⟩
      rw [lay_of_some value hp, hx]
      rfl
    | ok x =>
      obtain ⟨d', hd', hu'⟩ := setPath_deepUnion hu (path?_ne_nil hp) (hapart p hp)
      refine .inl ⟨d', ?_, hread' (by simp [hx]), ?_⟩
      · rw [lay_of_some value hp, hx]
        exact hd'
      · rw [lays_append_singleton]
        simpa [hp, hx, eq_comm] using hu'

/-- Laid one after the other over a deep union, variables with distinct names and prefix-free paths
read as the deep union of all their settings, or fail at a value past a JSON reading limit. The
induction runs over the variables still to lay; the deep union of those laid carries it. -/
theorem foldlM_lay_readsAs {done vars : List (String × String)} {d : List (String × Value)}
    (hread : ∀ e ∈ done, ∀ p ∈ path? e.1, ∃ x, parse e.2 = .ok x)
    (hu : DeepUnion (Lays done) (.obj d)) (hnd : ((done ++ vars).map Prod.fst).Nodup)
    (hfree : PrefixFree (done ++ vars)) :
    ReadsAs (done ++ vars) (vars.foldlM lay d >>= fun fs => pure (.obj fs)) := by
  induction vars generalizing done d with
  | nil =>
    rw [List.append_nil]
    exact ⟨hread, hu⟩
  | cons e vars ih =>
    have hdone : done ++ e :: vars = (done ++ [e]) ++ vars := by simp
    rw [List.foldlM_cons]
    rcases lay_readsAs ⟨hread, hu⟩ (fun p hp => apart_of_prefixFree hnd hfree hp) with
      ⟨d', hlay, hread', hu'⟩ | ⟨f, hlay, hf, hsome, hx⟩
    · rw [hlay, hdone]
      exact ih hread' hu' (hdone ▸ hnd) (hdone ▸ hfree)
    · rw [hlay]
      exact ⟨hf, e, by simp, hsome, hx⟩

/-- Every value that is not an object in the fields `d` lies at or below the path of one of the
variables `done`. -/
def Covered (done : List (String × String)) (d : List (String × Value)) : Prop :=
  ∀ q w, (Value.obj d).at? q = some w → w.isObj = false →
    ∃ e ∈ done, ∃ p, path? e.1 = some p ∧ p <+: q

/-- Some variable's path properly extends another's. -/
def Extends (env : List (String × String)) : Prop :=
  ∃ a ∈ env, ∃ b ∈ env, ∃ p q, path? a.1 = some p ∧ path? b.1 = some q ∧ p <+: q ∧ p ≠ q

theorem covered_nil : Covered [] [] := by
  intro q w hw hobj
  cases q with
  | nil =>
    cases hw
    cases hobj
  | cons => cases hw

/-- Laying a variable keeps every value that is not an object at or below a laid path. -/
theorem lay_covered {done : List (String × String)} {d d' : List (String × Value)}
    {e : String × String} (hc : Covered done d) (h : lay d e = .ok d') : Covered (done ++ [e]) d' := by
  obtain ⟨name, value⟩ := e
  intro q w hw hobj
  cases hp : path? name with
  | none =>
    rw [lay_of_none value hp] at h
    cases h
    obtain ⟨e, he, p, hpe, hpq⟩ := hc q w hw hobj
    exact ⟨e, List.mem_append_left _ he, p, hpe, hpq⟩
  | some p =>
    rw [lay_of_some value hp] at h
    obtain ⟨x, -, h⟩ := bind_eq_ok.1 h
    rcases prefix_cases p q with hpq | ⟨hqp, hne⟩ | ⟨hpq, hqp⟩
    · exact ⟨(name, value), by simp, p, hp, hpq⟩
    · -- strictly above the new path stand only objects
      obtain ⟨fs, hfs, -⟩ := at?_setPath_above h hqp hne
      rw [hfs] at hw
      cases hw
      cases hobj
    · rw [at?_setPath_off h hpq hqp] at hw
      obtain ⟨e, he, p', hpe, hpq'⟩ := hc q w hw hobj
      exact ⟨e, List.mem_append_left _ he, p', hpe, hpq'⟩

/-- Laying a variable fails at its value, JSON past a reading limit, or on a path through a value
that is not an object, which then properly extends a laid variable's path. -/
theorem lay_eq_error {done : List (String × String)} {d : List (String × Value)}
    {e : String × String} {f : Fault} (hc : Covered done d) (h : lay d e = .error f) :
    (f.JsonLimit ∧ parse e.2 = .error f) ∨ (PathConflict f ∧ ∃ e' ∈ done, ∃ p' p,
      path? e'.1 = some p' ∧ path? e.1 = some p ∧ p' <+: p ∧ p' ≠ p) := by
  obtain ⟨name, value⟩ := e
  cases hp : path? name with
  | none =>
    rw [lay_of_none value hp] at h
    cases h
  | some p =>
    rw [lay_of_some value hp] at h
    obtain h | ⟨x, -, h⟩ := bind_eq_error.1 h
    · exact .inl ⟨parse_eq_error h, h⟩
    · obtain ⟨q, w, hqp, hne, hw, hobj⟩ := setPath_blocked h
      obtain ⟨e', he', p', hpe', hpq'⟩ := hc q w hw hobj
      refine .inr ⟨setPath_eq_error h, e', he', p', p, hpe', rfl, hpq'.trans hqp, ?_⟩
      rintro rfl
      exact hne (prefix_antisymm hqp hpq')

/-- Laid one after the other, variables fail only at a value past a JSON reading limit, or on a
path that properly extends another variable's. -/
theorem foldlM_lay_eq_error {done vars : List (String × String)} {d : List (String × Value)}
    {f : Fault} (hc : Covered done d) (h : vars.foldlM lay d = .error f) :
    (f.JsonLimit ∧ ∃ e ∈ vars, parse e.2 = .error f) ∨ (PathConflict f ∧
      ∃ e' ∈ done ++ vars, ∃ e ∈ vars, ∃ p' p,
        path? e'.1 = some p' ∧ path? e.1 = some p ∧ p' <+: p ∧ p' ≠ p) := by
  induction vars generalizing done d with
  | nil => cases h
  | cons e vars ih =>
    rw [List.foldlM_cons] at h
    cases hl : lay d e with
    | error f' =>
      rw [hl] at h
      cases h
      rcases lay_eq_error hc hl with ⟨hf, he⟩ | ⟨hf, e', he', rest⟩
      · exact .inl ⟨hf, e, List.mem_cons_self, he⟩
      · exact .inr ⟨hf, e', List.mem_append_left _ he', e, List.mem_cons_self, rest⟩
    | ok d' =>
      rw [hl] at h
      rcases ih (lay_covered hc hl) h with ⟨hf, e', he', he⟩ | ⟨hf, e', he', e'', he'', rest⟩
      · exact .inl ⟨hf, e', List.mem_cons_of_mem _ he', he⟩
      · refine .inr ⟨hf, e', ?_, e'', List.mem_cons_of_mem _ he'', rest⟩
        simpa using he'

end Fold

/-! ## Variables named twice -/

section Dedupe

/-- One more variable: its value replaces the value of a variable of the same name in place, or
the variable is added at the end. -/
theorem dedupe_append (env : List (String × String)) (k v : String) :
    dedupe (env ++ [(k, v)]) =
      if (dedupe env).any (·.1 == k) then
        (dedupe env).map fun kv => if kv.1 == k then (kv.1, v) else kv
      else dedupe env ++ [(k, v)] := by
  simp only [dedupe, List.foldl_append, List.foldl_cons, List.foldl_nil]

theorem mem_dedupe {env : List (String × String)} {e : String × String} (h : e ∈ dedupe env) :
    e ∈ env := by
  induction env using List.reverseRecOn generalizing e with
  | nil => cases h
  | append_singleton env kv ih =>
    obtain ⟨k, v⟩ := kv
    rw [dedupe_append] at h
    split at h
    · obtain ⟨e', he', rfl⟩ := List.mem_map.1 h
      by_cases hk : e'.1 = k
      · simp [hk]
      · simp [hk, ih he']
    · rcases List.mem_append.1 h with h | h
      · exact List.mem_append_left _ (ih h)
      · exact List.mem_append_right _ h

theorem dedupe_of_nodup {env : List (String × String)} (h : (env.map Prod.fst).Nodup) :
    dedupe env = env := by
  induction env using List.reverseRecOn with
  | nil => rfl
  | append_singleton env kv ih =>
    obtain ⟨k, v⟩ := kv
    rw [List.map_append, List.nodup_append] at h
    rw [dedupe_append, ih h.1, if_neg]
    -- the new name is none of the earlier ones
    simp only [List.any_eq_true, beq_iff_eq, not_exists, not_and]
    intro e he hek
    exact h.2.2 _ (List.mem_map_of_mem he) _ (List.mem_singleton_self k) hek

end Dedupe

/-! ## Reading the environment -/

section Overrides

variable {env env' : List (String × String)}

theorem lays_nil : Lays [] = fun _ _ => False := by
  funext p x
  simp [Lays]

/-- With distinct names and prefix-free paths, the environment reads as the deep union of its
settings, or fails at a value past a JSON reading limit. -/
theorem overrides_readsAs (hnd : (env.map Prod.fst).Nodup) (hfree : PrefixFree env) :
    ReadsAs env (overrides env) := by
  rw [overrides_eq, dedupe_of_nodup hnd]
  have hu : DeepUnion (Lays []) (.obj []) := by
    rw [lays_nil]
    exact DeepUnion.empty
  simpa using foldlM_lay_readsAs (by simp) hu (by simpa using hnd) (by simpa using hfree)

/-- What reading gives depends on the variables, not on their order. -/
theorem readsAs_of_perm (h : env'.Perm env) {r : Except Fault Value} (hr : ReadsAs env' r) :
    ReadsAs env r := by
  have hlays : Lays env' = Lays env := by
    funext p x
    simp only [Lays, h.mem_iff]
  cases r with
  | ok v => exact ⟨fun e he => hr.1 e (h.mem_iff.2 he), hlays ▸ hr.2⟩
  | error f =>
    obtain ⟨hf, e, he, hrest⟩ := hr
    exact ⟨hf, e, h.mem_iff.1 he, hrest⟩

theorem prefixFree_of_perm (h : env'.Perm env) (hfree : PrefixFree env) : PrefixFree env' :=
  fun a ha b hb => hfree a (h.mem_iff.1 ha) b (h.mem_iff.1 hb)

/-- Reading the environment fails only at a value past a JSON reading limit, or on a path through
a value that is not an object, which properly extends another variable's path. -/
theorem overrides_eq_error_extends {f : Fault} (h : overrides env = .error f) :
    (f.JsonLimit ∧ ∃ e ∈ env, parse e.2 = .error f) ∨ (PathConflict f ∧ Extends env) := by
  rw [overrides_eq] at h
  obtain h | ⟨_, -, h⟩ := bind_eq_error.1 h
  · rcases foldlM_lay_eq_error covered_nil h with ⟨hf, e, he, hx⟩ |
      ⟨hf, e', he', e, he, p', p, hp', hp, hpre, hne⟩
    · exact .inl ⟨hf, e, mem_dedupe he, hx⟩
    · exact .inr ⟨hf, e', mem_dedupe (by simpa using he'), e, mem_dedupe he, p', p, hp', hp, hpre,
        hne⟩
  · cases h

/-- Reading the environment, in every order of its variables. With distinct names and prefix-free
paths it reads as the deep union of the variables' one-path trees, the same nested dict whatever
the order, unless a value is JSON past a reading limit, which fails in every order. Wherever
reading fails, a value is JSON past a reading limit, or a path through a value that is not an object
properly extends another variable's path. -/
theorem overrides_deep_union (env : List (String × String)) :
    ((env.map Prod.fst).Nodup → PrefixFree env →
      ∀ env', env'.Perm env → ReadsAs env (overrides env') ∧
        ∀ v v', overrides env = .ok v → overrides env' = .ok v' → SameDict v v') ∧
    ∀ f, overrides env = .error f →
      (f.JsonLimit ∧ ∃ e ∈ env, parse e.2 = .error f) ∨ (PathConflict f ∧ Extends env) := by
  refine ⟨fun hnd hfree env' hperm => ?_, fun f h => overrides_eq_error_extends h⟩
  have hread' : ReadsAs env (overrides env') :=
    readsAs_of_perm hperm (overrides_readsAs ((hperm.map Prod.fst).nodup_iff.2 hnd)
      (prefixFree_of_perm hperm hfree))
  refine ⟨hread', fun v v' hv hv' => ?_⟩
  have hread := overrides_readsAs hnd hfree
  rw [hv] at hread
  rw [hv'] at hread'
  exact hread.2.same hread'.2

/-- Two settings read in both orders as their deep union, and a text laid where another variable's
path goes on below it fails on that path. -/
theorem overrides_deep_union_of_two_settings :
    let env := [("TRADE_CORE_A", "x"), ("TRADE_CORE_B", "y")]
    let bad := [("TRADE_CORE_A", "x"), ("TRADE_CORE_A__B", "y")]
    ((env.map Prod.fst).Nodup ∧ PrefixFree env ∧ env.reverse.Perm env ∧
      ReadsAs env (overrides env.reverse) ∧
        ∀ v v', overrides env = .ok v → overrides env.reverse = .ok v' → SameDict v v') ∧
    overrides bad = .error (.noItemAssignment "str") ∧
      (((Fault.noItemAssignment "str").JsonLimit ∧
          ∃ e ∈ bad, parse e.2 = .error (.noItemAssignment "str")) ∨
        (PathConflict (.noItemAssignment "str") ∧ Extends bad)) := by
  intro env bad
  -- the paths, computed: the kernel runs the text functions, and `simp` the splitting
  have path_of : ∀ (name lower : String) (ps : List String), name.startsWith "TRADE_CORE_" = true →
      Text.lower (String.ofList (((name.toList.drop 10).dropWhile (· == '_')).reverse.dropWhile
        (· == '_')).reverse) = lower → lower.splitOn "__" = ps → path? name = some ps := by
    intro name lower ps hs hl hps
    rw [path?, if_neg (by simp [hs]), ← hps, ← hl]
  have hA : path? "TRADE_CORE_A" = some ["a"] :=
    path_of _ "a" _ (by decide +kernel) (by decide +kernel)
      (by simp +decide [String.splitOn, String.splitOnAux])
  have hB : path? "TRADE_CORE_B" = some ["b"] :=
    path_of _ "b" _ (by decide +kernel) (by decide +kernel)
      (by simp +decide [String.splitOn, String.splitOnAux])
  have hAB : path? "TRADE_CORE_A__B" = some ["a", "b"] :=
    path_of _ "a__b" _ (by decide +kernel) (by decide +kernel)
      (by simp +decide [String.splitOn, String.splitOnAux])
  -- neither value looks like JSON, so both stay texts
  have hx : parse "x" = .ok (.str "x") := by
    unfold parse
    rw [if_neg (by decide +kernel)]
  have hy : parse "y" = .ok (.str "y") := by
    unfold parse
    rw [if_neg (by decide +kernel)]
  have hnd : (env.map Prod.fst).Nodup := by decide
  have hfree : PrefixFree env := by
    intro a ha b hb hab p hp q hq
    simp only [env, List.mem_cons, List.not_mem_nil, or_false] at ha hb
    simp only [Option.mem_def] at hp hq
    rcases ha with rfl | rfl <;> rcases hb with rfl | rfl
    · exact absurd rfl hab
    · rw [hA] at hp
      rw [hB] at hq
      cases hp
      cases hq
      decide
    · rw [hB] at hp
      rw [hA] at hq
      cases hp
      cases hq
      decide
    · exact absurd rfl hab
  have hbad : overrides bad = .error (.noItemAssignment "str") := by
    rw [overrides_eq, dedupe_of_nodup (by decide)]
    simp only [bad, List.foldlM_cons, lay_of_some _ hA, lay_of_some _ hAB, hx, hy]
    rfl
  exact ⟨⟨hnd, hfree, List.reverse_perm env, (overrides_deep_union env).1 hnd hfree env.reverse
    (List.reverse_perm env)⟩, hbad, (overrides_deep_union bad).2 _ hbad⟩

end Overrides

end Config.Env

end TradeDesk
