import Mathlib
import TradeDesk.Value.Merge

/-!
# The laws of merging documents

`Value.merge?` lays the fields of a changes object onto a base object: where both hold an object
under a name the two merge, and anything else replaces the base's field. On JSON objects (`Json`:
objects with distinct field names, and no mappings, stamps or byte strings anywhere) the merge
always succeeds, and its result `m` obeys four laws (`merge_laws`, packaged as `MergeLaws`):

* merging the same changes again changes nothing (`mergeFields_idem`);
* every value the changes hold that is not an object is in the result at the same path
  (`at?_mergeFields_of_override`);
* a value of the base survives where the changes hold nothing and only objects above it
  (`at?_mergeFields_of_kept`);
* each object of the result has exactly the field names of the base and of the changes at its path
  (`names_mergeFields_at`).

Paths are lists of field names, read by `Value.at?`. One step of the merge sets one field to the
`overlay` of its new value on its old one (`mergeField_eq`); after all steps each field of the
changes holds its overlay and every other field is the base's (`get?_mergeFields_of_get?`,
`get?_mergeFields_of_none`). The laws follow by induction on the path, and idempotence by
induction on the changes as a document (`overlay_absorb`): an overlay laid again changes nothing.
-/

namespace TradeDesk.Value

/-- A JSON document: null, a truth value, a number, a text, a list of documents, or an object whose
field names are distinct and whose values are documents. -/
inductive Json : Value → Prop where
  | null : Json .null
  | bool (b : Bool) : Json (.bool b)
  | num (n : Num) : Json (.num n)
  | str (s : String) : Json (.str s)
  | list {xs : List Value} : (∀ x ∈ xs, Json x) → Json (.list xs)
  | obj {fs : List (String × Value)} : (fs.map Prod.fst).Nodup → (∀ f ∈ fs, Json f.2) →
      Json (.obj fs)

namespace Json

@[simp] theorem of_null : Value.null.Json := .null
@[simp] theorem of_bool (b : Bool) : (Value.bool b).Json := .bool b
@[simp] theorem of_num (n : Num) : (Value.num n).Json := .num n
@[simp] theorem of_str (s : String) : (Value.str s).Json := .str s

@[simp] theorem obj_iff {fs : List (String × Value)} :
    (Value.obj fs).Json ↔ (fs.map Prod.fst).Nodup ∧ ∀ f ∈ fs, f.2.Json :=
  ⟨fun h => by cases h with | obj hnd hfs => exact ⟨hnd, hfs⟩, fun h => .obj h.1 h.2⟩

end Json

/-- Whether a value is an object. -/
def isObj : Value → Bool
  | .obj _ => true
  | _ => false

/-- The value at a path of field names, each looked up in the value reached so far. -/
def at? (v : Value) : List String → Option Value
  | [] => some v
  | k :: p => (v.get? k).bind (·.at? p)

/-- The field names of the object at path `p`; none where no object is there. -/
def namesAt (v : Value) (p : List String) : List String :=
  match v.at? p with
  | some (.obj fs) => fs.map Prod.fst
  | _ => []

/-- The value a field takes when `v` is laid over its old value: an object laid over an object (or
a mapping) merges into it, and anything else replaces it. -/
def overlay (old : Option Value) : Value → Value
  | .obj o => match old with
    | some (.obj b) => .obj (mergeFields b o)
    | some (.map b) => ofEntries (mergeEntries b o)
    | _ => .obj o
  | v => v

/-! ## Fields of an object -/

section Fields

variable {fs : List (String × Value)}

theorem get?_obj (k : String) : (Value.obj fs).get? k = (fs.find? (·.1 == k)).map (·.2) := rfl

@[simp] theorem get?_nil (k : String) : (Value.obj []).get? k = none := rfl

theorem get?_cons (k' : String) (v' : Value) (k : String) :
    (Value.obj ((k', v') :: fs)).get? k = if k' = k then some v' else (Value.obj fs).get? k := by
  by_cases h : k' = k
  · simp [get?, h]
  · simp [get?, h]

/-- A field found by name is a field of the object. -/
theorem mem_of_get? {k : String} {v : Value} (h : (Value.obj fs).get? k = some v) : (k, v) ∈ fs := by
  obtain ⟨f, hf, rfl⟩ := Option.map_eq_some_iff.1 h
  have hk : f.1 = k := by simpa using List.find?_some hf
  rw [← hk]
  exact List.mem_of_find?_eq_some hf

/-- With distinct names, each field is what its name finds. -/
theorem get?_of_mem (hnd : (fs.map Prod.fst).Nodup) {f : String × Value} (hf : f ∈ fs) :
    (Value.obj fs).get? f.1 = some f.2 := by
  cases hg : fs.find? (·.1 == f.1) with
  | none => exact absurd (by simp) (List.find?_eq_none.1 hg f hf)
  | some g =>
    have hgf : g.1 = f.1 := by simpa using List.find?_some hg
    have := List.inj_on_of_nodup_map hnd (List.mem_of_find?_eq_some hg) hf hgf
    simp [get?_obj, hg, this]

/-- Setting field `a` changes what `a` finds and nothing else. -/
theorem get?_setField (a k : String) (x : Value) :
    (Value.obj (setField fs a x)).get? k = if a = k then some x else (Value.obj fs).get? k := by
  unfold setField
  split
  · next h =>
    simp only [get?, List.find?_map]
    -- renaming the fields named `a` keeps every name, so the search runs over `fs` itself
    have hcomp : ((·.1 == k) ∘ fun f : String × Value => if f.1 == a then (a, x) else f) =
        (·.1 == k) := by
      funext f
      by_cases hf : f.1 = a
      · simp [hf]
      · simp [hf]
    rw [hcomp]
    split_ifs with hak
    · subst hak
      cases hg : fs.find? (·.1 == a) with
      | none =>
        obtain ⟨f, hf, hfa⟩ := List.any_eq_true.1 h
        exact absurd hfa (List.find?_eq_none.1 hg f hf)
      | some g =>
        have hga : g.1 = a := by simpa using List.find?_some hg
        simp [hga]
    · cases hg : fs.find? (·.1 == k) with
      | none => rfl
      | some g =>
        have hgk : g.1 = k := by simpa using List.find?_some hg
        simp [hgk, Ne.symm hak]
  · next h =>
    simp only [get?, List.find?_append]
    split_ifs with hak
    · subst hak
      have hnone : fs.find? (·.1 == a) = none :=
        List.find?_eq_none.2 fun f hf hfa => h (List.any_eq_true.2 ⟨f, hf, hfa⟩)
      simp [hnone]
    · cases fs.find? (·.1 == k) <;> simp [hak]

/-- Setting a field keeps the names, adding `a` at the end when it is new. -/
theorem names_setField (a : String) (x : Value) :
    (setField fs a x).map Prod.fst =
      if fs.any (·.1 == a) then fs.map Prod.fst else fs.map Prod.fst ++ [a] := by
  unfold setField
  split
  · rw [List.map_map]
    refine List.map_congr_left fun f _ => ?_
    by_cases hf : f.1 = a
    · simp [hf]
    · simp [hf]
  · simp

theorem mem_names_setField (a k : String) (x : Value) :
    k ∈ (setField fs a x).map Prod.fst ↔ k = a ∨ k ∈ fs.map Prod.fst := by
  rw [names_setField]
  split
  · next h =>
    obtain ⟨f, hf, hfa⟩ := List.any_eq_true.1 h
    have ha : a ∈ fs.map Prod.fst := List.mem_map.2 ⟨f, hf, by simpa using hfa⟩
    constructor
    · exact Or.inr
    · rintro (rfl | hk)
      · exact ha
      · exact hk
  · simp [or_comm]

theorem nodup_setField (hnd : (fs.map Prod.fst).Nodup) (a : String) (x : Value) :
    ((setField fs a x).map Prod.fst).Nodup := by
  rw [names_setField]
  split
  · exact hnd
  · next h =>
    refine List.nodup_append.2 ⟨hnd, List.nodup_singleton a, ?_⟩
    intro k hk c hc hkc
    rw [List.mem_singleton] at hc
    obtain ⟨f, hf, rfl⟩ := List.mem_map.1 hk
    exact h (List.any_eq_true.2 ⟨f, hf, by simp [hkc, hc]⟩)

/-- Setting a field to the value it already has changes nothing, when names are distinct. -/
theorem setField_eq_self (hnd : (fs.map Prod.fst).Nodup) {a : String} {x : Value}
    (h : (Value.obj fs).get? a = some x) : setField fs a x = fs := by
  have hmem := mem_of_get? h
  have hany : fs.any (·.1 == a) = true := List.any_eq_true.2 ⟨(a, x), hmem, by simp⟩
  rw [setField, if_pos hany]
  refine (List.map_congr_left fun f hf => ?_).trans (List.map_id fs)
  by_cases hfa : f.1 = a
  · -- the only field named `a` is `(a, x)`
    have := List.inj_on_of_nodup_map hnd hf hmem hfa
    simp [this]
  · simp [hfa]

end Fields

/-- The field named `k` of a JSON object is JSON. -/
theorem Json.get? {fs : List (String × Value)} (h : (Value.obj fs).Json) {k : String} {w : Value}
    (hw : (Value.obj fs).get? k = some w) : w.Json :=
  (Json.obj_iff.1 h).2 _ (mem_of_get? hw)

theorem Json.names {fs : List (String × Value)} (h : (Value.obj fs).Json) :
    (fs.map Prod.fst).Nodup :=
  (Json.obj_iff.1 h).1

/-! ## One step of the merge, and all of them -/

/-- One step sets the field to the overlay of the new value on the old one. -/
theorem mergeField_eq (fs : List (String × Value)) (k : String) (v : Value) :
    mergeField fs k v = setField fs k (overlay ((Value.obj fs).get? k) v) := by
  cases v with
  | obj o =>
    rw [mergeField, get?]
    generalize fs.find? (·.1 == k) = found
    rcases found with _ | ⟨_, w⟩
    · rfl
    · cases w <;> rfl
  | _ => rfl

theorem mergeFields_cons (b : List (String × Value)) (k : String) (v : Value)
    (o : List (String × Value)) :
    mergeFields b ((k, v) :: o) = mergeFields (mergeField b k v) o := by
  rw [mergeFields]

/-- A field the changes do not name is the base's. -/
theorem get?_mergeFields_of_none (b : List (String × Value)) {o : List (String × Value)}
    {k : String} (hk : (Value.obj o).get? k = none) :
    (Value.obj (mergeFields b o)).get? k = (Value.obj b).get? k := by
  induction o generalizing b with
  | nil => rfl
  | cons f o ih =>
    obtain ⟨k', v'⟩ := f
    rw [get?_cons] at hk
    split_ifs at hk with hk'
    rw [mergeFields_cons, mergeField_eq, ih _ hk, get?_setField, if_neg hk']

/-- A field the changes name holds the overlay of the change on the base's field, when the
changes name each field once. -/
theorem get?_mergeFields_of_get? (b : List (String × Value)) {o : List (String × Value)}
    (ho : (o.map Prod.fst).Nodup) {k : String} {v : Value} (hv : (Value.obj o).get? k = some v) :
    (Value.obj (mergeFields b o)).get? k = some (overlay ((Value.obj b).get? k) v) := by
  induction o generalizing b with
  | nil => simp at hv
  | cons f o ih =>
    obtain ⟨k', v'⟩ := f
    rw [List.map_cons, List.nodup_cons] at ho
    rw [mergeFields_cons, mergeField_eq]
    rw [get?_cons] at hv
    split_ifs at hv with hk
    · -- the step on `k` is the last to touch it
      subst hk
      cases hv
      have hrest : (Value.obj o).get? k' = none := by
        rw [get?_obj, Option.map_eq_none_iff, List.find?_eq_none]
        exact fun f hf hfk => ho.1 (List.mem_map.2 ⟨f, hf, by simpa using hfk⟩)
      rw [get?_mergeFields_of_none _ hrest, get?_setField, if_pos rfl]
    · rw [ih _ ho.2 hv, get?_setField, if_neg hk]

/-- The merged object has the names of both. -/
theorem mem_names_mergeFields (b o : List (String × Value)) (k : String) :
    k ∈ (mergeFields b o).map Prod.fst ↔ k ∈ b.map Prod.fst ∨ k ∈ o.map Prod.fst := by
  induction o generalizing b with
  | nil => simp [mergeFields]
  | cons f o ih =>
    obtain ⟨k', v'⟩ := f
    rw [mergeFields_cons, mergeField_eq, ih, mem_names_setField, List.map_cons, List.mem_cons]
    tauto

theorem nodup_mergeFields {b : List (String × Value)} (hb : (b.map Prod.fst).Nodup)
    (o : List (String × Value)) : ((mergeFields b o).map Prod.fst).Nodup := by
  induction o generalizing b with
  | nil => exact hb
  | cons f o ih =>
    obtain ⟨k', v'⟩ := f
    rw [mergeFields_cons, mergeField_eq]
    exact ih (nodup_setField hb _ _)

/-- Changes that would only set fields to the values they hold change nothing. -/
theorem mergeFields_fixed {m : List (String × Value)} (hm : (m.map Prod.fst).Nodup)
    {o : List (String × Value)}
    (h : ∀ f ∈ o, ∃ w, (Value.obj m).get? f.1 = some w ∧ overlay (some w) f.2 = w) :
    mergeFields m o = m := by
  induction o with
  | nil => rfl
  | cons f o ih =>
    obtain ⟨w, hw, hlay⟩ := h f List.mem_cons_self
    obtain ⟨k, v⟩ := f
    rw [mergeFields_cons, mergeField_eq, hw, hlay, setField_eq_self hm hw]
    exact ih fun g hg => h g (List.mem_cons_of_mem _ hg)

/-! ## Overlays of documents -/

section Overlay

variable {v : Value}

@[simp] theorem overlay_none (v : Value) : overlay none v = v := by
  cases v <;> rfl

theorem overlay_of_isObj (h : v.isObj = false) (old : Option Value) : overlay old v = v := by
  cases v with
  | obj o => simp [isObj] at h
  | _ => rfl

theorem exists_of_isObj (h : v.isObj = true) : ∃ o, v = .obj o := by
  cases v with
  | obj o => exact ⟨o, rfl⟩
  | _ => simp [isObj] at h

/-- What a JSON value laid over an object is: the merge with the base's fields when the old value
is an object, and the new object itself when it is anything else JSON. -/
theorem overlay_obj (o : List (String × Value)) {old : Option Value}
    (hold : ∀ w, old = some w → w.Json) :
    (∃ bs, old = some (.obj bs) ∧ overlay old (.obj o) = .obj (mergeFields bs o)) ∨
      ((∀ bs, old ≠ some (.obj bs)) ∧ overlay old (.obj o) = .obj o) := by
  rcases old with _ | w
  · exact .inr ⟨by simp, rfl⟩
  · cases w with
    | obj bs => exact .inl ⟨bs, rfl, rfl⟩
    | map es => nomatch hold _ rfl
    | _ => exact .inr ⟨by simp, rfl⟩

/-- A JSON value below its top has a path only through objects. -/
theorem at?_cons_of_isObj {w : Value} (hw : w.Json) (h : w.isObj = false) (k : String)
    (p : List String) : w.at? (k :: p) = none := by
  cases hw with
  | obj => simp [isObj] at h
  | _ => rfl

theorem namesAt_of_isObj {w : Value} (hw : w.Json) (h : w.isObj = false) (p : List String) :
    w.namesAt p = [] := by
  cases p with
  | nil =>
    cases hw with
    | obj => simp [isObj] at h
    | _ => rfl
  | cons k p => simp [namesAt, at?_cons_of_isObj hw h]

theorem namesAt_cons (w : Value) (k : String) (p : List String) :
    w.namesAt (k :: p) = ((w.get? k).map (·.namesAt p)).getD [] := by
  rw [namesAt, at?]
  cases w.get? k <;> rfl

/-- Laying a JSON value again over its own overlay changes nothing. -/
theorem overlay_absorb (hv : v.Json) :
    ∀ old : Option Value, (∀ w, old = some w → w.Json) →
      overlay (some (overlay old v)) v = overlay old v := by
  induction hv with
  | obj hnd hfs ih =>
    rename_i os
    intro old hold
    -- after the merge each field of `os` holds its overlay, which laying it again keeps
    rcases overlay_obj os hold with ⟨bs, rfl, hlay⟩ | ⟨_, hlay⟩
    · have hbs := hold _ rfl
      cases hbs with
      | obj hbnd hbfs =>
        rw [hlay]
        show Value.obj (mergeFields (mergeFields bs os) os) = _
        congr 1
        refine mergeFields_fixed (nodup_mergeFields hbnd os) fun f hf => ?_
        refine ⟨_, get?_mergeFields_of_get? bs hnd (get?_of_mem hnd hf), ih f hf _ ?_⟩
        intro w hw
        exact hbfs _ (mem_of_get? hw)
    · rw [hlay]
      show Value.obj (mergeFields os os) = _
      congr 1
      refine mergeFields_fixed hnd fun f hf => ⟨f.2, get?_of_mem hnd hf, ?_⟩
      simpa using ih f hf none (by simp)
  | _ => intro old _; rfl

end Overlay

/-! ## The four laws -/

section Laws

variable {b o : List (String × Value)}

/-- Merging the same changes twice is merging them once. -/
theorem mergeFields_idem (hb : (Value.obj b).Json) (ho : (Value.obj o).Json) :
    mergeFields (mergeFields b o) o = mergeFields b o := by
  have h := overlay_absorb ho (some (.obj b)) fun w hw => by cases hw; exact hb
  simpa [overlay] using h

/-- Every value of the changes that is not an object is in the result at the same path. -/
theorem at?_mergeFields_of_override (hb : (Value.obj b).Json) (ho : (Value.obj o).Json)
    {p : List String} {v : Value} (hv : (Value.obj o).at? p = some v) (hobj : v.isObj = false) :
    (Value.obj (mergeFields b o)).at? p = some v := by
  induction p generalizing b o with
  | nil =>
    cases hv
    simp [isObj] at hobj
  | cons k p ih =>
    obtain ⟨w, hw, hwp⟩ := Option.bind_eq_some_iff.1 hv
    rw [at?, get?_mergeFields_of_get? b ho.names hw, Option.bind_some]
    cases hwo : w.isObj
    · rwa [overlay_of_isObj hwo]
    · -- an object of the changes merges into the base's object, or stands for itself
      obtain ⟨os, rfl⟩ := exists_of_isObj hwo
      rcases overlay_obj os (fun u hu => hb.get? hu) with ⟨bs, hbs, hlay⟩ | ⟨_, hlay⟩
      · rw [hlay]
        exact ih (hb.get? hbs) (ho.get? hw) hwp
      · rwa [hlay]

/-- A value of the base survives where the changes hold nothing at its path and hold only objects
at every path above it. -/
theorem at?_mergeFields_of_kept (hb : (Value.obj b).Json) (ho : (Value.obj o).Json)
    {p : List String} {v : Value} (hv : (Value.obj b).at? p = some v)
    (hnone : (Value.obj o).at? p = none)
    (habove : ∀ q w, q <+: p → q ≠ p → (Value.obj o).at? q = some w → w.isObj = true) :
    (Value.obj (mergeFields b o)).at? p = some v := by
  induction p generalizing b o with
  | nil => simp [at?] at hnone
  | cons k p ih =>
    obtain ⟨bw, hbw, hbwp⟩ := Option.bind_eq_some_iff.1 hv
    rw [at?]
    cases how : (Value.obj o).get? k with
    | none => rwa [get?_mergeFields_of_none b how, hbw, Option.bind_some]
    | some ow =>
      -- the changes hold an object at `k`, strictly above the end of the path
      have hnone' : ow.at? p = none := by simpa [at?, how] using hnone
      have hp : p ≠ [] := by
        rintro rfl
        simp [at?] at hnone'
      have howo : ow.isObj = true :=
        habove [k] ow (List.singleton_prefix_cons_iff.2 rfl) (by simpa using hp.symm)
          (by simp [at?, how])
      -- and so does the base, whose path goes on below `k`
      have hbwo : bw.isObj = true := by
        by_contra hne
        obtain ⟨k', p', rfl⟩ := List.exists_cons_of_ne_nil hp
        rw [at?_cons_of_isObj (hb.get? hbw) (by simpa using hne)] at hbwp
        cases hbwp
      obtain ⟨os, rfl⟩ := exists_of_isObj howo
      obtain ⟨bs, rfl⟩ := exists_of_isObj hbwo
      rw [get?_mergeFields_of_get? b ho.names how, hbw, Option.bind_some]
      show (Value.obj (mergeFields bs os)).at? p = some v
      refine ih (hb.get? hbw) (ho.get? how) hbwp hnone' fun q w hq hqp hw => habove (k :: q) w ?_ ?_ ?_
      · exact (List.prefix_cons_inj k).2 hq
      · simpa using hqp
      · simpa [at?, how] using hw

/-- Each object of the result has the field names of the base and of the changes at its path. -/
theorem names_mergeFields_at (hb : (Value.obj b).Json) (ho : (Value.obj o).Json)
    {p : List String} {fs : List (String × Value)}
    (h : (Value.obj (mergeFields b o)).at? p = some (.obj fs)) (k : String) :
    k ∈ fs.map Prod.fst ↔ k ∈ (Value.obj b).namesAt p ∨ k ∈ (Value.obj o).namesAt p := by
  induction p generalizing b o with
  | nil =>
    simp only [at?, Option.some.injEq, Value.obj.injEq] at h
    subst h
    exact mem_names_mergeFields b o k
  | cons k0 p ih =>
    rw [namesAt_cons, namesAt_cons]
    obtain ⟨mv, hmv, hmvp⟩ := Option.bind_eq_some_iff.1 h
    cases how : (Value.obj o).get? k0 with
    | none =>
      rw [get?_mergeFields_of_none b how] at hmv
      simp [hmv, namesAt, hmvp]
    | some ow =>
      rw [get?_mergeFields_of_get? b ho.names how] at hmv
      cases hmv
      have howj := ho.get? how
      cases hwo : ow.isObj
      · -- a change that is not an object has no object at or below it
        rw [overlay_of_isObj hwo] at hmvp
        cases p with
        | nil =>
          cases hmvp
          simp [isObj] at hwo
        | cons k' p' =>
          rw [at?_cons_of_isObj howj hwo] at hmvp
          cases hmvp
      · obtain ⟨os, rfl⟩ := exists_of_isObj hwo
        rcases overlay_obj os (fun u hu => hb.get? hu) with ⟨bs, hbs, hlay⟩ | ⟨hnb, hlay⟩
        · rw [hlay] at hmvp
          simpa [hbs] using ih (hb.get? hbs) howj hmvp
        · -- the base holds no object at `k0`, so no names below it
          rw [hlay] at hmvp
          have hbnames : (((Value.obj b).get? k0).map (·.namesAt p)).getD [] = [] := by
            cases hbk : (Value.obj b).get? k0 with
            | none => rfl
            | some bw =>
              have hbwo : bw.isObj = false := by
                cases bw with
                | obj bs => exact absurd hbk (hnb bs)
                | _ => rfl
              simpa using namesAt_of_isObj (hb.get? hbk) hbwo p
          rw [hbnames]
          simp [namesAt, hmvp]

/-- On two objects the merge of documents is the merge of their fields, and never fails. -/
theorem merge?_obj (b o : List (String × Value)) :
    merge? (.obj b) (.obj o) = .ok (.obj (mergeFields b o)) := by
  induction o generalizing b with
  | nil => rfl
  | cons f o ih =>
    obtain ⟨k, v⟩ := f
    rw [mergeFields_cons, ← ih]
    rfl

end Laws

/-- The laws of a merge of the changes `o` into the base `b` whose result is `m`. -/
structure MergeLaws (b o m : Value) : Prop where
  /-- Merging the same changes again changes nothing. -/
  idempotent : merge? m o = .ok m
  /-- Every value of the changes that is not an object is in the result at the same path. -/
  overrides : ∀ p v, o.at? p = some v → v.isObj = false → m.at? p = some v
  /-- A value of the base survives where the changes hold nothing at its path and only objects
  above it. -/
  kept : ∀ p v, b.at? p = some v → o.at? p = none →
    (∀ q w, q <+: p → q ≠ p → o.at? q = some w → w.isObj = true) → m.at? p = some v
  /-- Every object of the result has the field names of the base and of the changes at its
  path. -/
  names : ∀ p fs, m.at? p = some (.obj fs) →
    ∀ k, k ∈ fs.map Prod.fst ↔ k ∈ b.namesAt p ∨ k ∈ o.namesAt p

/-- Merging JSON objects always succeeds, and the result obeys the four laws. -/
theorem merge_laws (b o : List (String × Value)) (hb : (Value.obj b).Json)
    (ho : (Value.obj o).Json) : ∃ m, merge? (.obj b) (.obj o) = .ok m ∧ MergeLaws (.obj b) (.obj o) m :=
  ⟨_, merge?_obj b o,
    { idempotent := by rw [merge?_obj, mergeFields_idem hb ho]
      overrides := fun _ _ hv hobj => at?_mergeFields_of_override hb ho hv hobj
      kept := fun _ _ hv hnone habove => at?_mergeFields_of_kept hb ho hv hnone habove
      names := fun _ _ h k => names_mergeFields_at hb ho h k }⟩

/-- An override of the routing slippage and a new sizing section, merged into settings that hold
a routing section and a bankroll. -/
theorem merge_laws_over_router_settings :
    let b : List (String × Value) :=
      [("router", .obj [("mode", .str "balanced"), ("max_slippage", .int 1)]),
        ("initial_bankroll", .int 1000)]
    let o : List (String × Value) :=
      [("router", .obj [("max_slippage", .int 2)]), ("sizing", .obj [("max_kelly", .int 1)])]
    (Value.obj b).Json ∧ (Value.obj o).Json ∧
      ∃ m, merge? (.obj b) (.obj o) = .ok m ∧ MergeLaws (.obj b) (.obj o) m := by
  intro b o
  have hb : (Value.obj b).Json := by simp [b, Value.int]
  have ho : (Value.obj o).Json := by simp [o, Value.int]
  exact ⟨hb, ho, merge_laws b o hb ho⟩

end TradeDesk.Value
