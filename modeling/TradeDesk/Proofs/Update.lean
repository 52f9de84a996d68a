import Mathlib
import TradeDesk.Proofs.Overrides
import TradeDesk.Routing.Desk

/-!
# Updating a router configuration

`RouterConfig.update` writes the changes over the configuration's own fields (`fields false`) and
validates the result. `RouterConfig.Reads base doc c` says field by field what a section gives:
each of the ten fields of `c` is what its check makes of the value `doc` holds for it, and
`base`'s value where `doc` holds none. Validation is `Reads` over the standard configuration
(`validate_eq_ok`).

An update keeps the fields that no change names because every check reads back its own output:
a mode's name is that mode (`modeField_name`), a list of venue names is those venues
(`venuesField_names`), and a number that passed its bounds passes them again (`floatField_self`,
`intField_self`). So the fields of a valid configuration validate to it (`reads_fields`), and
over them the changes are read exactly as `Reads` says (`update_eq_ok`). A desk refuses a change
named `self` before it reads anything; when the update fails the desk is not replaced.
-/

namespace TradeDesk

/-! ## Names read back

The names of modes and venues are plain lower-case texts: trimming and lower-casing keep them,
and each finds what it names. -/

section Names

/-- A text holds a lone surrogate when one of its characters is one. -/
theorem Unicode.hasSurrogate_eq (s : String) :
    Unicode.hasSurrogate s = s.toList.any fun ch => (Unicode.surrogateOf? ch).isSome := by
  rw [Unicode.hasSurrogate, String.any, String.contains_bool_eq]

theorem Mode.hasSurrogate_name (m : Mode) : Unicode.hasSurrogate m.name = false := by
  rw [Unicode.hasSurrogate_eq]
  cases m <;> decide +kernel

theorem Mode.lower_trim_name (m : Mode) : Text.lower (Text.trim m.name) = m.name := by
  cases m <;> decide +kernel

theorem Mode.ofName?_name (m : Mode) : Mode.ofName? m.name = some m := by
  cases m <;> decide +kernel

theorem Venue.lower_trim_name (p : Venue) : Text.lower (Text.trim p.name) = p.name := by
  cases p <;> decide +kernel

theorem Venue.ofName?_name (p : Venue) : Venue.ofName? p.name = some p := by
  cases p <;> decide +kernel

/-- A venue's name resolves to that venue. -/
theorem Venue.resolve_name (p : Venue) : Venue.resolve (.str p.name) = .ok p := by
  simp only [Venue.resolve, Value.plain, Venue.lower_trim_name, Venue.ofName?_name]

end Names

namespace Value

/-- A section without a field named `a` finds nothing under `a`. -/
theorem get?_eq_none {fs : List (String × Value)} {a : String} (h : a ∉ fs.map Prod.fst) :
    (Value.obj fs).get? a = none := by
  rw [get?_obj, Option.map_eq_none_iff, List.find?_eq_none]
  intro f hf hfa
  exact h (List.mem_map.2 ⟨f, hf, by simpa using hfa⟩)

/-- Writing distinct changes over a section, a name finds the change's value if a change has it,
and the section's otherwise. -/
theorem get?_foldl_setField {ch : List (String × Value)} (hch : (ch.map Prod.fst).Nodup)
    (fs : List (String × Value)) (k : String) :
    (Value.obj (ch.foldl (fun acc (a, x) => setField acc a x) fs)).get? k =
      ((Value.obj ch).get? k).or ((Value.obj fs).get? k) := by
  -- the induction is on the changes; the section they are written over varies
  induction ch generalizing fs with
  | nil => simp
  | cons e ch ih =>
    obtain ⟨a, x⟩ := e
    rw [List.map_cons, List.nodup_cons] at hch
    rw [List.foldl_cons, ih hch.2, get?_setField, get?_cons]
    by_cases hak : a = k
    · subst hak
      simp [get?_eq_none hch.1]
    · simp [hak]

end Value

namespace RouterConfig

open Config

section Checks

variable {bounds : List Bound} {v : Value}

/-- A whole number a field check accepts passes the field's bounds. -/
theorem intField_bounds {n : Int} (h : intField bounds v = .ok n) :
    checkBounds bounds (.int n) = none := by
  obtain ⟨m, -, h⟩ := bind_eq_ok.1 h
  split at h
  · cases h
  · next hb =>
    cases h
    exact hb

/-- A whole number that passed its bounds passes them again. -/
theorem intField_self {n : Int} (h : intField bounds v = .ok n) :
    intField bounds (.int n) = .ok n := by
  simp only [intField, wholeValue, Value.int, pure_bind, intField_bounds h]
  rfl

/-- A binary64 value that passed its bounds, as a field check accepts it. -/
theorem floatField_bounds {x : Num} (h : floatField bounds v = .ok x) :
    ∃ y, x = .float y ∧ checkBounds bounds (.float y) = none := by
  obtain ⟨y, -, h⟩ := bind_eq_ok.1 h
  split at h
  · cases h
  · next hb =>
    cases h
    exact ⟨y, rfl, hb⟩

/-- A binary64 value within the bounds is accepted as it is. -/
theorem floatField_float {y : Float} (hb : checkBounds bounds (.float y) = none) :
    floatField bounds (.num (.float y)) = .ok (.float y) := by
  simp only [floatField, floatValue, Num.toFloat?, pure_bind, hb]
  rfl

/-- A number that passed its bounds passes them again. -/
theorem floatField_self {x : Num} (h : floatField bounds v = .ok x) :
    floatField bounds (.num x) = .ok x := by
  obtain ⟨y, rfl, hb⟩ := floatField_bounds h
  exact floatField_float hb

/-- A truth value is read as itself. -/
theorem boolField_bool (b : Bool) : boolField (.bool b) = .ok b := rfl

/-- A mode's name is read as that mode. -/
theorem modeField_name (m : Mode) : modeField (.str m.name) = .ok m := by
  simp only [modeField, Mode.hasSurrogate_name, Mode.lower_trim_name, Mode.ofName?_name]
  rfl

/-- A list of venue names is read as those venues. -/
theorem venuesField_names (ps : List Venue) :
    venuesField (.list (ps.map fun p => .str p.name)) = .ok (.ok (some ps)) := by
  have hps : (ps.map fun p => Value.str p.name).mapM Venue.resolve = .ok ps := by
    induction ps with
    | nil => rfl
    | cons p ps ih =>
      simp only [List.map_cons, List.mapM_cons, Venue.resolve_name, ih]
      rfl
  simp only [venuesField, Value.items?, hps]

end Checks

/-! ## Fields read from a section -/

section Fields

variable {β : Type} {doc : Value} {k : String} {d x : β} {check : Value → Except Problem β}

/-- A field reads as its default when the section does not hold it, and otherwise as the check
of the value it holds. -/
theorem field_eq_ok (h : field doc k d check = .ok x) :
    (doc.get? k = none ∧ x = d) ∨ ∃ w, doc.get? k = some w ∧ check w = .ok x := by
  unfold field at h
  split at h
  · next hk =>
    cases h
    exact .inl ⟨hk, rfl⟩
  · next w hk =>
    refine .inr ⟨w, hk, ?_⟩
    cases hw : check w with
    | error p => rw [hw] at h; cases h
    | ok y => rw [hw] at h; cases h; rfl

/-- A section that holds `w` for `k`, with `w` read as `x`, reads `x` there. -/
theorem field_of_get? {w : Value} (hk : doc.get? k = some w) (hw : check w = .ok x) (d : β) :
    field doc k d check = .ok x := by
  simp only [field, hk, hw]
  rfl

/-- A field reads back its own value when its check reads back its own output (written by `enc`)
and the default passes. -/
theorem field_self {enc : β → Value} (hself : ∀ w y, check w = .ok y → check (enc y) = .ok y)
    (hd : check (enc d) = .ok d) (h : field doc k d check = .ok x) : check (enc x) = .ok x := by
  rcases field_eq_ok h with ⟨-, rfl⟩ | ⟨w, -, hw⟩
  · exact hd
  · exact hself w x hw

/-- Over a document that holds some value for `k` under the changes `ch`, a field reads as the
changes' own field over what that value reads as. -/
theorem field_overlay {D B ch : Value} (hD : D.get? k = (ch.get? k).or (B.get? k))
    (hB : (B.get? k).isSome) {d₀ : β} (hx : field B k d₀ check = .ok x) (d : β) :
    field D k d check = field ch k x check := by
  obtain ⟨w, hw⟩ := Option.isSome_iff_exists.1 hB
  unfold field at hx ⊢
  rw [hD, hw]
  rw [hw] at hx
  cases ch.get? k with
  | none => exact hx
  | some u => rfl

/-- A whole-number field whose default is natural and whose bounds pass only naturals reads a
natural. -/
theorem field_toNat {m : Nat} {n : Int} (hb : ∀ n, checkBounds bounds (.int n) = none → 0 ≤ n)
    (h : field doc k (m : Int) (intField bounds) = .ok n) :
    field doc k (m : Int) (intField bounds) = .ok (n.toNat : Int) := by
  rcases field_eq_ok h with ⟨-, rfl⟩ | ⟨w, -, hw⟩
  · simpa using h
  · rw [Int.toNat_of_nonneg (hb n (intField_bounds hw))]
    exact h

end Fields

/-- The bound on the venue count passes only naturals. -/
theorem nonneg_of_ge_two {n : Int} (h : checkBounds [.ge (.int 2)] (.int n) = none) : 0 ≤ n := by
  simp [checkBounds, Bound.check, Num.le, Num.order, compare_lt_iff_lt] at h
  omega

/-- The bound on the time limits passes only naturals. -/
theorem nonneg_of_gt_zero {n : Int} (h : checkBounds [.gt (.int 0)] (.int n) = none) : 0 ≤ n := by
  simp [checkBounds, Bound.check, Num.lt, Num.order, compare_lt_iff_lt] at h
  omega

/-- The enabled venues a section gives: the check of the value it holds, or `base` where it holds
none. -/
def venuesIn (doc : Value) (base : Option (List Venue)) :
    Except Refusal (Except Problem (Option (List Venue))) :=
  match doc.get? "enabled_platforms" with
  | none => .ok (.ok base)
  | some w => venuesField w

/-- Over a document that holds some value for the enabled venues under the changes `ch`, the
enabled venues read as the changes' own over what that value reads as. -/
theorem venuesIn_overlay {D B ch : Value} {vs : Option (List Venue)}
    (hD : D.get? "enabled_platforms" =
      (ch.get? "enabled_platforms").or (B.get? "enabled_platforms"))
    (hB : (B.get? "enabled_platforms").isSome) {base₀ : Option (List Venue)}
    (hx : venuesIn B base₀ = .ok (.ok vs)) (base : Option (List Venue)) :
    venuesIn D base = venuesIn ch vs := by
  obtain ⟨w, hw⟩ := Option.isSome_iff_exists.1 hB
  unfold venuesIn at hx ⊢
  rw [hD, hw]
  rw [hw] at hx
  cases ch.get? "enabled_platforms" with
  | none => exact hx
  | some u => rfl

/-- The configuration `c` read from the section `doc` over `base`: each field is what its check
makes of the value `doc` holds for it, and `base`'s value where `doc` holds none. -/
@[mk_iff]
structure Reads (base : RouterConfig Num) (doc : Value) (c : RouterConfig Num) : Prop where
  mode : field doc "mode" base.mode modeField = .ok c.mode
  maxSlippage :
    field doc "max_slippage" base.maxSlippage (floatField [.gt (.int 0)]) = .ok c.maxSlippage
  preferMaker : field doc "prefer_maker" base.preferMaker boolField = .ok c.preferMaker
  allowSplitting : field doc "allow_splitting" base.allowSplitting boolField = .ok c.allowSplitting
  enabled : venuesIn doc base.enabled = .ok (.ok c.enabled)
  maxSplit : field doc "max_split_platforms" (base.maxSplit : Int) (intField [.ge (.int 2)]) =
    .ok (c.maxSplit : Int)
  impact : field doc "impact_coefficient" base.impact (floatField [.gt (.int 0)]) = .ok c.impact
  makerDepthRatio : field doc "maker_depth_ratio" base.makerDepthRatio
    (floatField [.gt (.int 0), .le (.int 1)]) = .ok c.makerDepthRatio
  quoteTimeoutMs : field doc "quote_timeout_ms" (base.quoteTimeoutMs : Int)
    (intField [.gt (.int 0)]) = .ok (c.quoteTimeoutMs : Int)
  routeTimeoutMs : field doc "route_timeout_ms" (base.routeTimeoutMs : Int)
    (intField [.gt (.int 0)]) = .ok (c.routeTimeoutMs : Int)

section Validate

variable {doc : Value} {c : RouterConfig Num}

/-- What validation gives is what the section reads over the standard configuration. -/
theorem reads_of_validate (h : validate doc = .ok c) : Reads standard doc c := by
  cases doc with
  | obj fs | map es =>
    unfold validate at h
    simp only [pure_bind] at h
    -- the enabled venues first: a fault there ends validation before the fields are matched
    split at h
    · next hg =>
      split at h
      · rename_i hm hs hpm hal hvs hn hk hr hq ht
        cases hvs
        cases h
        exact ⟨hm, hs, hpm, hal, by simp [venuesIn, hg],
          field_toNat (fun _ => nonneg_of_ge_two) hn, hk, hr,
          field_toNat (fun _ => nonneg_of_gt_zero) hq, field_toNat (fun _ => nonneg_of_gt_zero) ht⟩
      · cases h
    · next w hg =>
      obtain ⟨r, hr', h⟩ := bind_eq_ok.1 h
      split at h
      · rename_i hm hs hpm hal hvs hn hk hr hq ht
        cases r with
        | error p => cases hvs
        | ok vs =>
          cases hvs
          cases h
          exact ⟨hm, hs, hpm, hal, by simp [venuesIn, hg, hr'],
            field_toNat (fun _ => nonneg_of_ge_two) hn, hk, hr,
            field_toNat (fun _ => nonneg_of_gt_zero) hq,
            field_toNat (fun _ => nonneg_of_gt_zero) ht⟩
      · cases h
  | _ => cases h

/-- A mapping validates to what it reads over the standard configuration. -/
theorem validate_of_reads (hd : doc.isDict) (hr : Reads standard doc c) : validate doc = .ok c := by
  have hven := hr.enabled
  unfold venuesIn at hven
  cases doc with
  | obj fs | map es =>
    unfold validate
    simp only [pure_bind, hr.mode, hr.maxSlippage, hr.preferMaker, hr.allowSplitting, hr.maxSplit,
      hr.impact, hr.makerDepthRatio, hr.quoteTimeoutMs, hr.routeTimeoutMs]
    split
    · next hg =>
      simp only [hg, Except.ok.injEq] at hven
      rw [hven]
      rfl
    · next w hg =>
      simp only [hg] at hven
      rw [hven]
      rfl
  | _ => cases hd

/-- A section validates exactly to the configuration it reads over the standard one. -/
theorem validate_eq_ok : validate doc = .ok c ↔ doc.isDict ∧ Reads standard doc c := by
  constructor
  · intro h
    refine ⟨?_, reads_of_validate h⟩
    cases doc with
    | obj fs | map es => rfl
    | _ => cases h
  · rintro ⟨hd, hr⟩
    exact validate_of_reads hd hr

end Validate

/-! ## The configuration's own fields -/

section Own

variable {doc : Value} {c : RouterConfig Num}

/-- The fields a valid configuration writes read back as the configuration, over any other. -/
theorem reads_fields (hc : Reads standard doc c) (base : RouterConfig Num) :
    Reads base (.obj (c.fields false)) c := by
  -- each number reads back as itself: from the standard value, or from a value that passed
  have hslip : floatField [.gt (.int 0)] (.num c.maxSlippage) = .ok c.maxSlippage :=
    field_self (fun _ _ => floatField_self)
      (floatField_float (Option.isNone_iff_eq_none.1 (by decide +kernel))) hc.maxSlippage
  have himpact : floatField [.gt (.int 0)] (.num c.impact) = .ok c.impact :=
    field_self (fun _ _ => floatField_self)
      (floatField_float (Option.isNone_iff_eq_none.1 (by decide +kernel))) hc.impact
  have hratio : floatField [.gt (.int 0), .le (.int 1)] (.num c.makerDepthRatio) =
      .ok c.makerDepthRatio :=
    field_self (fun _ _ => floatField_self)
      (floatField_float (Option.isNone_iff_eq_none.1 (by decide +kernel))) hc.makerDepthRatio
  have hsplit : intField [.ge (.int 2)] (.int (c.maxSplit : Int)) = .ok (c.maxSplit : Int) :=
    field_self (fun _ _ => intField_self) rfl hc.maxSplit
  have hquote : intField [.gt (.int 0)] (.int (c.quoteTimeoutMs : Int)) =
      .ok (c.quoteTimeoutMs : Int) :=
    field_self (fun _ _ => intField_self) rfl hc.quoteTimeoutMs
  have hroute : intField [.gt (.int 0)] (.int (c.routeTimeoutMs : Int)) =
      .ok (c.routeTimeoutMs : Int) :=
    field_self (fun _ _ => intField_self) rfl hc.routeTimeoutMs
  -- the venues are written as their names, or as null for every venue
  have hven : venuesIn (.obj (c.fields false)) base.enabled = .ok (.ok c.enabled) := by
    cases hce : c.enabled with
    | none => simp [venuesIn, fields, hce, Value.get?, venuesField]
    | some ps => simp [venuesIn, fields, hce, Value.get?, venuesField_names]
  exact ⟨field_of_get? rfl (modeField_name c.mode) _, field_of_get? rfl hslip _,
    field_of_get? rfl (boolField_bool _) _, field_of_get? rfl (boolField_bool _) _, hven,
    field_of_get? rfl hsplit _, field_of_get? rfl himpact _, field_of_get? rfl hratio _,
    field_of_get? rfl hquote _, field_of_get? rfl hroute _⟩

/-- A valid configuration's own fields validate back to it. -/
theorem validate_fields (hc : validate doc = .ok c) : validate (.obj (c.fields false)) = .ok c :=
  validate_eq_ok.2 ⟨rfl, reads_fields (validate_eq_ok.1 hc).2 standard⟩

end Own

/-- Updating a valid configuration gives exactly the configuration that reads each field named by
a change from that change, over the configuration itself; changes to other names are ignored. -/
theorem update_eq_ok {doc : Value} {c : RouterConfig Num} (hc : Reads standard doc c)
    {ch : List (String × Value)} (hch : (ch.map Prod.fst).Nodup) {c' : RouterConfig Num} :
    c.update ch = .ok c' ↔ Reads c (.obj ch) c' := by
  have hD := Value.get?_foldl_setField hch (c.fields false)
  have hB := reads_fields hc standard
  rw [update, validate_eq_ok, reads_iff, reads_iff, field_overlay (hD _) rfl hB.mode,
    field_overlay (hD _) rfl hB.maxSlippage, field_overlay (hD _) rfl hB.preferMaker,
    field_overlay (hD _) rfl hB.allowSplitting, venuesIn_overlay (hD _) rfl hB.enabled,
    field_overlay (hD _) rfl hB.maxSplit, field_overlay (hD _) rfl hB.impact,
    field_overlay (hD _) rfl hB.makerDepthRatio, field_overlay (hD _) rfl hB.quoteTimeoutMs,
    field_overlay (hD _) rfl hB.routeTimeoutMs]
  simp only [Value.isDict, true_and]

end RouterConfig

namespace Desk

variable {d : Desk} {ch : List (String × Value)}

/-- A change named `self` is refused before anything is read. -/
theorem update_of_self (h : "self" ∈ ch.map Prod.fst) :
    d.update ch = .error (.fault (.repeatedArgument "SmartRouter.update_config" "self")) := by
  have hany : ch.any (·.1 == "self") = true := by
    obtain ⟨e, he, hes⟩ := List.mem_map.1 h
    exact List.any_eq_true.2 ⟨e, he, by simp [hes]⟩
  simp [update, hany]
  rfl

/-- Without a change named `self`, a desk set up with `c` updates `c` and is set up with the
result. -/
theorem update_of_config {c : RouterConfig Num} (hd : d.setup = .config c)
    (h : "self" ∉ ch.map Prod.fst) :
    d.update ch = (c.update ch).map fun c' => ({ d with setup := .config c' }, c') := by
  have hany : ch.any (·.1 == "self") = false := by
    rw [Bool.eq_false_iff]
    intro hs
    obtain ⟨e, he, hes⟩ := List.any_eq_true.1 hs
    exact h (List.mem_map.2 ⟨e, he, by simpa using hes⟩)
  simp only [update, hany, hd, Setup.read, Bool.false_eq_true, ↓reduceIte]
  change (c.update ch >>= fun c' => pure ({ d with setup := .config c' }, c')) = _
  cases c.update ch <;> rfl

/-- Updating a desk set up with a valid configuration `c` has one of two outcomes. It fails, and
the desk is not replaced, exactly when a change is named `self` or no configuration reads the
changes over `c`. Otherwise the desk is set up with the configuration that reads each field a
change names from that change and keeps every other field of `c`. The fields `c` writes validate
back to `c`. -/
theorem update_replaces_named_fields (d : Desk) (doc : Value) (c : RouterConfig Num)
    (hc : RouterConfig.validate doc = .ok c) (hd : d.setup = .config c)
    (ch : List (String × Value)) (hch : (ch.map Prod.fst).Nodup) :
    (∀ d' c', d.update ch = .ok (d', c') ↔
      "self" ∉ ch.map Prod.fst ∧ RouterConfig.Reads c (.obj ch) c' ∧
        d' = { d with setup := .config c' }) ∧
    ((∃ r, d.update ch = .error r) ↔
      "self" ∈ ch.map Prod.fst ∨ ∀ c', ¬RouterConfig.Reads c (.obj ch) c') ∧
    RouterConfig.validate (.obj (c.fields false)) = .ok c := by
  have hr := (RouterConfig.validate_eq_ok.1 hc).2
  refine ⟨fun d' c' => ?_, ?_, RouterConfig.validate_fields hc⟩
  · by_cases hs : "self" ∈ ch.map Prod.fst
    · simp [update_of_self hs, hs]
    · simp only [update_of_config hd hs, hs, not_false_eq_true, true_and,
        ← RouterConfig.update_eq_ok hr hch]
      cases c.update ch with
      | error r => simp [Except.map]
      | ok c'' =>
        simp only [Except.map, Except.ok.injEq, Prod.mk.injEq]
        constructor
        · rintro ⟨rfl, rfl⟩
          exact ⟨rfl, rfl⟩
        · rintro ⟨rfl, rfl⟩
          exact ⟨rfl, rfl⟩
  · by_cases hs : "self" ∈ ch.map Prod.fst
    · simp [update_of_self hs, hs]
    · simp only [update_of_config hd hs, hs, false_or, ← RouterConfig.update_eq_ok hr hch]
      cases c.update ch <;> simp [Except.map]

/-- A desk set up with the standard configuration, asked for the lowest-fee mode written loosely
and for a field it does not have: the mode is read from the change, and the other fields kept. -/
theorem update_replaces_named_fields_of_mode :
    let d : Desk := ⟨Feed.empty, .config RouterConfig.standard, VenueTable.standard, none⟩
    let ch : List (String × Value) := [("mode", .str " Lowest_Fee "), ("colour", .str "blue")]
    let lowFee : RouterConfig Num := { RouterConfig.standard with mode := .lowestFee }
    RouterConfig.validate (.obj []) = .ok RouterConfig.standard ∧ (ch.map Prod.fst).Nodup ∧
      RouterConfig.Reads RouterConfig.standard (.obj ch) lowFee ∧
      ((∀ d' c', d.update ch = .ok (d', c') ↔
        "self" ∉ ch.map Prod.fst ∧ RouterConfig.Reads RouterConfig.standard (.obj ch) c' ∧
          d' = { d with setup := .config c' }) ∧
      ((∃ r, d.update ch = .error r) ↔
        "self" ∈ ch.map Prod.fst ∨ ∀ c', ¬RouterConfig.Reads RouterConfig.standard (.obj ch) c') ∧
      RouterConfig.validate (.obj (RouterConfig.standard.fields false)) = .ok RouterConfig.standard) := by
  intro d ch lowFee
  have hv : RouterConfig.validate (.obj []) = .ok RouterConfig.standard := rfl
  have hnd : (ch.map Prod.fst).Nodup := by decide
  -- the mode text is trimmed and lower-cased before it is matched
  have hm : RouterConfig.modeField (.str " Lowest_Fee ") = .ok .lowestFee := by
    rw [RouterConfig.modeField, if_neg (by rw [Unicode.hasSurrogate_eq]; decide +kernel),
      show Text.lower (Text.trim " Lowest_Fee ") = "lowest_fee" by decide +kernel]
    rfl
  exact ⟨hv, hnd, ⟨RouterConfig.field_of_get? rfl hm _, rfl, rfl, rfl, rfl, rfl, rfl, rfl, rfl, rfl⟩,
    update_replaces_named_fields d (.obj []) RouterConfig.standard hv rfl ch hnd⟩

end Desk

end TradeDesk
