import Mathlib
import TradeDesk.Config.Load

/-!
# Where loading settings faults

Settings that cannot be loaded are refused with a `LoadError` of their own kind: a missing file, a
file that is not YAML, a document that is not a mapping, or settings that fail validation, with
their issues. Loading can also stop with a fault, the error of an operation it met on the way, and
this module says exactly where.

Validation iterates one value before it checks its type: the router section's enabled venues. It
faults exactly where that value is set to something that is neither null nor a collection of
items, such as a number (`Settings.ofDocument_eq_fault`). Reading the environment faults only
where a variable's path runs through a value that is not an object, or where its value is JSON
that meets a reading limit (`Config.Env.overrides_eq_error`, `Value.parseJson_eq_fault`). Loading
a file faults exactly at one of the two, the environment first (`Settings.load_eq_fault`), and
`Settings.loading_faults` gathers the three statements.
-/

namespace TradeDesk

/-- A bind fails where its first step fails, or where its second fails after the first. -/
theorem bind_eq_error {ε α β : Type} {x : Except ε α} {g : α → Except ε β} {e : ε} :
    x >>= g = .error e ↔ x = .error e ∨ ∃ a, x = .ok a ∧ g a = .error e := by
  cases x with
  | error e' => simp [bind, Except.bind]
  | ok a => simp [bind, Except.bind]

/-- The faults of reading JSON: containers nested past the limit, and whole numbers of too many
digits. -/
inductive Fault.JsonLimit : Fault → Prop
  | nesting (container : String) : Fault.JsonLimit (.nestingTooDeep container)
  | digits (count : Nat) : Fault.JsonLimit (.digitLimit count)

namespace Value

/-- Opening a container fails only for its nesting. -/
theorem enter_eq_error {depth : Nat} {container : String} {e : JsonError}
    (h : enter depth container = .error e) : e = .fault (.nestingTooDeep container) := by
  unfold enter at h
  split at h
  · cases h; rfl
  · cases h

/-- A parsed option fails as malformed text, never with a fault. -/
theorem orMalformed_ne_fault {β : Type} (o : Option β) (f : Fault) :
    orMalformed o ≠ .error (.fault f) := by
  cases o <;> simp [orMalformed]

/-- Reading JSON faults only at a reading limit. The three readers call one another on less fuel,
so the induction is on the fuel, for all three at once. -/
theorem read_faults : ∀ fuel,
    (∀ depth cs f, readValue fuel depth cs = .error (.fault f) → f.JsonLimit) ∧
    (∀ depth cs acc f, readItems fuel depth cs acc = .error (.fault f) → f.JsonLimit) ∧
    (∀ depth cs acc f, readFields fuel depth cs acc = .error (.fault f) → f.JsonLimit)
  | 0 => by simp [readValue, readItems, readFields]
  | fuel + 1 => by
    obtain ⟨ihV, ihI, ihF⟩ := read_faults fuel
    refine ⟨fun depth cs f h => ?_, fun depth cs acc f h => ?_, fun depth cs acc f h => ?_⟩
    · rw [readValue] at h
      split at h
      · obtain he | ⟨_, -, h⟩ := bind_eq_error.1 h
        · cases enter_eq_error he; exact .nesting _
        · split at h
          · cases h
          · exact ihF _ _ _ _ h
      · obtain he | ⟨_, -, h⟩ := bind_eq_error.1 h
        · cases enter_eq_error he; exact .nesting _
        · split at h
          · cases h
          · exact ihI _ _ _ _ h
      · exact absurd h (orMalformed_ne_fault _ _)
      · -- the words and the numbers: only a whole number of too many digits faults
        simp only at h
        repeat' split at h
        all_goals cases h
        exact .digits _
    · rw [readItems] at h
      obtain h | ⟨⟨v, rest⟩, -, h⟩ := bind_eq_error.1 h
      · exact ihV _ _ _ h
      · dsimp only at h
        split at h
        · exact ihI _ _ _ _ h
        · cases h
        · cases h
    · rw [readFields] at h
      split at h
      · obtain h | ⟨⟨k, rest⟩, -, h⟩ := bind_eq_error.1 h
        · exact absurd h (orMalformed_ne_fault _ _)
        · dsimp only at h
          split at h
          · obtain h | ⟨⟨v, more⟩, -, h⟩ := bind_eq_error.1 h
            · exact ihV _ _ _ h
            · dsimp only at h
              split at h
              · exact ihF _ _ _ _ h
              · cases h
              · cases h
          · cases h
      · cases h

/-- Reading a text as JSON faults only at a reading limit. -/
theorem parseJson_eq_fault {s : String} {f : Fault} (h : parseJson s = .error (.fault f)) :
    f.JsonLimit := by
  obtain h | ⟨⟨v, rest⟩, -, h⟩ := bind_eq_error.1 h
  · exact (read_faults _).1 _ _ _ h
  · dsimp only at h
    split at h <;> cases h

end Value

namespace Config.Env

/-- The faults of laying a value at a path whose way runs through a value that is not an object:
a list indexed by a name, a value that takes no items, or one asked to make room for a field. -/
inductive PathConflict : Fault → Prop
  | listIndex : PathConflict .listIndexNotInt
  | itemAssignment (typeName : String) : PathConflict (.noItemAssignment typeName)
  | setdefault (typeName : String) : PathConflict (.noAttribute typeName "setdefault")

/-- Laying a value at a path faults only where the path runs through a value that is not an
object. -/
theorem setPath_eq_error {d : List (String × Value)} {parts : List String} {v : Value} {f : Fault}
    (h : setPath d parts v = .error f) : PathConflict f := by
  fun_induction setPath d parts v with
  | case1 | case2 => cases h
  | case3 _ _ _ _ _ _ ih =>
    -- a field made on the way: the fault is the rest of the path's
    obtain h | ⟨_, -, h⟩ := bind_eq_error.1 h
    · exact ih h
    · cases h
  | case4 _ _ _ _ _ _ _ _ ih =>
    obtain h | ⟨_, -, h⟩ := bind_eq_error.1 h
    · exact ih h
    · cases h
  | case5 => cases h; exact .listIndex
  | case6 => cases h; exact .itemAssignment _
  | case7 => cases h; exact .setdefault _

/-- A variable's value faults only as JSON that meets a reading limit. -/
theorem parse_eq_error {value : String} {f : Fault} (h : parse value = .error f) : f.JsonLimit := by
  unfold parse at h
  dsimp only at h
  split at h
  · split at h
    · cases h
    · cases h
    · cases h
      exact Value.parseJson_eq_fault ‹_›
  · cases h

/-- Reading the environment faults only where a path runs through a value that is not an object,
or where a variable's value is JSON that meets a reading limit. -/
theorem overrides_eq_error {env : List (String × String)} {f : Fault}
    (h : overrides env = .error f) : PathConflict f ∨ f.JsonLimit := by
  unfold overrides at h
  obtain h | ⟨_, -, h⟩ := bind_eq_error.1 h
  · -- the variables are laid one by one over the fields laid so far
    generalize dedupe env = vars at h
    generalize ([] : List (String × Value)) = d at h
    induction vars generalizing d with
    | nil => cases h
    | cons var vars ih =>
      obtain ⟨name, value⟩ := var
      rw [List.foldlM_cons] at h
      obtain h | ⟨d', -, h⟩ := bind_eq_error.1 h
      · dsimp only at h
        split at h
        · obtain h | ⟨_, -, h⟩ := bind_eq_error.1 h
          · exact .inr (parse_eq_error h)
          · exact .inl (setPath_eq_error h)
        · cases h
      · exact ih d' h
  · cases h

end Config.Env

namespace RouterConfig

/-- Reading the enabled venues refuses only with a fault, on a value that is neither null nor a
collection: a name it does not know is an issue of the field, not a refusal. -/
theorem venuesField_eq_error {v : Value} {r : Refusal} :
    venuesField v = .error r ↔ v ≠ .null ∧ ∃ f, v.items? = .error f ∧ r = .fault f := by
  unfold venuesField
  split
  · simp
  · rename_i hv
    cases hi : v.items? with
    | error f =>
      simp only [Except.error.injEq, ne_eq, exists_eq_left']
      exact ⟨fun h => ⟨hv, h.symm⟩, fun h => h.2.symm⟩
    | ok xs => simp

/-- Validating a router section faults exactly where the section is a mapping whose enabled
venues are set to a value that is neither null nor a collection. -/
theorem validate_eq_fault {doc : Value} {f : Fault} :
    validate doc = .error (.fault f) ↔
      doc.isDict ∧ ∃ v, doc.get? "enabled_platforms" = some v ∧ v ≠ .null ∧ v.items? = .error f := by
  unfold validate
  generalize doc.get? "enabled_platforms" = g
  cases doc with
  | obj fs | map es =>
    simp only [Value.isDict, true_and]
    cases g with
    | none =>
      -- no venues set: the assembly refuses with issues only
      simp only [pure_bind]
      split <;> simp [pure, Except.pure]
    | some v =>
      simp only [pure_bind, bind_eq_error, venuesField_eq_error]
      constructor
      · rintro (⟨hv, f', hi, h⟩ | ⟨a, -, h⟩)
        · cases h
          exact ⟨v, rfl, hv, hi⟩
        · -- past the venues, the assembly refuses with issues only
          split at h <;> simp [pure, Except.pure] at h
      · rintro ⟨_, ⟨⟩, hv, hi⟩
        exact .inl ⟨hv, f, hi, rfl⟩
  | _ => simp [Value.isDict]

end RouterConfig

namespace Settings

/-- The fault validation meets: a router section that is a mapping, whose enabled venues are set
to a value that is neither null nor a collection of items, such as a number. -/
def VenuesFault (doc : Value) (f : Fault) : Prop :=
  ∃ router venues, doc.get? "router" = some router ∧ router.isDict ∧
    router.get? "enabled_platforms" = some venues ∧ venues ≠ .null ∧ venues.items? = .error f

/-- Validating settings faults exactly where their router section is a mapping whose validation
faults. -/
theorem validate_eq_router_fault {doc : Value} {f : Fault} :
    validate doc = .error (.fault f) ↔ ∃ router, doc.get? "router" = some router ∧
      router.isDict ∧ RouterConfig.validate router = .error (.fault f) := by
  unfold validate
  generalize hg : doc.get? "router" = g
  cases doc with
  | obj fs | map es =>
    cases g with
    | none =>
      simp only [pure_bind]
      split <;> simp [pure, Except.pure]
    | some v =>
      simp only [Option.some.injEq, exists_eq_left']
      by_cases hd : v.isDict
      · simp only [hd, if_true, true_and]
        cases hr : RouterConfig.validate v with
        | ok c =>
          simp only [pure_bind]
          split <;> simp [pure, Except.pure]
        | error r =>
          cases r with
          | issues is =>
            simp only [pure_bind]
            split <;> simp [pure, Except.pure]
          | fault f' => simp [bind, Except.bind]
      · simp only [hd, Bool.false_eq_true, if_false, false_and, iff_false, pure_bind]
        split <;> simp [pure, Except.pure]
  | _ =>
    simp only [Value.get?] at hg
    subst hg
    simp

/-- Validating settings faults exactly on a router section whose enabled venues are neither null
nor a collection. -/
theorem validate_eq_fault {doc : Value} {f : Fault} :
    validate doc = .error (.fault f) ↔ VenuesFault doc f := by
  rw [validate_eq_router_fault]
  simp only [RouterConfig.validate_eq_fault, VenuesFault]
  constructor
  · rintro ⟨r, hr, hd, -, v, hv, hn, hi⟩
    exact ⟨r, v, hr, hd, hv, hn, hi⟩
  · rintro ⟨r, v, hr, hd, hv, hn, hi⟩
    exact ⟨r, hr, hd, hd, v, hv, hn, hi⟩

/-- A value that counts as false has no fields, so no router section to fault on. -/
theorem not_venuesFault_of_truthy_eq_false {v : Value} {f : Fault} (h : v.truthy = false) :
    ¬VenuesFault v f := by
  rintro ⟨_, _, hr, -⟩
  cases v <;> simp_all [Value.truthy, Value.get?]

/-- Settings from a document fault exactly on a router section whose enabled venues are neither
null nor a collection; every other failure is a refusal of the settings. -/
theorem ofDocument_eq_fault {raw : Value} {f : Fault} :
    ofDocument raw = .error (.fault f) ↔ VenuesFault raw f := by
  have hv : ofDocument raw = .error (.fault f) ↔
      validate (if raw.truthy then raw else .obj []) = .error (.fault f) := by
    unfold ofDocument
    split <;> simp_all
  rw [hv, validate_eq_fault]
  cases ht : raw.truthy
  · simp only [Bool.false_eq_true, if_false]
    exact iff_of_false (not_venuesFault_of_truthy_eq_false rfl) (not_venuesFault_of_truthy_eq_false ht)
  · simp

/-- The shared document a settings file opens to, as loading takes it: an empty file counts as an
empty mapping, and a missing file or a document that is not a mapping is refused. -/
def opened (path : String) : Option (Store × Part) → Except LoadError (Store × Part)
  | none => .error (.missing path)
  | some (s, .whole .null) => .ok (s, .whole (.obj []))
  | some (s, p) => if isMapping s p then .ok (s, p) else .error (.notMapping path)

/-- The document validation reads once the environment's overrides are laid over a file's. -/
def merged (s : Store) (root : Part) (fromEnv : Value) : Value :=
  let (s, root) := match fromEnv, root with
    | .obj os, .ref c => (s.mergeFields c os, root)
    | .obj os, .whole v => (s, .whole (v.mergeInto os))
    | _, _ => (s, root)
  documentOf s root

/-- Loading opens the file, reads the environment, and validates the merged document. -/
theorem load_eq (path : String) (file : Option (Store × Part)) (env : List (String × String)) :
    load path file env = (do
      let (s, root) ← opened path file
      let fromEnv ← (Config.Env.overrides env).mapError .fault
      ofDocument (merged s root fromEnv)) := by
  unfold load
  split
  · rfl
  · rfl
  · rename_i s p hp
    rw [opened.eq_3 path s p hp]
    split <;> rfl

/-- Opening a file refuses it and never faults. -/
theorem opened_ne_fault (path : String) (file : Option (Store × Part)) (f : Fault) :
    opened path file ≠ .error (.fault f) := by
  unfold opened
  split
  · simp
  · simp
  · split <;> simp

/-- Loading faults exactly where the environment does, or, once the file opens and the environment
reads, where the merged document's enabled venues are neither null nor a collection. -/
theorem load_eq_fault {path : String} {file : Option (Store × Part)} {env : List (String × String)}
    {f : Fault} : load path file env = .error (.fault f) ↔ ∃ s root, opened path file = .ok (s, root) ∧
      (Config.Env.overrides env = .error f ∨
        ∃ o, Config.Env.overrides env = .ok o ∧ VenuesFault (merged s root o) f) := by
  rw [load_eq]
  cases ho : opened path file with
  | error e =>
    have := opened_ne_fault path file f
    simp_all [bind, Except.bind]
  | ok p =>
    obtain ⟨s, root⟩ := p
    cases hv : Config.Env.overrides env with
    | error g => simp [bind, Except.bind, Except.mapError]
    | ok o => simp [bind, Except.bind, Except.mapError, ofDocument_eq_fault]

/-- Loading settings stops with a fault, rather than a refusal of the settings, in two places
only. Settings from a document fault exactly where the router section enables a value that is
neither null nor a collection, which validation iterates; loading a file faults exactly where the
environment does or, after it, the merged document does; and the environment faults only where a
variable's path runs through a value that is not an object, or its value is JSON past a reading
limit. -/
theorem loading_faults (path : String) (file : Option (Store × Part)) (env : List (String × String))
    (raw : Value) (f : Fault) :
    (ofDocument raw = .error (.fault f) ↔ VenuesFault raw f) ∧
    (load path file env = .error (.fault f) ↔ ∃ s root, opened path file = .ok (s, root) ∧
      (Config.Env.overrides env = .error f ∨
        ∃ o, Config.Env.overrides env = .ok o ∧ VenuesFault (merged s root o) f)) ∧
    (Config.Env.overrides env = .error f → Config.Env.PathConflict f ∨ f.JsonLimit) :=
  ⟨ofDocument_eq_fault, load_eq_fault, Config.Env.overrides_eq_error⟩

/-- Settings whose router section enables the venues `5` stop with the fault of iterating a whole
number, where a refusal of the settings was documented. -/
theorem loading_faults_on_numeric_venues :
    ofDocument (.obj [("router", .obj [("enabled_platforms", .int 5)])]) =
      .error (.fault (.notIterable "int")) :=
  ((loading_faults "settings.yaml" none [] _ _).1).2 ⟨_, _, rfl, rfl, rfl, nofun, rfl⟩

end Settings

end TradeDesk
