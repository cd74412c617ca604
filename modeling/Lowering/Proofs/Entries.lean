import Lowering.Proofs.Declared

/-!
# Entries of a lowered module

Which entries the two name spaces of a lowered module have. Main statement
(`Module.lower_entries`): there is an entry under a name exactly when the module
declares the name in that space, the module then declares it once, and the entry
is what that one declaration lowers to, with its visibility.
-/

namespace Lowering.Surface

/-- Whether fields are known by position, as those of a struct without a body
are. -/
def Fields.isTuple : Fields → Bool
  | .tuple _ => true
  | .named _ => false

/-- Whether an item declares its name in a name space. -/
def ItemKind.declares : Core.Namespace → ItemKind → Bool
  | .type, .module _ | .type, .typeAlias _ | .type, .struct _ | .type, .enum _
  | .type, .trait _ => true
  | .value, .function _ | .value, .static _ => true
  | .value, .struct s => s.data.isTuple
  | _, _ => false

/-- The names declared in the type name space, one for each declaration. -/
def Module.typeNames (m : Module) : List String :=
  (m.items.filter (·.data.declares .type)).map (·.name) ++
    (List.range m.anonymous.length).map Module.anonymousName

/-- The names declared in the value name space, one for each declaration. -/
def Module.valueNames (m : Module) : List String :=
  (m.items.filter (·.data.declares .value)).map (·.name)

/-- The type that an item at `path` lowers to. -/
inductive ItemKind.LowersToType (path : Core.ItemPath) : ItemKind → Core.TypeEntry → Prop
  | module {m out} : (m.lower path).outcome = .ok out → LowersToType path (.module m) (.module out)
  | typeAlias {a out} : a.lower = .ok out → LowersToType path (.typeAlias a) (.typeAlias out)
  | struct {s out} : s.lower = .ok out → LowersToType path (.struct s) (.struct out)
  | enum {e out} : e.lower = .ok out → LowersToType path (.enum e) (.enum out)
  | trait {t out} : t.lower path = .ok out → LowersToType path (.trait t) (.trait out)

/-- The value that an item at `path` lowers to. A struct without fields is a
constant of its own type, a tuple struct a constructor of it. -/
inductive ItemKind.LowersToValue (path : Core.ItemPath) : ItemKind → Core.ValueEntry → Prop
  | function {f out} : f.lower = .ok out → LowersToValue path (.function f) (.function out)
  | static {s out} : s.lower = .ok out → LowersToValue path (.static s) out
  | unitStruct {s} : s.data = .tuple [] →
      LowersToValue path (.struct s) (.structConstant (.path (.ofItem path)))
  | tupleStruct {s f fs} : s.data = .tuple (f :: fs) →
      LowersToValue path (.struct s) (.structConstructor (.path (.ofItem path)))

/-- The module at `path` declares the type `entry` under a name: an item lowers
to it, or an anonymous child does. -/
inductive Module.DeclaresType (m : Module) (path : Core.ItemPath) (name : String) :
    Core.Visible Core.TypeEntry → Prop
  | item {i t} : i ∈ m.items → i.name = name → i.data.LowersToType (path.join name) t →
      DeclaresType m path name ⟨i.isPub, t⟩
  | anonymous {index child out} : m.anonymous[index]? = some child →
      name = Module.anonymousName index → (child.lower (path.join name)).outcome = .ok out →
      DeclaresType m path name ⟨false, .module out⟩

/-- The module at `path` declares the value `entry` under a name. -/
inductive Module.DeclaresValue (m : Module) (path : Core.ItemPath) (name : String) :
    Core.Visible Core.ValueEntry → Prop
  | item {i v} : i ∈ m.items → i.name = name → i.data.LowersToValue (path.join name) v →
      DeclaresValue m path name ⟨i.isPub, v⟩

/-! ## What an item defines -/

variable {path : Core.ItemPath} {name : String} {kind : ItemKind} {defs : Core.Definitions}

/-- The forms of definitions, one for each kind of item. -/
inductive ItemKind.Defines (path : Core.ItemPath) : ItemKind → Core.Definitions → Prop
  | removed : Defines path .removed {}
  | externCrate {c} : Defines path (.externCrate c) {}
  | module {m out} : (m.lower path).outcome = .ok out →
      Defines path (.module m) { type? := some (.module out) }
  | typeAlias {a out} : a.lower = .ok out →
      Defines path (.typeAlias a) { type? := some (.typeAlias out) }
  | struct {s out} : s.lower = .ok out →
      Defines path (.struct s) { value? := out.data.value? path, type? := some (.struct out) }
  | enum {e out} : e.lower = .ok out → Defines path (.enum e) { type? := some (.enum out) }
  | trait {t out} : t.lower path = .ok out →
      Defines path (.trait t) { type? := some (.trait out) }
  | function {f out} : f.lower = .ok out →
      Defines path (.function f) { value? := some (.function out) }
  | static {s out} : s.lower = .ok out → Defines path (.static s) { value? := some out }

theorem ItemKind.defines_of_lower (h : (kind.lower name path).outcome = .ok defs) :
    kind.Defines path defs := by
  cases kind <;>
    simp only [ItemKind.lower, Traced.outcome_bind, Traced.outcome_emit, Traced.outcome_lift,
      Traced.outcome_pure, Lowered.ok_bind, Lowered.bind_eq_ok, Except.ok.injEq] at h
  case removed => subst h; exact .removed
  case externCrate => subst h; exact .externCrate
  all_goals
    obtain ⟨out, hout, rfl⟩ := h
    constructor
    exact hout

/-- The value of a struct at `path`, by the form of its fields. -/
def Fields.value? (path : Core.ItemPath) : Fields → Option Core.ValueEntry
  | .tuple [] => some (.structConstant (.path (.ofItem path)))
  | .tuple (_ :: _) => some (.structConstructor (.path (.ofItem path)))
  | .named _ => none

theorem Fields.value?_of_lower {data : Fields} {data' : Core.Fields} (h : data.lower = .ok data') :
    data'.value? path = data.value? path := by
  match data with
  | .tuple [] =>
    cases h
    rfl
  | .tuple (f :: fs) =>
    simp only [Fields.lower, Lowered.bind_eq_ok, Lowered.pure_eq_ok] at h
    obtain ⟨fs', -, rfl⟩ := h
    rfl
  | .named fs =>
    simp only [Fields.lower, Lowered.bind_eq_ok, Lowered.pure_eq_ok] at h
    obtain ⟨fs', -, rfl⟩ := h
    rfl

theorem Struct.lower_data {s : Struct} {out : Core.Struct} (h : s.lower = .ok out) :
    s.data.lower = .ok out.data := by
  simp only [Struct.lower, Lowered.bind_eq_ok, Lowered.pure_eq_ok] at h
  obtain ⟨data, hdata, generics, -, rfl⟩ := h
  exact hdata

theorem Struct.value_iff {s : Struct} {out : Core.Struct} (h : s.lower = .ok out)
    (v : Core.ValueEntry) :
    out.data.value? path = some v ↔ (ItemKind.struct s).LowersToValue path v := by
  rw [Fields.value?_of_lower (Struct.lower_data h)]
  constructor
  · intro hv
    unfold Fields.value? at hv
    split at hv
    · cases hv
      exact .unitStruct ‹_›
    · cases hv
      exact .tupleStruct ‹_›
    · cases hv
  · intro hv
    cases hv with
    | unitStruct hs => rw [hs, Fields.value?]
    | tupleStruct hs => rw [hs, Fields.value?]

theorem ItemKind.Defines.type_iff (h : kind.Defines path defs) (t : Core.TypeEntry) :
    defs.type? = some t ↔ kind.LowersToType path t := by
  constructor
  · intro ht
    cases h with
    | module h => cases ht; exact .module h
    | typeAlias h => cases ht; exact .typeAlias h
    | struct h => cases ht; exact .struct h
    | enum h => cases ht; exact .enum h
    | trait h => cases ht; exact .trait h
    | _ => cases ht
  · intro ht
    cases ht with
    | module h' => cases h with | module h => rw [h] at h'; cases h'; rfl
    | typeAlias h' => cases h with | typeAlias h => rw [h] at h'; cases h'; rfl
    | struct h' => cases h with | struct h => rw [h] at h'; cases h'; rfl
    | enum h' => cases h with | enum h => rw [h] at h'; cases h'; rfl
    | trait h' => cases h with | trait h => rw [h] at h'; cases h'; rfl

theorem ItemKind.Defines.value_iff (h : kind.Defines path defs) (v : Core.ValueEntry) :
    defs.value? = some v ↔ kind.LowersToValue path v := by
  cases h with
  | struct h => exact Struct.value_iff h v
  | function h =>
    constructor
    · intro hv
      cases hv
      exact .function h
    · intro hv
      cases hv with
      | function h' => rw [h] at h'; cases h'; rfl
  | static h =>
    constructor
    · intro hv
      cases hv
      exact .static h
    · intro hv
      cases hv with
      | static h' => rw [h] at h'; cases h'; rfl
  | _ => constructor <;> intro hv <;> cases hv

theorem ItemKind.Defines.declares_type (h : kind.Defines path defs) :
    defs.type?.isSome = kind.declares .type := by
  cases h <;> rfl

theorem ItemKind.Defines.declares_value (h : kind.Defines path defs) :
    defs.value?.isSome = kind.declares .value := by
  cases h with
  | @struct s out h =>
    change (out.data.value? path).isSome = s.data.isTuple
    rw [Fields.value?_of_lower (Struct.lower_data h)]
    match s.data with
    | .tuple [] => rfl
    | .tuple (_ :: _) => rfl
    | .named _ => rfl
  | _ => rfl

/-! ## Names and entries of declared items -/

variable {α : Type} {part : Core.Definitions → Option α} {items : List (Named ItemKind)}

theorem Named.mem_entries {n : String} {e : Core.Visible α} :
    (n, e) ∈ Named.entries part path items ↔ ∃ item ∈ items, item.name = n ∧
      ∃ a, part (item.definitions path) = some a ∧ e = ⟨item.isPub, a⟩ := by
  simp only [Named.entries, Core.Visible.listed, List.mem_flatMap, Option.mem_toList,
    Option.map_eq_some_iff, Prod.mk.injEq]
  constructor
  · rintro ⟨item, hi, a, ha, rfl, rfl⟩
    exact ⟨item, hi, rfl, a, ha, rfl⟩
  · rintro ⟨item, hi, rfl, a, ha, rfl⟩
    exact ⟨item, hi, a, ha, rfl, rfl⟩

/-- The names of the entries are those of the items that have the part. -/
theorem Named.entries_names {space : Core.Namespace}
    (h : ∀ item ∈ items, (part (item.definitions path)).isSome = item.data.declares space) :
    (Named.entries part path items).map Prod.fst =
      (items.filter (·.data.declares space)).map (·.name) := by
  induction items with
  | nil => rfl
  | cons item rest ih =>
    have hrest := ih fun i hi => h i (List.mem_cons_of_mem _ hi)
    rw [List.filter_cons, ← h item List.mem_cons_self]
    simp only [Named.entries, List.flatMap_cons, List.map_append] at hrest ⊢
    rw [hrest, Core.Visible.listed]
    cases part (item.definitions path) <;> simp

theorem Named.defines_definitions {item : Named ItemKind}
    (h : ∃ defs, item.define path = .ok defs) :
    item.data.Defines (path.join item.name) (item.definitions path) := by
  obtain ⟨defs, h⟩ := h
  have hdefs : item.definitions path = defs := by simp [Named.definitions, h, Except.toOption]
  rw [hdefs]
  exact ItemKind.defines_of_lower h

/-- The declared items give one name for each declaration of a type. -/
theorem Module.declared_types (m : Module) :
    (m.declared.filter (·.data.declares .type)).map (·.name) = m.typeNames := by
  have hanon : (Module.anonymousItems 0 m.anonymous).filter (·.data.declares .type) =
      Module.anonymousItems 0 m.anonymous := by
    rw [List.filter_eq_self]
    intro item hi
    obtain ⟨i, child, -, rfl⟩ := Module.mem_anonymousItems.mp hi
    rfl
  rw [Module.declared, Module.typeNames, List.filter_append, List.map_append, hanon,
    Module.anonymousItems_names, List.range_eq_range']

/-- The declared items give one name for each declaration of a value. -/
theorem Module.declared_values (m : Module) :
    (m.declared.filter (·.data.declares .value)).map (·.name) = m.valueNames := by
  have hanon : (Module.anonymousItems 0 m.anonymous).filter (·.data.declares .value) = [] := by
    rw [List.filter_eq_nil_iff]
    intro item hi
    obtain ⟨i, child, -, rfl⟩ := Module.mem_anonymousItems.mp hi
    simp [ItemKind.declares]
  rw [Module.declared, Module.valueNames, List.filter_append, hanon, List.append_nil]

/-- A lowered module lists what its declared items define, and all of them
lower. -/
theorem Module.lower_filledBy {m : Module} {out : Core.Module}
    (h : (m.lower path).outcome = .ok out) :
    Named.FilledBy out path m.declared ∧
      ∀ item ∈ m.declared, item.data.Defines (path.join item.name) (item.definitions path) := by
  rw [Module.lower_outcome] at h
  have hempty : Named.FilledBy (.empty path) path [] := .empty path
  obtain ⟨hfill, hdef⟩ := ItemKind.lowerAll_filledBy m.declared hempty h
  exact ⟨hfill, fun item hi => Named.defines_definitions (hdef item hi)⟩

/-! ## Entries of a module -/

theorem Module.declaresType_iff {m : Module} {n : String} {e : Core.Visible Core.TypeEntry}
    (h : ∀ item ∈ m.declared, item.data.Defines (path.join item.name) (item.definitions path)) :
    (n, e) ∈ Named.entries (·.type?) path m.declared ↔ m.DeclaresType path n e := by
  rw [Named.mem_entries]
  constructor
  · rintro ⟨item, hi, rfl, t, ht, rfl⟩
    have hlow := ((h item hi).type_iff t).mp ht
    rcases List.mem_append.mp hi with hi | hi
    · exact .item hi rfl hlow
    · obtain ⟨i, child, hc, rfl⟩ := Module.mem_anonymousItems.mp hi
      cases hlow with
      | module hout => exact .anonymous hc (by rw [Nat.zero_add]) hout
  · intro hdecl
    cases hdecl with
    | @item i t hi hn hlow =>
      subst hn
      have hmem : i ∈ m.declared := List.mem_append_left _ hi
      exact ⟨i, hmem, rfl, t, ((h i hmem).type_iff t).mpr hlow, rfl⟩
    | @anonymous index child out hc hn hout =>
      subst hn
      have hmem : ⟨Module.anonymousName index, false, {}, .module child, child.span⟩ ∈ m.declared :=
        List.mem_append_right _ (Module.mem_anonymousItems.mpr ⟨index, child, hc, by simp⟩)
      exact ⟨_, hmem, rfl, _, ((h _ hmem).type_iff _).mpr (.module hout), rfl⟩

theorem Module.declaresValue_iff {m : Module} {n : String} {e : Core.Visible Core.ValueEntry}
    (h : ∀ item ∈ m.declared, item.data.Defines (path.join item.name) (item.definitions path)) :
    (n, e) ∈ Named.entries (·.value?) path m.declared ↔ m.DeclaresValue path n e := by
  rw [Named.mem_entries]
  constructor
  · rintro ⟨item, hi, rfl, v, hv, rfl⟩
    have hlow := ((h item hi).value_iff v).mp hv
    rcases List.mem_append.mp hi with hi | hi
    · exact .item hi rfl hlow
    · obtain ⟨i, child, hc, rfl⟩ := Module.mem_anonymousItems.mp hi
      cases hlow
  · intro hdecl
    cases hdecl with
    | @item i v hi hn hlow =>
      subst hn
      have hmem : i ∈ m.declared := List.mem_append_left _ hi
      exact ⟨i, hmem, rfl, v, ((h i hmem).value_iff v).mpr hlow, rfl⟩

theorem Module.mem_typeNames {m : Module} {n : String} :
    n ∈ m.typeNames ↔ (∃ i ∈ m.items, i.name = n ∧ i.data.declares .type = true) ∨
      ∃ k < m.anonymous.length, n = Module.anonymousName k := by
  simp only [Module.typeNames, List.mem_append, List.mem_map, List.mem_filter, List.mem_range]
  grind

theorem Module.mem_valueNames {m : Module} {n : String} :
    n ∈ m.valueNames ↔ ∃ i ∈ m.items, i.name = n ∧ i.data.declares .value = true := by
  simp only [Module.valueNames, List.mem_map, List.mem_filter]
  grind

/-- The entries of a lowered module, under any name. A name has a type exactly
when an item or an anonymous child declares it as one; then only one declaration
does, and the entry is what that one lowers to. Likewise for values. -/
theorem Module.lower_entries (m : Module) (path : Core.ItemPath) (out : Core.Module)
    (h : (m.lower path).outcome = .ok out) (n : String) :
    (((∃ e, out.typeEntry? n = some e) ↔
        (∃ i ∈ m.items, i.name = n ∧ i.data.declares .type = true) ∨
          ∃ k < m.anonymous.length, n = Module.anonymousName k) ∧
      ∀ e, out.typeEntry? n = some e ↔ m.typeNames.count n = 1 ∧ m.DeclaresType path n e) ∧
    (((∃ e, out.valueEntry? n = some e) ↔
        ∃ i ∈ m.items, i.name = n ∧ i.data.declares .value = true) ∧
      ∀ e, out.valueEntry? n = some e ↔ m.valueNames.count n = 1 ∧ m.DeclaresValue path n e) := by
  obtain ⟨hfill, hdef⟩ := Module.lower_filledBy h
  have htypes := Named.entries_names fun item hi => (hdef item hi).declares_type
  have hvalues := Named.entries_names fun item hi => (hdef item hi).declares_value
  rw [Module.declared_types] at htypes
  rw [Module.declared_values] at hvalues
  refine ⟨⟨?_, fun e => ?_⟩, ?_, fun e => ?_⟩
  · rw [← Module.mem_typeNames, ← htypes]
    exact hfill.types.exists_get?_iff n
  · rw [← Module.declaresType_iff hdef, ← hfill.types.get?, ← htypes]
    exact ⟨fun he => ⟨hfill.types.count_eq_one he, he⟩, fun he => he.2⟩
  · rw [← Module.mem_valueNames, ← hvalues]
    exact hfill.values.exists_get?_iff n
  · rw [← Module.declaresValue_iff hdef, ← hfill.values.get?, ← hvalues]
    exact ⟨fun he => ⟨hfill.values.count_eq_one he, he⟩, fun he => he.2⟩

/-- The item `pub struct U;` beside a block that makes an anonymous child. -/
def unitBesideBlock : Module :=
  .mk [⟨"U", true, {}, .struct ⟨{}, .tuple []⟩, .dummy⟩] [.mk [] [] [] [] .dummy] [] [] .dummy

theorem unitBesideBlock_entries : ∃ out, (unitBesideBlock.lower (.root "")).outcome = .ok out ∧
    (∃ e, out.typeEntry? "#0" = some e) ∧
    out.valueEntry? "U" = some ⟨true, .structConstant (.path (.ofItem ⟨"", ["U"]⟩))⟩ := by
  refine ⟨_, rfl, ?_, ?_⟩
  · exact (Module.lower_entries unitBesideBlock (.root "") _ rfl "#0").1.1.mpr
      (.inr ⟨0, by decide, rfl⟩)
  · refine ((Module.lower_entries unitBesideBlock (.root "") _ rfl "U").2.2 _).mpr
      ⟨by decide, ?_⟩
    exact .item (i := ⟨"U", true, {}, .struct ⟨{}, .tuple []⟩, .dummy⟩) List.mem_cons_self rfl
      (.unitStruct rfl)

end Lowering.Surface
