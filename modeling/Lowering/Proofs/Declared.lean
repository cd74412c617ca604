import Lowering.Lower.Module
import Lowering.Proofs.NameMap
import Lowering.Proofs.Steps

/-!
# Declared items of a module

A module declares its items and, after them, its anonymous children, each of
which lowers as a private module item named by its position would
(`Module.lower_outcome`). Lowering the declared items one after the other fills
the two name spaces with what they define: after any prefix of them the maps list
exactly the entries of that prefix (`ItemKind.lowerAll_filledBy`).
-/

namespace Lowering

/-! ## Adding to a module -/

namespace Core

/-- The entry under a name of something that may be absent. -/
def Visible.listed {α : Type} (name : String) (isPub : Bool) (item? : Option α) :
    List (String × Visible α) :=
  (item?.map fun item => (name, ⟨isPub, item⟩)).toList

/-- The clash with a name that is taken. -/
def NameClash.ifTaken (space : Namespace) (name : String) (taken : Bool) : List NameClash :=
  if taken then [⟨space, name⟩] else []

section

variable {α σ : Type} {space : Namespace} {m : NameMap α} {name : String} {value : α}
  {f : NameMap α → σ}

/-- A caller that stops at a clash goes on with the store around the new map. -/
theorem Namespace.outcome_add_eq_ok {s : σ} :
    ((space.add m name value).map f).outcome = .ok s ↔
      ∃ m', m.add? name value = some m' ∧ f m' = s := by
  unfold Namespace.add
  cases m.add? name value <;> simp [Attempt.map, Attempt.outcome, Except.map]

theorem Namespace.outcome_add_decided :
    DecidedBy ((space.add m name value).map f).outcome
      (NameClash.ifTaken space name (m.contains name)) := by
  unfold Namespace.add NameMap.add? NameClash.ifTaken
  cases m.contains name with
  | true => rfl
  | false => exact ⟨_, rfl⟩

end

namespace Module

variable {m m' : Module} {name : String} {isPub : Bool}

/-- Adds a type that may be absent. -/
def addType? (m : Module) (name : String) (isPub : Bool) :
    Option TypeEntry → Except NameClash Module
  | none => .ok m
  | some type => (m.addType name ⟨isPub, type⟩).outcome

/-- Adds a value that may be absent. -/
def addValue? (m : Module) (name : String) (isPub : Bool) :
    Option ValueEntry → Except NameClash Module
  | none => .ok m
  | some value => (m.addValue name ⟨isPub, value⟩).outcome

theorem declare_eq (m : Module) (name : String) (isPub : Bool) (d : Definitions) :
    m.declare name isPub d =
      m.addValue? name isPub d.value? >>= fun m => m.addType? name isPub d.type? := by
  obtain ⟨value?, type?⟩ := d
  cases value? <;> cases type? <;> rfl

theorem addType?_decided (m : Module) (name : String) (isPub : Bool) (type? : Option TypeEntry) :
    DecidedBy (m.addType? name isPub type?)
      (NameClash.ifTaken .type name (type?.isSome && m.types.contains name)) := by
  cases type? with
  | none => exact ⟨m, rfl⟩
  | some t => exact Namespace.outcome_add_decided

theorem addValue?_decided (m : Module) (name : String) (isPub : Bool)
    (value? : Option ValueEntry) :
    DecidedBy (m.addValue? name isPub value?)
      (NameClash.ifTaken .value name (value?.isSome && m.values.contains name)) := by
  cases value? with
  | none => exact ⟨m, rfl⟩
  | some v => exact Namespace.outcome_add_decided

/-- The module at `path` that lists these entries and no others. -/
structure Lists (m : Module) (path : ItemPath) (types : List (String × Visible TypeEntry))
    (values : List (String × Visible ValueEntry)) : Prop where
  path : m.path = path
  types : m.types.Lists types
  values : m.values.Lists values

namespace Lists

variable {path : ItemPath} {types : List (String × Visible TypeEntry)}
  {values : List (String × Visible ValueEntry)} {d : Definitions}

theorem empty (path : ItemPath) : (Module.empty path).Lists path [] [] :=
  ⟨rfl, .empty, .empty⟩

theorem addType? (h : m.Lists path types values)
    (hm : m.addType? name isPub d.type? = .ok m') :
    m'.Lists path (types ++ Visible.listed name isPub d.type?) values := by
  unfold Module.addType? at hm
  unfold Visible.listed
  cases ht : d.type? with
  | none =>
    simp only [ht, Except.ok.injEq] at hm
    subst hm
    simpa using h
  | some t =>
    rw [ht] at hm
    obtain ⟨_, hadd, rfl⟩ := Namespace.outcome_add_eq_ok.mp hm
    exact ⟨h.path, h.types.add? hadd, h.values⟩

theorem addValue? (h : m.Lists path types values)
    (hm : m.addValue? name isPub d.value? = .ok m') :
    m'.Lists path types (values ++ Visible.listed name isPub d.value?) := by
  unfold Module.addValue? at hm
  unfold Visible.listed
  cases hv : d.value? with
  | none =>
    simp only [hv, Except.ok.injEq] at hm
    subst hm
    simpa using h
  | some v =>
    rw [hv] at hm
    obtain ⟨_, hadd, rfl⟩ := Namespace.outcome_add_eq_ok.mp hm
    exact ⟨h.path, h.types, h.values.add? hadd⟩

/-- Declaring adds the entries of the definitions and keeps all others. -/
theorem declare (h : m.Lists path types values) (hm : m.declare name isPub d = .ok m') :
    m'.Lists path (types ++ Visible.listed name isPub d.type?)
      (values ++ Visible.listed name isPub d.value?) := by
  rw [declare_eq] at hm
  cases hv : m.addValue? name isPub d.value? with
  | error c => simp [hv, bind, Except.bind] at hm
  | ok m₁ =>
    rw [hv] at hm
    exact (h.addValue? hv).addType? hm

/-- What declaring stops at: a value whose name is taken, then a type. -/
theorem declare_decided (h : m.Lists path types values) (name : String) (isPub : Bool)
    (d : Definitions) :
    DecidedBy (m.declare name isPub d)
      (NameClash.ifTaken .value name (d.value?.isSome && (values.map Prod.fst).contains name) ++
        NameClash.ifTaken .type name (d.type?.isSome && (types.map Prod.fst).contains name)) := by
  rw [declare_eq, ← h.values.contains_eq]
  refine (m.addValue?_decided name isPub d.value?).bind fun m₁ hm₁ => ?_
  rw [← (h.addValue? hm₁).types.contains_eq]
  exact m₁.addType?_decided name isPub d.type?

end Lists

end Module

end Core

/-! ## Items in order -/

namespace Surface

/-- What an item of the module at `path` defines. -/
def Named.define (path : Core.ItemPath) (item : Named ItemKind) : Lowered Core.Definitions :=
  (item.data.lower item.name (path.join item.name)).outcome

/-- What an item defines, and nothing if it does not lower. -/
def Named.definitions (path : Core.ItemPath) (item : Named ItemKind) : Core.Definitions :=
  (item.define path).toOption.getD {}

/-- The entries of items in the name space of one part of their definitions. -/
def Named.entries {α : Type} (part : Core.Definitions → Option α) (path : Core.ItemPath)
    (items : List (Named ItemKind)) : List (String × Core.Visible α) :=
  items.flatMap fun item =>
    Core.Visible.listed item.name item.isPub (part (item.definitions path))

/-- The module at `path` lists what the items define. -/
abbrev Named.FilledBy (out : Core.Module) (path : Core.ItemPath) (items : List (Named ItemKind)) :
    Prop :=
  out.Lists path (Named.entries (·.type?) path items) (Named.entries (·.value?) path items)

variable {out out' : Core.Module} {path : Core.ItemPath} {seen : List (Named ItemKind)}

theorem ItemKind.lowerAll_cons (item : Named ItemKind) (rest : List (Named ItemKind))
    (out : Core.Module) :
    (ItemKind.lowerAll (item :: rest) out).outcome =
      item.define out.path >>= fun defs =>
      duplicateAt out.path item.span (out.declare item.name item.isPub defs) >>= fun out =>
      (ItemKind.lowerAll rest out).outcome := by
  obtain ⟨name, isPub, attrs, kind, span⟩ := item
  simp only [ItemKind.lowerAll, Traced.outcome_bind, Traced.outcome_lift]
  rfl

theorem duplicateAt_eq_ok {α : Type} {span : Location} {r : Except Core.NameClash α} {a : α} :
    duplicateAt path span r = .ok a ↔ r = .ok a := by
  cases r <;> simp [duplicateAt, Except.mapError]

/-- One more item fills the module with what it defines. -/
theorem Named.FilledBy.step {item : Named ItemKind} {defs : Core.Definitions}
    (h : Named.FilledBy out path seen) (hdef : item.define path = .ok defs)
    (hdecl : out.declare item.name item.isPub defs = .ok out') :
    Named.FilledBy out' path (seen ++ [item]) := by
  have hdefs : item.definitions path = defs := by
    simp [Named.definitions, hdef, Except.toOption]
  simpa [Named.FilledBy, Named.entries, hdefs] using h.declare hdecl

/-- Items that lower one after the other fill the module with what they define. -/
theorem ItemKind.lowerAll_filledBy (items : List (Named ItemKind))
    (h : Named.FilledBy out path seen)
    (hout : (ItemKind.lowerAll items out).outcome = .ok out') :
    Named.FilledBy out' path (seen ++ items) ∧
      ∀ item ∈ items, ∃ defs, item.define path = .ok defs := by
  induction items generalizing out seen with
  | nil =>
    cases hout
    simpa using h
  | cons item rest ih =>
    rw [ItemKind.lowerAll_cons, h.path] at hout
    obtain ⟨defs, hdef, hout⟩ := Lowered.bind_eq_ok.mp hout
    obtain ⟨out₁, hdecl, hout⟩ := Lowered.bind_eq_ok.mp hout
    obtain ⟨hfill, hrest⟩ := ih (h.step hdef (duplicateAt_eq_ok.mp hdecl)) hout
    refine ⟨by simpa using hfill, ?_⟩
    simpa [hdef] using hrest

/-! ## Anonymous children -/

/-- The name of the anonymous child at a position. -/
def Module.anonymousName (index : Nat) : String := "#" ++ toString index

/-- Anonymous children as private items named by position, the first at
`index`. -/
def Module.anonymousItems : (index : Nat) → List Module → List (Named ItemKind)
  | _, [] => []
  | index, child :: rest =>
    ⟨Module.anonymousName index, false, {}, .module child, child.span⟩ ::
      Module.anonymousItems (index + 1) rest

theorem Module.mem_anonymousItems {children : List Module} {index : Nat} {item : Named ItemKind} :
    item ∈ Module.anonymousItems index children ↔ ∃ i child, children[i]? = some child ∧
      item = ⟨Module.anonymousName (index + i), false, {}, .module child, child.span⟩ := by
  induction children generalizing index with
  | nil => simp [Module.anonymousItems]
  | cons child rest ih =>
    rw [Module.anonymousItems, List.mem_cons, ih]
    constructor
    · rintro (rfl | ⟨i, c, hc, rfl⟩)
      · exact ⟨0, child, rfl, rfl⟩
      · exact ⟨i + 1, c, hc, by rw [Nat.add_assoc, Nat.add_comm 1 i]⟩
    · rintro ⟨_ | i, c, hc, rfl⟩
      · cases hc
        exact .inl rfl
      · exact .inr ⟨i, c, hc, by rw [Nat.add_assoc, Nat.add_comm 1 i]⟩

theorem Module.anonymousItems_names (children : List Module) (index : Nat) :
    (Module.anonymousItems index children).map (·.name) =
      (List.range' index children.length).map Module.anonymousName := by
  induction children generalizing index with
  | nil => rfl
  | cons child rest ih =>
    simp only [Module.anonymousItems, List.map_cons, List.length_cons, List.range'_succ, ih]

/-- The items that a module declares, its anonymous children after the others. -/
def Module.declared (m : Module) : List (Named ItemKind) :=
  m.items ++ Module.anonymousItems 0 m.anonymous

theorem ItemKind.lowerAll_append (first second : List (Named ItemKind)) (out : Core.Module) :
    (ItemKind.lowerAll (first ++ second) out).outcome =
      (ItemKind.lowerAll first out).outcome >>= fun out =>
      (ItemKind.lowerAll second out).outcome := by
  induction first generalizing out with
  | nil => rfl
  | cons item rest ih =>
    simp only [List.cons_append, ItemKind.lowerAll_cons, ih, bind_assoc]

/-- A child that is added to the type name space is declared as an item that
defines nothing else. -/
theorem Module.lowerAnonymous_outcome (children : List Module) (index : Nat) (out : Core.Module) :
    (Module.lowerAnonymous children index out).outcome =
      (ItemKind.lowerAll (Module.anonymousItems index children) out).outcome := by
  induction children generalizing index out with
  | nil => rfl
  | cons child rest ih =>
    simp only [Module.lowerAnonymous, Module.anonymousItems, ItemKind.lowerAll_cons,
      Traced.outcome_bind, Traced.outcome_lift, Named.define, ItemKind.lower, bind_assoc, ih]
    rfl

/-- A module lowers as its declared items do. -/
theorem Module.lower_outcome (m : Module) (path : Core.ItemPath) :
    (m.lower path).outcome = (ItemKind.lowerAll m.declared (.empty path)).outcome := by
  obtain ⟨items, anonymous, macros, imports, span⟩ := m
  simp only [Module.lower, Module.declared, Module.items, Module.anonymous,
    ItemKind.lowerAll_append, Traced.outcome_bind, Traced.outcome_emit,
    Module.lowerAnonymous_outcome, Traced.outcome_pure, Lowered.ok_bind, Lowered.bind_ok]

/-! ## Induction over the tree of modules -/

/-- The property goes from the declared children of a module to the module. -/
def Module.Ascends (P : Module → Prop) : Prop :=
  ∀ m : Module, (∀ item ∈ m.declared, ∀ child, item.data = .module child → P child) → P m

mutual

/-- What holds of a module whenever it holds of its declared children holds of
every module. -/
theorem Module.tree_induction {P : Module → Prop} (step : Module.Ascends P) :
    ∀ m : Module, P m
  | .mk items anonymous macros imports span => by
    refine step _ fun item hi child hc => ?_
    rcases List.mem_append.mp hi with hi | hi
    · exact ItemKind.tree_induction_all step items item hi child hc
    · obtain ⟨i, c, hget, rfl⟩ := Module.mem_anonymousItems.mp hi
      cases hc
      exact Module.tree_induction_all step anonymous child (List.mem_of_getElem? hget)

theorem ItemKind.tree_induction {P : Module → Prop} (step : Module.Ascends P) :
    ∀ (kind : ItemKind) (child : Module), kind = .module child → P child
  | .module m, _, h => ItemKind.module.inj h ▸ Module.tree_induction step m
  | .removed, _, h | .externCrate _, _, h | .typeAlias _, _, h | .struct _, _, h
  | .enum _, _, h | .trait _, _, h | .function _, _, h | .static _, _, h => nomatch h

theorem ItemKind.tree_induction_all {P : Module → Prop} (step : Module.Ascends P) :
    ∀ items : List (Named ItemKind), ∀ item ∈ items, ∀ child, item.data = .module child → P child
  | [] => fun _ hi => nomatch hi
  | ⟨_, _, _, kind, _⟩ :: rest => List.forall_mem_cons.mpr
      ⟨ItemKind.tree_induction step kind, ItemKind.tree_induction_all step rest⟩

theorem Module.tree_induction_all {P : Module → Prop} (step : Module.Ascends P) :
    ∀ children : List Module, ∀ child ∈ children, P child
  | [] => fun _ hc => nomatch hc
  | m :: rest => List.forall_mem_cons.mpr
      ⟨Module.tree_induction step m, Module.tree_induction_all step rest⟩

end

end Surface

end Lowering
