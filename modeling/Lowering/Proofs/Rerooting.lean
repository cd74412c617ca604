import Lowering.Proofs.ClashFree
import Lowering.Proofs.Coherence
import Lowering.Proofs.MacroTable
import Lowering.Proofs.NameMap
import Lowering.Proofs.Reordering

/-!
# Roots of lowered trees

The path at which a module is lowered is a label. Lowering at `q` gives what
lowering at `p` gives, with `q` for the leading `p` in three places: the paths of
the modules, the types of the values of structs, and the path that a name clash is
reported with. Paths that the source writes stay as they are, also those that
happen to start with `p`, so this is not a substitution in the result: `Module.reroot`
says place by place what changes.

What is proved:
  1. `ItemPath.reroot_joinAll`: the path of a walk from `p` becomes that of the
     same walk from `q`.
  2. `Core.Module.declare_reroot`: names are added to a rerooted module as they are
     to the module, clashes included.
  3. `Module.lower_reroot`: what every step of a run does, log included, it does at
     the other root too. Diagnostics of fragments name no path at all.
Main statement: `lower_rerooted`.
-/

namespace Lowering

/-! ## Rerooted results -/

namespace Core

/-- The path with `q` in place of a leading `p`. -/
def ItemPath.reroot (r p q : ItemPath) : ItemPath :=
  if r.crate = p.crate ∧ p.components <+: r.components then
    ⟨q.crate, q.components ++ r.components.drop p.components.length⟩
  else r

theorem ItemPath.joinAll_concat (p : ItemPath) (names : List String) (n : String) :
    p.joinAll (names ++ [n]) = (p.joinAll names).join n := by
  unfold joinAll
  rw [List.foldl_append]
  rfl

theorem ItemPath.reroot_joinAll (p q : ItemPath) (names : List String) :
    (p.joinAll names).reroot p q = q.joinAll names := by
  rw [joinAll_eq, joinAll_eq, reroot, if_pos ⟨rfl, List.prefix_append _ _⟩, List.drop_left]

variable (p q : ItemPath)

/-- A type that is the path of an item, with its path rerooted. -/
def Ty.reroot : Ty → Ty
  | .path (.plain (.mk r args)) => .path (.plain (.mk (r.reroot p q) args))
  | t => t

/-- The value with the type of a struct's value rerooted. -/
def ValueEntry.reroot : ValueEntry → ValueEntry
  | .structConstant ty => .structConstant (ty.reroot p q)
  | .structConstructor ty => .structConstructor (ty.reroot p q)
  | value => value

/-- The entry with its item changed. -/
def Visible.map {α β : Type} (f : α → β) (e : Visible α) : Visible β := ⟨e.isPub, f e.item⟩

mutual

/-- The type with the paths of the modules in it rerooted. -/
def TypeEntry.reroot : TypeEntry → TypeEntry
  | .module m => .module m.reroot
  | .typeAlias a => .typeAlias a
  | .struct s => .struct s
  | .enum e => .enum e
  | .trait t => .trait t

/-- The module with its own path, those of the modules in it and the types of the
values of structs rerooted. -/
def Module.reroot : Module → Module
  | .mk path ⟨types⟩ values =>
    .mk (path.reroot p q) ⟨TypeEntry.rerootAll types⟩
      (values.map (Visible.map (ValueEntry.reroot p q)))

/-- The entries of a type name space with the modules among them rerooted. -/
def TypeEntry.rerootAll : List (String × Visible TypeEntry) → List (String × Visible TypeEntry)
  | [] => []
  | (n, ⟨isPub, t⟩) :: rest => (n, ⟨isPub, t.reroot⟩) :: TypeEntry.rerootAll rest

end

/-- What an item defines, rerooted. -/
def Definitions.reroot (d : Definitions) : Definitions where
  value? := d.value?.map (ValueEntry.reroot p q)
  type? := d.type?.map (TypeEntry.reroot p q)

/-- The crate with its root rerooted. -/
def Crate.reroot (c : Crate) : Crate := { c with root := c.root.reroot p q }

theorem TypeEntry.rerootAll_eq (types : List (String × Visible TypeEntry)) :
    TypeEntry.rerootAll p q types = types.map fun e => (e.1, e.2.map (TypeEntry.reroot p q)) := by
  induction types with
  | nil => rfl
  | cons e rest ih =>
    obtain ⟨n, isPub, t⟩ := e
    rw [TypeEntry.rerootAll, ih]
    rfl

theorem Module.reroot_mk (path : ItemPath) (types : NameMap (Visible TypeEntry))
    (values : NameMap (Visible ValueEntry)) :
    (Module.mk path types values).reroot p q =
      .mk (path.reroot p q) (types.map (Visible.map (TypeEntry.reroot p q)))
        (values.map (Visible.map (ValueEntry.reroot p q))) := by
  obtain ⟨types⟩ := types
  rw [Module.reroot, TypeEntry.rerootAll_eq]
  rfl

theorem Module.path_reroot {m : Module} {names : List String} (h : m.path = p.joinAll names) :
    (m.reroot p q).path = q.joinAll names := by
  obtain ⟨path, types, values⟩ := m
  rw [Module.reroot_mk, ← ItemPath.reroot_joinAll p q, ← h]
  rfl

theorem Module.size_types_reroot (m : Module) : (m.reroot p q).types.size = m.types.size := by
  obtain ⟨path, types, values⟩ := m
  rw [Module.reroot_mk]
  exact NameMap.size_map _ types

theorem Module.size_values_reroot (m : Module) : (m.reroot p q).values.size = m.values.size := by
  obtain ⟨path, types, values⟩ := m
  rw [Module.reroot_mk]
  exact NameMap.size_map _ values

theorem ValueEntry.reroot_eq_self {value : ValueEntry} (h : value.isStructValue = false) :
    value.reroot p q = value := by
  cases value with
  | structConstant ty => cases h
  | structConstructor ty => cases h
  | _ => rfl

theorem Fields.value?_reroot (data : Fields) (names : List String) :
    data.value? (q.joinAll names) =
      (data.value? (p.joinAll names)).map (ValueEntry.reroot p q) := by
  rw [← ItemPath.reroot_joinAll p q]
  cases data <;> rfl

/-! ## Adding to a rerooted module -/

theorem Attempt.outcome_map {σ τ : Type} (f : σ → τ) (a : Attempt σ) :
    (a.map f).outcome = a.outcome.map f := by
  obtain ⟨report, store⟩ := a
  cases report <;> rfl

theorem Namespace.add_map {α β : Type} (g : α → β) (space : Namespace) (m : NameMap α)
    (name : String) (value : α) :
    space.add (m.map g) name (g value) = (space.add m name value).map (NameMap.map g) := by
  unfold Namespace.add
  rw [NameMap.add?_map]
  cases m.add? name value <;> rfl

theorem Module.addType_reroot (m : Module) (name : String) (e : Visible TypeEntry) :
    (m.reroot p q).addType name (e.map (TypeEntry.reroot p q)) =
      (m.addType name e).map (Module.reroot p q) := by
  obtain ⟨path, types, values⟩ := m
  rw [Module.reroot_mk]
  simp only [Module.addType, Module.types, Module.path, Module.values, Namespace.add_map]
  exact congrArg (Attempt.mk _) (Module.reroot_mk p q path _ values).symm

theorem Module.addValue_reroot (m : Module) (name : String) (e : Visible ValueEntry) :
    (m.reroot p q).addValue name (e.map (ValueEntry.reroot p q)) =
      (m.addValue name e).map (Module.reroot p q) := by
  obtain ⟨path, types, values⟩ := m
  rw [Module.reroot_mk]
  simp only [Module.addValue, Module.types, Module.path, Module.values, Namespace.add_map]
  exact congrArg (Attempt.mk _) (Module.reroot_mk p q path types _).symm

/-- Names are added to a rerooted module as they are to the module. -/
theorem Module.declare_reroot (m : Module) (name : String) (isPub : Bool) (d : Definitions) :
    (m.reroot p q).declare name isPub (d.reroot p q) =
      (m.declare name isPub d).map (Module.reroot p q) := by
  have hvalue : (m.reroot p q).addValue? name isPub (d.reroot p q).value? =
      (m.addValue? name isPub d.value?).map (Module.reroot p q) := by
    unfold Definitions.reroot
    cases d.value? with
    | none => rfl
    | some value =>
      exact (congrArg _ (m.addValue_reroot p q name ⟨isPub, value⟩)).trans (Attempt.outcome_map _ _)
  have htype : ∀ m : Module, (m.reroot p q).addType? name isPub (d.reroot p q).type? =
      (m.addType? name isPub d.type?).map (Module.reroot p q) := by
    intro m
    unfold Definitions.reroot
    cases d.type? with
    | none => rfl
    | some type =>
      exact (congrArg _ (m.addType_reroot p q name ⟨isPub, type⟩)).trans (Attempt.outcome_map _ _)
  rw [declare_eq, declare_eq, hvalue]
  cases m.addValue? name isPub d.value? with
  | error c => rfl
  | ok m₁ => exact htype m₁

end Core

/-! ## Rerooted runs -/

section

variable {α β γ δ : Type} (p q : Core.ItemPath)

/-- The diagnostic with the path of a name clash rerooted. -/
def Diagnostic.reroot : Diagnostic → Diagnostic
  | .duplicateItem m c s => .duplicateItem (m.reroot p q) c s
  | d => d

/-- The event with the path of a module rerooted. -/
def Event.reroot : Event → Event
  | .enterModule r => .enterModule (r.reroot p q)
  | e => e

/-- The outcome with its diagnostic rerooted and its result changed. -/
def Lowered.reroot (g : α → β) (x : Lowered α) : Lowered β :=
  (x.mapError (Diagnostic.reroot p q)).map g

/-- The run with its log and its diagnostic rerooted and its result changed. -/
def Traced.reroot (g : α → β) (t : Traced α) : Traced β :=
  ⟨t.log.map (Event.reroot p q), Lowered.reroot p q g t.outcome⟩

variable {p q}

theorem Lowered.bind_reroot {x : Lowered α} {x' : Lowered β} {g : α → β} {h : γ → δ}
    {k : α → Lowered γ} {k' : β → Lowered δ} (hx : x' = x.reroot p q g)
    (hk : ∀ a, k' (g a) = (k a).reroot p q h) : (x' >>= k') = (x >>= k).reroot p q h := by
  subst hx
  cases x with
  | error d => rfl
  | ok a => exact hk a

theorem Traced.bind_reroot {t : Traced α} {t' : Traced β} {g : α → β} {h : γ → δ}
    {k : α → Traced γ} {k' : β → Traced δ} (ht : t' = t.reroot p q g)
    (hk : ∀ a, t.outcome = .ok a → k' (g a) = (k a).reroot p q h) :
    (t' >>= k') = (t >>= k).reroot p q h := by
  subst ht
  obtain ⟨log, outcome⟩ := t
  cases outcome with
  | error d => rfl
  | ok a =>
    change (⟨log.map (Event.reroot p q) ++ (k' (g a)).log, (k' (g a)).outcome⟩ : Traced δ) =
      ⟨(log ++ (k a).log).map (Event.reroot p q), _⟩
    rw [hk a rfl, List.map_append]
    rfl

theorem Traced.lift_reroot {x : Lowered α} {x' : Lowered β} {g : α → β}
    (h : x' = x.reroot p q g) : Traced.lift x' = (Traced.lift x).reroot p q g := by
  rw [h]
  rfl

/-- What never stops at a name clash is the same at every root. -/
theorem Lowered.ClashFree.reroot_eq {x : Lowered α} (h : x.ClashFree) :
    x = x.reroot p q id := by
  cases x with
  | ok a => rfl
  | error d =>
    have hd := h d rfl
    cases d with
    | duplicateItem m c s => cases hd
    | _ => rfl

end

namespace Surface

variable (p q : Core.ItemPath)

theorem duplicateAt_reroot {α β : Type} (g : α → β) (names : List String) (s : Location)
    (r : Except Core.NameClash α) :
    duplicateAt (q.joinAll names) s (r.map g) =
      (duplicateAt (p.joinAll names) s r).reroot p q g := by
  rw [← Core.ItemPath.reroot_joinAll p q]
  cases r <;> rfl

theorem TraitItem.lowerAll_reroot (names : List String) (items : List (Named TraitItem))
    (out : Core.Trait) :
    TraitItem.lowerAll (q.joinAll names) items out =
      (TraitItem.lowerAll (p.joinAll names) items out).reroot p q id := by
  induction items generalizing out with
  | nil => rfl
  | cons item rest ih =>
    refine Lowered.bind_reroot item.data.lower_clashFree.reroot_eq fun entry => ?_
    refine Lowered.bind_reroot ?_ ih
    have hclash := duplicateAt_reroot p q id names item.span (out.add item.name entry).outcome
    rwa [Except.map_id] at hclash

theorem Trait.lower_reroot (t : Trait) (names : List String) :
    t.lower (q.joinAll names) = (t.lower (p.joinAll names)).reroot p q id :=
  Lowered.bind_reroot t.lowerHead_clashFree.reroot_eq fun out =>
    TraitItem.lowerAll_reroot p q names t.items out

mutual

theorem ItemKind.lower_reroot (name : String) (names : List String) : ∀ k : ItemKind,
    k.lower name (q.joinAll names) =
      (k.lower name (p.joinAll names)).reroot p q (Core.Definitions.reroot p q)
  | .removed | .externCrate _ => rfl
  | .module m => Traced.bind_reroot (Module.lower_reroot names m) fun _ _ => rfl
  | .typeAlias a =>
    Traced.bind_reroot (Traced.lift_reroot a.lower_clashFree.reroot_eq) fun _ _ => rfl
  | .struct s => by
    refine Traced.bind_reroot (Traced.lift_reroot s.lower_clashFree.reroot_eq) fun s' _ => ?_
    rw [Core.Fields.value?_reroot p q]
    rfl
  | .enum e => Traced.bind_reroot (Traced.lift_reroot e.lower_clashFree.reroot_eq) fun _ _ => rfl
  | .trait t => Traced.bind_reroot (Traced.lift_reroot (t.lower_reroot p q names)) fun _ _ => rfl
  | .function f =>
    Traced.bind_reroot (Traced.lift_reroot f.lower_clashFree.reroot_eq) fun _ _ => rfl
  | .static s => by
    refine Traced.bind_reroot (Traced.lift_reroot s.lower_clashFree.reroot_eq) fun value hv => ?_
    -- no constant or static is the value of a struct
    have hvalue := Core.ValueEntry.reroot_eq_self p q (Static.isStructValue_of_lower hv)
    show pure _ = (pure ⟨some (value.reroot p q), none⟩ : Traced Core.Definitions)
    rw [hvalue]
    rfl

theorem Module.lower_reroot (names : List String) : ∀ m : Module,
    m.lower (q.joinAll names) = (m.lower (p.joinAll names)).reroot p q (Core.Module.reroot p q)
  | .mk items anonymous _ _ _ => by
    refine Traced.bind_reroot (g := id) ?_ fun _ _ => ?_
    · rw [← Core.ItemPath.reroot_joinAll p q]
      rfl
    have hempty : Core.Module.empty (q.joinAll names) =
        (Core.Module.empty (p.joinAll names)).reroot p q := by
      rw [← Core.ItemPath.reroot_joinAll p q]
      rfl
    rw [hempty]
    refine Traced.bind_reroot (ItemKind.lowerAll_reroot names items _ rfl) fun out hout => ?_
    have hpath : out.path = p.joinAll names := ItemKind.path_of_lowerAll hout
    refine Traced.bind_reroot (Module.lowerAnonymous_reroot names anonymous 0 out hpath)
      fun out' _ => ?_
    rw [Core.Module.size_types_reroot, Core.Module.size_values_reroot]
    rfl

theorem ItemKind.lowerAll_reroot (names : List String) :
    ∀ (items : List (Named ItemKind)) (out : Core.Module), out.path = p.joinAll names →
    ItemKind.lowerAll items (out.reroot p q) =
      (ItemKind.lowerAll items out).reroot p q (Core.Module.reroot p q)
  | [], _, _ => rfl
  | ⟨name, isPub, attrs, kind, span⟩ :: rest, out, hout => by
    rw [ItemKind.lowerAll, ItemKind.lowerAll, Core.Module.path_reroot p q hout, hout,
      ← Core.ItemPath.joinAll_concat, ← Core.ItemPath.joinAll_concat]
    refine Traced.bind_reroot (g := id) rfl fun _ _ => ?_
    refine Traced.bind_reroot (ItemKind.lower_reroot name _ kind) fun defs _ => ?_
    have hdeclare := duplicateAt_reroot p q (Core.Module.reroot p q) names span
      (out.declare name isPub defs)
    rw [← Core.Module.declare_reroot] at hdeclare
    refine Traced.bind_reroot (Traced.lift_reroot hdeclare) fun out' hout' => ?_
    refine ItemKind.lowerAll_reroot names rest out' ?_
    rw [Core.Module.declare_path (duplicateAt_eq_ok.mp hout'), hout]

theorem Module.lowerAnonymous_reroot (names : List String) :
    ∀ (children : List Module) (index : Nat) (out : Core.Module), out.path = p.joinAll names →
    Module.lowerAnonymous children index (out.reroot p q) =
      (Module.lowerAnonymous children index out).reroot p q (Core.Module.reroot p q)
  | [], _, _, _ => rfl
  | child :: rest, index, out, hout => by
    rw [Module.lowerAnonymous, Module.lowerAnonymous, Core.Module.path_reroot p q hout, hout,
      ← Core.ItemPath.joinAll_concat, ← Core.ItemPath.joinAll_concat]
    refine Traced.bind_reroot (Module.lower_reroot _ child) fun lowered _ => ?_
    have hadd := duplicateAt_reroot p q (Core.Module.reroot p q) names child.span
      (out.addType (Module.anonymousName index) ⟨false, .module lowered⟩).outcome
    rw [← Core.Attempt.outcome_map, ← Core.Module.addType_reroot] at hadd
    refine Traced.bind_reroot (Traced.lift_reroot hadd) fun out' hout' => ?_
    refine Module.lowerAnonymous_reroot names rest (index + 1) out' ?_
    -- an anonymous module is declared as an item that defines only a type
    have hdeclare : out.declare (Module.anonymousName index) false
        ⟨none, some (.module lowered)⟩ = .ok out' := duplicateAt_eq_ok.mp hout'
    rw [Core.Module.declare_path hdeclare, hout]

end

/-! ## Crates -/

theorem NamedMacro.collect_clashFree (policy : ConflictPolicy) (macros : List NamedMacro)
    (table : NameMap MacroRules) :
    Lowered.ClashFree (NamedMacro.collect policy macros table).outcome := by
  induction macros generalizing table with
  | nil => exact .ok table
  | cons m rest ih =>
    unfold NamedMacro.collect
    by_cases hdefined : table.contains m.name
    · rw [if_pos hdefined]
      cases policy with
      | reject => exact .error rfl
      | keepFirst => exact ih table
      | keepLast => exact ih (table.set m.name m.rules)
    · rw [if_neg hdefined]
      exact ih (table.set m.name m.rules)

/-- The path at which a module is lowered only labels the result: at `q` the run is
the one at `p`, with the leading `p` of the paths of modules, of the types of struct
values and of a reported name clash replaced by `q`. The name of a crate is such a
label, and its macro table does not depend on it. -/
theorem lower_rerooted :
    (∀ (m : Module) (p q : Core.ItemPath),
      m.lower q = (m.lower p).reroot p q (Core.Module.reroot p q)) ∧
    ∀ (c : Crate) (config : Config) (name : String),
      (c.lower { config with crateName := name }).outcome =
        Lowered.reroot (.root config.crateName) (.root name)
          (Core.Crate.reroot (.root config.crateName) (.root name)) (c.lower config).outcome := by
  refine ⟨fun m p q => Module.lower_reroot p q [] m, fun c config name => ?_⟩
  have hmacros : (NamedMacro.table config.macroConflicts c.tableEntries).ClashFree :=
    NamedMacro.collect_clashFree _ _ _
  have hroot := congrArg Traced.outcome
    (Module.lower_reroot (.root config.crateName) (.root name) [] c.root)
  rw [Crate.lower_outcome, Crate.lower_outcome]
  refine Lowered.bind_reroot hmacros.reroot_eq fun macros => ?_
  exact Lowered.bind_reroot hroot fun root => rfl

end Surface

end Lowering
