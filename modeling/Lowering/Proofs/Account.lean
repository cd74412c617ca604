import Lowering.Proofs.Coherence
import Lowering.Proofs.MacroTable
import Lowering.Proofs.Reordering
import Mathlib.Algebra.Ring.Nat
import Mathlib.Data.List.Perm.Basic

/-!
# The log as an account of the run

The log of a crate that lowers is determined by the crate and its result:
`Module.account` reads it off the two trees. A module is entered; its items follow in
source order, each with the account of the module that it may be; then its anonymous
children; and what is logged last of a module is how many types and values it holds.

What is proved:
  1. `ItemKind.lowerAll_sizes`: a run over items adds one entry for each name that
     they declare.
  2. `Module.lower_log`: the log of a module that lowers is its account.
  3. `Module.log_perm`: in another order, that log is what each module of the tree
     logs of itself, so that its events can be counted module by module.
  4. `NamedMacro.collect_log`: each macro is a new name of the table or logged as a
     redefinition.
Main statement: `Crate.lower_accounted`.
-/

namespace Lowering

/-- What an event reports. -/
inductive EventKind where
  | span
  | redefinition
  | macroTable
  | item
  | removedItem
  | externCrate
  | moduleLowered
  deriving DecidableEq

/-- The kind of an event. -/
def Event.kind : Event → EventKind
  | .enterCrate _ | .enterModule _ => .span
  | .macroIgnored _ | .macroReplaced _ => .redefinition
  | .macroTable _ => .macroTable
  | .item _ => .item
  | .removedItem _ => .removedItem
  | .externCrate _ => .externCrate
  | .moduleLowered _ _ => .moduleLowered

/-- The number of types that an event reports. -/
def Event.types : Event → Nat
  | .moduleLowered types _ => types
  | _ => 0

/-- The number of values that an event reports. -/
def Event.values : Event → Nat
  | .moduleLowered _ values => values
  | _ => 0

theorem Event.types_eq_zero {e : Event} (h : e.kind ≠ .moduleLowered) : e.types = 0 := by
  cases e with
  | moduleLowered types values => exact absurd rfl h
  | _ => rfl

theorem Event.values_eq_zero {e : Event} (h : e.kind ≠ .moduleLowered) : e.values = 0 := by
  cases e with
  | moduleLowered types values => exact absurd rfl h
  | _ => rfl

theorem Traced.log_bind {α β : Type} {t : Traced α} {a : α} (h : t.outcome = .ok a)
    (k : α → Traced β) : (t >>= k).log = t.log ++ (k a).log := by
  show (t.andThen k).log = _
  unfold Traced.andThen
  rw [h]

theorem Traced.log_lift_bind {α β : Type} {x : Lowered α} {a : α} (h : x = .ok a)
    (k : α → Traced β) : (Traced.lift x >>= k).log = (k a).log := by
  subst h
  rfl

/-- What does not lower modules logs nothing, whether it stops or not. -/
theorem Traced.log_lift_pure {α β : Type} (x : Lowered α) (f : α → β) :
    (Traced.lift x >>= fun a => pure (f a)).log = [] := by
  cases x <;> rfl

/-! ## Sizes -/

theorem NameMap.size_addIf? {α : Type} {m m' : NameMap α} {name : String} {a? : Option α}
    (h : m.addIf? name a? = some m') : m'.size = m.size + if a?.isSome then 1 else 0 := by
  cases a? with
  | none =>
    cases h
    rfl
  | some a => exact NameMap.size_add? h

/-- Declaring adds an entry for each of the two things that may be defined. -/
theorem Core.Module.declare_sizes {m m' : Core.Module} {name : String} {isPub : Bool}
    {d : Core.Definitions} (h : m.declare name isPub d = .ok m') :
    m'.types.size = m.types.size + (if d.type?.isSome then 1 else 0) ∧
      m'.values.size = m.values.size + if d.value?.isSome then 1 else 0 := by
  have hentered := toOption_eq_some.mpr h
  rw [Core.Module.declare_toOption] at hentered
  obtain ⟨spaces, hspaces, rfl⟩ := Option.map_eq_some_iff.mp hentered
  obtain ⟨values, types, hvalues, htypes, rfl⟩ := Option.map₂_eq_some_iff.mp hspaces
  have htypeSize := NameMap.size_addIf? htypes
  have hvalueSize := NameMap.size_addIf? hvalues
  rw [Option.isSome_map] at htypeSize hvalueSize
  exact ⟨htypeSize, hvalueSize⟩

namespace Surface

variable {items : List (Named ItemKind)} {m : Module} {path : Core.ItemPath}
  {out out' : Core.Module}

/-- A run over items adds an entry for each name that they declare. -/
theorem ItemKind.lowerAll_sizes (h : (ItemKind.lowerAll items out).outcome = .ok out') :
    out'.types.size = out.types.size + items.countP (·.data.declares .type) ∧
      out'.values.size = out.values.size + items.countP (·.data.declares .value) := by
  induction items generalizing out with
  | nil =>
    cases h
    exact ⟨rfl, rfl⟩
  | cons item rest ih =>
    rw [ItemKind.lowerAll_cons] at h
    obtain ⟨defs, hdefs, h⟩ := Lowered.bind_eq_ok.mp h
    obtain ⟨next, hnext, h⟩ := Lowered.bind_eq_ok.mp h
    obtain ⟨htypes, hvalues⟩ := Core.Module.declare_sizes (duplicateAt_eq_ok.mp hnext)
    have hdefines := ItemKind.defines_of_lower hdefs
    rw [hdefines.declares_type] at htypes
    rw [hdefines.declares_value] at hvalues
    obtain ⟨hrestTypes, hrestValues⟩ := ih h
    rw [List.countP_cons, List.countP_cons, hrestTypes, hrestValues, htypes, hvalues]
    constructor <;> omega

/-- The number of types that a module declares. -/
def Module.typeCount (m : Module) : Nat :=
  m.items.countP (·.data.declares .type) + m.anonymous.length

/-- The number of values that a module declares. -/
def Module.valueCount (m : Module) : Nat := m.items.countP (·.data.declares .value)

theorem Module.countP_anonymousItems (space : Core.Namespace) (children : List Module)
    (index : Nat) :
    (Module.anonymousItems index children).countP (·.data.declares space) =
      if space = .type then children.length else 0 := by
  induction children generalizing index with
  | nil => cases space <;> rfl
  | cons child rest ih =>
    rw [Module.anonymousItems, List.countP_cons, ih]
    cases space <;> rfl

/-- The name spaces of a lowered module hold what the module declares. -/
theorem Module.lower_sizes (h : (m.lower path).outcome = .ok out) :
    out.types.size = m.typeCount ∧ out.values.size = m.valueCount := by
  rw [Module.lower_outcome] at h
  obtain ⟨htypes, hvalues⟩ := ItemKind.lowerAll_sizes h
  rw [Module.declared, List.countP_append, Module.countP_anonymousItems] at htypes hvalues
  exact ⟨htypes.trans (Nat.zero_add _), hvalues.trans (Nat.zero_add _)⟩

/-! ## Accounts -/

/-- What an item logs of itself, a module in it apart. -/
def ItemKind.notices (name : String) : ItemKind → List Event
  | .removed => [.removedItem name]
  | .externCrate c => [.externCrate c]
  | _ => []

mutual

/-- What is logged of the item `name`, where `child?` is the module that it lowers
to, if it is one. -/
def ItemKind.account (name : String) (child? : Option Core.Module) : ItemKind → List Event
  | .module m =>
    match child? with
    | some child => m.account child
    | none => []
  | kind => kind.notices name

/-- What is logged of a module that lowers to `out`. -/
def Module.account : Module → Core.Module → List Event
  | .mk items anonymous _ _ _, out =>
    .enterModule out.path :: (ItemKind.accountAll items out ++
      (Module.accountAnonymous anonymous 0 out ++
        [.moduleLowered out.types.size out.values.size]))

/-- What is logged of items in source order, in a module that lowers to `out`. -/
def ItemKind.accountAll : List (Named ItemKind) → Core.Module → List Event
  | [], _ => []
  | ⟨name, _, _, kind, _⟩ :: rest, out =>
    .item name :: (kind.account name (out.submodule? name) ++ ItemKind.accountAll rest out)

/-- What is logged of anonymous children, the first at position `index`. -/
def Module.accountAnonymous : List Module → (index : Nat) → Core.Module → List Event
  | [], _, _ => []
  | child :: rest, index, out =>
    (match out.submodule? (Module.anonymousName index) with
      | some lowered => child.account lowered
      | none => []) ++ Module.accountAnonymous rest (index + 1) out

end

/-- What is logged of an item in a module that lowers to `out`, after its name. -/
def Named.account (out : Core.Module) (item : Named ItemKind) : List Event :=
  item.data.account item.name (out.submodule? item.name)

theorem ItemKind.accountAll_eq (items : List (Named ItemKind)) (out : Core.Module) :
    ItemKind.accountAll items out =
      items.flatMap fun item => .item item.name :: item.account out := by
  induction items with
  | nil => rfl
  | cons item rest ih =>
    obtain ⟨name, isPub, attrs, kind, span⟩ := item
    rw [ItemKind.accountAll, ih]
    rfl

theorem Module.accountAnonymous_eq (children : List Module) (index : Nat) (out : Core.Module) :
    Module.accountAnonymous children index out =
      (Module.anonymousItems index children).flatMap (Named.account out) := by
  induction children generalizing index with
  | nil => rfl
  | cons child rest ih =>
    rw [Module.accountAnonymous, ih, Module.anonymousItems, List.flatMap_cons]
    rfl

theorem Module.account_eq (m : Module) (out : Core.Module) :
    m.account out = .enterModule out.path ::
      ((m.items.flatMap fun item => .item item.name :: item.account out) ++
        ((Module.anonymousItems 0 m.anonymous).flatMap (Named.account out) ++
          [.moduleLowered out.types.size out.values.size])) := by
  obtain ⟨items, anonymous, macros, imports, span⟩ := m
  rw [Module.account, ItemKind.accountAll_eq, Module.accountAnonymous_eq]
  rfl

/-! ## The log of a module -/

/-- What an item of the module at `path` logs after its name. -/
def Named.log (path : Core.ItemPath) (item : Named ItemKind) : List Event :=
  (item.data.lower item.name (path.join item.name)).log

theorem ItemKind.lowerAll_log (h : (ItemKind.lowerAll items out).outcome = .ok out') :
    (ItemKind.lowerAll items out).log =
      items.flatMap fun item => .item item.name :: item.log out.path := by
  induction items generalizing out with
  | nil => rfl
  | cons item rest ih =>
    rw [ItemKind.lowerAll_cons] at h
    obtain ⟨defs, hdefs, h⟩ := Lowered.bind_eq_ok.mp h
    obtain ⟨next, hnext, h⟩ := Lowered.bind_eq_ok.mp h
    have hrest := ih h
    rw [Core.Module.declare_path (duplicateAt_eq_ok.mp hnext)] at hrest
    obtain ⟨name, isPub, attrs, kind, span⟩ := item
    rw [ItemKind.lowerAll, Traced.log_bind rfl, Traced.log_bind hdefs,
      Traced.log_lift_bind hnext, hrest]
    rfl

theorem Named.log_module {item : Named ItemKind} {child : Module} {lowered : Core.Module}
    (hdata : item.data = .module child)
    (h : (child.lower (path.join item.name)).outcome = .ok lowered) :
    item.log path = (child.lower (path.join item.name)).log := by
  rw [Named.log, hdata, ItemKind.lower, Traced.log_bind h]
  exact List.append_nil _

/-- An item that lowers is a module or logs no more than its notices. -/
theorem Named.module_or_notices {item : Named ItemKind} {defs : Core.Definitions}
    (h : item.data.Defines (path.join item.name) defs) :
    (∃ child lowered, item.data = .module child ∧ defs.type? = some (.module lowered) ∧
      (child.lower (path.join item.name)).outcome = .ok lowered) ∨
    (∀ child, item.data ≠ .module child) ∧ item.log path = item.data.notices item.name := by
  rw [Named.log]
  cases hdata : item.data with
  | module child =>
    rw [hdata] at h
    cases h with
    | @module _ lowered hlowered => exact .inl ⟨child, lowered, rfl, rfl, hlowered⟩
  | removed => exact .inr ⟨nofun, rfl⟩
  | externCrate c => exact .inr ⟨nofun, rfl⟩
  | typeAlias _ | struct _ | enum _ | trait _ | function _ | static _ =>
    exact .inr ⟨nofun, Traced.log_lift_pure _ _⟩

theorem Module.lowerAnonymous_log {children : List Module} {index : Nat}
    (h : (Module.lowerAnonymous children index out).outcome = .ok out') :
    (Module.lowerAnonymous children index out).log =
      (Module.anonymousItems index children).flatMap (Named.log out.path) := by
  induction children generalizing index out with
  | nil => rfl
  | cons child rest ih =>
    rw [Module.lowerAnonymous, Traced.outcome_bind] at h
    obtain ⟨lowered, hlowered, h⟩ := Lowered.bind_eq_ok.mp h
    rw [Traced.outcome_bind, Traced.outcome_lift] at h
    obtain ⟨next, hnext, h⟩ := Lowered.bind_eq_ok.mp h
    have hdeclare : out.declare (Module.anonymousName index) false
        ⟨none, some (.module lowered)⟩ = .ok next := duplicateAt_eq_ok.mp hnext
    have hrest := ih h
    rw [Core.Module.declare_path hdeclare] at hrest
    rw [Module.lowerAnonymous, Traced.log_bind hlowered, Traced.log_lift_bind hnext, hrest,
      Module.anonymousItems, List.flatMap_cons, Named.log_module rfl hlowered]
    rfl

/-- The log of a module, item by item and child by child. -/
theorem Module.log_eq (h : (m.lower path).outcome = .ok out) :
    (m.lower path).log = .enterModule path ::
      ((m.items.flatMap fun item => .item item.name :: item.log path) ++
        ((Module.anonymousItems 0 m.anonymous).flatMap (Named.log path) ++
          [.moduleLowered out.types.size out.values.size])) := by
  obtain ⟨items, anonymous, macros, imports, span⟩ := m
  rw [Module.lower] at h ⊢
  simp only [Traced.outcome_bind, Traced.outcome_emit, Traced.outcome_pure, Lowered.ok_bind,
    Lowered.bind_ok] at h
  obtain ⟨out₁, hitems, h⟩ := Lowered.bind_eq_ok.mp h
  have hpath : out₁.path = path := ItemKind.path_of_lowerAll hitems
  rw [Traced.log_bind rfl, Traced.log_bind hitems, Traced.log_bind h, Traced.log_bind rfl,
    ItemKind.lowerAll_log hitems, Module.lowerAnonymous_log h, hpath]
  rfl

theorem Named.account_of_ne {item : Named ItemKind} (h : ∀ child, item.data ≠ .module child)
    (out : Core.Module) : item.account out = item.data.notices item.name := by
  rw [Named.account]
  cases hdata : item.data with
  | module child => exact absurd hdata (h child)
  | _ => rfl

/-- What an item of a lowered module logs is its account. -/
theorem Named.log_eq_account (h : (m.lower path).outcome = .ok out) {item : Named ItemKind}
    (hitem : item ∈ m.declared)
    (hchild : ∀ child, item.data = .module child → ∀ path out,
      (child.lower path).outcome = .ok out → (child.lower path).log = child.account out) :
    item.log path = item.account out := by
  obtain ⟨hfill, hdef⟩ := Module.lower_filledBy h
  rcases Named.module_or_notices (hdef item hitem) with
    ⟨child, lowered, hdata, htype, hlowered⟩ | ⟨hne, hlog⟩
  · have hentry := Named.mem_entries.mpr ⟨item, hitem, rfl, _, htype, rfl⟩
    have hsub := Core.Module.submodule?_eq_some.mpr ⟨_, (hfill.types.get? _ _).mpr hentry⟩
    rw [Named.log_module hdata hlowered, Named.account, hdata, hsub, ItemKind.account]
    exact hchild child hdata _ _ hlowered
  · rw [hlog, Named.account_of_ne hne]

/-- The log of a module that lowers is its account. -/
theorem Module.lower_log : ∀ (m : Module) (path : Core.ItemPath) (out : Core.Module),
    (m.lower path).outcome = .ok out → (m.lower path).log = m.account out := by
  refine Module.tree_induction fun m ih path out h => ?_
  have hitem (item : Named ItemKind) (hi : item ∈ m.declared) :
      item.log path = item.account out :=
    Named.log_eq_account h hi (ih item hi)
  have hitems : m.items.flatMap (fun item => Event.item item.name :: item.log path) =
      m.items.flatMap fun item => .item item.name :: item.account out :=
    List.flatMap_congr fun item hi => by rw [hitem item (List.mem_append_left _ hi)]
  have hanonymous : (Module.anonymousItems 0 m.anonymous).flatMap (Named.log path) =
      (Module.anonymousItems 0 m.anonymous).flatMap (Named.account out) :=
    List.flatMap_congr fun item hi => hitem item (List.mem_append_right _ hi)
  rw [Module.log_eq h, Module.account_eq, Module.lower_path h, hitems, hanonymous]

/-! ## Counting -/

mutual

/-- The modules of the tree of an item at `path`, each with its path. -/
def ItemKind.tree (path : Core.ItemPath) : ItemKind → List (Core.ItemPath × Module)
  | .module m => m.tree path
  | .removed | .externCrate _ | .typeAlias _ | .struct _ | .enum _ | .trait _ | .function _
  | .static _ => []

/-- The modules of the tree of the module at `path`, each with its path. -/
def Module.tree : Module → Core.ItemPath → List (Core.ItemPath × Module)
  | .mk items anonymous macros imports span, path =>
    (path, .mk items anonymous macros imports span) ::
      (ItemKind.treeAll items path ++ Module.treeAnonymous anonymous 0 path)

/-- The modules among the items of the module at `path` and below them. -/
def ItemKind.treeAll : List (Named ItemKind) → Core.ItemPath → List (Core.ItemPath × Module)
  | [], _ => []
  | ⟨name, _, _, kind, _⟩ :: rest, path =>
    kind.tree (path.join name) ++ ItemKind.treeAll rest path

/-- The anonymous children of the module at `path` and what is below them. -/
def Module.treeAnonymous : List Module → (index : Nat) → Core.ItemPath →
    List (Core.ItemPath × Module)
  | [], _, _ => []
  | child :: rest, index, path =>
    child.tree (path.join (Module.anonymousName index)) ++
      Module.treeAnonymous rest (index + 1) path

end

/-- The modules at and below an item of the module at `path`. -/
def Named.tree (path : Core.ItemPath) (item : Named ItemKind) : List (Core.ItemPath × Module) :=
  item.data.tree (path.join item.name)

theorem ItemKind.treeAll_eq (items : List (Named ItemKind)) (path : Core.ItemPath) :
    ItemKind.treeAll items path = items.flatMap (Named.tree path) := by
  induction items with
  | nil => rfl
  | cons item rest ih =>
    obtain ⟨name, isPub, attrs, kind, span⟩ := item
    rw [ItemKind.treeAll, ih]
    rfl

theorem Module.treeAnonymous_eq (children : List Module) (index : Nat) (path : Core.ItemPath) :
    Module.treeAnonymous children index path =
      (Module.anonymousItems index children).flatMap (Named.tree path) := by
  induction children generalizing index with
  | nil => rfl
  | cons child rest ih =>
    rw [Module.treeAnonymous, ih, Module.anonymousItems, List.flatMap_cons]
    rfl

theorem Module.tree_eq (m : Module) (path : Core.ItemPath) :
    m.tree path = (path, m) :: (m.items.flatMap (Named.tree path) ++
      (Module.anonymousItems 0 m.anonymous).flatMap (Named.tree path)) := by
  obtain ⟨items, anonymous, macros, imports, span⟩ := m
  rw [Module.tree, ItemKind.treeAll_eq, Module.treeAnonymous_eq]
  rfl

/-- What a module logs of itself, the modules in it apart. -/
def Module.ownEvents (node : Core.ItemPath × Module) : List Event :=
  .enterModule node.1 ::
    ((node.2.items.flatMap fun item => .item item.name :: item.data.notices item.name) ++
      [.moduleLowered node.2.typeCount node.2.valueCount])

theorem Named.tree_of_ne {item : Named ItemKind} (h : ∀ child, item.data ≠ .module child)
    (path : Core.ItemPath) : item.tree path = [] := by
  rw [Named.tree]
  cases hdata : item.data with
  | module child => exact absurd hdata (h child)
  | _ => rfl

/-- What is logged of an item is what it logs of itself and what the modules of its
tree do. -/
theorem Named.log_perm {item : Named ItemKind} {defs : Core.Definitions}
    (hdef : item.data.Defines (path.join item.name) defs)
    (hchild : ∀ child, item.data = .module child → ∀ path out,
      (child.lower path).outcome = .ok out →
      (child.lower path).log.Perm ((child.tree path).flatMap Module.ownEvents)) :
    (item.log path).Perm
      (item.data.notices item.name ++ (item.tree path).flatMap Module.ownEvents) := by
  rcases Named.module_or_notices hdef with ⟨child, lowered, hdata, -, hlowered⟩ | ⟨hne, hlog⟩
  · rw [Named.log_module hdata hlowered, Named.tree, hdata]
    exact hchild child hdata _ _ hlowered
  · rw [hlog, Named.tree_of_ne hne]
    exact .of_eq (List.append_nil _).symm

/-- In another order, the log of a module is what each module of its tree logs of
itself. -/
theorem Module.log_perm : ∀ (m : Module) (path : Core.ItemPath) (out : Core.Module),
    (m.lower path).outcome = .ok out →
    (m.lower path).log.Perm ((m.tree path).flatMap Module.ownEvents) := by
  refine Module.tree_induction fun m ih path out h => ?_
  obtain ⟨-, hdef⟩ := Module.lower_filledBy h
  obtain ⟨htypes, hvalues⟩ := Module.lower_sizes h
  have hitem (item : Named ItemKind) (hi : item ∈ m.declared) :
      (item.log path).Perm
        (item.data.notices item.name ++ (item.tree path).flatMap Module.ownEvents) :=
    Named.log_perm (hdef item hi) (ih item hi)
  -- the items' own events, and after them those of the modules among them
  have hitems : (m.items.flatMap fun item => Event.item item.name :: item.log path).Perm
      ((m.items.flatMap fun item => Event.item item.name :: item.data.notices item.name) ++
        m.items.flatMap fun item => (item.tree path).flatMap Module.ownEvents) := by
    refine .trans (.flatMap_left _ fun item hi => ?_) (List.flatMap_append_perm _ _ _).symm
    exact (hitem item (List.mem_append_left _ hi)).cons _
  have hanonymous : ((Module.anonymousItems 0 m.anonymous).flatMap (Named.log path)).Perm
      ((Module.anonymousItems 0 m.anonymous).flatMap fun item =>
        (item.tree path).flatMap Module.ownEvents) := by
    refine .flatMap_left _ fun item hi => ?_
    have hmem : item ∈ m.declared := List.mem_append_right _ hi
    obtain ⟨i, child, -, rfl⟩ := Module.mem_anonymousItems.mp hi
    exact hitem _ hmem
  rw [Module.log_eq h, Module.tree_eq, List.flatMap_cons, Module.ownEvents, htypes, hvalues,
    List.flatMap_append, List.flatMap_assoc, List.flatMap_assoc, List.cons_append]
  refine .cons _ ?_
  refine (hitems.append (hanonymous.append_right _)).trans ?_
  rw [List.append_assoc, List.append_assoc]
  refine .append_left _ ?_
  rw [← List.append_assoc]
  exact List.perm_append_comm

/-- Whether an item was removed. -/
def ItemKind.isRemoved : ItemKind → Bool
  | .removed => true
  | _ => false

/-- Whether an item names another crate. -/
def ItemKind.isExternCrate : ItemKind → Bool
  | .externCrate _ => true
  | _ => false

/-- How many events of a kind a module logs of itself. -/
def Module.ownCount (m : Module) : EventKind → Nat
  | .span | .moduleLowered => 1
  | .redefinition | .macroTable => 0
  | .item => m.items.length
  | .removedItem => m.items.countP (·.data.isRemoved)
  | .externCrate => m.items.countP (·.data.isExternCrate)

theorem countP_flatMap_eq {α β : Type} {f : α → List β} {p : β → Bool} {q : α → Bool}
    (h : ∀ a, (f a).countP p = if q a then 1 else 0) (l : List α) :
    (l.flatMap f).countP p = l.countP q := by
  induction l with
  | nil => rfl
  | cons a rest ih =>
    rw [List.flatMap_cons, List.countP_append, List.countP_cons, h, ih, Nat.add_comm]

theorem Module.countP_ownEvents (node : Core.ItemPath × Module) (kind : EventKind) :
    (Module.ownEvents node).countP (·.kind == kind) = node.2.ownCount kind := by
  have hitems {q : Named ItemKind → Bool}
      (h : ∀ item : Named ItemKind, (Event.item item.name :: item.data.notices item.name).countP
        (·.kind == kind) = if q item then 1 else 0) :
      (node.2.items.flatMap fun item => Event.item item.name :: item.data.notices item.name).countP
        (·.kind == kind) = node.2.items.countP q :=
    countP_flatMap_eq h _
  rw [Module.ownEvents, List.countP_cons, List.countP_append, List.countP_singleton]
  cases kind with
  | item =>
    rw [hitems (q := fun _ => true) fun item => by cases item.data <;> rfl, List.countP_true]
    rfl
  | removedItem =>
    rw [hitems (q := (·.data.isRemoved)) fun item => by cases item.data <;> rfl]
    rfl
  | externCrate =>
    rw [hitems (q := (·.data.isExternCrate)) fun item => by cases item.data <;> rfl]
    rfl
  | span | redefinition | macroTable | moduleLowered =>
    rw [hitems (q := fun _ => false) fun item => by cases item.data <;> rfl, List.countP_false]
    rfl

theorem Module.countP_log (h : (m.lower path).outcome = .ok out) (kind : EventKind) :
    (m.lower path).log.countP (·.kind == kind) =
      ((m.tree path).map fun node => node.2.ownCount kind).sum := by
  rw [(Module.log_perm m path out h).countP_eq, List.countP_flatMap]
  exact congrArg List.sum (List.map_congr_left fun node _ => Module.countP_ownEvents node kind)

section

variable {weight : Event → Nat} (hweight : ∀ e, e.kind ≠ .moduleLowered → weight e = 0)

include hweight

theorem sum_eq_zero_of_kind {log : List Event} (h : ∀ e ∈ log, e.kind ≠ .moduleLowered) :
    (log.map weight).sum = 0 :=
  List.sum_eq_zero_iff_forall_eq_nat.mpr
    (List.forall_mem_map.mpr fun e he => hweight e (h e he))

theorem Module.sum_ownEvents (node : Core.ItemPath × Module) :
    ((Module.ownEvents node).map weight).sum =
      weight (.moduleLowered node.2.typeCount node.2.valueCount) := by
  have hitems : ∀ e ∈ node.2.items.flatMap fun item =>
      Event.item item.name :: item.data.notices item.name, e.kind ≠ .moduleLowered := by
    refine List.forall_mem_flatMap.mpr fun item _ => List.forall_mem_cons.mpr ⟨nofun, ?_⟩
    cases item.data <;> simp [ItemKind.notices, Event.kind]
  rw [Module.ownEvents, List.map_cons, List.map_append, List.sum_cons, List.sum_append_nat,
    sum_eq_zero_of_kind hweight hitems, hweight (.enterModule node.1) nofun]
  simp

theorem Module.sum_log (h : (m.lower path).outcome = .ok out) :
    ((m.lower path).log.map weight).sum = ((m.tree path).map fun node =>
      weight (.moduleLowered node.2.typeCount node.2.valueCount)).sum := by
  rw [((Module.log_perm m path out h).map weight).sum_nat, List.map_flatMap, List.flatMap_def,
    List.sum_flatten, List.map_map]
  exact congrArg List.sum (List.map_congr_left fun node _ => Module.sum_ownEvents hweight node)

end

/-! ## Macro tables -/

section

variable {m : NamedMacro} {rest : List NamedMacro} {table : NameMap MacroRules}

theorem NamedMacro.collect_new (policy : ConflictPolicy) (h : table.contains m.name = false) :
    NamedMacro.collect policy (m :: rest) table =
      NamedMacro.collect policy rest (table.set m.name m.rules) := by
  rw [NamedMacro.collect.eq_def policy (m :: rest) table]
  exact if_neg (Bool.eq_false_iff.mp h)

theorem NamedMacro.collect_ignored (h : table.contains m.name = true) :
    NamedMacro.collect .keepFirst (m :: rest) table =
      ⟨.macroIgnored m.name :: (NamedMacro.collect .keepFirst rest table).log,
        (NamedMacro.collect .keepFirst rest table).outcome⟩ := by
  rw [NamedMacro.collect, h]
  rfl

theorem NamedMacro.collect_replaced (h : table.contains m.name = true) :
    NamedMacro.collect .keepLast (m :: rest) table =
      ⟨.macroReplaced m.name ::
          (NamedMacro.collect .keepLast rest (table.set m.name m.rules)).log,
        (NamedMacro.collect .keepLast rest (table.set m.name m.rules)).outcome⟩ := by
  rw [NamedMacro.collect, h]
  rfl

end

/-- Each macro is a new name of the table or logged as a redefinition. -/
theorem NamedMacro.collect_log {policy : ConflictPolicy} {entries : List NamedMacro}
    {table table' : NameMap MacroRules} (hascending : NameMap.Ascending table.entries)
    (h : (NamedMacro.collect policy entries table).outcome = .ok table') :
    (∀ e ∈ (NamedMacro.collect policy entries table).log, e.kind = .redefinition) ∧
      (NamedMacro.collect policy entries table).log.length + table'.size =
        table.size + entries.length := by
  induction entries generalizing table with
  | nil =>
    cases h
    exact ⟨List.forall_mem_nil _, Nat.zero_add _⟩
  | cons m rest ih =>
    cases hdefined : table.contains m.name with
    | false =>
      rw [NamedMacro.collect_new policy hdefined] at h ⊢
      obtain ⟨hkinds, hcount⟩ := ih hascending.set h
      rw [NameMap.size_set_of_new _ hdefined] at hcount
      rw [List.length_cons]
      exact ⟨hkinds, by omega⟩
    | true =>
      cases policy with
      | reject =>
        rw [NamedMacro.collect, hdefined] at h
        cases h
      | keepFirst =>
        rw [NamedMacro.collect_ignored hdefined] at h ⊢
        obtain ⟨hkinds, hcount⟩ := ih hascending h
        rw [List.length_cons, List.length_cons]
        exact ⟨List.forall_mem_cons.mpr ⟨rfl, hkinds⟩, by omega⟩
      | keepLast =>
        rw [NamedMacro.collect_replaced hdefined] at h ⊢
        obtain ⟨hkinds, hcount⟩ := ih hascending.set h
        rw [NameMap.size_set_of_old _ hascending hdefined] at hcount
        rw [List.length_cons, List.length_cons]
        exact ⟨List.forall_mem_cons.mpr ⟨rfl, hkinds⟩, by omega⟩

/-! ## Crates -/

variable {c : Crate} {config : Config} {lowered : Core.Crate}

/-- The log of a crate: the redefinitions, the macro table, and the log of the root. -/
theorem Crate.log_eq (h : (c.lower config).outcome = .ok lowered) :
    (c.root.lower (.root config.crateName)).outcome = .ok lowered.root ∧
    ∃ redefinitions, (c.lower config).log = .enterCrate config.crateName ::
        (redefinitions ++ .macroTable lowered.macros.size ::
          (c.root.lower (.root config.crateName)).log) ∧
      (∀ e ∈ redefinitions, e.kind = .redefinition) ∧
      redefinitions.length + lowered.macros.size = c.tableEntries.length := by
  rw [Crate.lower_outcome] at h
  obtain ⟨macros, hmacros, h⟩ := Lowered.bind_eq_ok.mp h
  obtain ⟨root, hroot, ⟨⟩⟩ := Lowered.bind_eq_ok.mp h
  have hempty : NameMap.Ascending (NameMap.empty : NameMap MacroRules).entries := .nil
  obtain ⟨hkinds, hcount⟩ := NamedMacro.collect_log hempty hmacros
  refine ⟨hroot, _, ?_, hkinds, hcount.trans (Nat.zero_add _)⟩
  unfold Crate.tableEntries at hmacros ⊢
  rw [Crate.lower, Traced.log_bind rfl, Traced.log_bind hmacros, Traced.log_bind rfl,
    Traced.log_bind hroot]
  have hlast : (pure ⟨root, macros⟩ : Traced Core.Crate).log = [] := rfl
  rw [hlast, List.append_nil]
  rfl

/-- The modules of a crate: its root and all below it, named or anonymous. -/
def Crate.modules (c : Crate) (config : Config) : List Module :=
  (c.root.tree (.root config.crateName)).map Prod.snd

/-- The number of events of a kind, from what each module logs of itself. -/
theorem Crate.countP_log (h : (c.lower config).outcome = .ok lowered) (kind : EventKind) :
    (c.lower config).log.countP (·.kind == kind) +
        (if kind = .redefinition then lowered.macros.size else 0) =
      ((c.modules config).map (·.ownCount kind)).sum +
        (if kind = .redefinition then c.tableEntries.length else 0) +
        (if kind = .macroTable then 1 else 0) + if kind = .span then 1 else 0 := by
  obtain ⟨hroot, redefinitions, hlog, hkinds, hcount⟩ := Crate.log_eq h
  have hredefinitions : redefinitions.countP (·.kind == kind) =
      if kind = .redefinition then redefinitions.length else 0 := by
    split
    · rename_i hk
      exact List.countP_eq_length.mpr fun e he => by simp [hk, hkinds e he]
    · rename_i hk
      exact List.countP_eq_zero.mpr fun e he => by simp [hkinds e he, Ne.symm hk]
  have hmodules : (c.root.lower (.root config.crateName)).log.countP (·.kind == kind) =
      ((c.modules config).map (·.ownCount kind)).sum := by
    rw [Module.countP_log hroot, Crate.modules, List.map_map]
    rfl
  rw [hlog, List.countP_cons, List.countP_append, List.countP_cons, hredefinitions, hmodules,
    ← hcount]
  cases kind with
  | redefinition => simp [Event.kind, Nat.add_assoc, Nat.add_comm, Nat.add_left_comm]
  | _ => simp [Event.kind]

/-- The sum of what the events of lowered modules report. -/
theorem Crate.sum_log (h : (c.lower config).outcome = .ok lowered) {weight : Event → Nat}
    (hweight : ∀ e, e.kind ≠ .moduleLowered → weight e = 0) :
    ((c.lower config).log.map weight).sum =
      ((c.modules config).map fun m =>
        weight (.moduleLowered m.typeCount m.valueCount)).sum := by
  obtain ⟨hroot, redefinitions, hlog, hkinds, -⟩ := Crate.log_eq h
  have hredefinitions : (redefinitions.map weight).sum = 0 :=
    sum_eq_zero_of_kind hweight fun e he => by simp [hkinds e he]
  rw [hlog, List.map_cons, List.map_append, List.map_cons, List.sum_cons, List.sum_append_nat,
    List.sum_cons, hredefinitions, hweight (.enterCrate _) nofun, hweight (.macroTable _) nofun,
    Module.sum_log hweight hroot, Crate.modules, List.map_map]
  simp [Function.comp_def]

/-- The log accounts for a crate that lowers to `out`. It tells of the macro table,
after the redefinitions, before it tells of the modules in order. Counted, it has one
event for each macro that is not a new name of the table, one for the table, one for
each module, item, removed item and extern crate, and the numbers that it reports of
modules are in sum those of the names that they declare. -/
structure Crate.Accounted (c : Crate) (config : Config) (out : Core.Crate) (log : List Event) :
    Prop where
  order : ∃ redefinitions, log = .enterCrate config.crateName ::
      (redefinitions ++ .macroTable out.macros.size :: c.root.account out.root) ∧
    ∀ e ∈ redefinitions, e.kind = .redefinition
  redefinitions : log.countP (·.kind == .redefinition) + out.macros.size = c.tableEntries.length
  tables : log.countP (·.kind == .macroTable) = 1
  modules : log.countP (·.kind == .moduleLowered) = (c.modules config).length
  items : log.countP (·.kind == .item) = ((c.modules config).map (·.items.length)).sum
  removed : log.countP (·.kind == .removedItem) =
    ((c.modules config).map (·.items.countP (·.data.isRemoved))).sum
  externCrates : log.countP (·.kind == .externCrate) =
    ((c.modules config).map (·.items.countP (·.data.isExternCrate))).sum
  types : (log.map Event.types).sum = ((c.modules config).map Module.typeCount).sum
  values : (log.map Event.values).sum = ((c.modules config).map Module.valueCount).sum

/-- The log of a crate that lowers is a faithful account of the run. -/
theorem Crate.lower_accounted (c : Crate) (config : Config) (out : Core.Crate)
    (h : (c.lower config).outcome = .ok out) : c.Accounted config out (c.lower config).log := by
  obtain ⟨hroot, redefinitions, hlog, hkinds, -⟩ := Crate.log_eq h
  have hcounts := Crate.countP_log h
  constructor
  case order => exact ⟨redefinitions, by rw [hlog, Module.lower_log _ _ _ hroot], hkinds⟩
  case redefinitions => simpa [Module.ownCount] using hcounts .redefinition
  case tables => simpa [Module.ownCount] using hcounts .macroTable
  case modules => simpa [Module.ownCount] using hcounts .moduleLowered
  case items => exact hcounts .item
  case removed => exact hcounts .removedItem
  case externCrates => exact hcounts .externCrate
  case types => exact Crate.sum_log h fun _ => Event.types_eq_zero
  case values => exact Crate.sum_log h fun _ => Event.values_eq_zero

/-- A crate that defines a macro twice and holds `mod inner { struct U; }`, a removed
item, an extern crate and a block that makes an anonymous child. -/
def repeatedMacro : Crate :=
  let inner : Module := .mk [⟨"U", false, {}, .struct ⟨{}, .tuple []⟩, .dummy⟩] [] [] [] .dummy
  let items : List (Named ItemKind) :=
    [⟨"gone", false, {}, .removed, .dummy⟩, ⟨"inner", false, {}, .module inner, .dummy⟩,
      ⟨"std", false, {}, .externCrate "std", .dummy⟩]
  let rules : MacroRules := ⟨[], false, .dummy⟩
  ⟨.mk items [.mk [] [] [] [] .dummy] [⟨"m", rules⟩, ⟨"m", rules⟩] [] .dummy, {}⟩

theorem repeatedMacro_accounted : ∃ out log,
    repeatedMacro.lower { macroConflicts := .keepLast } = ⟨log, .ok out⟩ ∧
    log.countP (·.kind == .redefinition) + out.macros.size = 2 ∧ out.macros.size = 1 ∧
    log.countP (·.kind == .moduleLowered) = 3 ∧ log.countP (·.kind == .item) = 4 ∧
    (log.map Event.types).sum = 3 ∧ (log.map Event.values).sum = 1 := by
  have h := Crate.lower_accounted repeatedMacro { macroConflicts := .keepLast } _ rfl
  exact ⟨_, _, rfl, h.redefinitions, rfl, h.modules, h.items, h.types, h.values⟩

end Surface

end Lowering
