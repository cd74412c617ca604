import Lowering.Core.Item
import Lowering.MacroRules

/-!
# Core modules

A module has two name spaces, one for types and one for values. A name may
appear once in each, and adding an entry under a name that is taken fails. A call
that adds an entry gives two things, its report and the store that it leaves, and
both are there whether it succeeds or fails (`Attempt`).
-/

namespace Lowering.Core

/-- The two name spaces of a module or a trait. -/
inductive Namespace where
  | type
  | value
  deriving DecidableEq

/-- The word for a name space. -/
def Namespace.text : Namespace → String
  | .type => "type"
  | .value => "value"

/-- A name added twice to one name space. -/
structure NameClash where
  space : Namespace
  name : String
  deriving DecidableEq

/-- The text of a name clash. -/
def NameClash.message (c : NameClash) : String :=
  "`" ++ c.name ++ "` is already defined in the " ++ c.space.text ++ " namespace"

/-- What a call that adds an entry to a store comes to: its report, and the store
after the call. -/
structure Attempt (σ : Type) where
  report : Except NameClash Unit
  store : σ

namespace Attempt

variable {σ τ : Type}

/-- The attempt as one on a store that holds the first one. -/
def map (f : σ → τ) (a : Attempt σ) : Attempt τ := ⟨a.report, f a.store⟩

/-- The attempt for a caller that stops at a clash. -/
def outcome (a : Attempt σ) : Except NameClash σ := a.report.map fun _ => a.store

end Attempt

/-- Adds an entry to a name space, unless the name is taken. -/
def Namespace.add {α : Type} (space : Namespace) (m : NameMap α) (name : String) (value : α) :
    Attempt (NameMap α) :=
  match m.add? name value with
  | some m' => ⟨.ok (), m'⟩
  | none => ⟨.error ⟨space, name⟩, m⟩

mutual

/-- An entry of the type name space. -/
inductive TypeEntry where
  | module (module : Module)
  | typeAlias (typeAlias : TypeAlias)
  | struct (struct : Struct)
  | enum (enum : Enum)
  | trait (trait : Trait)

/-- A module: its canonical path and its two name spaces. -/
inductive Module where
  | mk (path : ItemPath) (types : NameMap (Visible TypeEntry))
      (values : NameMap (Visible ValueEntry))

end

/-- What one item defines under its name: a value, a type, both or neither. -/
structure Definitions where
  value? : Option ValueEntry := none
  type? : Option TypeEntry := none

namespace Module

/-- The module at `path` with no entry. -/
def empty (path : ItemPath) : Module := .mk path .empty .empty

/-- The canonical path. -/
def path : Module → ItemPath
  | .mk p _ _ => p

/-- The type name space. -/
def types : Module → NameMap (Visible TypeEntry)
  | .mk _ ts _ => ts

/-- The value name space. -/
def values : Module → NameMap (Visible ValueEntry)
  | .mk _ _ vs => vs

/-- Adds an entry to the type name space. -/
def addType (m : Module) (name : String) (entry : Visible TypeEntry) : Attempt Module :=
  (Namespace.type.add m.types name entry).map fun ts => .mk m.path ts m.values

/-- Adds an entry to the value name space. -/
def addValue (m : Module) (name : String) (entry : Visible ValueEntry) : Attempt Module :=
  (Namespace.value.add m.values name entry).map fun vs => .mk m.path m.types vs

/-- Adds what an item defines, its value first, then its type, and stops at a clash. -/
def declare (m : Module) (name : String) (isPub : Bool) (d : Definitions) :
    Except NameClash Module := do
  let m ← match d.value? with
    | none => .ok m
    | some value => (m.addValue name ⟨isPub, value⟩).outcome
  match d.type? with
  | none => .ok m
  | some type => (m.addType name ⟨isPub, type⟩).outcome

/-- The entry of the type name space under a name. -/
def typeEntry? (m : Module) (name : String) : Option (Visible TypeEntry) := m.types.get? name

/-- The entry of the value name space under a name. -/
def valueEntry? (m : Module) (name : String) : Option (Visible ValueEntry) := m.values.get? name

/-- The child module under a name. -/
def submodule? (m : Module) (name : String) : Option Module :=
  match m.typeEntry? name with
  | some ⟨_, .module child⟩ => some child
  | _ => none

/-- The module reached through child modules by name. -/
def descend? (m : Module) : List String → Option Module
  | [] => some m
  | n :: ns => do
    let child ← m.submodule? n
    child.descend? ns

end Module

/-- What a trait declares under one name. -/
inductive TraitEntry where
  | type (type : AssociatedType)
  | value (value : TraitValue)
  deriving BEq

namespace Trait

/-- Adds an associated type. -/
def addType (t : Trait) (name : String) (type : AssociatedType) : Attempt Trait :=
  (Namespace.type.add t.types name type).map fun types => { t with types }

/-- Adds an associated value. -/
def addValue (t : Trait) (name : String) (value : TraitValue) : Attempt Trait :=
  (Namespace.value.add t.values name value).map fun values => { t with values }

/-- Adds an entry to the name space it belongs to. -/
def add (t : Trait) (name : String) : TraitEntry → Attempt Trait
  | .type type => t.addType name type
  | .value value => t.addValue name value

end Trait

mutual

/-- Equality of entries of the type name space. -/
def TypeEntry.beq : TypeEntry → TypeEntry → Bool
  | .module m, .module n => m.beq n
  | .typeAlias a, .typeAlias b => a == b
  | .struct a, .struct b => a == b
  | .enum a, .enum b => a == b
  | .trait a, .trait b => a == b
  | _, _ => false
termination_by structural x => x

/-- Equality of modules. -/
def Module.beq : Module → Module → Bool
  | .mk p ⟨ts⟩ vs, .mk q ⟨us⟩ ws => p == q && TypeEntry.beqEntries ts us && vs == ws
termination_by structural x => x

/-- Equality of the entries of a type name space. -/
def TypeEntry.beqEntries :
    List (String × Visible TypeEntry) → List (String × Visible TypeEntry) → Bool
  | [], [] => true
  | (n, ⟨p, t⟩) :: ts, (m, ⟨q, u⟩) :: us =>
    n == m && p == q && t.beq u && TypeEntry.beqEntries ts us
  | _, _ => false
termination_by structural x => x

end

instance : BEq Module := ⟨Module.beq⟩

/-- A lowered crate: its root module and its macros by name. -/
structure Crate where
  root : Module
  macros : NameMap MacroRules
  deriving BEq

end Lowering.Core
