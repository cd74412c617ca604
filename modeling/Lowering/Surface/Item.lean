import Lowering.Attribute
import Lowering.MacroRules
import Lowering.Surface.Equality

/-!
# Surface syntax of items

The declarations that populate a module, the modules themselves and the crate
they make up. A module has named items, child modules without a name (from
blocks), the macros it defines and the macros it imports.
-/

namespace Lowering.Surface

/-- One generic parameter. -/
inductive GenericParam where
  | lifetime (span : Location) (name : String)
  | type (span : Location) (name : String) (default : Option Ty)
  | const (span : Location) (name : String) (ty : Ty) (default : Option Expr)
  deriving BEq

/-- One bound of a parameter list or a where clause. -/
inductive GenericBound where
  | lifetime (test bound : String)
  | typeLifetime (ty : Ty) (bound : String)
  | isTrait (lifetimes : List String) (ty : Ty) (trait : Path)
  | maybeTrait (ty : Ty) (trait : Path)
  | equality (ty replacement : Ty)
  deriving BEq

/-- The generic parameters of an item, in the order written. -/
structure Generics where
  params : List GenericParam := []
  bounds : List GenericBound := []
  deriving BEq

/-- Whether there is neither a parameter nor a bound. -/
def Generics.isEmpty (g : Generics) : Bool :=
  g.params.isEmpty && g.bounds.isEmpty

/-- A declaration with its name, its visibility and its attributes. -/
structure Named (α : Type) where
  name : String
  isPub : Bool
  attrs : Attributes
  data : α
  span : Location
  deriving BEq

/-- A type alias. -/
structure TypeAlias where
  generics : Generics
  ty : Ty
  deriving BEq

/-- A field known by its position. -/
structure TupleField where
  isPub : Bool
  ty : Ty
  attrs : Attributes
  deriving BEq

/-- A field known by its name. -/
structure NamedField where
  name : String
  isPub : Bool
  ty : Ty
  attrs : Attributes
  deriving BEq

/-- The fields of a struct. A struct without a body is a tuple of no fields. -/
inductive Fields where
  | tuple (fields : List TupleField)
  | named (fields : List NamedField)
  deriving BEq

/-- A struct definition. -/
structure Struct where
  generics : Generics
  data : Fields
  deriving BEq

/-- What an enum variant carries. -/
inductive Payload where
  | value (value : Option Expr)
  | tuple (types : List Ty)
  | struct (fields : List NamedField)
  deriving BEq

/-- A variant of an enum. -/
structure Variant where
  name : String
  attrs : Attributes
  data : Payload
  span : Location
  deriving BEq

/-- An enum definition. -/
structure Enum where
  generics : Generics
  variants : List Variant
  deriving BEq

/-- A function; one that is only declared has no code. -/
structure Function where
  generics : Generics
  isUnsafe : Bool
  isConst : Bool
  abi : String
  args : List (Pattern × Ty)
  ret : Ty
  code : Option Expr
  deriving BEq

/-- The storage classes. -/
inductive Storage where
  | const
  | static
  | staticMut
  deriving DecidableEq

/-- A constant or a static; one that is only declared has no value. -/
structure Static where
  storage : Storage
  ty : Ty
  value : Option Expr
  deriving BEq

/-- An associated type of a trait. -/
structure AssociatedType where
  bounds : List Path
  default : Option Ty
  deriving BEq

/-- What a trait declares. -/
inductive TraitItem where
  | type (type : AssociatedType)
  | function (function : Function)
  | static (static : Static)
  deriving BEq

/-- A trait definition. -/
structure Trait where
  generics : Generics
  supertraits : List Path
  items : List (Named TraitItem)
  deriving BEq

/-- A macro under a name. -/
structure NamedMacro where
  name : String
  rules : MacroRules
  deriving BEq

mutual

/-- What a named item declares. An item that was removed keeps its place. -/
inductive ItemKind where
  | removed
  | module (module : Module)
  | externCrate (crate : String)
  | typeAlias (typeAlias : TypeAlias)
  | struct (struct : Struct)
  | enum (enum : Enum)
  | trait (trait : Trait)
  | function (function : Function)
  | static (static : Static)

/-- A module. -/
inductive Module where
  | mk (items : List (Named ItemKind)) (anonymous : List Module) (macros imports : List NamedMacro)
      (span : Location)

end

instance : Inhabited ItemKind := ⟨.removed⟩
instance : Inhabited Module := ⟨.mk [] [] [] [] .dummy⟩

/-- A named item of a module. -/
abbrev Item := Named ItemKind

namespace Module

/-- The named items. -/
def items : Module → List Item
  | .mk is _ _ _ _ => is

/-- The child modules without a name. -/
def anonymous : Module → List Module
  | .mk _ as _ _ _ => as

/-- The macros defined in the module. -/
def macros : Module → List NamedMacro
  | .mk _ _ ms _ _ => ms

/-- The macros imported into the module. -/
def imports : Module → List NamedMacro
  | .mk _ _ _ is _ => is

/-- The span of the module. -/
def span : Module → Location
  | .mk _ _ _ _ s => s

end Module

mutual

/-- Equality of item kinds. -/
def ItemKind.beq : ItemKind → ItemKind → Bool
  | .removed, .removed => true
  | .module m, .module n => m.beq n
  | .externCrate c, .externCrate d => c == d
  | .typeAlias a, .typeAlias b => a == b
  | .struct a, .struct b => a == b
  | .enum a, .enum b => a == b
  | .trait a, .trait b => a == b
  | .function a, .function b => a == b
  | .static a, .static b => a == b
  | _, _ => false
termination_by structural x => x

/-- Equality of modules. -/
def Module.beq : Module → Module → Bool
  | .mk is as ms us s, .mk js bs ns vs t =>
    ItemKind.beqAll is js && Module.beqAll as bs && ms == ns && us == vs && s == t
termination_by structural x => x

/-- Equality of item lists. -/
def ItemKind.beqAll : List (Named ItemKind) → List (Named ItemKind) → Bool
  | [], [] => true
  | ⟨n, p, a, k, s⟩ :: is, ⟨m, q, b, l, t⟩ :: js =>
    n == m && p == q && a == b && k.beq l && s == t && ItemKind.beqAll is js
  | _, _ => false
termination_by structural x => x

/-- Equality of module lists. -/
def Module.beqAll : List Module → List Module → Bool
  | [], [] => true
  | m :: ms, n :: ns => m.beq n && Module.beqAll ms ns
  | _, _ => false
termination_by structural x => x

end

instance : BEq Module := ⟨Module.beq⟩

/-- A crate: its root module and the attributes on it. -/
structure Crate where
  root : Module
  attrs : Attributes
  deriving BEq

end Lowering.Surface
