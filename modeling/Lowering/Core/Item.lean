import Lowering.Core.Equality
import Lowering.NameMap

/-!
# Core items

The definitions that a lowered module stores. Generic parameters are split by
kind, each with its position among its kind.
-/

namespace Lowering.Core

/-- A type parameter and its position among the type parameters. -/
structure TypeParam where
  name : String
  index : Nat
  default : Option Ty
  deriving BEq

/-- A lifetime parameter and its position among the lifetimes. -/
structure LifetimeParam where
  name : String
  index : Nat
  deriving DecidableEq

/-- A const parameter and its position among the const parameters. -/
structure ConstParam where
  name : String
  index : Nat
  ty : Ty
  default : Option Body
  deriving BEq

/-- One bound on the parameters of an item. -/
inductive GenericBound where
  | lifetime (test validFor : String)
  | typeLifetime (ty : Ty) (validFor : String)
  | isTrait (lifetimes : List String) (ty : Ty) (trait : AppliedPath)
  | maybeTrait (ty : Ty) (trait : AppliedPath)
  | equality (ty other : Ty)
  deriving BEq

/-- The generic parameters of an item, by kind. -/
structure Generics where
  types : List TypeParam := []
  lifetimes : List LifetimeParam := []
  consts : List ConstParam := []
  bounds : List GenericBound := []
  deriving BEq

namespace Generics

/-- Whether there is neither a parameter nor a bound. -/
def isEmpty (g : Generics) : Bool :=
  g.types.isEmpty && g.lifetimes.isEmpty && g.consts.isEmpty && g.bounds.isEmpty

/-- The first type parameter with a given name. -/
def typeParam? (g : Generics) (name : String) : Option TypeParam :=
  g.types.find? fun p => p.name == name

end Generics

/-- An entry with its visibility. -/
structure Visible (α : Type) where
  isPub : Bool
  item : α
  deriving BEq

/-- A type alias. -/
structure TypeAlias where
  generics : Generics
  ty : Ty
  deriving BEq

/-- The fields of a struct. -/
inductive Fields where
  | unit
  | tuple (fields : List (Visible Ty))
  | named (fields : List (String × Visible Ty))
  deriving BEq

/-- Whether the name of the struct is also a value. -/
def Fields.hasValue : Fields → Bool
  | .unit | .tuple _ => true
  | .named _ => false

/-- A struct definition. -/
structure Struct where
  generics : Generics
  data : Fields
  deriving BEq

/-- What an enum variant carries. Lowering writes `unit` for a value that is not
given, so an absent value does not come out of it. -/
inductive Payload where
  | unit
  | value (value : Option Body)
  | tuple (types : List Ty)
  | struct (fields : List (String × Ty))
  deriving BEq

/-- A variant of an enum. -/
structure Variant where
  name : String
  data : Payload
  deriving BEq

/-- An enum definition. -/
structure Enum where
  generics : Generics
  variants : List Variant
  deriving BEq

/-- A function; one that is only declared has no code. -/
structure Function where
  generics : Generics
  isUnsafe : Bool
  isConst : Bool
  abi : String
  args : List (Pattern × Ty)
  ret : Ty
  code : Option Body
  deriving BEq

/-- A constant; one that is only declared has no value. -/
structure Constant where
  generics : Generics
  ty : Ty
  value : Option Body
  deriving BEq

/-- A static; one that is only declared has no value. -/
structure Static where
  isMut : Bool
  ty : Ty
  value : Option Body
  deriving BEq

/-- An associated type of a trait. -/
structure AssociatedType where
  bounds : List AppliedPath
  default : Option Ty
  deriving BEq

/-- A value declared by a trait. -/
inductive TraitValue where
  | constant (constant : Constant)
  | static (static : Static)
  | function (function : Function)
  deriving BEq

/-- A trait definition. Its associated types and its associated values are two
name spaces. -/
structure Trait where
  generics : Generics
  parents : List AppliedPath
  types : NameMap AssociatedType := .empty
  values : NameMap TraitValue := .empty
  deriving BEq

/-- A value stored by a module. A struct without fields is a constant of its own
type, a tuple struct is a constructor of it. -/
inductive ValueEntry where
  | constant (constant : Constant)
  | static (static : Static)
  | structConstant (ty : Ty)
  | structConstructor (ty : Ty)
  | function (function : Function)
  deriving BEq

/-- The value that a struct at a given path defines. -/
def Fields.value? (data : Fields) (path : ItemPath) : Option ValueEntry :=
  match data with
  | .unit => some (.structConstant (.path (.ofItem path)))
  | .tuple _ => some (.structConstructor (.path (.ofItem path)))
  | .named _ => none

end Lowering.Core
