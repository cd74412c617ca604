import Lowering.Lower.Fragment
import Lowering.Surface.Item

/-!
# Lowering of items

One function per kind of item. The parts of an item are lowered in a fixed order,
so that the diagnostic for an item with several faults is determined: the fields
of a struct and the variants of an enum before their generics, the supertraits of
a trait before its generics and those before its items, and otherwise generics
first.
-/

namespace Lowering.Surface

/-! ## Generics -/

/-- The position of a parameter that follows `count` others of its kind. -/
def paramIndex (span : Location) (count : Nat) : Lowered Nat :=
  if count < UInt32.size then .ok count else .error (.unsupported .tooManyParameters span)

/-- Lowers a type that may be absent. -/
def Ty.lowerOpt : Option Ty → Lowered (Option Core.Ty)
  | none => .ok none
  | some t => return some (← t.lower)

/-- Lowers parameters in order and adds each one to the end of its kind. -/
def GenericParam.lowerAll : List GenericParam → Core.Generics → Lowered Core.Generics
  | [], out => .ok out
  | .lifetime s n :: rest, out => do
    let i ← paramIndex s out.lifetimes.length
    GenericParam.lowerAll rest { out with lifetimes := out.lifetimes ++ [⟨n, i⟩] }
  | .type s n d :: rest, out => do
    let i ← paramIndex s out.types.length
    let d ← Ty.lowerOpt d
    GenericParam.lowerAll rest { out with types := out.types ++ [⟨n, i, d⟩] }
  | .const s n t d :: rest, out => do
    let i ← paramIndex s out.consts.length
    let t ← t.lower
    let d ← Expr.lowerBodyOpt d
    GenericParam.lowerAll rest { out with consts := out.consts ++ [⟨n, i, t, d⟩] }

/-- Lowers a bound. -/
def GenericBound.lower : GenericBound → Lowered Core.GenericBound
  | .lifetime a b => .ok (.lifetime a b)
  | .typeLifetime t b => return .typeLifetime (← t.lower) b
  | .isTrait ls t p => do
    let t ← t.lower
    return .isTrait ls t (← p.lowerPlain)
  | .maybeTrait t p => do
    let t ← t.lower
    return .maybeTrait t (← p.lowerPlain)
  | .equality t u => do
    let t ← t.lower
    return .equality t (← u.lower)

/-- Lowers bounds in order. -/
def GenericBound.lowerAll : List GenericBound → Lowered (List Core.GenericBound)
  | [] => .ok []
  | b :: bs => do
    let b ← b.lower
    return b :: (← GenericBound.lowerAll bs)

/-- Lowers a parameter list, numbering each parameter within its own kind. -/
def Generics.lower (g : Generics) : Lowered Core.Generics := do
  let out ← GenericParam.lowerAll g.params {}
  return { out with bounds := ← GenericBound.lowerAll g.bounds }

/-! ## Types -/

/-- Lowers a type alias. -/
def TypeAlias.lower (a : TypeAlias) : Lowered Core.TypeAlias := do
  let generics ← a.generics.lower
  return ⟨generics, ← a.ty.lower⟩

/-- Lowers the fields of a tuple struct in order. -/
def TupleField.lowerAll : List TupleField → Lowered (List (Core.Visible Core.Ty))
  | [] => .ok []
  | f :: fs => do
    let t ← f.ty.lower
    return ⟨f.isPub, t⟩ :: (← TupleField.lowerAll fs)

/-- Lowers named fields in order. -/
def NamedField.lowerAll : List NamedField → Lowered (List (String × Core.Visible Core.Ty))
  | [] => .ok []
  | f :: fs => do
    let t ← f.ty.lower
    return (f.name, ⟨f.isPub, t⟩) :: (← NamedField.lowerAll fs)

/-- Lowers the fields of a struct. A tuple of no fields is a unit struct. -/
def Fields.lower : Fields → Lowered Core.Fields
  | .tuple [] => .ok .unit
  | .tuple (f :: fs) => return .tuple (← TupleField.lowerAll (f :: fs))
  | .named fs => return .named (← NamedField.lowerAll fs)

/-- Lowers a struct. -/
def Struct.lower (s : Struct) : Lowered Core.Struct := do
  let data ← s.data.lower
  return ⟨← s.generics.lower, data⟩

/-- Lowers the fields of an enum variant in order; their visibility is the
enum's. -/
def NamedField.lowerTypes : List NamedField → Lowered (List (String × Core.Ty))
  | [] => .ok []
  | f :: fs => do
    let t ← f.ty.lower
    return (f.name, t) :: (← NamedField.lowerTypes fs)

/-- Lowers what a variant carries. A variant without a value is a unit variant. -/
def Payload.lower : Payload → Lowered Core.Payload
  | .value none => .ok .unit
  | .value (some e) => return .value (some (← e.lowerBody))
  | .tuple ts => return .tuple (← Ty.lowerAll ts)
  | .struct fs => return .struct (← NamedField.lowerTypes fs)

/-- Lowers variants in order. -/
def Variant.lowerAll : List Variant → Lowered (List Core.Variant)
  | [] => .ok []
  | v :: vs => do
    let d ← v.data.lower
    return ⟨v.name, d⟩ :: (← Variant.lowerAll vs)

/-- Lowers an enum. -/
def Enum.lower (e : Enum) : Lowered Core.Enum := do
  let variants ← Variant.lowerAll e.variants
  return ⟨← e.generics.lower, variants⟩

/-! ## Values -/

/-- Lowers the arguments of a function in order, each pattern before its type. -/
def Function.lowerArgs : List (Pattern × Ty) → Lowered (List (Core.Pattern × Core.Ty))
  | [] => .ok []
  | (p, t) :: rest => do
    let p ← p.lower
    let t ← t.lower
    return (p, t) :: (← Function.lowerArgs rest)

/-- Lowers a function. -/
def Function.lower (f : Function) : Lowered Core.Function := do
  let generics ← f.generics.lower
  let args ← Function.lowerArgs f.args
  let ret ← f.ret.lower
  let code ← Expr.lowerBodyOpt f.code
  return ⟨generics, f.isUnsafe, f.isConst, f.abi, args, ret, code⟩

/-- Lowers a constant, whatever its storage class. Constants have no generics. -/
def Static.lowerConstant (s : Static) : Lowered Core.Constant := do
  let ty ← s.ty.lower
  return ⟨{}, ty, ← Expr.lowerBodyOpt s.value⟩

/-- Lowers a static, whatever its storage class. -/
def Static.lowerStatic (s : Static) : Lowered Core.Static := do
  let ty ← s.ty.lower
  return ⟨s.storage == .staticMut, ty, ← Expr.lowerBodyOpt s.value⟩

/-- Lowers a constant or static of a module, by its storage class. -/
def Static.lower (s : Static) : Lowered Core.ValueEntry :=
  match s.storage with
  | .const => return .constant (← s.lowerConstant)
  | .static | .staticMut => return .static (← s.lowerStatic)

/-- Lowers a constant or static of a trait, by its storage class. -/
def Static.lowerInTrait (s : Static) : Lowered Core.TraitValue :=
  match s.storage with
  | .const => return .constant (← s.lowerConstant)
  | .static | .staticMut => return .static (← s.lowerStatic)

/-! ## Traits -/

/-- Lowers an associated type. -/
def AssociatedType.lower (a : AssociatedType) : Lowered Core.AssociatedType := do
  let bounds ← Path.lowerPlainAll a.bounds
  return ⟨bounds, ← Ty.lowerOpt a.default⟩

/-- Lowers what a trait declares under one name. -/
def TraitItem.lower : TraitItem → Lowered Core.TraitEntry
  | .type a => return .type (← a.lower)
  | .function f => return .value (.function (← f.lower))
  | .static s => return .value (← s.lowerInTrait)

/-- A name clash as the diagnostic for the later definition. -/
def duplicateAt (path : Core.ItemPath) (span : Location) {α : Type}
    (r : Except Core.NameClash α) : Lowered α :=
  r.mapError fun c => .duplicateItem path c span

/-- Lowers the items of the trait at `path` in order and adds each one. -/
def TraitItem.lowerAll (path : Core.ItemPath) :
    List (Named TraitItem) → Core.Trait → Lowered Core.Trait
  | [], out => .ok out
  | item :: rest, out => do
    let entry ← item.data.lower
    let out ← duplicateAt path item.span (out.add item.name entry).outcome
    TraitItem.lowerAll path rest out

/-- A lowered trait before its items are added. -/
def Trait.lowerHead (t : Trait) : Lowered Core.Trait := do
  let parents ← Path.lowerPlainAll t.supertraits
  let generics ← t.generics.lower
  return ⟨generics, parents, .empty, .empty⟩

/-- Lowers the trait at `path`. -/
def Trait.lower (t : Trait) (path : Core.ItemPath) : Lowered Core.Trait := do
  let out ← t.lowerHead
  TraitItem.lowerAll path t.items out

end Lowering.Surface
