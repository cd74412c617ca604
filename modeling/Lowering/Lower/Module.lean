import Lowering.Config
import Lowering.Event
import Lowering.Lower.Item

/-!
# Lowering of modules and crates

A module is lowered item by item in source order, and after the items its
anonymous children, which are private and named `#0`, `#1` and so on by position.
An item's parts are lowered before its names are added, and a value is added
before a type. A crate's macro table is built before its module tree is entered.
-/

namespace Lowering.Surface

mutual

/-- Lowers the item `name` at `path` to what it defines. -/
def ItemKind.lower (name : String) (path : Core.ItemPath) : ItemKind → Traced Core.Definitions
  | .removed => do
    Traced.emit (.removedItem name)
    return {}
  | .module m => do
    let m ← m.lower path
    return { type? := some (.module m) }
  | .externCrate c => do
    Traced.emit (.externCrate c)
    return {}
  | .typeAlias a => do
    let a ← Traced.lift a.lower
    return { type? := some (.typeAlias a) }
  | .struct s => do
    let s ← Traced.lift s.lower
    return { value? := s.data.value? path, type? := some (.struct s) }
  | .enum e => do
    let e ← Traced.lift e.lower
    return { type? := some (.enum e) }
  | .trait t => do
    let t ← Traced.lift (t.lower path)
    return { type? := some (.trait t) }
  | .function f => do
    let f ← Traced.lift f.lower
    return { value? := some (.function f) }
  | .static s => do
    let s ← Traced.lift s.lower
    return { value? := some s }

/-- Lowers the module at `path`. -/
def Module.lower : Module → Core.ItemPath → Traced Core.Module
  | .mk items anonymous _ _ _, path => do
    Traced.emit (.enterModule path)
    let out ← ItemKind.lowerAll items (.empty path)
    let out ← Module.lowerAnonymous anonymous 0 out
    Traced.emit (.moduleLowered out.types.size out.values.size)
    return out

/-- Lowers items in order and adds what each one defines. -/
def ItemKind.lowerAll : List (Named ItemKind) → Core.Module → Traced Core.Module
  | [], out => return out
  | ⟨name, isPub, _, kind, span⟩ :: rest, out => do
    Traced.emit (.item name)
    let defs ← kind.lower name (out.path.join name)
    let out ← Traced.lift (duplicateAt out.path span (out.declare name isPub defs))
    ItemKind.lowerAll rest out

/-- Lowers anonymous children in order, the first at position `index`. -/
def Module.lowerAnonymous : List Module → (index : Nat) → Core.Module → Traced Core.Module
  | [], _, out => return out
  | child :: rest, index, out => do
    let name := "#" ++ toString index
    let lowered ← child.lower (out.path.join name)
    let out ← Traced.lift
      (duplicateAt out.path child.span (out.addType name ⟨false, .module lowered⟩).outcome)
    Module.lowerAnonymous rest (index + 1) out

end

/-- Builds a macro table from definitions in order. -/
def NamedMacro.collect (policy : ConflictPolicy) :
    List NamedMacro → NameMap MacroRules → Traced (NameMap MacroRules)
  | [], table => return table
  | m :: rest, table =>
    if table.contains m.name then
      match policy with
      | .reject => Traced.lift (.error (.macroConflict m.name m.rules.span))
      | .keepFirst => do
        Traced.emit (.macroIgnored m.name)
        NamedMacro.collect policy rest table
      | .keepLast => do
        Traced.emit (.macroReplaced m.name)
        NamedMacro.collect policy rest (table.set m.name m.rules)
    else NamedMacro.collect policy rest (table.set m.name m.rules)

/-- Lowers a crate: the macros of its root, defined ones before imported ones,
then its module tree. -/
def Crate.lower (c : Crate) (config : Config) : Traced Core.Crate := do
  Traced.emit (.enterCrate config.crateName)
  let macros ← NamedMacro.collect config.macroConflicts (c.root.macros ++ c.root.imports) .empty
  Traced.emit (.macroTable macros.size)
  let root ← c.root.lower (.root config.crateName)
  return ⟨root, macros⟩

end Lowering.Surface
