/-!
# Finite maps keyed by name

A map holds each name at most once. The entries are kept in ascending order of
their names, so two maps with the same contents are the same value, whatever the
order in which they were filled. `add?` never overwrites; `set` always does.
-/

namespace Lowering

/-- A finite map from names, as its entries in ascending order. -/
structure NameMap (α : Type) where
  entries : List (String × α) := []

namespace NameMap

variable {α : Type}

/-- The value under a name, in a list of entries. -/
def lookup (name : String) : List (String × α) → Option α
  | [] => none
  | (n, a) :: rest => if n = name then some a else lookup name rest

/-- Puts a value under a name, in place of what was there. -/
def place (name : String) (value : α) : List (String × α) → List (String × α)
  | [] => [(name, value)]
  | (n, a) :: rest =>
    if name < n then (name, value) :: (n, a) :: rest
    else if n = name then (name, value) :: rest
    else (n, a) :: place name value rest

/-- The map with no entry. -/
def empty : NameMap α := ⟨[]⟩

/-- The value under a name. -/
def get? (m : NameMap α) (name : String) : Option α := lookup name m.entries

/-- Whether a name has a value. -/
def contains (m : NameMap α) (name : String) : Bool := (m.get? name).isSome

/-- The number of names. -/
def size (m : NameMap α) : Nat := m.entries.length

/-- The map with a value under a name, in place of what was there. -/
def set (m : NameMap α) (name : String) (value : α) : NameMap α :=
  ⟨place name value m.entries⟩

/-- The map with a value under a new name. A name that is taken is refused. -/
def add? (m : NameMap α) (name : String) (value : α) : Option (NameMap α) :=
  if m.contains name then none else some (m.set name value)

instance [BEq α] : BEq (NameMap α) := ⟨fun m n => m.entries == n.entries⟩

end NameMap

end Lowering
