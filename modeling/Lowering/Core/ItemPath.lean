import Lowering.Text.Joined

/-!
# Canonical paths

A canonical path names an item from the root of a crate. The crate being lowered
has the empty name.
-/

namespace Lowering.Core

/-- A path from the root of a crate. -/
structure ItemPath where
  crate : String := ""
  components : List String := []
  deriving DecidableEq, Inhabited

namespace ItemPath

/-- The root of a crate. -/
def root (crate : String) : ItemPath := ⟨crate, []⟩

/-- The path of a member. -/
def join (p : ItemPath) (name : String) : ItemPath :=
  { p with components := p.components ++ [name] }

/-- Whether the path is the root of its crate. -/
def isRoot (p : ItemPath) : Bool := p.components.isEmpty

/-- The last component. -/
def last? (p : ItemPath) : Option String := p.components.getLast?

/-- The text of the crate's root before further components. -/
def crateText (p : ItemPath) : String :=
  if p.crate.isEmpty then "" else "::\"" ++ p.crate ++ "\""

/-- The text of a path: the crate in quotes unless it is the local one, then the
components. The root of the local crate is `::`. -/
def text (p : ItemPath) : String :=
  if p.crate.isEmpty && p.components.isEmpty then "::"
  else p.crateText ++ Text.eachAfter "::" p.components

end ItemPath

end Lowering.Core
