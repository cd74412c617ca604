/-!
# Configuration

What a caller can choose: the name that canonical paths start from, and what
happens when two macros share a name.
-/

namespace Lowering

/-- What to do when a macro's name is already in the macro table. -/
inductive ConflictPolicy where
  | reject
  | keepFirst
  | keepLast
  deriving DecidableEq, Inhabited

namespace ConflictPolicy

/-- The name of a policy in a configuration file. -/
def name : ConflictPolicy → String
  | reject => "reject"
  | keepFirst => "keep-first"
  | keepLast => "keep-last"

/-- Every policy. -/
def all : List ConflictPolicy := [reject, keepFirst, keepLast]

/-- The policy with a given name. -/
def ofName? (s : String) : Option ConflictPolicy :=
  all.find? fun p => p.name == s

end ConflictPolicy

/-- The configuration of a run; the local crate has the empty name. -/
structure Config where
  crateName : String := ""
  macroConflicts : ConflictPolicy := .reject
  deriving DecidableEq, Inhabited

end Lowering
