import Lowering.Config
import Lowering.Toml.Document

/-!
# Configuration files

A configuration is read from a TOML document. Missing keys take their defaults
and unknown keys are ignored. A policy is written as its name, or as a table
whose only key is the name and holds nothing.
-/

namespace Lowering

/-- Why a configuration cannot be read. -/
inductive ConfigError where
  | malformed
  | wrongValue (key : String)
  deriving DecidableEq

namespace ConfigError

/-- The text of a configuration error, without its source. -/
def message (_ : ConfigError) : String := "invalid lowering configuration"

/-- The code under which configuration errors are documented. -/
def code (_ : ConfigError) : String := "lower::config"

end ConfigError

/-- Whether a value is a container that holds nothing. -/
def Toml.Value.isHollow : Toml.Value → Bool
  | .array items => items.isEmpty
  | .table _ es => es.isEmpty
  | .tables elements => elements.isEmpty
  | _ => false

/-- The policy that a value stands for. -/
def ConflictPolicy.ofValue? : Toml.Value → Option ConflictPolicy
  | .string s => ofName? s
  | .table _ [(k, v)] => if v.isHollow then ofName? k else none
  | _ => none

namespace Config

/-- Reads the crate's name from the top table, if it is there. -/
def readCrateName (top : Toml.Entries) (c : Config) : Except ConfigError Config :=
  match top.lookup "crate-name" with
  | none => .ok c
  | some (.string s) => .ok { c with crateName := s }
  | some _ => .error (.wrongValue "crate-name")

/-- Reads the policy from the top table, if it is there. -/
def readMacroConflicts (top : Toml.Entries) (c : Config) : Except ConfigError Config :=
  match top.lookup "macro-conflicts" with
  | none => .ok c
  | some v =>
    match ConflictPolicy.ofValue? v with
    | some p => .ok { c with macroConflicts := p }
    | none => .error (.wrongValue "macro-conflicts")

/-- Reads a configuration. -/
def ofToml (text : String) : Except ConfigError Config :=
  match Toml.parse? text with
  | none => .error .malformed
  | some top => do
    let c ← readCrateName top {}
    readMacroConflicts top c

end Config

end Lowering
