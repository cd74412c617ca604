import Lowering.Core.Module

/-!
# Diagnostics

Lowering succeeds or stops at the first diagnostic. A diagnostic is a cause at a
span: a form that earlier passes should have removed, a form whose lowering is
not written yet, a form the core language cannot express, a name defined twice
in one name space, or a macro defined twice. This module holds every text that a
diagnostic shows.
-/

namespace Lowering

/-- Where a fragment stands. -/
inductive Position where
  | type
  | pattern
  | expression
  deriving DecidableEq

/-- The word for a position. -/
def Position.text : Position → String
  | .type => "type"
  | .pattern => "pattern"
  | .expression => "expression"

/-- How far an item path got in name resolution. -/
inductive Unresolved where
  | invalid
  | localName
  | relative
  | selfRelative
  | superRelative
  deriving DecidableEq

/-- The words for an unresolved path. -/
def Unresolved.text : Unresolved → String
  | .invalid => "invalid path"
  | .localName => "local name in item position"
  | .relative => "unresolved relative path"
  | .selfRelative => "unresolved `self::` path"
  | .superRelative => "unresolved `super::` path"

/-- A form that an earlier pass should have removed. -/
inductive Leftover where
  | placeholderType
  | macroCall (name : String) (position : Position)
  | invalidPrimitive
  | unresolvedPath (how : Unresolved)
  | emptyAbsolutePath
  | qualifiedPathWithoutItem
  | qualifiedPathAsPlain
  | unclassifiedPattern (name : String)
  deriving DecidableEq

/-- The words for a leftover form. -/
def Leftover.text : Leftover → String
  | .placeholderType => "placeholder type reached lowering"
  | .macroCall n p => "unexpanded macro `" ++ n ++ "!` in " ++ p.text ++ " position"
  | .invalidPrimitive => "invalid primitive type"
  | .unresolvedPath how => how.text ++ " reached lowering"
  | .emptyAbsolutePath => "absolute path with no segments"
  | .qualifiedPathWithoutItem => "UFCS path without an item segment"
  | .qualifiedPathAsPlain => "UFCS path where a plain path is required"
  | .unclassifiedPattern n => "unclassified identifier pattern `" ++ n ++ "`"

/-- A form whose lowering is not written yet. -/
inductive Unimplemented where
  | inferredPrimitive
  | argumentsOnLeadingSegment (name : String)
  | longQualifiedPath
  | forLoop
  deriving DecidableEq

/-- The words for a form whose lowering is not written yet. -/
def Unimplemented.text : Unimplemented → String
  | .inferredPrimitive => "an inferred numeric primitive type"
  | .argumentsOnLeadingSegment n => "generic arguments on non-final path segment `" ++ n ++ "`"
  | .longQualifiedPath => "UFCS paths with several trailing segments"
  | .forLoop => "`for` loops"

/-- A form that the core language cannot express. -/
inductive Unsupported where
  | higherRankedTraitObject
  | tooManyParameters
  deriving DecidableEq

/-- The words for a form that the core language cannot express. -/
def Unsupported.text : Unsupported → String
  | .higherRankedTraitObject => "higher-ranked lifetimes on trait objects"
  | .tooManyParameters => "more than u32::MAX generic parameters of one kind"

/-- Why lowering stopped, and where. -/
inductive Diagnostic where
  | invariant (cause : Leftover) (span : Location)
  | unimplemented (cause : Unimplemented) (span : Location)
  | unsupported (cause : Unsupported) (span : Location)
  | duplicateItem (module : Core.ItemPath) (clash : Core.NameClash) (span : Location)
  | macroConflict (name : String) (span : Location)
  deriving DecidableEq

/-- The broad classes of diagnostics. -/
inductive DiagnosticKind where
  | invariantViolation
  | notImplemented
  | unsupported
  | macroConflict
  deriving DecidableEq

namespace Diagnostic

/-- The class of a diagnostic. -/
def kind : Diagnostic → DiagnosticKind
  | .invariant _ _ | .duplicateItem _ _ _ => .invariantViolation
  | .unimplemented _ _ => .notImplemented
  | .unsupported _ _ => .unsupported
  | .macroConflict _ _ => .macroConflict

/-- The place of a diagnostic. -/
def span : Diagnostic → Location
  | .invariant _ s | .unimplemented _ s | .unsupported _ s
  | .duplicateItem _ _ s | .macroConflict _ s => s

/-- The text of a diagnostic. -/
def message : Diagnostic → String
  | .invariant c s => "internal: invariant violated at " ++ s.text ++ ": " ++ c.text
  | .unimplemented c s => "internal: unimplemented lowering of " ++ c.text ++ " at " ++ s.text
  | .unsupported c s => c.text ++ " are not supported (at " ++ s.text ++ ")"
  | .duplicateItem m _ _ => "internal: duplicate item in module `" ++ m.text ++ "`"
  | .macroConflict n _ => "macro `" ++ n ++ "` is defined more than once"

/-- The code under which a diagnostic is documented. -/
def code : Diagnostic → String
  | .invariant _ _ => "lower::invariant"
  | .unimplemented _ _ => "lower::unimplemented"
  | .unsupported _ _ => "lower::unsupported"
  | .duplicateItem _ _ _ => "lower::duplicate_item"
  | .macroConflict _ _ => "lower::macro_conflict"

/-- Advice that goes with a diagnostic. -/
def help? : Diagnostic → Option String
  | .invariant _ _ => some "this is a bug in the parser or an earlier pass, not in the program"
  | .duplicateItem _ _ _ =>
    some "duplicate definitions should have been rejected by name resolution"
  | .macroConflict _ _ =>
    some "rename one definition, or set `macro-conflicts` to `keep-first` or `keep-last`"
  | .unimplemented _ _ | .unsupported _ _ => none

/-- The text of the clash behind a diagnostic. -/
def source? : Diagnostic → Option String
  | .duplicateItem _ c _ => some c.message
  | _ => none

end Diagnostic

end Lowering
