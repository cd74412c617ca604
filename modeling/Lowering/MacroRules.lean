import Lowering.Span
import Lowering.Token

/-!
# Macro rules

A macro is a list of rules, each with a matcher side and an expander side. Both
sides are token trees with slots: a matcher slot names what it captures and the
kind of fragment it accepts, an expander slot names what it substitutes.
-/

namespace Lowering

/-- The kinds of syntax fragment a matcher slot can capture. -/
inductive FragmentKind where
  | expr
  | ident
  | ty
  | pat
  | stmt
  | block
  | item
  | path
  | literal
  | lifetime
  | metaItem
  | tt
  deriving DecidableEq

namespace FragmentKind

/-- The specifier written after a slot's colon. -/
def name : FragmentKind → String
  | expr => "expr"
  | ident => "ident"
  | ty => "ty"
  | pat => "pat"
  | stmt => "stmt"
  | block => "block"
  | item => "item"
  | path => "path"
  | literal => "literal"
  | lifetime => "lifetime"
  | metaItem => "meta"
  | tt => "tt"

/-- Every fragment kind. -/
def all : List FragmentKind :=
  [expr, ident, ty, pat, stmt, block, item, path, literal, lifetime, metaItem, tt]

/-- The fragment kind of a specifier. -/
def ofName? (s : String) : Option FragmentKind :=
  all.find? fun k => k.name == s

end FragmentKind

/-- How often a sequence repeats. -/
inductive Repetition where
  | zeroOrMore
  | oneOrMore
  | optional
  deriving DecidableEq

/-- One element of a rule's side, with slots of type `ν`. -/
inductive RulePiece (ν : Type) where
  | token (token : Token)
  | slot (slot : ν)
  | sequence (pieces : List (RulePiece ν)) (separator : Option Token) (repetition : Repetition)
  | group (delimiter : Delimiter) (pieces : List (RulePiece ν))

mutual

/-- Equality of rule elements. -/
def RulePiece.beq {ν : Type} [BEq ν] : RulePiece ν → RulePiece ν → Bool
  | .token t, .token u => t == u
  | .slot v, .slot w => v == w
  | .sequence ps s r, .sequence qs t q => RulePiece.beqAll ps qs && s == t && r == q
  | .group d ps, .group e qs => d == e && RulePiece.beqAll ps qs
  | _, _ => false
termination_by structural p => p

/-- Equality of sequences of rule elements. -/
def RulePiece.beqAll {ν : Type} [BEq ν] : List (RulePiece ν) → List (RulePiece ν) → Bool
  | [], [] => true
  | p :: ps, q :: qs => p.beq q && RulePiece.beqAll ps qs
  | _, _ => false
termination_by structural ps => ps

end

instance {ν : Type} : Inhabited (RulePiece ν) := ⟨.token default⟩
instance {ν : Type} [BEq ν] : BEq (RulePiece ν) := ⟨RulePiece.beq⟩

/-- A matcher slot: the name it captures under and the fragments it accepts. -/
structure Capture where
  name : String
  kind : FragmentKind
  deriving DecidableEq

/-- One rule: what it matches and what it expands to. -/
structure MacroRule where
  matcher : List (RulePiece Capture)
  expander : List (RulePiece String)
  deriving BEq

/-- The definition of a macro. -/
structure MacroRules where
  rules : List MacroRule
  isExported : Bool
  span : Location
  deriving BEq

end Lowering
