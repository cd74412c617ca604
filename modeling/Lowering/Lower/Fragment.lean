import Lowering.Core.Term
import Lowering.Diagnostic
import Lowering.Surface.Syntax

/-!
# Lowering of fragments

Types, paths, patterns and expressions of the surface language become their core
forms, or lowering stops at the first form that has none. The parts of a form
are lowered from left to right in evaluation order, which is not always the
order of writing: in `if let` and `while let` the value comes before the
pattern. Forms that are refused are refused before their parts are looked at.

An expression is lowered to a term, and sugar is removed on the way: `while`,
`while let` and `if let` become `loop`, `if` and `match`, and a call of a local
name becomes a call of its value. `Expr.lowerBody` lays the term out as a body.
-/

namespace Lowering

/-- What lowering gives: a core form, or the diagnostic it stopped at. -/
abbrev Lowered (α : Type) := Except Diagnostic α

namespace Surface

/-- The scalar type of a keyword. -/
def ScalarName.lower (span : Location) : ScalarName → Lowered Scalar
  | .keyword c => .ok c
  | .any => .error (.unimplemented .inferredPrimitive span)
  | .invalid => .error (.invariant .invalidPrimitive span)

/-- The type given by the suffix of a number; a number may have none. -/
def ScalarName.lowerSuffix (span : Location) : ScalarName → Lowered (Option Scalar)
  | .any => .ok none
  | name => (name.lower span).map some

/-- Lowers a literal that stands at `span`. -/
def lowerLiteral (span : Location) : Literal ScalarName → Lowered Core.Literal
  | .integer n s => (s.lowerSuffix span).map (.integer n)
  | .float x s => (s.lowerSuffix span).map (.float x)
  | .bool b => .ok (.bool b)
  | .char c => .ok (.char c)
  | .string s => .ok (.string s)

/-- The name of a local variable, if a path is one. -/
def Path.localName? : Path → Option String
  | .localName _ n => some n
  | _ => none

/-- The first segment before the last one that has arguments. -/
def Segment.leadingWithArgs? : List Segment → Option String
  | [] | [_] => none
  | s :: rest => if s.args.isEmpty then Segment.leadingWithArgs? rest else some s.name

/-- Refuses the segments of an absolute path: there must be one, and only the
last may have arguments. -/
def Segment.checkAbsolute (span : Location) (segments : List Segment) : Lowered Unit :=
  if segments.isEmpty then .error (.invariant .emptyAbsolutePath span)
  else match Segment.leadingWithArgs? segments with
    | some name => .error (.unimplemented (.argumentsOnLeadingSegment name) span)
    | none => .ok ()

mutual

/-- Lowers a type. -/
def Ty.lower : Ty → Lowered Core.Ty
  | .omitted s => .error (.invariant .placeholderType s)
  | .infer _ => .ok .infer
  | .unit _ => .ok .unit
  | .macroCall s m => .error (.invariant (.macroCall m.name .type) s)
  | .primitive s c => return .primitive (← c.lower s)
  | .tuple _ ts => return .tuple (← Ty.lowerAll ts)
  | .borrow _ k t => return .borrow k (← t.lower)
  | .pointer _ m t => return .pointer m (← t.lower)
  | .array _ t e => do
    let t ← t.lower
    return .array t (← Expr.lowerBodyOpt e)
  | .path _ p => return .path (← p.lower)
  | .traitObject s ls ps =>
    if ls.isEmpty then return .traitObject (← Path.lowerPlainAll ps)
    else .error (.unsupported .higherRankedTraitObject s)
  | .function _ u abi args ret => do
    let args ← Ty.lowerAll args
    return .function u abi args (← ret.lower)
  | .param _ n => .ok (.param n .unresolved)

/-- Lowers types in order. -/
def Ty.lowerAll : List Ty → Lowered (List Core.Ty)
  | [] => .ok []
  | t :: ts => do
    let t ← t.lower
    return t :: (← Ty.lowerAll ts)

/-- Lowers types bound to names in order. -/
def Ty.lowerNamed : List (String × Ty) → Lowered (List (String × Core.Ty))
  | [] => .ok []
  | (n, t) :: ts => do
    let t ← t.lower
    return (n, t) :: (← Ty.lowerNamed ts)

/-- Lowers a path to an item. -/
def Path.lower : Path → Lowered Core.Path
  | .invalid s => .error (.invariant (.unresolvedPath .invalid) s)
  | .localName s _ => .error (.invariant (.unresolvedPath .localName) s)
  | .relative s _ => .error (.invariant (.unresolvedPath .relative) s)
  | .selfRelative s _ => .error (.invariant (.unresolvedPath .selfRelative) s)
  | .superRelative s _ _ => .error (.invariant (.unresolvedPath .superRelative) s)
  | .absolute s c segs => do
    Segment.checkAbsolute s segs
    return .plain (.mk ⟨c, segs.map Segment.name⟩ (← Segment.lowerLastArgs segs))
  | .qualified s _ _ [] => .error (.invariant .qualifiedPathWithoutItem s)
  | .qualified _ self trait [.mk n args] => do
    let self ← self.lower
    let args ← args.lower
    return .qualified self (← Path.lowerPlainOpt trait) n args
  | .qualified s _ _ (_ :: _ :: _) => .error (.unimplemented .longQualifiedPath s)

/-- Lowers a path where only a plain path to an item is allowed. -/
def Path.lowerPlain : Path → Lowered Core.AppliedPath
  | .invalid s => .error (.invariant (.unresolvedPath .invalid) s)
  | .localName s _ => .error (.invariant (.unresolvedPath .localName) s)
  | .relative s _ => .error (.invariant (.unresolvedPath .relative) s)
  | .selfRelative s _ => .error (.invariant (.unresolvedPath .selfRelative) s)
  | .superRelative s _ _ => .error (.invariant (.unresolvedPath .superRelative) s)
  | .absolute s c segs => do
    Segment.checkAbsolute s segs
    return .mk ⟨c, segs.map Segment.name⟩ (← Segment.lowerLastArgs segs)
  | .qualified s _ _ _ => .error (.invariant .qualifiedPathAsPlain s)

/-- Lowers plain paths in order. -/
def Path.lowerPlainAll : List Path → Lowered (List Core.AppliedPath)
  | [] => .ok []
  | p :: ps => do
    let p ← p.lowerPlain
    return p :: (← Path.lowerPlainAll ps)

/-- Lowers a plain path that may be absent. -/
def Path.lowerPlainOpt : Option Path → Lowered (Option Core.AppliedPath)
  | none => .ok none
  | some p => return some (← p.lowerPlain)

/-- Lowers the arguments of the last segment. -/
def Segment.lowerLastArgs : List Segment → Lowered Core.GenericArgs
  | [] => .ok .none
  | [.mk _ args] => args.lower
  | _ :: rest => Segment.lowerLastArgs rest

/-- Lowers arguments; lifetimes are erased. -/
def GenericArgs.lower : GenericArgs → Lowered Core.GenericArgs
  | .mk _ ts bs => do
    let ts ← Ty.lowerAll ts
    return .mk ts (← Ty.lowerNamed bs)

/-- Lowers a pattern. -/
def Pattern.lower : Pattern → Lowered Core.Pattern
  | .mk s b k => return .mk b (← k.lower s)

/-- Lowers what a pattern at `span` matches. -/
def PatternKind.lower (span : Location) : PatternKind → Lowered Core.PatternKind
  | .any => .ok .any
  | .maybeBind n => .error (.invariant (.unclassifiedPattern n) span)
  | .macroCall m => .error (.invariant (.macroCall m.name .pattern) span)
  | .value l => return .value (← lowerLiteral span l)
  | .range a b => do
    let a ← lowerLiteral span a
    return .range a (← lowerLiteral span b)
  | .tuple ps => return .tuple (← Pattern.lowerAll ps)
  | .ref k p => return .ref k (← p.lower)
  | .tupleStruct path ps => do
    let path ← path.lower
    return .tupleStruct path (← Pattern.lowerAll ps)
  | .struct path fs e => do
    let path ← path.lower
    return .struct path (← Pattern.lowerNamed fs) e

/-- Lowers patterns in order. -/
def Pattern.lowerAll : List Pattern → Lowered (List Core.Pattern)
  | [] => .ok []
  | p :: ps => do
    let p ← p.lower
    return p :: (← Pattern.lowerAll ps)

/-- Lowers field patterns in order. -/
def Pattern.lowerNamed : List (String × Pattern) → Lowered (List (String × Core.Pattern))
  | [] => .ok []
  | (n, p) :: ps => do
    let p ← p.lower
    return (n, p) :: (← Pattern.lowerNamed ps)

/-- Lowers an expression to a term. -/
def Expr.lower : Expr → Lowered Core.Term
  | .macroCall s m => .error (.invariant (.macroCall m.name .expression) s)
  | .literal s l => return .mk (.literal (← lowerLiteral s l))
  | .path _ p =>
    match p.localName? with
    | some n => .ok (.mk (.localVar n))
    | none => return .mk (.path (← p.lower))
  | .tuple _ es => return .mk (.tuple (← Expr.lowerAll es))
  | .array _ es => return .mk (.array (← Expr.lowerAll es))
  | .block _ ss t => do
    let ss ← Stmt.lowerAll ss
    return .mk (.block ss (← Expr.lowerOpt t))
  | .assign _ o a b => do
    let a ← a.lower
    return .mk (.assign o a (← b.lower))
  | .binary _ o a b => do
    let a ← a.lower
    return .mk (.binary o a (← b.lower))
  | .unary _ (.value o) a => return .mk (.unary o (← a.lower))
  | .unary _ .deref a => return .mk (.deref (← a.lower))
  | .borrow _ k a => return .mk (.borrow k (← a.lower))
  | .cast _ a t => do
    let a ← a.lower
    return .mk (.cast a (← t.lower))
  | .callPath _ p es =>
    match p.localName? with
    | some n => return .mk (.callValue (.mk (.localVar n)) (← Expr.lowerAll es))
    | none => do
      let p ← p.lower
      return .mk (.callPath p (← Expr.lowerAll es))
  | .callMethod _ a m es => do
    let a ← a.lower
    return .mk (.callMethod a m (← Expr.lowerAll es))
  | .callValue _ a es => do
    let a ← a.lower
    return .mk (.callValue a (← Expr.lowerAll es))
  | .field _ a n => return .mk (.field (← a.lower) n)
  | .index _ a b => do
    let a ← a.lower
    return .mk (.index a (← b.lower))
  | .structLiteral _ p fs b => do
    let p ← p.lower
    let fs ← Expr.lowerNamed fs
    return .mk (.structLiteral p fs (← Expr.lowerOpt b))
  | .ifElse _ c t e => do
    let c ← c.lower
    let t ← t.lower
    return .mk (.ifElse c t (← Expr.lowerOpt e))
  | .ifLet _ p v t e => do
    let v ← v.lower
    let p ← p.lower
    let t ← t.lower
    let e ← Expr.lowerOpt e
    return .matchElse v p t (e.getD .emptyBlock)
  | .matchOn _ v as => do
    let v ← v.lower
    return .mk (.matchOn v (← Arm.lowerAll as))
  | .loop _ l b => return .mk (.loop l (← b.lower))
  | .whileLoop _ l c b => do
    let c ← c.lower
    return .whileLoop l c (← b.lower)
  | .whileLet _ l p v b => do
    let v ← v.lower
    let p ← p.lower
    return .whileLet l p v (← b.lower)
  | .forLoop s _ _ _ _ => .error (.unimplemented .forLoop s)
  | .ret _ v => return .mk (.ret (← Expr.lowerOpt v))
  | .brk _ l v => return .mk (.brk l (← Expr.lowerOpt v))
  | .cont _ l => .ok (.mk (.cont l))

/-- Lowers expressions in order. -/
def Expr.lowerAll : List Expr → Lowered (List Core.Term)
  | [] => .ok []
  | e :: es => do
    let e ← e.lower
    return e :: (← Expr.lowerAll es)

/-- Lowers the values of fields in order. -/
def Expr.lowerNamed : List (String × Expr) → Lowered (List (String × Core.Term))
  | [] => .ok []
  | (n, e) :: es => do
    let e ← e.lower
    return (n, e) :: (← Expr.lowerNamed es)

/-- Lowers an expression that may be absent to a term. -/
def Expr.lowerOpt : Option Expr → Lowered (Option Core.Term)
  | none => .ok none
  | some e => return some (← e.lower)

/-- Lowers an expression that may be absent to a body. -/
def Expr.lowerBodyOpt : Option Expr → Lowered (Option Core.Body)
  | none => .ok none
  | some e => return some (← e.lower).body

/-- Lowers a statement. -/
def Stmt.lower : Stmt → Lowered Core.TermStmt
  | .letIn _ p t v => do
    let p ← p.lower
    let t ← t.lower
    return .mk (.letIn p t (← Expr.lowerOpt v))
  | .expr e => return .mk (.expr (← e.lower))

/-- Lowers statements in order. -/
def Stmt.lowerAll : List Stmt → Lowered (List Core.TermStmt)
  | [] => .ok []
  | s :: ss => do
    let s ← s.lower
    return s :: (← Stmt.lowerAll ss)

/-- Lowers an arm of a match. -/
def Arm.lower : Arm → Lowered (Core.Arm Core.Pattern Core.Term)
  | .mk ps g b => do
    let ps ← Pattern.lowerAll ps
    let g ← Expr.lowerOpt g
    return ⟨ps, g, ← b.lower⟩

/-- Lowers the arms of a match in order. -/
def Arm.lowerAll : List Arm → Lowered (List (Core.Arm Core.Pattern Core.Term))
  | [] => .ok []
  | a :: as => do
    let a ← a.lower
    return a :: (← Arm.lowerAll as)

end

/-- Lowers an expression to a body of its own. -/
def Expr.lowerBody (e : Expr) : Lowered Core.Body :=
  return (← e.lower).body

end Surface

end Lowering
