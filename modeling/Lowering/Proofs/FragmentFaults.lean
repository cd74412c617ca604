import Lowering.Lower.Item
import Lowering.Proofs.Steps

/-!
# Faults of fragments

The faults of a fragment, read off the surface tree alone, in the order in which
lowering meets them: what is evaluated first comes first, so the value of an
`if let` stands before its pattern. A form that is refused as a whole has one
fault and its parts have none: a macro call, a `for` loop, a trait object with
lifetimes of its own. A path of the wrong shape hides the faults of its arguments.

Main statement (`lower_first_fault`): a fragment lowers when it has no fault, and
otherwise lowering stops at the first one.
-/

namespace Lowering

/-- The faults for which a form is refused as a whole, which hide those of its parts. -/
def refusedOr (refusal parts : List Diagnostic) : List Diagnostic :=
  if refusal.isEmpty then parts else refusal

/-- A refusal is met before the parts, so those count only without one. -/
theorem DecidedBy.bind_refusedOr {α β : Type} {x : Lowered α} {f : α → Lowered β}
    {refusal parts : List Diagnostic} (hx : DecidedBy x refusal)
    (hf : ∀ a, x = .ok a → DecidedBy (f a) parts) :
    DecidedBy (x >>= f) (refusedOr refusal parts) := by
  cases refusal with
  | nil => exact hx.bind hf
  | cons d ds =>
    have hx : x = .error d := hx
    subst hx
    rfl

namespace Surface

/-- The faults of a primitive type. -/
def ScalarName.faults (span : Location) : ScalarName → List Diagnostic
  | .keyword _ => []
  | .any => [.unimplemented .inferredPrimitive span]
  | .invalid => [.invariant .invalidPrimitive span]

/-- The faults of the suffix of a number, which may be left to inference. -/
def ScalarName.suffixFaults (span : Location) : ScalarName → List Diagnostic
  | .keyword _ | .any => []
  | .invalid => [.invariant .invalidPrimitive span]

/-- The faults of a literal that stands at `span`. -/
def literalFaults (span : Location) : Literal ScalarName → List Diagnostic
  | .integer _ s | .float _ s => s.suffixFaults span
  | .bool _ | .char _ | .string _ => []

/-- The faults in the shape of an absolute path: it has no segment, or segments
before the last one have arguments. -/
def Segment.shapeFaults (span : Location) (segments : List Segment) : List Diagnostic :=
  if segments.isEmpty then [.invariant .emptyAbsolutePath span]
  else (segments.dropLast.filter fun s => !s.args.isEmpty).map fun s =>
    .unimplemented (.argumentsOnLeadingSegment s.name) span

/-- The faults of a path that was never resolved to an item. -/
def Path.unresolvedFaults : Path → List Diagnostic
  | .invalid s => [.invariant (.unresolvedPath .invalid) s]
  | .localName s _ => [.invariant (.unresolvedPath .localName) s]
  | .relative s _ => [.invariant (.unresolvedPath .relative) s]
  | .selfRelative s _ => [.invariant (.unresolvedPath .selfRelative) s]
  | .superRelative s _ _ => [.invariant (.unresolvedPath .superRelative) s]
  | .absolute _ _ _ | .qualified _ _ _ _ => []

mutual

/-- The faults of a type. -/
def Ty.faults : Ty → List Diagnostic
  | .omitted s => [.invariant .placeholderType s]
  | .infer _ | .unit _ | .param _ _ => []
  | .macroCall s m => [.invariant (.macroCall m.name .type) s]
  | .primitive s c => c.faults s
  | .tuple _ ts => Ty.faultsAll ts
  | .borrow _ _ t | .pointer _ _ t => t.faults
  | .array _ t e => t.faults ++ Expr.faultsOpt e
  | .path _ p => p.faults
  | .traitObject s ls ps =>
    refusedOr (if ls.isEmpty then [] else [.unsupported .higherRankedTraitObject s])
      (Path.plainFaultsAll ps)
  | .function _ _ _ args ret => Ty.faultsAll args ++ ret.faults

/-- The faults of types in order. -/
def Ty.faultsAll : List Ty → List Diagnostic
  | [] => []
  | t :: ts => t.faults ++ Ty.faultsAll ts

/-- The faults of types bound to names in order. -/
def Ty.faultsNamed : List (String × Ty) → List Diagnostic
  | [] => []
  | (_, t) :: ts => t.faults ++ Ty.faultsNamed ts

/-- The faults of a path to an item. -/
def Path.faults : Path → List Diagnostic
  | .absolute s _ segs => refusedOr (Segment.shapeFaults s segs) (Segment.lastArgsFaults segs)
  | .qualified s _ _ [] => [.invariant .qualifiedPathWithoutItem s]
  | .qualified _ self trait [.mk _ args] =>
    self.faults ++ (args.faults ++ Path.plainFaultsOpt trait)
  | .qualified s _ _ (_ :: _ :: _) => [.unimplemented .longQualifiedPath s]
  | p => p.unresolvedFaults

/-- The faults of a path where only a plain path to an item is allowed. -/
def Path.plainFaults : Path → List Diagnostic
  | .absolute s _ segs => refusedOr (Segment.shapeFaults s segs) (Segment.lastArgsFaults segs)
  | .qualified s _ _ _ => [.invariant .qualifiedPathAsPlain s]
  | p => p.unresolvedFaults

/-- The faults of plain paths in order. -/
def Path.plainFaultsAll : List Path → List Diagnostic
  | [] => []
  | p :: ps => p.plainFaults ++ Path.plainFaultsAll ps

/-- The faults of a plain path that may be absent. -/
def Path.plainFaultsOpt : Option Path → List Diagnostic
  | none => []
  | some p => p.plainFaults

/-- The faults of the arguments of the last segment. -/
def Segment.lastArgsFaults : List Segment → List Diagnostic
  | [] => []
  | [.mk _ args] => args.faults
  | _ :: rest => Segment.lastArgsFaults rest

/-- The faults of arguments. -/
def GenericArgs.faults : GenericArgs → List Diagnostic
  | .mk _ ts bs => Ty.faultsAll ts ++ Ty.faultsNamed bs

/-- The faults of a pattern. -/
def Pattern.faults : Pattern → List Diagnostic
  | .mk s _ k => k.faults s

/-- The faults of what a pattern at `span` matches. -/
def PatternKind.faults (span : Location) : PatternKind → List Diagnostic
  | .any => []
  | .maybeBind n => [.invariant (.unclassifiedPattern n) span]
  | .macroCall m => [.invariant (.macroCall m.name .pattern) span]
  | .value l => literalFaults span l
  | .range a b => literalFaults span a ++ literalFaults span b
  | .tuple ps => Pattern.faultsAll ps
  | .ref _ p => p.faults
  | .tupleStruct path ps => path.faults ++ Pattern.faultsAll ps
  | .struct path fs _ => path.faults ++ Pattern.faultsNamed fs

/-- The faults of patterns in order. -/
def Pattern.faultsAll : List Pattern → List Diagnostic
  | [] => []
  | p :: ps => p.faults ++ Pattern.faultsAll ps

/-- The faults of field patterns in order. -/
def Pattern.faultsNamed : List (String × Pattern) → List Diagnostic
  | [] => []
  | (_, p) :: ps => p.faults ++ Pattern.faultsNamed ps

/-- The faults of an expression. A path that is a local name has none, as a value
and as what is called. -/
def Expr.faults : Expr → List Diagnostic
  | .macroCall s m => [.invariant (.macroCall m.name .expression) s]
  | .literal s l => literalFaults s l
  | .path _ p => p.localName?.elim p.faults fun _ => []
  | .tuple _ es | .array _ es => Expr.faultsAll es
  | .block _ ss t => Stmt.faultsAll ss ++ Expr.faultsOpt t
  | .assign _ _ a b | .binary _ _ a b | .index _ a b => a.faults ++ b.faults
  | .unary _ _ a | .borrow _ _ a | .field _ a _ => a.faults
  | .cast _ a t => a.faults ++ t.faults
  | .callPath _ p es => (p.localName?.elim p.faults fun _ => []) ++ Expr.faultsAll es
  | .callMethod _ a _ es | .callValue _ a es => a.faults ++ Expr.faultsAll es
  | .structLiteral _ p fs b => p.faults ++ (Expr.faultsNamed fs ++ Expr.faultsOpt b)
  | .ifElse _ c t e => c.faults ++ (t.faults ++ Expr.faultsOpt e)
  | .ifLet _ p v t e => v.faults ++ (p.faults ++ (t.faults ++ Expr.faultsOpt e))
  | .matchOn _ v as => v.faults ++ Arm.faultsAll as
  | .loop _ _ b => b.faults
  | .whileLoop _ _ c b => c.faults ++ b.faults
  | .whileLet _ _ p v b => v.faults ++ (p.faults ++ b.faults)
  | .forLoop s _ _ _ _ => [.unimplemented .forLoop s]
  | .ret _ v | .brk _ _ v => Expr.faultsOpt v
  | .cont _ _ => []

/-- The faults of expressions in order. -/
def Expr.faultsAll : List Expr → List Diagnostic
  | [] => []
  | e :: es => e.faults ++ Expr.faultsAll es

/-- The faults of the values of fields in order. -/
def Expr.faultsNamed : List (String × Expr) → List Diagnostic
  | [] => []
  | (_, e) :: es => e.faults ++ Expr.faultsNamed es

/-- The faults of an expression that may be absent. -/
def Expr.faultsOpt : Option Expr → List Diagnostic
  | none => []
  | some e => e.faults

/-- The faults of a statement. -/
def Stmt.faults : Stmt → List Diagnostic
  | .letIn _ p t v => p.faults ++ (t.faults ++ Expr.faultsOpt v)
  | .expr e => e.faults

/-- The faults of statements in order. -/
def Stmt.faultsAll : List Stmt → List Diagnostic
  | [] => []
  | s :: ss => s.faults ++ Stmt.faultsAll ss

/-- The faults of an arm of a match. -/
def Arm.faults : Arm → List Diagnostic
  | .mk ps g b => Pattern.faultsAll ps ++ (Expr.faultsOpt g ++ b.faults)

/-- The faults of the arms of a match in order. -/
def Arm.faultsAll : List Arm → List Diagnostic
  | [] => []
  | a :: as => a.faults ++ Arm.faultsAll as

end

/-! ## Generics -/

/-- The kinds of generic parameters. -/
inductive ParamKind where
  | lifetime
  | type
  | const
  deriving DecidableEq

/-- The kind of a parameter. -/
def GenericParam.kind : GenericParam → ParamKind
  | .lifetime _ _ => .lifetime
  | .type _ _ _ => .type
  | .const _ _ _ _ => .const

/-- The span of a parameter. -/
def GenericParam.span : GenericParam → Location
  | .lifetime s _ | .type s _ _ | .const s _ _ _ => s

/-- The fault of a parameter when `earlier` ones have used up the numbers of its
kind. -/
def GenericParam.indexFaults (earlier : List GenericParam) (p : GenericParam) :
    List Diagnostic :=
  if earlier.countP (·.kind == p.kind) < UInt32.size then []
  else [.unsupported .tooManyParameters p.span]

/-- The faults of a type that may be absent. -/
def Ty.faultsOpt : Option Ty → List Diagnostic
  | none => []
  | some t => t.faults

/-- The faults of what a parameter is declared with. -/
def GenericParam.partFaults : GenericParam → List Diagnostic
  | .lifetime _ _ => []
  | .type _ _ d => Ty.faultsOpt d
  | .const _ _ t d => t.faults ++ Expr.faultsOpt d

/-- The faults of parameters in order, after the `earlier` ones. -/
def GenericParam.faultsAll : (earlier params : List GenericParam) → List Diagnostic
  | _, [] => []
  | earlier, p :: rest =>
    p.indexFaults earlier ++ (p.partFaults ++ GenericParam.faultsAll (earlier ++ [p]) rest)

/-- The faults of a bound. -/
def GenericBound.faults : GenericBound → List Diagnostic
  | .lifetime _ _ => []
  | .typeLifetime t _ => t.faults
  | .isTrait _ t p | .maybeTrait t p => t.faults ++ p.plainFaults
  | .equality t u => t.faults ++ u.faults

/-- The faults of a parameter list, those of its parameters before those of its
bounds. -/
def Generics.faults (g : Generics) : List Diagnostic :=
  GenericParam.faultsAll [] g.params ++ g.bounds.flatMap GenericBound.faults

/-! ## Fragments stop at their first fault -/

theorem ScalarName.lower_decided (s : Location) :
    ∀ c : ScalarName, DecidedBy (c.lower s) (c.faults s)
  | .keyword c => .ok c
  | .any | .invalid => rfl

theorem ScalarName.lowerSuffix_decided (s : Location) :
    ∀ c : ScalarName, DecidedBy (c.lowerSuffix s) (c.suffixFaults s)
  | .keyword c => .ok (some c)
  | .any => .ok none
  | .invalid => rfl

theorem lowerLiteral_decided (s : Location) :
    ∀ l : Literal ScalarName, DecidedBy (lowerLiteral s l) (literalFaults s l)
  | .integer _ c | .float _ c => (c.lowerSuffix_decided s).map _
  | .bool _ | .char _ | .string _ => .ok _

/-- The name that the check reports is that of the first leading segment with
arguments. -/
theorem Segment.leadingWithArgs?_eq : ∀ segs : List Segment,
    Segment.leadingWithArgs? segs =
      (segs.dropLast.filter fun s => !s.args.isEmpty).head?.map Segment.name
  | [] | [_] => rfl
  | s :: t :: rest => by
    change (if s.args.isEmpty then Segment.leadingWithArgs? (t :: rest) else some s.name) =
      (((s :: (t :: rest).dropLast).filter fun s => !s.args.isEmpty).head?).map Segment.name
    rw [Segment.leadingWithArgs?_eq (t :: rest)]
    cases h : s.args.isEmpty <;> simp [h]

theorem Segment.checkAbsolute_decided (s : Location) (segs : List Segment) :
    DecidedBy (Segment.checkAbsolute s segs) (Segment.shapeFaults s segs) := by
  unfold Segment.checkAbsolute Segment.shapeFaults
  rw [Segment.leadingWithArgs?_eq]
  cases segs.isEmpty with
  | true => rfl
  | false =>
    cases segs.dropLast.filter fun s => !s.args.isEmpty with
    | nil => exact .ok ()
    | cons t ts => rfl

mutual

theorem Ty.lower_decided : ∀ t : Ty, DecidedBy t.lower t.faults
  | .omitted _ | .macroCall _ _ => rfl
  | .infer _ | .unit _ | .param _ _ => .ok _
  | .primitive s c => (c.lower_decided s).bind_ok _
  | .tuple _ ts => (Ty.lowerAll_decided ts).bind_ok _
  | .borrow _ _ t | .pointer _ _ t => t.lower_decided.bind_ok _
  | .array _ t e => t.lower_decided.bind fun _ _ => (Expr.lowerBodyOpt_decided e).bind_ok _
  | .path _ p => p.lower_decided.bind_ok _
  | .traitObject s ls ps => by
    have hps := Path.lowerPlainAll_decided ps
    cases ls with
    | nil => exact hps.bind_ok _
    | cons l ls => rfl
  | .function _ _ _ args ret =>
    (Ty.lowerAll_decided args).bind fun _ _ => ret.lower_decided.bind_ok _

theorem Ty.lowerAll_decided : ∀ ts : List Ty, DecidedBy (Ty.lowerAll ts) (Ty.faultsAll ts)
  | [] => .ok []
  | t :: ts => t.lower_decided.bind fun _ _ => (Ty.lowerAll_decided ts).bind_ok _

theorem Ty.lowerNamed_decided : ∀ ts : List (String × Ty),
    DecidedBy (Ty.lowerNamed ts) (Ty.faultsNamed ts)
  | [] => .ok []
  | (_, t) :: ts => t.lower_decided.bind fun _ _ => (Ty.lowerNamed_decided ts).bind_ok _

theorem Path.lower_decided : ∀ p : Path, DecidedBy p.lower p.faults
  | .invalid _ | .localName _ _ | .relative _ _ | .selfRelative _ _ | .superRelative _ _ _
  | .qualified _ _ _ [] | .qualified _ _ _ (.mk _ _ :: .mk _ _ :: _) => rfl
  | .absolute s _ segs => (Segment.checkAbsolute_decided s segs).bind_refusedOr fun _ _ =>
      (Segment.lowerLastArgs_decided segs).bind_ok _
  | .qualified _ self trait [.mk _ args] =>
    self.lower_decided.bind fun _ _ => args.lower_decided.bind fun _ _ =>
      (Path.lowerPlainOpt_decided trait).bind_ok _

theorem Path.lowerPlain_decided : ∀ p : Path, DecidedBy p.lowerPlain p.plainFaults
  | .invalid _ | .localName _ _ | .relative _ _ | .selfRelative _ _ | .superRelative _ _ _
  | .qualified _ _ _ _ => rfl
  | .absolute s _ segs => (Segment.checkAbsolute_decided s segs).bind_refusedOr fun _ _ =>
      (Segment.lowerLastArgs_decided segs).bind_ok _

theorem Path.lowerPlainAll_decided : ∀ ps : List Path,
    DecidedBy (Path.lowerPlainAll ps) (Path.plainFaultsAll ps)
  | [] => .ok []
  | p :: ps => p.lowerPlain_decided.bind fun _ _ => (Path.lowerPlainAll_decided ps).bind_ok _

theorem Path.lowerPlainOpt_decided : ∀ p : Option Path,
    DecidedBy (Path.lowerPlainOpt p) (Path.plainFaultsOpt p)
  | none => .ok none
  | some p => p.lowerPlain_decided.bind_ok _

theorem Segment.lowerLastArgs_decided : ∀ segs : List Segment,
    DecidedBy (Segment.lowerLastArgs segs) (Segment.lastArgsFaults segs)
  | [] => .ok _
  | [.mk _ args] => args.lower_decided
  | .mk _ _ :: .mk n args :: segs => Segment.lowerLastArgs_decided (.mk n args :: segs)

theorem GenericArgs.lower_decided : ∀ args : GenericArgs, DecidedBy args.lower args.faults
  | .mk _ ts bs =>
    (Ty.lowerAll_decided ts).bind fun _ _ => (Ty.lowerNamed_decided bs).bind_ok _

theorem Pattern.lower_decided : ∀ p : Pattern, DecidedBy p.lower p.faults
  | .mk s _ k => (PatternKind.lower_decided s k).bind_ok _

theorem PatternKind.lower_decided (s : Location) :
    ∀ k : PatternKind, DecidedBy (k.lower s) (k.faults s)
  | .any => .ok _
  | .maybeBind _ | .macroCall _ => rfl
  | .value l => (lowerLiteral_decided s l).bind_ok _
  | .range a b =>
    (lowerLiteral_decided s a).bind fun _ _ => (lowerLiteral_decided s b).bind_ok _
  | .tuple ps => (Pattern.lowerAll_decided ps).bind_ok _
  | .ref _ p => p.lower_decided.bind_ok _
  | .tupleStruct path ps =>
    path.lower_decided.bind fun _ _ => (Pattern.lowerAll_decided ps).bind_ok _
  | .struct path fs _ =>
    path.lower_decided.bind fun _ _ => (Pattern.lowerNamed_decided fs).bind_ok _

theorem Pattern.lowerAll_decided : ∀ ps : List Pattern,
    DecidedBy (Pattern.lowerAll ps) (Pattern.faultsAll ps)
  | [] => .ok []
  | p :: ps => p.lower_decided.bind fun _ _ => (Pattern.lowerAll_decided ps).bind_ok _

theorem Pattern.lowerNamed_decided : ∀ fs : List (String × Pattern),
    DecidedBy (Pattern.lowerNamed fs) (Pattern.faultsNamed fs)
  | [] => .ok []
  | (_, p) :: fs => p.lower_decided.bind fun _ _ => (Pattern.lowerNamed_decided fs).bind_ok _

theorem Expr.lower_decided : ∀ e : Expr, DecidedBy e.lower e.faults
  | .macroCall _ _ | .forLoop _ _ _ _ _ => rfl
  | .cont _ _ => .ok _
  | .literal s l => (lowerLiteral_decided s l).bind_ok _
  | .path s p => by
    have hp := p.lower_decided
    rw [Expr.lower_path_eq]
    change DecidedBy _ (p.localName?.elim p.faults fun _ => [])
    cases p.localName? with
    | none => exact hp.bind_ok _
    | some n => exact .ok _
  | .tuple _ es | .array _ es => (Expr.lowerAll_decided es).bind_ok _
  | .block _ ss t =>
    (Stmt.lowerAll_decided ss).bind fun _ _ => (Expr.lowerOpt_decided t).bind_ok _
  | .assign _ _ a b | .binary _ _ a b | .index _ a b | .whileLoop _ _ a b =>
    a.lower_decided.bind fun _ _ => b.lower_decided.bind_ok _
  | .unary _ (.value _) a | .unary _ .deref a | .borrow _ _ a | .field _ a _ | .loop _ _ a =>
    a.lower_decided.bind_ok _
  | .cast _ a t => a.lower_decided.bind fun _ _ => t.lower_decided.bind_ok _
  | .callPath s p es => by
    have hp := p.lower_decided
    have hes := Expr.lowerAll_decided es
    rw [Expr.lower_callPath_eq]
    change DecidedBy _ ((p.localName?.elim p.faults fun _ => []) ++ _)
    cases p.localName? with
    | none => exact hp.bind fun _ _ => hes.bind_ok _
    | some n => exact hes.bind_ok _
  | .callMethod _ a _ es | .callValue _ a es =>
    a.lower_decided.bind fun _ _ => (Expr.lowerAll_decided es).bind_ok _
  | .structLiteral _ p fs b =>
    p.lower_decided.bind fun _ _ => (Expr.lowerNamed_decided fs).bind fun _ _ =>
      (Expr.lowerOpt_decided b).bind_ok _
  | .ifElse _ c t e =>
    c.lower_decided.bind fun _ _ => t.lower_decided.bind fun _ _ =>
      (Expr.lowerOpt_decided e).bind_ok _
  | .ifLet _ p v t e =>
    v.lower_decided.bind fun _ _ => p.lower_decided.bind fun _ _ =>
      t.lower_decided.bind fun _ _ => (Expr.lowerOpt_decided e).bind_ok _
  | .matchOn _ v as => v.lower_decided.bind fun _ _ => (Arm.lowerAll_decided as).bind_ok _
  | .whileLet _ _ p v b =>
    v.lower_decided.bind fun _ _ => p.lower_decided.bind fun _ _ => b.lower_decided.bind_ok _
  | .ret _ v | .brk _ _ v => (Expr.lowerOpt_decided v).bind_ok _

theorem Expr.lowerAll_decided : ∀ es : List Expr,
    DecidedBy (Expr.lowerAll es) (Expr.faultsAll es)
  | [] => .ok []
  | e :: es => e.lower_decided.bind fun _ _ => (Expr.lowerAll_decided es).bind_ok _

theorem Expr.lowerNamed_decided : ∀ fs : List (String × Expr),
    DecidedBy (Expr.lowerNamed fs) (Expr.faultsNamed fs)
  | [] => .ok []
  | (_, e) :: fs => e.lower_decided.bind fun _ _ => (Expr.lowerNamed_decided fs).bind_ok _

theorem Expr.lowerOpt_decided : ∀ e : Option Expr,
    DecidedBy (Expr.lowerOpt e) (Expr.faultsOpt e)
  | none => .ok none
  | some e => e.lower_decided.bind_ok _

theorem Expr.lowerBodyOpt_decided : ∀ e : Option Expr,
    DecidedBy (Expr.lowerBodyOpt e) (Expr.faultsOpt e)
  | none => .ok none
  | some e => e.lower_decided.bind_ok _

theorem Stmt.lower_decided : ∀ s : Stmt, DecidedBy s.lower s.faults
  | .letIn _ p t v =>
    p.lower_decided.bind fun _ _ => t.lower_decided.bind fun _ _ =>
      (Expr.lowerOpt_decided v).bind_ok _
  | .expr e => e.lower_decided.bind_ok _

theorem Stmt.lowerAll_decided : ∀ ss : List Stmt,
    DecidedBy (Stmt.lowerAll ss) (Stmt.faultsAll ss)
  | [] => .ok []
  | s :: ss => s.lower_decided.bind fun _ _ => (Stmt.lowerAll_decided ss).bind_ok _

theorem Arm.lower_decided : ∀ a : Arm, DecidedBy a.lower a.faults
  | .mk ps g b =>
    (Pattern.lowerAll_decided ps).bind fun _ _ => (Expr.lowerOpt_decided g).bind fun _ _ =>
      b.lower_decided.bind_ok _

theorem Arm.lowerAll_decided : ∀ as : List Arm, DecidedBy (Arm.lowerAll as) (Arm.faultsAll as)
  | [] => .ok []
  | a :: as => a.lower_decided.bind fun _ _ => (Arm.lowerAll_decided as).bind_ok _

end

/-! ## Generics stop at their first fault -/

/-- How many parameters of a kind a core parameter list has. -/
def paramCount (out : Core.Generics) : ParamKind → Nat
  | .lifetime => out.lifetimes.length
  | .type => out.types.length
  | .const => out.consts.length

/-- The list `out` holds as many parameters of each kind as there are `earlier`. -/
def Counts (out : Core.Generics) (earlier : List GenericParam) : Prop :=
  ∀ kind, paramCount out kind = earlier.countP (·.kind == kind)

/-- Adding a parameter to the list of its kind and to the earlier ones. -/
theorem Counts.add {out out' : Core.Generics} {earlier : List GenericParam} {p : GenericParam}
    (h : Counts out earlier)
    (hout : ∀ kind, paramCount out' kind = paramCount out kind + if p.kind = kind then 1 else 0) :
    Counts out' (earlier ++ [p]) := by
  intro kind
  rw [hout, h kind, List.countP_append, List.countP_singleton]
  simp only [beq_iff_eq]

theorem GenericParam.paramIndex_decided {out : Core.Generics} {earlier : List GenericParam}
    (h : Counts out earlier) (p : GenericParam) :
    DecidedBy (paramIndex p.span (paramCount out p.kind)) (p.indexFaults earlier) := by
  unfold paramIndex GenericParam.indexFaults
  rw [h p.kind]
  split
  case isTrue => exact .ok _
  case isFalse => rfl

theorem Ty.lowerOpt_decided : ∀ t : Option Ty, DecidedBy (Ty.lowerOpt t) (Ty.faultsOpt t)
  | none => .ok none
  | some t => t.lower_decided.bind_ok _

theorem GenericParam.lowerAll_decided (params : List GenericParam) {out : Core.Generics}
    {earlier : List GenericParam} (h : Counts out earlier) :
    DecidedBy (GenericParam.lowerAll params out) (GenericParam.faultsAll earlier params) := by
  induction params generalizing out earlier with
  | nil => exact .ok out
  | cons p rest ih =>
    have hindex := GenericParam.paramIndex_decided h p
    cases p with
    | lifetime s n =>
      refine hindex.bind fun i _ => ih (h.add ?_)
      intro kind
      cases kind <;> simp [paramCount, GenericParam.kind]
    | type s n d =>
      refine hindex.bind fun i _ => (Ty.lowerOpt_decided d).bind fun d' _ => ih (h.add ?_)
      intro kind
      cases kind <;> simp [paramCount, GenericParam.kind]
    | const s n t d =>
      refine hindex.bind fun i _ => ?_
      change DecidedBy _ ((t.faults ++ Expr.faultsOpt d) ++ _)
      rw [List.append_assoc]
      refine t.lower_decided.bind fun t' _ => (Expr.lowerBodyOpt_decided d).bind fun d' _ => ?_
      refine ih (h.add ?_)
      intro kind
      cases kind <;> simp [paramCount, GenericParam.kind]

theorem GenericBound.lower_decided : ∀ b : GenericBound, DecidedBy b.lower b.faults
  | .lifetime _ _ => .ok _
  | .typeLifetime t _ => t.lower_decided.bind_ok _
  | .isTrait _ t p | .maybeTrait t p =>
    t.lower_decided.bind fun _ _ => p.lowerPlain_decided.bind_ok _
  | .equality t u => t.lower_decided.bind fun _ _ => u.lower_decided.bind_ok _

theorem GenericBound.lowerAll_decided : ∀ bs : List GenericBound,
    DecidedBy (GenericBound.lowerAll bs) (bs.flatMap GenericBound.faults)
  | [] => .ok []
  | b :: bs => b.lower_decided.bind fun _ _ => (GenericBound.lowerAll_decided bs).bind_ok _

theorem Generics.lower_decided (g : Generics) : DecidedBy g.lower g.faults := by
  have hempty : Counts {} [] := by
    intro kind
    cases kind <;> rfl
  exact (GenericParam.lowerAll_decided g.params hempty).bind fun _ _ =>
    (GenericBound.lowerAll_decided g.bounds).bind_ok _

/-- A fragment lowers exactly when it has no fault, and otherwise lowering stops at
the first one: types, paths to items, plain paths, patterns, literals, generics
and bodies. -/
theorem lower_first_fault :
    (∀ t : Ty, DecidedBy t.lower t.faults) ∧
    (∀ p : Path, DecidedBy p.lower p.faults) ∧
    (∀ p : Path, DecidedBy p.lowerPlain p.plainFaults) ∧
    (∀ p : Pattern, DecidedBy p.lower p.faults) ∧
    (∀ (s : Location) (l : Literal ScalarName),
      DecidedBy (lowerLiteral s l) (literalFaults s l)) ∧
    (∀ g : Generics, DecidedBy g.lower g.faults) ∧
    (∀ e : Option Expr, DecidedBy (Expr.lowerBodyOpt e) (Expr.faultsOpt e)) :=
  ⟨Ty.lower_decided, Path.lower_decided, Path.lowerPlain_decided, Pattern.lower_decided,
    lowerLiteral_decided, Generics.lower_decided, Expr.lowerBodyOpt_decided⟩

-- The value of an `if let` is met before its pattern, and a `for` loop before its parts.
example (s : Location) : Expr.lowerBodyOpt (some (.ifLet s (.mk s none (.maybeBind "x"))
      (.forLoop s none default (.macroCall s ⟨"m", s⟩) default) default none)) =
    .error (.unimplemented .forLoop s) := rfl

end Surface

end Lowering
