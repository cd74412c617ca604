import Lowering.Lower.Item
import Lowering.Proofs.Steps

/-!
# What never stops at a name clash

A diagnostic names a module, or a trait, only when it is about a name clash there.
Fragments and the parts of items have no names to clash, so what they stop at names
no module: `Lowered.ClashFree` says so of one computation. Rules for a step after
another carry it through the lowering functions, one line for each form. A trait is
clash-free up to the items it declares (`Trait.lowerHead_clashFree`).
-/

namespace Lowering

variable {α β : Type}

/-- The path of the module or trait in which a diagnostic reports a clash. -/
def Diagnostic.module? : Diagnostic → Option Core.ItemPath
  | .duplicateItem m _ _ => some m
  | .invariant _ _ | .unimplemented _ _ | .unsupported _ _ | .macroConflict _ _ => none

/-- A computation that never stops at a name clash. -/
def Lowered.ClashFree (x : Lowered α) : Prop := ∀ d, x = .error d → d.module? = none

namespace Lowered.ClashFree

theorem ok (a : α) : ClashFree (.ok a : Lowered α) := by
  intro d h
  cases h

theorem error {d : Diagnostic} (h : d.module? = none) : ClashFree (.error d : Lowered α) := by
  intro e he
  cases he
  exact h

theorem bind {x : Lowered α} {f : α → Lowered β} (hx : ClashFree x) (hf : ∀ a, ClashFree (f a)) :
    ClashFree (x >>= f) := by
  intro d h
  cases x with
  | error e =>
    cases h
    exact hx _ rfl
  | ok a => exact hf a d h

/-- A last step that cannot stop. -/
theorem bind_ok {x : Lowered α} (hx : ClashFree x) (f : α → β) :
    ClashFree (x >>= fun a => .ok (f a)) :=
  hx.bind fun a => ok (f a)

theorem map {x : Lowered α} (hx : ClashFree x) (f : α → β) : ClashFree (x.map f) := by
  intro d h
  cases x with
  | error e =>
    cases h
    exact hx _ rfl
  | ok a => cases h

end Lowered.ClashFree

namespace Surface

open Lowered (ClashFree)

/-! ## Fragments -/

theorem ScalarName.lower_clashFree (s : Location) :
    ∀ c : ScalarName, ClashFree (c.lower s)
  | .keyword c => .ok c
  | .any | .invalid => .error rfl

theorem ScalarName.lowerSuffix_clashFree (s : Location) :
    ∀ c : ScalarName, ClashFree (c.lowerSuffix s)
  | .keyword c => .ok (some c)
  | .any => .ok none
  | .invalid => .error rfl

theorem lowerLiteral_clashFree (s : Location) :
    ∀ l : Literal ScalarName, ClashFree (lowerLiteral s l)
  | .integer _ c | .float _ c => (c.lowerSuffix_clashFree s).map _
  | .bool _ | .char _ | .string _ => .ok _

theorem Segment.checkAbsolute_clashFree (s : Location) (segs : List Segment) :
    ClashFree (Segment.checkAbsolute s segs) := by
  unfold Segment.checkAbsolute
  split
  · exact .error rfl
  · split
    · exact .error rfl
    · exact .ok ()

mutual

theorem Ty.lower_clashFree : ∀ t : Ty, ClashFree t.lower
  | .omitted _ | .macroCall _ _ => .error rfl
  | .infer _ | .unit _ | .param _ _ => .ok _
  | .primitive s c => (c.lower_clashFree s).bind_ok _
  | .tuple _ ts => (Ty.lowerAll_clashFree ts).bind_ok _
  | .borrow _ _ t | .pointer _ _ t => t.lower_clashFree.bind_ok _
  | .array _ t e => t.lower_clashFree.bind fun _ => (Expr.lowerBodyOpt_clashFree e).bind_ok _
  | .path _ p => p.lower_clashFree.bind_ok _
  | .traitObject s ls ps => by
    have hps := Path.lowerPlainAll_clashFree ps
    cases ls with
    | nil => exact hps.bind_ok _
    | cons l ls => exact .error rfl
  | .function _ _ _ args ret =>
    (Ty.lowerAll_clashFree args).bind fun _ => ret.lower_clashFree.bind_ok _

theorem Ty.lowerAll_clashFree : ∀ ts : List Ty, ClashFree (Ty.lowerAll ts)
  | [] => .ok []
  | t :: ts => t.lower_clashFree.bind fun _ => (Ty.lowerAll_clashFree ts).bind_ok _

theorem Ty.lowerNamed_clashFree : ∀ ts : List (String × Ty), ClashFree (Ty.lowerNamed ts)
  | [] => .ok []
  | (_, t) :: ts => t.lower_clashFree.bind fun _ => (Ty.lowerNamed_clashFree ts).bind_ok _

theorem Path.lower_clashFree : ∀ p : Path, ClashFree p.lower
  | .invalid _ | .localName _ _ | .relative _ _ | .selfRelative _ _ | .superRelative _ _ _
  | .qualified _ _ _ [] | .qualified _ _ _ (.mk _ _ :: .mk _ _ :: _) => .error rfl
  | .absolute s _ segs => (Segment.checkAbsolute_clashFree s segs).bind fun _ =>
      (Segment.lowerLastArgs_clashFree segs).bind_ok _
  | .qualified _ self trait [.mk _ args] =>
    self.lower_clashFree.bind fun _ => args.lower_clashFree.bind fun _ =>
      (Path.lowerPlainOpt_clashFree trait).bind_ok _

theorem Path.lowerPlain_clashFree : ∀ p : Path, ClashFree p.lowerPlain
  | .invalid _ | .localName _ _ | .relative _ _ | .selfRelative _ _ | .superRelative _ _ _
  | .qualified _ _ _ _ => .error rfl
  | .absolute s _ segs => (Segment.checkAbsolute_clashFree s segs).bind fun _ =>
      (Segment.lowerLastArgs_clashFree segs).bind_ok _

theorem Path.lowerPlainAll_clashFree : ∀ ps : List Path, ClashFree (Path.lowerPlainAll ps)
  | [] => .ok []
  | p :: ps => p.lowerPlain_clashFree.bind fun _ => (Path.lowerPlainAll_clashFree ps).bind_ok _

theorem Path.lowerPlainOpt_clashFree : ∀ p : Option Path, ClashFree (Path.lowerPlainOpt p)
  | none => .ok none
  | some p => p.lowerPlain_clashFree.bind_ok _

theorem Segment.lowerLastArgs_clashFree : ∀ segs : List Segment,
    ClashFree (Segment.lowerLastArgs segs)
  | [] => .ok _
  | [.mk _ args] => args.lower_clashFree
  | .mk _ _ :: .mk n args :: segs => Segment.lowerLastArgs_clashFree (.mk n args :: segs)

theorem GenericArgs.lower_clashFree : ∀ args : GenericArgs, ClashFree args.lower
  | .mk _ ts bs =>
    (Ty.lowerAll_clashFree ts).bind fun _ => (Ty.lowerNamed_clashFree bs).bind_ok _

theorem Pattern.lower_clashFree : ∀ p : Pattern, ClashFree p.lower
  | .mk s _ k => (PatternKind.lower_clashFree s k).bind_ok _

theorem PatternKind.lower_clashFree (s : Location) : ∀ k : PatternKind, ClashFree (k.lower s)
  | .any => .ok _
  | .maybeBind _ | .macroCall _ => .error rfl
  | .value l => (lowerLiteral_clashFree s l).bind_ok _
  | .range a b =>
    (lowerLiteral_clashFree s a).bind fun _ => (lowerLiteral_clashFree s b).bind_ok _
  | .tuple ps => (Pattern.lowerAll_clashFree ps).bind_ok _
  | .ref _ p => p.lower_clashFree.bind_ok _
  | .tupleStruct path ps =>
    path.lower_clashFree.bind fun _ => (Pattern.lowerAll_clashFree ps).bind_ok _
  | .struct path fs _ =>
    path.lower_clashFree.bind fun _ => (Pattern.lowerNamed_clashFree fs).bind_ok _

theorem Pattern.lowerAll_clashFree : ∀ ps : List Pattern, ClashFree (Pattern.lowerAll ps)
  | [] => .ok []
  | p :: ps => p.lower_clashFree.bind fun _ => (Pattern.lowerAll_clashFree ps).bind_ok _

theorem Pattern.lowerNamed_clashFree : ∀ fs : List (String × Pattern),
    ClashFree (Pattern.lowerNamed fs)
  | [] => .ok []
  | (_, p) :: fs => p.lower_clashFree.bind fun _ => (Pattern.lowerNamed_clashFree fs).bind_ok _

theorem Expr.lower_clashFree : ∀ e : Expr, ClashFree e.lower
  | .macroCall _ _ | .forLoop _ _ _ _ _ => .error rfl
  | .cont _ _ => .ok _
  | .literal s l => (lowerLiteral_clashFree s l).bind_ok _
  | .path s p => by
    have hp := p.lower_clashFree
    rw [Expr.lower_path_eq]
    cases p.localName? with
    | none => exact hp.bind_ok _
    | some n => exact .ok _
  | .tuple _ es | .array _ es => (Expr.lowerAll_clashFree es).bind_ok _
  | .block _ ss t =>
    (Stmt.lowerAll_clashFree ss).bind fun _ => (Expr.lowerOpt_clashFree t).bind_ok _
  | .assign _ _ a b | .binary _ _ a b | .index _ a b | .whileLoop _ _ a b =>
    a.lower_clashFree.bind fun _ => b.lower_clashFree.bind_ok _
  | .unary _ (.value _) a | .unary _ .deref a | .borrow _ _ a | .field _ a _ | .loop _ _ a =>
    a.lower_clashFree.bind_ok _
  | .cast _ a t => a.lower_clashFree.bind fun _ => t.lower_clashFree.bind_ok _
  | .callPath s p es => by
    have hp := p.lower_clashFree
    have hes := Expr.lowerAll_clashFree es
    rw [Expr.lower_callPath_eq]
    cases p.localName? with
    | none => exact hp.bind fun _ => hes.bind_ok _
    | some n => exact hes.bind_ok _
  | .callMethod _ a _ es | .callValue _ a es =>
    a.lower_clashFree.bind fun _ => (Expr.lowerAll_clashFree es).bind_ok _
  | .structLiteral _ p fs b =>
    p.lower_clashFree.bind fun _ => (Expr.lowerNamed_clashFree fs).bind fun _ =>
      (Expr.lowerOpt_clashFree b).bind_ok _
  | .ifElse _ c t e =>
    c.lower_clashFree.bind fun _ => t.lower_clashFree.bind fun _ =>
      (Expr.lowerOpt_clashFree e).bind_ok _
  | .ifLet _ p v t e =>
    v.lower_clashFree.bind fun _ => p.lower_clashFree.bind fun _ =>
      t.lower_clashFree.bind fun _ => (Expr.lowerOpt_clashFree e).bind_ok _
  | .matchOn _ v as => v.lower_clashFree.bind fun _ => (Arm.lowerAll_clashFree as).bind_ok _
  | .whileLet _ _ p v b =>
    v.lower_clashFree.bind fun _ => p.lower_clashFree.bind fun _ => b.lower_clashFree.bind_ok _
  | .ret _ v | .brk _ _ v => (Expr.lowerOpt_clashFree v).bind_ok _

theorem Expr.lowerAll_clashFree : ∀ es : List Expr, ClashFree (Expr.lowerAll es)
  | [] => .ok []
  | e :: es => e.lower_clashFree.bind fun _ => (Expr.lowerAll_clashFree es).bind_ok _

theorem Expr.lowerNamed_clashFree : ∀ fs : List (String × Expr), ClashFree (Expr.lowerNamed fs)
  | [] => .ok []
  | (_, e) :: fs => e.lower_clashFree.bind fun _ => (Expr.lowerNamed_clashFree fs).bind_ok _

theorem Expr.lowerOpt_clashFree : ∀ e : Option Expr, ClashFree (Expr.lowerOpt e)
  | none => .ok none
  | some e => e.lower_clashFree.bind_ok _

theorem Expr.lowerBodyOpt_clashFree : ∀ e : Option Expr, ClashFree (Expr.lowerBodyOpt e)
  | none => .ok none
  | some e => e.lower_clashFree.bind_ok _

theorem Stmt.lower_clashFree : ∀ s : Stmt, ClashFree s.lower
  | .letIn _ p t v =>
    p.lower_clashFree.bind fun _ => t.lower_clashFree.bind fun _ =>
      (Expr.lowerOpt_clashFree v).bind_ok _
  | .expr e => e.lower_clashFree.bind_ok _

theorem Stmt.lowerAll_clashFree : ∀ ss : List Stmt, ClashFree (Stmt.lowerAll ss)
  | [] => .ok []
  | s :: ss => s.lower_clashFree.bind fun _ => (Stmt.lowerAll_clashFree ss).bind_ok _

theorem Arm.lower_clashFree : ∀ a : Arm, ClashFree a.lower
  | .mk ps g b =>
    (Pattern.lowerAll_clashFree ps).bind fun _ => (Expr.lowerOpt_clashFree g).bind fun _ =>
      b.lower_clashFree.bind_ok _

theorem Arm.lowerAll_clashFree : ∀ as : List Arm, ClashFree (Arm.lowerAll as)
  | [] => .ok []
  | a :: as => a.lower_clashFree.bind fun _ => (Arm.lowerAll_clashFree as).bind_ok _

end

/-! ## Items and their parts -/

theorem paramIndex_clashFree (s : Location) (count : Nat) : ClashFree (paramIndex s count) := by
  unfold paramIndex
  split
  · exact .ok count
  · exact .error rfl

theorem Ty.lowerOpt_clashFree : ∀ t : Option Ty, ClashFree (Ty.lowerOpt t)
  | none => .ok none
  | some t => t.lower_clashFree.bind_ok _

theorem GenericParam.lowerAll_clashFree (params : List GenericParam) (out : Core.Generics) :
    ClashFree (GenericParam.lowerAll params out) := by
  induction params generalizing out with
  | nil => exact .ok out
  | cons p rest ih =>
    cases p with
    | lifetime s n => exact (paramIndex_clashFree s _).bind fun _ => ih _
    | type s n d =>
      exact (paramIndex_clashFree s _).bind fun _ => (Ty.lowerOpt_clashFree d).bind fun _ => ih _
    | const s n t d =>
      exact (paramIndex_clashFree s _).bind fun _ => t.lower_clashFree.bind fun _ =>
        (Expr.lowerBodyOpt_clashFree d).bind fun _ => ih _

theorem GenericBound.lower_clashFree : ∀ b : GenericBound, ClashFree b.lower
  | .lifetime _ _ => .ok _
  | .typeLifetime t _ => t.lower_clashFree.bind_ok _
  | .isTrait _ t p | .maybeTrait t p =>
    t.lower_clashFree.bind fun _ => p.lowerPlain_clashFree.bind_ok _
  | .equality t u => t.lower_clashFree.bind fun _ => u.lower_clashFree.bind_ok _

theorem GenericBound.lowerAll_clashFree : ∀ bs : List GenericBound,
    ClashFree (GenericBound.lowerAll bs)
  | [] => .ok []
  | b :: bs => b.lower_clashFree.bind fun _ => (GenericBound.lowerAll_clashFree bs).bind_ok _

theorem Generics.lower_clashFree (g : Generics) : ClashFree g.lower :=
  (GenericParam.lowerAll_clashFree g.params {}).bind fun _ =>
    (GenericBound.lowerAll_clashFree g.bounds).bind_ok _

theorem TypeAlias.lower_clashFree (a : TypeAlias) : ClashFree a.lower :=
  a.generics.lower_clashFree.bind fun _ => a.ty.lower_clashFree.bind_ok _

theorem TupleField.lowerAll_clashFree : ∀ fs : List TupleField,
    ClashFree (TupleField.lowerAll fs)
  | [] => .ok []
  | f :: fs => f.ty.lower_clashFree.bind fun _ => (TupleField.lowerAll_clashFree fs).bind_ok _

theorem NamedField.lowerAll_clashFree : ∀ fs : List NamedField,
    ClashFree (NamedField.lowerAll fs)
  | [] => .ok []
  | f :: fs => f.ty.lower_clashFree.bind fun _ => (NamedField.lowerAll_clashFree fs).bind_ok _

theorem NamedField.lowerTypes_clashFree : ∀ fs : List NamedField,
    ClashFree (NamedField.lowerTypes fs)
  | [] => .ok []
  | f :: fs => f.ty.lower_clashFree.bind fun _ => (NamedField.lowerTypes_clashFree fs).bind_ok _

theorem Fields.lower_clashFree : ∀ d : Fields, ClashFree d.lower
  | .tuple [] => .ok _
  | .tuple (f :: fs) => (TupleField.lowerAll_clashFree (f :: fs)).bind_ok _
  | .named fs => (NamedField.lowerAll_clashFree fs).bind_ok _

theorem Struct.lower_clashFree (s : Struct) : ClashFree s.lower :=
  s.data.lower_clashFree.bind fun _ => s.generics.lower_clashFree.bind_ok _

theorem Payload.lower_clashFree : ∀ d : Payload, ClashFree d.lower
  | .value none => .ok _
  | .value (some e) => (e.lower_clashFree.bind_ok _).bind_ok _
  | .tuple ts => (Ty.lowerAll_clashFree ts).bind_ok _
  | .struct fs => (NamedField.lowerTypes_clashFree fs).bind_ok _

theorem Variant.lowerAll_clashFree : ∀ vs : List Variant, ClashFree (Variant.lowerAll vs)
  | [] => .ok []
  | v :: vs => v.data.lower_clashFree.bind fun _ => (Variant.lowerAll_clashFree vs).bind_ok _

theorem Enum.lower_clashFree (e : Enum) : ClashFree e.lower :=
  (Variant.lowerAll_clashFree e.variants).bind fun _ => e.generics.lower_clashFree.bind_ok _

theorem Function.lowerArgs_clashFree : ∀ args : List (Pattern × Ty),
    ClashFree (Function.lowerArgs args)
  | [] => .ok []
  | (p, t) :: rest => p.lower_clashFree.bind fun _ => t.lower_clashFree.bind fun _ =>
      (Function.lowerArgs_clashFree rest).bind_ok _

theorem Function.lower_clashFree (f : Function) : ClashFree f.lower :=
  f.generics.lower_clashFree.bind fun _ => (Function.lowerArgs_clashFree f.args).bind fun _ =>
    f.ret.lower_clashFree.bind fun _ => (Expr.lowerBodyOpt_clashFree f.code).bind_ok _

theorem Static.lowerConstant_clashFree (s : Static) : ClashFree s.lowerConstant :=
  s.ty.lower_clashFree.bind fun _ => (Expr.lowerBodyOpt_clashFree s.value).bind_ok _

theorem Static.lowerStatic_clashFree (s : Static) : ClashFree s.lowerStatic :=
  s.ty.lower_clashFree.bind fun _ => (Expr.lowerBodyOpt_clashFree s.value).bind_ok _

theorem Static.lower_clashFree (s : Static) : ClashFree s.lower := by
  unfold Static.lower
  cases s.storage with
  | const => exact s.lowerConstant_clashFree.bind_ok _
  | static => exact s.lowerStatic_clashFree.bind_ok _
  | staticMut => exact s.lowerStatic_clashFree.bind_ok _

theorem Static.lowerInTrait_clashFree (s : Static) : ClashFree s.lowerInTrait := by
  unfold Static.lowerInTrait
  cases s.storage with
  | const => exact s.lowerConstant_clashFree.bind_ok _
  | static => exact s.lowerStatic_clashFree.bind_ok _
  | staticMut => exact s.lowerStatic_clashFree.bind_ok _

theorem TraitItem.lower_clashFree : ∀ item : TraitItem, ClashFree item.lower
  | .type a => ((Path.lowerPlainAll_clashFree a.bounds).bind fun _ =>
      (Ty.lowerOpt_clashFree a.default).bind_ok _).bind_ok _
  | .function f => f.lower_clashFree.bind_ok _
  | .static s => s.lowerInTrait_clashFree.bind_ok _

theorem Trait.lowerHead_clashFree (t : Trait) : ClashFree t.lowerHead :=
  (Path.lowerPlainAll_clashFree t.supertraits).bind fun _ => t.generics.lower_clashFree.bind_ok _

end Surface

end Lowering
