import Lowering.Proofs.Steps

/-!
# Rewriting of surface trees

A rewriting replaces types, paths and expressions from the leaves up and moves
every node to another place. `Ty.rewrite` and the functions beside it apply it to
whole trees, through array sizes, path arguments, patterns and guards alike.

Main statement (`Expr.lower_rewrite` and the theorems beside it): a rewriting
whose replacements keep what a node lowers to keeps what a tree lowers to, or
moves the diagnostic along with the node it is about. Where macro calls and `let`
statements stand never matters.
-/

namespace Lowering

/-- The diagnostic at another place. -/
def Diagnostic.relocate (f : Location → Location) : Diagnostic → Diagnostic
  | .invariant c s => .invariant c (f s)
  | .unimplemented c s => .unimplemented c (f s)
  | .unsupported c s => .unsupported c (f s)
  | .duplicateItem m c s => .duplicateItem m c (f s)
  | .macroConflict n s => .macroConflict n (f s)

/-- The outcome with its diagnostic at another place. -/
def Lowered.relocate {α : Type} (f : Location → Location) (x : Lowered α) : Lowered α :=
  x.mapError (·.relocate f)

theorem Lowered.bind_relocate {α β : Type} {f : Location → Location} {x x' : Lowered α}
    {k k' : α → Lowered β} (hx : x' = x.relocate f) (hk : ∀ a, k' a = (k a).relocate f) :
    (x' >>= k') = (x >>= k).relocate f := by
  subst hx
  cases x with
  | error d => rfl
  | ok a => exact hk a

theorem Lowered.relocate_id {α : Type} (x : Lowered α) : x.relocate id = x := by
  cases x with
  | error d => cases d <;> rfl
  | ok a => rfl

theorem Lowered.relocate_eq_ok {α : Type} {f : Location → Location} {x : Lowered α} {a : α} :
    x.relocate f = .ok a ↔ x = .ok a := by
  cases x with
  | error d => exact ⟨nofun, nofun⟩
  | ok b => exact Iff.rfl

namespace Surface

/-- What to make of the nodes of a tree. An expression is known by its position:
the number of each node on the way to it among the parts of the node above, the
nearest node first. -/
structure Rewriting where
  /-- Where a node is put. -/
  place : Location → Location := id
  /-- Where a macro call or a `let` is put. -/
  mark : Location → Location := id
  /-- What stands for a type, its parts being rewritten. -/
  ty : Ty → Ty := id
  /-- What stands for a path, its parts being rewritten. -/
  path : Path → Path := id
  /-- What stands for the expression at a position, its parts being rewritten. -/
  expr : (pos : List Nat) → Expr → Expr := fun _ => id

/-- The macro call at another place. -/
def MacroCall.rewrite (r : Rewriting) (m : MacroCall) : MacroCall :=
  { m with span := r.mark m.span }

mutual

/-- Rewrites a type. -/
def Ty.rewrite (r : Rewriting) (pos : List Nat) : Ty → Ty
  | .omitted s => r.ty (.omitted (r.place s))
  | .infer s => r.ty (.infer (r.place s))
  | .unit s => r.ty (.unit (r.place s))
  | .macroCall s m => r.ty (.macroCall (r.place s) (m.rewrite r))
  | .primitive s c => r.ty (.primitive (r.place s) c)
  | .tuple s ts => r.ty (.tuple (r.place s) (Ty.rewriteAll r pos ts))
  | .borrow s k t => r.ty (.borrow (r.place s) k (t.rewrite r pos))
  | .pointer s m t => r.ty (.pointer (r.place s) m (t.rewrite r pos))
  | .array s t e =>
    r.ty (.array (r.place s) (t.rewrite r (0 :: pos)) (Expr.rewriteOpt r (1 :: pos) e))
  | .path s p => r.ty (.path (r.place s) (p.rewrite r pos))
  | .traitObject s ls ps => r.ty (.traitObject (r.place s) ls (Path.rewriteAll r pos ps))
  | .function s u abi args ret =>
    r.ty (.function (r.place s) u abi (Ty.rewriteAll r (0 :: pos) args) (ret.rewrite r (1 :: pos)))
  | .param s n => r.ty (.param (r.place s) n)

/-- Rewrites types in order. -/
def Ty.rewriteAll (r : Rewriting) (pos : List Nat) : List Ty → List Ty
  | [] => []
  | t :: ts => t.rewrite r (0 :: pos) :: Ty.rewriteAll r (1 :: pos) ts

/-- Rewrites types bound to names in order. -/
def Ty.rewriteNamed (r : Rewriting) (pos : List Nat) : List (String × Ty) → List (String × Ty)
  | [] => []
  | (n, t) :: ts => (n, t.rewrite r (0 :: pos)) :: Ty.rewriteNamed r (1 :: pos) ts

/-- Rewrites a path. -/
def Path.rewrite (r : Rewriting) (pos : List Nat) : Path → Path
  | .invalid s => r.path (.invalid (r.place s))
  | .localName s n => r.path (.localName (r.place s) n)
  | .relative s segs => r.path (.relative (r.place s) (Segment.rewriteAll r pos segs))
  | .selfRelative s segs => r.path (.selfRelative (r.place s) (Segment.rewriteAll r pos segs))
  | .superRelative s c segs =>
    r.path (.superRelative (r.place s) c (Segment.rewriteAll r pos segs))
  | .absolute s c segs => r.path (.absolute (r.place s) c (Segment.rewriteAll r pos segs))
  | .qualified s self trait segs =>
    r.path (.qualified (r.place s) (self.rewrite r (0 :: pos))
      (Path.rewriteOpt r (1 :: pos) trait) (Segment.rewriteAll r (2 :: pos) segs))

/-- Rewrites paths in order. -/
def Path.rewriteAll (r : Rewriting) (pos : List Nat) : List Path → List Path
  | [] => []
  | p :: ps => p.rewrite r (0 :: pos) :: Path.rewriteAll r (1 :: pos) ps

/-- Rewrites a path that may be absent. -/
def Path.rewriteOpt (r : Rewriting) (pos : List Nat) : Option Path → Option Path
  | none => none
  | some p => some (p.rewrite r pos)

/-- Rewrites the segments of a path in order. -/
def Segment.rewriteAll (r : Rewriting) (pos : List Nat) : List Segment → List Segment
  | [] => []
  | .mk n args :: segs => .mk n (args.rewrite r (0 :: pos)) :: Segment.rewriteAll r (1 :: pos) segs

/-- Rewrites the arguments of a segment. -/
def GenericArgs.rewrite (r : Rewriting) (pos : List Nat) : GenericArgs → GenericArgs
  | .mk ls ts bs => .mk ls (Ty.rewriteAll r (0 :: pos) ts) (Ty.rewriteNamed r (1 :: pos) bs)

/-- Rewrites a pattern. -/
def Pattern.rewrite (r : Rewriting) (pos : List Nat) : Pattern → Pattern
  | .mk s b k => .mk (r.place s) b (k.rewrite r pos)

/-- Rewrites what a pattern matches. -/
def PatternKind.rewrite (r : Rewriting) (pos : List Nat) : PatternKind → PatternKind
  | .any => .any
  | .maybeBind n => .maybeBind n
  | .macroCall m => .macroCall (m.rewrite r)
  | .value l => .value l
  | .range a b => .range a b
  | .tuple ps => .tuple (Pattern.rewriteAll r pos ps)
  | .ref k p => .ref k (p.rewrite r pos)
  | .tupleStruct path ps =>
    .tupleStruct (path.rewrite r (0 :: pos)) (Pattern.rewriteAll r (1 :: pos) ps)
  | .struct path fs e =>
    .struct (path.rewrite r (0 :: pos)) (Pattern.rewriteNamed r (1 :: pos) fs) e

/-- Rewrites patterns in order. -/
def Pattern.rewriteAll (r : Rewriting) (pos : List Nat) : List Pattern → List Pattern
  | [] => []
  | p :: ps => p.rewrite r (0 :: pos) :: Pattern.rewriteAll r (1 :: pos) ps

/-- Rewrites field patterns in order. -/
def Pattern.rewriteNamed (r : Rewriting) (pos : List Nat) :
    List (String × Pattern) → List (String × Pattern)
  | [] => []
  | (n, p) :: ps => (n, p.rewrite r (0 :: pos)) :: Pattern.rewriteNamed r (1 :: pos) ps

/-- Rewrites the expression at a position. -/
def Expr.rewrite (r : Rewriting) (pos : List Nat) : Expr → Expr
  | .macroCall s m => r.expr pos (.macroCall (r.place s) (m.rewrite r))
  | .literal s l => r.expr pos (.literal (r.place s) l)
  | .path s p => r.expr pos (.path (r.place s) (p.rewrite r (0 :: pos)))
  | .tuple s es => r.expr pos (.tuple (r.place s) (Expr.rewriteAll r (0 :: pos) es))
  | .array s es => r.expr pos (.array (r.place s) (Expr.rewriteAll r (0 :: pos) es))
  | .block s ss t =>
    r.expr pos (.block (r.place s) (Stmt.rewriteAll r (0 :: pos) ss)
      (Expr.rewriteOpt r (1 :: pos) t))
  | .assign s o a b =>
    r.expr pos (.assign (r.place s) o (a.rewrite r (0 :: pos)) (b.rewrite r (1 :: pos)))
  | .binary s o a b =>
    r.expr pos (.binary (r.place s) o (a.rewrite r (0 :: pos)) (b.rewrite r (1 :: pos)))
  | .unary s o a => r.expr pos (.unary (r.place s) o (a.rewrite r (0 :: pos)))
  | .borrow s k a => r.expr pos (.borrow (r.place s) k (a.rewrite r (0 :: pos)))
  | .cast s a t =>
    r.expr pos (.cast (r.place s) (a.rewrite r (0 :: pos)) (t.rewrite r (1 :: pos)))
  | .callPath s p es =>
    r.expr pos (.callPath (r.place s) (p.rewrite r (0 :: pos)) (Expr.rewriteAll r (1 :: pos) es))
  | .callMethod s a m es =>
    r.expr pos (.callMethod (r.place s) (a.rewrite r (0 :: pos)) m
      (Expr.rewriteAll r (1 :: pos) es))
  | .callValue s a es =>
    r.expr pos (.callValue (r.place s) (a.rewrite r (0 :: pos)) (Expr.rewriteAll r (1 :: pos) es))
  | .field s a n => r.expr pos (.field (r.place s) (a.rewrite r (0 :: pos)) n)
  | .index s a b =>
    r.expr pos (.index (r.place s) (a.rewrite r (0 :: pos)) (b.rewrite r (1 :: pos)))
  | .structLiteral s p fs b =>
    r.expr pos (.structLiteral (r.place s) (p.rewrite r (0 :: pos))
      (Expr.rewriteNamed r (1 :: pos) fs) (Expr.rewriteOpt r (2 :: pos) b))
  | .ifElse s c t e =>
    r.expr pos (.ifElse (r.place s) (c.rewrite r (0 :: pos)) (t.rewrite r (1 :: pos))
      (Expr.rewriteOpt r (2 :: pos) e))
  | .ifLet s p v t e =>
    r.expr pos (.ifLet (r.place s) (p.rewrite r (0 :: pos)) (v.rewrite r (1 :: pos))
      (t.rewrite r (2 :: pos)) (Expr.rewriteOpt r (3 :: pos) e))
  | .matchOn s v as =>
    r.expr pos (.matchOn (r.place s) (v.rewrite r (0 :: pos)) (Arm.rewriteAll r (1 :: pos) as))
  | .loop s l b => r.expr pos (.loop (r.place s) l (b.rewrite r (0 :: pos)))
  | .whileLoop s l c b =>
    r.expr pos (.whileLoop (r.place s) l (c.rewrite r (0 :: pos)) (b.rewrite r (1 :: pos)))
  | .whileLet s l p v b =>
    r.expr pos (.whileLet (r.place s) l (p.rewrite r (0 :: pos)) (v.rewrite r (1 :: pos))
      (b.rewrite r (2 :: pos)))
  | .forLoop s l p i b =>
    r.expr pos (.forLoop (r.place s) l (p.rewrite r (0 :: pos)) (i.rewrite r (1 :: pos))
      (b.rewrite r (2 :: pos)))
  | .ret s v => r.expr pos (.ret (r.place s) (Expr.rewriteOpt r (0 :: pos) v))
  | .brk s l v => r.expr pos (.brk (r.place s) l (Expr.rewriteOpt r (0 :: pos) v))
  | .cont s l => r.expr pos (.cont (r.place s) l)

/-- Rewrites expressions in order. -/
def Expr.rewriteAll (r : Rewriting) (pos : List Nat) : List Expr → List Expr
  | [] => []
  | e :: es => e.rewrite r (0 :: pos) :: Expr.rewriteAll r (1 :: pos) es

/-- Rewrites the values of fields in order. -/
def Expr.rewriteNamed (r : Rewriting) (pos : List Nat) :
    List (String × Expr) → List (String × Expr)
  | [] => []
  | (n, e) :: es => (n, e.rewrite r (0 :: pos)) :: Expr.rewriteNamed r (1 :: pos) es

/-- Rewrites an expression that may be absent. -/
def Expr.rewriteOpt (r : Rewriting) (pos : List Nat) : Option Expr → Option Expr
  | none => none
  | some e => some (e.rewrite r pos)

/-- Rewrites a statement. -/
def Stmt.rewrite (r : Rewriting) (pos : List Nat) : Stmt → Stmt
  | .letIn s p t v =>
    .letIn (r.mark s) (p.rewrite r (0 :: pos)) (t.rewrite r (1 :: pos))
      (Expr.rewriteOpt r (2 :: pos) v)
  | .expr e => .expr (e.rewrite r pos)

/-- Rewrites statements in order. -/
def Stmt.rewriteAll (r : Rewriting) (pos : List Nat) : List Stmt → List Stmt
  | [] => []
  | s :: ss => s.rewrite r (0 :: pos) :: Stmt.rewriteAll r (1 :: pos) ss

/-- Rewrites an arm of a match. -/
def Arm.rewrite (r : Rewriting) (pos : List Nat) : Arm → Arm
  | .mk ps g b =>
    .mk (Pattern.rewriteAll r (0 :: pos) ps) (Expr.rewriteOpt r (1 :: pos) g)
      (b.rewrite r (2 :: pos))

/-- Rewrites the arms of a match in order. -/
def Arm.rewriteAll (r : Rewriting) (pos : List Nat) : List Arm → List Arm
  | [] => []
  | a :: as => a.rewrite r (0 :: pos) :: Arm.rewriteAll r (1 :: pos) as

end

/-! ## Lowering of rewritten trees -/

/-- The replacements of a rewriting keep what a node lowers to. -/
structure Rewriting.KeepsLowering (r : Rewriting) : Prop where
  ty : ∀ t, (r.ty t).lower = t.lower
  path : ∀ p, (r.path p).lower = p.lower
  plain : ∀ p, (r.path p).lowerPlain = p.lowerPlain
  localName : ∀ p, (r.path p).localName? = p.localName?
  expr : ∀ pos e, (r.expr pos e).lower = e.lower

section

variable (f : Location → Location) (s : Location)

theorem ScalarName.lower_relocate (c : ScalarName) : c.lower (f s) = (c.lower s).relocate f := by
  cases c <;> rfl

theorem lowerLiteral_relocate (l : Literal ScalarName) :
    lowerLiteral (f s) l = (lowerLiteral s l).relocate f := by
  cases l with
  | integer _ c | float _ c => cases c <;> rfl
  | _ => rfl

end

section

variable (r : Rewriting)

theorem Ty.rewriteAll_isEmpty (pos : List Nat) (ts : List Ty) :
    (Ty.rewriteAll r pos ts).isEmpty = ts.isEmpty := by
  cases ts <;> rfl

theorem Ty.rewriteNamed_isEmpty (pos : List Nat) (ts : List (String × Ty)) :
    (Ty.rewriteNamed r pos ts).isEmpty = ts.isEmpty := by
  cases ts <;> rfl

theorem GenericArgs.rewrite_isEmpty (pos : List Nat) (args : GenericArgs) :
    (args.rewrite r pos).isEmpty = args.isEmpty := by
  cases args with
  | mk ls ts bs =>
    simp only [GenericArgs.rewrite, GenericArgs.isEmpty, Ty.rewriteAll_isEmpty,
      Ty.rewriteNamed_isEmpty]

theorem Segment.rewriteAll_names (pos : List Nat) (segs : List Segment) :
    (Segment.rewriteAll r pos segs).map Segment.name = segs.map Segment.name := by
  induction segs generalizing pos with
  | nil => rfl
  | cons seg segs ih =>
    cases seg with
    | mk n args => exact congrArg (n :: ·) (ih (1 :: pos))

theorem Segment.leadingWithArgs?_rewriteAll (pos : List Nat) (segs : List Segment) :
    Segment.leadingWithArgs? (Segment.rewriteAll r pos segs) = Segment.leadingWithArgs? segs := by
  induction segs generalizing pos with
  | nil => rfl
  | cons seg segs ih =>
    obtain ⟨n, args⟩ := seg
    cases segs with
    | nil => rfl
    | cons next segs =>
      obtain ⟨m, args'⟩ := next
      have hrest := ih (1 :: pos)
      change (if (args.rewrite r (0 :: pos)).isEmpty then _ else _) = if args.isEmpty then _ else _
      rw [GenericArgs.rewrite_isEmpty, ← hrest]
      rfl

theorem Segment.checkAbsolute_rewriteAll (pos : List Nat) (s : Location) (segs : List Segment) :
    Segment.checkAbsolute (r.place s) (Segment.rewriteAll r pos segs) =
      (Segment.checkAbsolute s segs).relocate r.place := by
  unfold Segment.checkAbsolute
  rw [Segment.leadingWithArgs?_rewriteAll]
  cases segs with
  | nil => rfl
  | cons seg segs =>
    cases seg with
    | mk n args => cases Segment.leadingWithArgs? (.mk n args :: segs) <;> rfl

end

section

variable {r : Rewriting} (hr : r.KeepsLowering)

include hr

set_option linter.unusedSectionVars false

theorem Path.localName?_rewrite (pos : List Nat) (p : Path) :
    (p.rewrite r pos).localName? = p.localName? := by
  cases p <;> exact hr.localName _

open Lowered (bind_relocate)

mutual

theorem Ty.lower_rewrite (pos : List Nat) : ∀ t : Ty,
    (t.rewrite r pos).lower = t.lower.relocate r.place
  | .omitted _ | .infer _ | .unit _ | .macroCall _ _ | .param _ _ => hr.ty _
  | .primitive s c => (hr.ty _).trans (bind_relocate (c.lower_relocate r.place s) fun _ => rfl)
  | .tuple _ ts => (hr.ty _).trans (bind_relocate (Ty.lowerAll_rewrite pos ts) fun _ => rfl)
  | .borrow _ _ t | .pointer _ _ t =>
    (hr.ty _).trans (bind_relocate (Ty.lower_rewrite pos t) fun _ => rfl)
  | .array _ t e => (hr.ty _).trans <|
    bind_relocate (Ty.lower_rewrite (0 :: pos) t) fun _ =>
      bind_relocate (Expr.lowerBodyOpt_rewrite (1 :: pos) e) fun _ => rfl
  | .path _ p => (hr.ty _).trans (bind_relocate (Path.lower_rewrite pos p) fun _ => rfl)
  | .traitObject s ls ps => by
    refine (hr.ty _).trans ?_
    have hps := Path.lowerPlainAll_rewrite pos ps
    cases ls with
    | nil => exact bind_relocate hps fun _ => rfl
    | cons l ls => rfl
  | .function _ _ _ args ret => (hr.ty _).trans <|
    bind_relocate (Ty.lowerAll_rewrite (0 :: pos) args) fun _ =>
      bind_relocate (Ty.lower_rewrite (1 :: pos) ret) fun _ => rfl

theorem Ty.lowerAll_rewrite (pos : List Nat) : ∀ ts : List Ty,
    Ty.lowerAll (Ty.rewriteAll r pos ts) = (Ty.lowerAll ts).relocate r.place
  | [] => rfl
  | t :: ts => bind_relocate (Ty.lower_rewrite (0 :: pos) t) fun _ =>
      bind_relocate (Ty.lowerAll_rewrite (1 :: pos) ts) fun _ => rfl

theorem Ty.lowerNamed_rewrite (pos : List Nat) : ∀ ts : List (String × Ty),
    Ty.lowerNamed (Ty.rewriteNamed r pos ts) = (Ty.lowerNamed ts).relocate r.place
  | [] => rfl
  | (_, t) :: ts => bind_relocate (Ty.lower_rewrite (0 :: pos) t) fun _ =>
      bind_relocate (Ty.lowerNamed_rewrite (1 :: pos) ts) fun _ => rfl

theorem Path.lower_rewrite (pos : List Nat) : ∀ p : Path,
    (p.rewrite r pos).lower = p.lower.relocate r.place
  | .invalid _ | .localName _ _ | .relative _ _ | .selfRelative _ _ | .superRelative _ _ _
  | .qualified _ _ _ [] | .qualified _ _ _ (.mk _ _ :: .mk _ _ :: _) => hr.path _
  | .absolute s c segs => by
    refine (hr.path _).trans (bind_relocate (Segment.checkAbsolute_rewriteAll r pos s segs) ?_)
    intro _
    refine bind_relocate (Segment.lowerLastArgs_rewrite pos segs) fun _ => ?_
    rw [Segment.rewriteAll_names]
    rfl
  | .qualified _ self trait [.mk _ args] => (hr.path _).trans <|
    bind_relocate (Ty.lower_rewrite (0 :: pos) self) fun _ =>
      bind_relocate (GenericArgs.lower_rewrite (0 :: 2 :: pos) args) fun _ =>
        bind_relocate (Path.lowerPlainOpt_rewrite (1 :: pos) trait) fun _ => rfl

theorem Path.lowerPlain_rewrite (pos : List Nat) : ∀ p : Path,
    (p.rewrite r pos).lowerPlain = p.lowerPlain.relocate r.place
  | .invalid _ | .localName _ _ | .relative _ _ | .selfRelative _ _ | .superRelative _ _ _
  | .qualified _ _ _ _ => hr.plain _
  | .absolute s c segs => by
    refine (hr.plain _).trans (bind_relocate (Segment.checkAbsolute_rewriteAll r pos s segs) ?_)
    intro _
    refine bind_relocate (Segment.lowerLastArgs_rewrite pos segs) fun _ => ?_
    rw [Segment.rewriteAll_names]
    rfl

theorem Path.lowerPlainAll_rewrite (pos : List Nat) : ∀ ps : List Path,
    Path.lowerPlainAll (Path.rewriteAll r pos ps) = (Path.lowerPlainAll ps).relocate r.place
  | [] => rfl
  | p :: ps => bind_relocate (Path.lowerPlain_rewrite (0 :: pos) p) fun _ =>
      bind_relocate (Path.lowerPlainAll_rewrite (1 :: pos) ps) fun _ => rfl

theorem Path.lowerPlainOpt_rewrite (pos : List Nat) : ∀ p : Option Path,
    Path.lowerPlainOpt (Path.rewriteOpt r pos p) = (Path.lowerPlainOpt p).relocate r.place
  | none => rfl
  | some p => bind_relocate (Path.lowerPlain_rewrite pos p) fun _ => rfl

theorem Segment.lowerLastArgs_rewrite (pos : List Nat) : ∀ segs : List Segment,
    Segment.lowerLastArgs (Segment.rewriteAll r pos segs) =
      (Segment.lowerLastArgs segs).relocate r.place
  | [] => rfl
  | [.mk _ args] => GenericArgs.lower_rewrite (0 :: pos) args
  | .mk _ _ :: .mk n args :: segs => Segment.lowerLastArgs_rewrite (1 :: pos) (.mk n args :: segs)

theorem GenericArgs.lower_rewrite (pos : List Nat) : ∀ args : GenericArgs,
    (args.rewrite r pos).lower = args.lower.relocate r.place
  | .mk _ ts bs => bind_relocate (Ty.lowerAll_rewrite (0 :: pos) ts) fun _ =>
      bind_relocate (Ty.lowerNamed_rewrite (1 :: pos) bs) fun _ => rfl

theorem Pattern.lower_rewrite (pos : List Nat) : ∀ p : Pattern,
    (p.rewrite r pos).lower = p.lower.relocate r.place
  | .mk s _ k => bind_relocate (PatternKind.lower_rewrite pos s k) fun _ => rfl

theorem PatternKind.lower_rewrite (pos : List Nat) (s : Location) : ∀ k : PatternKind,
    (k.rewrite r pos).lower (r.place s) = (k.lower s).relocate r.place
  | .any | .maybeBind _ | .macroCall _ => rfl
  | .value l => bind_relocate (lowerLiteral_relocate r.place s l) fun _ => rfl
  | .range a b => bind_relocate (lowerLiteral_relocate r.place s a) fun _ =>
      bind_relocate (lowerLiteral_relocate r.place s b) fun _ => rfl
  | .tuple ps => bind_relocate (Pattern.lowerAll_rewrite pos ps) fun _ => rfl
  | .ref _ p => bind_relocate (Pattern.lower_rewrite pos p) fun _ => rfl
  | .tupleStruct path ps => bind_relocate (Path.lower_rewrite (0 :: pos) path) fun _ =>
      bind_relocate (Pattern.lowerAll_rewrite (1 :: pos) ps) fun _ => rfl
  | .struct path fs _ => bind_relocate (Path.lower_rewrite (0 :: pos) path) fun _ =>
      bind_relocate (Pattern.lowerNamed_rewrite (1 :: pos) fs) fun _ => rfl

theorem Pattern.lowerAll_rewrite (pos : List Nat) : ∀ ps : List Pattern,
    Pattern.lowerAll (Pattern.rewriteAll r pos ps) = (Pattern.lowerAll ps).relocate r.place
  | [] => rfl
  | p :: ps => bind_relocate (Pattern.lower_rewrite (0 :: pos) p) fun _ =>
      bind_relocate (Pattern.lowerAll_rewrite (1 :: pos) ps) fun _ => rfl

theorem Pattern.lowerNamed_rewrite (pos : List Nat) : ∀ fs : List (String × Pattern),
    Pattern.lowerNamed (Pattern.rewriteNamed r pos fs) = (Pattern.lowerNamed fs).relocate r.place
  | [] => rfl
  | (_, p) :: fs => bind_relocate (Pattern.lower_rewrite (0 :: pos) p) fun _ =>
      bind_relocate (Pattern.lowerNamed_rewrite (1 :: pos) fs) fun _ => rfl

theorem Expr.lower_rewrite (pos : List Nat) : ∀ e : Expr,
    (e.rewrite r pos).lower = e.lower.relocate r.place
  | .macroCall _ _ | .forLoop _ _ _ _ _ | .cont _ _ => hr.expr pos _
  | .literal s l => (hr.expr pos _).trans <|
    bind_relocate (lowerLiteral_relocate r.place s l) fun _ => rfl
  | .path s p => by
    refine (hr.expr pos _).trans ?_
    have hp := Path.lower_rewrite (0 :: pos) p
    rw [Expr.lower_path_eq, Expr.lower_path_eq, Path.localName?_rewrite hr]
    cases p.localName? with
    | none => exact bind_relocate hp fun _ => rfl
    | some n => rfl
  | .tuple _ es | .array _ es => (hr.expr pos _).trans <|
    bind_relocate (Expr.lowerAll_rewrite (0 :: pos) es) fun _ => rfl
  | .block _ ss t => (hr.expr pos _).trans <|
    bind_relocate (Stmt.lowerAll_rewrite (0 :: pos) ss) fun _ =>
      bind_relocate (Expr.lowerOpt_rewrite (1 :: pos) t) fun _ => rfl
  | .assign _ _ a b | .binary _ _ a b | .index _ a b => (hr.expr pos _).trans <|
    bind_relocate (Expr.lower_rewrite (0 :: pos) a) fun _ =>
      bind_relocate (Expr.lower_rewrite (1 :: pos) b) fun _ => rfl
  | .unary _ (.value _) a | .unary _ .deref a | .borrow _ _ a | .field _ a _ | .loop _ _ a =>
    (hr.expr pos _).trans (bind_relocate (Expr.lower_rewrite (0 :: pos) a) fun _ => rfl)
  | .cast _ a t => (hr.expr pos _).trans <|
    bind_relocate (Expr.lower_rewrite (0 :: pos) a) fun _ =>
      bind_relocate (Ty.lower_rewrite (1 :: pos) t) fun _ => rfl
  | .callPath s p es => by
    refine (hr.expr pos _).trans ?_
    have hp := Path.lower_rewrite (0 :: pos) p
    have hes := Expr.lowerAll_rewrite (1 :: pos) es
    rw [Expr.lower_callPath_eq, Expr.lower_callPath_eq, Path.localName?_rewrite hr]
    cases p.localName? with
    | none => exact bind_relocate hp fun _ => bind_relocate hes fun _ => rfl
    | some n => exact bind_relocate hes fun _ => rfl
  | .callMethod _ a _ es | .callValue _ a es => (hr.expr pos _).trans <|
    bind_relocate (Expr.lower_rewrite (0 :: pos) a) fun _ =>
      bind_relocate (Expr.lowerAll_rewrite (1 :: pos) es) fun _ => rfl
  | .structLiteral _ p fs b => (hr.expr pos _).trans <|
    bind_relocate (Path.lower_rewrite (0 :: pos) p) fun _ =>
      bind_relocate (Expr.lowerNamed_rewrite (1 :: pos) fs) fun _ =>
        bind_relocate (Expr.lowerOpt_rewrite (2 :: pos) b) fun _ => rfl
  | .ifElse _ c t e => (hr.expr pos _).trans <|
    bind_relocate (Expr.lower_rewrite (0 :: pos) c) fun _ =>
      bind_relocate (Expr.lower_rewrite (1 :: pos) t) fun _ =>
        bind_relocate (Expr.lowerOpt_rewrite (2 :: pos) e) fun _ => rfl
  | .ifLet _ p v t e => (hr.expr pos _).trans <|
    bind_relocate (Expr.lower_rewrite (1 :: pos) v) fun _ =>
      bind_relocate (Pattern.lower_rewrite (0 :: pos) p) fun _ =>
        bind_relocate (Expr.lower_rewrite (2 :: pos) t) fun _ =>
          bind_relocate (Expr.lowerOpt_rewrite (3 :: pos) e) fun _ => rfl
  | .matchOn _ v as => (hr.expr pos _).trans <|
    bind_relocate (Expr.lower_rewrite (0 :: pos) v) fun _ =>
      bind_relocate (Arm.lowerAll_rewrite (1 :: pos) as) fun _ => rfl
  | .whileLoop _ _ c b => (hr.expr pos _).trans <|
    bind_relocate (Expr.lower_rewrite (0 :: pos) c) fun _ =>
      bind_relocate (Expr.lower_rewrite (1 :: pos) b) fun _ => rfl
  | .whileLet _ _ p v b => (hr.expr pos _).trans <|
    bind_relocate (Expr.lower_rewrite (1 :: pos) v) fun _ =>
      bind_relocate (Pattern.lower_rewrite (0 :: pos) p) fun _ =>
        bind_relocate (Expr.lower_rewrite (2 :: pos) b) fun _ => rfl
  | .ret _ v | .brk _ _ v => (hr.expr pos _).trans <|
    bind_relocate (Expr.lowerOpt_rewrite (0 :: pos) v) fun _ => rfl

theorem Expr.lowerAll_rewrite (pos : List Nat) : ∀ es : List Expr,
    Expr.lowerAll (Expr.rewriteAll r pos es) = (Expr.lowerAll es).relocate r.place
  | [] => rfl
  | e :: es => bind_relocate (Expr.lower_rewrite (0 :: pos) e) fun _ =>
      bind_relocate (Expr.lowerAll_rewrite (1 :: pos) es) fun _ => rfl

theorem Expr.lowerNamed_rewrite (pos : List Nat) : ∀ fs : List (String × Expr),
    Expr.lowerNamed (Expr.rewriteNamed r pos fs) = (Expr.lowerNamed fs).relocate r.place
  | [] => rfl
  | (_, e) :: fs => bind_relocate (Expr.lower_rewrite (0 :: pos) e) fun _ =>
      bind_relocate (Expr.lowerNamed_rewrite (1 :: pos) fs) fun _ => rfl

theorem Expr.lowerOpt_rewrite (pos : List Nat) : ∀ e : Option Expr,
    Expr.lowerOpt (Expr.rewriteOpt r pos e) = (Expr.lowerOpt e).relocate r.place
  | none => rfl
  | some e => bind_relocate (Expr.lower_rewrite pos e) fun _ => rfl

theorem Expr.lowerBodyOpt_rewrite (pos : List Nat) : ∀ e : Option Expr,
    Expr.lowerBodyOpt (Expr.rewriteOpt r pos e) = (Expr.lowerBodyOpt e).relocate r.place
  | none => rfl
  | some e => bind_relocate (Expr.lower_rewrite pos e) fun _ => rfl

theorem Stmt.lower_rewrite (pos : List Nat) : ∀ s : Stmt,
    (s.rewrite r pos).lower = s.lower.relocate r.place
  | .letIn _ p t v => bind_relocate (Pattern.lower_rewrite (0 :: pos) p) fun _ =>
      bind_relocate (Ty.lower_rewrite (1 :: pos) t) fun _ =>
        bind_relocate (Expr.lowerOpt_rewrite (2 :: pos) v) fun _ => rfl
  | .expr e => bind_relocate (Expr.lower_rewrite pos e) fun _ => rfl

theorem Stmt.lowerAll_rewrite (pos : List Nat) : ∀ ss : List Stmt,
    Stmt.lowerAll (Stmt.rewriteAll r pos ss) = (Stmt.lowerAll ss).relocate r.place
  | [] => rfl
  | s :: ss => bind_relocate (Stmt.lower_rewrite (0 :: pos) s) fun _ =>
      bind_relocate (Stmt.lowerAll_rewrite (1 :: pos) ss) fun _ => rfl

theorem Arm.lower_rewrite (pos : List Nat) : ∀ a : Arm,
    (a.rewrite r pos).lower = a.lower.relocate r.place
  | .mk ps g b => bind_relocate (Pattern.lowerAll_rewrite (0 :: pos) ps) fun _ =>
      bind_relocate (Expr.lowerOpt_rewrite (1 :: pos) g) fun _ =>
        bind_relocate (Expr.lower_rewrite (2 :: pos) b) fun _ => rfl

theorem Arm.lowerAll_rewrite (pos : List Nat) : ∀ as : List Arm,
    Arm.lowerAll (Arm.rewriteAll r pos as) = (Arm.lowerAll as).relocate r.place
  | [] => rfl
  | a :: as => bind_relocate (Arm.lower_rewrite (0 :: pos) a) fun _ =>
      bind_relocate (Arm.lowerAll_rewrite (1 :: pos) as) fun _ => rfl

end

end

/-! ## Trees at other places -/

/-- Everything that has a place, moved. -/
def relocating (f : Location → Location) : Rewriting where
  place := f
  mark := f

theorem relocating_keepsLowering (f : Location → Location) : (relocating f).KeepsLowering where
  ty _ := rfl
  path _ := rfl
  plain _ := rfl
  localName _ := rfl
  expr _ _ := rfl

section

variable (f : Location → Location)

/-- The type with every place in it moved. -/
def Ty.relocate (t : Ty) : Ty := t.rewrite (relocating f) []

/-- The arguments with every place in them moved. -/
def GenericArgs.relocate (args : GenericArgs) : GenericArgs := args.rewrite (relocating f) []

/-- The path with every place in it moved. -/
def Path.relocate (p : Path) : Path := p.rewrite (relocating f) []

/-- The pattern with every place in it moved. -/
def Pattern.relocate (p : Pattern) : Pattern := p.rewrite (relocating f) []

/-- The expression with every place in it moved. -/
def Expr.relocate (e : Expr) : Expr := e.rewrite (relocating f) []

theorem Ty.lower_relocate (t : Ty) : (t.relocate f).lower = t.lower.relocate f :=
  Ty.lower_rewrite (relocating_keepsLowering f) [] t

theorem GenericArgs.lower_relocate (args : GenericArgs) :
    (args.relocate f).lower = args.lower.relocate f :=
  GenericArgs.lower_rewrite (relocating_keepsLowering f) [] args

theorem Path.lower_relocate (p : Path) : (p.relocate f).lower = p.lower.relocate f :=
  Path.lower_rewrite (relocating_keepsLowering f) [] p

theorem Path.lowerPlain_relocate (p : Path) :
    (p.relocate f).lowerPlain = p.lowerPlain.relocate f :=
  Path.lowerPlain_rewrite (relocating_keepsLowering f) [] p

theorem Pattern.lower_relocate (p : Pattern) : (p.relocate f).lower = p.lower.relocate f :=
  Pattern.lower_rewrite (relocating_keepsLowering f) [] p

theorem Expr.lowerBody_relocate (e : Expr) :
    (e.relocate f).lowerBody = e.lowerBody.relocate f :=
  Lowered.bind_relocate (Expr.lower_rewrite (relocating_keepsLowering f) [] e) fun _ => rfl

end

/-- Two trees that differ at most in their places, given how trees are moved. -/
def Alike {α : Type} (move : (Location → Location) → α → α) (x y : α) : Prop :=
  move (fun _ => .dummy) x = move (fun _ => .dummy) y

theorem Alike.lower_eq_ok {α β : Type} {move : (Location → Location) → α → α}
    {lower : α → Lowered β} (hmove : ∀ f x, lower (move f x) = (lower x).relocate f) {x y : α}
    (h : Alike move x y) {b : β} (hy : lower y = .ok b) : lower x = .ok b := by
  have hmoved : (lower x).relocate (fun _ => .dummy) = .ok b := by
    rw [← hmove, h, hmove]
    exact Lowered.relocate_eq_ok.mpr hy
  exact Lowered.relocate_eq_ok.mp hmoved

/-! ## Segments without lifetimes -/

/-- The arguments without their lifetimes. -/
def GenericArgs.withoutLifetimes : GenericArgs → GenericArgs
  | .mk _ ts bs => .mk [] ts bs

/-- The segment with no lifetime among its arguments. -/
def Segment.withoutLifetimes : Segment → Segment
  | .mk n args => .mk n args.withoutLifetimes

theorem GenericArgs.lower_withoutLifetimes (args : GenericArgs) :
    args.withoutLifetimes.lower = args.lower := by
  cases args
  rfl

theorem Segment.name_withoutLifetimes (seg : Segment) :
    seg.withoutLifetimes.name = seg.name := by
  cases seg
  rfl

end Surface

end Lowering
