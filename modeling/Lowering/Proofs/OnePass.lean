import Lowering.Proofs.BottomUp
import Lowering.Proofs.Placement

/-!
# Lowering in one pass

An expression becomes a body in two passes: it is lowered to a term, and the term
is laid out. The builder of this file makes one pass. It allocates a node as soon as
the parts of the node are lowered, so that allocations and diagnostics come
interleaved: when it stops, part of the expression may already stand in the arenas.

What is proved:
  1. `Expr.build_ends` and its companions: from all arenas, the builder does what the
     two passes do one after the other (`Build.EndsAs`). In particular nothing that is
     allocated has an influence on whether and where it stops.
  2. `build_anywhere`: behind an arena the builder does what it does from empty arenas,
     with all numbers shifted (`Build.PlacedBehind`).
-/

namespace Lowering

open Lowering.Core (Arena Body Layout ExprId StmtId ExprNode StmtNode Term TermStmt)

/-- A computation that allocates in the two arenas until it stops. -/
abbrev Build := StateT Arena Lowered

namespace Build

variable {τ υ ρ σ : Type}

/-- A layout, which never stops. -/
def allocate (m : Layout ρ) : Build ρ := fun a => .ok (m a)

/-- Allocates a node after all others and gives its number. -/
def expr (node : ExprNode) : Build ExprId := allocate (Layout.expr node)

/-- Allocates a statement after all others and gives its number. -/
def stmt (stmt : StmtNode) : Build StmtId := allocate (Layout.stmt stmt)

/-- Allocates the block that does nothing. -/
def emptyBlock : Build ExprId := expr (.block [] none)

/-- Allocates the block whose value is the expression numbered `tail`. -/
def wrapped (tail : ExprId) : Build ExprId := expr (.block [] (some tail))

/-- Allocates the block that leaves the loop with a given label. -/
def exitBlock (label : Option String) : Build ExprId := do
  let exit ← expr (.brk label none)
  wrapped exit

/-- Allocates a match with one pattern and a branch for everything else. -/
def matchElse (value : ExprId) (pattern : Core.Pattern) (hit miss : ExprId) : Build ExprId :=
  expr (.matchOn value [⟨[pattern], none, hit⟩, ⟨[Core.Pattern.wildcard], none, miss⟩])

/-- From the arenas `a`, `m` stops where `x` stops, and otherwise it ends as `last`
says of what `x` gives. -/
def EndsAs (m : Build ρ) (a : Arena) (x : Lowered τ) (last : τ → ρ × Arena) : Prop :=
  m a = x.map last

namespace EndsAs

variable {a : Arena} {last : υ → σ × Arena}

/-- A step that only lowers leaves the arenas as they are. -/
theorem lower {x : Lowered τ} {k : τ → Build σ} {f : τ → Lowered υ}
    (hk : ∀ t, EndsAs (k t) a (f t) last) :
    EndsAs (liftM x >>= k) a (x >>= f) last := by
  cases x with
  | error d => rfl
  | ok t => exact hk t

/-- A step that only allocates cannot stop. -/
theorem allocate {m : Layout ρ} {k : ρ → Build σ} {x : Lowered υ}
    (hk : EndsAs (k (m a).1) (m a).2 x last) : EndsAs (Build.allocate m >>= k) a x last := hk

/-- After a step that lowers and lays out, building goes on from where the layout
ends. -/
theorem bind {m : Build ρ} {x : Lowered τ} {layout : τ → Layout ρ} {k : ρ → Build σ}
    {f : τ → Lowered υ} (hm : EndsAs m a x (layout · a))
    (hk : ∀ t, EndsAs (k (layout t a).1) (layout t a).2 (f t) last) :
    EndsAs (m >>= k) a (x >>= f) last := by
  have hrun : (m >>= k) a = m a >>= fun r => k r.1 r.2 := rfl
  have hm : m a = x.map (layout · a) := hm
  rw [EndsAs, hrun, hm]
  cases x with
  | error d => rfl
  | ok t => exact hk t

end EndsAs

/-- From all arenas, `m` lowers as `x` does and then lays out. Behind `a`, it stops
with the diagnostic that it stops with from empty arenas, or it keeps `a`, appends what
it allocates there and gives what it gives there, shifted. -/
structure PlacedBehind (m : Build ρ) (a : Arena) (x : Lowered τ) (layout : τ → Layout ρ)
    (shift : ρ → ρ) : Prop where
  passes : ∀ b, m b = x.map (layout · b)
  behind : m a = (m {}).map fun r => (shift r.1, a.followedBy r.2)

theorem PlacedBehind.of_shifts {m : Build ρ} {a : Arena} {x : Lowered τ} {layout : τ → Layout ρ}
    {shift : ρ → ρ} (hm : ∀ b, EndsAs m b x (layout · b))
    (hlayout : ∀ t, Layout.Shifts a shift (layout t) (layout t)) :
    PlacedBehind m a x layout shift := by
  have hpasses (b : Arena) : m b = x.map (layout · b) := hm b
  refine ⟨hpasses, ?_⟩
  rw [hpasses a, hpasses {}]
  cases x with
  | error d => rfl
  | ok t =>
    have hstart := hlayout t {}
    rw [a.followedBy_empty] at hstart
    exact congrArg Except.ok hstart

end Build

namespace Surface

open Build

mutual

/-- Builds an expression and gives the number of its root. -/
def Expr.build : Expr → Build ExprId
  | .macroCall s m => throw (.invariant (.macroCall m.name .expression) s)
  | .literal s l => do expr (.literal (← lowerLiteral s l))
  | .path _ p =>
    match p.localName? with
    | some n => expr (.localVar n)
    | none => do expr (.path (← p.lower))
  | .tuple _ es => do expr (.tuple (← Expr.buildAll es))
  | .array _ es => do expr (.array (← Expr.buildAll es))
  | .block _ ss t => do
    let ss ← Stmt.buildAll ss
    expr (.block ss (← Expr.buildOpt t))
  | .assign _ o a b => do
    let a ← a.build
    expr (.assign o a (← b.build))
  | .binary _ o a b => do
    let a ← a.build
    expr (.binary o a (← b.build))
  | .unary _ (.value o) a => do expr (.unary o (← a.build))
  | .unary _ .deref a => do expr (.deref (← a.build))
  | .borrow _ k a => do expr (.borrow k (← a.build))
  | .cast _ a t => do
    let a ← a.build
    expr (.cast a (← t.lower))
  | .callPath _ p es =>
    match p.localName? with
    | some n => do
      let callee ← expr (.localVar n)
      expr (.callValue callee (← Expr.buildAll es))
    | none => do
      let p ← p.lower
      expr (.callPath p (← Expr.buildAll es))
  | .callMethod _ a m es => do
    let a ← a.build
    expr (.callMethod a m (← Expr.buildAll es))
  | .callValue _ a es => do
    let a ← a.build
    expr (.callValue a (← Expr.buildAll es))
  | .field _ a n => do expr (.field (← a.build) n)
  | .index _ a b => do
    let a ← a.build
    expr (.index a (← b.build))
  | .structLiteral _ p fs b => do
    let p ← p.lower
    let fs ← Expr.buildNamed fs
    expr (.structLiteral p fs (← Expr.buildOpt b))
  | .ifElse _ c t e => do
    let c ← c.build
    let t ← t.build
    expr (.ifElse c t (← Expr.buildOpt e))
  | .ifLet _ p v t e => do
    let v ← v.build
    let p ← p.lower
    let t ← t.build
    let e ← Expr.buildOpt e
    matchElse v p t (← e.getDM emptyBlock)
  | .matchOn _ v as => do
    let v ← v.build
    expr (.matchOn v (← Arm.buildAll as))
  | .loop _ l b => do expr (.loop l (← b.build))
  | .whileLoop _ l c b => do
    let c ← c.build
    let b ← b.build
    let exit ← exitBlock l
    let branch ← expr (.ifElse c b (some exit))
    expr (.loop l (← wrapped branch))
  | .whileLet _ l p v b => do
    let v ← v.build
    let p ← p.lower
    let b ← b.build
    let exit ← exitBlock l
    let branch ← matchElse v p b exit
    expr (.loop l (← wrapped branch))
  | .forLoop s _ _ _ _ => throw (.unimplemented .forLoop s)
  | .ret _ v => do expr (.ret (← Expr.buildOpt v))
  | .brk _ l v => do expr (.brk l (← Expr.buildOpt v))
  | .cont _ l => expr (.cont l)

/-- Builds expressions in order. -/
def Expr.buildAll : List Expr → Build (List ExprId)
  | [] => return []
  | e :: es => do
    let e ← e.build
    return e :: (← Expr.buildAll es)

/-- Builds the values of fields in order. -/
def Expr.buildNamed : List (String × Expr) → Build (List (String × ExprId))
  | [] => return []
  | (n, e) :: es => do
    let e ← e.build
    return (n, e) :: (← Expr.buildNamed es)

/-- Builds an expression that may be absent. -/
def Expr.buildOpt : Option Expr → Build (Option ExprId)
  | none => return none
  | some e => return some (← e.build)

/-- Builds a statement and gives its number. -/
def Stmt.build : Stmt → Build StmtId
  | .letIn _ p t v => do
    let p ← p.lower
    let t ← t.lower
    stmt (.letIn p t (← Expr.buildOpt v))
  | .expr e => do stmt (.expr (← e.build))

/-- Builds statements in order. -/
def Stmt.buildAll : List Stmt → Build (List StmtId)
  | [] => return []
  | s :: ss => do
    let s ← s.build
    return s :: (← Stmt.buildAll ss)

/-- Builds the parts of an arm of a match. -/
def Arm.build : Arm → Build (Core.Arm Core.Pattern ExprId)
  | .mk ps g b => do
    let ps ← Pattern.lowerAll ps
    let g ← Expr.buildOpt g
    return ⟨ps, g, ← b.build⟩

/-- Builds the arms of a match in order. -/
def Arm.buildAll : List Arm → Build (List (Core.Arm Core.Pattern ExprId))
  | [] => return []
  | a :: as => do
    let a ← a.build
    return a :: (← Arm.buildAll as)

end

/-- Builds the parts of a block. -/
def Stmt.buildBlock (ss : List Stmt) (t : Option Expr) : Build ExprNode := do
  let ss ← Stmt.buildAll ss
  return .block ss (← Expr.buildOpt t)

/-- Lowers the parts of a block. -/
def Stmt.lowerBlock (ss : List Stmt) (t : Option Expr) :
    Lowered (Core.Node Core.Ty Core.Path Core.Pattern Term TermStmt) := do
  let ss ← Stmt.lowerAll ss
  return .block ss (← Expr.lowerOpt t)

/-! ## The two passes -/

mutual

theorem Expr.build_ends : ∀ (e : Expr) (a : Arena), EndsAs e.build a e.lower (·.layout a)
  | .macroCall _ _, _ | .forLoop _ _ _ _ _, _ | .cont _ _, _ => rfl
  | .literal _ _, _ => .lower fun _ => rfl
  | .path _ p, _ => by
    cases p with
    | localName _ n => rfl
    | _ => exact .lower fun _ => rfl
  | .tuple _ es, a | .array _ es, a => (Expr.buildAll_ends es a).bind fun _ => rfl
  | .block _ ss t, a =>
    (Stmt.buildAll_ends ss a).bind fun _ => (Expr.buildOpt_ends t _).bind fun _ => rfl
  | .assign _ _ e f, a | .binary _ _ e f, a | .index _ e f, a =>
    (Expr.build_ends e a).bind fun _ => (Expr.build_ends f _).bind fun _ => rfl
  | .unary _ (.value _) e, a | .unary _ .deref e, a | .borrow _ _ e, a | .field _ e _, a
  | .loop _ _ e, a => (Expr.build_ends e a).bind fun _ => rfl
  | .cast _ e _, a => (Expr.build_ends e a).bind fun _ => .lower fun _ => rfl
  | .callPath _ p es, a => by
    cases p with
    -- the name is allocated before the arguments, but it cannot stop
    | localName _ n => exact .allocate ((Expr.buildAll_ends es _).bind fun _ => rfl)
    | _ => exact .lower fun _ => (Expr.buildAll_ends es a).bind fun _ => rfl
  | .callMethod _ e _ es, a | .callValue _ e es, a =>
    (Expr.build_ends e a).bind fun _ => (Expr.buildAll_ends es _).bind fun _ => rfl
  | .structLiteral _ _ fs e, a => .lower fun _ =>
    (Expr.buildNamed_ends fs a).bind fun _ => (Expr.buildOpt_ends e _).bind fun _ => rfl
  | .ifElse _ c t e, a =>
    (Expr.build_ends c a).bind fun _ => (Expr.build_ends t _).bind fun _ =>
    (Expr.buildOpt_ends e _).bind fun _ => rfl
  | .ifLet _ _ v t e, a =>
    (Expr.build_ends v a).bind fun _ => .lower fun _ => (Expr.build_ends t _).bind fun _ =>
    (Expr.buildOpt_ends e _).bind fun e => by cases e <;> rfl
  | .matchOn _ v as, a =>
    (Expr.build_ends v a).bind fun _ => (Arm.buildAll_ends as _).bind fun _ => rfl
  -- what a loop allocates after its parts cannot stop either
  | .whileLoop _ _ c b, a =>
    (Expr.build_ends c a).bind fun _ => (Expr.build_ends b _).bind fun _ => rfl
  | .whileLet _ _ _ v b, a =>
    (Expr.build_ends v a).bind fun _ => .lower fun _ => (Expr.build_ends b _).bind fun _ => rfl
  | .ret _ e, a | .brk _ _ e, a => (Expr.buildOpt_ends e a).bind fun _ => rfl

theorem Expr.buildAll_ends : ∀ (es : List Expr) (a : Arena),
    EndsAs (Expr.buildAll es) a (Expr.lowerAll es) (Term.layoutAll · a)
  | [], _ => rfl
  | e :: es, a => (Expr.build_ends e a).bind fun _ => (Expr.buildAll_ends es _).bind fun _ => rfl

theorem Expr.buildNamed_ends : ∀ (fs : List (String × Expr)) (a : Arena),
    EndsAs (Expr.buildNamed fs) a (Expr.lowerNamed fs) (Term.layoutFields · a)
  | [], _ => rfl
  | (_, e) :: fs, a =>
    (Expr.build_ends e a).bind fun _ => (Expr.buildNamed_ends fs _).bind fun _ => rfl

theorem Expr.buildOpt_ends : ∀ (e : Option Expr) (a : Arena),
    EndsAs (Expr.buildOpt e) a (Expr.lowerOpt e) (Term.layoutOpt · a)
  | none, _ => rfl
  | some e, a => (Expr.build_ends e a).bind fun _ => rfl

theorem Stmt.build_ends : ∀ (s : Stmt) (a : Arena), EndsAs s.build a s.lower (·.layout a)
  | .letIn _ _ _ v, a => .lower fun _ => .lower fun _ => (Expr.buildOpt_ends v a).bind fun _ => rfl
  | .expr e, a => (Expr.build_ends e a).bind fun _ => rfl

theorem Stmt.buildAll_ends : ∀ (ss : List Stmt) (a : Arena),
    EndsAs (Stmt.buildAll ss) a (Stmt.lowerAll ss) (TermStmt.layoutAll · a)
  | [], _ => rfl
  | s :: ss, a => (Stmt.build_ends s a).bind fun _ => (Stmt.buildAll_ends ss _).bind fun _ => rfl

theorem Arm.build_ends : ∀ (arm : Arm) (a : Arena),
    EndsAs arm.build a arm.lower (Term.layoutArm · a)
  | .mk _ g b, a => .lower fun _ =>
    (Expr.buildOpt_ends g a).bind fun _ => (Expr.build_ends b _).bind fun _ => rfl

theorem Arm.buildAll_ends : ∀ (as : List Arm) (a : Arena),
    EndsAs (Arm.buildAll as) a (Arm.lowerAll as) (Term.layoutArms · a)
  | [], _ => rfl
  | arm :: as, a => (Arm.build_ends arm a).bind fun _ => (Arm.buildAll_ends as _).bind fun _ => rfl

end

theorem Stmt.buildBlock_ends (ss : List Stmt) (t : Option Expr) (a : Arena) :
    EndsAs (Stmt.buildBlock ss t) a (Stmt.lowerBlock ss t) (Term.layoutNode · a) :=
  (Stmt.buildAll_ends ss a).bind fun _ => (Expr.buildOpt_ends t _).bind fun _ => rfl

/-- An expression that is a block is its parts and then a node of its own. -/
theorem Expr.build_block (s : Location) (ss : List Stmt) (t : Option Expr) :
    (Expr.block s ss t).build = Stmt.buildBlock ss t >>= expr := by
  simp only [Stmt.buildBlock, bind_assoc, pure_bind]
  rfl

/-! ## Any place -/

section

variable (a : Arena)

theorem Expr.build_placed (e : Expr) : PlacedBehind e.build a e.lower Term.layout a.shiftExpr :=
  .of_shifts e.build_ends (Term.layout_shifts a)

theorem Expr.buildOpt_placed (e : Option Expr) :
    PlacedBehind (Expr.buildOpt e) a (Expr.lowerOpt e) Term.layoutOpt (Option.map a.shiftExpr) :=
  .of_shifts (Expr.buildOpt_ends e) (Term.layoutOpt_shifts a)

/-- Behind `a`, an expression becomes its body with all numbers shifted. -/
theorem Expr.build_body (e : Expr) :
    e.build a = e.lowerBody.map fun b => (a.shiftExpr b.root, a.followedBy b.arena) := by
  have h := e.build_placed a
  rw [h.behind, h.passes {}, Expr.lowerBody]
  cases e.lower <;> rfl

/-- An expression that is absent leaves the arenas as they are. -/
theorem Expr.buildOpt_body (e : Option Expr) :
    Expr.buildOpt e a = (Expr.lowerBodyOpt e).map fun b =>
      (b.map fun b => a.shiftExpr b.root, b.elim a fun b => a.followedBy b.arena) := by
  cases e with
  | none => rfl
  | some e =>
    have h := Expr.buildOpt_placed a (some e)
    rw [h.behind, h.passes {}, Expr.lowerOpt, Expr.lowerBodyOpt]
    cases e.lower <;> rfl

end

/-- Where lowering starts in the arenas has no influence on it. Behind an arena `a`, an
expression stops with the diagnostic that it stops with on its own, or `a` stays as it
is, the expressions and statements of its body are appended, with every expression
number shifted by the number of expressions in `a` and every statement number by that
of its statements, and the result is the shifted root. Lists, parts that may be absent,
blocks and arms give behind `a` what they give from empty arenas, shifted alike. -/
theorem build_anywhere (a : Arena) :
    (∀ e : Expr,
      e.build a = e.lowerBody.map (fun b => (a.shiftExpr b.root, a.followedBy b.arena)) ∧
      PlacedBehind e.build a e.lower Term.layout a.shiftExpr) ∧
    (∀ es : List Expr, PlacedBehind (Expr.buildAll es) a (Expr.lowerAll es) Term.layoutAll
      (List.map a.shiftExpr)) ∧
    (∀ fs : List (String × Expr), PlacedBehind (Expr.buildNamed fs) a (Expr.lowerNamed fs)
      Term.layoutFields (List.map (Prod.map id a.shiftExpr))) ∧
    (∀ e : Option Expr,
      Expr.buildOpt e a = (Expr.lowerBodyOpt e).map (fun b =>
        (b.map fun b => a.shiftExpr b.root, b.elim a fun b => a.followedBy b.arena)) ∧
      PlacedBehind (Expr.buildOpt e) a (Expr.lowerOpt e) Term.layoutOpt
        (Option.map a.shiftExpr)) ∧
    (∀ ss : List Stmt, PlacedBehind (Stmt.buildAll ss) a (Stmt.lowerAll ss) TermStmt.layoutAll
      (List.map a.shiftStmt)) ∧
    (∀ (s : Location) (ss : List Stmt) (t : Option Expr),
      (Expr.block s ss t).build = Stmt.buildBlock ss t >>= expr ∧
      PlacedBehind (Stmt.buildBlock ss t) a (Stmt.lowerBlock ss t) Term.layoutNode
        (Core.Node.map a.shiftExpr a.shiftStmt)) ∧
    (∀ arm : Arm, PlacedBehind arm.build a arm.lower Term.layoutArm
      (Core.Arm.map a.shiftExpr)) ∧
    (∀ as : List Arm, PlacedBehind (Arm.buildAll as) a (Arm.lowerAll as) Term.layoutArms
      (List.map (Core.Arm.map a.shiftExpr))) := by
  refine ⟨fun e => ⟨e.build_body a, e.build_placed a⟩, fun es => ?_, fun fs => ?_,
    fun e => ⟨Expr.buildOpt_body a e, Expr.buildOpt_placed a e⟩, fun ss => ?_,
    fun s ss t => ⟨Expr.build_block s ss t, ?_⟩, fun arm => ?_, fun as => ?_⟩
  · exact .of_shifts (Expr.buildAll_ends es) (Term.layoutAll_shifts a)
  · exact .of_shifts (Expr.buildNamed_ends fs) (Term.layoutFields_shifts a)
  · exact .of_shifts (Stmt.buildAll_ends ss) (TermStmt.layoutAll_shifts a)
  · exact .of_shifts (Stmt.buildBlock_ends ss t) (Term.layoutNode_shifts a)
  · exact .of_shifts arm.build_ends (Term.layoutArm_shifts a)
  · exact .of_shifts (Arm.buildAll_ends as) (Term.layoutArms_shifts a)

/-- The block `{ x; }` behind an expression and a statement. -/
example : (Expr.block .dummy [.expr (.path .dummy (.localName .dummy "x"))] none).build
      ⟨[.tuple []], [.expr 0]⟩ =
    .ok (2, ⟨[.tuple [], .localVar "x", .block [1] none], [.expr 0, .expr 1]⟩) := rfl

end Surface

end Lowering
