import Lowering.Core.Term

/-!
# Layout from any place

A layout begins at the end of what the arenas already hold. All it does with the
numbers it is given is to hand them on to nodes and statements, so the place where
it begins shows only as a distance: behind an arena `a`, every expression number is
greater by the number of expressions in `a`, and every statement number by that of
its statements (`Arena.followedBy`).

`Layout.Shifts` compares two runs, one of them behind `a`. `Term.layout_shifts` and
its companions say that every layout function runs behind `a` as it runs without
it, shifted.
-/

namespace Lowering.Core

namespace Arena

/-- An expression number of an arena that now stands behind `a`. -/
def shiftExpr (a : Arena) (id : ExprId) : ExprId := id + a.exprs.length

/-- A statement number of an arena that now stands behind `a`. -/
def shiftStmt (a : Arena) (id : StmtId) : StmtId := id + a.stmts.length

/-- The arena `a`, unchanged, and behind it what `b` holds, with all numbers
shifted. The bodies inside of types have arenas of their own and keep their
numbers. -/
def followedBy (a b : Arena) : Arena where
  exprs := a.exprs ++ b.exprs.map (Node.map a.shiftExpr a.shiftStmt)
  stmts := a.stmts ++ b.stmts.map (Stmt.map a.shiftExpr)

theorem followedBy_empty (a : Arena) : a.followedBy {} = a := by
  simp only [followedBy, List.map_nil, List.append_nil]

end Arena

namespace Layout

variable {a : Arena} {ρ σ : Type}

/-- Behind `a`, whatever else follows there, `m'` does what `m` does without `a`:
it gives the result of `m` with its numbers replaced by `shift`, and leaves `a`
followed by what `m` leaves. -/
def Shifts (a : Arena) (shift : ρ → ρ) (m m' : Layout ρ) : Prop :=
  ∀ b, m' (a.followedBy b) = (shift (m b).1, a.followedBy (m b).2)

namespace Shifts

theorem pure {shift : ρ → ρ} (r : ρ) : Shifts a shift (Pure.pure r) (Pure.pure (shift r)) :=
  fun _ => rfl

theorem bind {shift : ρ → ρ} {shift' : σ → σ} {m m' : Layout ρ} {k k' : ρ → Layout σ}
    (hm : Shifts a shift m m') (hk : ∀ r, Shifts a shift' (k r) (k' (shift r))) :
    Shifts a shift' (m >>= k) (m' >>= k') := by
  intro b
  show k' (m' (a.followedBy b)).1 (m' (a.followedBy b)).2 = _
  rw [hm b]
  exact hk (m b).1 (m b).2

/-- The number of a new node counts the expressions of `a` as well. -/
theorem expr (node : ExprNode) :
    Shifts a a.shiftExpr (Layout.expr node)
      (Layout.expr (node.map a.shiftExpr a.shiftStmt)) := by
  intro b
  simp [Layout.expr, Arena.followedBy, Arena.shiftExpr, Nat.add_comm]

theorem stmt (stmt : StmtNode) :
    Shifts a a.shiftStmt (Layout.stmt stmt) (Layout.stmt (stmt.map a.shiftExpr)) := by
  intro b
  simp [Layout.stmt, Arena.followedBy, Arena.shiftStmt, Nat.add_comm]

end Shifts

end Layout

open Layout

/-- Lays out one arm of a match, the guard before the body. -/
def Term.layoutArm (arm : Arm Pattern Term) : Layout (Arm Pattern ExprId) := do
  let guard ← Term.layoutOpt arm.guard
  return ⟨arm.patterns, guard, ← arm.body.layout⟩

section

variable (a : Arena)

mutual

theorem Term.layout_shifts : ∀ t : Term, Shifts a a.shiftExpr t.layout t.layout
  | .mk node => by
    simp only [Term.layout]
    exact (Term.layoutNode_shifts node).bind .expr

theorem Term.layoutNode_shifts : ∀ node : Node Ty Path Pattern Term TermStmt,
    Shifts a (Node.map a.shiftExpr a.shiftStmt) (Term.layoutNode node) (Term.layoutNode node)
  -- in each case the node of the shifted numbers is the shifted node
  | .literal _ | .localVar _ | .path _ | .cont _ => .pure _
  | .tuple ts | .array ts | .callPath _ ts =>
    (Term.layoutAll_shifts ts).bind fun _ => .pure _
  | .ret t | .brk _ t => (Term.layoutOpt_shifts t).bind fun _ => .pure _
  | .unary _ t | .deref t | .borrow _ t | .cast t _ | .field t _ | .loop _ t =>
    (Term.layout_shifts t).bind fun _ => .pure _
  | .assign _ t u | .binary _ t u | .index t u =>
    (Term.layout_shifts t).bind fun _ => (Term.layout_shifts u).bind fun _ => .pure _
  | .callMethod t _ ts | .callValue t ts =>
    (Term.layout_shifts t).bind fun _ => (Term.layoutAll_shifts ts).bind fun _ => .pure _
  | .block ss t =>
    (TermStmt.layoutAll_shifts ss).bind fun _ => (Term.layoutOpt_shifts t).bind fun _ => .pure _
  | .structLiteral _ fs t =>
    (Term.layoutFields_shifts fs).bind fun _ => (Term.layoutOpt_shifts t).bind fun _ => .pure _
  | .ifElse c t e =>
    (Term.layout_shifts c).bind fun _ => (Term.layout_shifts t).bind fun _ =>
    (Term.layoutOpt_shifts e).bind fun _ => .pure _
  | .matchOn t as =>
    (Term.layout_shifts t).bind fun _ => (Term.layoutArms_shifts as).bind fun _ => .pure _

theorem Term.layoutAll_shifts : ∀ ts : List Term,
    Shifts a (List.map a.shiftExpr) (Term.layoutAll ts) (Term.layoutAll ts)
  | [] => .pure _
  | t :: ts => (Term.layout_shifts t).bind fun _ =>
      (Term.layoutAll_shifts ts).bind fun _ => .pure _

theorem Term.layoutOpt_shifts : ∀ t : Option Term,
    Shifts a (Option.map a.shiftExpr) (Term.layoutOpt t) (Term.layoutOpt t)
  | none => .pure _
  | some t => (Term.layout_shifts t).bind fun _ => .pure _

theorem Term.layoutFields_shifts : ∀ fs : List (String × Term),
    Shifts a (List.map (Prod.map id a.shiftExpr)) (Term.layoutFields fs)
      (Term.layoutFields fs)
  | [] => .pure _
  | (_, t) :: fs => (Term.layout_shifts t).bind fun _ =>
      (Term.layoutFields_shifts fs).bind fun _ => .pure _

theorem Term.layoutArms_shifts : ∀ as : List (Arm Pattern Term),
    Shifts a (List.map (Arm.map a.shiftExpr)) (Term.layoutArms as) (Term.layoutArms as)
  | [] => .pure _
  | ⟨_, g, t⟩ :: as => (Term.layoutOpt_shifts g).bind fun _ =>
      (Term.layout_shifts t).bind fun _ =>
      (Term.layoutArms_shifts as).bind fun _ => .pure _

theorem TermStmt.layout_shifts : ∀ s : TermStmt, Shifts a a.shiftStmt s.layout s.layout
  | .mk (.letIn _ _ v) => (Term.layoutOpt_shifts v).bind fun _ => .stmt _
  | .mk (.expr t) => (Term.layout_shifts t).bind fun _ => .stmt _

theorem TermStmt.layoutAll_shifts : ∀ ss : List TermStmt,
    Shifts a (List.map a.shiftStmt) (TermStmt.layoutAll ss) (TermStmt.layoutAll ss)
  | [] => .pure _
  | s :: ss => (TermStmt.layout_shifts s).bind fun _ =>
      (TermStmt.layoutAll_shifts ss).bind fun _ => .pure _

end

theorem Term.layoutArm_shifts (arm : Arm Pattern Term) :
    Shifts a (Arm.map a.shiftExpr) (Term.layoutArm arm) (Term.layoutArm arm) :=
  (Term.layoutOpt_shifts a arm.guard).bind fun _ =>
    (Term.layout_shifts a arm.body).bind fun _ => .pure _

end

end Lowering.Core
