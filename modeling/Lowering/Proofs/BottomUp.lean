import Lowering.Proofs.Everywhere
import Mathlib.Data.List.Nodup

/-!
# Bodies are laid out bottom-up

Of the numbers that a layout has handed out, each one is referred to once or waits
for the node that will refer to it (`Arena.Pending`). Allocation keeps this, since
a node uses up the waiting numbers of its children and adds its own, and what
waits is always older than what comes next. At the end only the root waits, so the
body is one tree in which everything refers backwards (`Term.body_bottomUp`). The
size of an array type is laid out in a body of its own, so this holds of all bodies
inside a lowered body too (`Expr.lowerBody_bottomUp`).
-/

namespace Lowering

namespace Core

open Layout

/-- The expression numbers that nodes refer to, and after them those that
statements refer to. -/
def Arena.exprRefs (a : Arena) : List ExprId :=
  a.exprs.flatMap Node.children ++ a.stmts.flatMap Stmt.children

/-- The statement numbers that blocks refer to. -/
def Arena.stmtRefs (a : Arena) : List StmtId := a.exprs.flatMap Node.statements

/-- What a node refers to was allocated before it: its children, and the children
of its statements. Its statements come in the order of allocation. -/
structure Node.Backward (node : ExprNode) (stmts : List StmtNode) (i : ExprId) : Prop where
  children : ∀ j ∈ node.children, j < i
  increasing : node.statements.Pairwise (· < ·)
  statements : ∀ k ∈ node.statements, ∃ s, stmts[k]? = some s ∧ ∀ j ∈ s.children, j < i

/-- Later statements change nothing for a node. -/
theorem Node.Backward.addStmt {node : ExprNode} {stmts : List StmtNode}
    {i : ExprId} (h : node.Backward stmts i) (s : StmtNode) : node.Backward (stmts ++ [s]) i := by
  refine ⟨h.children, h.increasing, fun k hk => ?_⟩
  obtain ⟨t, ht, hlt⟩ := h.statements k hk
  have hk' : k < stmts.length := (List.getElem?_eq_some_iff.mp ht).1
  exact ⟨t, by rw [List.getElem?_append_left hk', ht], hlt⟩

/-- All numbers handed out are referred to exactly once or wait in `es` and `ss`,
and every node refers backwards. -/
structure Arena.Pending (a : Arena) (es : List ExprId) (ss : List StmtId) : Prop where
  exprs : (a.exprRefs ++ es).Perm (List.range a.exprs.length)
  stmts : (a.stmtRefs ++ ss).Perm (List.range a.stmts.length)
  increasing : ss.Pairwise (· < ·)
  backward : ∀ (i : ExprId) (node : ExprNode), a.exprs[i]? = some node → node.Backward a.stmts i

namespace Arena

variable {a : Arena} {es : List ExprId} {ss : List StmtId}

theorem Pending.exprRefs_lt (h : a.Pending es ss) {j : ExprId} (hj : j ∈ a.exprRefs ++ es) :
    j < a.exprs.length :=
  List.mem_range.mp (h.exprs.mem_iff.mp hj)

theorem Pending.stmtRefs_lt (h : a.Pending es ss) {k : StmtId} (hk : k ∈ a.stmtRefs ++ ss) :
    k < a.stmts.length :=
  List.mem_range.mp (h.stmts.mem_iff.mp hk)

theorem Pending.addStmt (s : StmtNode) (h : a.Pending (es ++ s.children) ss) :
    Pending ⟨a.exprs, a.stmts ++ [s]⟩ es (ss ++ [a.stmts.length]) := by
  refine ⟨?_, ?_, ?_, fun i node hi => (h.backward i node hi).addStmt s⟩
  · refine List.Perm.trans ?_ h.exprs
    simp only [exprRefs, List.flatMap_append, List.flatMap_singleton, List.append_assoc]
    exact .append_left _ (.append_left _ List.perm_append_comm)
  · have := h.stmts.append_right [a.stmts.length]
    simpa [List.range_succ, stmtRefs] using this
  · refine List.pairwise_append.mpr ⟨h.increasing, List.pairwise_singleton _ _, ?_⟩
    intro k hk k' hk'
    -- whatever waits is older than the new statement
    rw [List.mem_singleton.mp hk']
    exact h.stmtRefs_lt (List.mem_append_right _ hk)

theorem Pending.backward_new {node : ExprNode}
    (h : a.Pending (es ++ node.children) (ss ++ node.statements)) :
    node.Backward a.stmts a.exprs.length := by
  refine ⟨fun j hj => ?_, ?_, fun k hk => ?_⟩
  · exact h.exprRefs_lt (List.mem_append_right _ (List.mem_append_right _ hj))
  · exact (List.pairwise_append.mp h.increasing).2.1
  · have hk' : k < a.stmts.length :=
      h.stmtRefs_lt (List.mem_append_right _ (List.mem_append_right _ hk))
    refine ⟨a.stmts[k], List.getElem?_eq_getElem hk', fun j hj => ?_⟩
    have hmem : j ∈ a.stmts.flatMap Stmt.children :=
      List.mem_flatMap.mpr ⟨_, List.getElem_mem hk', hj⟩
    exact h.exprRefs_lt (List.mem_append_left _ (List.mem_append_right _ hmem))

theorem Pending.addExpr (node : ExprNode)
    (h : a.Pending (es ++ node.children) (ss ++ node.statements)) :
    Pending ⟨a.exprs ++ [node], a.stmts⟩ (es ++ [a.exprs.length]) ss := by
  refine ⟨?_, ?_, (List.pairwise_append.mp h.increasing).1, fun i n hi => ?_⟩
  · have hlast := h.exprs.append_right [a.exprs.length]
    rw [← List.range_succ] at hlast
    rw [List.length_append, List.length_singleton]
    -- the children no longer wait, they are referred to; the node itself waits
    refine List.Perm.trans (List.perm_iff_count.mpr fun j => ?_) hlast
    simp only [exprRefs, List.flatMap_append, List.flatMap_singleton, List.count_append]
    omega
  · refine List.Perm.trans ?_ h.stmts
    simp only [stmtRefs, List.flatMap_append, List.flatMap_singleton, List.append_assoc]
    exact .append_left _ List.perm_append_comm
  · by_cases hlt : i < a.exprs.length
    · rw [List.getElem?_append_left hlt] at hi
      exact h.backward i n hi
    · have hlen := (List.getElem?_eq_some_iff.mp hi).1
      rw [List.length_append, List.length_singleton] at hlen
      obtain rfl : i = a.exprs.length :=
        Nat.le_antisymm (Nat.le_of_lt_succ hlen) (Nat.le_of_not_lt hlt)
      rw [List.getElem?_concat_length] at hi
      obtain rfl : node = n := Option.some.inj hi
      exact h.backward_new

/-- Pending numbers are kept by allocation. -/
theorem pending_invariant : Invariant (fun _ => True) Pending where
  expr node _ := Pending.addExpr node
  stmt stmt _ := Pending.addStmt stmt

end Arena

/-- The two arenas of a body. -/
def Body.arena (b : Body) : Arena := ⟨b.exprs, b.stmts⟩

/-- A body is one tree laid out bottom-up: its root comes last, every number is in
range, nodes refer backwards, nothing refers to the root, and every other
expression and every statement is referred to exactly once. -/
structure Body.BottomUp (b : Body) : Prop where
  root_last : b.exprs.length = b.root + 1
  exprs_in_range : ∀ j ∈ b.arena.exprRefs, j < b.exprs.length
  stmts_in_range : ∀ k ∈ b.arena.stmtRefs, k < b.stmts.length
  backward : ∀ (i : ExprId) (node : ExprNode), b.exprs[i]? = some node → node.Backward b.stmts i
  root_never : b.arena.exprRefs.count b.root = 0
  expr_once : ∀ j < b.exprs.length, j ≠ b.root → b.arena.exprRefs.count j = 1
  stmt_once : ∀ k < b.stmts.length, b.arena.stmtRefs.count k = 1

theorem Term.body_root (t : Term) : t.body.exprs.length = t.body.root + 1 := by
  cases t with
  | mk node => exact List.length_append

theorem Term.body_pending (t : Term) : t.body.arena.Pending [t.body.root] [] :=
  Term.layout_invariant Arena.pending_invariant t (t.all_of_forall fun _ => trivial) [] [] {}
    ⟨.nil, .nil, .nil, by simp⟩

/-- Every term is laid out bottom-up. -/
theorem Term.body_bottomUp (t : Term) : t.body.BottomUp := by
  have h := t.body_pending
  have hlast := t.body_root
  have hexpr (j : ExprId) (hj : j < t.body.exprs.length) :
      t.body.arena.exprRefs.count j + [t.body.root].count j = 1 := by
    rw [← List.count_append, h.exprs.count_eq]
    exact List.count_eq_one_of_mem List.nodup_range (List.mem_range.mpr hj)
  have hstmt (k : StmtId) (hk : k < t.body.stmts.length) : t.body.arena.stmtRefs.count k = 1 := by
    rw [← List.append_nil t.body.arena.stmtRefs, h.stmts.count_eq]
    exact List.count_eq_one_of_mem List.nodup_range (List.mem_range.mpr hk)
  refine ⟨hlast, fun j hj => h.exprRefs_lt (List.mem_append_left _ hj),
    fun k hk => h.stmtRefs_lt (List.mem_append_left _ hk), h.backward, ?_, fun j hj hne => ?_,
    hstmt⟩
  · have hroot := hexpr t.body.root (hlast ▸ Nat.lt_succ_self _)
    rw [List.count_singleton_self] at hroot
    omega
  · have hother := hexpr j hj
    have hzero : [t.body.root].count j = 0 := List.count_eq_zero_of_not_mem (by simpa using hne)
    rw [hzero] at hother
    exact hother

/-- The property of being laid out bottom-up, for the fragments that are bodies. -/
def Fragment.BottomUp : Fragment → Prop
  | .body b => b.BottomUp
  | _ => True

end Core

namespace Surface

open Lowering.Core (Fragment)

theorem gives_bottomUp : Gives Fragment.BottomUp where
  ty _ := trivial
  args _ := trivial
  applied _ := trivial
  path _ := trivial
  pattern _ := trivial
  kind _ := trivial
  body h := by
    obtain ⟨t, -, ⟨⟩⟩ := Lowered.bind_eq_ok.mp h
    exact t.body_bottomUp

/-- Every body inside the body that an expression lowers to, that body included,
is one tree laid out bottom-up. -/
theorem Expr.lowerBody_bottomUp (e : Expr) (b : Core.Body) (h : e.lowerBody = .ok b)
    (inner : Core.Body) (hinner : (Fragment.body inner).Within (.body b)) : inner.BottomUp :=
  Expr.lowerBody_everywhere gives_bottomUp h (.body inner) hinner

/-- The expression `while y { (); () }`. -/
def spin : Expr :=
  .whileLoop .dummy none (.path .dummy (.localName .dummy "y"))
    (.block .dummy [.expr (.tuple .dummy []), .expr (.tuple .dummy [])] none)

/-- The expression `x as [_; spin]`. -/
def sizedBySpin : Expr :=
  .cast .dummy (.path .dummy (.localName .dummy "x")) (.array .dummy (.infer .dummy) (some spin))

theorem sizedBySpin_bottomUp : ∃ b inner, sizedBySpin.lowerBody = .ok b ∧
    spin.lowerBody = .ok inner ∧ (Fragment.body inner).Within (.body b) ∧ inner.BottomUp := by
  refine ⟨_, _, rfl, rfl, ?_⟩
  suffices hin : Fragment.Within _ _ from
    ⟨hin, Expr.lowerBody_bottomUp sizedBySpin _ rfl _ hin⟩
  -- the body is part of an array type, and that type part of the cast
  exact .part List.mem_cons_self (.part (List.mem_cons_of_mem _ List.mem_cons_self) (.self _))

end Surface

end Lowering
