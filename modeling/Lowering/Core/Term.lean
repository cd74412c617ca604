import Lowering.Core.Syntax

/-!
# Terms and their layout

A term is a core expression as a tree: a node whose children are terms. A body
is the same expression laid out in two arenas. `Term.layout` allocates a term's
children in evaluation order and the term itself after them, and every statement
after its own expressions, so that all numbers point backwards and the root is
the last node.
-/

namespace Lowering.Core

mutual

/-- A core expression as a tree. -/
inductive Term where
  | mk (node : Node Ty Path Pattern Term TermStmt)

/-- A statement of a term. -/
inductive TermStmt where
  | mk (stmt : Stmt Ty Pattern Term)

end

/-- The nodes and statements allocated so far. -/
structure Arena where
  exprs : List ExprNode := []
  stmts : List StmtNode := []

/-- A computation that allocates in the two arenas. -/
abbrev Layout := StateM Arena

namespace Layout

/-- Allocates a node after all others and gives its number. -/
def expr (node : ExprNode) : Layout ExprId := fun a =>
  (a.exprs.length, { a with exprs := a.exprs ++ [node] })

/-- Allocates a statement after all others and gives its number. -/
def stmt (stmt : StmtNode) : Layout StmtId := fun a =>
  (a.stmts.length, { a with stmts := a.stmts ++ [stmt] })

end Layout

mutual

/-- Lays out a term and gives the number of its root. -/
def Term.layout : Term → Layout ExprId
  | .mk node => do
    let node ← Term.layoutNode node
    Layout.expr node

/-- Lays out the children of a node, in evaluation order. -/
def Term.layoutNode : Node Ty Path Pattern Term TermStmt → Layout ExprNode
  | .literal l => return .literal l
  | .localVar n => return .localVar n
  | .path p => return .path p
  | .tuple es => return .tuple (← Term.layoutAll es)
  | .array es => return .array (← Term.layoutAll es)
  | .block ss t => do
    let ss ← TermStmt.layoutAll ss
    return .block ss (← Term.layoutOpt t)
  | .assign o a b => do
    let a ← a.layout
    return .assign o a (← b.layout)
  | .binary o a b => do
    let a ← a.layout
    return .binary o a (← b.layout)
  | .unary o a => return .unary o (← a.layout)
  | .deref a => return .deref (← a.layout)
  | .borrow k a => return .borrow k (← a.layout)
  | .cast a t => return .cast (← a.layout) t
  | .callPath p es => return .callPath p (← Term.layoutAll es)
  | .callMethod a m es => do
    let a ← a.layout
    return .callMethod a m (← Term.layoutAll es)
  | .callValue a es => do
    let a ← a.layout
    return .callValue a (← Term.layoutAll es)
  | .field a n => return .field (← a.layout) n
  | .index a b => do
    let a ← a.layout
    return .index a (← b.layout)
  | .structLiteral p fs b => do
    let fs ← Term.layoutFields fs
    return .structLiteral p fs (← Term.layoutOpt b)
  | .ifElse c t e => do
    let c ← c.layout
    let t ← t.layout
    return .ifElse c t (← Term.layoutOpt e)
  | .matchOn v as => do
    let v ← v.layout
    return .matchOn v (← Term.layoutArms as)
  | .loop l b => return .loop l (← b.layout)
  | .ret v => return .ret (← Term.layoutOpt v)
  | .brk l v => return .brk l (← Term.layoutOpt v)
  | .cont l => return .cont l

/-- Lays out terms one after the other. -/
def Term.layoutAll : List Term → Layout (List ExprId)
  | [] => return []
  | e :: es => do
    let e ← e.layout
    return e :: (← Term.layoutAll es)

/-- Lays out a term that may be absent. -/
def Term.layoutOpt : Option Term → Layout (Option ExprId)
  | none => return none
  | some e => return some (← e.layout)

/-- Lays out the values of fields one after the other. -/
def Term.layoutFields : List (String × Term) → Layout (List (String × ExprId))
  | [] => return []
  | (n, e) :: fs => do
    let e ← e.layout
    return (n, e) :: (← Term.layoutFields fs)

/-- Lays out the arms of a match one after the other, a guard before its body. -/
def Term.layoutArms : List (Arm Pattern Term) → Layout (List (Arm Pattern ExprId))
  | [] => return []
  | ⟨ps, g, b⟩ :: as => do
    let g ← Term.layoutOpt g
    let b ← b.layout
    return ⟨ps, g, b⟩ :: (← Term.layoutArms as)

/-- Lays out a statement and gives its number. -/
def TermStmt.layout : TermStmt → Layout StmtId
  | .mk (.letIn p t v) => do
    let v ← Term.layoutOpt v
    Layout.stmt (.letIn p t v)
  | .mk (.expr e) => do
    let e ← e.layout
    Layout.stmt (.expr e)

/-- Lays out statements one after the other. -/
def TermStmt.layoutAll : List TermStmt → Layout (List StmtId)
  | [] => return []
  | s :: ss => do
    let s ← s.layout
    return s :: (← TermStmt.layoutAll ss)

end

/-- The body that holds a term and nothing else. -/
def Term.body (t : Term) : Body :=
  let (root, arena) := t.layout {}
  .mk arena.exprs arena.stmts root

/-! ## Forms used by lowering -/

namespace Term

/-- The block with no statement whose value is `t`. -/
def wrapped (t : Term) : Term := .mk (.block [] (some t))

/-- The block that does nothing. -/
def emptyBlock : Term := .mk (.block [] none)

/-- The block that leaves the loop with a given label. -/
def exitBlock (label : Option String) : Term := wrapped (.mk (.brk label none))

/-- A match with one pattern and a branch for everything else. -/
def matchElse (value : Term) (pattern : Pattern) (hit miss : Term) : Term :=
  .mk (.matchOn value [⟨[pattern], none, hit⟩, ⟨[Pattern.wildcard], none, miss⟩])

/-- A loop that runs `body` as long as `cond` holds. -/
def whileLoop (label : Option String) (cond body : Term) : Term :=
  .mk (.loop label (wrapped (.mk (.ifElse cond body (some (exitBlock label))))))

/-- A loop that runs `body` as long as `value` matches. -/
def whileLet (label : Option String) (pattern : Pattern) (value body : Term) : Term :=
  .mk (.loop label (wrapped (matchElse value pattern body (exitBlock label))))

end Term

end Lowering.Core
