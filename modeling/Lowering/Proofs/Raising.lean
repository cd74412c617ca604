import Lowering.Proofs.Reading
import Lowering.Surface.Syntax

/-!
# Raising core fragments

Every core form has a surface form that says the same: `Ty.raise`, `Path.raise`,
`Pattern.raise` and `Body.raise` give it, without lifetimes and with every node at
the place of what has no source text. A body is raised in two steps: the types,
paths and patterns that its nodes mention, which is a structural recursion, and
then the tree, by following the numbers from the root. The two steps are one
reading of the body (`Body.raise_eq_read`), so that a term and the body it is laid
out in are raised alike (`Term.raise_body`).
-/

namespace Lowering.Core

/-! ## One level -/

section

variable {τ τ' π π' ρ ρ' ε ε' σ σ' : Type}

/-- The arm with every pattern replaced. -/
def Arm.mapPatterns (h : ρ → ρ') (a : Arm ρ ε) : Arm ρ' ε := ⟨a.patterns.map h, a.guard, a.body⟩

/-- The node with everything replaced that it mentions. -/
def Node.mapMentions (f : τ → τ') (g : π → π') (h : ρ → ρ') :
    Node τ π ρ ε σ → Node τ' π' ρ' ε σ
  | .literal l => .literal l
  | .localVar n => .localVar n
  | .path p => .path (g p)
  | .tuple es => .tuple es
  | .array es => .array es
  | .block ss t => .block ss t
  | .assign o a b => .assign o a b
  | .binary o a b => .binary o a b
  | .unary o a => .unary o a
  | .deref a => .deref a
  | .borrow k a => .borrow k a
  | .cast a t => .cast a (f t)
  | .callPath p es => .callPath (g p) es
  | .callMethod a m es => .callMethod a m es
  | .callValue a es => .callValue a es
  | .field a n => .field a n
  | .index a b => .index a b
  | .structLiteral p fs b => .structLiteral (g p) fs b
  | .ifElse c t e => .ifElse c t e
  | .matchOn v as => .matchOn v (as.map (·.mapPatterns h))
  | .loop l b => .loop l b
  | .ret v => .ret v
  | .brk l v => .brk l v
  | .cont l => .cont l

/-- The statement with everything replaced that it mentions. -/
def Stmt.mapMentions (f : τ → τ') (h : ρ → ρ') : Stmt τ ρ ε → Stmt τ' ρ' ε
  | .letIn p t v => .letIn (h p) (f t) v
  | .expr e => .expr e

theorem Node.map_mapMentions (f : τ → τ') (g : π → π') (h : ρ → ρ') (c : ε → ε') (s : σ → σ')
    (node : Node τ π ρ ε σ) :
    (node.mapMentions f g h).map c s = (node.map c s).mapMentions f g h := by
  cases node with
  | matchOn v as =>
    simp only [mapMentions, Node.map, List.map_map]
    rfl
  | _ => rfl

theorem Stmt.map_mapMentions (f : τ → τ') (h : ρ → ρ') (c : ε → ε') (stmt : Stmt τ ρ ε) :
    (stmt.mapMentions f h).map c = (stmt.map c).mapMentions f h := by
  cases stmt <;> rfl

end

/-- A scalar type as a suffix; an absent one is left to inference. -/
def raiseSuffix : Option Scalar → Surface.ScalarName
  | none => .any
  | some c => .keyword c

/-- Raises a literal. -/
def Literal.raise : Literal → Lowering.Literal Surface.ScalarName
  | .integer n s => .integer n (raiseSuffix s)
  | .float x s => .float x (raiseSuffix s)
  | .bool b => .bool b
  | .char c => .char c
  | .string s => .string s

/-- Raises an arm whose parts are raised. -/
def Arm.raise (a : Arm Surface.Pattern Surface.Expr) : Surface.Arm := .mk a.patterns a.guard a.body

/-- Raises a node whose parts are raised. -/
def Node.raise :
    Node Surface.Ty Surface.Path Surface.Pattern Surface.Expr Surface.Stmt → Surface.Expr
  | .literal l => .literal .dummy (Literal.raise l)
  | .localVar n => .path .dummy (.localName .dummy n)
  | .path p => .path .dummy p
  | .tuple es => .tuple .dummy es
  | .array es => .array .dummy es
  | .block ss t => .block .dummy ss t
  | .assign o a b => .assign .dummy o a b
  | .binary o a b => .binary .dummy o a b
  | .unary o a => .unary .dummy (.value o) a
  | .deref a => .unary .dummy .deref a
  | .borrow k a => .borrow .dummy k a
  | .cast a t => .cast .dummy a t
  | .callPath p es => .callPath .dummy p es
  | .callMethod a m es => .callMethod .dummy a m es
  | .callValue a es => .callValue .dummy a es
  | .field a n => .field .dummy a n
  | .index a b => .index .dummy a b
  | .structLiteral p fs b => .structLiteral .dummy p fs b
  | .ifElse c t e => .ifElse .dummy c t e
  | .matchOn v as => .matchOn .dummy v (as.map Arm.raise)
  | .loop l b => .loop .dummy l b
  | .ret v => .ret .dummy v
  | .brk l v => .brk .dummy l v
  | .cont l => .cont .dummy l

/-- Raises a statement whose parts are raised. -/
def Stmt.raise : Stmt Surface.Ty Surface.Pattern Surface.Expr → Surface.Stmt
  | .letIn p t v => .letIn .dummy p t v
  | .expr e => .expr e

/-- The segments of a path whose last component has arguments. -/
def raiseSegments (args : Surface.GenericArgs) : List String → List Surface.Segment
  | [] => []
  | [n] => [.mk n args]
  | n :: m :: ns => .mk n (.mk [] [] []) :: raiseSegments args (m :: ns)

/-- A node that mentions surface forms. -/
abbrev RaisedNode := Node Surface.Ty Surface.Path Surface.Pattern ExprId StmtId

/-- A statement that mentions surface forms. -/
abbrev RaisedStmt := Stmt Surface.Ty Surface.Pattern ExprId

/-- Raises the expression numbered `id`, with chains of at most `fuel` nodes. -/
def raiseExpr (exprs : List RaisedNode) (stmts : List RaisedStmt) :
    (fuel : Nat) → ExprId → Surface.Expr
  | 0, _ => default
  | fuel + 1, id =>
    match exprs[id]? with
    | none => default
    | some node =>
      let child := raiseExpr exprs stmts fuel
      let statement (s : StmtId) : Surface.Stmt :=
        match stmts[s]? with
        | none => default
        | some stmt => (stmt.map child).raise
      (node.map child statement).raise

/-! ## Fragments -/

mutual

/-- Raises a type. -/
def Ty.raise : Ty → Surface.Ty
  | .infer => .infer .dummy
  | .primitive c => .primitive .dummy (.keyword c)
  | .tuple ts => .tuple .dummy (Ty.raiseAll ts)
  | .borrow k t => .borrow .dummy k t.raise
  | .pointer m t => .pointer .dummy m t.raise
  | .array t size => .array .dummy t.raise (Body.raiseOpt size)
  | .path p => .path .dummy p.raise
  | .traitObject ps => .traitObject .dummy [] (AppliedPath.raiseAll ps)
  | .function u abi args ret => .function .dummy u abi (Ty.raiseAll args) ret.raise
  | .param n _ => .param .dummy n

/-- Raises types in order. -/
def Ty.raiseAll : List Ty → List Surface.Ty
  | [] => []
  | t :: ts => t.raise :: Ty.raiseAll ts

/-- Raises types bound to names in order. -/
def Ty.raiseNamed : List (String × Ty) → List (String × Surface.Ty)
  | [] => []
  | (n, t) :: bs => (n, t.raise) :: Ty.raiseNamed bs

/-- Raises arguments. -/
def GenericArgs.raise : GenericArgs → Surface.GenericArgs
  | .mk ts bs => .mk [] (Ty.raiseAll ts) (Ty.raiseNamed bs)

/-- Raises a canonical path with arguments. -/
def AppliedPath.raise : AppliedPath → Surface.Path
  | .mk p args => .absolute .dummy p.crate (raiseSegments args.raise p.components)

/-- Raises canonical paths in order. -/
def AppliedPath.raiseAll : List AppliedPath → List Surface.Path
  | [] => []
  | p :: ps => p.raise :: AppliedPath.raiseAll ps

/-- Raises a canonical path that may be absent. -/
def AppliedPath.raiseOpt : Option AppliedPath → Option Surface.Path
  | none => none
  | some p => some p.raise

/-- Raises a path. -/
def Path.raise : Path → Surface.Path
  | .plain p => p.raise
  | .qualified self trait item args =>
    .qualified .dummy self.raise (AppliedPath.raiseOpt trait) [.mk item args.raise]

/-- Raises a pattern. -/
def Pattern.raise : Pattern → Surface.Pattern
  | .mk b k => .mk .dummy b k.raise

/-- Raises what a pattern matches. -/
def PatternKind.raise : PatternKind → Surface.PatternKind
  | .any => .any
  | .value l => .value (Literal.raise l)
  | .range a b => .range (Literal.raise a) (Literal.raise b)
  | .tuple ps => .tuple (Pattern.raiseAll ps)
  | .ref k p => .ref k p.raise
  | .tupleStruct p ps => .tupleStruct p.raise (Pattern.raiseAll ps)
  | .struct p fs e => .struct p.raise (Pattern.raiseNamed fs) e

/-- Raises patterns in order. -/
def Pattern.raiseAll : List Pattern → List Surface.Pattern
  | [] => []
  | p :: ps => p.raise :: Pattern.raiseAll ps

/-- Raises field patterns in order. -/
def Pattern.raiseNamed : List (String × Pattern) → List (String × Surface.Pattern)
  | [] => []
  | (n, p) :: fs => (n, p.raise) :: Pattern.raiseNamed fs

/-- Raises a body, from its root. -/
def Body.raise : Body → Surface.Expr
  | .mk es ss root => raiseExpr (Body.raiseNodes es) (Body.raiseStmts ss) es.length root

/-- Raises a body that may be absent. -/
def Body.raiseOpt : Option Body → Option Surface.Expr
  | none => none
  | some b => some b.raise

/-- Raises what nodes mention, in order. -/
def Body.raiseNodes : List (Node Ty Path Pattern Nat Nat) → List RaisedNode
  | [] => []
  | n :: ns => Body.raiseNode n :: Body.raiseNodes ns

/-- Raises what a node mentions. -/
def Body.raiseNode : Node Ty Path Pattern Nat Nat → RaisedNode
  | .literal l => .literal l
  | .localVar n => .localVar n
  | .path p => .path p.raise
  | .tuple es => .tuple es
  | .array es => .array es
  | .block ss t => .block ss t
  | .assign o a b => .assign o a b
  | .binary o a b => .binary o a b
  | .unary o a => .unary o a
  | .deref a => .deref a
  | .borrow k a => .borrow k a
  | .cast a t => .cast a t.raise
  | .callPath p es => .callPath p.raise es
  | .callMethod a m es => .callMethod a m es
  | .callValue a es => .callValue a es
  | .field a n => .field a n
  | .index a b => .index a b
  | .structLiteral p fs b => .structLiteral p.raise fs b
  | .ifElse c t e => .ifElse c t e
  | .matchOn v as => .matchOn v (Body.raiseArms as)
  | .loop l b => .loop l b
  | .ret v => .ret v
  | .brk l v => .brk l v
  | .cont l => .cont l

/-- Raises the patterns of arms in order. -/
def Body.raiseArms : List (Arm Pattern Nat) → List (Arm Surface.Pattern ExprId)
  | [] => []
  | ⟨ps, g, b⟩ :: as => ⟨Pattern.raiseAll ps, g, b⟩ :: Body.raiseArms as

/-- Raises what statements mention, in order. -/
def Body.raiseStmts : List (Stmt Ty Pattern Nat) → List RaisedStmt
  | [] => []
  | s :: ss => Body.raiseStmt s :: Body.raiseStmts ss

/-- Raises what a statement mentions. -/
def Body.raiseStmt : Stmt Ty Pattern Nat → RaisedStmt
  | .letIn p t v => .letIn p.raise t.raise v
  | .expr e => .expr e

end

/-! ## Bodies as terms -/

/-- What a node is raised to, given what its children are raised to. -/
def raising : Algebra Surface.Expr Surface.Stmt where
  expr node := (node.mapMentions Ty.raise Path.raise Pattern.raise).raise
  stmt stmt := (stmt.mapMentions Ty.raise Pattern.raise).raise
  lostExpr := default
  lostStmt := default

theorem Pattern.raiseAll_eq (ps : List Pattern) : Pattern.raiseAll ps = ps.map Pattern.raise := by
  induction ps with
  | nil => rfl
  | cons p ps ih => exact congrArg (p.raise :: ·) ih

theorem Body.raiseArms_eq (as : List (Arm Pattern Nat)) :
    Body.raiseArms as = as.map (·.mapPatterns Pattern.raise) := by
  induction as with
  | nil => rfl
  | cons a as ih =>
    rw [Body.raiseArms, ih, Pattern.raiseAll_eq]
    rfl

theorem Body.raiseNodes_eq (ns : List ExprNode) :
    Body.raiseNodes ns = ns.map (·.mapMentions Ty.raise Path.raise Pattern.raise) := by
  induction ns with
  | nil => rfl
  | cons n ns ih =>
    rw [Body.raiseNodes, ih, List.map_cons]
    congr 1
    cases n with
    | matchOn v as => exact congrArg (Node.matchOn v) (Body.raiseArms_eq as)
    | _ => rfl

theorem Body.raiseStmts_eq (ss : List StmtNode) :
    Body.raiseStmts ss = ss.map (·.mapMentions Ty.raise Pattern.raise) := by
  induction ss with
  | nil => rfl
  | cons s ss ih =>
    rw [Body.raiseStmts, ih, List.map_cons]
    congr 1
    cases s <;> rfl

/-- Raising what the nodes mention and then the tree is one reading of the arena. -/
theorem raiseExpr_eq_read (es : List ExprNode) (ss : List StmtNode) (fuel : Nat) (id : ExprId) :
    raiseExpr (es.map (·.mapMentions Ty.raise Path.raise Pattern.raise))
        (ss.map (·.mapMentions Ty.raise Pattern.raise)) fuel id =
      Arena.readExpr raising ⟨es, ss⟩ fuel id := by
  induction fuel generalizing id with
  | zero => rfl
  | succ fuel ih =>
    simp only [raiseExpr, Arena.readExpr, List.getElem?_map]
    cases es[id]? with
    | none => rfl
    | some node =>
      simp only [Option.map_some, funext ih]
      rw [Node.map_mapMentions]
      congr 3
      funext s
      cases ss[s]? with
      | none => rfl
      | some stmt =>
        simp only [Option.map_some]
        rw [Stmt.map_mapMentions]
        rfl

theorem Body.raise_eq_read (b : Body) : b.raise = b.read raising := by
  cases b with
  | mk es ss root =>
    rw [Body.raise, Body.raiseNodes_eq, Body.raiseStmts_eq]
    exact raiseExpr_eq_read es ss es.length root

/-- A body is raised as the term that it holds. -/
theorem Term.raise_body (t : Term) : t.body.raise = t.read raising := by
  rw [Body.raise_eq_read, Term.read_body]

end Lowering.Core
