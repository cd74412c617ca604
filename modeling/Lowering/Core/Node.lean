import Lowering.Literal
import Lowering.Operator
import Lowering.Text.Joined

/-!
# Expression nodes

One level of a core expression. A node is generic in what stands for the types
`τ`, paths `π` and patterns `ρ` it mentions, and for its child expressions `ε`
and child statements `σ`. Children that are numbers give the nodes of an arena,
children that are trees give terms, and a node all of whose parts are texts can
be printed.

The core language has no sugar: `loop` is the only loop, `match` the only test
of a pattern, and a dereference is a node of its own.
-/

namespace Lowering.Core

/-- A literal whose numbers may carry a scalar type. -/
abbrev Literal := Lowering.Literal (Option Scalar)

/-- One arm of a match: its alternatives, its guard and its body. -/
structure Arm (ρ ε : Type) where
  patterns : List ρ
  guard : Option ε
  body : ε
  deriving BEq

/-- One level of an expression. -/
inductive Node (τ π ρ ε σ : Type) where
  | literal (value : Lowering.Literal (Option Scalar))
  | localVar (name : String)
  | path (path : π)
  | tuple (items : List ε)
  | array (items : List ε)
  | block (stmts : List σ) (tail : Option ε)
  | assign (op : Option BinaryOp) (target value : ε)
  | binary (op : BinaryOp) (left right : ε)
  | unary (op : UnaryOp) (operand : ε)
  | deref (inner : ε)
  | borrow (kind : BorrowKind) (inner : ε)
  | cast (inner : ε) (ty : τ)
  | callPath (path : π) (args : List ε)
  | callMethod (receiver : ε) (method : String) (args : List ε)
  | callValue (callee : ε) (args : List ε)
  | field (base : ε) (name : String)
  | index (base index : ε)
  | structLiteral (path : π) (fields : List (String × ε)) (base : Option ε)
  | ifElse (cond thenBranch : ε) (elseBranch : Option ε)
  | matchOn (value : ε) (arms : List (Arm ρ ε))
  | loop (label : Option String) (body : ε)
  | ret (value : Option ε)
  | brk (label : Option String) (value : Option ε)
  | cont (label : Option String)
  deriving BEq

/-- One statement of a block. -/
inductive Stmt (τ ρ ε : Type) where
  | letIn (pattern : ρ) (ty : τ) (value : Option ε)
  | expr (expr : ε)
  deriving BEq

variable {τ π ρ ε ε' σ σ' : Type}

instance : Inhabited (Node τ π ρ ε σ) := ⟨.tuple []⟩
instance [Inhabited ε] : Inhabited (Stmt τ ρ ε) := ⟨.expr default⟩

/-- The arm with every child replaced. -/
def Arm.map (f : ε → ε') (a : Arm ρ ε) : Arm ρ ε' :=
  ⟨a.patterns, a.guard.map f, f a.body⟩

/-- The node with every child replaced. -/
def Node.map (f : ε → ε') (g : σ → σ') : Node τ π ρ ε σ → Node τ π ρ ε' σ'
  | .literal l => .literal l
  | .localVar n => .localVar n
  | .path p => .path p
  | .tuple es => .tuple (es.map f)
  | .array es => .array (es.map f)
  | .block ss t => .block (ss.map g) (t.map f)
  | .assign o a b => .assign o (f a) (f b)
  | .binary o a b => .binary o (f a) (f b)
  | .unary o a => .unary o (f a)
  | .deref a => .deref (f a)
  | .borrow k a => .borrow k (f a)
  | .cast a t => .cast (f a) t
  | .callPath p es => .callPath p (es.map f)
  | .callMethod a m es => .callMethod (f a) m (es.map f)
  | .callValue a es => .callValue (f a) (es.map f)
  | .field a n => .field (f a) n
  | .index a b => .index (f a) (f b)
  | .structLiteral p fs b => .structLiteral p (fs.map fun (n, e) => (n, f e)) (b.map f)
  | .ifElse c t e => .ifElse (f c) (f t) (e.map f)
  | .matchOn v as => .matchOn (f v) (as.map (·.map f))
  | .loop l b => .loop l (f b)
  | .ret v => .ret (v.map f)
  | .brk l v => .brk l (v.map f)
  | .cont l => .cont l

/-- The statement with every child replaced. -/
def Stmt.map (f : ε → ε') : Stmt τ ρ ε → Stmt τ ρ ε'
  | .letIn p t v => .letIn p t (v.map f)
  | .expr e => .expr (f e)

/-- The arm with every child replaced, if each of them has a replacement. -/
def Arm.map? (f : ε → Option ε') (a : Arm ρ ε) : Option (Arm ρ ε') := do
  let guard ← a.guard.mapM f
  return ⟨a.patterns, guard, ← f a.body⟩

/-- The node with every child replaced, if each of them has a replacement. -/
def Node.map? (f : ε → Option ε') (g : σ → Option σ') :
    Node τ π ρ ε σ → Option (Node τ π ρ ε' σ')
  | .literal l => some (.literal l)
  | .localVar n => some (.localVar n)
  | .path p => some (.path p)
  | .tuple es => return .tuple (← es.mapM f)
  | .array es => return .array (← es.mapM f)
  | .block ss t => return .block (← ss.mapM g) (← t.mapM f)
  | .assign o a b => return .assign o (← f a) (← f b)
  | .binary o a b => return .binary o (← f a) (← f b)
  | .unary o a => return .unary o (← f a)
  | .deref a => return .deref (← f a)
  | .borrow k a => return .borrow k (← f a)
  | .cast a t => return .cast (← f a) t
  | .callPath p es => return .callPath p (← es.mapM f)
  | .callMethod a m es => return .callMethod (← f a) m (← es.mapM f)
  | .callValue a es => return .callValue (← f a) (← es.mapM f)
  | .field a n => return .field (← f a) n
  | .index a b => return .index (← f a) (← f b)
  | .structLiteral p fs b => do
    let fs ← fs.mapM fun (n, e) => return (n, ← f e)
    return .structLiteral p fs (← b.mapM f)
  | .ifElse c t e => return .ifElse (← f c) (← f t) (← e.mapM f)
  | .matchOn v as => return .matchOn (← f v) (← as.mapM (·.map? f))
  | .loop l b => return .loop l (← f b)
  | .ret v => return .ret (← v.mapM f)
  | .brk l v => return .brk l (← v.mapM f)
  | .cont l => some (.cont l)

/-- The statement with every child replaced, if each of them has a replacement. -/
def Stmt.map? (f : ε → Option ε') : Stmt τ ρ ε → Option (Stmt τ ρ ε')
  | .letIn p t v => return .letIn p t (← v.mapM f)
  | .expr e => return .expr (← f e)

/-! ## Text -/

/-- A text after a lead, or nothing. -/
def optionalText (lead : String) : Option String → String
  | none => ""
  | some t => lead ++ t

/-- The text of an arm whose parts are texts. -/
def Arm.text (a : Arm String String) : String :=
  " " ++ Text.joined " | " a.patterns ++ optionalText " if " a.guard ++ " => " ++ a.body ++ ","

/-- The text of the fields and the base of a struct literal. -/
def fieldsText (fields : List (String × String)) (base : Option String) : String :=
  let members := fields.map fun (n, v) => n ++ ": " ++ v
  let all := members ++ (base.map (".." ++ ·)).toList
  if all.isEmpty then "" else " " ++ Text.joined ", " all

/-- The text of a statement whose parts are texts. An inferred type is not
written. -/
def Stmt.text : Stmt (Option String) String String → String
  | .letIn p t v => "let " ++ p ++ optionalText ": " t ++ optionalText " = " v
  | .expr e => e

/-- The text of a node whose parts are texts. -/
def Node.text : Node String String String String String → String
  | .literal l => l.text
  | .localVar n => n
  | .path p => p
  | .tuple es => Text.tuple es
  | .array es => "[" ++ Text.joined ", " es ++ "]"
  | .block ss t =>
    "\x7b" ++ Text.eachAfter " " (ss.map (· ++ ";")) ++ optionalText " " t ++ " \x7d"
  | .assign none a b => a ++ " = " ++ b
  | .assign (some o) a b => a ++ " " ++ o.sign ++ "= " ++ b
  | .binary o a b => "(" ++ a ++ " " ++ o.sign ++ " " ++ b ++ ")"
  | .unary o a => o.sign ++ a
  | .deref a => "*" ++ a
  | .borrow k a => k.sign ++ a
  | .cast a t => "(" ++ a ++ " as " ++ t ++ ")"
  | .callPath p es => p ++ "(" ++ Text.joined ", " es ++ ")"
  | .callMethod a m es => a ++ "." ++ m ++ "(" ++ Text.joined ", " es ++ ")"
  | .callValue a es => "(" ++ a ++ ")(" ++ Text.joined ", " es ++ ")"
  | .field a n => a ++ "." ++ n
  | .index a b => a ++ "[" ++ b ++ "]"
  | .structLiteral p fs b => p ++ " \x7b" ++ fieldsText fs b ++ " \x7d"
  | .ifElse c t e => "if " ++ c ++ " " ++ t ++ optionalText " else " e
  | .matchOn v as => "match " ++ v ++ " \x7b" ++ String.join (as.map Arm.text) ++ " \x7d"
  | .loop l b => (match l with | none => "" | some n => "'" ++ n ++ ": ") ++ "loop " ++ b
  | .ret v => "return" ++ optionalText " " v
  | .brk l v => "break" ++ optionalText " '" l ++ optionalText " " v
  | .cont l => "continue" ++ optionalText " '" l

end Lowering.Core
