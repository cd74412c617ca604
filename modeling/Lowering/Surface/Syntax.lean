import Lowering.Literal
import Lowering.Operator
import Lowering.Span

/-!
# Surface syntax of fragments

The tree the parser and name resolution hand over, for everything below the
level of an item: types, paths, patterns and expressions. The four are mutually
recursive, since an array type has an expression for its size and a path has
types for its arguments. Every node carries its own span.

Earlier passes leave some forms behind that a finished tree must not have:
omitted types, macro calls, identifier patterns that were never classified,
paths that were never resolved. They are part of the syntax so that lowering can
refuse them.
-/

namespace Lowering.Surface

/-- A scalar type as the parser read it: a keyword, one left to inference, or a
word that is no keyword. -/
inductive ScalarName where
  | keyword (core : Scalar)
  | any
  | invalid
  deriving DecidableEq

/-- A macro call that should have been expanded. -/
structure MacroCall where
  name : String
  span : Location
  deriving DecidableEq

/-- The unary operators of the surface language. -/
inductive UnaryOp where
  | value (op : Lowering.UnaryOp)
  | deref
  deriving DecidableEq

mutual

/-- A type. -/
inductive Ty where
  | omitted (span : Location)
  | infer (span : Location)
  | unit (span : Location)
  | macroCall (span : Location) (call : MacroCall)
  | primitive (span : Location) (core : ScalarName)
  | tuple (span : Location) (types : List Ty)
  | borrow (span : Location) (kind : BorrowKind) (inner : Ty)
  | pointer (span : Location) (isMut : Bool) (inner : Ty)
  | array (span : Location) (inner : Ty) (size : Option Expr)
  | path (span : Location) (path : Path)
  | traitObject (span : Location) (lifetimes : List String) (traits : List Path)
  | function (span : Location) (isUnsafe : Bool) (abi : String) (args : List Ty) (ret : Ty)
  | param (span : Location) (name : String)

/-- A path, by how far name resolution has taken it. -/
inductive Path where
  | invalid (span : Location)
  | localName (span : Location) (name : String)
  | relative (span : Location) (segments : List Segment)
  | selfRelative (span : Location) (segments : List Segment)
  | superRelative (span : Location) (count : Nat) (segments : List Segment)
  | absolute (span : Location) (crate : String) (segments : List Segment)
  | qualified (span : Location) (self : Ty) (trait : Option Path) (segments : List Segment)

/-- One segment of a path with its arguments. -/
inductive Segment where
  | mk (name : String) (args : GenericArgs)

/-- The arguments of a path segment. -/
inductive GenericArgs where
  | mk (lifetimes : List String) (types : List Ty) (bindings : List (String × Ty))

/-- A pattern, which may bind the value it matches. -/
inductive Pattern where
  | mk (span : Location) (binding : Option Binding) (kind : PatternKind)

/-- What a pattern matches. -/
inductive PatternKind where
  | any
  | maybeBind (name : String)
  | macroCall (call : MacroCall)
  | value (literal : Literal ScalarName)
  | range (first last : Literal ScalarName)
  | tuple (patterns : List Pattern)
  | ref (kind : BorrowKind) (inner : Pattern)
  | tupleStruct (path : Path) (patterns : List Pattern)
  | struct (path : Path) (fields : List (String × Pattern)) (isExhaustive : Bool)

/-- An expression. -/
inductive Expr where
  | macroCall (span : Location) (call : MacroCall)
  | literal (span : Location) (literal : Literal ScalarName)
  | path (span : Location) (path : Path)
  | tuple (span : Location) (items : List Expr)
  | array (span : Location) (items : List Expr)
  | block (span : Location) (stmts : List Stmt) (tail : Option Expr)
  | assign (span : Location) (op : Option BinaryOp) (target value : Expr)
  | binary (span : Location) (op : BinaryOp) (left right : Expr)
  | unary (span : Location) (op : UnaryOp) (operand : Expr)
  | borrow (span : Location) (kind : BorrowKind) (inner : Expr)
  | cast (span : Location) (inner : Expr) (ty : Ty)
  | callPath (span : Location) (path : Path) (args : List Expr)
  | callMethod (span : Location) (receiver : Expr) (method : String) (args : List Expr)
  | callValue (span : Location) (callee : Expr) (args : List Expr)
  | field (span : Location) (base : Expr) (name : String)
  | index (span : Location) (base index : Expr)
  | structLiteral (span : Location) (path : Path) (fields : List (String × Expr))
      (base : Option Expr)
  | ifElse (span : Location) (cond thenBranch : Expr) (elseBranch : Option Expr)
  | ifLet (span : Location) (pattern : Pattern) (value thenBranch : Expr)
      (elseBranch : Option Expr)
  | matchOn (span : Location) (value : Expr) (arms : List Arm)
  | loop (span : Location) (label : Option String) (body : Expr)
  | whileLoop (span : Location) (label : Option String) (cond body : Expr)
  | whileLet (span : Location) (label : Option String) (pattern : Pattern) (value body : Expr)
  | forLoop (span : Location) (label : Option String) (pattern : Pattern) (iter body : Expr)
  | ret (span : Location) (value : Option Expr)
  | brk (span : Location) (label : Option String) (value : Option Expr)
  | cont (span : Location) (label : Option String)

/-- A statement of a block. -/
inductive Stmt where
  | letIn (span : Location) (pattern : Pattern) (ty : Ty) (value : Option Expr)
  | expr (expr : Expr)

/-- One arm of a match: its alternatives, its guard and its body. -/
inductive Arm where
  | mk (patterns : List Pattern) (guard : Option Expr) (body : Expr)

end

instance : Inhabited Ty := ⟨.infer .dummy⟩
instance : Inhabited Path := ⟨.invalid .dummy⟩
instance : Inhabited GenericArgs := ⟨.mk [] [] []⟩
instance : Inhabited Segment := ⟨.mk "" default⟩
instance : Inhabited Pattern := ⟨.mk .dummy none .any⟩
instance : Inhabited Expr := ⟨.tuple .dummy []⟩
instance : Inhabited Stmt := ⟨.expr default⟩
instance : Inhabited Arm := ⟨.mk [] none default⟩

/-- The span of a path. -/
def Path.span : Path → Location
  | .invalid s | .localName s _ | .relative s _ | .selfRelative s _
  | .superRelative s _ _ | .absolute s _ _ | .qualified s _ _ _ => s

/-- The segments of a path; an invalid path and a local name have none. -/
def Path.segments : Path → List Segment
  | .invalid _ | .localName _ _ => []
  | .relative _ segs | .selfRelative _ segs | .superRelative _ _ segs
  | .absolute _ _ segs | .qualified _ _ _ segs => segs

/-- The name of a segment. -/
def Segment.name : Segment → String
  | .mk n _ => n

/-- The arguments of a segment. -/
def Segment.args : Segment → GenericArgs
  | .mk _ a => a

/-- Whether no argument is written, lifetimes included. -/
def GenericArgs.isEmpty : GenericArgs → Bool
  | .mk ls ts bs => ls.isEmpty && ts.isEmpty && bs.isEmpty

end Lowering.Surface
