import Lowering.Core.Node
import Lowering.Core.ItemPath

/-!
# Core syntax of fragments

Types, paths, patterns and bodies of the core language. Every path is canonical
and every type is spelled out; what the surface language writes in several ways
has one form here.

A body holds one expression as two arenas, one of expression nodes and one of
statements, in which children are numbers. `Body.exprs` and `Body.stmts` list
them in the order of allocation.
-/

namespace Lowering.Core

/-- The position of a type parameter in its list, once it is known. -/
inductive ParamIndex where
  | unresolved
  | bound (index : Nat)
  deriving DecidableEq, Inhabited

namespace ParamIndex

/-- Whether the position is known. -/
def isResolved : ParamIndex → Bool
  | .unresolved => false
  | .bound _ => true

/-- The position as a number; an unknown one is zero. -/
def raw : ParamIndex → Nat
  | .unresolved => 0
  | .bound i => i

end ParamIndex

mutual

/-- A type. -/
inductive Ty where
  | infer
  | primitive (core : Scalar)
  | tuple (types : List Ty)
  | borrow (kind : BorrowKind) (inner : Ty)
  | pointer (isMut : Bool) (inner : Ty)
  | array (inner : Ty) (size : Option Body)
  | path (path : Path)
  | traitObject (traits : List AppliedPath)
  | function (isUnsafe : Bool) (abi : String) (args : List Ty) (ret : Ty)
  | param (name : String) (index : ParamIndex)

/-- The arguments of a path; lifetimes are erased. -/
inductive GenericArgs where
  | mk (types : List Ty) (bindings : List (String × Ty))

/-- A canonical path with arguments on its last component. -/
inductive AppliedPath where
  | mk (path : ItemPath) (args : GenericArgs)

/-- A path to an item, or to an item associated with a type, which may be looked
up through a trait. -/
inductive Path where
  | plain (path : AppliedPath)
  | qualified (self : Ty) (trait : Option AppliedPath) (item : String) (args : GenericArgs)

/-- A pattern, which may bind the value it matches. -/
inductive Pattern where
  | mk (binding : Option Binding) (kind : PatternKind)

/-- What a pattern matches. -/
inductive PatternKind where
  | any
  | value (literal : Lowering.Literal (Option Scalar))
  | range (first last : Lowering.Literal (Option Scalar))
  | tuple (patterns : List Pattern)
  | ref (kind : BorrowKind) (inner : Pattern)
  | tupleStruct (path : Path) (patterns : List Pattern)
  | struct (path : Path) (fields : List (String × Pattern)) (isExhaustive : Bool)

/-- An expression as two arenas and the number of its root. -/
inductive Body where
  | mk (exprs : List (Node Ty Path Pattern Nat Nat)) (stmts : List (Stmt Ty Pattern Nat))
      (root : Nat)

end

instance : Inhabited Ty := ⟨.infer⟩
instance : Inhabited GenericArgs := ⟨.mk [] []⟩
instance : Inhabited AppliedPath := ⟨.mk default default⟩
instance : Inhabited Path := ⟨.plain default⟩
instance : Inhabited Pattern := ⟨.mk none .any⟩
instance : Inhabited Body := ⟨.mk [.tuple []] [] 0⟩

/-- The number of an expression node in its arena. -/
abbrev ExprId := Nat

/-- The number of a statement in its arena. -/
abbrev StmtId := Nat

/-- An expression node of an arena. -/
abbrev ExprNode := Node Ty Path Pattern ExprId StmtId

/-- A statement of an arena. -/
abbrev StmtNode := Stmt Ty Pattern ExprId

namespace Ty

/-- The type of the empty tuple. -/
def unit : Ty := .tuple []

/-- Whether a type is the empty tuple. -/
def isUnit : Ty → Bool
  | .tuple [] => true
  | _ => false

/-- Whether a type is left to inference. -/
def isInfer : Ty → Bool
  | .infer => true
  | _ => false

end Ty

namespace GenericArgs

/-- No arguments. -/
def none : GenericArgs := .mk [] []

/-- The type arguments. -/
def types : GenericArgs → List Ty
  | .mk ts _ => ts

/-- The types bound to associated names. -/
def bindings : GenericArgs → List (String × Ty)
  | .mk _ bs => bs

/-- Whether there is no argument. -/
def isEmpty : GenericArgs → Bool
  | .mk ts bs => ts.isEmpty && bs.isEmpty

end GenericArgs

namespace AppliedPath

/-- The path of an item without arguments. -/
def ofItem (p : ItemPath) : AppliedPath := .mk p .none

/-- The canonical path. -/
def path : AppliedPath → ItemPath
  | .mk p _ => p

/-- The arguments. -/
def args : AppliedPath → GenericArgs
  | .mk _ a => a

end AppliedPath

/-- The path to an item without arguments. -/
def Path.ofItem (p : ItemPath) : Path := .plain (.ofItem p)

namespace Pattern

/-- The pattern that matches everything and binds nothing. -/
def wildcard : Pattern := .mk none .any

/-- The name bound to the whole value. -/
def binding : Pattern → Option Binding
  | .mk b _ => b

/-- What the pattern matches, its own binding apart. -/
def kind : Pattern → PatternKind
  | .mk _ k => k

end Pattern

namespace Body

/-- The expression nodes in the order of allocation. -/
def exprs : Body → List ExprNode
  | .mk es _ _ => es

/-- The statements in the order of allocation. -/
def stmts : Body → List StmtNode
  | .mk _ ss _ => ss

/-- The number of the root. -/
def root : Body → ExprId
  | .mk _ _ r => r

end Body

end Lowering.Core
