import Lowering.Core.Syntax

/-!
# Text of core fragments

The text of types, paths, patterns and bodies. A body is printed in two steps:
first every node's types, paths and patterns are replaced by their texts, which
is a structural recursion, then the numbers are followed from the root. A body
may number its nodes in any order and share them; since no chain of children
without a cycle is longer than the arena, the arena's length bounds the second
step. A body with a number that leads nowhere, or with a cycle, cannot be printed.
-/

namespace Lowering.Core

/-- A node that mentions texts in place of types, paths and patterns. -/
abbrev TextNode := Node String String String ExprId StmtId

/-- A statement that mentions texts; an inferred type is absent. -/
abbrev TextStmt := Stmt (Option String) String ExprId

/-- The text of the expression numbered `id`, with chains of at most `depth` nodes.
There is none if a number on the way leads out of its arena, or a chain is longer. -/
def exprText? (exprs : List TextNode) (stmts : List TextStmt) :
    (depth : Nat) → ExprId → Option String
  | 0, _ => none
  | depth + 1, id => do
    let node ← exprs[id]?
    let child := exprText? exprs stmts depth
    let statement (s : StmtId) : Option String := do
      let stmt ← stmts[s]?
      return (← stmt.map? child).text
    return (← node.map? child statement).text

/-- The text of path arguments: nothing if there are none. -/
def argsText (types : List String) (bindings : List String) : String :=
  match types ++ bindings with
  | [] => ""
  | all => "<" ++ Text.joined ", " all ++ ">"

/-- The text of a function type whose parts are texts; `ret` is absent for the
empty tuple. -/
def functionText (isUnsafe : Bool) (abi : String) (args : List String) (ret : Option String) :
    String :=
  (if isUnsafe then "unsafe " else "") ++
    (if abi.isEmpty then "" else "extern \"" ++ abi ++ "\" ") ++
    "fn(" ++ Text.joined ", " args ++ ")" ++ optionalText " -> " ret

/-- The text of the fields of a struct pattern; `..` stands for fields not
listed. -/
def fieldPatternsText (fields : List String) (isExhaustive : Bool) : String :=
  match fields ++ (if isExhaustive then [] else [".."]) with
  | [] => ""
  | all => " " ++ Text.joined ", " all

/-- The text of a type parameter: its position stands in a comment. -/
def paramText (name : String) : ParamIndex → String
  | .unresolved => name ++ "/*?*/"
  | .bound i => name ++ "/*" ++ toString i ++ "*/"

mutual

/-- The text of a type. -/
def Ty.text : Ty → String
  | .infer => "_"
  | .primitive c => c.keyword
  | .tuple ts => Text.tuple (Ty.texts ts)
  | .borrow k t => k.sign ++ t.text
  | .pointer m t => (if m then "*mut " else "*const ") ++ t.text
  | .array t none => "[" ++ t.text ++ "]"
  | .array t (some b) => "[" ++ t.text ++ "; " ++ b.text?.getD "" ++ "]"
  | .path p => p.text
  | .traitObject ps => "dyn " ++ Text.joined " + " (AppliedPath.texts ps)
  | .function u abi args ret =>
    functionText u abi (Ty.texts args) (if ret.isUnit then none else some ret.text)
  | .param n i => paramText n i

/-- The texts of a list of types. -/
def Ty.texts : List Ty → List String
  | [] => []
  | t :: ts => t.text :: Ty.texts ts

/-- The texts of types bound to names, as `Item=u8`. -/
def Ty.bindingTexts : List (String × Ty) → List String
  | [] => []
  | (n, t) :: bs => (n ++ "=" ++ t.text) :: Ty.bindingTexts bs

/-- The text of path arguments. -/
def GenericArgs.text : GenericArgs → String
  | .mk ts bs => argsText (Ty.texts ts) (Ty.bindingTexts bs)

/-- The text of a canonical path with arguments. -/
def AppliedPath.text : AppliedPath → String
  | .mk p a => p.text ++ a.text

/-- The texts of a list of canonical paths. -/
def AppliedPath.texts : List AppliedPath → List String
  | [] => []
  | p :: ps => p.text :: AppliedPath.texts ps

/-- The text of a path. -/
def Path.text : Path → String
  | .plain p => p.text
  | .qualified s none i a => "<" ++ s.text ++ ">::" ++ i ++ a.text
  | .qualified s (some t) i a => "<" ++ s.text ++ " as " ++ t.text ++ ">::" ++ i ++ a.text

/-- The text of a pattern: a name that binds everything stands alone. -/
def Pattern.text : Pattern → String
  | .mk none k => k.text
  | .mk (some b) .any => b.text
  | .mk (some b) k => b.text ++ " @ " ++ k.text

/-- The texts of a list of patterns. -/
def Pattern.texts : List Pattern → List String
  | [] => []
  | p :: ps => p.text :: Pattern.texts ps

/-- The texts of field patterns, as `x: _`. -/
def Pattern.fieldTexts : List (String × Pattern) → List String
  | [] => []
  | (n, p) :: fs => (n ++ ": " ++ p.text) :: Pattern.fieldTexts fs

/-- The text of what a pattern matches. -/
def PatternKind.text : PatternKind → String
  | .any => "_"
  | .value l => l.text
  | .range a b => a.text ++ " ..= " ++ b.text
  | .tuple ps => Text.tuple (Pattern.texts ps)
  | .ref k p => k.sign ++ p.text
  | .tupleStruct p ps => p.text ++ "(" ++ Text.joined ", " (Pattern.texts ps) ++ ")"
  | .struct p fs e =>
    p.text ++ " \x7b" ++ fieldPatternsText (Pattern.fieldTexts fs) e ++ " \x7d"

/-- The text of a body, from its root, if it can be printed. -/
def Body.text? : Body → Option String
  | .mk es ss root => exprText? (Body.nodeTexts es) (Body.stmtTexts ss) es.length root

/-- The nodes of a body with texts in place of types, paths and patterns. -/
def Body.nodeTexts : List (Node Ty Path Pattern Nat Nat) → List TextNode
  | [] => []
  | n :: ns => Body.nodeText n :: Body.nodeTexts ns

/-- A node with texts in place of types, paths and patterns. -/
def Body.nodeText : Node Ty Path Pattern Nat Nat → TextNode
  | .literal l => .literal l
  | .localVar n => .localVar n
  | .path p => .path p.text
  | .tuple es => .tuple es
  | .array es => .array es
  | .block ss t => .block ss t
  | .assign o a b => .assign o a b
  | .binary o a b => .binary o a b
  | .unary o a => .unary o a
  | .deref a => .deref a
  | .borrow k a => .borrow k a
  | .cast a t => .cast a t.text
  | .callPath p es => .callPath p.text es
  | .callMethod a m es => .callMethod a m es
  | .callValue a es => .callValue a es
  | .field a n => .field a n
  | .index a b => .index a b
  | .structLiteral p fs b => .structLiteral p.text fs b
  | .ifElse c t e => .ifElse c t e
  | .matchOn v as => .matchOn v (Body.armTexts as)
  | .loop l b => .loop l b
  | .ret v => .ret v
  | .brk l v => .brk l v
  | .cont l => .cont l

/-- The arms of a match with texts in place of patterns. -/
def Body.armTexts : List (Arm Pattern Nat) → List (Arm String ExprId)
  | [] => []
  | ⟨ps, g, b⟩ :: as => ⟨Pattern.texts ps, g, b⟩ :: Body.armTexts as

/-- The statements of a body with texts in place of types and patterns. -/
def Body.stmtTexts : List (Stmt Ty Pattern Nat) → List TextStmt
  | [] => []
  | s :: ss => Body.stmtText s :: Body.stmtTexts ss

/-- A statement with texts in place of its type and pattern. -/
def Body.stmtText : Stmt Ty Pattern Nat → TextStmt
  | .letIn p t v => .letIn p.text (if t.isInfer then none else some t.text) v
  | .expr e => .expr e

end

/-- The text of a body; one that cannot be printed has none. -/
def Body.text (b : Body) : String := b.text?.getD ""

/-- The text of an optional body. -/
def Body.optionText : Option Body → String
  | none => "/* empty */"
  | some b => b.text

end Lowering.Core
