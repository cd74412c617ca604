import Lowering.Lower.Fragment
import Lowering.Proofs.Reading

/-!
# Meaning of expressions

A big-step meaning for surface expressions and for core bodies, over one
interpretation of everything that is not control flow. A meaning relates a store,
the outcome of evaluation and the store after it; an expression that is stuck or
does not end has no outcome.

The two languages share the meaning of the forms that they share. The sugar of
the surface language (`while`, `while let`, `if let` and the call of a local
name) has rules of its own here, which say nothing of the forms that lowering
puts in its place.
-/

namespace Lowering

/-- How the evaluation of an expression ends: with a value, or on the way out of
a loop or a function. -/
inductive Outcome (V : Type) where
  | value (v : V)
  | brk (label : Option String) (v : V)
  | cont (label : Option String)
  | ret (v : V)

variable {V S : Type}

namespace Outcome

/-- The outcome is not a value, so nothing after it is evaluated. -/
def Exits : Outcome V → Prop
  | .value _ => False
  | .brk _ _ | .cont _ | .ret _ => True

/-- Whether a loop with label `loop` is the one that `target` asks for, among
the loops around it from the inside out. -/
def caught (loop target : Option String) : Bool :=
  target == none || target == loop

/-- What the outcome of one round is for a loop with a given label: nothing, and
the next round starts, or the outcome of the whole loop. -/
def atLoop (loop : Option String) : Outcome V → Option (Outcome V)
  | .value _ => none
  | .brk l v => some (if caught loop l then .value v else .brk l v)
  | .cont l => if caught loop l then none else some (.cont l)
  | .ret v => some (.ret v)

end Outcome

/-- A meaning: the outcomes that a store may lead to, each with the store after
it. -/
abbrev Meaning (V S : Type) := S → Outcome V → S → Prop

/-- An interpretation of everything that is not control flow, over values `V` and
stores `S`. Each operation is given the values of its operands. Types, paths,
patterns and literals are those of the core language. -/
structure Interpretation (V S : Type) where
  unit : V
  /-- The truth of a condition; a value may have none. -/
  truth : V → S → Option Bool
  literal : Core.Literal → Meaning V S
  localVar : String → Meaning V S
  path : Core.Path → Meaning V S
  tuple : List V → Meaning V S
  array : List V → Meaning V S
  assign : Option BinaryOp → V → V → Meaning V S
  /-- The value of a binary operation that its left operand decides. -/
  decided : BinaryOp → V → S → Option V
  binary : BinaryOp → V → V → Meaning V S
  unary : UnaryOp → V → Meaning V S
  deref : V → Meaning V S
  borrow : BorrowKind → V → Meaning V S
  cast : V → Core.Ty → Meaning V S
  callPath : Core.Path → List V → Meaning V S
  callMethod : V → String → List V → Meaning V S
  callValue : V → List V → Meaning V S
  field : V → String → Meaning V S
  index : V → V → Meaning V S
  structLiteral : Core.Path → List (String × V) → Option V → Meaning V S
  /-- What a `let` makes of the store, with the value it is given. -/
  declare : Core.Pattern → Core.Ty → Option V → S → S → Prop
  /-- The store with a pattern's names bound, if the pattern matches. -/
  bind? : Core.Pattern → V → S → Option S
  /-- The store after the scope of a pattern's names, from the stores before and
  at the end of the scope. -/
  release : Core.Pattern → S → S → S
  bind_wildcard : ∀ v s, bind? .wildcard v s = some s
  release_wildcard : ∀ s s', release .wildcard s s' = s'

/-! ## Control flow of both languages -/

namespace Meaning

/-- An expression that has no outcome. -/
def stuck : Meaning V S := fun _ _ _ => False

/-- An expression that ends at once. -/
def ending (o : Outcome V) : Meaning V S := fun s o' s' => o' = o ∧ s' = s

/-- Evaluates `m` and goes on with its value, if it has one. -/
def andThen (m : Meaning V S) (k : V → Meaning V S) : Meaning V S := fun s o s' =>
  (∃ v s₁, m s (.value v) s₁ ∧ k v s₁ o s') ∨ (o.Exits ∧ m s o s')

/-- Evaluates operands from left to right and goes on with their values. -/
def operands : List (Meaning V S) → (List V → Meaning V S) → Meaning V S
  | [], k => k []
  | m :: ms, k => m.andThen fun v => operands ms fun vs => k (v :: vs)

/-- Evaluates an operand that may be absent and goes on with its value. -/
def operand? : Option (Meaning V S) → (Option V → Meaning V S) → Meaning V S
  | none, k => k none
  | some m, k => m.andThen fun v => k (some v)

/-- Evaluates the values of fields in order and goes on with them. -/
def fields : List (String × Meaning V S) → (List (String × V) → Meaning V S) → Meaning V S
  | [], k => k []
  | (n, m) :: ms, k => m.andThen fun v => fields ms fun vs => k ((n, v) :: vs)

variable (I : Interpretation V S)

/-- Goes one way or the other, by the truth of `v`. -/
def branch (v : V) (yes no : Meaning V S) : Meaning V S := fun s o s' =>
  match I.truth v s with
  | some true => yes s o s'
  | some false => no s o s'
  | none => False

/-- A conditional; without a second branch its value is the unit. -/
def ifElse (cond yes : Meaning V S) (no : Option (Meaning V S)) : Meaning V S :=
  cond.andThen fun v => branch I v yes (no.getD (ending (.value I.unit)))

/-- A binary operation; the right operand is not evaluated when the left one
decides. -/
def binary (op : BinaryOp) (left right : Meaning V S) : Meaning V S :=
  left.andThen fun a s o s' =>
    match I.decided op a s with
    | some v => ending (.value v) s o s'
    | none => right.andThen (fun b => I.binary op a b) s o s'

/-- Runs `m` in a scope of the names of `p` that began in the store `s`. -/
def inScope (p : Core.Pattern) (s : S) (m : Meaning V S) : Meaning V S := fun s₁ o s' =>
  ∃ s₂, m s₁ o s₂ ∧ s' = I.release p s s₂

/-- One alternative of a match on `v`: where the pattern misses or the guard is
false, `other` goes on. -/
inductive Alternative (v : V) (p : Core.Pattern) (guard : Option (Meaning V S))
    (body other : Meaning V S) : S → Outcome V → S → Prop
  | miss {s o s'} : I.bind? p v s = none → other s o s' → Alternative v p guard body other s o s'
  | hit {s o s₁ s'} : guard = none → I.bind? p v s = some s₁ → inScope I p s body s₁ o s' →
      Alternative v p guard body other s o s'
  | pass {g s o s₁ c s₂ s'} : guard = some g → I.bind? p v s = some s₁ →
      g s₁ (.value c) s₂ → I.truth c s₂ = some true → inScope I p s body s₂ o s' →
      Alternative v p guard body other s o s'
  | refuse {g s o s₁ c s₂ s'} : guard = some g → I.bind? p v s = some s₁ →
      g s₁ (.value c) s₂ → I.truth c s₂ = some false → other (I.release p s s₂) o s' →
      Alternative v p guard body other s o s'
  | exit {g s o s₁ s'} : guard = some g → I.bind? p v s = some s₁ → o.Exits →
      inScope I p s g s₁ o s' → Alternative v p guard body other s o s'

/-- The first arm of a match on `v` that applies, and in it the first
alternative. -/
def firstArm (v : V) : List (Core.Arm Core.Pattern (Meaning V S)) → Meaning V S
  | [] => stuck
  | a :: as => a.patterns.foldr (fun p => Alternative I v p a.guard a.body) (firstArm v as)

/-- A match. -/
def matchOn (value : Meaning V S) (arms : List (Core.Arm Core.Pattern (Meaning V S))) :
    Meaning V S :=
  value.andThen fun v => firstArm I v arms

/-- A `let` statement before `rest`, the rest of its block. -/
def letIn (p : Core.Pattern) (ty : Core.Ty) (value : Option (Meaning V S))
    (rest : Meaning V S) : Meaning V S :=
  operand? value fun v s o s' => ∃ s₁, I.declare p ty v s s₁ ∧ inScope I p s rest s₁ o s'

/-- An expression statement before `rest`, the rest of its block. -/
def discard (m rest : Meaning V S) : Meaning V S := m.andThen fun _ => rest

/-- A block: each statement is given what follows it. -/
def block (stmts : List (Meaning V S → Meaning V S)) (tail : Option (Meaning V S)) :
    Meaning V S :=
  stmts.foldr (fun stmt rest => stmt rest) (tail.getD (ending (.value I.unit)))

/-- A `break`; without a value it carries the unit. -/
def brk (label : Option String) (value : Option (Meaning V S)) : Meaning V S :=
  operand? value fun v => ending (.brk label (v.getD I.unit))

/-- A `return`; without a value it carries the unit. -/
def ret (value : Option (Meaning V S)) : Meaning V S :=
  operand? value fun v => ending (.ret (v.getD I.unit))

/-- What a round of a loop leads to: the next round, or the end of the loop. -/
abbrev Round (V S : Type) := S → Option (Outcome V) → S → Prop

/-- Rounds until one ends the loop. -/
inductive Repeat (round : Round V S) : S → Outcome V → S → Prop
  | stop {s o s'} : round s (some o) s' → Repeat round s o s'
  | next {s s₁ o s'} : round s none s₁ → Repeat round s₁ o s' → Repeat round s o s'

/-- One round of `loop`: the body, with its value discarded. -/
def loopRound (label : Option String) (body : Meaning V S) : Round V S := fun s r s' =>
  ∃ o, body s o s' ∧ r = o.atLoop label

/-- A `loop`. -/
def loop (label : Option String) (body : Meaning V S) : Meaning V S :=
  Repeat (loopRound label body)

/-! ## Sugar of the surface language -/

/-- One round of `while`: the loop ends with the unit when the condition is
false. The condition is inside the loop, so the loop catches its exits. -/
inductive WhileRound (label : Option String) (cond body : Meaning V S) :
    S → Option (Outcome V) → S → Prop
  | stop {s v s'} : cond s (.value v) s' → I.truth v s' = some false →
      WhileRound label cond body s (some (.value I.unit)) s'
  | run {s v s₁ o s'} : cond s (.value v) s₁ → I.truth v s₁ = some true → body s₁ o s' →
      WhileRound label cond body s (o.atLoop label) s'
  | exit {s o s'} : cond s o s' → o.Exits → WhileRound label cond body s (o.atLoop label) s'

/-- A `while` loop. -/
def whileLoop (label : Option String) (cond body : Meaning V S) : Meaning V S :=
  Repeat (WhileRound I label cond body)

/-- One round of `while let`: the loop ends with the unit when the pattern
misses. -/
inductive WhileLetRound (label : Option String) (p : Core.Pattern) (value body : Meaning V S) :
    S → Option (Outcome V) → S → Prop
  | stop {s v s'} : value s (.value v) s' → I.bind? p v s' = none →
      WhileLetRound label p value body s (some (.value I.unit)) s'
  | run {s v s₁ s₂ o s'} : value s (.value v) s₁ → I.bind? p v s₁ = some s₂ →
      inScope I p s₁ body s₂ o s' → WhileLetRound label p value body s (o.atLoop label) s'
  | exit {s o s'} : value s o s' → o.Exits →
      WhileLetRound label p value body s (o.atLoop label) s'

/-- A `while let` loop. -/
def whileLet (label : Option String) (p : Core.Pattern) (value body : Meaning V S) :
    Meaning V S :=
  Repeat (WhileLetRound I label p value body)

/-- An `if let`; without an `else` its value is the unit when the pattern
misses. -/
def ifLet (p : Core.Pattern) (value yes : Meaning V S) (no : Option (Meaning V S)) :
    Meaning V S :=
  value.andThen fun v s o s' =>
    match I.bind? p v s with
    | some s₁ => inScope I p s yes s₁ o s'
    | none => no.getD (ending (.value I.unit)) s o s'

end Meaning

/-! ## Core bodies -/

namespace Core

/-- The meaning of a node, from the meanings of its children. -/
def Node.meaning (I : Interpretation V S) :
    Node Ty Path Pattern (Meaning V S) (Meaning V S → Meaning V S) → Meaning V S
  | .literal l => I.literal l
  | .localVar n => I.localVar n
  | .path p => I.path p
  | .tuple es => .operands es I.tuple
  | .array es => .operands es I.array
  | .block ss t => .block I ss t
  | .assign op a b => a.andThen fun place => b.andThen fun v => I.assign op place v
  | .binary op a b => .binary I op a b
  | .unary op a => a.andThen (I.unary op)
  | .deref a => a.andThen I.deref
  | .borrow k a => a.andThen (I.borrow k)
  | .cast a t => a.andThen fun v => I.cast v t
  | .callPath p es => .operands es (I.callPath p)
  | .callMethod a m es => a.andThen fun v => .operands es (I.callMethod v m)
  | .callValue a es => a.andThen fun v => .operands es (I.callValue v)
  | .field a n => a.andThen fun v => I.field v n
  | .index a b => a.andThen fun v => b.andThen fun i => I.index v i
  | .structLiteral p fs b => .fields fs fun vs => .operand? b (I.structLiteral p vs)
  | .ifElse c t e => .ifElse I c t e
  | .matchOn v as => .matchOn I v as
  | .loop l b => .loop l b
  | .ret v => .ret I v
  | .brk l v => .brk I l v
  | .cont l => .ending (.cont l)

/-- The meaning of a statement, from those of its children: it is given the rest
of its block. -/
def Stmt.meaning (I : Interpretation V S) :
    Stmt Ty Pattern (Meaning V S) → Meaning V S → Meaning V S
  | .letIn p t v => .letIn I p t v
  | .expr e => e.discard

/-- The meanings of the core language as an algebra; a number that leads nowhere
is stuck. -/
def semantics (I : Interpretation V S) : Algebra (Meaning V S) (Meaning V S → Meaning V S) where
  expr := Node.meaning I
  stmt := Stmt.meaning I
  lostExpr := .stuck
  lostStmt := fun _ => .stuck

/-- The meaning of a term. -/
def Term.meaning (I : Interpretation V S) (t : Term) : Meaning V S := t.read (semantics I)

/-- The meaning of a body, read from its arenas. -/
def Body.meaning (I : Interpretation V S) (b : Body) : Meaning V S := b.read (semantics I)

end Core

/-! ## Surface expressions -/

/-- What `k` makes of a core fragment; a fragment that has no core form is
stuck. -/
def Meaning.ofLowered {α : Type} (r : Lowered α) (k : α → Meaning V S) : Meaning V S :=
  match r with
  | .ok a => k a
  | .error _ => .stuck

namespace Surface

variable (I : Interpretation V S)

mutual

/-- The meaning of an expression. Macro calls and `for` loops have none. -/
def Expr.meaning : Expr → Meaning V S
  | .macroCall _ _ => .stuck
  | .literal s l => .ofLowered (lowerLiteral s l) I.literal
  | .path _ p =>
    match p.localName? with
    | some n => I.localVar n
    | none => .ofLowered p.lower I.path
  | .tuple _ es => .operands (Expr.meanings es) I.tuple
  | .array _ es => .operands (Expr.meanings es) I.array
  | .block _ ss t => .block I (Stmt.meanings ss) (Expr.meaningOpt t)
  | .assign _ op a b =>
    a.meaning.andThen fun place => b.meaning.andThen fun v => I.assign op place v
  | .binary _ op a b => .binary I op a.meaning b.meaning
  | .unary _ (.value op) a => a.meaning.andThen (I.unary op)
  | .unary _ .deref a => a.meaning.andThen I.deref
  | .borrow _ k a => a.meaning.andThen (I.borrow k)
  | .cast _ a t => a.meaning.andThen fun v => .ofLowered t.lower fun t => I.cast v t
  | .callPath _ p es =>
    match p.localName? with
    | some n => (I.localVar n).andThen fun f => .operands (Expr.meanings es) (I.callValue f)
    | none => .ofLowered p.lower fun p => .operands (Expr.meanings es) (I.callPath p)
  | .callMethod _ a m es =>
    a.meaning.andThen fun v => .operands (Expr.meanings es) (I.callMethod v m)
  | .callValue _ a es => a.meaning.andThen fun f => .operands (Expr.meanings es) (I.callValue f)
  | .field _ a n => a.meaning.andThen fun v => I.field v n
  | .index _ a b => a.meaning.andThen fun v => b.meaning.andThen fun i => I.index v i
  | .structLiteral _ p fs b =>
    .ofLowered p.lower fun p => .fields (Expr.meaningFields fs) fun vs =>
      .operand? (Expr.meaningOpt b) (I.structLiteral p vs)
  | .ifElse _ c t e => .ifElse I c.meaning t.meaning (Expr.meaningOpt e)
  | .ifLet _ p v t e =>
    .ofLowered p.lower fun p => .ifLet I p v.meaning t.meaning (Expr.meaningOpt e)
  | .matchOn _ v as => .matchOn I v.meaning (Arm.meanings as)
  | .loop _ l b => .loop l b.meaning
  | .whileLoop _ l c b => .whileLoop I l c.meaning b.meaning
  | .whileLet _ l p v b => .ofLowered p.lower fun p => .whileLet I l p v.meaning b.meaning
  | .forLoop _ _ _ _ _ => .stuck
  | .ret _ v => .ret I (Expr.meaningOpt v)
  | .brk _ l v => .brk I l (Expr.meaningOpt v)
  | .cont _ l => .ending (.cont l)

/-- The meanings of expressions in order. -/
def Expr.meanings : List Expr → List (Meaning V S)
  | [] => []
  | e :: es => e.meaning :: Expr.meanings es

/-- The meanings of the values of fields in order. -/
def Expr.meaningFields : List (String × Expr) → List (String × Meaning V S)
  | [] => []
  | (n, e) :: es => (n, e.meaning) :: Expr.meaningFields es

/-- The meaning of an expression that may be absent. -/
def Expr.meaningOpt : Option Expr → Option (Meaning V S)
  | none => none
  | some e => some e.meaning

/-- The meaning of a statement, which is given the rest of its block. -/
def Stmt.meaning : Stmt → Meaning V S → Meaning V S
  | .letIn _ p t v => fun rest =>
    .ofLowered p.lower fun p => .ofLowered t.lower fun t => .letIn I p t (Expr.meaningOpt v) rest
  | .expr e => fun rest => e.meaning.discard rest

/-- The meanings of statements in order. -/
def Stmt.meanings : List Stmt → List (Meaning V S → Meaning V S)
  | [] => []
  | s :: ss => s.meaning :: Stmt.meanings ss

/-- The arms of a match with their meanings; an arm with an alternative that has
no core form has no alternative. -/
def Arm.meaning : Arm → Core.Arm Core.Pattern (Meaning V S)
  | .mk ps g b => ⟨(Pattern.lowerAll ps).toOption.getD [], Expr.meaningOpt g, b.meaning⟩

/-- The arms of a match in order. -/
def Arm.meanings : List Arm → List (Core.Arm Core.Pattern (Meaning V S))
  | [] => []
  | a :: as => a.meaning :: Arm.meanings as

end

end Surface

end Lowering
