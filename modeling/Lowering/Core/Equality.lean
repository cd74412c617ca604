import Lowering.Core.Syntax

/-!
# Equality of core fragments

Bodies are equal when their arenas are, number for number. Floating-point
literals compare as the numbers they stand for.
-/

namespace Lowering.Core

mutual

/-- Equality of types. -/
def Ty.beq : Ty → Ty → Bool
  | .infer, .infer => true
  | .primitive c, .primitive d => c == d
  | .tuple ts, .tuple us => Ty.beqAll ts us
  | .borrow k t, .borrow l u => k == l && t.beq u
  | .pointer m t, .pointer n u => m == n && t.beq u
  | .array t b, .array u c => t.beq u && Body.beqOpt b c
  | .path p, .path q => p.beq q
  | .traitObject ps, .traitObject qs => AppliedPath.beqAll ps qs
  | .function u a ts r, .function v b us s =>
    u == v && a == b && Ty.beqAll ts us && r.beq s
  | .param n i, .param m j => n == m && i == j
  | _, _ => false
termination_by structural x => x

/-- Equality of type lists. -/
def Ty.beqAll : List Ty → List Ty → Bool
  | [], [] => true
  | t :: ts, u :: us => t.beq u && Ty.beqAll ts us
  | _, _ => false
termination_by structural x => x

/-- Equality of types bound to names. -/
def Ty.beqNamed : List (String × Ty) → List (String × Ty) → Bool
  | [], [] => true
  | (n, t) :: ts, (m, u) :: us => n == m && t.beq u && Ty.beqNamed ts us
  | _, _ => false
termination_by structural x => x

/-- Equality of arguments. -/
def GenericArgs.beq : GenericArgs → GenericArgs → Bool
  | .mk ts bs, .mk us cs => Ty.beqAll ts us && Ty.beqNamed bs cs
termination_by structural x => x

/-- Equality of canonical paths with arguments. -/
def AppliedPath.beq : AppliedPath → AppliedPath → Bool
  | .mk p a, .mk q b => p == q && a.beq b
termination_by structural x => x

/-- Equality of lists of canonical paths. -/
def AppliedPath.beqAll : List AppliedPath → List AppliedPath → Bool
  | [], [] => true
  | p :: ps, q :: qs => p.beq q && AppliedPath.beqAll ps qs
  | _, _ => false
termination_by structural x => x

/-- Equality of optional canonical paths. -/
def AppliedPath.beqOpt : Option AppliedPath → Option AppliedPath → Bool
  | none, none => true
  | some p, some q => p.beq q
  | _, _ => false
termination_by structural x => x

/-- Equality of paths. -/
def Path.beq : Path → Path → Bool
  | .plain p, .plain q => p.beq q
  | .qualified s t i a, .qualified s' t' i' a' =>
    s.beq s' && AppliedPath.beqOpt t t' && i == i' && a.beq a'
  | _, _ => false
termination_by structural x => x

/-- Equality of patterns. -/
def Pattern.beq : Pattern → Pattern → Bool
  | .mk b k, .mk c l => b == c && k.beq l
termination_by structural x => x

/-- Equality of pattern lists. -/
def Pattern.beqAll : List Pattern → List Pattern → Bool
  | [], [] => true
  | p :: ps, q :: qs => p.beq q && Pattern.beqAll ps qs
  | _, _ => false
termination_by structural x => x

/-- Equality of field patterns. -/
def Pattern.beqNamed : List (String × Pattern) → List (String × Pattern) → Bool
  | [], [] => true
  | (n, p) :: ps, (m, q) :: qs => n == m && p.beq q && Pattern.beqNamed ps qs
  | _, _ => false
termination_by structural x => x

/-- Equality of what patterns match. -/
def PatternKind.beq : PatternKind → PatternKind → Bool
  | .any, .any => true
  | .value l, .value m => l == m
  | .range a b, .range c d => a == c && b == d
  | .tuple ps, .tuple qs => Pattern.beqAll ps qs
  | .ref k p, .ref l q => k == l && p.beq q
  | .tupleStruct p ps, .tupleStruct q qs => p.beq q && Pattern.beqAll ps qs
  | .struct p fs e, .struct q gs f => p.beq q && Pattern.beqNamed fs gs && e == f
  | _, _ => false
termination_by structural x => x

/-- Equality of bodies. -/
def Body.beq : Body → Body → Bool
  | .mk es ss r, .mk fs ts q => Body.beqNodes es fs && Body.beqStmts ss ts && r == q
termination_by structural x => x

/-- Equality of optional bodies. -/
def Body.beqOpt : Option Body → Option Body → Bool
  | none, none => true
  | some b, some c => b.beq c
  | _, _ => false
termination_by structural x => x

/-- Equality of arenas of nodes. -/
def Body.beqNodes :
    List (Node Ty Path Pattern Nat Nat) → List (Node Ty Path Pattern Nat Nat) → Bool
  | [], [] => true
  | m :: ms, n :: ns => Body.beqNode m n && Body.beqNodes ms ns
  | _, _ => false
termination_by structural x => x

/-- Equality of nodes. -/
def Body.beqNode : Node Ty Path Pattern Nat Nat → Node Ty Path Pattern Nat Nat → Bool
  | .literal l, .literal m => l == m
  | .localVar n, .localVar m => n == m
  | .path p, .path q => p.beq q
  | .tuple es, .tuple fs => es == fs
  | .array es, .array fs => es == fs
  | .block ss t, .block ts u => ss == ts && t == u
  | .assign o a b, .assign p c d => o == p && a == c && b == d
  | .binary o a b, .binary p c d => o == p && a == c && b == d
  | .unary o a, .unary p c => o == p && a == c
  | .deref a, .deref c => a == c
  | .borrow k a, .borrow l c => k == l && a == c
  | .cast a t, .cast c u => a == c && t.beq u
  | .callPath p es, .callPath q fs => p.beq q && es == fs
  | .callMethod a m es, .callMethod c n fs => a == c && m == n && es == fs
  | .callValue a es, .callValue c fs => a == c && es == fs
  | .field a n, .field c m => a == c && n == m
  | .index a b, .index c d => a == c && b == d
  | .structLiteral p fs b, .structLiteral q gs c => p.beq q && fs == gs && b == c
  | .ifElse c t e, .ifElse d u f => c == d && t == u && e == f
  | .matchOn v as, .matchOn w bs => v == w && Body.beqArms as bs
  | .loop l b, .loop m c => l == m && b == c
  | .ret v, .ret w => v == w
  | .brk l v, .brk m w => l == m && v == w
  | .cont l, .cont m => l == m
  | _, _ => false
termination_by structural x => x

/-- Equality of the arms of a match. -/
def Body.beqArms : List (Arm Pattern Nat) → List (Arm Pattern Nat) → Bool
  | [], [] => true
  | ⟨ps, g, b⟩ :: as, ⟨qs, h, c⟩ :: bs =>
    Pattern.beqAll ps qs && g == h && b == c && Body.beqArms as bs
  | _, _ => false
termination_by structural x => x

/-- Equality of arenas of statements. -/
def Body.beqStmts : List (Stmt Ty Pattern Nat) → List (Stmt Ty Pattern Nat) → Bool
  | [], [] => true
  | s :: ss, t :: ts => Body.beqStmt s t && Body.beqStmts ss ts
  | _, _ => false
termination_by structural x => x

/-- Equality of statements. -/
def Body.beqStmt : Stmt Ty Pattern Nat → Stmt Ty Pattern Nat → Bool
  | .letIn p t v, .letIn q u w => p.beq q && t.beq u && v == w
  | .expr e, .expr f => e == f
  | _, _ => false
termination_by structural x => x

end

instance : BEq Ty := ⟨Ty.beq⟩
instance : BEq AppliedPath := ⟨AppliedPath.beq⟩
instance : BEq Path := ⟨Path.beq⟩
instance : BEq Pattern := ⟨Pattern.beq⟩
instance : BEq Body := ⟨Body.beq⟩

end Lowering.Core
