import Lowering.Surface.Syntax

/-!
# Equality of surface fragments

Equality is of everything that is written, spans included. Floating-point
literals compare as the numbers they stand for, so a tree that holds a
not-a-number does not equal itself.
-/

namespace Lowering.Surface

mutual

/-- Equality of types. -/
def Ty.beq : Ty → Ty → Bool
  | .omitted s, .omitted t => s == t
  | .infer s, .infer t => s == t
  | .unit s, .unit t => s == t
  | .macroCall s c, .macroCall t d => s == t && c == d
  | .primitive s c, .primitive t d => s == t && c == d
  | .tuple s c, .tuple t d => s == t && Ty.beqAll c d
  | .borrow s k c, .borrow t l d => s == t && k == l && c.beq d
  | .pointer s k c, .pointer t l d => s == t && k == l && c.beq d
  | .array s c e, .array t d f => s == t && c.beq d && Expr.beqOpt e f
  | .path s p, .path t q => s == t && p.beq q
  | .traitObject s l p, .traitObject t m q => s == t && l == m && Path.beqAll p q
  | .function s u a x r, .function t v b y q =>
    s == t && u == v && a == b && Ty.beqAll x y && r.beq q
  | .param s n, .param t m => s == t && n == m
  | _, _ => false
termination_by structural x => x

/-- Equality of type lists. -/
def Ty.beqAll : List Ty → List Ty → Bool
  | [], [] => true
  | a :: as, b :: bs => a.beq b && Ty.beqAll as bs
  | _, _ => false
termination_by structural x => x

/-- Equality of named types. -/
def Ty.beqNamed : List (String × Ty) → List (String × Ty) → Bool
  | [], [] => true
  | (n, a) :: as, (m, b) :: bs => n == m && a.beq b && Ty.beqNamed as bs
  | _, _ => false
termination_by structural x => x

/-- Equality of paths. -/
def Path.beq : Path → Path → Bool
  | .invalid s, .invalid t => s == t
  | .localName s n, .localName t m => s == t && n == m
  | .relative s n, .relative t m => s == t && Segment.beqAll n m
  | .selfRelative s n, .selfRelative t m => s == t && Segment.beqAll n m
  | .superRelative s c n, .superRelative t d m => s == t && c == d && Segment.beqAll n m
  | .absolute s c n, .absolute t d m => s == t && c == d && Segment.beqAll n m
  | .qualified s c p n, .qualified t d q m =>
    s == t && c.beq d && Path.beqOpt p q && Segment.beqAll n m
  | _, _ => false
termination_by structural x => x

/-- Equality of path lists. -/
def Path.beqAll : List Path → List Path → Bool
  | [], [] => true
  | a :: as, b :: bs => a.beq b && Path.beqAll as bs
  | _, _ => false
termination_by structural x => x

/-- Equality of optional paths. -/
def Path.beqOpt : Option Path → Option Path → Bool
  | none, none => true
  | some a, some b => a.beq b
  | _, _ => false
termination_by structural x => x

/-- Equality of segments. -/
def Segment.beq : Segment → Segment → Bool
  | .mk n a, .mk m b => n == m && a.beq b
termination_by structural x => x

/-- Equality of segment lists. -/
def Segment.beqAll : List Segment → List Segment → Bool
  | [], [] => true
  | a :: as, b :: bs => a.beq b && Segment.beqAll as bs
  | _, _ => false
termination_by structural x => x

/-- Equality of arguments. -/
def GenericArgs.beq : GenericArgs → GenericArgs → Bool
  | .mk l t b, .mk m u c => l == m && Ty.beqAll t u && Ty.beqNamed b c
termination_by structural x => x

/-- Equality of patterns. -/
def Pattern.beq : Pattern → Pattern → Bool
  | .mk s b k, .mk t c l => s == t && b == c && k.beq l
termination_by structural x => x

/-- Equality of what patterns match. -/
def PatternKind.beq : PatternKind → PatternKind → Bool
  | .any, .any => true
  | .maybeBind n, .maybeBind m => n == m
  | .macroCall n, .macroCall m => n == m
  | .value n, .value m => n == m
  | .range n o, .range m q => n == m && o == q
  | .tuple n, .tuple m => Pattern.beqAll n m
  | .ref k n, .ref l m => k == l && n.beq m
  | .tupleStruct k n, .tupleStruct l m => k.beq l && Pattern.beqAll n m
  | .struct k n x, .struct l m y => k.beq l && Pattern.beqNamed n m && x == y
  | _, _ => false
termination_by structural x => x

/-- Equality of pattern lists. -/
def Pattern.beqAll : List Pattern → List Pattern → Bool
  | [], [] => true
  | a :: as, b :: bs => a.beq b && Pattern.beqAll as bs
  | _, _ => false
termination_by structural x => x

/-- Equality of field patterns. -/
def Pattern.beqNamed : List (String × Pattern) → List (String × Pattern) → Bool
  | [], [] => true
  | (n, a) :: as, (m, b) :: bs => n == m && a.beq b && Pattern.beqNamed as bs
  | _, _ => false
termination_by structural x => x

/-- Equality of expressions. -/
def Expr.beq : Expr → Expr → Bool
  | .macroCall s c, .macroCall t d => s == t && c == d
  | .literal s c, .literal t d => s == t && c == d
  | .path s c, .path t d => s == t && c.beq d
  | .tuple s c, .tuple t d => s == t && Expr.beqAll c d
  | .array s c, .array t d => s == t && Expr.beqAll c d
  | .block s c e, .block t d f => s == t && Stmt.beqAll c d && Expr.beqOpt e f
  | .assign s o a b, .assign t p c d => s == t && o == p && a.beq c && b.beq d
  | .binary s o a b, .binary t p c d => s == t && o == p && a.beq c && b.beq d
  | .unary s o a, .unary t p c => s == t && o == p && a.beq c
  | .borrow s o a, .borrow t p c => s == t && o == p && a.beq c
  | .cast s a x, .cast t c y => s == t && a.beq c && x.beq y
  | .callPath s a x, .callPath t c y => s == t && a.beq c && Expr.beqAll x y
  | .callMethod s a m x, .callMethod t c n y => s == t && a.beq c && m == n && Expr.beqAll x y
  | .callValue s a x, .callValue t c y => s == t && a.beq c && Expr.beqAll x y
  | .field s a x, .field t c y => s == t && a.beq c && x == y
  | .index s a x, .index t c y => s == t && a.beq c && x.beq y
  | .structLiteral s a f x, .structLiteral t c g y =>
    s == t && a.beq c && Expr.beqNamed f g && Expr.beqOpt x y
  | .ifElse s a b c, .ifElse t x y z => s == t && a.beq x && b.beq y && Expr.beqOpt c z
  | .ifLet s p a b c, .ifLet t q x y z =>
    s == t && p.beq q && a.beq x && b.beq y && Expr.beqOpt c z
  | .matchOn s v a, .matchOn t w b => s == t && v.beq w && Arm.beqAll a b
  | .loop s l b, .loop t m c => s == t && l == m && b.beq c
  | .whileLoop s l b d, .whileLoop t m c e => s == t && l == m && b.beq c && d.beq e
  | .whileLet s l p b d, .whileLet t m q c e => s == t && l == m && p.beq q && b.beq c && d.beq e
  | .forLoop s l p b d, .forLoop t m q c e => s == t && l == m && p.beq q && b.beq c && d.beq e
  | .ret s v, .ret t w => s == t && Expr.beqOpt v w
  | .brk s l v, .brk t m w => s == t && l == m && Expr.beqOpt v w
  | .cont s l, .cont t m => s == t && l == m
  | _, _ => false
termination_by structural x => x

/-- Equality of expression lists. -/
def Expr.beqAll : List Expr → List Expr → Bool
  | [], [] => true
  | a :: as, b :: bs => a.beq b && Expr.beqAll as bs
  | _, _ => false
termination_by structural x => x

/-- Equality of field values. -/
def Expr.beqNamed : List (String × Expr) → List (String × Expr) → Bool
  | [], [] => true
  | (n, a) :: as, (m, b) :: bs => n == m && a.beq b && Expr.beqNamed as bs
  | _, _ => false
termination_by structural x => x

/-- Equality of optional expressions. -/
def Expr.beqOpt : Option Expr → Option Expr → Bool
  | none, none => true
  | some a, some b => a.beq b
  | _, _ => false
termination_by structural x => x

/-- Equality of statements. -/
def Stmt.beq : Stmt → Stmt → Bool
  | .letIn s p t v, .letIn s' p' t' v' => s == s' && p.beq p' && t.beq t' && Expr.beqOpt v v'
  | .expr e, .expr f => e.beq f
  | _, _ => false
termination_by structural x => x

/-- Equality of statement lists. -/
def Stmt.beqAll : List Stmt → List Stmt → Bool
  | [], [] => true
  | a :: as, b :: bs => a.beq b && Stmt.beqAll as bs
  | _, _ => false
termination_by structural x => x

/-- Equality of match arms. -/
def Arm.beq : Arm → Arm → Bool
  | .mk p g b, .mk q h c => Pattern.beqAll p q && Expr.beqOpt g h && b.beq c
termination_by structural x => x

/-- Equality of arm lists. -/
def Arm.beqAll : List Arm → List Arm → Bool
  | [], [] => true
  | a :: as, b :: bs => a.beq b && Arm.beqAll as bs
  | _, _ => false
termination_by structural x => x

end

instance : BEq Ty := ⟨Ty.beq⟩
instance : BEq Path := ⟨Path.beq⟩
instance : BEq Pattern := ⟨Pattern.beq⟩
instance : BEq Expr := ⟨Expr.beq⟩

end Lowering.Surface
