import Lowering.Proofs.Desugaring
import Lowering.Proofs.Raising
import Mathlib.Logic.Basic

/-!
# What lowering forgets

The normal form of a surface tree has no sugar, no lifetime arguments and no
places, and writes the unit type as the empty tuple; everything else stays, in
order. Main statement (`raise_lowered`): raising what a tree lowers to gives its
normal form. So trees that lower to the same core form have the same normal form,
and lowering forgets nothing that the normal form keeps.
-/

namespace Lowering.Surface

open Lowering.Core (Term TermStmt raising raiseSegments)

/-! ## Normal forms -/

/-- The unit type as the empty tuple. -/
def Ty.unitAsTuple : Ty → Ty
  | .unit s => .tuple s []
  | t => t

/-- The path with no lifetime on any of its own segments. -/
def Path.withoutLifetimes : Path → Path
  | .invalid s => .invalid s
  | .localName s n => .localName s n
  | .relative s segs => .relative s (segs.map Segment.withoutLifetimes)
  | .selfRelative s segs => .selfRelative s (segs.map Segment.withoutLifetimes)
  | .superRelative s c segs => .superRelative s c (segs.map Segment.withoutLifetimes)
  | .absolute s c segs => .absolute s c (segs.map Segment.withoutLifetimes)
  | .qualified s self trait segs => .qualified s self trait (segs.map Segment.withoutLifetimes)

/-- What lowering forgets, taken away: places, the unit type, lifetimes and sugar. -/
def normalizing : Rewriting where
  place _ := .dummy
  mark _ := .dummy
  ty := Ty.unitAsTuple
  path := Path.withoutLifetimes
  expr _ := Expr.expand fun _ => .dummy

/-- The normal form of a type. -/
def Ty.normal (t : Ty) : Ty := t.rewrite normalizing []

/-- The normal form of a path. -/
def Path.normal (p : Path) : Path := p.rewrite normalizing []

/-- The normal form of a pattern. -/
def Pattern.normal (p : Pattern) : Pattern := p.rewrite normalizing []

/-- The normal form of an expression. -/
def Expr.normal (e : Expr) : Expr := e.rewrite normalizing []

/-! ## Raising lowered fragments -/

theorem raise_lowerLiteral {s : Location} {l : Literal ScalarName} {l' : Core.Literal}
    (h : lowerLiteral s l = .ok l') : Core.Literal.raise l' = l := by
  cases l with
  | integer _ c | float _ c =>
    cases c with
    | invalid => cases h
    | keyword _ | any =>
      cases h
      rfl
  | bool _ | char _ | string _ =>
    cases h
    rfl

theorem Segment.checkAbsolute_leading {s : Location} {segs : List Segment}
    (h : Segment.checkAbsolute s segs = .ok ()) : Segment.leadingWithArgs? segs = none := by
  unfold Segment.checkAbsolute at h
  split at h
  · cases h
  · split at h
    · cases h
    · assumption

/-- A segment without arguments has none in its normal form. -/
theorem GenericArgs.normal_of_isEmpty {args : GenericArgs} (h : args.isEmpty = true)
    (pos : List Nat) : (args.rewrite normalizing pos).withoutLifetimes = .mk [] [] [] := by
  obtain ⟨ls, ts, bs⟩ := args
  simp only [GenericArgs.isEmpty, Bool.and_eq_true, List.isEmpty_iff] at h
  obtain ⟨⟨-, rfl⟩, rfl⟩ := h
  rfl

/-! The terms that stand for sugar are raised to what the sugar is written out to. -/

theorem read_whileLoop (l : Option String) (c b : Term) :
    (Term.whileLoop l c b).read raising =
      Expr.expand (fun _ => .dummy) (.whileLoop .dummy l (c.read raising) (b.read raising)) := rfl

theorem read_whileLet (l : Option String) (p : Core.Pattern) (v b : Term) :
    (Term.whileLet l p v b).read raising =
      Expr.expand (fun _ => .dummy)
        (.whileLet .dummy l p.raise (v.read raising) (b.read raising)) := rfl

theorem read_ifLet (p : Core.Pattern) (v t : Term) (e : Option Term) :
    (Term.matchElse v p t (e.getD .emptyBlock)).read raising =
      Expr.expand (fun _ => .dummy)
        (.ifLet .dummy p.raise (v.read raising) (t.read raising) (Term.readOpt raising e)) := by
  cases e <;> rfl

mutual

theorem Ty.raise_lower (pos : List Nat) : ∀ (t : Ty) (t' : Core.Ty), t.lower = .ok t' →
    t'.raise = t.rewrite normalizing pos
  | .omitted _, _, h | .macroCall _ _, _, h => nomatch h
  | .infer _, _, h | .unit _, _, h | .param _ _, _, h => by
    cases h
    rfl
  | .primitive _ c, _, h => by
    obtain ⟨c', hc, ⟨⟩⟩ := Lowered.bind_eq_ok.mp h
    cases c with
    | keyword c =>
      cases hc
      rfl
    | any | invalid => cases hc
  | .tuple _ ts, _, h => by
    obtain ⟨ts', hts, ⟨⟩⟩ := Lowered.bind_eq_ok.mp h
    exact congrArg (Ty.tuple .dummy) (Ty.raiseAll_lower pos ts ts' hts)
  | .borrow _ k t, _, h => by
    obtain ⟨t', ht, ⟨⟩⟩ := Lowered.bind_eq_ok.mp h
    exact congrArg (Ty.borrow .dummy k) (Ty.raise_lower pos t t' ht)
  | .pointer _ m t, _, h => by
    obtain ⟨t', ht, ⟨⟩⟩ := Lowered.bind_eq_ok.mp h
    exact congrArg (Ty.pointer .dummy m) (Ty.raise_lower pos t t' ht)
  | .array _ t e, _, h => by
    obtain ⟨t', ht, h⟩ := Lowered.bind_eq_ok.mp h
    obtain ⟨b, hb, ⟨⟩⟩ := Lowered.bind_eq_ok.mp h
    exact congrArg₂ (Ty.array .dummy) (Ty.raise_lower (0 :: pos) t t' ht)
      (Expr.raiseOpt_lowerBodyOpt (1 :: pos) e b hb)
  | .path _ p, _, h => by
    obtain ⟨p', hp, ⟨⟩⟩ := Lowered.bind_eq_ok.mp h
    exact congrArg (Ty.path .dummy) (Path.raise_lower pos p p' hp)
  | .traitObject _ ls ps, _, h => by
    obtain ⟨hls, ps', hps, rfl⟩ := Ty.lower_traitObject h
    rw [List.isEmpty_iff.mp hls]
    exact congrArg (Ty.traitObject .dummy []) (Path.raiseAll_lowerPlainAll pos ps ps' hps)
  | .function _ u abi args ret, _, h => by
    obtain ⟨args', hargs, h⟩ := Lowered.bind_eq_ok.mp h
    obtain ⟨ret', hret, ⟨⟩⟩ := Lowered.bind_eq_ok.mp h
    exact congrArg₂ (Ty.function .dummy u abi) (Ty.raiseAll_lower (0 :: pos) args args' hargs)
      (Ty.raise_lower (1 :: pos) ret ret' hret)

theorem Ty.raiseAll_lower (pos : List Nat) : ∀ (ts : List Ty) (ts' : List Core.Ty),
    Ty.lowerAll ts = .ok ts' → Core.Ty.raiseAll ts' = Ty.rewriteAll normalizing pos ts
  | [], _, h => by
    cases h
    rfl
  | t :: ts, _, h => by
    obtain ⟨t', ht, h⟩ := Lowered.bind_eq_ok.mp h
    obtain ⟨ts', hts, ⟨⟩⟩ := Lowered.bind_eq_ok.mp h
    exact congrArg₂ List.cons (Ty.raise_lower (0 :: pos) t t' ht)
      (Ty.raiseAll_lower (1 :: pos) ts ts' hts)

theorem Ty.raiseNamed_lower (pos : List Nat) : ∀ (ts : List (String × Ty))
    (ts' : List (String × Core.Ty)), Ty.lowerNamed ts = .ok ts' →
    Core.Ty.raiseNamed ts' = Ty.rewriteNamed normalizing pos ts
  | [], _, h => by
    cases h
    rfl
  | (n, t) :: ts, _, h => by
    obtain ⟨t', ht, h⟩ := Lowered.bind_eq_ok.mp h
    obtain ⟨ts', hts, ⟨⟩⟩ := Lowered.bind_eq_ok.mp h
    exact congrArg₂ (fun t ts => (n, t) :: ts) (Ty.raise_lower (0 :: pos) t t' ht)
      (Ty.raiseNamed_lower (1 :: pos) ts ts' hts)

theorem Path.raise_lower (pos : List Nat) : ∀ (p : Path) (p' : Core.Path), p.lower = .ok p' →
    p'.raise = p.rewrite normalizing pos
  | .invalid _, _, h | .localName _ _, _, h | .relative _ _, _, h | .selfRelative _ _, _, h
  | .superRelative _ _ _, _, h | .qualified _ _ _ [], _, h
  | .qualified _ _ _ (.mk _ _ :: _ :: _), _, h => nomatch h
  | .absolute _ c segs, _, h => by
    obtain ⟨_, hcheck, h⟩ := Lowered.bind_eq_ok.mp h
    obtain ⟨args, hargs, ⟨⟩⟩ := Lowered.bind_eq_ok.mp h
    exact congrArg (Path.absolute .dummy c)
      (Segment.raise_lowerLastArgs pos segs args (Segment.checkAbsolute_leading hcheck) hargs)
  | .qualified _ self trait [.mk n args], _, h => by
    obtain ⟨self', hself, h⟩ := Lowered.bind_eq_ok.mp h
    obtain ⟨args', hargs, h⟩ := Lowered.bind_eq_ok.mp h
    obtain ⟨trait', htrait, ⟨⟩⟩ := Lowered.bind_eq_ok.mp h
    have hty := Ty.raise_lower (0 :: pos) self self' hself
    have hlast := GenericArgs.raise_lower (0 :: 2 :: pos) args args' hargs
    have hvia := Path.raiseOpt_lowerPlainOpt (1 :: pos) trait trait' htrait
    simp only [Core.Path.raise, hty, hlast, hvia]
    rfl

theorem Path.raise_lowerPlain (pos : List Nat) : ∀ (p : Path) (p' : Core.AppliedPath),
    p.lowerPlain = .ok p' → p'.raise = p.rewrite normalizing pos
  | .invalid _, _, h | .localName _ _, _, h | .relative _ _, _, h | .selfRelative _ _, _, h
  | .superRelative _ _ _, _, h | .qualified _ _ _ _, _, h => nomatch h
  | .absolute _ c segs, _, h => by
    obtain ⟨_, hcheck, h⟩ := Lowered.bind_eq_ok.mp h
    obtain ⟨args, hargs, ⟨⟩⟩ := Lowered.bind_eq_ok.mp h
    exact congrArg (Path.absolute .dummy c)
      (Segment.raise_lowerLastArgs pos segs args (Segment.checkAbsolute_leading hcheck) hargs)

theorem Path.raiseAll_lowerPlainAll (pos : List Nat) : ∀ (ps : List Path)
    (ps' : List Core.AppliedPath), Path.lowerPlainAll ps = .ok ps' →
    Core.AppliedPath.raiseAll ps' = Path.rewriteAll normalizing pos ps
  | [], _, h => by
    cases h
    rfl
  | p :: ps, _, h => by
    obtain ⟨p', hp, h⟩ := Lowered.bind_eq_ok.mp h
    obtain ⟨ps', hps, ⟨⟩⟩ := Lowered.bind_eq_ok.mp h
    exact congrArg₂ List.cons (Path.raise_lowerPlain (0 :: pos) p p' hp)
      (Path.raiseAll_lowerPlainAll (1 :: pos) ps ps' hps)

theorem Path.raiseOpt_lowerPlainOpt (pos : List Nat) : ∀ (p : Option Path)
    (p' : Option Core.AppliedPath), Path.lowerPlainOpt p = .ok p' →
    Core.AppliedPath.raiseOpt p' = Path.rewriteOpt normalizing pos p
  | none, _, h => by
    cases h
    rfl
  | some p, _, h => by
    obtain ⟨p', hp, ⟨⟩⟩ := Lowered.bind_eq_ok.mp h
    exact congrArg some (Path.raise_lowerPlain pos p p' hp)

theorem Segment.raise_lowerLastArgs (pos : List Nat) : ∀ (segs : List Segment)
    (args : Core.GenericArgs), Segment.leadingWithArgs? segs = none →
    Segment.lowerLastArgs segs = .ok args →
    raiseSegments args.raise (segs.map Segment.name) =
      (Segment.rewriteAll normalizing pos segs).map Segment.withoutLifetimes
  | [], _, _, _ => rfl
  | [.mk n as], args, _, h =>
    congrArg (fun a => [Segment.mk n a]) (GenericArgs.raise_lower (0 :: pos) as args h)
  | .mk n as :: .mk m bs :: segs, args, hlead, h => by
    change (if as.isEmpty then _ else _) = _ at hlead
    split at hlead
    case isTrue hempty =>
      have hrest := Segment.raise_lowerLastArgs (1 :: pos) (.mk m bs :: segs) args hlead h
      exact congrArg₂ (fun a rest => Segment.mk n a :: rest)
        (GenericArgs.normal_of_isEmpty hempty (0 :: pos)).symm hrest
    case isFalse => cases hlead

theorem GenericArgs.raise_lower (pos : List Nat) : ∀ (as : GenericArgs) (args : Core.GenericArgs),
    as.lower = .ok args → args.raise = (as.rewrite normalizing pos).withoutLifetimes
  | .mk _ ts bs, _, h => by
    obtain ⟨ts', hts, h⟩ := Lowered.bind_eq_ok.mp h
    obtain ⟨bs', hbs, ⟨⟩⟩ := Lowered.bind_eq_ok.mp h
    exact congrArg₂ (GenericArgs.mk []) (Ty.raiseAll_lower (0 :: pos) ts ts' hts)
      (Ty.raiseNamed_lower (1 :: pos) bs bs' hbs)

theorem Pattern.raise_lower (pos : List Nat) : ∀ (p : Pattern) (p' : Core.Pattern),
    p.lower = .ok p' → p'.raise = p.rewrite normalizing pos
  | .mk s b k, _, h => by
    obtain ⟨k', hk, ⟨⟩⟩ := Lowered.bind_eq_ok.mp h
    exact congrArg (Pattern.mk .dummy b) (PatternKind.raise_lower pos s k k' hk)

theorem PatternKind.raise_lower (pos : List Nat) (s : Location) : ∀ (k : PatternKind)
    (k' : Core.PatternKind), k.lower s = .ok k' → k'.raise = k.rewrite normalizing pos
  | .any, _, h => by
    cases h
    rfl
  | .maybeBind _, _, h | .macroCall _, _, h => nomatch h
  | .value _, _, h => by
    obtain ⟨l', hl, ⟨⟩⟩ := Lowered.bind_eq_ok.mp h
    exact congrArg PatternKind.value (raise_lowerLiteral hl)
  | .range _ _, _, h => by
    obtain ⟨a', ha, h⟩ := Lowered.bind_eq_ok.mp h
    obtain ⟨b', hb, ⟨⟩⟩ := Lowered.bind_eq_ok.mp h
    exact congrArg₂ PatternKind.range (raise_lowerLiteral ha) (raise_lowerLiteral hb)
  | .tuple ps, _, h => by
    obtain ⟨ps', hps, ⟨⟩⟩ := Lowered.bind_eq_ok.mp h
    exact congrArg PatternKind.tuple (Pattern.raiseAll_lower pos ps ps' hps)
  | .ref k p, _, h => by
    obtain ⟨p', hp, ⟨⟩⟩ := Lowered.bind_eq_ok.mp h
    exact congrArg (PatternKind.ref k) (Pattern.raise_lower pos p p' hp)
  | .tupleStruct q ps, _, h => by
    obtain ⟨q', hq, h⟩ := Lowered.bind_eq_ok.mp h
    obtain ⟨ps', hps, ⟨⟩⟩ := Lowered.bind_eq_ok.mp h
    exact congrArg₂ PatternKind.tupleStruct (Path.raise_lower (0 :: pos) q q' hq)
      (Pattern.raiseAll_lower (1 :: pos) ps ps' hps)
  | .struct q fs x, _, h => by
    obtain ⟨q', hq, h⟩ := Lowered.bind_eq_ok.mp h
    obtain ⟨fs', hfs, ⟨⟩⟩ := Lowered.bind_eq_ok.mp h
    exact congrArg₂ (PatternKind.struct · · x) (Path.raise_lower (0 :: pos) q q' hq)
      (Pattern.raiseNamed_lower (1 :: pos) fs fs' hfs)

theorem Pattern.raiseAll_lower (pos : List Nat) : ∀ (ps : List Pattern)
    (ps' : List Core.Pattern), Pattern.lowerAll ps = .ok ps' →
    Core.Pattern.raiseAll ps' = Pattern.rewriteAll normalizing pos ps
  | [], _, h => by
    cases h
    rfl
  | p :: ps, _, h => by
    obtain ⟨p', hp, h⟩ := Lowered.bind_eq_ok.mp h
    obtain ⟨ps', hps, ⟨⟩⟩ := Lowered.bind_eq_ok.mp h
    exact congrArg₂ List.cons (Pattern.raise_lower (0 :: pos) p p' hp)
      (Pattern.raiseAll_lower (1 :: pos) ps ps' hps)

theorem Pattern.raiseNamed_lower (pos : List Nat) : ∀ (fs : List (String × Pattern))
    (fs' : List (String × Core.Pattern)), Pattern.lowerNamed fs = .ok fs' →
    Core.Pattern.raiseNamed fs' = Pattern.rewriteNamed normalizing pos fs
  | [], _, h => by
    cases h
    rfl
  | (n, p) :: fs, _, h => by
    obtain ⟨p', hp, h⟩ := Lowered.bind_eq_ok.mp h
    obtain ⟨fs', hfs, ⟨⟩⟩ := Lowered.bind_eq_ok.mp h
    exact congrArg₂ (fun p fs => (n, p) :: fs) (Pattern.raise_lower (0 :: pos) p p' hp)
      (Pattern.raiseNamed_lower (1 :: pos) fs fs' hfs)

theorem Expr.raise_lower (pos : List Nat) : ∀ (e : Expr) (t : Term), e.lower = .ok t →
    t.read raising = e.rewrite normalizing pos
  | .macroCall _ _, _, h | .forLoop _ _ _ _ _, _, h => nomatch h
  | .cont _ _, _, h => by
    cases h
    rfl
  | .literal _ _, _, h => by
    obtain ⟨l', hl, ⟨⟩⟩ := Lowered.bind_eq_ok.mp h
    exact congrArg (Expr.literal .dummy) (raise_lowerLiteral hl)
  | .path _ p, _, h => by
    cases p with
    | localName s n =>
      cases h
      rfl
    | _ =>
      obtain ⟨p', hp, ⟨⟩⟩ := Lowered.bind_eq_ok.mp h
      exact congrArg (Expr.path .dummy) (Path.raise_lower (0 :: pos) _ p' hp)
  | .tuple _ es, _, h => by
    obtain ⟨ts, hts, ⟨⟩⟩ := Lowered.bind_eq_ok.mp h
    exact congrArg (Expr.tuple .dummy) (Expr.raiseAll_lower (0 :: pos) es ts hts)
  | .array _ es, _, h => by
    obtain ⟨ts, hts, ⟨⟩⟩ := Lowered.bind_eq_ok.mp h
    exact congrArg (Expr.array .dummy) (Expr.raiseAll_lower (0 :: pos) es ts hts)
  | .block _ ss e, _, h => by
    obtain ⟨ss', hss, h⟩ := Lowered.bind_eq_ok.mp h
    obtain ⟨t, ht, ⟨⟩⟩ := Lowered.bind_eq_ok.mp h
    exact congrArg₂ (Expr.block .dummy) (Stmt.raiseAll_lower (0 :: pos) ss ss' hss)
      (Expr.raiseOpt_lower (1 :: pos) e t ht)
  | .assign _ o a b, _, h => by
    obtain ⟨a', ha, h⟩ := Lowered.bind_eq_ok.mp h
    obtain ⟨b', hb, ⟨⟩⟩ := Lowered.bind_eq_ok.mp h
    exact congrArg₂ (Expr.assign .dummy o) (Expr.raise_lower (0 :: pos) a a' ha)
      (Expr.raise_lower (1 :: pos) b b' hb)
  | .binary _ o a b, _, h => by
    obtain ⟨a', ha, h⟩ := Lowered.bind_eq_ok.mp h
    obtain ⟨b', hb, ⟨⟩⟩ := Lowered.bind_eq_ok.mp h
    exact congrArg₂ (Expr.binary .dummy o) (Expr.raise_lower (0 :: pos) a a' ha)
      (Expr.raise_lower (1 :: pos) b b' hb)
  | .index _ a b, _, h => by
    obtain ⟨a', ha, h⟩ := Lowered.bind_eq_ok.mp h
    obtain ⟨b', hb, ⟨⟩⟩ := Lowered.bind_eq_ok.mp h
    exact congrArg₂ (Expr.index .dummy) (Expr.raise_lower (0 :: pos) a a' ha)
      (Expr.raise_lower (1 :: pos) b b' hb)
  | .unary _ (.value o) a, _, h => by
    obtain ⟨a', ha, ⟨⟩⟩ := Lowered.bind_eq_ok.mp h
    exact congrArg (Expr.unary .dummy (.value o)) (Expr.raise_lower (0 :: pos) a a' ha)
  | .unary _ .deref a, _, h => by
    obtain ⟨a', ha, ⟨⟩⟩ := Lowered.bind_eq_ok.mp h
    exact congrArg (Expr.unary .dummy .deref) (Expr.raise_lower (0 :: pos) a a' ha)
  | .borrow _ k a, _, h => by
    obtain ⟨a', ha, ⟨⟩⟩ := Lowered.bind_eq_ok.mp h
    exact congrArg (Expr.borrow .dummy k) (Expr.raise_lower (0 :: pos) a a' ha)
  | .field _ a n, _, h => by
    obtain ⟨a', ha, ⟨⟩⟩ := Lowered.bind_eq_ok.mp h
    exact congrArg (Expr.field .dummy · n) (Expr.raise_lower (0 :: pos) a a' ha)
  | .loop _ l a, _, h => by
    obtain ⟨a', ha, ⟨⟩⟩ := Lowered.bind_eq_ok.mp h
    exact congrArg (Expr.loop .dummy l) (Expr.raise_lower (0 :: pos) a a' ha)
  | .cast _ a t, _, h => by
    obtain ⟨a', ha, h⟩ := Lowered.bind_eq_ok.mp h
    obtain ⟨t', ht, ⟨⟩⟩ := Lowered.bind_eq_ok.mp h
    exact congrArg₂ (Expr.cast .dummy) (Expr.raise_lower (0 :: pos) a a' ha)
      (Ty.raise_lower (1 :: pos) t t' ht)
  | .callPath _ p es, _, h => by
    cases p with
    -- the callee is written out as a value, as it is lowered
    | localName s n =>
      obtain ⟨ts, hts, ⟨⟩⟩ := Lowered.bind_eq_ok.mp h
      exact congrArg (Expr.callValue .dummy (.path .dummy (.localName .dummy n)))
        (Expr.raiseAll_lower (1 :: pos) es ts hts)
    | _ =>
      obtain ⟨p', hp, h⟩ := Lowered.bind_eq_ok.mp h
      obtain ⟨ts, hts, ⟨⟩⟩ := Lowered.bind_eq_ok.mp h
      exact congrArg₂ (Expr.callPath .dummy) (Path.raise_lower (0 :: pos) _ p' hp)
        (Expr.raiseAll_lower (1 :: pos) es ts hts)
  | .callMethod _ a m es, _, h => by
    obtain ⟨a', ha, h⟩ := Lowered.bind_eq_ok.mp h
    obtain ⟨ts, hts, ⟨⟩⟩ := Lowered.bind_eq_ok.mp h
    exact congrArg₂ (Expr.callMethod .dummy · m ·) (Expr.raise_lower (0 :: pos) a a' ha)
      (Expr.raiseAll_lower (1 :: pos) es ts hts)
  | .callValue _ a es, _, h => by
    obtain ⟨a', ha, h⟩ := Lowered.bind_eq_ok.mp h
    obtain ⟨ts, hts, ⟨⟩⟩ := Lowered.bind_eq_ok.mp h
    exact congrArg₂ (Expr.callValue .dummy) (Expr.raise_lower (0 :: pos) a a' ha)
      (Expr.raiseAll_lower (1 :: pos) es ts hts)
  | .structLiteral _ p fs b, _, h => by
    obtain ⟨p', hp, h⟩ := Lowered.bind_eq_ok.mp h
    obtain ⟨fs', hfs, h⟩ := Lowered.bind_eq_ok.mp h
    obtain ⟨t, ht, ⟨⟩⟩ := Lowered.bind_eq_ok.mp h
    have hpath := Path.raise_lower (0 :: pos) p p' hp
    have hfields := Expr.raiseNamed_lower (1 :: pos) fs fs' hfs
    have hbase := Expr.raiseOpt_lower (2 :: pos) b t ht
    exact congr (congrArg₂ (Expr.structLiteral .dummy) hpath hfields) hbase
  | .ifElse _ c b e, _, h => by
    obtain ⟨c', hc, h⟩ := Lowered.bind_eq_ok.mp h
    obtain ⟨b', hb, h⟩ := Lowered.bind_eq_ok.mp h
    obtain ⟨e', he, ⟨⟩⟩ := Lowered.bind_eq_ok.mp h
    have hcond := Expr.raise_lower (0 :: pos) c c' hc
    have hthen := Expr.raise_lower (1 :: pos) b b' hb
    have helse := Expr.raiseOpt_lower (2 :: pos) e e' he
    exact congr (congrArg₂ (Expr.ifElse .dummy) hcond hthen) helse
  | .ifLet _ p v b e, _, h => by
    obtain ⟨v', hv, h⟩ := Lowered.bind_eq_ok.mp h
    obtain ⟨p', hp, h⟩ := Lowered.bind_eq_ok.mp h
    obtain ⟨b', hb, h⟩ := Lowered.bind_eq_ok.mp h
    obtain ⟨e', he, ⟨⟩⟩ := Lowered.bind_eq_ok.mp h
    have hpattern := Pattern.raise_lower (0 :: pos) p p' hp
    have hvalue := Expr.raise_lower (1 :: pos) v v' hv
    have hthen := Expr.raise_lower (2 :: pos) b b' hb
    have helse := Expr.raiseOpt_lower (3 :: pos) e e' he
    rw [read_ifLet, hpattern, hvalue, hthen, helse]
    rfl
  | .matchOn _ v as, _, h => by
    obtain ⟨v', hv, h⟩ := Lowered.bind_eq_ok.mp h
    obtain ⟨as', has, ⟨⟩⟩ := Lowered.bind_eq_ok.mp h
    exact congrArg₂ (Expr.matchOn .dummy) (Expr.raise_lower (0 :: pos) v v' hv)
      (Arm.raiseAll_lower (1 :: pos) as as' has)
  | .whileLoop _ l c b, _, h => by
    obtain ⟨c', hc, h⟩ := Lowered.bind_eq_ok.mp h
    obtain ⟨b', hb, ⟨⟩⟩ := Lowered.bind_eq_ok.mp h
    have hcond := Expr.raise_lower (0 :: pos) c c' hc
    have hbody := Expr.raise_lower (1 :: pos) b b' hb
    rw [read_whileLoop, hcond, hbody]
    rfl
  | .whileLet _ l p v b, _, h => by
    obtain ⟨v', hv, h⟩ := Lowered.bind_eq_ok.mp h
    obtain ⟨p', hp, h⟩ := Lowered.bind_eq_ok.mp h
    obtain ⟨b', hb, ⟨⟩⟩ := Lowered.bind_eq_ok.mp h
    have hpattern := Pattern.raise_lower (0 :: pos) p p' hp
    have hvalue := Expr.raise_lower (1 :: pos) v v' hv
    have hbody := Expr.raise_lower (2 :: pos) b b' hb
    rw [read_whileLet, hpattern, hvalue, hbody]
    rfl
  | .ret _ v, _, h => by
    obtain ⟨v', hv, ⟨⟩⟩ := Lowered.bind_eq_ok.mp h
    exact congrArg (Expr.ret .dummy) (Expr.raiseOpt_lower (0 :: pos) v v' hv)
  | .brk _ l v, _, h => by
    obtain ⟨v', hv, ⟨⟩⟩ := Lowered.bind_eq_ok.mp h
    exact congrArg (Expr.brk .dummy l) (Expr.raiseOpt_lower (0 :: pos) v v' hv)

theorem Expr.raiseNamed_lower (pos : List Nat) : ∀ (fs : List (String × Expr))
    (ts : List (String × Term)), Expr.lowerNamed fs = .ok ts →
    Term.readFields raising ts = Expr.rewriteNamed normalizing pos fs
  | [], _, h => by
    cases h
    rfl
  | (n, e) :: fs, _, h => by
    obtain ⟨t, ht, h⟩ := Lowered.bind_eq_ok.mp h
    obtain ⟨ts, hts, ⟨⟩⟩ := Lowered.bind_eq_ok.mp h
    exact congrArg₂ (fun e fs => (n, e) :: fs) (Expr.raise_lower (0 :: pos) e t ht)
      (Expr.raiseNamed_lower (1 :: pos) fs ts hts)

theorem Expr.raiseAll_lower (pos : List Nat) : ∀ (es : List Expr) (ts : List Term),
    Expr.lowerAll es = .ok ts → Term.readAll raising ts = Expr.rewriteAll normalizing pos es
  | [], _, h => by
    cases h
    rfl
  | e :: es, _, h => by
    obtain ⟨t, ht, h⟩ := Lowered.bind_eq_ok.mp h
    obtain ⟨ts, hts, ⟨⟩⟩ := Lowered.bind_eq_ok.mp h
    exact congrArg₂ List.cons (Expr.raise_lower (0 :: pos) e t ht)
      (Expr.raiseAll_lower (1 :: pos) es ts hts)

theorem Expr.raiseOpt_lower (pos : List Nat) : ∀ (e : Option Expr) (t : Option Term),
    Expr.lowerOpt e = .ok t → Term.readOpt raising t = Expr.rewriteOpt normalizing pos e
  | none, _, h => by
    cases h
    rfl
  | some e, _, h => by
    obtain ⟨t, ht, ⟨⟩⟩ := Lowered.bind_eq_ok.mp h
    exact congrArg some (Expr.raise_lower pos e t ht)

theorem Expr.raiseOpt_lowerBodyOpt (pos : List Nat) : ∀ (e : Option Expr) (b : Option Core.Body),
    Expr.lowerBodyOpt e = .ok b → Core.Body.raiseOpt b = Expr.rewriteOpt normalizing pos e
  | none, _, h => by
    cases h
    rfl
  | some e, _, h => by
    obtain ⟨t, ht, ⟨⟩⟩ := Lowered.bind_eq_ok.mp h
    exact congrArg some (t.raise_body.trans (Expr.raise_lower pos e t ht))

theorem Stmt.raiseAll_lower (pos : List Nat) : ∀ (ss : List Stmt) (ts : List TermStmt),
    Stmt.lowerAll ss = .ok ts → TermStmt.readAll raising ts = Stmt.rewriteAll normalizing pos ss
  | [], _, h => by
    cases h
    rfl
  | s :: ss, _, h => by
    obtain ⟨t, ht, h⟩ := Lowered.bind_eq_ok.mp h
    obtain ⟨ts, hts, ⟨⟩⟩ := Lowered.bind_eq_ok.mp h
    exact congrArg₂ List.cons (Stmt.raise_lower (0 :: pos) s t ht)
      (Stmt.raiseAll_lower (1 :: pos) ss ts hts)

theorem Stmt.raise_lower (pos : List Nat) : ∀ (s : Stmt) (t : TermStmt), s.lower = .ok t →
    t.read raising = s.rewrite normalizing pos
  | .letIn _ p t v, _, h => by
    obtain ⟨p', hp, h⟩ := Lowered.bind_eq_ok.mp h
    obtain ⟨t', ht, h⟩ := Lowered.bind_eq_ok.mp h
    obtain ⟨v', hv, ⟨⟩⟩ := Lowered.bind_eq_ok.mp h
    have hpattern := Pattern.raise_lower (0 :: pos) p p' hp
    have hty := Ty.raise_lower (1 :: pos) t t' ht
    have hvalue := Expr.raiseOpt_lower (2 :: pos) v v' hv
    exact congr (congrArg₂ (Stmt.letIn .dummy) hpattern hty) hvalue
  | .expr e, _, h => by
    obtain ⟨t, ht, ⟨⟩⟩ := Lowered.bind_eq_ok.mp h
    exact congrArg Stmt.expr (Expr.raise_lower pos e t ht)

theorem Arm.raiseAll_lower (pos : List Nat) : ∀ (as : List Arm)
    (as' : List (Core.Arm Core.Pattern Term)), Arm.lowerAll as = .ok as' →
    ((Term.readArms raising as').map (·.mapPatterns Core.Pattern.raise)).map Core.Arm.raise =
      Arm.rewriteAll normalizing pos as
  | [], _, h => by
    cases h
    rfl
  | .mk ps g b :: as, _, h => by
    obtain ⟨a', ha, h⟩ := Lowered.bind_eq_ok.mp h
    obtain ⟨as', has, ⟨⟩⟩ := Lowered.bind_eq_ok.mp h
    obtain ⟨ps', hps, ha⟩ := Lowered.bind_eq_ok.mp ha
    obtain ⟨g', hg, ha⟩ := Lowered.bind_eq_ok.mp ha
    obtain ⟨b', hb, ⟨⟩⟩ := Lowered.bind_eq_ok.mp ha
    have hpatterns := Pattern.raiseAll_lower (0 :: 0 :: pos) ps ps' hps
    have hguard := Expr.raiseOpt_lower (1 :: 0 :: pos) g g' hg
    have hbody := Expr.raise_lower (2 :: 0 :: pos) b b' hb
    rw [Core.Pattern.raiseAll_eq] at hpatterns
    exact congrArg₂ List.cons (congr (congrArg₂ Arm.mk hpatterns hguard) hbody)
      (Arm.raiseAll_lower (1 :: pos) as as' has)

end

/-- Lowering forgets only what the normal form leaves out: raising what a type, a
path, a pattern or an expression lowers to gives its normal form, and nothing of
another normal form lowers to the same. -/
theorem raise_lowered :
    (∀ (t : Ty) (t' : Core.Ty), t.lower = .ok t' →
      t'.raise = t.normal ∧ ∀ u : Ty, u.lower = .ok t' → u.normal = t.normal) ∧
    (∀ (p : Path) (p' : Core.Path), p.lower = .ok p' →
      p'.raise = p.normal ∧ ∀ q : Path, q.lower = .ok p' → q.normal = p.normal) ∧
    (∀ (p : Path) (p' : Core.AppliedPath), p.lowerPlain = .ok p' →
      p'.raise = p.normal ∧ ∀ q : Path, q.lowerPlain = .ok p' → q.normal = p.normal) ∧
    (∀ (p : Pattern) (p' : Core.Pattern), p.lower = .ok p' →
      p'.raise = p.normal ∧ ∀ q : Pattern, q.lower = .ok p' → q.normal = p.normal) ∧
    (∀ (e : Expr) (b : Core.Body), e.lowerBody = .ok b →
      b.raise = e.normal ∧ ∀ f : Expr, f.lowerBody = .ok b → f.normal = e.normal) := by
  have hbody : ∀ (e : Expr) (b : Core.Body), e.lowerBody = .ok b → b.raise = e.normal := by
    intro e b h
    obtain ⟨t, ht, ⟨⟩⟩ := Lowered.bind_eq_ok.mp h
    exact t.raise_body.trans (Expr.raise_lower [] e t ht)
  refine ⟨fun t t' h => ?_, fun p p' h => ?_, fun p p' h => ?_, fun p p' h => ?_, fun e b h => ?_⟩
  · have ht := Ty.raise_lower [] t t' h
    exact ⟨ht, fun u hu => (Ty.raise_lower [] u t' hu).symm.trans ht⟩
  · have hp := Path.raise_lower [] p p' h
    exact ⟨hp, fun q hq => (Path.raise_lower [] q p' hq).symm.trans hp⟩
  · have hp := Path.raise_lowerPlain [] p p' h
    exact ⟨hp, fun q hq => (Path.raise_lowerPlain [] q p' hq).symm.trans hp⟩
  · have hp := Pattern.raise_lower [] p p' h
    exact ⟨hp, fun q hq => (Pattern.raise_lower [] q p' hq).symm.trans hp⟩
  · exact ⟨hbody e b h, fun f hf => (hbody f b hf).symm.trans (hbody e b h)⟩

/-- The expression `x as ::"std"::Vec<'a, [(); 'b: while y(x) {}]>`, in a given
place. -/
def castToSized (s : Location) : Expr :=
  let x : Expr := .path s (.localName s "x")
  let size : Expr := .whileLoop s (some "b") (.callPath s (.localName s "y") [x]) (.block s [] none)
  let elem : Ty := .array s (.unit s) (some size)
  .cast s x (.path s (.absolute s "std" [.mk "Vec" (.mk ["a"] [elem] [])]))

/-- The expression `x as ::"std"::Vec<[(); 'b: loop { if (y)(x) {} else { break 'b } }]>`
with the empty tuple for the unit type, nowhere in particular. -/
def castToSizedNormal : Expr :=
  let x : Expr := .path .dummy (.localName .dummy "x")
  let cond : Expr := .callValue .dummy (.path .dummy (.localName .dummy "y")) [x]
  let exit : Expr := .block .dummy [] (some (.brk .dummy (some "b") none))
  let size : Expr := .loop .dummy (some "b") (.block .dummy []
    (some (.ifElse .dummy cond (.block .dummy [] none) (some exit))))
  let elem : Ty := .array .dummy (.tuple .dummy []) (some size)
  .cast .dummy x (.path .dummy (.absolute .dummy "std" [.mk "Vec" (.mk [] [elem] [])]))

theorem castToSized_raised : ∃ b, (castToSized ⟨⟨3⟩, ⟨1, 9⟩⟩).lowerBody = .ok b ∧
    b.raise = castToSizedNormal := by
  refine ⟨_, rfl, ?_⟩
  exact (raise_lowered.2.2.2.2 (castToSized ⟨⟨3⟩, ⟨1, 9⟩⟩) _ rfl).1

end Lowering.Surface
