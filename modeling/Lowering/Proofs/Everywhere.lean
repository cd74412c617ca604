import Lowering.Proofs.Allocation
import Lowering.Proofs.Steps

/-!
# What lowering gives, everywhere

A property that every lowered type, path, pattern and body has by itself, whatever
stands inside it, holds everywhere in them: what stands inside a lowered fragment
was lowered too. The few fragments that lowering makes up, the arguments of a path
without any and the wildcard of an added arm, are also what some surface form
lowers to.
-/

namespace Lowering.Surface

open Lowering.Core (Term TermStmt Fragment)
open Lowering.Core.Fragment (Everywhere)

/-- Every fragment that lowering gives has the property `P`. -/
structure Gives (P : Fragment → Prop) : Prop where
  ty : ∀ {t : Ty} {t' : Core.Ty}, t.lower = .ok t' → P (.ty t')
  args : ∀ {a : GenericArgs} {a' : Core.GenericArgs}, a.lower = .ok a' → P (.args a')
  applied : ∀ {p : Path} {p' : Core.AppliedPath}, p.lowerPlain = .ok p' → P (.applied p')
  path : ∀ {p : Path} {p' : Core.Path}, p.lower = .ok p' → P (.path p')
  pattern : ∀ {p : Pattern} {p' : Core.Pattern}, p.lower = .ok p' → P (.pattern p')
  kind : ∀ {s : Location} {k : PatternKind} {k' : Core.PatternKind}, k.lower s = .ok k' →
    P (.kind k')
  body : ∀ {e : Expr} {b : Core.Body}, e.lowerBody = .ok b → P (.body b)

namespace Gives

variable {P : Fragment → Prop} (hP : Gives P)

include hP

theorem noArgs : Everywhere P (.args .none) :=
  .of_parts (hP.args (a := .mk [] [] []) rfl) (List.forall_mem_nil _)

theorem wildcard : Everywhere P (.pattern .wildcard) := by
  refine .of_parts (hP.pattern (p := .mk .dummy none .any) rfl) (List.forall_mem_singleton.mpr ?_)
  exact .of_parts (hP.kind (s := .dummy) (k := .any) rfl) (List.forall_mem_nil _)

theorem termBody {e : Expr} {t : Term} (h : e.lower = .ok t) (ht : t.All (Everywhere P)) :
    Everywhere P (.body t.body) :=
  .of_parts (hP.body (e := e) (by rw [Expr.lowerBody, h]; rfl)) ht.body_parts

end Gives

section

variable {P : Fragment → Prop} (hP : Gives P)

include hP

set_option linter.unusedSectionVars false

mutual

theorem Ty.lower_everywhere : ∀ (t : Ty) (t' : Core.Ty), t.lower = .ok t' →
    Everywhere P (.ty t')
  | .omitted _, _, h | .macroCall _ _, _, h => nomatch h
  | .infer _, _, h | .unit _, _, h | .param _ _, _, h =>
    .of_parts (hP.ty h) (by cases h; exact List.forall_mem_nil _)
  | .primitive _ c, _, h => by
    refine .of_parts (hP.ty h) ?_
    obtain ⟨_, -, ⟨⟩⟩ := Lowered.bind_eq_ok.mp h
    exact List.forall_mem_nil _
  | .tuple _ ts, _, h => by
    refine .of_parts (hP.ty h) ?_
    obtain ⟨ts', hts, ⟨⟩⟩ := Lowered.bind_eq_ok.mp h
    exact List.forall_mem_map.mpr (Ty.lowerAll_everywhere ts ts' hts)
  | .borrow _ _ t, _, h | .pointer _ _ t, _, h => by
    refine .of_parts (hP.ty h) ?_
    obtain ⟨t', ht, ⟨⟩⟩ := Lowered.bind_eq_ok.mp h
    exact List.forall_mem_singleton.mpr (Ty.lower_everywhere t t' ht)
  | .array _ t e, _, h => by
    refine .of_parts (hP.ty h) ?_
    obtain ⟨t', ht, h⟩ := Lowered.bind_eq_ok.mp h
    obtain ⟨b, hb, ⟨⟩⟩ := Lowered.bind_eq_ok.mp h
    have hinner := Ty.lower_everywhere t t' ht
    have hsize := Expr.lowerBodyOpt_everywhere e b hb
    exact List.forall_mem_cons.mpr ⟨hinner, List.forall_mem_map.mpr hsize⟩
  | .path _ p, _, h => by
    refine .of_parts (hP.ty h) ?_
    obtain ⟨p', hp, ⟨⟩⟩ := Lowered.bind_eq_ok.mp h
    exact List.forall_mem_singleton.mpr (Path.lower_everywhere p p' hp)
  | .traitObject _ ls ps, _, h => by
    refine .of_parts (hP.ty h) ?_
    obtain ⟨-, ps', hps, rfl⟩ := Ty.lower_traitObject h
    exact List.forall_mem_map.mpr (Path.lowerPlainAll_everywhere ps ps' hps)
  | .function _ _ _ ts t, _, h => by
    refine .of_parts (hP.ty h) ?_
    obtain ⟨ts', hts, h⟩ := Lowered.bind_eq_ok.mp h
    obtain ⟨t', ht, ⟨⟩⟩ := Lowered.bind_eq_ok.mp h
    have hargs := Ty.lowerAll_everywhere ts ts' hts
    have hret := Ty.lower_everywhere t t' ht
    exact List.forall_mem_append.mpr
      ⟨List.forall_mem_map.mpr hargs, List.forall_mem_singleton.mpr hret⟩

theorem Ty.lowerAll_everywhere : ∀ (ts : List Ty) (ts' : List Core.Ty), Ty.lowerAll ts = .ok ts' →
    ∀ t ∈ ts', Everywhere P (.ty t)
  | [], _, h => by cases h; exact List.forall_mem_nil _
  | t :: ts, _, h => by
    obtain ⟨t', ht, h⟩ := Lowered.bind_eq_ok.mp h
    obtain ⟨ts', hts, ⟨⟩⟩ := Lowered.bind_eq_ok.mp h
    exact List.forall_mem_cons.mpr ⟨Ty.lower_everywhere t t' ht, Ty.lowerAll_everywhere ts ts' hts⟩

theorem Ty.lowerNamed_everywhere : ∀ (ts : List (String × Ty)) (ts' : List (String × Core.Ty)),
    Ty.lowerNamed ts = .ok ts' → ∀ b ∈ ts', Everywhere P (.ty b.2)
  | [], _, h => by cases h; exact List.forall_mem_nil _
  | (_, t) :: ts, _, h => by
    obtain ⟨t', ht, h⟩ := Lowered.bind_eq_ok.mp h
    obtain ⟨ts', hts, ⟨⟩⟩ := Lowered.bind_eq_ok.mp h
    exact List.forall_mem_cons.mpr
      ⟨Ty.lower_everywhere t t' ht, Ty.lowerNamed_everywhere ts ts' hts⟩

theorem Path.lower_everywhere : ∀ (p : Path) (p' : Core.Path), p.lower = .ok p' →
    Everywhere P (.path p')
  | .invalid _, _, h | .localName _ _, _, h | .relative _ _, _, h | .selfRelative _ _, _, h
  | .superRelative _ _ _, _, h | .qualified _ _ _ [], _, h
  | .qualified _ _ _ (.mk _ _ :: _ :: _), _, h => nomatch h
  | .absolute _ _ segs, _, h => by
    refine .of_parts (hP.path h) ?_
    obtain ⟨args, hplain, hargs, rfl⟩ := Path.lower_absolute h
    have hlast := Segment.lowerLastArgs_everywhere segs args hargs
    refine List.forall_mem_singleton.mpr (.of_parts (hP.applied hplain) ?_)
    exact List.forall_mem_singleton.mpr hlast
  | .qualified _ self trait [.mk _ args], _, h => by
    refine .of_parts (hP.path h) ?_
    obtain ⟨self', hself, h⟩ := Lowered.bind_eq_ok.mp h
    obtain ⟨args', hargs, h⟩ := Lowered.bind_eq_ok.mp h
    obtain ⟨trait', htrait, ⟨⟩⟩ := Lowered.bind_eq_ok.mp h
    have hty := Ty.lower_everywhere self self' hself
    have hlast := GenericArgs.lower_everywhere args args' hargs
    have hvia := Path.lowerPlainOpt_everywhere trait trait' htrait
    exact List.forall_mem_cons.mpr
      ⟨hty, List.forall_mem_cons.mpr ⟨hlast, List.forall_mem_map.mpr hvia⟩⟩

theorem Path.lowerPlain_everywhere : ∀ (p : Path) (p' : Core.AppliedPath), p.lowerPlain = .ok p' →
    Everywhere P (.applied p')
  | .invalid _, _, h | .localName _ _, _, h | .relative _ _, _, h | .selfRelative _ _, _, h
  | .superRelative _ _ _, _, h | .qualified _ _ _ _, _, h => nomatch h
  | .absolute _ _ segs, _, h => by
    refine .of_parts (hP.applied h) ?_
    obtain ⟨_, -, h⟩ := Lowered.bind_eq_ok.mp h
    obtain ⟨args, hargs, ⟨⟩⟩ := Lowered.bind_eq_ok.mp h
    exact List.forall_mem_singleton.mpr (Segment.lowerLastArgs_everywhere segs args hargs)

theorem Path.lowerPlainAll_everywhere : ∀ (ps : List Path) (ps' : List Core.AppliedPath),
    Path.lowerPlainAll ps = .ok ps' → ∀ p ∈ ps', Everywhere P (.applied p)
  | [], _, h => by cases h; exact List.forall_mem_nil _
  | p :: ps, _, h => by
    obtain ⟨p', hp, h⟩ := Lowered.bind_eq_ok.mp h
    obtain ⟨ps', hps, ⟨⟩⟩ := Lowered.bind_eq_ok.mp h
    exact List.forall_mem_cons.mpr
      ⟨Path.lowerPlain_everywhere p p' hp, Path.lowerPlainAll_everywhere ps ps' hps⟩

theorem Path.lowerPlainOpt_everywhere : ∀ (p : Option Path) (p' : Option Core.AppliedPath),
    Path.lowerPlainOpt p = .ok p' → ∀ q ∈ p'.toList, Everywhere P (.applied q)
  | none, _, h => by cases h; exact List.forall_mem_nil _
  | some p, _, h => by
    obtain ⟨p', hp, ⟨⟩⟩ := Lowered.bind_eq_ok.mp h
    exact List.forall_mem_singleton.mpr (Path.lowerPlain_everywhere p p' hp)

theorem Segment.lowerLastArgs_everywhere : ∀ (segs : List Segment) (args : Core.GenericArgs),
    Segment.lowerLastArgs segs = .ok args → Everywhere P (.args args)
  | [], _, h => by cases h; exact hP.noArgs
  | [.mk _ as], args, h => GenericArgs.lower_everywhere as args h
  | .mk _ _ :: seg :: segs, args, h => Segment.lowerLastArgs_everywhere (seg :: segs) args h

theorem GenericArgs.lower_everywhere : ∀ (as : GenericArgs) (args : Core.GenericArgs),
    as.lower = .ok args → Everywhere P (.args args)
  | .mk _ ts bs, _, h => by
    refine .of_parts (hP.args h) ?_
    obtain ⟨ts', hts, h⟩ := Lowered.bind_eq_ok.mp h
    obtain ⟨bs', hbs, ⟨⟩⟩ := Lowered.bind_eq_ok.mp h
    have htypes := Ty.lowerAll_everywhere ts ts' hts
    have hbound := Ty.lowerNamed_everywhere bs bs' hbs
    exact List.forall_mem_append.mpr
      ⟨List.forall_mem_map.mpr htypes, List.forall_mem_map.mpr hbound⟩

theorem Pattern.lower_everywhere : ∀ (p : Pattern) (p' : Core.Pattern), p.lower = .ok p' →
    Everywhere P (.pattern p')
  | .mk s _ k, _, h => by
    refine .of_parts (hP.pattern h) ?_
    obtain ⟨k', hk, ⟨⟩⟩ := Lowered.bind_eq_ok.mp h
    exact List.forall_mem_singleton.mpr (PatternKind.lower_everywhere s k k' hk)

theorem PatternKind.lower_everywhere (s : Location) : ∀ (k : PatternKind) (k' : Core.PatternKind),
    k.lower s = .ok k' → Everywhere P (.kind k')
  | .any, _, h => .of_parts (hP.kind h) (by cases h; exact List.forall_mem_nil _)
  | .maybeBind _, _, h | .macroCall _, _, h => nomatch h
  | .value _, _, h => by
    refine .of_parts (hP.kind h) ?_
    obtain ⟨_, -, ⟨⟩⟩ := Lowered.bind_eq_ok.mp h
    exact List.forall_mem_nil _
  | .range _ _, _, h => by
    refine .of_parts (hP.kind h) ?_
    obtain ⟨_, -, h⟩ := Lowered.bind_eq_ok.mp h
    obtain ⟨_, -, ⟨⟩⟩ := Lowered.bind_eq_ok.mp h
    exact List.forall_mem_nil _
  | .tuple ps, _, h => by
    refine .of_parts (hP.kind h) ?_
    obtain ⟨ps', hps, ⟨⟩⟩ := Lowered.bind_eq_ok.mp h
    exact List.forall_mem_map.mpr (Pattern.lowerAll_everywhere ps ps' hps)
  | .ref _ p, _, h => by
    refine .of_parts (hP.kind h) ?_
    obtain ⟨p', hp, ⟨⟩⟩ := Lowered.bind_eq_ok.mp h
    exact List.forall_mem_singleton.mpr (Pattern.lower_everywhere p p' hp)
  | .tupleStruct q ps, _, h => by
    refine .of_parts (hP.kind h) ?_
    obtain ⟨q', hq, h⟩ := Lowered.bind_eq_ok.mp h
    obtain ⟨ps', hps, ⟨⟩⟩ := Lowered.bind_eq_ok.mp h
    have hpath := Path.lower_everywhere q q' hq
    have hinner := Pattern.lowerAll_everywhere ps ps' hps
    exact List.forall_mem_cons.mpr ⟨hpath, List.forall_mem_map.mpr hinner⟩
  | .struct q fs _, _, h => by
    refine .of_parts (hP.kind h) ?_
    obtain ⟨q', hq, h⟩ := Lowered.bind_eq_ok.mp h
    obtain ⟨fs', hfs, ⟨⟩⟩ := Lowered.bind_eq_ok.mp h
    have hpath := Path.lower_everywhere q q' hq
    have hinner := Pattern.lowerNamed_everywhere fs fs' hfs
    exact List.forall_mem_cons.mpr ⟨hpath, List.forall_mem_map.mpr hinner⟩

theorem Pattern.lowerAll_everywhere : ∀ (ps : List Pattern) (ps' : List Core.Pattern),
    Pattern.lowerAll ps = .ok ps' → ∀ p ∈ ps', Everywhere P (.pattern p)
  | [], _, h => by cases h; exact List.forall_mem_nil _
  | p :: ps, _, h => by
    obtain ⟨p', hp, h⟩ := Lowered.bind_eq_ok.mp h
    obtain ⟨ps', hps, ⟨⟩⟩ := Lowered.bind_eq_ok.mp h
    exact List.forall_mem_cons.mpr
      ⟨Pattern.lower_everywhere p p' hp, Pattern.lowerAll_everywhere ps ps' hps⟩

theorem Pattern.lowerNamed_everywhere : ∀ (fs : List (String × Pattern))
    (fs' : List (String × Core.Pattern)), Pattern.lowerNamed fs = .ok fs' →
    ∀ f ∈ fs', Everywhere P (.pattern f.2)
  | [], _, h => by cases h; exact List.forall_mem_nil _
  | (_, p) :: fs, _, h => by
    obtain ⟨p', hp, h⟩ := Lowered.bind_eq_ok.mp h
    obtain ⟨fs', hfs, ⟨⟩⟩ := Lowered.bind_eq_ok.mp h
    exact List.forall_mem_cons.mpr
      ⟨Pattern.lower_everywhere p p' hp, Pattern.lowerNamed_everywhere fs fs' hfs⟩

theorem Expr.lower_all : ∀ (e : Expr) (t : Term), e.lower = .ok t → t.All (Everywhere P)
  | .macroCall _ _, _, h | .forLoop _ _ _ _ _, _, h => nomatch h
  | .cont _ _, _, h => by cases h; exact .ofChildren rfl rfl (List.forall_mem_nil _)
  | .literal _ _, _, h => by
    obtain ⟨_, -, ⟨⟩⟩ := Lowered.bind_eq_ok.mp h
    exact .ofChildren rfl rfl (List.forall_mem_nil _)
  | .path _ p, _, h => by
    rcases Expr.lower_path h with ⟨n, -, rfl⟩ | ⟨-, p', hp, rfl⟩
    · exact .ofChildren rfl rfl (List.forall_mem_nil _)
    · exact .mk (List.forall_mem_singleton.mpr (Path.lower_everywhere p p' hp))
        (List.forall_mem_nil _) (List.forall_mem_nil _)
  | .tuple _ es, _, h | .array _ es, _, h => by
    obtain ⟨ts, hts, ⟨⟩⟩ := Lowered.bind_eq_ok.mp h
    exact .ofChildren rfl rfl (Expr.lowerAll_all es ts hts)
  | .block _ ss e, _, h => by
    obtain ⟨ss', hss, h⟩ := Lowered.bind_eq_ok.mp h
    obtain ⟨t, ht, ⟨⟩⟩ := Lowered.bind_eq_ok.mp h
    exact .mk (List.forall_mem_nil _) (Expr.lowerOpt_all e t ht) (Stmt.lowerAll_all ss ss' hss)
  | .assign _ _ a b, _, h | .binary _ _ a b, _, h | .index _ a b, _, h => by
    obtain ⟨a', ha, h⟩ := Lowered.bind_eq_ok.mp h
    obtain ⟨b', hb, ⟨⟩⟩ := Lowered.bind_eq_ok.mp h
    have hleft := Expr.lower_all a a' ha
    have hright := Expr.lower_all b b' hb
    exact .ofChildren rfl rfl (by simp [Core.Node.children, hleft, hright])
  | .unary _ (.value _) a, _, h | .unary _ .deref a, _, h | .borrow _ _ a, _, h
  | .field _ a _, _, h | .loop _ _ a, _, h => by
    obtain ⟨a', ha, ⟨⟩⟩ := Lowered.bind_eq_ok.mp h
    exact .ofChildren rfl rfl (List.forall_mem_singleton.mpr (Expr.lower_all a a' ha))
  | .cast _ a t, _, h => by
    obtain ⟨a', ha, h⟩ := Lowered.bind_eq_ok.mp h
    obtain ⟨t', ht, ⟨⟩⟩ := Lowered.bind_eq_ok.mp h
    have hinner := Expr.lower_all a a' ha
    have hty := Ty.lower_everywhere t t' ht
    exact .mk (List.forall_mem_singleton.mpr hty) (List.forall_mem_singleton.mpr hinner)
      (List.forall_mem_nil _)
  | .callPath _ p es, _, h => by
    obtain ⟨ts, hts, ⟨n, -, rfl⟩ | ⟨-, p', hp, rfl⟩⟩ := Expr.lower_callPath h
    · have hlocal : Term.All (Everywhere P) (.mk (.localVar n)) :=
        .ofChildren rfl rfl (List.forall_mem_nil _)
      have hargs := Expr.lowerAll_all es ts hts
      exact .ofChildren rfl rfl (List.forall_mem_cons.mpr ⟨hlocal, hargs⟩)
    · have hpath := Path.lower_everywhere p p' hp
      have hargs := Expr.lowerAll_all es ts hts
      exact .mk (List.forall_mem_singleton.mpr hpath) hargs (List.forall_mem_nil _)
  | .callMethod _ a _ es, _, h | .callValue _ a es, _, h => by
    obtain ⟨a', ha, h⟩ := Lowered.bind_eq_ok.mp h
    obtain ⟨ts, hts, ⟨⟩⟩ := Lowered.bind_eq_ok.mp h
    have hfirst := Expr.lower_all a a' ha
    have hargs := Expr.lowerAll_all es ts hts
    exact .ofChildren rfl rfl (List.forall_mem_cons.mpr ⟨hfirst, hargs⟩)
  | .structLiteral _ p fs b, _, h => by
    obtain ⟨p', hp, h⟩ := Lowered.bind_eq_ok.mp h
    obtain ⟨fs', hfs, h⟩ := Lowered.bind_eq_ok.mp h
    obtain ⟨t, ht, ⟨⟩⟩ := Lowered.bind_eq_ok.mp h
    have hpath := Path.lower_everywhere p p' hp
    have hfields := List.forall_mem_map.mpr (Expr.lowerNamed_all fs fs' hfs)
    have hbase := Expr.lowerOpt_all b t ht
    exact .mk (List.forall_mem_singleton.mpr hpath)
      (List.forall_mem_append.mpr ⟨hfields, hbase⟩) (List.forall_mem_nil _)
  | .ifElse _ c b e, _, h => by
    obtain ⟨c', hc, h⟩ := Lowered.bind_eq_ok.mp h
    obtain ⟨b', hb, h⟩ := Lowered.bind_eq_ok.mp h
    obtain ⟨e', he, ⟨⟩⟩ := Lowered.bind_eq_ok.mp h
    have hcond := Expr.lower_all c c' hc
    have hthen := Expr.lower_all b b' hb
    have helse := Expr.lowerOpt_all e e' he
    exact .ofChildren rfl rfl
      (List.forall_mem_cons.mpr ⟨hcond, List.forall_mem_cons.mpr ⟨hthen, helse⟩⟩)
  | .ifLet _ p v b e, _, h => by
    obtain ⟨v', hv, h⟩ := Lowered.bind_eq_ok.mp h
    obtain ⟨p', hp, h⟩ := Lowered.bind_eq_ok.mp h
    obtain ⟨b', hb, h⟩ := Lowered.bind_eq_ok.mp h
    obtain ⟨e', he, ⟨⟩⟩ := Lowered.bind_eq_ok.mp h
    -- the wildcard of the second arm is not in the source
    refine .matchElse (Expr.lower_all v v' hv) (Pattern.lower_everywhere p p' hp) hP.wildcard
      (Expr.lower_all b b' hb) ?_
    cases e' with
    | none => exact .emptyBlock
    | some t => exact Expr.lowerOpt_all e (some t) he t List.mem_cons_self
  | .matchOn _ v as, _, h => by
    obtain ⟨v', hv, h⟩ := Lowered.bind_eq_ok.mp h
    obtain ⟨as', has, ⟨⟩⟩ := Lowered.bind_eq_ok.mp h
    have harms := Arm.lowerAll_all as as' has
    refine .mk ?_ (List.forall_mem_cons.mpr ⟨Expr.lower_all v v' hv, ?_⟩) (List.forall_mem_nil _)
    · exact List.forall_mem_flatMap.mpr fun a ha => List.forall_mem_map.mpr (harms a ha).1
    · exact List.forall_mem_flatMap.mpr fun a ha => (harms a ha).2
  | .whileLoop _ l c b, _, h => by
    obtain ⟨c', hc, h⟩ := Lowered.bind_eq_ok.mp h
    obtain ⟨b', hb, ⟨⟩⟩ := Lowered.bind_eq_ok.mp h
    exact .whileLoop l (Expr.lower_all c c' hc) (Expr.lower_all b b' hb)
  | .whileLet _ l p v b, _, h => by
    obtain ⟨v', hv, h⟩ := Lowered.bind_eq_ok.mp h
    obtain ⟨p', hp, h⟩ := Lowered.bind_eq_ok.mp h
    obtain ⟨b', hb, ⟨⟩⟩ := Lowered.bind_eq_ok.mp h
    exact .whileLet l (Pattern.lower_everywhere p p' hp) hP.wildcard (Expr.lower_all v v' hv)
      (Expr.lower_all b b' hb)
  | .ret _ v, _, h | .brk _ _ v, _, h => by
    obtain ⟨t, ht, ⟨⟩⟩ := Lowered.bind_eq_ok.mp h
    exact .ofChildren rfl rfl (Expr.lowerOpt_all v t ht)

theorem Expr.lowerAll_all : ∀ (es : List Expr) (ts : List Term), Expr.lowerAll es = .ok ts →
    ∀ t ∈ ts, t.All (Everywhere P)
  | [], _, h => by cases h; exact List.forall_mem_nil _
  | e :: es, _, h => by
    obtain ⟨t, ht, h⟩ := Lowered.bind_eq_ok.mp h
    obtain ⟨ts, hts, ⟨⟩⟩ := Lowered.bind_eq_ok.mp h
    exact List.forall_mem_cons.mpr ⟨Expr.lower_all e t ht, Expr.lowerAll_all es ts hts⟩

theorem Expr.lowerNamed_all : ∀ (fs : List (String × Expr)) (ts : List (String × Term)),
    Expr.lowerNamed fs = .ok ts → ∀ f ∈ ts, f.2.All (Everywhere P)
  | [], _, h => by cases h; exact List.forall_mem_nil _
  | (_, e) :: fs, _, h => by
    obtain ⟨t, ht, h⟩ := Lowered.bind_eq_ok.mp h
    obtain ⟨ts, hts, ⟨⟩⟩ := Lowered.bind_eq_ok.mp h
    exact List.forall_mem_cons.mpr ⟨Expr.lower_all e t ht, Expr.lowerNamed_all fs ts hts⟩

theorem Expr.lowerOpt_all : ∀ (e : Option Expr) (t : Option Term), Expr.lowerOpt e = .ok t →
    ∀ u ∈ t.toList, u.All (Everywhere P)
  | none, _, h => by cases h; exact List.forall_mem_nil _
  | some e, _, h => by
    obtain ⟨t, ht, ⟨⟩⟩ := Lowered.bind_eq_ok.mp h
    exact List.forall_mem_singleton.mpr (Expr.lower_all e t ht)

theorem Expr.lowerBodyOpt_everywhere : ∀ (e : Option Expr) (b : Option Core.Body),
    Expr.lowerBodyOpt e = .ok b → ∀ c ∈ b.toList, Everywhere P (.body c)
  | none, _, h => by cases h; exact List.forall_mem_nil _
  | some e, _, h => by
    obtain ⟨t, ht, ⟨⟩⟩ := Lowered.bind_eq_ok.mp h
    exact List.forall_mem_singleton.mpr (hP.termBody ht (Expr.lower_all e t ht))

theorem Stmt.lower_all : ∀ (s : Stmt) (t : TermStmt), s.lower = .ok t → t.All (Everywhere P)
  | .letIn _ p t v, _, h => by
    obtain ⟨p', hp, h⟩ := Lowered.bind_eq_ok.mp h
    obtain ⟨t', ht, h⟩ := Lowered.bind_eq_ok.mp h
    obtain ⟨v', hv, ⟨⟩⟩ := Lowered.bind_eq_ok.mp h
    have hpattern := Pattern.lower_everywhere p p' hp
    have hty := Ty.lower_everywhere t t' ht
    have hvalue := Expr.lowerOpt_all v v' hv
    exact .mk (by simp [Core.Stmt.fragments, hpattern, hty]) hvalue
  | .expr e, _, h => by
    obtain ⟨t, ht, ⟨⟩⟩ := Lowered.bind_eq_ok.mp h
    exact .mk (List.forall_mem_nil _) (List.forall_mem_singleton.mpr (Expr.lower_all e t ht))

theorem Stmt.lowerAll_all : ∀ (ss : List Stmt) (ts : List TermStmt), Stmt.lowerAll ss = .ok ts →
    ∀ t ∈ ts, t.All (Everywhere P)
  | [], _, h => by cases h; exact List.forall_mem_nil _
  | s :: ss, _, h => by
    obtain ⟨t, ht, h⟩ := Lowered.bind_eq_ok.mp h
    obtain ⟨ts, hts, ⟨⟩⟩ := Lowered.bind_eq_ok.mp h
    exact List.forall_mem_cons.mpr ⟨Stmt.lower_all s t ht, Stmt.lowerAll_all ss ts hts⟩

theorem Arm.lower_all : ∀ (a : Arm) (a' : Core.Arm Core.Pattern Term), a.lower = .ok a' →
    (∀ p ∈ a'.patterns, Everywhere P (.pattern p)) ∧ ∀ t ∈ a'.children, t.All (Everywhere P)
  | .mk ps g b, _, h => by
    obtain ⟨ps', hps, h⟩ := Lowered.bind_eq_ok.mp h
    obtain ⟨g', hg, h⟩ := Lowered.bind_eq_ok.mp h
    obtain ⟨b', hb, ⟨⟩⟩ := Lowered.bind_eq_ok.mp h
    have hpatterns := Pattern.lowerAll_everywhere ps ps' hps
    have hguard := Expr.lowerOpt_all g g' hg
    have hbody := Expr.lower_all b b' hb
    exact ⟨hpatterns, List.forall_mem_append.mpr ⟨hguard, List.forall_mem_singleton.mpr hbody⟩⟩

theorem Arm.lowerAll_all : ∀ (as : List Arm) (as' : List (Core.Arm Core.Pattern Term)),
    Arm.lowerAll as = .ok as' → ∀ a ∈ as',
    (∀ p ∈ a.patterns, Everywhere P (.pattern p)) ∧ ∀ t ∈ a.children, t.All (Everywhere P)
  | [], _, h => by cases h; exact List.forall_mem_nil _
  | a :: as, _, h => by
    obtain ⟨a', ha, h⟩ := Lowered.bind_eq_ok.mp h
    obtain ⟨as', has, ⟨⟩⟩ := Lowered.bind_eq_ok.mp h
    exact List.forall_mem_cons.mpr ⟨Arm.lower_all a a' ha, Arm.lowerAll_all as as' has⟩

end

/-- What lowering gives in every case holds everywhere in a lowered body. -/
theorem Expr.lowerBody_everywhere {e : Expr} {b : Core.Body} (h : e.lowerBody = .ok b) :
    Everywhere P (.body b) := by
  obtain ⟨t, ht, ⟨⟩⟩ := Lowered.bind_eq_ok.mp h
  exact hP.termBody ht (Expr.lower_all hP e t ht)

end

end Lowering.Surface
