import Lowering.Proofs.Everywhere
import Lowering.Proofs.PostOrder
import Lowering.Proofs.Raising
import Lowering.Proofs.Rewriting

/-!
# Canonical fragments

A core fragment is canonical when every type parameter in it is unresolved, every
canonical path has a component and every body is in post-order. These are the
fragments that lowering gives, and raising one of them and lowering it again gives
it back, number for number, wherever the raised nodes stand.

What is proved:
  1. `gives_canonical`: what lowering gives is canonical.
  2. `lowerTerm_raised`: a term whose fragments come back comes back.
  3. `comesBack_of_canonical`: a canonical fragment comes back, by induction on its
     parts. For a body, step 2 is applied to the term that it unfolds to.
Main statement: `lower_onto_canonical`.
-/

namespace Lowering

namespace Core

/-- What canonical fragments are like, parts apart. -/
def Fragment.IsCanonical : Fragment → Prop
  | .ty (.param _ index) => index = .unresolved
  | .applied p => p.path.components ≠ []
  | .body b => b.PostOrder
  | _ => True

/-- A fragment that is canonical everywhere. -/
abbrev Fragment.Canonical (f : Fragment) : Prop := f.Everywhere IsCanonical

/-- Lowering the raised fragment gives it back. -/
def Fragment.ComesBack : Fragment → Prop
  | .ty t => t.raise.lower = .ok t
  | .args as => as.raise.lower = .ok as
  | .applied p => p.raise.lowerPlain = .ok p
  | .path p => p.raise.lower = .ok p
  | .pattern p => p.raise.lower = .ok p
  | .kind k => ∀ s, k.raise.lower s = .ok k
  | .body b => b.raise.lowerBody = .ok b

/-! ## Unfolded bodies -/

/-- A term read from an arena mentions only what the arena mentions. -/
theorem Arena.unfold_all {P : Fragment → Prop} {A : Arena} (h : A.Mentions P) (fuel : Nat)
    (id : ExprId) : (A.readExpr unfolding fuel id).All P := by
  have hlost : (unfolding.lostExpr).All P := .ofChildren rfl rfl (List.forall_mem_nil _)
  obtain ⟨hexprs, hstmts⟩ := List.forall_mem_append.mp h
  induction fuel generalizing id with
  | zero => exact hlost
  | succ fuel ih =>
    cases hget : A.exprs[id]? with
    | none =>
      simp only [Arena.readExpr, hget]
      exact hlost
    | some node =>
      rw [Arena.readExpr_succ unfolding hget]
      refine .mk ?_ ?_ ?_
      · rw [Node.fragments_map]
        exact List.forall_mem_flatMap.mp hexprs node (List.mem_of_getElem? hget)
      · rw [Node.children_map]
        exact List.forall_mem_map.mpr fun id _ => ih id
      · rw [Node.statements_map]
        refine List.forall_mem_map.mpr fun s _ => ?_
        cases hs : A.stmts[s]? with
        | none =>
          simp only [Arena.readStmt, hs]
          exact .mk (List.forall_mem_nil _) (List.forall_mem_singleton.mpr hlost)
        | some stmt =>
          rw [Arena.readStmt_of_get unfolding hs]
          refine .mk ?_ ?_
          · rw [Stmt.fragments_map]
            exact List.forall_mem_flatMap.mp hstmts stmt (List.mem_of_getElem? hs)
          · rw [Stmt.children_map]
            exact List.forall_mem_map.mpr fun id _ => ih id

theorem Body.term_all {P : Fragment → Prop} {b : Body}
    (h : ∀ f ∈ (Fragment.body b).parts, P f) : b.term.All P :=
  Arena.unfold_all (A := ⟨b.exprs, b.stmts⟩) h b.exprs.length b.root

end Core

namespace Surface

open Lowering.Core (Fragment Term TermStmt raising)

/-! ## What lowering gives -/

theorem Segment.checkAbsolute_names {s : Location} {segs : List Segment}
    (h : Segment.checkAbsolute s segs = .ok ()) : segs.map Segment.name ≠ [] := by
  cases segs with
  | nil => cases h
  | cons seg segs => simp

theorem gives_canonical : Gives Fragment.IsCanonical where
  ty {t t'} h := by
    cases t with
    | param s n => cases h; rfl
    | infer s | unit s => cases h; trivial
    | omitted s | macroCall s m => cases h
    | primitive s c | tuple s ts | borrow s k t | pointer s m t | path s p =>
      obtain ⟨_, -, ⟨⟩⟩ := Lowered.bind_eq_ok.mp h
      trivial
    | array s t e | function s u abi ts t =>
      obtain ⟨_, -, h⟩ := Lowered.bind_eq_ok.mp h
      obtain ⟨_, -, ⟨⟩⟩ := Lowered.bind_eq_ok.mp h
      trivial
    | traitObject s ls ps =>
      obtain ⟨-, _, -, rfl⟩ := Ty.lower_traitObject h
      trivial
  args _ := trivial
  applied {p p'} h := by
    cases p with
    | absolute s c segs =>
      obtain ⟨_, hcheck, h⟩ := Lowered.bind_eq_ok.mp h
      obtain ⟨args, -, ⟨⟩⟩ := Lowered.bind_eq_ok.mp h
      exact Segment.checkAbsolute_names hcheck
    | _ => cases h
  path _ := trivial
  pattern _ := trivial
  kind _ := trivial
  body h := by
    obtain ⟨t, -, ⟨⟩⟩ := Lowered.bind_eq_ok.mp h
    exact t.body_postOrder

/-! ## Terms come back -/

theorem lower_raiseLiteral (s : Location) (l : Core.Literal) :
    lowerLiteral s (Core.Literal.raise l) = .ok l := by
  cases l with
  | integer n c | float x c => cases c <;> rfl
  | bool _ | char _ | string _ => rfl

/-- A list comes back when its members do, one after the other. -/
theorem list_comesBack {β : Type} (back : β → Lowered β) (all : List β → Lowered (List β))
    (hnil : all [] = .ok []) (hcons : ∀ y ys, all (y :: ys) = do return (← back y) :: (← all ys))
    (ys : List β) (h : ∀ y ∈ ys, back y = .ok y) : all ys = .ok ys := by
  induction ys with
  | nil => exact hnil
  | cons y ys ih =>
    obtain ⟨hy, hys⟩ := List.forall_mem_cons.mp h
    rw [hcons]
    exact Lowered.bind_eq_ok.mpr ⟨y, hy, Lowered.bind_eq_ok.mpr ⟨ys, ih hys, rfl⟩⟩

/-- The same for members under names. -/
theorem named_comesBack {β : Type} (back : β → Lowered β)
    (all : List (String × β) → Lowered (List (String × β))) (hnil : all [] = .ok [])
    (hcons : ∀ n y ys, all ((n, y) :: ys) = do return (n, ← back y) :: (← all ys))
    (ys : List (String × β)) (h : ∀ y ∈ ys, back y.2 = .ok y.2) : all ys = .ok ys := by
  induction ys with
  | nil => exact hnil
  | cons y ys ih =>
    obtain ⟨n, y⟩ := y
    obtain ⟨hy, hys⟩ := List.forall_mem_cons.mp h
    rw [hcons]
    exact Lowered.bind_eq_ok.mpr ⟨y, hy, Lowered.bind_eq_ok.mpr ⟨ys, ih hys, rfl⟩⟩

theorem lowerAll_raised (ts : List Term) (h : ∀ t ∈ ts, (t.read raising).lower = .ok t) :
    Expr.lowerAll (Term.readAll raising ts) = .ok ts :=
  list_comesBack (fun t => (t.read raising).lower) (fun l => Expr.lowerAll (Term.readAll raising l))
    rfl (fun _ _ => rfl) ts h

theorem lowerOpt_raised (t : Option Term) (h : ∀ u ∈ t.toList, (u.read raising).lower = .ok u) :
    Expr.lowerOpt (Term.readOpt raising t) = .ok t := by
  cases t with
  | none => rfl
  | some t => exact Lowered.bind_eq_ok.mpr ⟨t, h t List.mem_cons_self, rfl⟩

theorem lowerNamed_raised (fs : List (String × Term))
    (h : ∀ t ∈ fs.map Prod.snd, (t.read raising).lower = .ok t) :
    Expr.lowerNamed (Term.readFields raising fs) = .ok fs :=
  named_comesBack (fun t => (t.read raising).lower)
    (fun l => Expr.lowerNamed (Term.readFields raising l)) rfl (fun _ _ _ => rfl) fs
    (List.forall_mem_map.mp h)

theorem lowerStmts_raised (ss : List TermStmt)
    (h : ∀ s ∈ ss, (s.read raising).lower = .ok s) :
    Stmt.lowerAll (TermStmt.readAll raising ss) = .ok ss :=
  list_comesBack (fun s => (s.read raising).lower)
    (fun l => Stmt.lowerAll (TermStmt.readAll raising l)) rfl (fun _ _ => rfl) ss h

theorem lowerPatterns_raised (ps : List Core.Pattern)
    (h : ∀ p ∈ ps, (Fragment.pattern p).ComesBack) :
    Pattern.lowerAll (ps.map Core.Pattern.raise) = .ok ps :=
  list_comesBack (fun p : Core.Pattern => p.raise.lower)
    (fun l => Pattern.lowerAll (l.map Core.Pattern.raise)) rfl (fun _ _ => rfl) ps h

theorem lowerArms_raised (as : List (Core.Arm Core.Pattern Term))
    (hf : ∀ a ∈ as, ∀ p ∈ a.patterns, (Fragment.pattern p).ComesBack)
    (hc : ∀ a ∈ as, ∀ t ∈ a.children, (t.read raising).lower = .ok t) :
    Arm.lowerAll (((Term.readArms raising as).map (·.mapPatterns Core.Pattern.raise)).map
      Core.Arm.raise) = .ok as := by
  induction as with
  | nil => rfl
  | cons a as ih =>
    obtain ⟨ps, g, b⟩ := a
    obtain ⟨hps, hf⟩ := List.forall_mem_cons.mp hf
    obtain ⟨hgb, hc⟩ := List.forall_mem_cons.mp hc
    obtain ⟨hg, hb⟩ := List.forall_mem_append.mp hgb
    refine Lowered.bind_eq_ok.mpr ⟨⟨ps, g, b⟩, ?_, Lowered.bind_eq_ok.mpr ⟨as, ih hf hc, rfl⟩⟩
    refine Lowered.bind_eq_ok.mpr ⟨ps, lowerPatterns_raised ps hps, ?_⟩
    refine Lowered.bind_eq_ok.mpr ⟨g, lowerOpt_raised g hg, ?_⟩
    exact Lowered.bind_eq_ok.mpr ⟨b, hb b List.mem_cons_self, rfl⟩

/-- A raised path is not a local name. -/
theorem localName?_raise (p : Core.Path) : p.raise.localName? = none := by
  cases p with
  | plain p => cases p; rfl
  | qualified self trait item args => rfl

/-- A node comes back when what it mentions, its children and its statements do. -/
theorem lowerNode_raised (node : Core.Node Core.Ty Core.Path Core.Pattern Term TermStmt)
    (hf : ∀ f ∈ node.fragments, f.ComesBack)
    (hc : ∀ t ∈ node.children, (t.read raising).lower = .ok t)
    (hs : ∀ s ∈ node.statements, (s.read raising).lower = .ok s) :
    ((Term.mk node).read raising).lower = .ok (.mk node) := by
  cases node with
  | literal l => exact Lowered.bind_eq_ok.mpr ⟨l, lower_raiseLiteral _ l, rfl⟩
  | localVar n => rfl
  | cont l => rfl
  | path p =>
    refine (Expr.lower_path_eq _ _).trans ?_
    rw [localName?_raise]
    exact Lowered.bind_eq_ok.mpr ⟨p, hf _ List.mem_cons_self, rfl⟩
  | tuple es => exact Lowered.bind_eq_ok.mpr ⟨es, lowerAll_raised es hc, rfl⟩
  | array es => exact Lowered.bind_eq_ok.mpr ⟨es, lowerAll_raised es hc, rfl⟩
  | ret v => exact Lowered.bind_eq_ok.mpr ⟨v, lowerOpt_raised v hc, rfl⟩
  | brk l v => exact Lowered.bind_eq_ok.mpr ⟨v, lowerOpt_raised v hc, rfl⟩
  | unary _ a | deref a | borrow _ a | field a _ | loop _ a =>
    exact Lowered.bind_eq_ok.mpr ⟨a, hc a List.mem_cons_self, rfl⟩
  | cast a t =>
    refine Lowered.bind_eq_ok.mpr ⟨a, hc a List.mem_cons_self, ?_⟩
    exact Lowered.bind_eq_ok.mpr ⟨t, hf _ List.mem_cons_self, rfl⟩
  | assign _ a b | binary _ a b | index a b =>
    obtain ⟨ha, hb⟩ := List.forall_mem_cons.mp hc
    refine Lowered.bind_eq_ok.mpr ⟨a, ha, ?_⟩
    exact Lowered.bind_eq_ok.mpr ⟨b, hb b List.mem_cons_self, rfl⟩
  | callPath p es =>
    refine (Expr.lower_callPath_eq _ _ _).trans ?_
    rw [localName?_raise]
    refine Lowered.bind_eq_ok.mpr ⟨p, hf _ List.mem_cons_self, ?_⟩
    exact Lowered.bind_eq_ok.mpr ⟨es, lowerAll_raised es hc, rfl⟩
  | callMethod a m es =>
    obtain ⟨ha, hes⟩ := List.forall_mem_cons.mp hc
    refine Lowered.bind_eq_ok.mpr ⟨a, ha, ?_⟩
    exact Lowered.bind_eq_ok.mpr ⟨es, lowerAll_raised es hes, rfl⟩
  | callValue a es =>
    obtain ⟨ha, hes⟩ := List.forall_mem_cons.mp hc
    refine Lowered.bind_eq_ok.mpr ⟨a, ha, ?_⟩
    exact Lowered.bind_eq_ok.mpr ⟨es, lowerAll_raised es hes, rfl⟩
  | block ss t =>
    refine Lowered.bind_eq_ok.mpr ⟨ss, lowerStmts_raised ss hs, ?_⟩
    exact Lowered.bind_eq_ok.mpr ⟨t, lowerOpt_raised t hc, rfl⟩
  | structLiteral p fs b =>
    obtain ⟨hfs, hb⟩ := List.forall_mem_append.mp hc
    refine Lowered.bind_eq_ok.mpr ⟨p, hf _ List.mem_cons_self, ?_⟩
    refine Lowered.bind_eq_ok.mpr ⟨fs, lowerNamed_raised fs hfs, ?_⟩
    exact Lowered.bind_eq_ok.mpr ⟨b, lowerOpt_raised b hb, rfl⟩
  | ifElse c t e =>
    obtain ⟨hcond, hrest⟩ := List.forall_mem_cons.mp hc
    obtain ⟨hthen, helse⟩ := List.forall_mem_cons.mp hrest
    refine Lowered.bind_eq_ok.mpr ⟨c, hcond, ?_⟩
    refine Lowered.bind_eq_ok.mpr ⟨t, hthen, ?_⟩
    exact Lowered.bind_eq_ok.mpr ⟨e, lowerOpt_raised e helse, rfl⟩
  | matchOn v as =>
    obtain ⟨hv, has⟩ := List.forall_mem_cons.mp hc
    have hpatterns := fun a ha => List.forall_mem_map.mp (List.forall_mem_flatMap.mp hf a ha)
    have harms := lowerArms_raised as hpatterns (List.forall_mem_flatMap.mp has)
    refine Lowered.bind_eq_ok.mpr ⟨v, hv, ?_⟩
    exact Lowered.bind_eq_ok.mpr ⟨as, harms, rfl⟩

theorem lowerStmt_raised (stmt : Core.Stmt Core.Ty Core.Pattern Term)
    (hf : ∀ f ∈ stmt.fragments, f.ComesBack)
    (hc : ∀ t ∈ stmt.children, (t.read raising).lower = .ok t) :
    ((TermStmt.mk stmt).read raising).lower = .ok (.mk stmt) := by
  cases stmt with
  | letIn p t v =>
    obtain ⟨hp, ht⟩ := List.forall_mem_cons.mp hf
    refine Lowered.bind_eq_ok.mpr ⟨p, hp, ?_⟩
    refine Lowered.bind_eq_ok.mpr ⟨t, ht _ List.mem_cons_self, ?_⟩
    exact Lowered.bind_eq_ok.mpr ⟨v, lowerOpt_raised v hc, rfl⟩
  | expr e => exact Lowered.bind_eq_ok.mpr ⟨e, hc e List.mem_cons_self, rfl⟩

/-- A term comes back when the fragments that it mentions do. -/
theorem lowerTerm_raised : ∀ t : Term, t.All Fragment.ComesBack →
    (t.read raising).lower = .ok t := by
  refine Term.induction
    (M := fun t => t.All Fragment.ComesBack → (t.read raising).lower = .ok t)
    (N := fun s => s.All Fragment.ComesBack → (s.read raising).lower = .ok s)
    (fun node hc hs h => ?_) (fun stmt hc h => ?_)
  · cases h with
    | mk hf hchildren hstmts =>
      exact lowerNode_raised node hf (fun t ht => hc t ht (hchildren t ht))
        fun s hs' => hs s hs' (hstmts s hs')
  · cases h with
    | mk hf hchildren => exact lowerStmt_raised stmt hf fun t ht => hc t ht (hchildren t ht)

/-! ## Fragments come back -/

open Lowering.Core (raiseSegments)

theorem raiseSegments_names (args : GenericArgs) (ns : List String) :
    (raiseSegments args ns).map Segment.name = ns := by
  fun_induction raiseSegments args ns with
  | case1 => rfl
  | case2 n => rfl
  | case3 n m ns ih => exact congrArg (n :: ·) ih

theorem leadingWithArgs?_raiseSegments (args : GenericArgs) (ns : List String) :
    Segment.leadingWithArgs? (raiseSegments args ns) = none := by
  fun_induction raiseSegments args ns with
  | case1 => rfl
  | case2 n => rfl
  | case3 n m ns ih => cases ns <;> exact ih

theorem lowerLastArgs_raiseSegments (args : GenericArgs) {ns : List String} (h : ns ≠ []) :
    Segment.lowerLastArgs (raiseSegments args ns) = args.lower := by
  fun_induction raiseSegments args ns with
  | case1 => exact absurd rfl h
  | case2 n => rfl
  | case3 n m ns ih => cases ns <;> exact ih (List.cons_ne_nil _ _)

theorem checkAbsolute_raiseSegments (s : Location) (args : GenericArgs) {ns : List String}
    (h : ns ≠ []) : Segment.checkAbsolute s (raiseSegments args ns) = .ok () := by
  have hne : raiseSegments args ns ≠ [] := by
    intro hnil
    have hnames := raiseSegments_names args ns
    rw [hnil] at hnames
    exact h hnames.symm
  rw [Segment.checkAbsolute, leadingWithArgs?_raiseSegments, if_neg (by simpa using hne)]

theorem lowerTys_raised (ts : List Core.Ty) (h : ∀ t ∈ ts, (Fragment.ty t).ComesBack) :
    Ty.lowerAll (Core.Ty.raiseAll ts) = .ok ts :=
  list_comesBack (fun t : Core.Ty => t.raise.lower) (fun l => Ty.lowerAll (Core.Ty.raiseAll l))
    rfl (fun _ _ => rfl) ts h

theorem lowerBindings_raised (bs : List (String × Core.Ty))
    (h : ∀ b ∈ bs, (Fragment.ty b.2).ComesBack) :
    Ty.lowerNamed (Core.Ty.raiseNamed bs) = .ok bs :=
  named_comesBack (fun t : Core.Ty => t.raise.lower) (fun l => Ty.lowerNamed (Core.Ty.raiseNamed l))
    rfl (fun _ _ _ => rfl) bs h

theorem lowerPaths_raised (ps : List Core.AppliedPath)
    (h : ∀ p ∈ ps, (Fragment.applied p).ComesBack) :
    Path.lowerPlainAll (Core.AppliedPath.raiseAll ps) = .ok ps :=
  list_comesBack (fun p : Core.AppliedPath => p.raise.lowerPlain)
    (fun l => Path.lowerPlainAll (Core.AppliedPath.raiseAll l)) rfl (fun _ _ => rfl) ps h

theorem lowerPathOpt_raised (p : Option Core.AppliedPath)
    (h : ∀ q ∈ p.toList, (Fragment.applied q).ComesBack) :
    Path.lowerPlainOpt (Core.AppliedPath.raiseOpt p) = .ok p := by
  cases p with
  | none => rfl
  | some p => exact Lowered.bind_eq_ok.mpr ⟨p, h p List.mem_cons_self, rfl⟩

theorem lowerSize_raised (b : Option Core.Body)
    (h : ∀ c ∈ b.toList, (Fragment.body c).ComesBack) :
    Expr.lowerBodyOpt (Core.Body.raiseOpt b) = .ok b := by
  cases b with
  | none => rfl
  | some b =>
    obtain ⟨t, ht, hb⟩ := Lowered.bind_eq_ok.mp (h b List.mem_cons_self)
    obtain rfl : t.body = b := Lowered.pure_eq_ok.mp hb
    exact Lowered.bind_eq_ok.mpr ⟨t, ht, rfl⟩

theorem lowerFieldPatterns_raised (fs : List (String × Core.Pattern))
    (h : ∀ f ∈ fs, (Fragment.pattern f.2).ComesBack) :
    Pattern.lowerNamed (Core.Pattern.raiseNamed fs) = .ok fs :=
  named_comesBack (fun p : Core.Pattern => p.raise.lower)
    (fun l => Pattern.lowerNamed (Core.Pattern.raiseNamed l)) rfl (fun _ _ _ => rfl) fs h

theorem ty_comesBack (t : Core.Ty) (h : (Fragment.ty t).IsCanonical)
    (hparts : ∀ g ∈ (Fragment.ty t).parts, g.ComesBack) : (Fragment.ty t).ComesBack := by
  cases t with
  | infer => rfl
  | primitive c => rfl
  | param n index =>
    obtain rfl : index = .unresolved := h
    rfl
  | tuple ts =>
    have hts := lowerTys_raised ts (List.forall_mem_map.mp hparts)
    exact Lowered.bind_eq_ok.mpr ⟨ts, hts, rfl⟩
  | borrow _ t | pointer _ t =>
    exact Lowered.bind_eq_ok.mpr ⟨t, hparts _ List.mem_cons_self, rfl⟩
  | array t size =>
    obtain ⟨ht, hsize⟩ := List.forall_mem_cons.mp hparts
    refine Lowered.bind_eq_ok.mpr ⟨t, ht, ?_⟩
    exact Lowered.bind_eq_ok.mpr ⟨size, lowerSize_raised size (List.forall_mem_map.mp hsize), rfl⟩
  | path p => exact Lowered.bind_eq_ok.mpr ⟨p, hparts _ List.mem_cons_self, rfl⟩
  | traitObject ps =>
    have hps := lowerPaths_raised ps (List.forall_mem_map.mp hparts)
    exact Lowered.bind_eq_ok.mpr ⟨ps, hps, rfl⟩
  | function u abi args ret =>
    obtain ⟨hargs, hret⟩ := List.forall_mem_append.mp hparts
    refine Lowered.bind_eq_ok.mpr ⟨args, lowerTys_raised args (List.forall_mem_map.mp hargs), ?_⟩
    exact Lowered.bind_eq_ok.mpr ⟨ret, hret _ List.mem_cons_self, rfl⟩

theorem applied_comesBack (p : Core.AppliedPath) (h : (Fragment.applied p).IsCanonical)
    (hparts : ∀ g ∈ (Fragment.applied p).parts, g.ComesBack) : (Fragment.applied p).ComesBack := by
  obtain ⟨path, args⟩ := p
  have hargs : (Fragment.args args).ComesBack := hparts _ List.mem_cons_self
  have hlast := (lowerLastArgs_raiseSegments args.raise h).trans hargs
  refine Lowered.bind_eq_ok.mpr ⟨(), checkAbsolute_raiseSegments _ args.raise h, ?_⟩
  refine Lowered.bind_eq_ok.mpr ⟨args, hlast, ?_⟩
  rw [raiseSegments_names]
  rfl

theorem path_comesBack (p : Core.Path)
    (hparts : ∀ g ∈ (Fragment.path p).parts, g.ComesBack) : (Fragment.path p).ComesBack := by
  cases p with
  | plain p =>
    obtain ⟨path, args⟩ := p
    have hplain : (Fragment.applied (.mk path args)).ComesBack := hparts _ List.mem_cons_self
    obtain ⟨_, hcheck, h⟩ := Lowered.bind_eq_ok.mp hplain
    obtain ⟨args', hargs, h⟩ := Lowered.bind_eq_ok.mp h
    refine Lowered.bind_eq_ok.mpr ⟨(), hcheck, Lowered.bind_eq_ok.mpr ⟨args', hargs, ?_⟩⟩
    exact Lowered.pure_eq_ok.mpr (congrArg Core.Path.plain (Lowered.pure_eq_ok.mp h))
  | qualified self trait item args =>
    obtain ⟨hself, hrest⟩ := List.forall_mem_cons.mp hparts
    obtain ⟨hargs, htrait⟩ := List.forall_mem_cons.mp hrest
    have hvia := lowerPathOpt_raised trait (List.forall_mem_map.mp htrait)
    refine Lowered.bind_eq_ok.mpr ⟨self, hself, Lowered.bind_eq_ok.mpr ⟨args, hargs, ?_⟩⟩
    exact Lowered.bind_eq_ok.mpr ⟨trait, hvia, rfl⟩

theorem kind_comesBack (k : Core.PatternKind)
    (hparts : ∀ g ∈ (Fragment.kind k).parts, g.ComesBack) : (Fragment.kind k).ComesBack := by
  intro s
  cases k with
  | any => rfl
  | value l => exact Lowered.bind_eq_ok.mpr ⟨l, lower_raiseLiteral s l, rfl⟩
  | range a b =>
    refine Lowered.bind_eq_ok.mpr ⟨a, lower_raiseLiteral s a, ?_⟩
    exact Lowered.bind_eq_ok.mpr ⟨b, lower_raiseLiteral s b, rfl⟩
  | tuple ps =>
    have hps := lowerPatterns_raised ps (List.forall_mem_map.mp hparts)
    rw [← Core.Pattern.raiseAll_eq] at hps
    exact Lowered.bind_eq_ok.mpr ⟨ps, hps, rfl⟩
  | ref _ p => exact Lowered.bind_eq_ok.mpr ⟨p, hparts _ List.mem_cons_self, rfl⟩
  | tupleStruct q ps =>
    obtain ⟨hq, hps⟩ := List.forall_mem_cons.mp hparts
    have hps := lowerPatterns_raised ps (List.forall_mem_map.mp hps)
    rw [← Core.Pattern.raiseAll_eq] at hps
    exact Lowered.bind_eq_ok.mpr ⟨q, hq, Lowered.bind_eq_ok.mpr ⟨ps, hps, rfl⟩⟩
  | struct q fs x =>
    obtain ⟨hq, hfs⟩ := List.forall_mem_cons.mp hparts
    have hfs := lowerFieldPatterns_raised fs (List.forall_mem_map.mp hfs)
    exact Lowered.bind_eq_ok.mpr ⟨q, hq, Lowered.bind_eq_ok.mpr ⟨fs, hfs, rfl⟩⟩

/-- A body in post-order comes back as the term that it unfolds to does. -/
theorem body_comesBack (b : Core.Body) (h : b.PostOrder)
    (hparts : ∀ g ∈ (Fragment.body b).parts, g.ComesBack) : (Fragment.body b).ComesBack := by
  have hterm := lowerTerm_raised b.term (Core.Body.term_all hparts)
  have hraise : b.raise = b.term.read raising := by
    rw [← Term.raise_body, Core.Body.body_term h]
  show b.raise.lowerBody = .ok b
  rw [hraise]
  exact Lowered.bind_eq_ok.mpr ⟨b.term, hterm, Lowered.pure_eq_ok.mpr (Core.Body.body_term h)⟩

theorem comesBack_of_canonical : ∀ f : Fragment, f.Canonical → f.ComesBack := by
  refine Fragment.induction (M := fun f => f.Canonical → f.ComesBack) fun f ih h => ?_
  -- the parts of a canonical fragment are canonical, so they come back already
  have hparts : ∀ g ∈ f.parts, g.ComesBack := fun g hg => ih g hg (h.part hg)
  cases f with
  | ty t => exact ty_comesBack t h.here hparts
  | args as =>
    obtain ⟨ts, bs⟩ := as
    obtain ⟨hts, hbs⟩ := List.forall_mem_append.mp hparts
    refine Lowered.bind_eq_ok.mpr ⟨ts, lowerTys_raised ts (List.forall_mem_map.mp hts), ?_⟩
    exact Lowered.bind_eq_ok.mpr ⟨bs, lowerBindings_raised bs (List.forall_mem_map.mp hbs), rfl⟩
  | applied p => exact applied_comesBack p h.here hparts
  | path p => exact path_comesBack p hparts
  | pattern p =>
    obtain ⟨b, k⟩ := p
    have hk : (Fragment.kind k).ComesBack := hparts _ List.mem_cons_self
    exact Lowered.bind_eq_ok.mpr ⟨k, hk _, rfl⟩
  | kind k => exact kind_comesBack k hparts
  | body b => exact body_comesBack b h.here hparts

/-! ## The image of lowering -/

/-- Lowering gives exactly the canonical values, and it gives each of them back
from its raised form, whatever places the nodes of that form are put at. -/
structure OntoCanonical {α β : Type} (lower : α → Lowered β) (raise : β → α)
    (move : (Location → Location) → α → α) (canonical : β → Prop) : Prop where
  raised : ∀ h, canonical h → ∀ x, Alike move x (raise h) → lower x = .ok h
  image : ∀ h, (∃ x, lower x = .ok h) ↔ canonical h
  again : ∀ x h, lower x = .ok h → lower (raise h) = .ok h

theorem OntoCanonical.of_raise {α β : Type} {lower : α → Lowered β} {raise : β → α}
    {move : (Location → Location) → α → α} {canonical : β → Prop}
    (hmove : ∀ f x, lower (move f x) = (lower x).relocate f)
    (hgives : ∀ x h, lower x = .ok h → canonical h)
    (hraise : ∀ h, canonical h → lower (raise h) = .ok h) :
    OntoCanonical lower raise move canonical where
  raised h hc _ hx := hx.lower_eq_ok hmove (hraise h hc)
  image h := ⟨fun ⟨x, hx⟩ => hgives x h hx, fun hc => ⟨raise h, hraise h hc⟩⟩
  again x h hx := hraise h (hgives x h hx)

/-- The canonical types, paths, patterns and bodies are what lowering gives, and
raising one of them and lowering it again changes nothing. -/
theorem lower_onto_canonical :
    OntoCanonical Ty.lower Core.Ty.raise Ty.relocate (fun t => (Fragment.ty t).Canonical) ∧
    OntoCanonical Path.lower Core.Path.raise Path.relocate (fun p => (Fragment.path p).Canonical) ∧
    OntoCanonical Path.lowerPlain Core.AppliedPath.raise Path.relocate
      (fun p => (Fragment.applied p).Canonical) ∧
    OntoCanonical Pattern.lower Core.Pattern.raise Pattern.relocate
      (fun p => (Fragment.pattern p).Canonical) ∧
    OntoCanonical Expr.lowerBody Core.Body.raise Expr.relocate
      (fun b => (Fragment.body b).Canonical) := by
  refine ⟨.of_raise Ty.lower_relocate ?_ ?_, .of_raise Path.lower_relocate ?_ ?_,
    .of_raise Path.lowerPlain_relocate ?_ ?_, .of_raise Pattern.lower_relocate ?_ ?_,
    .of_raise Expr.lowerBody_relocate ?_ ?_⟩
  · exact Ty.lower_everywhere gives_canonical
  · exact fun t => comesBack_of_canonical (.ty t)
  · exact Path.lower_everywhere gives_canonical
  · exact fun p => comesBack_of_canonical (.path p)
  · exact Path.lowerPlain_everywhere gives_canonical
  · exact fun p => comesBack_of_canonical (.applied p)
  · exact Pattern.lower_everywhere gives_canonical
  · exact fun p => comesBack_of_canonical (.pattern p)
  · exact fun _ _ => Expr.lowerBody_everywhere gives_canonical
  · exact fun b => comesBack_of_canonical (.body b)

/-- The body of `{ let _: [T; n] = x; y }`. -/
def letSized : Core.Body :=
  let sized : Core.Ty := .array (.param "T" .unresolved) (some ⟨[.localVar "n"], [], 0⟩)
  .mk [.localVar "x", .localVar "y", .block [0] (some 1)] [.letIn (.mk none .any) sized (some 0)] 2

/-- The expression `{ let _: [T; n] = x; y }` in a given place. -/
def letSizedAt (s : Location) : Expr :=
  let name (n : String) : Expr := .path s (.localName s n)
  let sized : Ty := .array s (.param s "T") (some (name "n"))
  .block s [.letIn s (.mk s none .any) sized (some (name "x"))] (some (name "y"))

theorem letSized_given_back :
    (Fragment.body letSized).Canonical ∧ ∀ s, (letSizedAt s).lowerBody = .ok letSized := by
  have hsize : (Fragment.body ⟨[.localVar "n"], [], 0⟩).Canonical :=
    .of_parts ⟨rfl, rfl⟩ (List.forall_mem_nil _)
  have hparam : (Fragment.ty (.param "T" .unresolved)).Canonical :=
    .of_parts rfl (List.forall_mem_nil _)
  have htype : (Fragment.ty (.array (.param "T" .unresolved)
      (some ⟨[.localVar "n"], [], 0⟩))).Canonical :=
    .of_parts trivial
      (List.forall_mem_cons.mpr ⟨hparam, List.forall_mem_singleton.mpr hsize⟩)
  have hany : (Fragment.pattern (.mk none .any)).Canonical :=
    .of_parts trivial (List.forall_mem_singleton.mpr (.of_parts trivial (List.forall_mem_nil _)))
  have hbody : (Fragment.body letSized).Canonical :=
    .of_parts ⟨rfl, rfl⟩
      (List.forall_mem_cons.mpr ⟨hany, List.forall_mem_singleton.mpr htype⟩)
  exact ⟨hbody, fun s => lower_onto_canonical.2.2.2.2.raised letSized hbody _ rfl⟩

end Surface

end Lowering
