import Lowering.Proofs.TermText

/-!
# Bodies laid out anew

The size of an array type is a body, so that a body stands inside another one
wherever a type does. `Ty.unfolded` and the functions beside it replace every body
inside a fragment by the layout of the tree that it unfolds to, the innermost ones
first. What the bodies of a fragment have beyond their trees is lost: the order of
their arenas, the nodes that several numbers lead to and those that none leads to.

What is proved:
  1. `Body.term_mapMentions`: replacing what the nodes of a body mention and unfolding
     it can be done in either order. So a body is laid out anew from its tree alone
     (`Body.unfolded_eq`, `Body.unfolded_eq_of_term_eq`).
  2. `Fragment.Everywhere.keepsText`: a fragment whose bodies are all descending keeps
     its text, by induction on what stands inside it.
-/

namespace Lowering.Core

/-! ## Definitions -/

mutual

/-- The type with all bodies inside it laid out anew. -/
def Ty.unfolded : Ty → Ty
  | .infer => .infer
  | .primitive c => .primitive c
  | .tuple ts => .tuple (Ty.unfoldedAll ts)
  | .borrow k t => .borrow k t.unfolded
  | .pointer m t => .pointer m t.unfolded
  | .array t size => .array t.unfolded (Body.unfoldedOpt size)
  | .path p => .path p.unfolded
  | .traitObject ps => .traitObject (AppliedPath.unfoldedAll ps)
  | .function u abi args ret => .function u abi (Ty.unfoldedAll args) ret.unfolded
  | .param n i => .param n i

/-- Each type of a list, unfolded. -/
def Ty.unfoldedAll : List Ty → List Ty
  | [] => []
  | t :: ts => t.unfolded :: Ty.unfoldedAll ts

/-- Each type that is bound to a name, unfolded. -/
def Ty.unfoldedNamed : List (String × Ty) → List (String × Ty)
  | [] => []
  | (n, t) :: bs => (n, t.unfolded) :: Ty.unfoldedNamed bs

/-- The arguments with all bodies inside them laid out anew. -/
def GenericArgs.unfolded : GenericArgs → GenericArgs
  | .mk ts bs => .mk (Ty.unfoldedAll ts) (Ty.unfoldedNamed bs)

/-- The canonical path with all bodies in its arguments laid out anew. -/
def AppliedPath.unfolded : AppliedPath → AppliedPath
  | .mk p args => .mk p args.unfolded

/-- Each canonical path of a list, unfolded. -/
def AppliedPath.unfoldedAll : List AppliedPath → List AppliedPath
  | [] => []
  | p :: ps => p.unfolded :: AppliedPath.unfoldedAll ps

/-- A canonical path that may be absent, unfolded. -/
def AppliedPath.unfoldedOpt : Option AppliedPath → Option AppliedPath
  | none => none
  | some p => some p.unfolded

/-- The path with all bodies inside it laid out anew. -/
def Path.unfolded : Path → Path
  | .plain p => .plain p.unfolded
  | .qualified self trait item args =>
    .qualified self.unfolded (AppliedPath.unfoldedOpt trait) item args.unfolded

/-- The pattern with all bodies inside it laid out anew. -/
def Pattern.unfolded : Pattern → Pattern
  | .mk b k => .mk b k.unfolded

/-- What a pattern matches, with all bodies inside it laid out anew. -/
def PatternKind.unfolded : PatternKind → PatternKind
  | .any => .any
  | .value l => .value l
  | .range a b => .range a b
  | .tuple ps => .tuple (Pattern.unfoldedAll ps)
  | .ref k p => .ref k p.unfolded
  | .tupleStruct p ps => .tupleStruct p.unfolded (Pattern.unfoldedAll ps)
  | .struct p fs e => .struct p.unfolded (Pattern.unfoldedNamed fs) e

/-- Each pattern of a list, unfolded. -/
def Pattern.unfoldedAll : List Pattern → List Pattern
  | [] => []
  | p :: ps => p.unfolded :: Pattern.unfoldedAll ps

/-- Each field pattern of a list, unfolded. -/
def Pattern.unfoldedNamed : List (String × Pattern) → List (String × Pattern)
  | [] => []
  | (n, p) :: fs => (n, p.unfolded) :: Pattern.unfoldedNamed fs

/-- The body laid out anew from its tree, and before that all bodies inside it. -/
def Body.unfolded : Body → Body
  | .mk es ss root =>
    (Body.mk (Body.unfoldedNodes es) (Body.unfoldedStmts ss) root).term.body

/-- A body that may be absent, unfolded. -/
def Body.unfoldedOpt : Option Body → Option Body
  | none => none
  | some b => some b.unfolded

/-- Each node of an arena, what it mentions unfolded. -/
def Body.unfoldedNodes : List (Node Ty Path Pattern Nat Nat) → List ExprNode
  | [] => []
  | n :: ns => Body.unfoldedNode n :: Body.unfoldedNodes ns

/-- The node with all bodies inside what it mentions laid out anew. -/
def Body.unfoldedNode : Node Ty Path Pattern Nat Nat → ExprNode
  | .literal l => .literal l
  | .localVar n => .localVar n
  | .path p => .path p.unfolded
  | .tuple es => .tuple es
  | .array es => .array es
  | .block ss t => .block ss t
  | .assign o a b => .assign o a b
  | .binary o a b => .binary o a b
  | .unary o a => .unary o a
  | .deref a => .deref a
  | .borrow k a => .borrow k a
  | .cast a t => .cast a t.unfolded
  | .callPath p es => .callPath p.unfolded es
  | .callMethod a m es => .callMethod a m es
  | .callValue a es => .callValue a es
  | .field a n => .field a n
  | .index a b => .index a b
  | .structLiteral p fs b => .structLiteral p.unfolded fs b
  | .ifElse c t e => .ifElse c t e
  | .matchOn v as => .matchOn v (Body.unfoldedArms as)
  | .loop l b => .loop l b
  | .ret v => .ret v
  | .brk l v => .brk l v
  | .cont l => .cont l

/-- Each arm of a match, its patterns unfolded. -/
def Body.unfoldedArms : List (Arm Pattern Nat) → List (Arm Pattern ExprId)
  | [] => []
  | ⟨ps, g, b⟩ :: as => ⟨Pattern.unfoldedAll ps, g, b⟩ :: Body.unfoldedArms as

/-- Each statement of an arena, what it mentions unfolded. -/
def Body.unfoldedStmts : List (Stmt Ty Pattern Nat) → List StmtNode
  | [] => []
  | s :: ss => Body.unfoldedStmt s :: Body.unfoldedStmts ss

/-- The statement with all bodies inside what it mentions laid out anew. -/
def Body.unfoldedStmt : Stmt Ty Pattern Nat → StmtNode
  | .letIn p t v => .letIn p.unfolded t.unfolded v
  | .expr e => .expr e

end

/-! ## Replacing what bodies mention -/

section

variable (f : Ty → Ty) (g : Path → Path) (h : Pattern → Pattern)

/-- The body with everything replaced that its nodes and statements mention. -/
def Body.mapMentions (b : Body) : Body :=
  .mk (b.exprs.map (·.mapMentions f g h)) (b.stmts.map (·.mapMentions f h)) b.root

/-- Nodes become terms with everything replaced that they mention. -/
def mentioning : Algebra Term TermStmt where
  expr node := .mk (node.mapMentions f g h)
  stmt stmt := .mk (stmt.mapMentions f h)
  lostExpr := unfolding.lostExpr
  lostStmt := unfolding.lostStmt

/-- The term with everything replaced that it mentions. -/
def Term.mapMentions (t : Term) : Term := t.read (mentioning f g h)

theorem Arena.unfold_mapMentions (es : List ExprNode) (ss : List StmtNode) (fuel : Nat)
    (id : ExprId) :
    Arena.readExpr unfolding ⟨es.map (·.mapMentions f g h), ss.map (·.mapMentions f h)⟩ fuel id =
      (Arena.readExpr unfolding ⟨es, ss⟩ fuel id).mapMentions f g h := by
  induction fuel generalizing id with
  | zero => rfl
  | succ fuel ih =>
    have hchild : Arena.readExpr unfolding
        ⟨es.map (·.mapMentions f g h), ss.map (·.mapMentions f h)⟩ fuel =
          fun j => (Arena.readExpr unfolding ⟨es, ss⟩ fuel j).mapMentions f g h := funext ih
    have hstmt : Arena.readStmt unfolding
        ⟨es.map (·.mapMentions f g h), ss.map (·.mapMentions f h)⟩ fuel =
          fun k => (Arena.readStmt unfolding ⟨es, ss⟩ fuel k).read (mentioning f g h) := by
      funext k
      simp only [Arena.readStmt, List.getElem?_map, hchild]
      cases ss[k]? with
      | none => rfl
      | some stmt =>
        change TermStmt.mk ((stmt.mapMentions f h).map _) = (TermStmt.mk (stmt.map _)).read _
        rw [TermStmt.read_mk, Stmt.map_map, Stmt.map_mapMentions]
        rfl
    cases hget : es[id]? with
    | none =>
      simp only [Arena.readExpr, List.getElem?_map, hget]
      rfl
    | some node =>
      have hget' : (es.map (·.mapMentions f g h))[id]? = some (node.mapMentions f g h) := by
        rw [List.getElem?_map, hget]
        rfl
      rw [Arena.readExpr_succ unfolding hget', Arena.readExpr_succ unfolding hget, hchild, hstmt]
      change Term.mk ((node.mapMentions f g h).map _ _) = (Term.mk (node.map _ _)).read _
      rw [Term.read_mk, Node.map_map, Node.map_mapMentions]
      rfl

/-- What a body mentions is replaced in the tree that it unfolds to. -/
theorem Body.term_mapMentions (b : Body) :
    (b.mapMentions f g h).term = b.term.mapMentions f g h := by
  have hlength : (b.mapMentions f g h).exprs.length = b.exprs.length := List.length_map _
  rw [Body.term, Body.read, hlength]
  exact Arena.unfold_mapMentions f g h b.exprs b.stmts b.exprs.length b.root

/-- Replacing what is mentioned leaves all numbers as they are. -/
theorem Body.Descending.mapMentions {b : Body} (hb : b.Descending) :
    (b.mapMentions f g h).Descending := by
  have hlength : (b.mapMentions f g h).exprs.length = b.exprs.length := List.length_map _
  have hlength' : (b.mapMentions f g h).stmts.length = b.stmts.length := List.length_map _
  have hget {i : ExprId} {node : ExprNode} (hi : (b.mapMentions f g h).exprs[i]? = some node) :
      ∃ node', b.exprs[i]? = some node' ∧ node'.mapMentions f g h = node :=
    Option.map_eq_some_iff.mp ((List.getElem?_map ..).symm.trans hi)
  have hexprRefs : (b.mapMentions f g h).arena.exprRefs = b.arena.exprRefs := by
    simp only [Arena.exprRefs, Body.arena, Body.mapMentions, Body.exprs, Body.stmts,
      List.flatMap_map, Node.children_mapMentions, Stmt.children_mapMentions]
  have hstmtRefs : (b.mapMentions f g h).arena.stmtRefs = b.arena.stmtRefs := by
    simp only [Arena.stmtRefs, Body.arena, Body.mapMentions, Body.exprs, List.flatMap_map,
      Node.statements_mapMentions]
  refine ⟨?_, ?_, ?_, fun i node hi => ?_, fun i node hi k hk s hs => ?_⟩
  · rw [hlength]
    exact hb.root_in_range
  · rw [hexprRefs, hlength]
    exact hb.exprs_in_range
  · rw [hstmtRefs, hlength']
    exact hb.stmts_in_range
  · obtain ⟨node', hi', rfl⟩ := hget hi
    rw [Node.children_mapMentions]
    exact hb.children i node' hi'
  · obtain ⟨node', hi', rfl⟩ := hget hi
    obtain ⟨s', hs', rfl⟩ := Option.map_eq_some_iff.mp ((List.getElem?_map ..).symm.trans hs)
    rw [Node.statements_mapMentions] at hk
    rw [Stmt.children_mapMentions]
    exact hb.throughStmts i node' hi' k hk s' hs'

end

/-! ## Trees decide -/

theorem Pattern.unfoldedAll_eq (ps : List Pattern) :
    Pattern.unfoldedAll ps = ps.map Pattern.unfolded := by
  induction ps with
  | nil => rfl
  | cons p ps ih => exact congrArg (p.unfolded :: ·) ih

theorem Body.unfoldedArms_eq (as : List (Arm Pattern Nat)) :
    Body.unfoldedArms as = as.map (·.mapPatterns Pattern.unfolded) := by
  induction as with
  | nil => rfl
  | cons a as ih =>
    rw [Body.unfoldedArms, ih, Pattern.unfoldedAll_eq]
    rfl

theorem Body.unfoldedNodes_eq (ns : List ExprNode) :
    Body.unfoldedNodes ns =
      ns.map (·.mapMentions Ty.unfolded Path.unfolded Pattern.unfolded) := by
  induction ns with
  | nil => rfl
  | cons n ns ih =>
    rw [Body.unfoldedNodes, ih, List.map_cons]
    congr 1
    cases n with
    | matchOn v as => exact congrArg (Node.matchOn v) (Body.unfoldedArms_eq as)
    | _ => rfl

theorem Body.unfoldedStmts_eq (ss : List StmtNode) :
    Body.unfoldedStmts ss = ss.map (·.mapMentions Ty.unfolded Pattern.unfolded) := by
  induction ss with
  | nil => rfl
  | cons s ss ih =>
    rw [Body.unfoldedStmts, ih, List.map_cons]
    congr 1
    cases s <;> rfl

/-- The body with all bodies inside it laid out anew, but not itself. -/
def Body.innerUnfolded (b : Body) : Body :=
  b.mapMentions Ty.unfolded Path.unfolded Pattern.unfolded

theorem Body.unfolded_eq_inner (b : Body) : b.unfolded = b.innerUnfolded.term.body := by
  cases b with
  | mk es ss root =>
    rw [Body.unfolded, Body.unfoldedNodes_eq, Body.unfoldedStmts_eq]
    rfl

/-- A body is laid out anew from its tree. -/
theorem Body.unfolded_eq (b : Body) :
    b.unfolded = (b.term.mapMentions Ty.unfolded Path.unfolded Pattern.unfolded).body := by
  rw [Body.unfolded_eq_inner, Body.innerUnfolded, Body.term_mapMentions]

theorem Body.unfolded_eq_of_term_eq {b b' : Body} (h : b.term = b'.term) :
    b.unfolded = b'.unfolded := by
  rw [Body.unfolded_eq, Body.unfolded_eq, h]

/-! ## Texts -/

/-- The fragment reads as before once the bodies inside it are laid out anew. -/
def Fragment.KeepsText : Fragment → Prop
  | .ty t => t.unfolded.text = t.text
  | .args as => as.unfolded.text = as.text
  | .applied p => p.unfolded.text = p.text
  | .path p => p.unfolded.text = p.text
  | .pattern p => p.unfolded.text = p.text
  | .kind k => k.unfolded.text = k.text
  | .body b => b.unfolded.text? = b.text?

theorem Ty.isUnit_unfolded (t : Ty) : t.unfolded.isUnit = t.isUnit := by
  cases t with
  | tuple ts => cases ts <;> rfl
  | _ => rfl

theorem Ty.isInfer_unfolded (t : Ty) : t.unfolded.isInfer = t.isInfer := by
  cases t <;> rfl

section

variable {ts : List Ty} {bs : List (String × Ty)} {ps : List AppliedPath} {qs : List Pattern}
  {fs : List (String × Pattern)}

theorem Ty.texts_unfolded (h : ∀ t ∈ ts, t.unfolded.text = t.text) :
    Ty.texts (Ty.unfoldedAll ts) = Ty.texts ts := by
  induction ts with
  | nil => rfl
  | cons t ts ih =>
    obtain ⟨ht, hts⟩ := List.forall_mem_cons.mp h
    exact congrArg₂ List.cons ht (ih hts)

theorem Ty.bindingTexts_unfolded (h : ∀ b ∈ bs, b.2.unfolded.text = b.2.text) :
    Ty.bindingTexts (Ty.unfoldedNamed bs) = Ty.bindingTexts bs := by
  induction bs with
  | nil => rfl
  | cons b bs ih =>
    obtain ⟨hb, hbs⟩ := List.forall_mem_cons.mp h
    exact congrArg₂ (fun text texts => (b.1 ++ "=" ++ text) :: texts) hb (ih hbs)

theorem AppliedPath.texts_unfolded (h : ∀ p ∈ ps, p.unfolded.text = p.text) :
    AppliedPath.texts (AppliedPath.unfoldedAll ps) = AppliedPath.texts ps := by
  induction ps with
  | nil => rfl
  | cons p ps ih =>
    obtain ⟨hp, hps⟩ := List.forall_mem_cons.mp h
    exact congrArg₂ List.cons hp (ih hps)

theorem Pattern.texts_unfolded (h : ∀ q ∈ qs, q.unfolded.text = q.text) :
    Pattern.texts (Pattern.unfoldedAll qs) = Pattern.texts qs := by
  induction qs with
  | nil => rfl
  | cons q qs ih =>
    obtain ⟨hq, hqs⟩ := List.forall_mem_cons.mp h
    exact congrArg₂ List.cons hq (ih hqs)

theorem Pattern.fieldTexts_unfolded (h : ∀ f ∈ fs, f.2.unfolded.text = f.2.text) :
    Pattern.fieldTexts (Pattern.unfoldedNamed fs) = Pattern.fieldTexts fs := by
  induction fs with
  | nil => rfl
  | cons f fs ih =>
    obtain ⟨hf, hfs⟩ := List.forall_mem_cons.mp h
    exact congrArg₂ (fun text texts => (f.1 ++ ": " ++ text) :: texts) hf (ih hfs)

end

theorem Ty.keepsText (t : Ty) (h : ∀ g ∈ (Fragment.ty t).parts, g.KeepsText) :
    t.unfolded.text = t.text := by
  cases t with
  | infer | primitive | param => rfl
  | tuple ts => exact congrArg Text.tuple (Ty.texts_unfolded (List.forall_mem_map.mp h))
  | borrow k t => exact congrArg (k.sign ++ ·) (h (.ty t) List.mem_cons_self)
  | pointer m t =>
    exact congrArg ((if m then "*mut " else "*const ") ++ ·) (h (.ty t) List.mem_cons_self)
  | array t size =>
    obtain ⟨ht, hsize⟩ := List.forall_mem_cons.mp h
    cases size with
    | none => exact congrArg ("[" ++ · ++ "]") ht
    | some b =>
      have hb : b.unfolded.text? = b.text? := hsize (.body b) List.mem_cons_self
      exact congrArg₂ (fun t n => "[" ++ t ++ "; " ++ Option.getD n "" ++ "]") ht hb
  | path p => exact h (.path p) List.mem_cons_self
  | traitObject ps =>
    exact congrArg ("dyn " ++ Text.joined " + " ·)
      (AppliedPath.texts_unfolded (List.forall_mem_map.mp h))
  | function u abi args ret =>
    obtain ⟨hargs, hret⟩ := List.forall_mem_append.mp h
    have hret : ret.unfolded.text = ret.text := hret (.ty ret) List.mem_cons_self
    rw [Ty.unfolded, Ty.text, Ty.texts_unfolded (List.forall_mem_map.mp hargs),
      ret.isUnit_unfolded, hret]
    rfl

theorem Path.keepsText (p : Path) (h : ∀ g ∈ (Fragment.path p).parts, g.KeepsText) :
    p.unfolded.text = p.text := by
  cases p with
  | plain p => exact h (.applied p) List.mem_cons_self
  | qualified self trait item args =>
    obtain ⟨hself, h⟩ := List.forall_mem_cons.mp h
    obtain ⟨hargs, htrait⟩ := List.forall_mem_cons.mp h
    cases trait with
    | none => exact congrArg₂ ("<" ++ · ++ ">::" ++ item ++ ·) hself hargs
    | some q =>
      have hq : q.unfolded.text = q.text := htrait (.applied q) List.mem_cons_self
      have hhead := congrArg₂ ("<" ++ · ++ " as " ++ · ++ ">::" ++ item) hself hq
      exact congrArg₂ (· ++ ·) hhead hargs

theorem PatternKind.keepsText (k : PatternKind) (h : ∀ g ∈ (Fragment.kind k).parts, g.KeepsText) :
    k.unfolded.text = k.text := by
  cases k with
  | any | value | range => rfl
  | tuple ps => exact congrArg Text.tuple (Pattern.texts_unfolded (List.forall_mem_map.mp h))
  | ref k p => exact congrArg (k.sign ++ ·) (h (.pattern p) List.mem_cons_self)
  | tupleStruct p ps =>
    obtain ⟨hp, hps⟩ := List.forall_mem_cons.mp h
    exact congrArg₂ (· ++ "(" ++ Text.joined ", " · ++ ")") hp
      (Pattern.texts_unfolded (List.forall_mem_map.mp hps))
  | struct p fs e =>
    obtain ⟨hp, hfs⟩ := List.forall_mem_cons.mp h
    exact congrArg₂ (· ++ " \x7b" ++ fieldPatternsText · e ++ " \x7d") hp
      (Pattern.fieldTexts_unfolded (List.forall_mem_map.mp hfs))

theorem Pattern.keepsText (p : Pattern) (h : ∀ g ∈ (Fragment.pattern p).parts, g.KeepsText) :
    p.unfolded.text = p.text := by
  obtain ⟨b, k⟩ := p
  have hk : k.unfolded.text = k.text := h (.kind k) List.mem_cons_self
  cases b with
  | none => exact hk
  | some b =>
    cases k with
    | any => rfl
    | _ => exact congrArg (b.text ++ " @ " ++ ·) hk

/-- A node that mentions what keeps its text mentions the same texts. -/
theorem Node.texts_unfolded {node : ExprNode} (h : ∀ f ∈ node.fragments, f.KeepsText) :
    (node.mapMentions Ty.unfolded Path.unfolded Pattern.unfolded).mapMentions
        Ty.text Path.text Pattern.text =
      node.mapMentions Ty.text Path.text Pattern.text := by
  cases node with
  | path p => exact congrArg Node.path (h (.path p) List.mem_cons_self)
  | cast a t => exact congrArg (Node.cast a) (h (.ty t) List.mem_cons_self)
  | callPath p es => exact congrArg (Node.callPath · es) (h (.path p) List.mem_cons_self)
  | structLiteral p fs b =>
    exact congrArg (Node.structLiteral · fs b) (h (.path p) List.mem_cons_self)
  | matchOn v as =>
    refine congrArg (Node.matchOn v) ((List.map_map ..).trans (List.map_congr_left fun a ha => ?_))
    have hpatterns := List.forall_mem_map.mp (List.forall_mem_flatMap.mp h a ha)
    refine congrArg (Arm.mk · a.guard a.body) ?_
    exact (List.map_map ..).trans (List.map_congr_left hpatterns)
  | _ => rfl

theorem Stmt.texts_unfolded {stmt : StmtNode} (h : ∀ f ∈ stmt.fragments, f.KeepsText) :
    (stmt.mapMentions Ty.unfolded Pattern.unfolded).mapMentions Ty.written? Pattern.text =
      stmt.mapMentions Ty.written? Pattern.text := by
  cases stmt with
  | letIn p t v =>
    obtain ⟨hp, ht⟩ := List.forall_mem_cons.mp h
    have hwritten : t.unfolded.written? = t.written? := by
      have ht : t.unfolded.text = t.text := ht (.ty t) List.mem_cons_self
      rw [Ty.written?, t.isInfer_unfolded, ht]
      rfl
    exact congrArg₂ (Stmt.letIn · · v) hp hwritten
  | expr e => rfl

/-- A descending body whose parts keep their texts keeps its own. -/
theorem Body.Descending.keepsText {b : Body} (hb : b.Descending)
    (h : ∀ g ∈ (Fragment.body b).parts, g.KeepsText) : b.unfolded.text? = b.text? := by
  obtain ⟨hexprs, hstmts⟩ := List.forall_mem_append.mp h
  have hinner : b.innerUnfolded.text? = b.text? := by
    cases b with
    | mk es ss root =>
      have hnodes : Body.nodeTexts
          (es.map (·.mapMentions Ty.unfolded Path.unfolded Pattern.unfolded)) =
            Body.nodeTexts es := by
        rw [Body.nodeTexts_eq, Body.nodeTexts_eq, List.map_map]
        exact List.map_congr_left fun node hnode =>
          Node.texts_unfolded (List.forall_mem_flatMap.mp hexprs node hnode)
      have htexts : Body.stmtTexts (ss.map (·.mapMentions Ty.unfolded Pattern.unfolded)) =
          Body.stmtTexts ss := by
        rw [Body.stmtTexts_eq, Body.stmtTexts_eq, List.map_map]
        exact List.map_congr_left fun stmt hstmt =>
          Stmt.texts_unfolded (List.forall_mem_flatMap.mp hstmts stmt hstmt)
      change exprText? (Body.nodeTexts (es.map _)) (Body.stmtTexts (ss.map _)) (es.map _).length
        root = exprText? (Body.nodeTexts es) (Body.stmtTexts ss) es.length root
      rw [hnodes, htexts, List.length_map]
  calc b.unfolded.text?
      _ = some b.innerUnfolded.term.text := by rw [b.unfolded_eq_inner, Term.text?_body]
      _ = b.innerUnfolded.text? := (hb.mapMentions _ _ _).text?_eq.symm
      _ = b.text? := hinner

/-- A fragment whose bodies are all descending reads as before once they are laid out
anew. -/
theorem Fragment.Everywhere.keepsText {f : Fragment} (h : f.Everywhere Fragment.Descending) :
    f.KeepsText := by
  induction f using Fragment.induction with
  | step f ih =>
    have hparts (g : Fragment) (hg : g ∈ f.parts) : g.KeepsText := ih g hg (h.part hg)
    cases f with
    | ty t => exact t.keepsText hparts
    | args as =>
      obtain ⟨ts, bs⟩ := as
      obtain ⟨hts, hbs⟩ := List.forall_mem_append.mp hparts
      exact congrArg₂ argsText (Ty.texts_unfolded (List.forall_mem_map.mp hts))
        (Ty.bindingTexts_unfolded (List.forall_mem_map.mp hbs))
    | applied p =>
      obtain ⟨p, as⟩ := p
      exact congrArg (p.text ++ ·) (hparts (.args as) List.mem_cons_self)
    | path p => exact p.keepsText hparts
    | pattern p => exact p.keepsText hparts
    | kind k => exact k.keepsText hparts
    | body b => exact Body.Descending.keepsText h.here hparts

/-- Bodies that are the same tree up to the layout of the bodies inside them have the
same text. -/
theorem Body.text?_eq_of_unfolded_eq {b b' : Body}
    (h : (Fragment.body b).Everywhere Fragment.Descending)
    (h' : (Fragment.body b').Everywhere Fragment.Descending) (heq : b.unfolded = b'.unfolded) :
    b.text? = b'.text? := by
  have hb : b.unfolded.text? = b.text? := h.keepsText
  have hb' : b'.unfolded.text? = b'.text? := h'.keepsText
  rw [← hb, ← hb', heq]

end Lowering.Core
