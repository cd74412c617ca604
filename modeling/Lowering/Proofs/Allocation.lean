import Lowering.Proofs.Parts

/-!
# Invariants of allocation

While a term is laid out, the numbers handed out so far fall into those that some
node or statement refers to and those that wait for the node that will. A node
takes its children and its statements from the end of the waiting numbers and
puts its own there; a statement does the same. `Layout.Invariant` is a relation
between an arena and its waiting numbers that both steps keep, and
`Term.layout_invariant` says that laying out a whole term keeps it and leaves one
number more waiting, that of the term.
-/

namespace Lowering.Core

namespace Layout

variable {ρ σ : Type}

/-- From every arena with `pre`, running `m` leads to a result and an arena with
`post`. -/
def Leads (pre : Arena → Prop) (m : Layout ρ) (post : ρ → Arena → Prop) : Prop :=
  ∀ a, pre a → post (m a).1 (m a).2

namespace Leads

theorem pure {pre : Arena → Prop} {post : ρ → Arena → Prop} {r : ρ} (h : ∀ a, pre a → post r a) :
    Leads pre (Pure.pure r) post := h

theorem bind {pre : Arena → Prop} {mid : ρ → Arena → Prop} {post : σ → Arena → Prop}
    {m : Layout ρ} {k : ρ → Layout σ} (hm : Leads pre m mid) (hk : ∀ r, Leads (mid r) (k r) post) :
    Leads pre (m >>= k) post :=
  fun a ha => hk (m a).1 (m a).2 (hm a ha)

end Leads

/-- A relation between an arena and the numbers that wait for a node to refer to
them, kept by every allocation of a node or statement whose fragments have `P`. -/
structure Invariant (P : Fragment → Prop) (J : Arena → List ExprId → List StmtId → Prop) :
    Prop where
  expr : ∀ {a : Arena} {es : List ExprId} {ss : List StmtId} (node : ExprNode),
    (∀ f ∈ node.fragments, P f) → J a (es ++ node.children) (ss ++ node.statements) →
    J ⟨a.exprs ++ [node], a.stmts⟩ (es ++ [a.exprs.length]) ss
  stmt : ∀ {a : Arena} {es : List ExprId} {ss : List StmtId} (stmt : StmtNode),
    (∀ f ∈ stmt.fragments, P f) → J a (es ++ stmt.children) ss →
    J ⟨a.exprs, a.stmts ++ [stmt]⟩ es (ss ++ [a.stmts.length])

end Layout

open Layout

section

variable {P : Fragment → Prop} {J : Arena → List ExprId → List StmtId → Prop}
  (hJ : Invariant P J)

include hJ

set_option linter.unusedSectionVars false

mutual

theorem Term.layout_invariant : ∀ t : Term, t.All P → ∀ es ss,
    Leads (J · es ss) t.layout fun id a => J a (es ++ [id]) ss
  | .mk node, .mk hf hc hs, es, ss => by
    simp only [Term.layout]
    refine (Term.layoutNode_invariant node hc hs es ss).bind fun n a ⟨hn, ha⟩ => ?_
    exact hJ.expr n (hn ▸ hf) ha

theorem Term.layoutNode_invariant : ∀ node : Node Ty Path Pattern Term TermStmt,
    (∀ t ∈ node.children, t.All P) → (∀ s ∈ node.statements, s.All P) → ∀ es ss,
    Leads (J · es ss) (Term.layoutNode node) fun n a =>
      n.fragments = node.fragments ∧ J a (es ++ n.children) (ss ++ n.statements)
  | .literal _, _, _, _, _ | .localVar _, _, _, _, _ | .path _, _, _, _, _ | .cont _, _, _, _, _ =>
    .pure fun _ h => ⟨rfl, by simpa [Node.children, Node.statements] using h⟩
  | .tuple ts, hc, _, es, ss | .array ts, hc, _, es, ss | .callPath _ ts, hc, _, es, ss =>
    (Term.layoutAll_invariant ts hc es ss).bind fun _ => .pure fun _ h =>
      ⟨rfl, by simpa [Node.children, Node.statements] using h⟩
  | .ret v, hc, _, es, ss | .brk _ v, hc, _, es, ss =>
    (Term.layoutOpt_invariant v hc es ss).bind fun _ => .pure fun _ h =>
      ⟨rfl, by simpa [Node.children, Node.statements] using h⟩
  | .unary _ a, hc, _, es, ss | .deref a, hc, _, es, ss | .borrow _ a, hc, _, es, ss
  | .cast a _, hc, _, es, ss | .field a _, hc, _, es, ss | .loop _ a, hc, _, es, ss =>
    (Term.layout_invariant a (hc a List.mem_cons_self) es ss).bind fun _ => .pure fun _ h =>
      ⟨rfl, by simpa [Node.children, Node.statements] using h⟩
  | .assign _ a b, hc, _, es, ss | .binary _ a b, hc, _, es, ss | .index a b, hc, _, es, ss =>
    have ⟨ha, hb⟩ := List.forall_mem_cons.mp hc
    (Term.layout_invariant a ha es ss).bind fun i =>
    (Term.layout_invariant b (hb b List.mem_cons_self) (es ++ [i]) ss).bind fun _ =>
    .pure fun _ h => ⟨rfl, by simpa [Node.children, Node.statements] using h⟩
  | .callMethod a _ ts, hc, _, es, ss | .callValue a ts, hc, _, es, ss =>
    have ⟨ha, hts⟩ := List.forall_mem_cons.mp hc
    (Term.layout_invariant a ha es ss).bind fun i =>
    (Term.layoutAll_invariant ts hts (es ++ [i]) ss).bind fun _ =>
    .pure fun _ h => ⟨rfl, by simpa [Node.children, Node.statements] using h⟩
  -- the statements of a block wait while its tail is laid out
  | .block sts t, hc, hs, es, ss =>
    (TermStmt.layoutAll_invariant sts hs es ss).bind fun ids =>
    (Term.layoutOpt_invariant t hc es (ss ++ ids)).bind fun _ => .pure fun _ h => ⟨rfl, h⟩
  | .structLiteral _ fs b, hc, _, es, ss =>
    have ⟨hfs, hb⟩ := List.forall_mem_append.mp hc
    (Term.layoutFields_invariant fs hfs es ss).bind fun ids =>
    (Term.layoutOpt_invariant b hb (es ++ ids.map Prod.snd) ss).bind fun _ =>
    .pure fun _ h => ⟨rfl, by simpa [Node.children, Node.statements] using h⟩
  | .ifElse c t e, hc, _, es, ss =>
    have ⟨hcond, hrest⟩ := List.forall_mem_cons.mp hc
    have ⟨hthen, helse⟩ := List.forall_mem_cons.mp hrest
    (Term.layout_invariant c hcond es ss).bind fun i =>
    (Term.layout_invariant t hthen (es ++ [i]) ss).bind fun j =>
    (Term.layoutOpt_invariant e helse (es ++ [i] ++ [j]) ss).bind fun _ =>
    .pure fun _ h => ⟨rfl, by simpa [Node.children, Node.statements] using h⟩
  | .matchOn v as, hc, _, es, ss =>
    have ⟨hv, has⟩ := List.forall_mem_cons.mp hc
    (Term.layout_invariant v hv es ss).bind fun i =>
    (Term.layoutArms_invariant as has (es ++ [i]) ss).bind fun _ =>
    .pure fun _ ⟨hf, h⟩ => ⟨hf, by simpa [Node.children, Node.statements] using h⟩

theorem Term.layoutAll_invariant : ∀ ts : List Term, (∀ t ∈ ts, t.All P) → ∀ es ss,
    Leads (J · es ss) (Term.layoutAll ts) fun ids a => J a (es ++ ids) ss
  | [], _, _, _ => .pure fun _ h => by simpa using h
  | t :: ts, hc, es, ss =>
    have ⟨ht, hts⟩ := List.forall_mem_cons.mp hc
    (Term.layout_invariant t ht es ss).bind fun i =>
    (Term.layoutAll_invariant ts hts (es ++ [i]) ss).bind fun _ =>
    .pure fun _ h => by simpa using h

theorem Term.layoutOpt_invariant : ∀ e : Option Term, (∀ t ∈ e.toList, t.All P) → ∀ es ss,
    Leads (J · es ss) (Term.layoutOpt e) fun id a => J a (es ++ id.toList) ss
  | none, _, _, _ => .pure fun _ h => by simpa using h
  | some t, hc, es, ss =>
    (Term.layout_invariant t (hc t List.mem_cons_self) es ss).bind fun _ => .pure fun _ h => h

theorem Term.layoutFields_invariant : ∀ fs : List (String × Term),
    (∀ t ∈ fs.map Prod.snd, t.All P) → ∀ es ss,
    Leads (J · es ss) (Term.layoutFields fs) fun ids a => J a (es ++ ids.map Prod.snd) ss
  | [], _, _, _ => .pure fun _ h => by simpa using h
  | (_, t) :: fs, hc, es, ss =>
    have ⟨ht, hfs⟩ := List.forall_mem_cons.mp hc
    (Term.layout_invariant t ht es ss).bind fun i =>
    (Term.layoutFields_invariant fs hfs (es ++ [i]) ss).bind fun _ =>
    .pure fun _ h => by simpa using h

theorem Term.layoutArms_invariant : ∀ as : List (Arm Pattern Term),
    (∀ t ∈ as.flatMap Arm.children, t.All P) → ∀ es ss,
    Leads (J · es ss) (Term.layoutArms as) fun ids a =>
      (ids.flatMap fun a => a.patterns.map Fragment.pattern) =
        (as.flatMap fun a => a.patterns.map Fragment.pattern) ∧
      J a (es ++ ids.flatMap Arm.children) ss
  | [], _, _, _ => .pure fun _ h => ⟨rfl, by simpa using h⟩
  | ⟨ps, g, b⟩ :: as, hc, es, ss =>
    have ⟨harm, has⟩ := List.forall_mem_append.mp hc
    have ⟨hg, hb⟩ := List.forall_mem_append.mp harm
    (Term.layoutOpt_invariant g hg es ss).bind fun i =>
    (Term.layout_invariant b (hb b List.mem_cons_self) (es ++ i.toList) ss).bind fun j =>
    (Term.layoutArms_invariant as has (es ++ i.toList ++ [j]) ss).bind fun _ =>
    .pure fun _ ⟨hf, h⟩ => ⟨by simp [hf], by simpa [Arm.children] using h⟩

theorem TermStmt.layout_invariant : ∀ s : TermStmt, s.All P → ∀ es ss,
    Leads (J · es ss) s.layout fun id a => J a es (ss ++ [id])
  | .mk (.letIn p t v), .mk hf hc, es, ss =>
    (Term.layoutOpt_invariant v hc es ss).bind fun i _ h => hJ.stmt (.letIn p t i) hf h
  | .mk (.expr e), .mk hf hc, es, ss =>
    (Term.layout_invariant e (hc e List.mem_cons_self) es ss).bind fun i _ h =>
      hJ.stmt (.expr i) hf h

theorem TermStmt.layoutAll_invariant : ∀ sts : List TermStmt, (∀ s ∈ sts, s.All P) → ∀ es ss,
    Leads (J · es ss) (TermStmt.layoutAll sts) fun ids a => J a es (ss ++ ids)
  | [], _, _, _ => .pure fun _ h => by simpa using h
  | s :: sts, hs, es, ss =>
    have ⟨hfirst, hrest⟩ := List.forall_mem_cons.mp hs
    (TermStmt.layout_invariant s hfirst es ss).bind fun i =>
    (TermStmt.layoutAll_invariant sts hrest es (ss ++ [i])).bind fun _ =>
    .pure fun _ h => by simpa using h

end

end

/-- A property of every fragment that the nodes and statements of an arena
mention. -/
def Arena.Mentions (P : Fragment → Prop) (a : Arena) : Prop :=
  ∀ f ∈ a.exprs.flatMap Node.fragments ++ a.stmts.flatMap Stmt.fragments, P f

theorem Arena.mentions_invariant (P : Fragment → Prop) :
    Invariant P fun a _ _ => a.Mentions P where
  expr node hnode ha f hf := by
    simp only [List.flatMap_append, List.flatMap_singleton, List.mem_append] at hf
    rcases hf with (hf | hf) | hf
    · exact ha f (List.mem_append_left _ hf)
    · exact hnode f hf
    · exact ha f (List.mem_append_right _ hf)
  stmt stmt hstmt ha f hf := by
    simp only [List.flatMap_append, List.flatMap_singleton, List.mem_append] at hf
    rcases hf with hf | hf | hf
    · exact ha f (List.mem_append_left _ hf)
    · exact ha f (List.mem_append_right _ hf)
    · exact hstmt f hf

/-- The body of a term mentions only what the term mentions. -/
theorem Term.All.body_parts {P : Fragment → Prop} {t : Term} (h : t.All P) :
    ∀ f ∈ (Fragment.body t.body).parts, P f :=
  Term.layout_invariant (Arena.mentions_invariant P) t h [] [] {} (by simp [Arena.Mentions])

end Lowering.Core
