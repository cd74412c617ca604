import Lowering.Proofs.Parts
import Lowering.Proofs.Reading

/-!
# Post-order

A visit of a body goes down from the root, opens the statements of a block before
its tail and children in evaluation order, and meets a number when it leaves it. A
body is in post-order when the visit meets the expressions 0, 1, 2, ... and the
statements 0, 1, 2, ..., all of them and in this order.

What is proved:
  1. `Term.body_postOrder`: a term is laid out in post-order. The numbers that one
     layout step hands out are those that a visit of its result meets
     (`Layout.HandsOut`).
  2. `Body.body_term`: a body in post-order is the layout of the term that it
     unfolds to, number for number. Laying the term out again allocates, step by
     step, what the arenas already hold (`Arena.Restores`).
-/

namespace Lowering.Core

/-! ## Visits -/

/-- The numbers that a visit meets, in order. -/
structure Visit where
  exprs : List ExprId := []
  stmts : List StmtId := []

namespace Visit

/-- The visit of one expression that opens nothing. -/
def expr (id : ExprId) : Visit := ⟨[id], []⟩

/-- The visit of one statement that opens nothing. -/
def stmt (id : StmtId) : Visit := ⟨[], [id]⟩

instance : Append Visit := ⟨fun v w => ⟨v.exprs ++ w.exprs, v.stmts ++ w.stmts⟩⟩

@[simp] theorem exprs_append (v w : Visit) : (v ++ w).exprs = v.exprs ++ w.exprs := rfl

@[simp] theorem stmts_append (v w : Visit) : (v ++ w).stmts = v.stmts ++ w.stmts := rfl

@[simp] theorem nil_append (v : Visit) : ({} : Visit) ++ v = v := rfl

@[simp] theorem append_nil (v : Visit) : v ++ ({} : Visit) = v := by
  show Visit.mk (v.exprs ++ []) (v.stmts ++ []) = v
  simp only [List.append_nil]

theorem append_assoc (u v w : Visit) : u ++ v ++ w = u ++ (v ++ w) := by
  show Visit.mk (u.exprs ++ v.exprs ++ w.exprs) (u.stmts ++ v.stmts ++ w.stmts) = _
  simp only [List.append_assoc]
  rfl

/-- One visit after the other. -/
def all : List Visit → Visit
  | [] => {}
  | v :: vs => v ++ all vs

@[simp] theorem all_nil : all [] = {} := rfl

@[simp] theorem all_cons (v : Visit) (vs : List Visit) : all (v :: vs) = v ++ all vs := rfl

@[simp] theorem all_append (vs ws : List Visit) : all (vs ++ ws) = all vs ++ all ws := by
  induction vs with
  | nil => rfl
  | cons v vs ih => rw [List.cons_append, all_cons, all_cons, ih, append_assoc]

/-- The visit meets expressions from `i` on and statements from `j` on, in the
order of their numbers. -/
structure InOrder (v : Visit) (i : ExprId) (j : StmtId) : Prop where
  exprs : v.exprs = List.range' i v.exprs.length
  stmts : v.stmts = List.range' j v.stmts.length

end Visit

/-- A list counts up from a number when its first part does and its second part
goes on from there. -/
theorem append_eq_range' {xs ys : List Nat} {i : Nat} :
    xs ++ ys = List.range' i (xs ++ ys).length ↔
      xs = List.range' i xs.length ∧ ys = List.range' (i + xs.length) ys.length := by
  rw [List.length_append, ← List.range'_append_1]
  constructor
  · intro h
    exact List.append_inj h (by simp)
  · rintro ⟨hx, hy⟩
    rw [← hx, ← hy]

theorem Visit.inOrder_append {v w : Visit} {i : ExprId} {j : StmtId} :
    (v ++ w).InOrder i j ↔
      v.InOrder i j ∧ w.InOrder (i + v.exprs.length) (j + v.stmts.length) := by
  constructor
  · rintro ⟨he, hs⟩
    obtain ⟨hve, hwe⟩ := append_eq_range'.mp he
    obtain ⟨hvs, hws⟩ := append_eq_range'.mp hs
    exact ⟨⟨hve, hvs⟩, ⟨hwe, hws⟩⟩
  · rintro ⟨⟨hve, hvs⟩, ⟨hwe, hws⟩⟩
    exact ⟨append_eq_range'.mpr ⟨hve, hwe⟩, append_eq_range'.mpr ⟨hvs, hws⟩⟩

theorem Visit.inOrder_expr {id i : ExprId} {j : StmtId} :
    (Visit.expr id).InOrder i j ↔ id = i := by
  constructor
  · intro h
    exact List.head_eq_of_cons_eq h.exprs
  · rintro rfl
    exact ⟨rfl, rfl⟩

theorem Visit.inOrder_stmt {id j : StmtId} {i : ExprId} :
    (Visit.stmt id).InOrder i j ↔ id = j := by
  constructor
  · intro h
    exact List.head_eq_of_cons_eq h.stmts
  · rintro rfl
    exact ⟨rfl, rfl⟩

/-- The visit of what a node refers to: its statements, then its children. -/
def Node.visit (expr : ExprId → Visit) (stmt : StmtId → Visit) (node : ExprNode) : Visit :=
  .all (node.statements.map stmt) ++ .all (node.children.map expr)

/-- The visit of the statement numbered `id`: what it refers to, then itself. -/
def Arena.visitStmt (a : Arena) (expr : ExprId → Visit) (id : StmtId) : Visit :=
  match a.stmts[id]? with
  | none => .stmt id
  | some stmt => .all (stmt.children.map expr) ++ .stmt id

/-- The visit of the expression numbered `id`: what it refers to, then itself. A
number that leads nowhere, or beyond chains of `fuel` nodes, is met but not
opened. -/
def Arena.visit (a : Arena) : (fuel : Nat) → ExprId → Visit
  | 0, id => .expr id
  | fuel + 1, id =>
    match a.exprs[id]? with
    | none => .expr id
    | some node => node.visit (a.visit fuel) (a.visitStmt (a.visit fuel)) ++ .expr id

/-- The visit of a body from its root. No chain of children without a cycle is
longer than the arena. -/
def Body.visit (b : Body) : Visit := Arena.visit ⟨b.exprs, b.stmts⟩ b.exprs.length b.root

/-- A visit from the root meets every expression and every statement, in the order
of their numbers. -/
structure Body.PostOrder (b : Body) : Prop where
  exprs : b.visit.exprs = List.range b.exprs.length
  stmts : b.visit.stmts = List.range b.stmts.length

/-- The body of `x = { y; z }`, and one with the same tree whose operands are
swapped in the arena. -/
example :
    let s : StmtNode := .expr 1
    (Body.mk [.localVar "x", .localVar "y", .localVar "z", .block [0] (some 2), .assign none 0 3]
        [s] 4).visit = ⟨[0, 1, 2, 3, 4], [0]⟩ ∧
      (Body.mk [.localVar "y", .localVar "x", .binary .add 1 0] [] 2).visit = ⟨[1, 0, 2], []⟩ :=
  ⟨rfl, rfl⟩

theorem Arena.visit_succ {a : Arena} {id : ExprId} {node : ExprNode}
    (h : a.exprs[id]? = some node) (fuel : Nat) :
    a.visit (fuel + 1) id =
      node.visit (a.visit fuel) (a.visitStmt (a.visit fuel)) ++ .expr id := by
  simp only [Arena.visit, h]

theorem Arena.visitStmt_of_get {a : Arena} {id : StmtId} {stmt : StmtNode}
    (h : a.stmts[id]? = some stmt) (expr : ExprId → Visit) :
    a.visitStmt expr id = .all (stmt.children.map expr) ++ .stmt id := by
  simp only [Arena.visitStmt, h]

/-! ## Terms are laid out in post-order -/

/-- The numbers that are handed out between two arenas. -/
def Arena.between (a b : Arena) : Visit where
  exprs := List.range' a.exprs.length (b.exprs.length - a.exprs.length)
  stmts := List.range' a.stmts.length (b.stmts.length - a.stmts.length)

theorem Arena.between_self (a : Arena) : a.between a = {} := by
  simp [Arena.between]

theorem Arena.between_append {a b c : Arena} (hba : b.Extends a) (hcb : c.Extends b) :
    a.between b ++ b.between c = a.between c := by
  have range'_split {i j k : Nat} (hij : i ≤ j) (hjk : j ≤ k) :
      List.range' i (j - i) ++ List.range' j (k - j) = List.range' i (k - i) := by
    have hj : j = i + (j - i) := by omega
    have hk : k - i = (j - i) + (k - j) := by omega
    rw [hk, ← List.range'_append_1, ← hj]
  have hexprs := range'_split hba.exprs.length_le hcb.exprs.length_le
  have hstmts := range'_split hba.stmts.length_le hcb.stmts.length_le
  show Visit.mk _ _ = Visit.mk _ _
  rw [← hexprs, ← hstmts]
  rfl

namespace Layout

variable {ρ σ : Type}

/-- Running `m` only adds to the arena, and the numbers that it hands out are what
`meets` says of its result in every arena that extends the one it leaves, with fuel
for that one's nodes. -/
def HandsOut (m : Layout ρ) (meets : Arena → (fuel : Nat) → ρ → Visit → Prop) : Prop :=
  ∀ a, (m a).2.Extends a ∧ ∀ A fuel, A.Extends (m a).2 → (m a).2.exprs.length ≤ fuel →
    meets A fuel (m a).1 (a.between (m a).2)

namespace HandsOut

theorem pure {meets : Arena → Nat → ρ → Visit → Prop} {r : ρ}
    (h : ∀ A fuel, meets A fuel r {}) : HandsOut (Pure.pure r) meets := by
  refine fun a => ⟨.refl a, fun A fuel _ _ => ?_⟩
  have hself : a.between a = {} := a.between_self
  exact hself ▸ h A fuel

/-- Two steps hand out what the first one does and then what the second one does. -/
theorem bind {m : Layout ρ} {k : ρ → Layout σ} {first : Arena → Nat → ρ → Visit → Prop}
    {meets : Arena → Nat → σ → Visit → Prop} (hm : HandsOut m first)
    (hk : ∀ r, HandsOut (k r) fun A fuel s w =>
      ∀ v, first A fuel r v → meets A fuel s (v ++ w)) :
    HandsOut (m >>= k) meets := by
  intro a
  obtain ⟨hext, hfirst⟩ := hm a
  obtain ⟨hext', hmeets⟩ := hk (m a).1 (m a).2
  refine ⟨hext'.trans hext, fun A fuel hA hfuel => ?_⟩
  have hlen := Nat.le_trans hext'.length_le hfuel
  have hall := hmeets A fuel hA hfuel _ (hfirst A fuel (hA.trans hext') hlen)
  rw [Arena.between_append hext hext'] at hall
  exact hall

/-- A statement is met after what it refers to. -/
theorem stmt {m : Layout StmtNode} (hm : HandsOut m fun A fuel s v =>
      .all (s.children.map (A.visit fuel)) = v) :
    HandsOut (m >>= Layout.stmt) fun A fuel id v => A.visitStmt (A.visit fuel) id = v := by
  refine hm.bind fun s a => ?_
  have hpush : Arena.Extends ⟨a.exprs, a.stmts ++ [s]⟩ a :=
    ⟨List.prefix_rfl, List.prefix_append _ _⟩
  refine ⟨hpush, fun A fuel hA _ v hv => ?_⟩
  have hA : A.Extends ⟨a.exprs, a.stmts ++ [s]⟩ := hA
  have hget : A.stmts[a.stmts.length]? = some s := hA.getStmt (by simp)
  have hone : a.between ⟨a.exprs, a.stmts ++ [s]⟩ = .stmt a.stmts.length := by
    simp [Arena.between, Visit.stmt]
  show A.visitStmt _ a.stmts.length = v ++ a.between ⟨a.exprs, a.stmts ++ [s]⟩
  rw [Arena.visitStmt_of_get hget, hv, hone]

/-- A node is met after what it refers to. -/
theorem expr {m : Layout ExprNode} (hm : HandsOut m fun A fuel node v =>
      node.visit (A.visit fuel) (A.visitStmt (A.visit fuel)) = v) :
    HandsOut (m >>= Layout.expr) fun A fuel id v => A.visit fuel id = v := by
  intro a
  obtain ⟨hext, hbelow⟩ := hm a
  have hrun : (m >>= Layout.expr) a =
      ((m a).2.exprs.length, ⟨(m a).2.exprs ++ [(m a).1], (m a).2.stmts⟩) := rfl
  rw [hrun]
  have hpush : Arena.Extends ⟨(m a).2.exprs ++ [(m a).1], (m a).2.stmts⟩ (m a).2 :=
    ⟨List.prefix_append _ _, List.prefix_rfl⟩
  refine ⟨hpush.trans hext, fun A fuel hA hfuel => ?_⟩
  have hget : A.exprs[(m a).2.exprs.length]? = some (m a).1 := hA.getExpr (by simp)
  have hlen : (m a).2.exprs.length + 1 ≤ fuel := by simpa using hfuel
  -- the node is opened with one unit of fuel, what is below it with the rest
  obtain ⟨rest, rfl⟩ := Nat.exists_eq_add_of_le' hlen
  have hrest := hbelow A (rest + (m a).2.exprs.length) (hA.trans hpush) (Nat.le_add_left _ _)
  have hone : (m a).2.between ⟨(m a).2.exprs ++ [(m a).1], (m a).2.stmts⟩ =
      .expr (m a).2.exprs.length := by
    simp [Arena.between, Visit.expr]
  show A.visit (rest + (m a).2.exprs.length + 1) (m a).2.exprs.length = _
  rw [Arena.visit_succ hget, hrest, ← hone, Arena.between_append hext hpush]

end HandsOut

end Layout

open Layout

mutual

theorem Term.layout_handsOut : ∀ t : Term,
    HandsOut t.layout fun A fuel id v => A.visit fuel id = v
  | .mk node => by
    simp only [Term.layout]
    exact (Term.layoutNode_handsOut node).expr

theorem Term.layoutNode_handsOut : ∀ node : Node Ty Path Pattern Term TermStmt,
    HandsOut (Term.layoutNode node) fun A fuel n v =>
      n.visit (A.visit fuel) (A.visitStmt (A.visit fuel)) = v
  | .literal _ | .localVar _ | .path _ | .cont _ => .pure fun _ _ => rfl
  | .tuple es | .array es | .callPath _ es =>
    (Term.layoutAll_handsOut es).bind fun _ => .pure fun A fuel v h => by
      simp [Node.visit, Node.statements, Node.children, h]
  | .unary _ a | .deref a | .borrow _ a | .cast a _ | .field a _ | .loop _ a =>
    (Term.layout_handsOut a).bind fun _ => .pure fun A fuel v h => by
      simp [Node.visit, Node.statements, Node.children, h]
  | .ret v | .brk _ v => (Term.layoutOpt_handsOut v).bind fun _ => .pure fun A fuel v h => by
      simp [Node.visit, Node.statements, Node.children, h]
  | .assign _ a b | .binary _ a b | .index a b =>
    (Term.layout_handsOut a).bind fun _ => (Term.layout_handsOut b).bind fun _ =>
      .pure fun A fuel w hb v ha => by
        simp [Node.visit, Node.statements, Node.children, ha, hb]
  | .callMethod a _ es | .callValue a es =>
    (Term.layout_handsOut a).bind fun _ => (Term.layoutAll_handsOut es).bind fun _ =>
      .pure fun A fuel w hes v ha => by
        simp [Node.visit, Node.statements, Node.children, ha, hes]
  | .matchOn v as => (Term.layout_handsOut v).bind fun _ =>
      (Term.layoutArms_handsOut as).bind fun _ => .pure fun A fuel w has v hv => by
        simp [Node.visit, Node.statements, Node.children, hv, has]
  | .block ss t =>
    (TermStmt.layoutAll_handsOut ss).bind fun _ => (Term.layoutOpt_handsOut t).bind fun _ =>
      .pure fun A fuel w ht v hss => by
        simp [Node.visit, Node.statements, Node.children, hss, ht]
  | .structLiteral _ fs b =>
    (Term.layoutFields_handsOut fs).bind fun _ => (Term.layoutOpt_handsOut b).bind fun _ =>
      .pure fun A fuel w hb v hfs => by
        simp only [Node.visit, Node.statements, Node.children, List.map_append, Visit.all_append,
          List.map_nil, Visit.all_nil, Visit.nil_append, Visit.append_nil, hb, hfs]
  | .ifElse c t e => (Term.layout_handsOut c).bind fun _ => (Term.layout_handsOut t).bind fun _ =>
      (Term.layoutOpt_handsOut e).bind fun _ => .pure fun A fuel u he w ht v hc => by
        simp [Node.visit, Node.statements, Node.children, hc, ht, he]

theorem Term.layoutAll_handsOut : ∀ es : List Term,
    HandsOut (Term.layoutAll es) fun A fuel ids v => .all (ids.map (A.visit fuel)) = v
  | [] => .pure fun _ _ => rfl
  | e :: es => (Term.layout_handsOut e).bind fun _ => (Term.layoutAll_handsOut es).bind fun _ =>
      .pure fun A fuel w hs v h => by simp [h, hs]

theorem Term.layoutOpt_handsOut : ∀ e : Option Term,
    HandsOut (Term.layoutOpt e) fun A fuel id v => .all (id.toList.map (A.visit fuel)) = v
  | none => .pure fun _ _ => rfl
  | some e => (Term.layout_handsOut e).bind fun _ => .pure fun A fuel v h => by simp [h]

theorem Term.layoutFields_handsOut : ∀ fs : List (String × Term),
    HandsOut (Term.layoutFields fs) fun A fuel ids v =>
      .all ((ids.map Prod.snd).map (A.visit fuel)) = v
  | [] => .pure fun _ _ => rfl
  | (_, e) :: fs => (Term.layout_handsOut e).bind fun _ =>
      (Term.layoutFields_handsOut fs).bind fun _ => .pure fun A fuel w hs v h => by
        rw [List.map_cons, List.map_cons, Visit.all_cons, h, hs, Visit.append_nil]

theorem Term.layoutArms_handsOut : ∀ as : List (Arm Pattern Term),
    HandsOut (Term.layoutArms as) fun A fuel ids v =>
      .all ((ids.flatMap Arm.children).map (A.visit fuel)) = v
  | [] => .pure fun _ _ => rfl
  | ⟨ps, g, b⟩ :: as => (Term.layoutOpt_handsOut g).bind fun _ =>
      (Term.layout_handsOut b).bind fun _ => (Term.layoutArms_handsOut as).bind fun _ =>
      .pure fun A fuel u hs w hb v hg => by
        rw [List.flatMap_cons, List.map_append, Visit.all_append, hs, Visit.append_nil]
        simp only [Arm.children, List.map_append, Visit.all_append, hg, List.map_cons,
          List.map_nil, Visit.all_cons, Visit.all_nil, Visit.append_nil, hb, Visit.append_assoc]

theorem TermStmt.layout_handsOut : ∀ s : TermStmt,
    HandsOut s.layout fun A fuel id v => A.visitStmt (A.visit fuel) id = v
  | .mk (.letIn p t v) => by
    show HandsOut ((Term.layoutOpt v >>= fun v => pure (.letIn p t v)) >>= Layout.stmt) _
    refine .stmt ((Term.layoutOpt_handsOut v).bind fun _ => .pure fun A fuel v h => ?_)
    rw [Visit.append_nil]
    exact h
  | .mk (.expr e) => by
    show HandsOut ((e.layout >>= fun e => pure (.expr e)) >>= Layout.stmt) _
    refine .stmt ((Term.layout_handsOut e).bind fun _ => .pure fun A fuel v h => ?_)
    simp [Stmt.children, h]

theorem TermStmt.layoutAll_handsOut : ∀ ss : List TermStmt,
    HandsOut (TermStmt.layoutAll ss) fun A fuel ids v =>
      .all (ids.map (A.visitStmt (A.visit fuel))) = v
  | [] => .pure fun _ _ => rfl
  | s :: ss => (TermStmt.layout_handsOut s).bind fun _ =>
      (TermStmt.layoutAll_handsOut ss).bind fun _ => .pure fun A fuel w hs v h => by simp [h, hs]

end

/-- A term is laid out in post-order. -/
theorem Term.body_postOrder (t : Term) : t.body.PostOrder := by
  obtain ⟨-, hvisit⟩ := Term.layout_handsOut t {}
  have hbody : t.body.visit = Arena.between {} (t.layout {}).2 :=
    hvisit _ _ (.refl _) (Nat.le_refl _)
  refine ⟨?_, ?_⟩
  · rw [hbody, List.range_eq_range']
    rfl
  · rw [hbody, List.range_eq_range']
    rfl

/-! ## Bodies in post-order are layouts -/

/-- Nodes become terms; a number that leads nowhere becomes the empty tuple. -/
def unfolding : Algebra Term TermStmt where
  expr := .mk
  stmt := .mk
  lostExpr := .mk (.tuple [])
  lostStmt := .mk (.expr (.mk (.tuple [])))

/-- The term that a body unfolds to from its root. -/
def Body.term (b : Body) : Term := b.read unfolding

namespace Arena

/-- The arena with its first `i` nodes and its first `j` statements only. -/
def upTo (A : Arena) (i : ExprId) (j : StmtId) : Arena := ⟨A.exprs.take i, A.stmts.take j⟩

/-- If `v` counts up from where a part of `A` ends, to a number of at most `fuel`,
then running `m` on that part allocates what `A` holds under the numbers of `v`, and
gives `r`. -/
def Restores {ρ : Type} (A : Arena) (fuel : Nat) (v : Visit) (m : Layout ρ) (r : ρ) : Prop :=
  ∀ i j, v.InOrder i j → i + v.exprs.length ≤ fuel → j + v.stmts.length ≤ A.stmts.length →
    m (A.upTo i j) = (r, A.upTo (i + v.exprs.length) (j + v.stmts.length))

namespace Restores

variable {ρ σ : Type} {A : Arena} {fuel : Nat} {v w : Visit}

theorem pure (r : ρ) : A.Restores fuel {} (Pure.pure r) r := fun _ _ _ _ _ => rfl

theorem bind {m : Layout ρ} {k : ρ → Layout σ} {r : ρ} {s : σ} (hm : A.Restores fuel v m r)
    (hk : A.Restores fuel w (k r) s) : A.Restores fuel (v ++ w) (m >>= k) s := by
  intro i j hvw hfuel hstmts
  obtain ⟨hv, hw⟩ := Visit.inOrder_append.mp hvw
  simp only [Visit.exprs_append, Visit.stmts_append, List.length_append, ← Nat.add_assoc]
    at hfuel hstmts ⊢
  have hfirst := hm i j hv (Nat.le_trans (Nat.le_add_right _ _) hfuel)
    (Nat.le_trans (Nat.le_add_right _ _) hstmts)
  have hsecond := hk _ _ hw hfuel hstmts
  show k (m (A.upTo i j)).1 (m (A.upTo i j)).2 = _
  rw [hfirst, hsecond]

theorem map {m : Layout ρ} {r : ρ} (hm : A.Restores fuel v m r) (f : ρ → σ) :
    A.Restores fuel v (m >>= fun r => Pure.pure (f r)) (f r) := by
  have h := hm.bind (k := fun r => Pure.pure (f r)) (Restores.pure (f r))
  rwa [Visit.append_nil] at h

end Restores

section

variable {A : Arena} {fuel : Nat} {visit : ExprId → Visit} {visitStmt : StmtId → Visit}
  {child : ExprId → Term} {statement : StmtId → TermStmt}
  (hchild : ∀ id, A.Restores fuel (visit id) (child id).layout id)
  (hstatement : ∀ id, A.Restores fuel (visitStmt id) (statement id).layout id)

include hchild

theorem layoutAll_restores (ids : List ExprId) :
    A.Restores fuel (.all (ids.map visit)) (Term.layoutAll (ids.map child)) ids := by
  induction ids with
  | nil => exact .pure []
  | cons id ids ih => exact (hchild id).bind (ih.map (id :: ·))

theorem layoutOpt_restores (id : Option ExprId) :
    A.Restores fuel (.all (id.toList.map visit)) (Term.layoutOpt (id.map child)) id := by
  cases id with
  | none => exact .pure none
  | some id =>
    rw [Option.toList_some, List.map_singleton, Visit.all_cons, Visit.all_nil, Visit.append_nil]
    exact (hchild id).map some

theorem layoutFields_restores (fs : List (String × ExprId)) :
    A.Restores fuel (.all ((fs.map Prod.snd).map visit))
      (Term.layoutFields (fs.map fun (n, e) => (n, child e))) fs := by
  induction fs with
  | nil => exact .pure []
  | cons f fs ih =>
    obtain ⟨n, id⟩ := f
    exact (hchild id).bind (ih.map ((n, id) :: ·))

theorem layoutArms_restores (as : List (Arm Pattern ExprId)) :
    A.Restores fuel (.all ((as.flatMap Arm.children).map visit))
      (Term.layoutArms (as.map (·.map child))) as := by
  induction as with
  | nil => exact .pure []
  | cons a as ih =>
    obtain ⟨ps, g, b⟩ := a
    rw [List.flatMap_cons, Arm.children, List.append_assoc, List.map_append, Visit.all_append]
    exact (layoutOpt_restores hchild g).bind ((hchild b).bind (ih.map (Arm.mk ps g b :: ·)))

omit hchild in
include hstatement in
theorem layoutStmts_restores (ids : List StmtId) :
    A.Restores fuel (.all (ids.map visitStmt)) (TermStmt.layoutAll (ids.map statement)) ids := by
  induction ids with
  | nil => exact .pure []
  | cons id ids ih => exact (hstatement id).bind (ih.map (id :: ·))

include hstatement

/-- A node whose children are laid out again is given back. -/
theorem layoutNode_restores (node : ExprNode) :
    A.Restores fuel (node.visit visit visitStmt) (Term.layoutNode (node.map child statement))
      node := by
  cases node with
  | literal l => exact .pure _
  | localVar n => exact .pure _
  | path p => exact .pure _
  | cont l => exact .pure _
  | tuple es => exact (layoutAll_restores hchild es).map Node.tuple
  | array es => exact (layoutAll_restores hchild es).map Node.array
  | callPath p es => exact (layoutAll_restores hchild es).map (Node.callPath p)
  | ret v => exact (layoutOpt_restores hchild v).map Node.ret
  | brk l v => exact (layoutOpt_restores hchild v).map (Node.brk l)
  | unary o a => exact (hchild a).bind (.pure _)
  | deref a => exact (hchild a).bind (.pure _)
  | borrow k a => exact (hchild a).bind (.pure _)
  | cast a t => exact (hchild a).bind (.pure _)
  | field a n => exact (hchild a).bind (.pure _)
  | loop l a => exact (hchild a).bind (.pure _)
  | assign o a b => exact (hchild a).bind ((hchild b).bind (.pure _))
  | binary o a b => exact (hchild a).bind ((hchild b).bind (.pure _))
  | index a b => exact (hchild a).bind ((hchild b).bind (.pure _))
  | callMethod a m es =>
    exact (hchild a).bind ((layoutAll_restores hchild es).map (Node.callMethod a m))
  | callValue a es => exact (hchild a).bind ((layoutAll_restores hchild es).map (Node.callValue a))
  | matchOn v as => exact (hchild v).bind ((layoutArms_restores hchild as).map (Node.matchOn v))
  | ifElse c t e =>
    exact (hchild c).bind ((hchild t).bind ((layoutOpt_restores hchild e).map (Node.ifElse c t)))
  | block ss t =>
    exact (layoutStmts_restores hstatement ss).bind
      ((layoutOpt_restores hchild t).map (Node.block ss))
  | structLiteral p fs b =>
    rw [Node.visit, Node.children, List.map_append, Visit.all_append]
    exact (layoutFields_restores hchild fs).bind
      ((layoutOpt_restores hchild b).map (Node.structLiteral p fs))

end

section

variable {A : Arena} {fuel : Nat}

theorem upTo_addExpr {id : ExprId} {j : StmtId} {node : ExprNode}
    (h : A.exprs[id]? = some node) :
    Layout.expr node (A.upTo id j) = (id, A.upTo (id + 1) j) := by
  obtain ⟨hid, hnode⟩ := List.getElem?_eq_some_iff.mp h
  have hlen : (A.exprs.take id).length = id := by
    rw [List.length_take, Nat.min_eq_left (Nat.le_of_lt hid)]
  have htake : A.exprs.take id ++ [node] = A.exprs.take (id + 1) := by
    rw [← hnode, List.take_append_getElem hid]
  show ((A.exprs.take id).length, Arena.mk (A.exprs.take id ++ [node]) (A.stmts.take j)) = _
  rw [hlen, htake]
  rfl

theorem upTo_addStmt {i : ExprId} {id : StmtId} {stmt : StmtNode}
    (h : A.stmts[id]? = some stmt) :
    Layout.stmt stmt (A.upTo i id) = (id, A.upTo i (id + 1)) := by
  obtain ⟨hid, hstmt⟩ := List.getElem?_eq_some_iff.mp h
  have hlen : (A.stmts.take id).length = id := by
    rw [List.length_take, Nat.min_eq_left (Nat.le_of_lt hid)]
  have htake : A.stmts.take id ++ [stmt] = A.stmts.take (id + 1) := by
    rw [← hstmt, List.take_append_getElem hid]
  show ((A.stmts.take id).length, Arena.mk (A.exprs.take i) (A.stmts.take id ++ [stmt])) = _
  rw [hlen, htake]
  rfl

/-- A statement is restored when the expressions that it refers to are. -/
theorem layoutStmt_restores
    (hchild : ∀ id, A.Restores fuel (A.visit fuel id) (A.readExpr unfolding fuel id).layout id)
    (id : StmtId) : A.Restores fuel (A.visitStmt (A.visit fuel) id)
      (A.readStmt unfolding fuel id).layout id := by
  cases hget : A.stmts[id]? with
  | none =>
    -- a number that leads nowhere lies beyond the arena
    intro i j hv _ hstmts
    simp only [Arena.visitStmt, hget] at hv hstmts
    obtain rfl := Visit.inOrder_stmt.mp hv
    exact absurd hstmts (Nat.not_le_of_gt (Nat.lt_succ_of_le (List.getElem?_eq_none_iff.mp hget)))
  | some stmt =>
    rw [Arena.visitStmt_of_get hget, Arena.readStmt_of_get unfolding hget]
    have hadd : A.Restores fuel (.stmt id) (Layout.stmt stmt) id := by
      intro i j hv _ _
      obtain rfl := Visit.inOrder_stmt.mp hv
      exact upTo_addStmt hget
    cases stmt with
    | letIn p t v => exact (layoutOpt_restores hchild v).bind hadd
    | expr e =>
      rw [Stmt.children, List.map_singleton, Visit.all_cons, Visit.all_nil, Visit.append_nil]
      exact (hchild e).bind hadd

/-- Laying out the tree below a number again restores the arena. -/
theorem layout_restores (hfuel : fuel ≤ A.exprs.length) (id : ExprId) :
    A.Restores fuel (A.visit fuel id) (A.readExpr unfolding fuel id).layout id := by
  induction fuel generalizing id with
  | zero =>
    intro i j hv hle _
    exact absurd hle (Nat.not_succ_le_zero i)
  | succ fuel ih =>
    have hchild := ih (Nat.le_of_succ_le hfuel)
    cases hget : A.exprs[id]? with
    | none =>
      intro i j hv hle _
      simp only [Arena.visit, hget] at hv hle
      obtain rfl := Visit.inOrder_expr.mp hv
      exact absurd (Nat.le_trans hle hfuel)
        (Nat.not_le_of_gt (Nat.lt_succ_of_le (List.getElem?_eq_none_iff.mp hget)))
    | some node =>
      rw [Arena.visit_succ hget, Arena.readExpr_succ unfolding hget]
      have hbelow := layoutNode_restores hchild (layoutStmt_restores hchild) node
      intro i j hv hle hstmts
      obtain ⟨hv, hid⟩ := Visit.inOrder_append.mp hv
      rw [Visit.exprs_append, List.length_append, ← Nat.add_assoc] at hle ⊢
      rw [Visit.stmts_append, List.length_append, ← Nat.add_assoc] at hstmts ⊢
      -- the fuel that opened the node is not needed below it
      have hrun := hbelow i j hv (Nat.le_of_succ_le_succ hle)
        (Nat.le_trans (Nat.le_add_right _ _) hstmts)
      have hid := Visit.inOrder_expr.mp hid
      show Layout.expr (Term.layoutNode _ (A.upTo i j)).1 (Term.layoutNode _ (A.upTo i j)).2 = _
      rw [hrun, ← hid]
      exact upTo_addExpr hget

end

end Arena

namespace Body

variable {b : Body}

theorem PostOrder.exprs_length (h : b.PostOrder) : b.visit.exprs.length = b.exprs.length := by
  rw [h.exprs, List.length_range]

theorem PostOrder.stmts_length (h : b.PostOrder) : b.visit.stmts.length = b.stmts.length := by
  rw [h.stmts, List.length_range]

theorem PostOrder.inOrder (h : b.PostOrder) : b.visit.InOrder 0 0 := by
  refine ⟨?_, ?_⟩
  · rw [h.exprs_length, h.exprs, List.range_eq_range']
  · rw [h.stmts_length, h.stmts, List.range_eq_range']

/-- A body in post-order is the layout of the term that it unfolds to. -/
theorem body_term (h : b.PostOrder) : b.term.body = b := by
  let A : Arena := ⟨b.exprs, b.stmts⟩
  have hrun : b.term.layout (A.upTo 0 0) =
      (b.root, A.upTo (0 + b.visit.exprs.length) (0 + b.visit.stmts.length)) := by
    refine Arena.layout_restores (Nat.le_refl A.exprs.length) b.root 0 0 h.inOrder ?_ ?_
    · exact Nat.le_of_eq ((Nat.zero_add _).trans h.exprs_length)
    · exact Nat.le_of_eq ((Nat.zero_add _).trans h.stmts_length)
  have hall : A.upTo b.exprs.length b.stmts.length = A := by
    rw [Arena.upTo, List.take_length, List.take_length]
  rw [Nat.zero_add, Nat.zero_add, h.exprs_length, h.stmts_length, hall] at hrun
  have hrun : b.term.layout {} = (b.root, A) := hrun
  cases b with
  | mk es ss root =>
    rw [Term.body, hrun]
    rfl

end Body

end Lowering.Core
