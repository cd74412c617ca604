import Lowering.Core.Term

/-!
# Reading terms and bodies

An algebra says what a node is worth once its children are. It values a term by
recursion on the tree, and a body by following the numbers of its arenas from the
root. Main statement: laying a term out and reading the body back is reading the
term (`Term.read_body`), for every algebra. What is proved of terms by recursion
on the tree thereby holds of bodies, whose children are numbers.
-/

namespace Lowering.Core

/-- What a node and a statement are worth, given what their children are worth.
`lostExpr` and `lostStmt` stand for numbers that lead nowhere. -/
structure Algebra (α β : Type) where
  expr : Node Ty Path Pattern α β → α
  stmt : Stmt Ty Pattern α → β
  lostExpr : α
  lostStmt : β

variable {α β : Type}

/-! ## Terms -/

mutual

/-- The worth of a term. -/
def Term.read (alg : Algebra α β) : Term → α
  | .mk node => alg.expr (Term.readNode alg node)

/-- A node with each child replaced by its worth. -/
def Term.readNode (alg : Algebra α β) :
    Node Ty Path Pattern Term TermStmt → Node Ty Path Pattern α β
  | .literal l => .literal l
  | .localVar n => .localVar n
  | .path p => .path p
  | .tuple es => .tuple (Term.readAll alg es)
  | .array es => .array (Term.readAll alg es)
  | .block ss t => .block (TermStmt.readAll alg ss) (Term.readOpt alg t)
  | .assign o a b => .assign o (a.read alg) (b.read alg)
  | .binary o a b => .binary o (a.read alg) (b.read alg)
  | .unary o a => .unary o (a.read alg)
  | .deref a => .deref (a.read alg)
  | .borrow k a => .borrow k (a.read alg)
  | .cast a t => .cast (a.read alg) t
  | .callPath p es => .callPath p (Term.readAll alg es)
  | .callMethod a m es => .callMethod (a.read alg) m (Term.readAll alg es)
  | .callValue a es => .callValue (a.read alg) (Term.readAll alg es)
  | .field a n => .field (a.read alg) n
  | .index a b => .index (a.read alg) (b.read alg)
  | .structLiteral p fs b => .structLiteral p (Term.readFields alg fs) (Term.readOpt alg b)
  | .ifElse c t e => .ifElse (c.read alg) (t.read alg) (Term.readOpt alg e)
  | .matchOn v as => .matchOn (v.read alg) (Term.readArms alg as)
  | .loop l b => .loop l (b.read alg)
  | .ret v => .ret (Term.readOpt alg v)
  | .brk l v => .brk l (Term.readOpt alg v)
  | .cont l => .cont l

/-- The worths of terms in order. -/
def Term.readAll (alg : Algebra α β) : List Term → List α
  | [] => []
  | e :: es => e.read alg :: Term.readAll alg es

/-- The worth of a term that may be absent. -/
def Term.readOpt (alg : Algebra α β) : Option Term → Option α
  | none => none
  | some e => some (e.read alg)

/-- The worths of fields in order. -/
def Term.readFields (alg : Algebra α β) : List (String × Term) → List (String × α)
  | [] => []
  | (n, e) :: fs => (n, e.read alg) :: Term.readFields alg fs

/-- The arms of a match with each child replaced by its worth. -/
def Term.readArms (alg : Algebra α β) : List (Arm Pattern Term) → List (Arm Pattern α)
  | [] => []
  | ⟨ps, g, b⟩ :: as => ⟨ps, Term.readOpt alg g, b.read alg⟩ :: Term.readArms alg as

/-- The worth of a statement. -/
def TermStmt.read (alg : Algebra α β) : TermStmt → β
  | .mk (.letIn p t v) => alg.stmt (.letIn p t (Term.readOpt alg v))
  | .mk (.expr e) => alg.stmt (.expr (e.read alg))

/-- The worths of statements in order. -/
def TermStmt.readAll (alg : Algebra α β) : List TermStmt → List β
  | [] => []
  | s :: ss => s.read alg :: TermStmt.readAll alg ss

end

/-! ## One level of a term -/

section

variable (alg : Algebra α β)

theorem Term.readAll_eq (es : List Term) : Term.readAll alg es = es.map (Term.read alg) := by
  induction es with
  | nil => rfl
  | cons e es ih => exact congrArg (e.read alg :: ·) ih

theorem Term.readOpt_eq (e : Option Term) : Term.readOpt alg e = e.map (Term.read alg) := by
  cases e <;> rfl

theorem Term.readFields_eq (fs : List (String × Term)) :
    Term.readFields alg fs = fs.map fun (n, e) => (n, e.read alg) := by
  induction fs with
  | nil => rfl
  | cons f fs ih => exact congrArg ((f.1, f.2.read alg) :: ·) ih

theorem Term.readArms_eq (as : List (Arm Pattern Term)) :
    Term.readArms alg as = as.map (·.map (Term.read alg)) := by
  induction as with
  | nil => rfl
  | cons a as ih =>
    obtain ⟨ps, g, b⟩ := a
    rw [Term.readArms, ih, Term.readOpt_eq]
    rfl

theorem TermStmt.readAll_eq (ss : List TermStmt) :
    TermStmt.readAll alg ss = ss.map (TermStmt.read alg) := by
  induction ss with
  | nil => rfl
  | cons s ss ih => exact congrArg (s.read alg :: ·) ih

/-- The worth of a term, from the worths of its children. -/
theorem Term.read_mk (node : Node Ty Path Pattern Term TermStmt) :
    (Term.mk node).read alg = alg.expr (node.map (Term.read alg) (TermStmt.read alg)) := by
  rw [Term.read]
  cases node <;> simp only [Term.readNode, Node.map, Term.readAll_eq, Term.readOpt_eq,
    Term.readFields_eq, Term.readArms_eq, TermStmt.readAll_eq]

theorem TermStmt.read_mk (stmt : Stmt Ty Pattern Term) :
    (TermStmt.mk stmt).read alg = alg.stmt (stmt.map (Term.read alg)) := by
  cases stmt with
  | letIn p t v =>
    rw [TermStmt.read, Term.readOpt_eq]
    rfl
  | expr e => rfl

end

/-! ## Arenas and bodies -/

/-- The worth of the expression numbered `id`, with chains of at most `fuel`
nodes. -/
def Arena.readExpr (alg : Algebra α β) (a : Arena) : (fuel : Nat) → ExprId → α
  | 0, _ => alg.lostExpr
  | fuel + 1, id =>
    match a.exprs[id]? with
    | none => alg.lostExpr
    | some node =>
      let child := a.readExpr alg fuel
      let statement (s : StmtId) : β :=
        match a.stmts[s]? with
        | none => alg.lostStmt
        | some stmt => alg.stmt (stmt.map child)
      alg.expr (node.map child statement)

/-- The worth of the statement numbered `id`. -/
def Arena.readStmt (alg : Algebra α β) (a : Arena) (fuel : Nat) (id : StmtId) : β :=
  match a.stmts[id]? with
  | none => alg.lostStmt
  | some stmt => alg.stmt (stmt.map (a.readExpr alg fuel))

/-- The worth of a body, read from its root. No chain of children without a
cycle is longer than the arena. -/
def Body.read (alg : Algebra α β) (b : Body) : α :=
  Arena.readExpr alg ⟨b.exprs, b.stmts⟩ b.exprs.length b.root

theorem Arena.readExpr_succ (alg : Algebra α β) {a : Arena} {id : ExprId} {node : ExprNode}
    (h : a.exprs[id]? = some node) (fuel : Nat) :
    a.readExpr alg (fuel + 1) id =
      alg.expr (node.map (a.readExpr alg fuel) (a.readStmt alg fuel)) := by
  simp only [Arena.readExpr, h]
  rfl

theorem Arena.readStmt_of_get (alg : Algebra α β) {a : Arena} {id : StmtId} {stmt : StmtNode}
    (h : a.stmts[id]? = some stmt) (fuel : Nat) :
    a.readStmt alg fuel id = alg.stmt (stmt.map (a.readExpr alg fuel)) := by
  simp only [Arena.readStmt, h]

/-! ## Layout -/

/-- The arena `b` has everything that `a` has, under the same numbers. -/
structure Arena.Extends (b a : Arena) : Prop where
  exprs : a.exprs <+: b.exprs
  stmts : a.stmts <+: b.stmts

namespace Arena.Extends

variable {a b c : Arena}

theorem refl (a : Arena) : a.Extends a := ⟨List.prefix_rfl, List.prefix_rfl⟩

theorem trans (hcb : c.Extends b) (hba : b.Extends a) : c.Extends a :=
  ⟨hba.exprs.trans hcb.exprs, hba.stmts.trans hcb.stmts⟩

theorem length_le (h : b.Extends a) : a.exprs.length ≤ b.exprs.length := h.exprs.length_le

theorem getExpr (h : b.Extends a) {id : ExprId} {node : ExprNode}
    (hn : a.exprs[id]? = some node) : b.exprs[id]? = some node := by
  obtain ⟨rest, hr⟩ := h.exprs
  have hid := (List.getElem?_eq_some_iff.mp hn).1
  rw [← hr, List.getElem?_append_left hid, hn]

theorem getStmt (h : b.Extends a) {id : StmtId} {stmt : StmtNode}
    (hs : a.stmts[id]? = some stmt) : b.stmts[id]? = some stmt := by
  obtain ⟨rest, hr⟩ := h.stmts
  have hid := (List.getElem?_eq_some_iff.mp hs).1
  rw [← hr, List.getElem?_append_left hid, hs]

end Arena.Extends

namespace Layout

variable {ρ σ : Type}

/-- Running `m` only adds to the arena, and its result reads as `back` says in
every arena that extends the one it leaves, with fuel for that one's nodes. -/
def Reads (m : Layout ρ) (back : Arena → (fuel : Nat) → ρ → Prop) : Prop :=
  ∀ a, (m a).2.Extends a ∧
    ∀ A fuel, A.Extends (m a).2 → (m a).2.exprs.length ≤ fuel → back A fuel (m a).1

namespace Reads

theorem pure {back : Arena → Nat → ρ → Prop} {r : ρ} (h : ∀ A fuel, back A fuel r) :
    Reads (Pure.pure r) back :=
  fun a => ⟨.refl a, fun A fuel _ _ => h A fuel⟩

/-- What is read back after `m` can be used to read back what follows it. -/
theorem bind {m : Layout ρ} {k : ρ → Layout σ} {back : Arena → Nat → ρ → Prop}
    {goal : Arena → Nat → σ → Prop} (hm : Reads m back)
    (hk : ∀ r, Reads (k r) fun A fuel x => back A fuel r → goal A fuel x) :
    Reads (m >>= k) goal := by
  intro a
  obtain ⟨hext, hback⟩ := hm a
  obtain ⟨hext', hgoal⟩ := hk (m a).1 (m a).2
  refine ⟨hext'.trans hext, fun A fuel hA hfuel => ?_⟩
  exact hgoal A fuel hA hfuel
    (hback A fuel (hA.trans hext') (Nat.le_trans hext'.length_le hfuel))

theorem mono {m : Layout ρ} {back goal : Arena → Nat → ρ → Prop} (hm : Reads m back)
    (h : ∀ A fuel r, back A fuel r → goal A fuel r) : Reads m goal :=
  fun a => ⟨(hm a).1, fun A fuel hA hfuel => h A fuel _ ((hm a).2 A fuel hA hfuel)⟩

theorem stmt (alg : Algebra α β) (s : StmtNode) :
    Reads (Layout.stmt s) fun A fuel id =>
      A.readStmt alg fuel id = alg.stmt (s.map (A.readExpr alg fuel)) := by
  intro a
  refine ⟨⟨List.prefix_rfl, List.prefix_append _ _⟩, fun A fuel hA _ => ?_⟩
  exact A.readStmt_of_get alg (hA.getStmt (by simp [Layout.stmt])) fuel

/-- A node is read with one unit of fuel more than its children. -/
theorem alloc {alg : Algebra α β} {m : Layout ExprNode} {worth : Node Ty Path Pattern α β}
    (hm : Reads m fun A fuel node =>
      node.map (A.readExpr alg fuel) (A.readStmt alg fuel) = worth) :
    Reads (m >>= Layout.expr) fun A fuel id => A.readExpr alg fuel id = alg.expr worth := by
  intro a
  obtain ⟨hext, hback⟩ := hm a
  have hrun : (m >>= Layout.expr) a =
      ((m a).2.exprs.length, ⟨(m a).2.exprs ++ [(m a).1], (m a).2.stmts⟩) := rfl
  rw [hrun]
  have hpush : Arena.Extends ⟨(m a).2.exprs ++ [(m a).1], (m a).2.stmts⟩ (m a).2 :=
    ⟨List.prefix_append _ _, List.prefix_rfl⟩
  refine ⟨hpush.trans hext, fun A fuel hA hfuel => ?_⟩
  have hget : A.exprs[(m a).2.exprs.length]? = some (m a).1 := hA.getExpr (by simp)
  have hlen : (m a).2.exprs.length + 1 ≤ fuel := by simpa using hfuel
  obtain ⟨rest, rfl⟩ := Nat.exists_eq_add_of_le' hlen
  have hread := hback A (rest + (m a).2.exprs.length) (hA.trans hpush) (Nat.le_add_left _ _)
  calc A.readExpr alg (rest + (m a).2.exprs.length + 1) (m a).2.exprs.length
      _ = alg.expr ((m a).1.map _ _) := A.readExpr_succ alg hget _
      _ = alg.expr worth := by rw [hread]

end Reads

end Layout

section

variable (alg : Algebra α β)

open Layout

mutual

theorem Term.layout_reads : ∀ t : Term,
    Reads t.layout fun A fuel id => A.readExpr alg fuel id = t.read alg
  | .mk node => by
    simp only [Term.layout, Term.read]
    exact (Term.layoutNode_reads node).alloc

theorem Term.layoutNode_reads : ∀ node : Node Ty Path Pattern Term TermStmt,
    Reads (Term.layoutNode node) fun A fuel n =>
      n.map (A.readExpr alg fuel) (A.readStmt alg fuel) = Term.readNode alg node
  | .literal _ | .localVar _ | .path _ | .cont _ => .pure fun _ _ => rfl
  | .tuple es | .array es | .callPath _ es =>
    (Term.layoutAll_reads es).bind fun _ => .pure fun A fuel h => by
      simp only [Node.map, Term.readNode, h]
  | .unary _ a | .deref a | .borrow _ a | .cast a _ | .field a _ | .loop _ a =>
    (Term.layout_reads a).bind fun _ => .pure fun A fuel h => by
      simp only [Node.map, Term.readNode, h]
  | .ret v | .brk _ v => (Term.layoutOpt_reads v).bind fun _ => .pure fun A fuel h => by
      simp only [Node.map, Term.readNode, h]
  | .assign _ a b | .binary _ a b | .index a b =>
    (Term.layout_reads a).bind fun _ => (Term.layout_reads b).bind fun _ =>
      .pure fun A fuel hb ha => by simp only [Node.map, Term.readNode, ha, hb]
  | .callMethod a _ es | .callValue a es =>
    (Term.layout_reads a).bind fun _ => (Term.layoutAll_reads es).bind fun _ =>
      .pure fun A fuel hes ha => by simp only [Node.map, Term.readNode, ha, hes]
  | .matchOn v as => (Term.layout_reads v).bind fun _ => (Term.layoutArms_reads as).bind fun _ =>
      .pure fun A fuel has hv => by simp only [Node.map, Term.readNode, hv, has]
  | .block ss t =>
    (TermStmt.layoutAll_reads ss).bind fun _ => (Term.layoutOpt_reads t).bind fun _ =>
      .pure fun A fuel ht hss => by simp only [Node.map, Term.readNode, hss, ht]
  | .structLiteral _ fs b =>
    (Term.layoutFields_reads fs).bind fun _ => (Term.layoutOpt_reads b).bind fun _ =>
      .pure fun A fuel hb hfs => by simp only [Node.map, Term.readNode, hfs, hb]
  | .ifElse c t e => (Term.layout_reads c).bind fun _ => (Term.layout_reads t).bind fun _ =>
      (Term.layoutOpt_reads e).bind fun _ => .pure fun A fuel he ht hc => by
        simp only [Node.map, Term.readNode, hc, ht, he]

theorem Term.layoutAll_reads : ∀ es : List Term,
    Reads (Term.layoutAll es) fun A fuel ids => ids.map (A.readExpr alg fuel) = Term.readAll alg es
  | [] => .pure fun _ _ => rfl
  | e :: es => (Term.layout_reads e).bind fun _ => (Term.layoutAll_reads es).bind fun _ =>
      .pure fun A fuel hs h => by simp only [List.map_cons, Term.readAll, h, hs]

theorem Term.layoutOpt_reads : ∀ e : Option Term,
    Reads (Term.layoutOpt e) fun A fuel id => id.map (A.readExpr alg fuel) = Term.readOpt alg e
  | none => .pure fun _ _ => rfl
  | some e => (Term.layout_reads e).bind fun _ => .pure fun A fuel h => by
      simp only [Option.map_some, Term.readOpt, h]

theorem Term.layoutFields_reads : ∀ fs : List (String × Term),
    Reads (Term.layoutFields fs) fun A fuel ids =>
      ids.map (fun (n, e) => (n, A.readExpr alg fuel e)) = Term.readFields alg fs
  | [] => .pure fun _ _ => rfl
  | (n, e) :: fs => (Term.layout_reads e).bind fun _ => (Term.layoutFields_reads fs).bind fun _ =>
      .pure fun A fuel hs h => by simp only [List.map_cons, Term.readFields, h, hs]

theorem Term.layoutArms_reads : ∀ as : List (Arm Pattern Term),
    Reads (Term.layoutArms as) fun A fuel ids =>
      ids.map (·.map (A.readExpr alg fuel)) = Term.readArms alg as
  | [] => .pure fun _ _ => rfl
  | ⟨ps, g, b⟩ :: as => (Term.layoutOpt_reads g).bind fun _ => (Term.layout_reads b).bind fun _ =>
      (Term.layoutArms_reads as).bind fun _ => .pure fun A fuel hs hb hg => by
        rw [List.map_cons, hs]
        simp only [Arm.map, Term.readArms, hg, hb]

theorem TermStmt.layout_reads : ∀ s : TermStmt,
    Reads s.layout fun A fuel id => A.readStmt alg fuel id = s.read alg
  | .mk (.letIn p t v) => (Term.layoutOpt_reads v).bind fun _ =>
      (Reads.stmt alg _).mono fun A fuel _ h hv => by simp only [h, Stmt.map, hv, TermStmt.read]
  | .mk (.expr e) => (Term.layout_reads e).bind fun _ =>
      (Reads.stmt alg _).mono fun A fuel _ h he => by simp only [h, Stmt.map, he, TermStmt.read]

theorem TermStmt.layoutAll_reads : ∀ ss : List TermStmt,
    Reads (TermStmt.layoutAll ss) fun A fuel ids =>
      ids.map (A.readStmt alg fuel) = TermStmt.readAll alg ss
  | [] => .pure fun _ _ => rfl
  | s :: ss => (TermStmt.layout_reads s).bind fun _ => (TermStmt.layoutAll_reads ss).bind fun _ =>
      .pure fun A fuel hs h => by simp only [List.map_cons, TermStmt.readAll, h, hs]

end

end

/-- Reading a laid out term back is reading the term. -/
theorem Term.read_body (alg : Algebra α β) (t : Term) : t.body.read alg = t.read alg := by
  obtain ⟨-, hread⟩ := Term.layout_reads alg t {}
  exact hread _ _ (.refl _) (Nat.le_refl _)

end Lowering.Core
