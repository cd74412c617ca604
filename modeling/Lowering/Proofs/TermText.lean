import Lowering.Proofs.BottomUp
import Lowering.Proofs.PatternText
import Lowering.Proofs.PostOrder
import Lowering.Proofs.Raising

/-!
# Texts of terms and bodies

`Term.text` is the text of an expression as a tree, by recursion on the tree. A body
is printed by following numbers, which may lead out of an arena or round in a cycle.
In a descending body they do neither, and what is printed is the text of the term
that the body unfolds to, whatever its numbering, its sharing and its other nodes.

What is proved:
  1. `Term.text_mk`: one level of the tree, for all forms of nodes.
  2. `Body.Descending.exprText?_eq`: following the numbers of a descending body gives
     the text of the unfolded term, at every depth that suffices.
  3. `Body.Descending.text?_eq`, `Term.text?_body`: the same from the root, and for laid
     out terms.
-/

namespace Lowering.Core

/-! ## The text of a term -/

mutual

/-- The text of a term. -/
def Term.text : Term → String
  | .mk node => Term.nodeText node

/-- The text of a node whose children are terms. -/
def Term.nodeText : Node Ty Path Pattern Term TermStmt → String
  | .literal l => l.text
  | .localVar n => n
  | .path p => p.text
  | .tuple [e] => "(" ++ e.text ++ ",)"
  | .tuple es => "(" ++ Term.listText "" es ++ ")"
  | .array es => "[" ++ Term.listText "" es ++ "]"
  | .block ss t => "\x7b" ++ TermStmt.blockText ss ++ Term.optText " " t ++ " \x7d"
  | .assign none a b => a.text ++ " = " ++ b.text
  | .assign (some o) a b => a.text ++ " " ++ o.sign ++ "= " ++ b.text
  | .binary o a b => "(" ++ a.text ++ " " ++ o.sign ++ " " ++ b.text ++ ")"
  | .unary o a => o.sign ++ a.text
  | .deref a => "*" ++ a.text
  | .borrow k a => k.sign ++ a.text
  | .cast a t => "(" ++ a.text ++ " as " ++ t.text ++ ")"
  | .callPath p es => p.text ++ "(" ++ Term.listText "" es ++ ")"
  | .callMethod a m es => a.text ++ "." ++ m ++ "(" ++ Term.listText "" es ++ ")"
  | .callValue a es => "(" ++ a.text ++ ")(" ++ Term.listText "" es ++ ")"
  | .field a n => a.text ++ "." ++ n
  | .index a b => a.text ++ "[" ++ b.text ++ "]"
  | .structLiteral p [] b => p.text ++ " \x7b" ++ Term.optText " .." b ++ " \x7d"
  | .structLiteral p fs b =>
    p.text ++ " \x7b" ++ (Term.fieldsText " " fs ++ Term.optText ", .." b) ++ " \x7d"
  | .ifElse c t e => "if " ++ c.text ++ " " ++ t.text ++ Term.optText " else " e
  | .matchOn v as => "match " ++ v.text ++ " \x7b" ++ Term.armsText as ++ " \x7d"
  | .loop none b => "loop " ++ b.text
  | .loop (some l) b => "'" ++ l ++ ": loop " ++ b.text
  | .ret v => "return" ++ Term.optText " " v
  | .brk l v => "break" ++ optionalText " '" l ++ Term.optText " " v
  | .cont l => "continue" ++ optionalText " '" l

/-- The texts of terms with commas between them, the first one after `lead`. -/
def Term.listText (lead : String) : List Term → String
  | [] => ""
  | e :: es => lead ++ e.text ++ Term.listText ", " es

/-- The text of a term after a lead, or nothing. -/
def Term.optText (lead : String) : Option Term → String
  | none => ""
  | some e => lead ++ e.text

/-- The texts of fields with commas between them, the first one after `lead`. -/
def Term.fieldsText (lead : String) : List (String × Term) → String
  | [] => ""
  | (n, e) :: fs => lead ++ n ++ ": " ++ e.text ++ Term.fieldsText ", " fs

/-- The texts of the arms of a match, a comma after each of them. -/
def Term.armsText : List (Arm Pattern Term) → String
  | [] => ""
  | ⟨ps, g, b⟩ :: as =>
    " " ++ Text.joined " | " (Pattern.texts ps) ++ Term.optText " if " g ++ " => " ++ b.text ++
      "," ++ Term.armsText as

/-- The text of a statement. An inferred type is not written. -/
def TermStmt.text : TermStmt → String
  | .mk (.letIn p .infer v) => "let " ++ p.text ++ Term.optText " = " v
  | .mk (.letIn p t v) => "let " ++ p.text ++ ": " ++ t.text ++ Term.optText " = " v
  | .mk (.expr e) => e.text

/-- The texts of the statements of a block, a semicolon after each of them. -/
def TermStmt.blockText : List TermStmt → String
  | [] => ""
  | s :: ss => " " ++ s.text ++ ";" ++ TermStmt.blockText ss

end

/-! ## One level of a term -/

/-- The text of the type of a statement; an inferred one is not written. -/
def Ty.written? (t : Ty) : Option String := if t.isInfer then none else some t.text

theorem Term.optText_eq (lead : String) (e : Option Term) :
    Term.optText lead e = optionalText lead (e.map Term.text) := by
  cases e <;> rfl

theorem Term.listText_cons (lead : String) (e : Term) (es : List Term) :
    Term.listText lead (e :: es) = lead ++ Text.joined ", " ((e :: es).map Term.text) := by
  induction es generalizing lead e with
  | nil => simp [Term.listText, Text.joined]
  | cons e' es ih =>
    rw [Term.listText, ih ", " e']
    simp [Text.joined, String.append_assoc]

theorem Term.listText_eq (es : List Term) :
    Term.listText "" es = Text.joined ", " (es.map Term.text) := by
  cases es with
  | nil => rfl
  | cons e es => rw [Term.listText_cons, String.empty_append]

theorem Term.fieldsText_cons (lead n : String) (e : Term) (fs : List (String × Term))
    (b : Option Term) :
    Term.fieldsText lead ((n, e) :: fs) ++ Term.optText ", .." b =
      lead ++ Text.joined ", " ((((n, e) :: fs).map fun (n, e) => n ++ ": " ++ e.text) ++
        (b.map (".." ++ ·.text)).toList) := by
  induction fs generalizing lead n e with
  | nil =>
    cases b with
    | none => simp [Term.fieldsText, Term.optText, Text.joined, String.append_assoc]
    | some b =>
      have hlead : ", .." ++ b.text = ", " ++ (".." ++ b.text) := by
        rw [← String.append_assoc]
        rfl
      simp [Term.fieldsText, Term.optText, Text.joined, String.append_assoc, hlead]
  | cons f fs ih =>
    obtain ⟨n', e'⟩ := f
    rw [Term.fieldsText, String.append_assoc, ih ", " n' e']
    simp [Text.joined, String.append_assoc]

theorem Term.armsText_eq (as : List (Arm Pattern Term)) :
    Term.armsText as =
      String.join (as.map fun a => ((a.mapPatterns Pattern.text).map Term.text).text) := by
  induction as with
  | nil => rfl
  | cons a as ih =>
    obtain ⟨ps, g, b⟩ := a
    rw [Term.armsText, ih, Pattern.texts_eq, Term.optText_eq, List.map_cons, String.join_cons]
    rfl

theorem TermStmt.blockText_eq (ss : List TermStmt) :
    TermStmt.blockText ss = Text.eachAfter " " ((ss.map TermStmt.text).map (· ++ ";")) := by
  induction ss with
  | nil => rfl
  | cons s ss ih =>
    rw [TermStmt.blockText, ih]
    simp [Text.eachAfter, String.append_assoc]

theorem TermStmt.text_mk (stmt : Stmt Ty Pattern Term) :
    (TermStmt.mk stmt).text = ((stmt.mapMentions Ty.written? Pattern.text).map Term.text).text := by
  cases stmt with
  | expr e => rfl
  | letIn p t v =>
    cases t with
    | infer =>
      simp [TermStmt.text, Term.optText_eq, Stmt.mapMentions, Stmt.map, Stmt.text, Ty.written?,
        Ty.isInfer, optionalText]
    | _ =>
      simp [TermStmt.text, Term.optText_eq, Stmt.mapMentions, Stmt.map, Stmt.text, Ty.written?,
        Ty.isInfer, optionalText, String.append_assoc]

/-- The text of a term, from the texts of its children. -/
theorem Term.text_mk (node : Node Ty Path Pattern Term TermStmt) :
    (Term.mk node).text =
      ((node.mapMentions Ty.text Path.text Pattern.text).map Term.text TermStmt.text).text := by
  rw [Term.text]
  cases node with
  | literal | localVar | path | binary | unary | deref | borrow | cast | field | index => rfl
  | array es | callPath _ es | callMethod _ _ es | callValue _ es =>
    rw [Term.nodeText, Term.listText_eq]
    rfl
  | tuple es =>
    -- one item alone keeps a comma
    rcases es with _ | ⟨e, _ | ⟨e', es⟩⟩
    · rfl
    · rfl
    · rw [Term.nodeText, Term.listText_eq]
      · rfl
      · simp
  | block ss t =>
    rw [Term.nodeText, TermStmt.blockText_eq, Term.optText_eq]
    rfl
  | assign o a b => cases o <;> rfl
  | structLiteral p fs b =>
    rcases fs with _ | ⟨⟨n, e⟩, fs⟩
    · cases b <;> rfl
    · rw [Term.nodeText, Term.fieldsText_cons]
      · simp [Node.mapMentions, Node.map, Node.text, Core.fieldsText, Function.comp_def]
      · simp
  | ifElse c t e =>
    rw [Term.nodeText, Term.optText_eq]
    rfl
  | matchOn v as =>
    rw [Term.nodeText, Term.armsText_eq]
    simp [Node.mapMentions, Node.map, Node.text, Function.comp_def]
  | loop l b =>
    cases l with
    | none => rfl
    | some l =>
      have hlead : ": loop " = ": " ++ "loop " := rfl
      rw [Term.nodeText, hlead, ← String.append_assoc]
      rfl
  | ret v | brk l v =>
    rw [Term.nodeText, Term.optText_eq]
    rfl
  | cont l => rfl

/-! ## Replacing children that have a replacement -/

section

variable {τ τ' π π' ρ ρ' ε ε' ε'' σ σ' σ'' : Type}

theorem list_mapM_eq_some {α β : Type} {f : α → Option β} {f' : α → β} {as : List α}
    (h : ∀ a ∈ as, f a = some (f' a)) : as.mapM f = some (as.map f') := by
  induction as with
  | nil => rfl
  | cons a as ih =>
    have htail := ih fun x hx => h x (List.mem_cons_of_mem a hx)
    rw [List.mapM_cons, h a List.mem_cons_self, htail]
    rfl

theorem option_mapM_eq_some {α β : Type} {f : α → Option β} {f' : α → β} {a : Option α}
    (h : ∀ x ∈ a.toList, f x = some (f' x)) : a.mapM f = some (a.map f') := by
  cases a with
  | none => rfl
  | some a =>
    rw [Option.mapM_some, h a List.mem_cons_self]
    rfl

theorem Arm.map?_eq_some {f : ε → Option ε'} {f' : ε → ε'} {a : Arm ρ ε}
    (h : ∀ x ∈ a.children, f x = some (f' x)) : a.map? f = some (a.map f') := by
  have hguard := option_mapM_eq_some fun x hx => h x (List.mem_append_left _ hx)
  have hbody := h a.body (by simp [Arm.children])
  rw [Arm.map?, hguard, hbody]
  rfl

/-- A node all of whose children have a replacement is the node with them replaced. -/
theorem Node.map?_eq_some {f : ε → Option ε'} {f' : ε → ε'} {g : σ → Option σ'} {g' : σ → σ'}
    {node : Node τ π ρ ε σ} (hc : ∀ x ∈ node.children, f x = some (f' x))
    (hs : ∀ s ∈ node.statements, g s = some (g' s)) :
    node.map? f g = some (node.map f' g') := by
  cases node with
  | literal | localVar | path | cont => rfl
  | tuple es | array es | callPath _ es =>
    have hes : es.mapM f = some (es.map f') := list_mapM_eq_some hc
    rw [Node.map?, hes]
    rfl
  | block ss t =>
    have hss : ss.mapM g = some (ss.map g') := list_mapM_eq_some hs
    rw [Node.map?, hss, option_mapM_eq_some hc]
    rfl
  | unary _ a | deref a | borrow _ a | cast a _ | field a _ | loop _ a =>
    rw [Node.map?, hc a List.mem_cons_self]
    rfl
  | assign _ a b | binary _ a b | index a b =>
    rw [Node.map?, hc a List.mem_cons_self, hc b (List.mem_cons_of_mem _ List.mem_cons_self)]
    rfl
  | callMethod a _ es | callValue a es =>
    have hes : es.mapM f = some (es.map f') :=
      list_mapM_eq_some fun x hx => hc x (List.mem_cons_of_mem _ hx)
    rw [Node.map?, hc a List.mem_cons_self, hes]
    rfl
  | structLiteral p fs b =>
    have hfield (x : String × ε) (hx : x ∈ fs) :
        (do return (x.1, ← f x.2) : Option (String × ε')) = some (x.1, f' x.2) := by
      rw [hc x.2 (List.mem_append_left _ (List.mem_map_of_mem hx))]
      rfl
    have hbase : b.mapM f = some (b.map f') :=
      option_mapM_eq_some fun x hx => hc x (List.mem_append_right _ hx)
    rw [Node.map?, list_mapM_eq_some hfield, hbase]
    rfl
  | ifElse c t e =>
    obtain ⟨hcond, hrest⟩ := List.forall_mem_cons.mp hc
    obtain ⟨hthen, helse⟩ := List.forall_mem_cons.mp hrest
    rw [Node.map?, hcond, hthen, option_mapM_eq_some helse]
    rfl
  | matchOn v as =>
    have harms (a : Arm ρ ε) (ha : a ∈ as) : a.map? f = some (a.map f') :=
      Arm.map?_eq_some fun x hx =>
        hc x (List.mem_cons_of_mem _ (List.mem_flatMap.mpr ⟨a, ha, hx⟩))
    rw [Node.map?, hc v List.mem_cons_self, list_mapM_eq_some harms]
    rfl
  | ret v | brk _ v =>
    rw [Node.map?, option_mapM_eq_some hc]
    rfl

theorem Stmt.map?_eq_some {f : ε → Option ε'} {f' : ε → ε'} {stmt : Stmt τ ρ ε}
    (h : ∀ x ∈ stmt.children, f x = some (f' x)) : stmt.map? f = some (stmt.map f') := by
  cases stmt with
  | letIn p t v =>
    rw [Stmt.map?, option_mapM_eq_some h]
    rfl
  | expr e =>
    rw [Stmt.map?, h e List.mem_cons_self]
    rfl

/-- A node depends on the replacements of its own children only. -/
theorem Node.map_congr {f f' : ε → ε'} {g g' : σ → σ'} {node : Node τ π ρ ε σ}
    (hc : ∀ x ∈ node.children, f x = f' x) (hs : ∀ s ∈ node.statements, g s = g' s) :
    node.map f g = node.map f' g' := by
  have hsome : node.map? (fun x => some (f x)) (fun s => some (g s)) = some (node.map f g) :=
    Node.map?_eq_some (fun _ _ => rfl) fun _ _ => rfl
  have hsome' : node.map? (fun x => some (f x)) (fun s => some (g s)) = some (node.map f' g') :=
    Node.map?_eq_some (fun x hx => congrArg some (hc x hx)) fun s hs' => congrArg some (hs s hs')
  exact Option.some.inj (hsome.symm.trans hsome')

theorem Stmt.map_congr {f f' : ε → ε'} {stmt : Stmt τ ρ ε} (h : ∀ x ∈ stmt.children, f x = f' x) :
    stmt.map f = stmt.map f' := by
  have hsome : stmt.map? (fun x => some (f x)) = some (stmt.map f) :=
    Stmt.map?_eq_some fun _ _ => rfl
  have hsome' : stmt.map? (fun x => some (f x)) = some (stmt.map f') :=
    Stmt.map?_eq_some fun x hx => congrArg some (h x hx)
  exact Option.some.inj (hsome.symm.trans hsome')

theorem Node.map_self (node : Node τ π ρ ε σ) : node.map (fun x => x) (fun s => s) = node := by
  cases node <;> simp [Node.map, Arm.map]

theorem Stmt.map_self (stmt : Stmt τ ρ ε) : stmt.map (fun x => x) = stmt := by
  cases stmt <;> simp [Stmt.map]

theorem Node.map_map (f : ε → ε') (g : σ → σ') (f' : ε' → ε'') (g' : σ' → σ'')
    (node : Node τ π ρ ε σ) :
    (node.map f g).map f' g' = node.map (fun x => f' (f x)) fun s => g' (g s) := by
  cases node <;> simp [Node.map, Arm.map, Function.comp_def]

theorem Stmt.map_map (f : ε → ε') (f' : ε' → ε'') (stmt : Stmt τ ρ ε) :
    (stmt.map f).map f' = stmt.map fun x => f' (f x) := by
  cases stmt <;> simp [Stmt.map, Function.comp_def]

theorem Node.children_mapMentions (f : τ → τ') (g : π → π') (h : ρ → ρ') (node : Node τ π ρ ε σ) :
    (node.mapMentions f g h).children = node.children := by
  cases node with
  | matchOn v as =>
    simp only [Node.mapMentions, Node.children, List.flatMap_map]
    rfl
  | _ => rfl

theorem Node.statements_mapMentions (f : τ → τ') (g : π → π') (h : ρ → ρ')
    (node : Node τ π ρ ε σ) : (node.mapMentions f g h).statements = node.statements := by
  cases node <;> rfl

theorem Stmt.children_mapMentions (f : τ → τ') (h : ρ → ρ') (stmt : Stmt τ ρ ε) :
    (stmt.mapMentions f h).children = stmt.children := by
  cases stmt <;> rfl

end

/-! ## Descending bodies -/

/-- Every number of a body is in range, and a node refers to smaller numbers only,
be it directly or through its statements. -/
structure Body.Descending (b : Body) : Prop where
  root_in_range : b.root < b.exprs.length
  exprs_in_range : ∀ j ∈ b.arena.exprRefs, j < b.exprs.length
  stmts_in_range : ∀ k ∈ b.arena.stmtRefs, k < b.stmts.length
  children : ∀ (i : ExprId) (node : ExprNode), b.exprs[i]? = some node →
    ∀ j ∈ node.children, j < i
  throughStmts : ∀ (i : ExprId) (node : ExprNode), b.exprs[i]? = some node →
    ∀ k ∈ node.statements, ∀ s, b.stmts[k]? = some s → ∀ j ∈ s.children, j < i

theorem Body.BottomUp.descending {b : Body} (h : b.BottomUp) : b.Descending := by
  refine ⟨?_, h.exprs_in_range, h.stmts_in_range,
    fun i node hi => (h.backward i node hi).children, ?_⟩
  · rw [h.root_last]
    exact Nat.lt_succ_self _
  · intro i node hi k hk s hs
    obtain ⟨s', hs', hlt⟩ := (h.backward i node hi).statements k hk
    obtain rfl : s' = s := Option.some.inj (hs'.symm.trans hs)
    exact hlt

/-- The property of being descending, for the fragments that are bodies. -/
def Fragment.Descending : Fragment → Prop
  | .body b => b.Descending
  | _ => True

theorem Fragment.BottomUp.descending {f : Fragment} (h : f.BottomUp) : f.Descending := by
  cases f with
  | body b => exact Body.BottomUp.descending h
  | _ => trivial

theorem Body.armTexts_eq (as : List (Arm Pattern Nat)) :
    Body.armTexts as = as.map (·.mapPatterns Pattern.text) := by
  induction as with
  | nil => rfl
  | cons a as ih =>
    rw [Body.armTexts, ih, Pattern.texts_eq]
    rfl

theorem Body.nodeTexts_eq (ns : List ExprNode) :
    Body.nodeTexts ns = ns.map (·.mapMentions Ty.text Path.text Pattern.text) := by
  induction ns with
  | nil => rfl
  | cons n ns ih =>
    rw [Body.nodeTexts, ih, List.map_cons]
    congr 1
    cases n with
    | matchOn v as => exact congrArg (Node.matchOn v) (Body.armTexts_eq as)
    | _ => rfl

theorem Body.stmtTexts_eq (ss : List StmtNode) :
    Body.stmtTexts ss = ss.map (·.mapMentions Ty.written? Pattern.text) := by
  induction ss with
  | nil => rfl
  | cons s ss ih =>
    rw [Body.stmtTexts, ih, List.map_cons]
    congr 1
    cases s <;> rfl

/-- One step of printing a statement: it has a text once its children have theirs. -/
theorem Stmt.printed {child : ExprId → Option String} {worth : ExprId → Term} {stmt : StmtNode}
    (h : ∀ j ∈ stmt.children, child j = some (worth j).text) :
    (do return (← (stmt.mapMentions Ty.written? Pattern.text).map? child).text) =
      some (TermStmt.mk (stmt.map worth)).text := by
  rw [← Stmt.children_mapMentions Ty.written? Pattern.text] at h
  rw [Stmt.map?_eq_some h, TermStmt.text_mk, ← Stmt.map_mapMentions, Stmt.map_map]
  rfl

/-- One step of printing a node: it has a text once its children and its statements
have theirs. -/
theorem Node.printed {child : ExprId → Option String} {worth : ExprId → Term}
    {statement : StmtId → Option String} {worthStmt : StmtId → TermStmt} {node : ExprNode}
    (hc : ∀ j ∈ node.children, child j = some (worth j).text)
    (hs : ∀ k ∈ node.statements, statement k = some (worthStmt k).text) :
    (do return (← (node.mapMentions Ty.text Path.text Pattern.text).map? child statement).text) =
      some (Term.mk (node.map worth worthStmt)).text := by
  rw [← Node.children_mapMentions Ty.text Path.text Pattern.text] at hc
  rw [← Node.statements_mapMentions Ty.text Path.text Pattern.text] at hs
  rw [Node.map?_eq_some hc hs, Term.text_mk, ← Node.map_mapMentions, Node.map_map]
  rfl

namespace Body.Descending

variable {b : Body} (h : b.Descending)

include h

/-- A statement of a node can be looked up, and refers below the node. -/
theorem getStmt {id : ExprId} {node : ExprNode} (hget : b.exprs[id]? = some node) {k : StmtId}
    (hk : k ∈ node.statements) :
    ∃ stmt, b.stmts[k]? = some stmt ∧ ∀ j ∈ stmt.children, j < id := by
  have hrange : k < b.stmts.length :=
    h.stmts_in_range k (List.mem_flatMap.mpr ⟨node, List.mem_of_getElem? hget, hk⟩)
  have hs : b.stmts[k]? = some b.stmts[k] := List.getElem?_eq_getElem hrange
  exact ⟨_, hs, h.throughStmts id node hget k hk _ hs⟩

/-- Following the numbers of a descending body from `id` ends within any depth above
`id`, leaves no arena, and gives the text of the term unfolded from `id`. -/
theorem exprText?_eq (depth : Nat) (id : ExprId) (hid : id < b.exprs.length)
    (hdepth : id < depth) :
    exprText? (nodeTexts b.exprs) (stmtTexts b.stmts) depth id =
      some (b.arena.readExpr unfolding depth id).text := by
  induction depth generalizing id with
  | zero => exact absurd hdepth (Nat.not_lt_zero _)
  | succ depth ih =>
    -- what is below the node needs one unit of depth less
    have hbelow (j : ExprId) (hj : j < id) :
        exprText? (nodeTexts b.exprs) (stmtTexts b.stmts) depth j =
          some (b.arena.readExpr unfolding depth j).text :=
      ih j (Nat.lt_trans hj hid) (Nat.lt_of_lt_of_le hj (Nat.le_of_lt_succ hdepth))
    obtain ⟨node, hget⟩ : ∃ node, b.exprs[id]? = some node := ⟨_, List.getElem?_eq_getElem hid⟩
    have hstmt (k : StmtId) (hk : k ∈ node.statements) :
        (do
          let stmt ← (stmtTexts b.stmts)[k]?
          return (← stmt.map? (exprText? (nodeTexts b.exprs) (stmtTexts b.stmts) depth)).text) =
        some (b.arena.readStmt unfolding depth k).text := by
      obtain ⟨stmt, hs, hlt⟩ := h.getStmt hget hk
      have hs' : (stmtTexts b.stmts)[k]? = some (stmt.mapMentions Ty.written? Pattern.text) := by
        rw [stmtTexts_eq, List.getElem?_map, hs]
        rfl
      rw [b.arena.readStmt_of_get unfolding hs, hs']
      exact Stmt.printed fun j hj => hbelow j (hlt j hj)
    have hget' : (nodeTexts b.exprs)[id]? =
        some (node.mapMentions Ty.text Path.text Pattern.text) := by
      rw [nodeTexts_eq, List.getElem?_map, hget]
      rfl
    rw [b.arena.readExpr_succ unfolding hget, exprText?, hget']
    exact Node.printed (fun j hj => hbelow j (h.children id node hget j hj)) hstmt

/-- A descending body prints as the term that it unfolds to. -/
theorem text?_eq : b.text? = some b.term.text := by
  have hall := h.exprText?_eq b.exprs.length b.root h.root_in_range h.root_in_range
  cases b with
  | mk es ss root => exact hall

theorem text_eq : b.text = b.term.text := by
  rw [Body.text, h.text?_eq]
  rfl

/-- A descending body is read to the same worth at every depth above the number. -/
theorem readExpr_stable {α β : Type} (alg : Algebra α β) (depth depth' : Nat) (id : ExprId)
    (hid : id < b.exprs.length) (hdepth : id < depth) (hdepth' : id < depth') :
    b.arena.readExpr alg depth id = b.arena.readExpr alg depth' id := by
  induction depth generalizing depth' id with
  | zero => exact absurd hdepth (Nat.not_lt_zero _)
  | succ depth ih =>
    obtain ⟨depth', rfl⟩ := Nat.exists_eq_add_one_of_ne_zero (Nat.ne_zero_of_lt hdepth')
    have hbelow (j : ExprId) (hj : j < id) :
        b.arena.readExpr alg depth j = b.arena.readExpr alg depth' j :=
      ih depth' j (Nat.lt_trans hj hid) (Nat.lt_of_lt_of_le hj (Nat.le_of_lt_succ hdepth))
        (Nat.lt_of_lt_of_le hj (Nat.le_of_lt_succ hdepth'))
    obtain ⟨node, hget⟩ : ∃ node, b.exprs[id]? = some node := ⟨_, List.getElem?_eq_getElem hid⟩
    have hstmt (k : StmtId) (hk : k ∈ node.statements) :
        b.arena.readStmt alg depth k = b.arena.readStmt alg depth' k := by
      obtain ⟨stmt, hs, hlt⟩ := h.getStmt hget hk
      rw [b.arena.readStmt_of_get alg hs, b.arena.readStmt_of_get alg hs]
      exact congrArg alg.stmt (Stmt.map_congr fun j hj => hbelow j (hlt j hj))
    rw [b.arena.readExpr_succ alg hget, b.arena.readExpr_succ alg hget]
    exact congrArg alg.expr
      (Node.map_congr (fun j hj => hbelow j (h.children id node hget j hj)) hstmt)

end Body.Descending

/-! ## Laid out terms -/

theorem Term.read_unfolding : ∀ t : Term, t.read unfolding = t := by
  refine Term.induction (M := fun t => t.read unfolding = t) (N := fun s => s.read unfolding = s)
    (fun node hc hs => ?_) fun stmt h => ?_
  · exact (Term.read_mk unfolding node).trans
      (congrArg Term.mk ((Node.map_congr hc hs).trans node.map_self))
  · exact (TermStmt.read_mk unfolding stmt).trans
      (congrArg TermStmt.mk ((Stmt.map_congr h).trans stmt.map_self))

/-- A term that is laid out unfolds to itself. -/
theorem Term.term_body (t : Term) : t.body.term = t :=
  (Term.read_body unfolding t).trans t.read_unfolding

/-- A term prints as the body it is laid out in. -/
theorem Term.text?_body (t : Term) : t.body.text? = some t.text := by
  rw [t.body_bottomUp.descending.text?_eq, t.term_body]

theorem Term.text_body (t : Term) : t.body.text = t.text := by
  rw [Body.text, t.text?_body]
  rfl

end Lowering.Core
