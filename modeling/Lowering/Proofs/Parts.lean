import Lowering.Core.Term

/-!
# Parts of core fragments

A type, a path, a pattern and a body can stand inside one another: an array type
has a body for its size, a body casts to types. `Fragment` puts them into one
type, `Fragment.parts` lists what stands directly inside a fragment, and
`Fragment.Within` is what stands anywhere inside it. A property that holds
everywhere in a fragment is one that it has itself and that holds everywhere in
its parts (`Fragment.Everywhere.of_parts`).

Nodes and statements have two kinds of contents, their children and the fragments
they mention. `Term.All` says that a property holds of every fragment mentioned
anywhere in a term, bodies of array sizes not opened.
-/

namespace Lowering.Core

/-! ## Children -/

section

variable {τ π ρ ε σ : Type}

/-- The child expressions of an arm, in order. -/
def Arm.children (a : Arm ρ ε) : List ε := a.guard.toList ++ [a.body]

/-- The child expressions of a node, in order. -/
def Node.children : Node τ π ρ ε σ → List ε
  | .literal _ | .localVar _ | .path _ | .cont _ => []
  | .tuple es | .array es | .callPath _ es => es
  | .block _ t => t.toList
  | .unary _ a | .deref a | .borrow _ a | .cast a _ | .field a _ | .loop _ a => [a]
  | .assign _ a b | .binary _ a b | .index a b => [a, b]
  | .callMethod a _ es | .callValue a es => a :: es
  | .structLiteral _ fs b => fs.map Prod.snd ++ b.toList
  | .ifElse c t e => c :: t :: e.toList
  | .matchOn v as => v :: as.flatMap Arm.children
  | .ret v | .brk _ v => v.toList

/-- The child statements of a node, in order; only a block has any. -/
def Node.statements : Node τ π ρ ε σ → List σ
  | .block ss _ => ss
  | _ => []

/-- The child expressions of a statement. -/
def Stmt.children : Stmt τ ρ ε → List ε
  | .letIn _ _ v => v.toList
  | .expr e => [e]

variable {ε' σ' : Type} (f : ε → ε') (g : σ → σ')

theorem Arm.children_map (a : Arm ρ ε) : (a.map f).children = a.children.map f := by
  obtain ⟨ps, guard, body⟩ := a
  cases guard <;> rfl

theorem Node.children_map (node : Node τ π ρ ε σ) :
    (node.map f g).children = node.children.map f := by
  cases node with
  | block _ t | ret t | brk _ t => cases t <;> rfl
  | ifElse c t e => cases e <;> rfl
  | structLiteral p fs b => cases b <;> simp [Node.map, Node.children, Function.comp_def]
  | matchOn v as =>
    simp [Node.map, Node.children, List.flatMap_map, List.map_flatMap, Arm.children_map]
  | _ => rfl

theorem Node.statements_map (node : Node τ π ρ ε σ) :
    (node.map f g).statements = node.statements.map g := by
  cases node <;> rfl

theorem Stmt.children_map (stmt : Stmt τ ρ ε) : (stmt.map f).children = stmt.children.map f := by
  cases stmt with
  | letIn p t v => cases v <;> rfl
  | expr e => rfl

end

/-! ## Fragments -/

/-- A core form that is not a node or a statement. -/
inductive Fragment where
  | ty (ty : Ty)
  | args (args : GenericArgs)
  | applied (path : AppliedPath)
  | path (path : Path)
  | pattern (pattern : Pattern)
  | kind (kind : PatternKind)
  | body (body : Body)

/-- The types, paths and patterns that a node mentions. -/
def Node.fragments {ε σ : Type} : Node Ty Path Pattern ε σ → List Fragment
  | .path p | .callPath p _ | .structLiteral p _ _ => [.path p]
  | .cast _ t => [.ty t]
  | .matchOn _ as => as.flatMap fun a => a.patterns.map .pattern
  | _ => []

/-- The pattern and the type that a statement mentions. -/
def Stmt.fragments {ε : Type} : Stmt Ty Pattern ε → List Fragment
  | .letIn p t _ => [.pattern p, .ty t]
  | .expr _ => []

theorem Node.fragments_map {ε ε' σ σ' : Type} (f : ε → ε') (g : σ → σ')
    (node : Node Ty Path Pattern ε σ) : (node.map f g).fragments = node.fragments := by
  cases node with
  | matchOn v as =>
    simp only [Node.map, Node.fragments, List.flatMap_map]
    rfl
  | _ => rfl

theorem Stmt.fragments_map {ε ε' : Type} (f : ε → ε') (stmt : Stmt Ty Pattern ε) :
    (stmt.map f).fragments = stmt.fragments := by
  cases stmt <;> rfl

namespace Fragment

/-- What stands directly inside a fragment. -/
def parts : Fragment → List Fragment
  | .ty (.tuple ts) => ts.map .ty
  | .ty (.borrow _ t) | .ty (.pointer _ t) => [.ty t]
  | .ty (.array t size) => .ty t :: size.toList.map .body
  | .ty (.path p) => [.path p]
  | .ty (.traitObject ps) => ps.map .applied
  | .ty (.function _ _ ts ret) => ts.map .ty ++ [.ty ret]
  | .ty .infer | .ty (.primitive _) | .ty (.param _ _) => []
  | .args (.mk ts bs) => ts.map .ty ++ bs.map fun b => .ty b.2
  | .applied (.mk _ as) => [.args as]
  | .path (.plain p) => [.applied p]
  | .path (.qualified self trait _ as) => .ty self :: .args as :: trait.toList.map .applied
  | .pattern (.mk _ k) => [.kind k]
  | .kind .any | .kind (.value _) | .kind (.range _ _) => []
  | .kind (.tuple ps) => ps.map .pattern
  | .kind (.ref _ p) => [.pattern p]
  | .kind (.tupleStruct q ps) => .path q :: ps.map .pattern
  | .kind (.struct q fs _) => .path q :: fs.map fun f => .pattern f.2
  | .body b => b.exprs.flatMap Node.fragments ++ b.stmts.flatMap Stmt.fragments

/-- A fragment stands in itself, and in everything it is part of. -/
inductive Within : Fragment → Fragment → Prop
  | self (f : Fragment) : Within f f
  | part {f g h : Fragment} : g ∈ f.parts → Within h g → Within h f

/-- A property of a fragment and of everything that stands inside it. -/
def Everywhere (P : Fragment → Prop) (f : Fragment) : Prop := ∀ g, Within g f → P g

variable {P : Fragment → Prop} {f : Fragment}

theorem Everywhere.of_parts (h : P f) (hp : ∀ g ∈ f.parts, Everywhere P g) : Everywhere P f := by
  intro g hg
  cases hg with
  | self => exact h
  | part hmem hin => exact hp _ hmem _ hin

theorem Everywhere.here (h : Everywhere P f) : P f := h f (.self f)

theorem Everywhere.part {g : Fragment} (h : Everywhere P f) (hg : g ∈ f.parts) : Everywhere P g :=
  fun k hk => h k (.part hg hk)

section

variable {M : Fragment → Prop} (step : ∀ f : Fragment, (∀ g ∈ f.parts, M g) → M f)

include step

set_option linter.unusedSectionVars false

mutual

theorem induction_ty : ∀ t : Ty, M (.ty t)
  | .infer | .primitive _ | .param _ _ => step _ (List.forall_mem_nil _)
  | .tuple ts => step _ (List.forall_mem_map.mpr (induction_tys ts))
  | .borrow _ t | .pointer _ t => step _ (List.forall_mem_singleton.mpr (induction_ty t))
  | .array t size => step _ (List.forall_mem_cons.mpr
      ⟨induction_ty t, List.forall_mem_map.mpr (induction_size size)⟩)
  | .path p => step _ (List.forall_mem_singleton.mpr (induction_path p))
  | .traitObject ps => step _ (List.forall_mem_map.mpr (induction_applieds ps))
  | .function _ _ ts ret => step _ (List.forall_mem_append.mpr
      ⟨List.forall_mem_map.mpr (induction_tys ts),
        List.forall_mem_singleton.mpr (induction_ty ret)⟩)

theorem induction_tys : ∀ ts : List Ty, ∀ t ∈ ts, M (.ty t)
  | [] => List.forall_mem_nil _
  | t :: ts => List.forall_mem_cons.mpr ⟨induction_ty t, induction_tys ts⟩

theorem induction_bindings : ∀ bs : List (String × Ty), ∀ b ∈ bs, M (.ty b.2)
  | [] => List.forall_mem_nil _
  | (_, t) :: bs => List.forall_mem_cons.mpr ⟨induction_ty t, induction_bindings bs⟩

theorem induction_args : ∀ as : GenericArgs, M (.args as)
  | .mk ts bs => step _ (List.forall_mem_append.mpr
      ⟨List.forall_mem_map.mpr (induction_tys ts), List.forall_mem_map.mpr (induction_bindings bs)⟩)

theorem induction_applied : ∀ p : AppliedPath, M (.applied p)
  | .mk _ as => step _ (List.forall_mem_singleton.mpr (induction_args as))

theorem induction_applieds : ∀ ps : List AppliedPath, ∀ p ∈ ps, M (.applied p)
  | [] => List.forall_mem_nil _
  | p :: ps => List.forall_mem_cons.mpr ⟨induction_applied p, induction_applieds ps⟩

theorem induction_trait : ∀ p : Option AppliedPath, ∀ q ∈ p.toList, M (.applied q)
  | none => List.forall_mem_nil _
  | some p => List.forall_mem_singleton.mpr (induction_applied p)

theorem induction_path : ∀ p : Path, M (.path p)
  | .plain p => step _ (List.forall_mem_singleton.mpr (induction_applied p))
  | .qualified self trait _ as => step _ (List.forall_mem_cons.mpr
      ⟨induction_ty self, List.forall_mem_cons.mpr
        ⟨induction_args as, List.forall_mem_map.mpr (induction_trait trait)⟩⟩)

theorem induction_pattern : ∀ p : Pattern, M (.pattern p)
  | .mk _ k => step _ (List.forall_mem_singleton.mpr (induction_kind k))

theorem induction_patterns : ∀ ps : List Pattern, ∀ p ∈ ps, M (.pattern p)
  | [] => List.forall_mem_nil _
  | p :: ps => List.forall_mem_cons.mpr ⟨induction_pattern p, induction_patterns ps⟩

theorem induction_fields : ∀ fs : List (String × Pattern), ∀ f ∈ fs, M (.pattern f.2)
  | [] => List.forall_mem_nil _
  | (_, p) :: fs => List.forall_mem_cons.mpr ⟨induction_pattern p, induction_fields fs⟩

theorem induction_kind : ∀ k : PatternKind, M (.kind k)
  | .any | .value _ | .range _ _ => step _ (List.forall_mem_nil _)
  | .tuple ps => step _ (List.forall_mem_map.mpr (induction_patterns ps))
  | .ref _ p => step _ (List.forall_mem_singleton.mpr (induction_pattern p))
  | .tupleStruct q ps => step _ (List.forall_mem_cons.mpr
      ⟨induction_path q, List.forall_mem_map.mpr (induction_patterns ps)⟩)
  | .struct q fs _ => step _ (List.forall_mem_cons.mpr
      ⟨induction_path q, List.forall_mem_map.mpr (induction_fields fs)⟩)

theorem induction_body : ∀ b : Body, M (.body b)
  | .mk es ss _ => step _ (List.forall_mem_append.mpr
      ⟨List.forall_mem_flatMap.mpr (induction_nodes es),
        List.forall_mem_flatMap.mpr (induction_stmts ss)⟩)

theorem induction_size : ∀ b : Option Body, ∀ c ∈ b.toList, M (.body c)
  | none => List.forall_mem_nil _
  | some b => List.forall_mem_singleton.mpr (induction_body b)

theorem induction_nodes : ∀ es : List (Node Ty Path Pattern Nat Nat),
    ∀ node ∈ es, ∀ f ∈ node.fragments, M f
  | [] => List.forall_mem_nil _
  | node :: es => List.forall_mem_cons.mpr ⟨induction_node node, induction_nodes es⟩

theorem induction_node : ∀ node : Node Ty Path Pattern Nat Nat, ∀ f ∈ node.fragments, M f
  | .path p | .callPath p _ | .structLiteral p _ _ =>
    List.forall_mem_singleton.mpr (induction_path p)
  | .cast _ t => List.forall_mem_singleton.mpr (induction_ty t)
  | .matchOn _ as => List.forall_mem_flatMap.mpr (induction_arms as)
  | .literal _ | .localVar _ | .tuple _ | .array _ | .block _ _ | .assign _ _ _ | .binary _ _ _
  | .unary _ _ | .deref _ | .borrow _ _ | .callMethod _ _ _ | .callValue _ _ | .field _ _
  | .index _ _ | .ifElse _ _ _ | .loop _ _ | .ret _ | .brk _ _ | .cont _ => List.forall_mem_nil _

theorem induction_arms : ∀ as : List (Arm Pattern Nat), ∀ a ∈ as,
    ∀ f ∈ a.patterns.map Fragment.pattern, M f
  | [] => List.forall_mem_nil _
  | ⟨ps, _, _⟩ :: as => List.forall_mem_cons.mpr
      ⟨List.forall_mem_map.mpr (induction_patterns ps), induction_arms as⟩

theorem induction_stmts : ∀ ss : List (Stmt Ty Pattern Nat), ∀ s ∈ ss, ∀ f ∈ s.fragments, M f
  | [] => List.forall_mem_nil _
  | .letIn p t _ :: ss => List.forall_mem_cons.mpr
      ⟨List.forall_mem_cons.mpr
        ⟨induction_pattern p, List.forall_mem_singleton.mpr (induction_ty t)⟩, induction_stmts ss⟩
  | .expr _ :: ss => List.forall_mem_cons.mpr ⟨List.forall_mem_nil _, induction_stmts ss⟩

end

/-- Induction on fragments: what holds of a fragment once it holds of its parts
holds of every fragment. -/
theorem induction : ∀ f : Fragment, M f
  | .ty t => induction_ty step t
  | .args as => induction_args step as
  | .applied p => induction_applied step p
  | .path p => induction_path step p
  | .pattern p => induction_pattern step p
  | .kind k => induction_kind step k
  | .body b => induction_body step b

end

end Fragment

/-! ## Terms -/

mutual

/-- A property of every fragment that a term mentions. -/
inductive Term.All (P : Fragment → Prop) : Term → Prop
  | mk {node : Node Ty Path Pattern Term TermStmt} : (∀ f ∈ node.fragments, P f) →
      (∀ t ∈ node.children, Term.All P t) → (∀ s ∈ node.statements, TermStmt.All P s) →
      Term.All P (.mk node)

/-- A property of every fragment that a statement mentions. -/
inductive TermStmt.All (P : Fragment → Prop) : TermStmt → Prop
  | mk {stmt : Stmt Ty Pattern Term} : (∀ f ∈ stmt.fragments, P f) →
      (∀ t ∈ stmt.children, Term.All P t) → TermStmt.All P (.mk stmt)

end

section

variable {M : Term → Prop} {N : TermStmt → Prop}
  (hexpr : ∀ node : Node Ty Path Pattern Term TermStmt, (∀ t ∈ node.children, M t) →
    (∀ s ∈ node.statements, N s) → M (.mk node))
  (hstmt : ∀ stmt : Stmt Ty Pattern Term, (∀ t ∈ stmt.children, M t) → N (.mk stmt))

include hexpr hstmt

set_option linter.unusedSectionVars false

mutual

/-- Induction on terms: what holds of a node once it holds of its children and of
its statements holds of every term. -/
theorem Term.induction : ∀ t : Term, M t
  | .mk node => hexpr node (Term.induction_children node) (Term.induction_statements node)

theorem Term.induction_children : ∀ node : Node Ty Path Pattern Term TermStmt,
    ∀ t ∈ node.children, M t
  | .literal _ | .localVar _ | .path _ | .cont _ => by simp [Node.children]
  | .tuple es | .array es | .callPath _ es => Term.induction_all es
  | .block _ e | .ret e | .brk _ e => Term.induction_opt e
  | .unary _ a | .deref a | .borrow _ a | .cast a _ | .field a _ | .loop _ a =>
    List.forall_mem_singleton.mpr (Term.induction a)
  | .assign _ a b | .binary _ a b | .index a b =>
    List.forall_mem_cons.mpr ⟨Term.induction a, List.forall_mem_singleton.mpr (Term.induction b)⟩
  | .callMethod a _ es | .callValue a es =>
    List.forall_mem_cons.mpr ⟨Term.induction a, Term.induction_all es⟩
  | .structLiteral _ fs b =>
    List.forall_mem_append.mpr ⟨Term.induction_fields fs, Term.induction_opt b⟩
  | .ifElse c t e => List.forall_mem_cons.mpr
    ⟨Term.induction c, List.forall_mem_cons.mpr ⟨Term.induction t, Term.induction_opt e⟩⟩
  | .matchOn v as => List.forall_mem_cons.mpr ⟨Term.induction v, Term.induction_arms as⟩

theorem Term.induction_statements : ∀ node : Node Ty Path Pattern Term TermStmt,
    ∀ s ∈ node.statements, N s
  | .block ss _ => TermStmt.induction_all ss
  | .literal _ | .localVar _ | .path _ | .cont _ | .tuple _ | .array _ | .callPath _ _
  | .ret _ | .brk _ _ | .unary _ _ | .deref _ | .borrow _ _ | .cast _ _ | .field _ _ | .loop _ _
  | .assign _ _ _ | .binary _ _ _ | .index _ _ | .callMethod _ _ _ | .callValue _ _
  | .structLiteral _ _ _ | .ifElse _ _ _ | .matchOn _ _ => by simp [Node.statements]

theorem Term.induction_all : ∀ es : List Term, ∀ t ∈ es, M t
  | [] => by simp
  | e :: es => List.forall_mem_cons.mpr ⟨Term.induction e, Term.induction_all es⟩

theorem Term.induction_opt : ∀ e : Option Term, ∀ t ∈ e.toList, M t
  | none => by simp
  | some e => List.forall_mem_singleton.mpr (Term.induction e)

theorem Term.induction_fields : ∀ fs : List (String × Term), ∀ t ∈ fs.map Prod.snd, M t
  | [] => by simp
  | (_, e) :: fs => List.forall_mem_cons.mpr ⟨Term.induction e, Term.induction_fields fs⟩

theorem Term.induction_arms : ∀ as : List (Arm Pattern Term), ∀ t ∈ as.flatMap Arm.children, M t
  | [] => by simp
  | ⟨_, g, b⟩ :: as => List.forall_mem_append.mpr
    ⟨List.forall_mem_append.mpr
      ⟨Term.induction_opt g, List.forall_mem_singleton.mpr (Term.induction b)⟩,
      Term.induction_arms as⟩

theorem TermStmt.induction : ∀ s : TermStmt, N s
  | .mk (.letIn p t v) => hstmt (.letIn p t v) (Term.induction_opt v)
  | .mk (.expr e) => hstmt (.expr e) (List.forall_mem_singleton.mpr (Term.induction e))

theorem TermStmt.induction_all : ∀ ss : List TermStmt, ∀ s ∈ ss, N s
  | [] => by simp
  | s :: ss => List.forall_mem_cons.mpr ⟨TermStmt.induction s, TermStmt.induction_all ss⟩

end

end

namespace Term.All

variable {P : Fragment → Prop}

/-- A node that mentions nothing and has no statement adds nothing to what its
children mention. -/
theorem ofChildren {node : Node Ty Path Pattern Term TermStmt} (hf : node.fragments = [])
    (hs : node.statements = []) (hc : ∀ t ∈ node.children, t.All P) : Term.All P (.mk node) :=
  .mk (by simp [hf]) hc (by simp [hs])

theorem wrapped {t : Term} (h : t.All P) : t.wrapped.All P :=
  .ofChildren rfl rfl (List.forall_mem_singleton.mpr h)

theorem emptyBlock : Term.emptyBlock.All P := .ofChildren rfl rfl (List.forall_mem_nil _)

theorem exitBlock (label : Option String) : (Term.exitBlock label).All P :=
  .wrapped (.ofChildren rfl rfl (List.forall_mem_nil _))

theorem matchElse {value : Term} {p : Pattern} {hit miss : Term} (hvalue : value.All P)
    (hp : P (.pattern p)) (hwild : P (.pattern .wildcard)) (hhit : hit.All P)
    (hmiss : miss.All P) : (Term.matchElse value p hit miss).All P := by
  refine .mk ?_ ?_ (List.forall_mem_nil _)
  · simp [Node.fragments, hp, hwild]
  · simp [Node.children, Arm.children, hvalue, hhit, hmiss]

theorem whileLoop (label : Option String) {cond body : Term} (hcond : cond.All P)
    (hbody : body.All P) : (Term.whileLoop label cond body).All P := by
  have hbranch : Term.All P (.mk (.ifElse cond body (some (Term.exitBlock label)))) :=
    .ofChildren rfl rfl (by simp [Node.children, hcond, hbody, exitBlock])
  exact .ofChildren rfl rfl (List.forall_mem_singleton.mpr hbranch.wrapped)

theorem whileLet (label : Option String) {p : Pattern} {value body : Term}
    (hp : P (.pattern p)) (hwild : P (.pattern .wildcard)) (hvalue : value.All P)
    (hbody : body.All P) : (Term.whileLet label p value body).All P :=
  .ofChildren rfl rfl (List.forall_mem_singleton.mpr
    (wrapped (matchElse hvalue hp hwild hbody (exitBlock label))))

end Term.All

/-- What holds of every fragment holds of those that a term mentions. -/
theorem Term.all_of_forall {P : Fragment → Prop} (h : ∀ f, P f) : ∀ t : Term, t.All P :=
  Term.induction (M := Term.All P) (N := TermStmt.All P) (fun _ => .mk fun f _ => h f)
    fun _ => .mk fun f _ => h f

end Lowering.Core
