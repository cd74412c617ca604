import Lowering.Proofs.Rewriting

/-!
# Sugar written out

`while`, `while let`, `if let` and the call of a local name can be written out
with `loop`, `if`, `match` and the call of a value. `Expr.expand` does so for one
node and `Expr.desugar` for all nodes of a tree. Nothing is said of where the
added nodes stand.

Main statement (`Expr.lowerBody_desugar`): what is written out lowers to the very
body that the sugar lowers to, number for number, or stops at the same
diagnostic.
-/

namespace Lowering.Surface

namespace Expr

/-- The block `{ break 'label }`. -/
def exitBlock (blockSpan brkSpan : Location) (label : Option String) : Expr :=
  .block blockSpan [] (some (.brk brkSpan label none))

/-- The expression `match value { pattern => hit, _ => miss }`. -/
def matchElse (span wildSpan : Location) (pattern : Pattern) (value hit miss : Expr) : Expr :=
  .matchOn span value [.mk [pattern] none hit, .mk [.mk wildSpan none .any] none miss]

/-- The expression with sugar at its root written out. The nodes that are added
stand at `loc 0`, `loc 1` and so on. -/
def expand (loc : Nat → Location) : Expr → Expr
  | .whileLoop _ l c b =>
    .loop (loc 0) l (.block (loc 1) []
      (some (.ifElse (loc 2) c b (some (exitBlock (loc 3) (loc 4) l)))))
  | .whileLet _ l p v b =>
    .loop (loc 0) l (.block (loc 1) []
      (some (matchElse (loc 2) (loc 3) p v b (exitBlock (loc 4) (loc 5) l))))
  | .ifLet _ p v t e => matchElse (loc 0) (loc 1) p v t (e.getD (.block (loc 2) [] none))
  | .callPath _ (.localName s n) es => .callValue (loc 0) (.path (loc 1) (.localName s n)) es
  | e => e

/-- The expression with all sugar in it written out. The nodes that are added in
place of the expression at a position stand where `spans` says for it. -/
def desugar (spans : (pos : List Nat) → Nat → Location) (e : Expr) : Expr :=
  e.rewrite { expr := fun pos => expand (spans pos) } []

/-- The size of an array is reached through the type of a cast. -/
example (c b : Expr) (t : Ty) (s : Location) (spans : List Nat → Nat → Location) :
    let r : Rewriting := { expr := fun pos => expand (spans pos) }
    let at' := spans [1, 1]
    desugar spans (.cast s b (.array s t (some (.whileLoop s none c b)))) =
      .cast s (b.rewrite r [0]) (.array s (t.rewrite r [0, 1])
        (some (.loop (at' 0) none (.block (at' 1) [] (some (.ifElse (at' 2)
          (c.rewrite r [0, 1, 1]) (b.rewrite r [1, 1, 1])
          (some (exitBlock (at' 3) (at' 4) none)))))))) := rfl

/-! ## Lowering of expansions -/

theorem lower_tailBlock (s : Location) (e : Expr) :
    (Expr.block s [] (some e)).lower = do return (← e.lower).wrapped := by
  show ((do return some (← e.lower)) >>= fun t => .ok (Core.Term.mk (.block [] t))) = _
  rw [bind_assoc]
  rfl

theorem lower_loopBlock (s s' : Location) (l : Option String) (e : Expr) :
    (Expr.loop s l (.block s' [] (some e))).lower =
      do return .mk (.loop l (← e.lower).wrapped) := by
  show ((Expr.block s' [] (some e)).lower >>= fun t => .ok (Core.Term.mk (.loop l t))) = _
  rw [lower_tailBlock, bind_assoc]
  rfl

theorem lower_plainArm (p : Pattern) (b : Expr) :
    (Arm.mk [p] none b).lower = do
      let p ← p.lower
      return ⟨[p], none, ← b.lower⟩ := by
  show ((do return [← p.lower]) >>= fun ps => b.lower >>= fun b => .ok (Core.Arm.mk ps none b)) = _
  rw [bind_assoc]
  rfl

theorem lower_matchElse (s s' : Location) (p : Pattern) (v t e : Expr) :
    (matchElse s s' p v t e).lower = do
      let v ← v.lower
      let p ← p.lower
      let t ← t.lower
      return .matchElse v p t (← e.lower) := by
  have harms : Arm.lowerAll [.mk [p] none t, .mk [.mk s' none .any] none e] = do
      let p ← p.lower
      let t ← t.lower
      return [⟨[p], none, t⟩, ⟨[.wildcard], none, ← e.lower⟩] := by
    show (Arm.lower (.mk [p] none t) >>= fun a =>
      (Arm.lower (.mk [.mk s' none .any] none e) >>= fun b => .ok [b]) >>= fun as =>
        .ok (a :: as)) = _
    simp only [lower_plainArm, bind_assoc]
    rfl
  show (v.lower >>= fun v => Arm.lowerAll _ >>= fun as => .ok (Core.Term.mk (.matchOn v as))) = _
  rw [harms]
  simp only [bind_assoc]
  rfl

theorem lower_getD (e : Option Expr) (s : Location) :
    (e.getD (.block s [] none)).lower = do return (← Expr.lowerOpt e).getD .emptyBlock := by
  cases e with
  | none => rfl
  | some e =>
    show e.lower = (do return some (← e.lower)) >>= fun t => .ok (t.getD .emptyBlock)
    rw [bind_assoc]
    exact (bind_pure e.lower).symm

/-- Writing out the sugar at the root of an expression keeps what it lowers to. -/
theorem lower_expand (loc : Nat → Location) (e : Expr) : (e.expand loc).lower = e.lower := by
  cases e with
  | whileLoop s l c b =>
    refine (lower_loopBlock _ _ l _).trans ?_
    show ((c.lower >>= fun c => b.lower >>= fun b =>
      .ok (Core.Term.mk (.ifElse c b (some (.exitBlock l))))) >>= _) = _
    simp only [bind_assoc]
    rfl
  | whileLet s l p v b =>
    refine (lower_loopBlock _ _ l _).trans ?_
    rw [lower_matchElse]
    simp only [bind_assoc]
    rfl
  | ifLet s p v t e =>
    refine (lower_matchElse _ _ p v t _).trans ?_
    simp only [lower_getD, bind_assoc]
    rfl
  | callPath s p es => cases p <;> rfl
  | _ => rfl

theorem desugar_keepsLowering (spans : List Nat → Nat → Location) :
    Rewriting.KeepsLowering { expr := fun pos => expand (spans pos) } where
  ty _ := rfl
  path _ := rfl
  plain _ := rfl
  localName _ := rfl
  expr pos e := lower_expand (spans pos) e

/-- Sugar lowers as what it is written out to: to the same body with the same
numbers, or to the same diagnostic at the same place, wherever the added nodes
stand. -/
theorem lowerBody_desugar (spans : List Nat → Nat → Location) (e : Option Expr) :
    Expr.lowerBodyOpt (e.map (desugar spans)) = Expr.lowerBodyOpt e := by
  have hopt : e.map (desugar spans) =
      Expr.rewriteOpt { expr := fun pos => expand (spans pos) } [] e := by
    cases e <;> rfl
  rw [hopt, Expr.lowerBodyOpt_rewrite (desugar_keepsLowering spans)]
  exact Lowered.relocate_id _

end Expr

end Lowering.Surface
