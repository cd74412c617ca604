import Lowering.Proofs.Meaning
import Lowering.Proofs.Steps

/-!
# Lowering keeps meaning

A loop whose round is a branch that leaves the loop on its other side repeats as
`while` and `while let` do (`meaning_whileLoop`, `meaning_whileLet`), because the
exit carries the label of that loop and so is caught there. From these, by
induction on the expression, the term an expression lowers to has the meaning of
the expression (`Expr.meaning_lower`), and so has the body it is laid out in
(`Expr.lowerBody_meaning`).
-/

namespace Lowering

variable {V S : Type}

namespace Meaning

variable (I : Interpretation V S)

/-- A loop with a given label catches the exits to that label. -/
theorem caught_self (label : Option String) : Outcome.caught label label = true := by
  simp [Outcome.caught]

theorem ending_atLoop (label : Option String) (v : V) :
    (Outcome.brk label v).atLoop label = some (.value v) := by
  simp [Outcome.atLoop, caught_self]

/-- A round of the loop that stands for `while` is a round of `while`. -/
theorem loopRound_ifElse (label : Option String) (cond body : Meaning V S) :
    loopRound label (ifElse I cond body (some (ending (.brk label I.unit)))) =
      WhileRound I label cond body := by
  funext s r s'
  apply propext
  constructor
  · rintro ⟨o, ⟨v, s₁, hc, hb⟩ | ⟨hx, hc⟩, rfl⟩
    · unfold branch at hb
      split at hb
      · exact .run hc ‹_› hb
      · -- the added exit names this loop, so it ends here whatever loops are around
        obtain ⟨rfl, rfl⟩ := hb
        rw [ending_atLoop]
        exact .stop hc ‹_›
      · exact hb.elim
    · exact .exit hc hx
  · intro h
    cases h with
    | stop hc ht =>
      refine ⟨.brk label I.unit, .inl ⟨_, s', hc, ?_⟩, (ending_atLoop label I.unit).symm⟩
      simp [branch, ht, ending]
    | run hc ht hb =>
      refine ⟨_, .inl ⟨_, _, hc, ?_⟩, rfl⟩
      simpa [branch, ht] using hb
    | exit hc hx => exact ⟨_, .inr ⟨hx, hc⟩, rfl⟩

/-- A round of the loop that stands for `while let` is a round of `while let`. -/
theorem loopRound_ifLet (label : Option String) (p : Core.Pattern) (value body : Meaning V S) :
    loopRound label (ifLet I p value body (some (ending (.brk label I.unit)))) =
      WhileLetRound I label p value body := by
  funext s r s'
  apply propext
  constructor
  · rintro ⟨o, ⟨v, s₁, hv, hb⟩ | ⟨hx, hv⟩, rfl⟩
    · split at hb
      · exact .run hv ‹_› hb
      · obtain ⟨rfl, rfl⟩ := hb
        rw [ending_atLoop]
        exact .stop hv ‹_›
    · exact .exit hv hx
  · intro h
    cases h with
    | stop hv hm =>
      refine ⟨.brk label I.unit, .inl ⟨_, s', hv, ?_⟩, (ending_atLoop label I.unit).symm⟩
      simp [hm, ending]
    | run hv hm hb =>
      refine ⟨_, .inl ⟨_, _, hv, ?_⟩, rfl⟩
      simpa [hm] using hb
    | exit hv hx => exact ⟨_, .inr ⟨hx, hv⟩, rfl⟩

/-- An arm without a guard, by whether its pattern matches. -/
theorem alternative_iff (v : V) (p : Core.Pattern) (body other : Meaning V S) (s : S)
    (o : Outcome V) (s' : S) :
    Alternative I v p none body other s o s' ↔
      match I.bind? p v s with
      | some s₁ => inScope I p s body s₁ o s'
      | none => other s o s' := by
  constructor
  · intro h
    cases h with
    | miss hm h => simpa [hm] using h
    | hit _ hm h => simpa [hm] using h
    | pass hg => cases hg
    | refuse hg => cases hg
    | exit hg => cases hg
  · intro h
    split at h
    · exact .hit rfl ‹_› h
    · exact .miss ‹_› h

/-- The arm for everything else runs its body as it stands. -/
theorem alternative_wildcard (v : V) (body other : Meaning V S) :
    Alternative I v .wildcard none body other = body := by
  funext s o s'
  apply propext
  rw [alternative_iff, I.bind_wildcard]
  constructor
  · rintro ⟨s₂, h, rfl⟩
    rwa [I.release_wildcard]
  · exact fun h => ⟨s', h, (I.release_wildcard s s').symm⟩

/-- A match with one pattern and an arm for everything else is an `if let`. -/
theorem matchOn_else (value : Meaning V S) (p : Core.Pattern) (hit miss : Meaning V S) :
    matchOn I value [⟨[p], none, hit⟩, ⟨[.wildcard], none, miss⟩] =
      ifLet I p value hit (some miss) := by
  have harms : ∀ v, firstArm I v [⟨[p], none, hit⟩, ⟨[.wildcard], none, miss⟩] =
      Alternative I v p none hit miss := by
    intro v
    simp only [firstArm, List.foldr_cons, List.foldr_nil, alternative_wildcard]
  unfold matchOn ifLet
  congr 1
  funext v s o s'
  rw [harms]
  exact propext (alternative_iff I v p hit miss s o s')

end Meaning

namespace Core.Term

variable (I : Interpretation V S)

theorem meaning_matchElse (value : Term) (p : Pattern) (hit miss : Term) :
    (matchElse value p hit miss).meaning I =
      .ifLet I p (value.meaning I) (hit.meaning I) (some (miss.meaning I)) :=
  Meaning.matchOn_else I (value.meaning I) p (hit.meaning I) (miss.meaning I)

theorem meaning_whileLoop (label : Option String) (cond body : Term) :
    (whileLoop label cond body).meaning I =
      .whileLoop I label (cond.meaning I) (body.meaning I) :=
  congrArg Meaning.Repeat (Meaning.loopRound_ifElse I label (cond.meaning I) (body.meaning I))

theorem meaning_whileLet (label : Option String) (p : Pattern) (value body : Term) :
    (whileLet label p value body).meaning I =
      .whileLet I label p (value.meaning I) (body.meaning I) := by
  have hbody : (wrapped (matchElse value p body (exitBlock label))).meaning I =
      .ifLet I p (value.meaning I) (body.meaning I) (some (.ending (.brk label I.unit))) :=
    meaning_matchElse I value p body (exitBlock label)
  calc (whileLet label p value body).meaning I
      _ = .loop label ((wrapped (matchElse value p body (exitBlock label))).meaning I) := rfl
      _ = .loop label (.ifLet I p (value.meaning I) (body.meaning I)
            (some (.ending (.brk label I.unit)))) := by rw [hbody]
      _ = .whileLet I label p (value.meaning I) (body.meaning I) :=
        congrArg Meaning.Repeat (Meaning.loopRound_ifLet I label p _ _)

end Core.Term

namespace Surface

variable (I : Interpretation V S)

open Lowering.Core (Term TermStmt semantics)

mutual

theorem Expr.meaning_lower : ∀ (e : Expr) (t : Term), e.lower = .ok t → t.meaning I = e.meaning I
  | .macroCall _ _, _, h | .forLoop _ _ _ _ _, _, h => by cases h
  | .cont _ l, _, h => by
    cases h
    rfl
  | .literal s l, _, h => by
    obtain ⟨l', hl, ⟨⟩⟩ := Lowered.bind_eq_ok.mp h
    simp only [Expr.meaning, hl]
    rfl
  | .path _ p, _, h => by
    simp only [Expr.meaning]
    rcases Expr.lower_path h with ⟨n, hn, rfl⟩ | ⟨hn, p', hp, rfl⟩
    · rw [hn]
      rfl
    · rw [hn, hp]
      rfl
  | .tuple _ es, _, h | .array _ es, _, h => by
    obtain ⟨es', hes, ⟨⟩⟩ := Lowered.bind_eq_ok.mp h
    simp only [Expr.meaning, ← Expr.meanings_lower es es' hes]
    rfl
  | .block _ ss t, _, h => by
    obtain ⟨ss', hss, h⟩ := Lowered.bind_eq_ok.mp h
    obtain ⟨t', ht, ⟨⟩⟩ := Lowered.bind_eq_ok.mp h
    simp only [Expr.meaning, ← Stmt.meanings_lower ss ss' hss, ← Expr.meaningOpt_lower t t' ht]
    rfl
  | .assign _ _ a b, _, h | .binary _ _ a b, _, h | .index _ a b, _, h => by
    obtain ⟨a', ha, h⟩ := Lowered.bind_eq_ok.mp h
    obtain ⟨b', hb, ⟨⟩⟩ := Lowered.bind_eq_ok.mp h
    simp only [Expr.meaning, ← Expr.meaning_lower a a' ha, ← Expr.meaning_lower b b' hb]
    rfl
  | .unary _ (.value _) a, _, h | .unary _ .deref a, _, h | .borrow _ _ a, _, h
  | .field _ a _, _, h => by
    obtain ⟨a', ha, ⟨⟩⟩ := Lowered.bind_eq_ok.mp h
    simp only [Expr.meaning, ← Expr.meaning_lower a a' ha]
    rfl
  | .cast _ a t, _, h => by
    obtain ⟨a', ha, h⟩ := Lowered.bind_eq_ok.mp h
    obtain ⟨t', ht, ⟨⟩⟩ := Lowered.bind_eq_ok.mp h
    simp only [Expr.meaning, ← Expr.meaning_lower a a' ha, ht]
    rfl
  | .callPath _ p es, _, h => by
    obtain ⟨es', hes, hcallee⟩ := Expr.lower_callPath h
    simp only [Expr.meaning, ← Expr.meanings_lower es es' hes]
    rcases hcallee with ⟨n, hn, rfl⟩ | ⟨hn, p', hp, rfl⟩
    -- a local name is evaluated like any other callee, before the arguments
    · rw [hn]
      rfl
    · rw [hn, hp]
      rfl
  | .callMethod _ a _ es, _, h | .callValue _ a es, _, h => by
    obtain ⟨a', ha, h⟩ := Lowered.bind_eq_ok.mp h
    obtain ⟨es', hes, ⟨⟩⟩ := Lowered.bind_eq_ok.mp h
    simp only [Expr.meaning, ← Expr.meaning_lower a a' ha, ← Expr.meanings_lower es es' hes]
    rfl
  | .structLiteral _ p fs b, _, h => by
    obtain ⟨p', hp, h⟩ := Lowered.bind_eq_ok.mp h
    obtain ⟨fs', hfs, h⟩ := Lowered.bind_eq_ok.mp h
    obtain ⟨b', hb, ⟨⟩⟩ := Lowered.bind_eq_ok.mp h
    simp only [Expr.meaning, hp, ← Expr.meaningFields_lower fs fs' hfs,
      ← Expr.meaningOpt_lower b b' hb]
    rfl
  | .ifElse _ c t e, _, h => by
    obtain ⟨c', hc, h⟩ := Lowered.bind_eq_ok.mp h
    obtain ⟨t', ht, h⟩ := Lowered.bind_eq_ok.mp h
    obtain ⟨e', he, ⟨⟩⟩ := Lowered.bind_eq_ok.mp h
    simp only [Expr.meaning, ← Expr.meaning_lower c c' hc, ← Expr.meaning_lower t t' ht,
      ← Expr.meaningOpt_lower e e' he]
    rfl
  | .ifLet _ p v t e, _, h => by
    obtain ⟨v', hv, h⟩ := Lowered.bind_eq_ok.mp h
    obtain ⟨p', hp, h⟩ := Lowered.bind_eq_ok.mp h
    obtain ⟨t', ht, h⟩ := Lowered.bind_eq_ok.mp h
    obtain ⟨e', he, ⟨⟩⟩ := Lowered.bind_eq_ok.mp h
    rw [Term.meaning_matchElse]
    simp only [Expr.meaning, hp, ← Expr.meaning_lower v v' hv, ← Expr.meaning_lower t t' ht,
      ← Expr.meaningOpt_lower e e' he]
    -- the branch added for a missing `else` is the empty block, whose value is the unit
    cases e' <;> rfl
  | .matchOn _ v as, _, h => by
    obtain ⟨v', hv, h⟩ := Lowered.bind_eq_ok.mp h
    obtain ⟨as', has, ⟨⟩⟩ := Lowered.bind_eq_ok.mp h
    simp only [Expr.meaning, ← Expr.meaning_lower v v' hv, ← Arm.meanings_lower as as' has]
    rfl
  | .loop _ l b, _, h => by
    obtain ⟨b', hb, ⟨⟩⟩ := Lowered.bind_eq_ok.mp h
    simp only [Expr.meaning, ← Expr.meaning_lower b b' hb]
    rfl
  | .whileLoop _ l c b, _, h => by
    obtain ⟨c', hc, h⟩ := Lowered.bind_eq_ok.mp h
    obtain ⟨b', hb, ⟨⟩⟩ := Lowered.bind_eq_ok.mp h
    rw [Term.meaning_whileLoop, Expr.meaning, Expr.meaning_lower c c' hc,
      Expr.meaning_lower b b' hb]
  | .whileLet _ l p v b, _, h => by
    obtain ⟨v', hv, h⟩ := Lowered.bind_eq_ok.mp h
    obtain ⟨p', hp, h⟩ := Lowered.bind_eq_ok.mp h
    obtain ⟨b', hb, ⟨⟩⟩ := Lowered.bind_eq_ok.mp h
    rw [Term.meaning_whileLet, Expr.meaning, hp, Expr.meaning_lower v v' hv,
      Expr.meaning_lower b b' hb]
    rfl
  | .ret _ v, _, h | .brk _ _ v, _, h => by
    obtain ⟨v', hv, ⟨⟩⟩ := Lowered.bind_eq_ok.mp h
    simp only [Expr.meaning, ← Expr.meaningOpt_lower v v' hv]
    rfl

theorem Expr.meanings_lower : ∀ (es : List Expr) (ts : List Term), Expr.lowerAll es = .ok ts →
    Term.readAll (semantics I) ts = Expr.meanings I es
  | [], _, h => by
    cases h
    rfl
  | e :: es, _, h => by
    obtain ⟨e', he, h⟩ := Lowered.bind_eq_ok.mp h
    obtain ⟨es', hes, ⟨⟩⟩ := Lowered.bind_eq_ok.mp h
    simp only [Expr.meanings, ← Expr.meaning_lower e e' he, ← Expr.meanings_lower es es' hes]
    rfl

theorem Expr.meaningFields_lower : ∀ (fs : List (String × Expr)) (ts : List (String × Term)),
    Expr.lowerNamed fs = .ok ts → Term.readFields (semantics I) ts = Expr.meaningFields I fs
  | [], _, h => by
    cases h
    rfl
  | (n, e) :: fs, _, h => by
    obtain ⟨e', he, h⟩ := Lowered.bind_eq_ok.mp h
    obtain ⟨fs', hfs, ⟨⟩⟩ := Lowered.bind_eq_ok.mp h
    simp only [Expr.meaningFields, ← Expr.meaning_lower e e' he,
      ← Expr.meaningFields_lower fs fs' hfs]
    rfl

theorem Expr.meaningOpt_lower : ∀ (e : Option Expr) (t : Option Term), Expr.lowerOpt e = .ok t →
    Term.readOpt (semantics I) t = Expr.meaningOpt I e
  | none, _, h => by
    cases h
    rfl
  | some e, _, h => by
    obtain ⟨e', he, ⟨⟩⟩ := Lowered.bind_eq_ok.mp h
    simp only [Expr.meaningOpt, ← Expr.meaning_lower e e' he]
    rfl

theorem Stmt.meaning_lower : ∀ (s : Stmt) (t : TermStmt), s.lower = .ok t →
    t.read (semantics I) = s.meaning I
  | .letIn _ p ty v, _, h => by
    obtain ⟨p', hp, h⟩ := Lowered.bind_eq_ok.mp h
    obtain ⟨ty', hty, h⟩ := Lowered.bind_eq_ok.mp h
    obtain ⟨v', hv, ⟨⟩⟩ := Lowered.bind_eq_ok.mp h
    simp only [Stmt.meaning, hp, hty, ← Expr.meaningOpt_lower v v' hv]
    rfl
  | .expr e, _, h => by
    obtain ⟨e', he, ⟨⟩⟩ := Lowered.bind_eq_ok.mp h
    simp only [Stmt.meaning, ← Expr.meaning_lower e e' he]
    rfl

theorem Stmt.meanings_lower : ∀ (ss : List Stmt) (ts : List TermStmt), Stmt.lowerAll ss = .ok ts →
    TermStmt.readAll (semantics I) ts = Stmt.meanings I ss
  | [], _, h => by
    cases h
    rfl
  | s :: ss, _, h => by
    obtain ⟨s', hs, h⟩ := Lowered.bind_eq_ok.mp h
    obtain ⟨ss', hss, ⟨⟩⟩ := Lowered.bind_eq_ok.mp h
    simp only [Stmt.meanings, ← Stmt.meaning_lower s s' hs, ← Stmt.meanings_lower ss ss' hss]
    rfl

theorem Arm.meanings_lower : ∀ (as : List Arm) (ts : List (Core.Arm Core.Pattern Term)),
    Arm.lowerAll as = .ok ts → Term.readArms (semantics I) ts = Arm.meanings I as
  | [], _, h => by
    cases h
    rfl
  | .mk ps g b :: as, _, h => by
    simp only [Arm.lowerAll, Arm.lower, Lowered.bind_eq_ok, Lowered.pure_eq_ok] at h
    obtain ⟨_, ⟨ps', hps, g', hg, b', hb, rfl⟩, as', has, rfl⟩ := h
    simp only [Arm.meanings, Arm.meaning, hps, ← Expr.meaningOpt_lower g g' hg,
      ← Expr.meaning_lower b b' hb, ← Arm.meanings_lower as as' has]
    rfl

end

/-- Lowering keeps the meaning of every expression: under any interpretation the
body leads from a store to the outcomes and stores that the expression leads to. -/
theorem Expr.lowerBody_meaning (e : Expr) (b : Core.Body) (h : e.lowerBody = .ok b)
    (s : S) (o : Outcome V) (s' : S) : b.meaning I s o s' ↔ e.meaning I s o s' := by
  obtain ⟨t, ht, ⟨⟩⟩ := Lowered.bind_eq_ok.mp h
  have hbody : t.body.meaning I = e.meaning I :=
    (Term.read_body (semantics I) t).trans (Expr.meaning_lower I e t ht)
  rw [hbody]

/-- A store of one number, which every local name stands for. A binding pattern
sets it. -/
def numberCell : Interpretation Nat Nat where
  unit := 0
  truth v _ := some (v != 0)
  literal
    | .integer n _ => .ending (.value n)
    | _ => .stuck
  localVar _ := fun s o s' => o = .value s ∧ s' = s
  path _ := .stuck
  tuple _ := .stuck
  array _ := .stuck
  assign _ _ v := fun _ o s' => o = .value 0 ∧ s' = v
  decided _ _ _ := none
  binary op a b := if op = .sub then .ending (.value (a - b)) else .stuck
  unary _ _ := .stuck
  deref _ := .stuck
  borrow _ _ := .stuck
  cast _ _ := .stuck
  callPath _ _ := .stuck
  callMethod _ _ _ := .stuck
  callValue _ _ := .stuck
  field _ _ := .stuck
  index _ _ := .stuck
  structLiteral _ _ _ := .stuck
  declare _ _ _ s s' := s' = s
  bind? p v s := if p.binding.isSome then some v else some s
  release _ _ s := s
  bind_wildcard _ _ := rfl
  release_wildcard _ _ := rfl

/-- The expression `loop { x = x - 1; continue 'a }`. -/
def countdownStep : Expr :=
  let x : Expr := .path .dummy (.localName .dummy "x")
  let one : Expr := .literal .dummy (.integer 1 .any)
  .loop .dummy none (.block .dummy [.expr (.assign .dummy none x (.binary .dummy .sub x one))]
    (some (.cont .dummy (some "a"))))

/-- The expression `'a: while x { loop { x = x - 1; continue 'a } }`. -/
def countdown : Expr :=
  .whileLoop .dummy (some "a") (.path .dummy (.localName .dummy "x")) countdownStep

theorem countdownStep_continues : countdownStep.meaning numberCell 1 (.cont (some "a")) 0 := by
  have hassign : Meaning.andThen (numberCell.localVar "x") (fun place =>
      (Meaning.binary numberCell .sub (numberCell.localVar "x") (.ending (.value 1))).andThen
        fun v => numberCell.assign none place v) 1 (.value 0) 0 :=
    .inl ⟨1, 1, ⟨rfl, rfl⟩, .inl ⟨0, 1, .inl ⟨1, 1, ⟨rfl, rfl⟩, .inl ⟨1, 1, ⟨rfl, rfl⟩, rfl, rfl⟩⟩,
      rfl, rfl⟩⟩
  -- the inner loop has no label, so it lets `continue 'a` through
  exact .stop ⟨.cont (some "a"), .inl ⟨0, 0, hassign, rfl, rfl⟩, rfl⟩

/-- The body of a countdown from one ends with the unit and leaves zero. -/
theorem countdown_body_ends : ∃ b, countdown.lowerBody = .ok b ∧
    b.meaning numberCell 1 (.value 0) 0 := by
  refine ⟨_, rfl, (Expr.lowerBody_meaning numberCell countdown _ rfl 1 (.value 0) 0).mpr ?_⟩
  exact .next (.run ⟨rfl, rfl⟩ rfl countdownStep_continues) (.stop (.stop ⟨rfl, rfl⟩ rfl))

end Surface

end Lowering
