import Lowering.Proofs.Desugaring
import Lowering.Proofs.Unfolded

/-!
# Text of surface fragments

The text that a surface fragment lowers to, read off the fragment itself by
structural recursion. Sugar is written out, lifetimes and places are left out, and
what lowering refuses has no text. The expression for the size of an array is read
where it stands, although it is lowered to a body of its own.

Main statement (`body_text_structural`): the text of a descending body is that of
the tree it unfolds to, however the bodies inside its types are laid out, and the
body that an expression lowers to has the text of the expression, with its sugar or
without.
-/

namespace Lowering.Surface

open Lowering.Core (Term TermStmt optionalText)

/-- Whether a type is the empty tuple. -/
def Ty.isUnit : Ty → Bool
  | .unit _ | .tuple _ [] => true
  | _ => false

/-- Whether a type is left to inference. -/
def Ty.isInfer : Ty → Bool
  | .infer _ => true
  | _ => false

/-- The text of a scalar type. -/
def ScalarName.text : ScalarName → String
  | .keyword c => c.keyword
  | .any | .invalid => ""

/-- The text of a literal with its suffix. -/
def literalText : Literal ScalarName → String
  | .integer n s => toString n ++ s.text
  | .float x s => x.text ++ s.text
  | .bool b => if b then "true" else "false"
  | .char c => Text.quotedChar c
  | .string s => Text.quotedString s

/-- The text of a label before its loop. -/
def labelText : Option String → String
  | none => ""
  | some l => "'" ++ l ++ ": "

/-- The text of an arm without a guard. -/
def armText (pattern body : String) : String := " " ++ pattern ++ " => " ++ body ++ ","

/-- The text of a block that leaves the loop with a given label. -/
def exitText (label : Option String) : String :=
  "\x7b break" ++ optionalText " '" label ++ " \x7d"

mutual

/-- The text of a type. -/
def Ty.text : Ty → String
  | .omitted _ | .macroCall _ _ => ""
  | .infer _ => "_"
  | .unit _ => "()"
  | .primitive _ c => c.text
  | .tuple _ ts => Text.tuple (Ty.texts ts)
  | .borrow _ k t => k.sign ++ t.text
  | .pointer _ m t => (if m then "*mut " else "*const ") ++ t.text
  | .array _ t none => "[" ++ t.text ++ "]"
  | .array _ t (some e) => "[" ++ t.text ++ "; " ++ e.text ++ "]"
  | .path _ p => p.text
  | .traitObject _ _ ps => "dyn " ++ Text.joined " + " (Path.texts ps)
  | .function _ u abi args ret =>
    Core.functionText u abi (Ty.texts args) (if ret.isUnit then none else some ret.text)
  | .param _ n => n ++ "/*?*/"

/-- The texts of types in order. -/
def Ty.texts : List Ty → List String
  | [] => []
  | t :: ts => t.text :: Ty.texts ts

/-- The texts of types bound to names, as `Item=u8`. -/
def Ty.bindingTexts : List (String × Ty) → List String
  | [] => []
  | (n, t) :: bs => (n ++ "=" ++ t.text) :: Ty.bindingTexts bs

/-- The text of a path: a local name is written as it is. -/
def Path.text : Path → String
  | .localName _ n => n
  | .absolute _ c segs => (Core.ItemPath.mk c (segs.map Segment.name)).text ++ Segment.lastText segs
  | .qualified _ self none [.mk n args] => "<" ++ self.text ++ ">::" ++ n ++ args.text
  | .qualified _ self (some t) [.mk n args] =>
    "<" ++ self.text ++ " as " ++ t.text ++ ">::" ++ n ++ args.text
  | _ => ""

/-- The texts of paths in order. -/
def Path.texts : List Path → List String
  | [] => []
  | p :: ps => p.text :: Path.texts ps

/-- The text of the arguments of the last segment. -/
def Segment.lastText : List Segment → String
  | [] => ""
  | [.mk _ args] => args.text
  | _ :: rest => Segment.lastText rest

/-- The text of path arguments. -/
def GenericArgs.text : GenericArgs → String
  | .mk _ ts bs => Core.argsText (Ty.texts ts) (Ty.bindingTexts bs)

/-- The text of a pattern: a name that binds everything stands alone. -/
def Pattern.text : Pattern → String
  | .mk _ none k => k.text
  | .mk _ (some b) .any => b.text
  | .mk _ (some b) k => b.text ++ " @ " ++ k.text

/-- The texts of patterns in order. -/
def Pattern.texts : List Pattern → List String
  | [] => []
  | p :: ps => p.text :: Pattern.texts ps

/-- The texts of field patterns, as `x: _`. -/
def Pattern.fieldTexts : List (String × Pattern) → List String
  | [] => []
  | (n, p) :: fs => (n ++ ": " ++ p.text) :: Pattern.fieldTexts fs

/-- The text of what a pattern matches. -/
def PatternKind.text : PatternKind → String
  | .any => "_"
  | .maybeBind _ | .macroCall _ => ""
  | .value l => literalText l
  | .range a b => literalText a ++ " ..= " ++ literalText b
  | .tuple ps => Text.tuple (Pattern.texts ps)
  | .ref k p => k.sign ++ p.text
  | .tupleStruct p ps => p.text ++ "(" ++ Text.joined ", " (Pattern.texts ps) ++ ")"
  | .struct p fs x =>
    p.text ++ " \x7b" ++ Core.fieldPatternsText (Pattern.fieldTexts fs) x ++ " \x7d"

/-- The text of an expression, with its sugar written out. -/
def Expr.text : Expr → String
  | .macroCall _ _ | .forLoop _ _ _ _ _ => ""
  | .literal _ l => literalText l
  | .path _ p => p.text
  | .tuple _ es => Text.tuple (Expr.texts es)
  | .array _ es => "[" ++ Text.joined ", " (Expr.texts es) ++ "]"
  | .block _ ss t => "\x7b" ++ Stmt.blockText ss ++ optionalText " " (Expr.text? t) ++ " \x7d"
  | .assign _ none a b => a.text ++ " = " ++ b.text
  | .assign _ (some o) a b => a.text ++ " " ++ o.sign ++ "= " ++ b.text
  | .binary _ o a b => "(" ++ a.text ++ " " ++ o.sign ++ " " ++ b.text ++ ")"
  | .unary _ (.value o) a => o.sign ++ a.text
  | .unary _ .deref a => "*" ++ a.text
  | .borrow _ k a => k.sign ++ a.text
  | .cast _ a t => "(" ++ a.text ++ " as " ++ t.text ++ ")"
  | .callPath _ (.localName _ n) es => "(" ++ n ++ ")(" ++ Text.joined ", " (Expr.texts es) ++ ")"
  | .callPath _ p es => p.text ++ "(" ++ Text.joined ", " (Expr.texts es) ++ ")"
  | .callMethod _ a m es => a.text ++ "." ++ m ++ "(" ++ Text.joined ", " (Expr.texts es) ++ ")"
  | .callValue _ a es => "(" ++ a.text ++ ")(" ++ Text.joined ", " (Expr.texts es) ++ ")"
  | .field _ a n => a.text ++ "." ++ n
  | .index _ a b => a.text ++ "[" ++ b.text ++ "]"
  | .structLiteral _ p fs b =>
    p.text ++ " \x7b" ++ Core.fieldsText (Expr.fieldTexts fs) (Expr.text? b) ++ " \x7d"
  | .ifElse _ c t e => "if " ++ c.text ++ " " ++ t.text ++ optionalText " else " (Expr.text? e)
  | .ifLet _ p v t e =>
    "match " ++ v.text ++ " \x7b" ++ armText p.text t.text ++
      armText "_" ((Expr.text? e).getD "\x7b \x7d") ++ " \x7d"
  | .matchOn _ v as => "match " ++ v.text ++ " \x7b" ++ Arm.allText as ++ " \x7d"
  | .loop _ l b => labelText l ++ "loop " ++ b.text
  | .whileLoop _ l c b =>
    labelText l ++ "loop \x7b if " ++ c.text ++ " " ++ b.text ++ " else " ++ exitText l ++ " \x7d"
  | .whileLet _ l p v b =>
    labelText l ++ "loop \x7b match " ++ v.text ++ " \x7b" ++ armText p.text b.text ++
      armText "_" (exitText l) ++ " \x7d \x7d"
  | .ret _ v => "return" ++ optionalText " " (Expr.text? v)
  | .brk _ l v => "break" ++ optionalText " '" l ++ optionalText " " (Expr.text? v)
  | .cont _ l => "continue" ++ optionalText " '" l

/-- The texts of expressions in order. -/
def Expr.texts : List Expr → List String
  | [] => []
  | e :: es => e.text :: Expr.texts es

/-- The text of an expression that may be absent. -/
def Expr.text? : Option Expr → Option String
  | none => none
  | some e => some e.text

/-- The texts of the values of fields in order. -/
def Expr.fieldTexts : List (String × Expr) → List (String × String)
  | [] => []
  | (n, e) :: fs => (n, e.text) :: Expr.fieldTexts fs

/-- The text of a statement. An inferred type is not written. -/
def Stmt.text : Stmt → String
  | .letIn _ p t v =>
    "let " ++ p.text ++ optionalText ": " (if t.isInfer then none else some t.text) ++
      optionalText " = " (Expr.text? v)
  | .expr e => e.text

/-- The texts of the statements of a block, a semicolon after each of them. -/
def Stmt.blockText : List Stmt → String
  | [] => ""
  | s :: ss => " " ++ s.text ++ ";" ++ Stmt.blockText ss

/-- The texts of the arms of a match, a comma after each of them. -/
def Arm.allText : List Arm → String
  | [] => ""
  | .mk ps g b :: as =>
    " " ++ Text.joined " | " (Pattern.texts ps) ++ optionalText " if " (Expr.text? g) ++ " => " ++
      b.text ++ "," ++ Arm.allText as

end

/-! ## Text of lowered fragments -/

theorem text_lowerLiteral {s : Location} {l : Literal ScalarName} {l' : Core.Literal}
    (h : lowerLiteral s l = .ok l') : l'.text = literalText l := by
  cases l with
  | integer _ c | float _ c =>
    cases c with
    | invalid => cases h
    | keyword _ | any =>
      cases h
      rfl
  | bool _ | char _ | string _ =>
    cases h
    rfl

theorem Ty.isUnit_lower {t : Ty} {t' : Core.Ty} (h : t.lower = .ok t') :
    t'.isUnit = t.isUnit := by
  cases t with
  | omitted | macroCall => cases h
  | infer | unit | param =>
    cases h
    rfl
  | tuple _ ts =>
    obtain ⟨ts', hts, ⟨⟩⟩ := Lowered.bind_eq_ok.mp h
    cases ts with
    | nil =>
      cases hts
      rfl
    | cons t ts =>
      obtain ⟨t', -, hts⟩ := Lowered.bind_eq_ok.mp hts
      obtain ⟨ts', -, ⟨⟩⟩ := Lowered.bind_eq_ok.mp hts
      rfl
  | primitive | borrow | pointer | path =>
    obtain ⟨_, -, ⟨⟩⟩ := Lowered.bind_eq_ok.mp h
    rfl
  | array | function =>
    obtain ⟨_, -, h⟩ := Lowered.bind_eq_ok.mp h
    obtain ⟨_, -, ⟨⟩⟩ := Lowered.bind_eq_ok.mp h
    rfl
  | traitObject =>
    obtain ⟨-, _, -, rfl⟩ := Ty.lower_traitObject h
    rfl

theorem Ty.isInfer_lower {t : Ty} {t' : Core.Ty} (h : t.lower = .ok t') :
    t'.isInfer = t.isInfer := by
  cases t with
  | omitted | macroCall => cases h
  | infer | unit | param =>
    cases h
    rfl
  | primitive | tuple | borrow | pointer | path =>
    obtain ⟨_, -, ⟨⟩⟩ := Lowered.bind_eq_ok.mp h
    rfl
  | array | function =>
    obtain ⟨_, -, h⟩ := Lowered.bind_eq_ok.mp h
    obtain ⟨_, -, ⟨⟩⟩ := Lowered.bind_eq_ok.mp h
    rfl
  | traitObject =>
    obtain ⟨-, _, -, rfl⟩ := Ty.lower_traitObject h
    rfl

/-- The text of a match with one pattern and a branch for everything else. -/
theorem text_matchElse (v : Term) (p : Core.Pattern) (hit miss : Term) :
    (Term.matchElse v p hit miss).text =
      "match " ++ v.text ++ " \x7b" ++ armText p.text hit.text ++ armText "_" miss.text ++
        " \x7d" := by
  simp [Term.matchElse, Term.text, Term.nodeText, Term.armsText, Term.optText, Core.Pattern.texts,
    Text.joined, armText, Core.Pattern.wildcard, Core.Pattern.text, Core.PatternKind.text,
    String.append_assoc]

theorem text_exitBlock (l : Option String) : (Term.exitBlock l).text = exitText l := by
  rw [← String.toList_inj]
  simp [Term.exitBlock, Term.wrapped, Term.text, Term.nodeText, TermStmt.blockText, Term.optText,
    exitText]

theorem text_loopBlock (l : Option String) (t : Term) :
    (Term.mk (.loop l t.wrapped)).text = labelText l ++ "loop \x7b " ++ t.text ++ " \x7d" := by
  rw [← String.toList_inj]
  cases l <;>
    simp [Term.wrapped, Term.text, Term.nodeText, TermStmt.blockText, Term.optText, labelText]

mutual

theorem Ty.text_lower : ∀ (t : Ty) (t' : Core.Ty), t.lower = .ok t' → t'.text = t.text
  | .omitted _, _, h | .macroCall _ _, _, h => nomatch h
  | .infer _, _, h | .unit _, _, h | .param _ _, _, h => by
    cases h
    rfl
  | .primitive _ c, _, h => by
    obtain ⟨c', hc, ⟨⟩⟩ := Lowered.bind_eq_ok.mp h
    cases c with
    | keyword c =>
      cases hc
      rfl
    | any | invalid => cases hc
  | .tuple _ ts, _, h => by
    obtain ⟨ts', hts, ⟨⟩⟩ := Lowered.bind_eq_ok.mp h
    exact congrArg Text.tuple (Ty.texts_lower ts ts' hts)
  | .borrow _ k t, _, h => by
    obtain ⟨t', ht, ⟨⟩⟩ := Lowered.bind_eq_ok.mp h
    exact congrArg (k.sign ++ ·) (Ty.text_lower t t' ht)
  | .pointer _ m t, _, h => by
    obtain ⟨t', ht, ⟨⟩⟩ := Lowered.bind_eq_ok.mp h
    exact congrArg ((if m then "*mut " else "*const ") ++ ·) (Ty.text_lower t t' ht)
  | .array _ t none, _, h => by
    obtain ⟨t', ht, h⟩ := Lowered.bind_eq_ok.mp h
    obtain ⟨b, hb, ⟨⟩⟩ := Lowered.bind_eq_ok.mp h
    cases hb
    exact congrArg ("[" ++ · ++ "]") (Ty.text_lower t t' ht)
  | .array _ t (some e), _, h => by
    obtain ⟨t', ht, h⟩ := Lowered.bind_eq_ok.mp h
    obtain ⟨b, hb, ⟨⟩⟩ := Lowered.bind_eq_ok.mp h
    obtain ⟨size, hsize, ⟨⟩⟩ := Lowered.bind_eq_ok.mp hb
    have hbody : size.body.text?.getD "" = e.text := by
      rw [size.text?_body]
      exact Expr.text_lower e size hsize
    exact congrArg₂ ("[" ++ · ++ "; " ++ · ++ "]") (Ty.text_lower t t' ht) hbody
  | .path _ p, _, h => by
    obtain ⟨p', hp, ⟨⟩⟩ := Lowered.bind_eq_ok.mp h
    exact Path.text_lower p p' hp
  | .traitObject _ ls ps, _, h => by
    obtain ⟨-, ps', hps, rfl⟩ := Ty.lower_traitObject h
    exact congrArg ("dyn " ++ Text.joined " + " ·) (Path.texts_lowerPlainAll ps ps' hps)
  | .function _ u abi args ret, _, h => by
    obtain ⟨args', hargs, h⟩ := Lowered.bind_eq_ok.mp h
    obtain ⟨ret', hret, ⟨⟩⟩ := Lowered.bind_eq_ok.mp h
    rw [Core.Ty.text, Ty.texts_lower args args' hargs, Ty.isUnit_lower hret,
      Ty.text_lower ret ret' hret]
    rfl

theorem Ty.texts_lower : ∀ (ts : List Ty) (ts' : List Core.Ty), Ty.lowerAll ts = .ok ts' →
    Core.Ty.texts ts' = Ty.texts ts
  | [], _, h => by
    cases h
    rfl
  | t :: ts, _, h => by
    obtain ⟨t', ht, h⟩ := Lowered.bind_eq_ok.mp h
    obtain ⟨ts', hts, ⟨⟩⟩ := Lowered.bind_eq_ok.mp h
    exact congrArg₂ List.cons (Ty.text_lower t t' ht) (Ty.texts_lower ts ts' hts)

theorem Ty.bindingTexts_lower : ∀ (bs : List (String × Ty)) (bs' : List (String × Core.Ty)),
    Ty.lowerNamed bs = .ok bs' → Core.Ty.bindingTexts bs' = Ty.bindingTexts bs
  | [], _, h => by
    cases h
    rfl
  | (n, t) :: bs, _, h => by
    obtain ⟨t', ht, h⟩ := Lowered.bind_eq_ok.mp h
    obtain ⟨bs', hbs, ⟨⟩⟩ := Lowered.bind_eq_ok.mp h
    exact congrArg₂ (fun t bs => (n ++ "=" ++ t) :: bs) (Ty.text_lower t t' ht)
      (Ty.bindingTexts_lower bs bs' hbs)

theorem Path.text_lower : ∀ (p : Path) (p' : Core.Path), p.lower = .ok p' → p'.text = p.text
  | .invalid _, _, h | .localName _ _, _, h | .relative _ _, _, h | .selfRelative _ _, _, h
  | .superRelative _ _ _, _, h | .qualified _ _ _ [], _, h
  | .qualified _ _ _ (.mk _ _ :: _ :: _), _, h => nomatch h
  | .absolute _ c segs, _, h => by
    obtain ⟨_, -, h⟩ := Lowered.bind_eq_ok.mp h
    obtain ⟨args, hargs, ⟨⟩⟩ := Lowered.bind_eq_ok.mp h
    exact congrArg ((Core.ItemPath.mk c (segs.map Segment.name)).text ++ ·)
      (Segment.lastText_lower segs args hargs)
  | .qualified _ self none [.mk n args], _, h => by
    obtain ⟨self', hself, h⟩ := Lowered.bind_eq_ok.mp h
    obtain ⟨args', hargs, h⟩ := Lowered.bind_eq_ok.mp h
    obtain ⟨trait', htrait, ⟨⟩⟩ := Lowered.bind_eq_ok.mp h
    cases htrait
    exact congrArg₂ ("<" ++ · ++ ">::" ++ n ++ ·) (Ty.text_lower self self' hself)
      (GenericArgs.text_lower args args' hargs)
  | .qualified _ self (some p) [.mk n args], _, h => by
    obtain ⟨self', hself, h⟩ := Lowered.bind_eq_ok.mp h
    obtain ⟨args', hargs, h⟩ := Lowered.bind_eq_ok.mp h
    obtain ⟨trait', htrait, ⟨⟩⟩ := Lowered.bind_eq_ok.mp h
    obtain ⟨p', hp, ⟨⟩⟩ := Lowered.bind_eq_ok.mp htrait
    rw [Core.Path.text, Ty.text_lower self self' hself, GenericArgs.text_lower args args' hargs,
      Path.text_lowerPlain p p' hp]
    rfl

theorem Path.text_lowerPlain : ∀ (p : Path) (p' : Core.AppliedPath), p.lowerPlain = .ok p' →
    p'.text = p.text
  | .invalid _, _, h | .localName _ _, _, h | .relative _ _, _, h | .selfRelative _ _, _, h
  | .superRelative _ _ _, _, h | .qualified _ _ _ _, _, h => nomatch h
  | .absolute _ c segs, _, h => by
    obtain ⟨_, -, h⟩ := Lowered.bind_eq_ok.mp h
    obtain ⟨args, hargs, ⟨⟩⟩ := Lowered.bind_eq_ok.mp h
    exact congrArg ((Core.ItemPath.mk c (segs.map Segment.name)).text ++ ·)
      (Segment.lastText_lower segs args hargs)

theorem Path.texts_lowerPlainAll : ∀ (ps : List Path) (ps' : List Core.AppliedPath),
    Path.lowerPlainAll ps = .ok ps' → Core.AppliedPath.texts ps' = Path.texts ps
  | [], _, h => by
    cases h
    rfl
  | p :: ps, _, h => by
    obtain ⟨p', hp, h⟩ := Lowered.bind_eq_ok.mp h
    obtain ⟨ps', hps, ⟨⟩⟩ := Lowered.bind_eq_ok.mp h
    exact congrArg₂ List.cons (Path.text_lowerPlain p p' hp) (Path.texts_lowerPlainAll ps ps' hps)

theorem Segment.lastText_lower : ∀ (segs : List Segment) (args : Core.GenericArgs),
    Segment.lowerLastArgs segs = .ok args → args.text = Segment.lastText segs
  | [], _, h => by
    cases h
    rfl
  | [.mk _ as], args, h => GenericArgs.text_lower as args h
  | .mk _ _ :: .mk m bs :: segs, args, h => Segment.lastText_lower (.mk m bs :: segs) args h

theorem GenericArgs.text_lower : ∀ (as : GenericArgs) (args : Core.GenericArgs),
    as.lower = .ok args → args.text = as.text
  | .mk _ ts bs, _, h => by
    obtain ⟨ts', hts, h⟩ := Lowered.bind_eq_ok.mp h
    obtain ⟨bs', hbs, ⟨⟩⟩ := Lowered.bind_eq_ok.mp h
    exact congrArg₂ Core.argsText (Ty.texts_lower ts ts' hts) (Ty.bindingTexts_lower bs bs' hbs)

theorem Pattern.text_lower : ∀ (p : Pattern) (p' : Core.Pattern), p.lower = .ok p' →
    p'.text = p.text
  | .mk s none k, _, h => by
    obtain ⟨k', hk, ⟨⟩⟩ := Lowered.bind_eq_ok.mp h
    exact PatternKind.text_lower s k k' hk
  | .mk s (some b) k, _, h => by
    obtain ⟨k', hk, ⟨⟩⟩ := Lowered.bind_eq_ok.mp h
    have htext := PatternKind.text_lower s k k' hk
    -- a name stands alone exactly when what it binds is not looked at
    cases k with
    | any =>
      cases hk
      rfl
    | maybeBind | macroCall => cases hk
    | value | tuple | ref =>
      obtain ⟨_, -, ⟨⟩⟩ := Lowered.bind_eq_ok.mp hk
      exact congrArg (b.text ++ " @ " ++ ·) htext
    | range | tupleStruct | struct =>
      obtain ⟨_, -, hk⟩ := Lowered.bind_eq_ok.mp hk
      obtain ⟨_, -, ⟨⟩⟩ := Lowered.bind_eq_ok.mp hk
      exact congrArg (b.text ++ " @ " ++ ·) htext

theorem PatternKind.text_lower (s : Location) : ∀ (k : PatternKind) (k' : Core.PatternKind),
    k.lower s = .ok k' → k'.text = k.text
  | .any, _, h => by
    cases h
    rfl
  | .maybeBind _, _, h | .macroCall _, _, h => nomatch h
  | .value _, _, h => by
    obtain ⟨l', hl, ⟨⟩⟩ := Lowered.bind_eq_ok.mp h
    exact text_lowerLiteral hl
  | .range _ _, _, h => by
    obtain ⟨a', ha, h⟩ := Lowered.bind_eq_ok.mp h
    obtain ⟨b', hb, ⟨⟩⟩ := Lowered.bind_eq_ok.mp h
    exact congrArg₂ (· ++ " ..= " ++ ·) (text_lowerLiteral ha) (text_lowerLiteral hb)
  | .tuple ps, _, h => by
    obtain ⟨ps', hps, ⟨⟩⟩ := Lowered.bind_eq_ok.mp h
    exact congrArg Text.tuple (Pattern.texts_lower ps ps' hps)
  | .ref k p, _, h => by
    obtain ⟨p', hp, ⟨⟩⟩ := Lowered.bind_eq_ok.mp h
    exact congrArg (k.sign ++ ·) (Pattern.text_lower p p' hp)
  | .tupleStruct q ps, _, h => by
    obtain ⟨q', hq, h⟩ := Lowered.bind_eq_ok.mp h
    obtain ⟨ps', hps, ⟨⟩⟩ := Lowered.bind_eq_ok.mp h
    exact congrArg₂ (· ++ "(" ++ Text.joined ", " · ++ ")") (Path.text_lower q q' hq)
      (Pattern.texts_lower ps ps' hps)
  | .struct q fs x, _, h => by
    obtain ⟨q', hq, h⟩ := Lowered.bind_eq_ok.mp h
    obtain ⟨fs', hfs, ⟨⟩⟩ := Lowered.bind_eq_ok.mp h
    exact congrArg₂ (· ++ " \x7b" ++ Core.fieldPatternsText · x ++ " \x7d")
      (Path.text_lower q q' hq) (Pattern.fieldTexts_lower fs fs' hfs)

theorem Pattern.texts_lower : ∀ (ps : List Pattern) (ps' : List Core.Pattern),
    Pattern.lowerAll ps = .ok ps' → Core.Pattern.texts ps' = Pattern.texts ps
  | [], _, h => by
    cases h
    rfl
  | p :: ps, _, h => by
    obtain ⟨p', hp, h⟩ := Lowered.bind_eq_ok.mp h
    obtain ⟨ps', hps, ⟨⟩⟩ := Lowered.bind_eq_ok.mp h
    exact congrArg₂ List.cons (Pattern.text_lower p p' hp) (Pattern.texts_lower ps ps' hps)

theorem Pattern.fieldTexts_lower : ∀ (fs : List (String × Pattern))
    (fs' : List (String × Core.Pattern)), Pattern.lowerNamed fs = .ok fs' →
    Core.Pattern.fieldTexts fs' = Pattern.fieldTexts fs
  | [], _, h => by
    cases h
    rfl
  | (n, p) :: fs, _, h => by
    obtain ⟨p', hp, h⟩ := Lowered.bind_eq_ok.mp h
    obtain ⟨fs', hfs, ⟨⟩⟩ := Lowered.bind_eq_ok.mp h
    exact congrArg₂ (fun p fs => (n ++ ": " ++ p) :: fs) (Pattern.text_lower p p' hp)
      (Pattern.fieldTexts_lower fs fs' hfs)

theorem Expr.text_lower : ∀ (e : Expr) (t : Term), e.lower = .ok t → t.text = e.text
  | .macroCall _ _, _, h | .forLoop _ _ _ _ _, _, h => nomatch h
  | .cont _ _, _, h => by
    cases h
    rfl
  | .literal _ _, _, h => by
    obtain ⟨l', hl, ⟨⟩⟩ := Lowered.bind_eq_ok.mp h
    exact text_lowerLiteral hl
  | .path _ p, _, h => by
    cases p with
    | localName s n =>
      cases h
      rfl
    | _ =>
      obtain ⟨p', hp, ⟨⟩⟩ := Lowered.bind_eq_ok.mp h
      exact Path.text_lower _ p' hp
  | .tuple _ es, _, h => by
    obtain ⟨ts, hts, ⟨⟩⟩ := Lowered.bind_eq_ok.mp h
    exact (Term.text_mk _).trans (congrArg Text.tuple (Expr.texts_lower es ts hts))
  | .array _ es, _, h => by
    obtain ⟨ts, hts, ⟨⟩⟩ := Lowered.bind_eq_ok.mp h
    exact (Term.text_mk _).trans
      (congrArg ("[" ++ Text.joined ", " · ++ "]") (Expr.texts_lower es ts hts))
  | .block _ ss e, _, h => by
    obtain ⟨ss', hss, h⟩ := Lowered.bind_eq_ok.mp h
    obtain ⟨t, ht, ⟨⟩⟩ := Lowered.bind_eq_ok.mp h
    rw [Term.text, Term.nodeText, Term.optText_eq, Stmt.blockText_lower ss ss' hss,
      Expr.text?_lower e t ht]
    rfl
  | .assign _ none a b, _, h => by
    obtain ⟨a', ha, h⟩ := Lowered.bind_eq_ok.mp h
    obtain ⟨b', hb, ⟨⟩⟩ := Lowered.bind_eq_ok.mp h
    exact congrArg₂ (· ++ " = " ++ ·) (Expr.text_lower a a' ha) (Expr.text_lower b b' hb)
  | .assign _ (some o) a b, _, h => by
    obtain ⟨a', ha, h⟩ := Lowered.bind_eq_ok.mp h
    obtain ⟨b', hb, ⟨⟩⟩ := Lowered.bind_eq_ok.mp h
    exact congrArg₂ (· ++ " " ++ o.sign ++ "= " ++ ·) (Expr.text_lower a a' ha)
      (Expr.text_lower b b' hb)
  | .binary _ o a b, _, h => by
    obtain ⟨a', ha, h⟩ := Lowered.bind_eq_ok.mp h
    obtain ⟨b', hb, ⟨⟩⟩ := Lowered.bind_eq_ok.mp h
    exact congrArg₂ ("(" ++ · ++ " " ++ o.sign ++ " " ++ · ++ ")") (Expr.text_lower a a' ha)
      (Expr.text_lower b b' hb)
  | .index _ a b, _, h => by
    obtain ⟨a', ha, h⟩ := Lowered.bind_eq_ok.mp h
    obtain ⟨b', hb, ⟨⟩⟩ := Lowered.bind_eq_ok.mp h
    exact congrArg₂ (· ++ "[" ++ · ++ "]") (Expr.text_lower a a' ha) (Expr.text_lower b b' hb)
  | .unary _ (.value o) a, _, h => by
    obtain ⟨a', ha, ⟨⟩⟩ := Lowered.bind_eq_ok.mp h
    exact congrArg (o.sign ++ ·) (Expr.text_lower a a' ha)
  | .unary _ .deref a, _, h => by
    obtain ⟨a', ha, ⟨⟩⟩ := Lowered.bind_eq_ok.mp h
    exact congrArg ("*" ++ ·) (Expr.text_lower a a' ha)
  | .borrow _ k a, _, h => by
    obtain ⟨a', ha, ⟨⟩⟩ := Lowered.bind_eq_ok.mp h
    exact congrArg (k.sign ++ ·) (Expr.text_lower a a' ha)
  | .field _ a n, _, h => by
    obtain ⟨a', ha, ⟨⟩⟩ := Lowered.bind_eq_ok.mp h
    exact congrArg (· ++ "." ++ n) (Expr.text_lower a a' ha)
  | .loop _ l a, _, h => by
    obtain ⟨a', ha, ⟨⟩⟩ := Lowered.bind_eq_ok.mp h
    refine (Term.text_mk _).trans ?_
    cases l <;> exact congrArg (_ ++ "loop " ++ ·) (Expr.text_lower a a' ha)
  | .cast _ a t, _, h => by
    obtain ⟨a', ha, h⟩ := Lowered.bind_eq_ok.mp h
    obtain ⟨t', ht, ⟨⟩⟩ := Lowered.bind_eq_ok.mp h
    exact congrArg₂ ("(" ++ · ++ " as " ++ · ++ ")") (Expr.text_lower a a' ha)
      (Ty.text_lower t t' ht)
  | .callPath _ p es, _, h => by
    cases p with
    -- the callee is written out as a value, as it is lowered
    | localName s n =>
      obtain ⟨ts, hts, ⟨⟩⟩ := Lowered.bind_eq_ok.mp h
      exact (Term.text_mk _).trans
        (congrArg ("(" ++ n ++ ")(" ++ Text.joined ", " · ++ ")") (Expr.texts_lower es ts hts))
    | _ =>
      obtain ⟨p', hp, h⟩ := Lowered.bind_eq_ok.mp h
      obtain ⟨ts, hts, ⟨⟩⟩ := Lowered.bind_eq_ok.mp h
      exact (Term.text_mk _).trans (congrArg₂ (· ++ "(" ++ Text.joined ", " · ++ ")")
        (Path.text_lower _ p' hp) (Expr.texts_lower es ts hts))
  | .callMethod _ a m es, _, h => by
    obtain ⟨a', ha, h⟩ := Lowered.bind_eq_ok.mp h
    obtain ⟨ts, hts, ⟨⟩⟩ := Lowered.bind_eq_ok.mp h
    exact (Term.text_mk _).trans (congrArg₂ (· ++ "." ++ m ++ "(" ++ Text.joined ", " · ++ ")")
      (Expr.text_lower a a' ha) (Expr.texts_lower es ts hts))
  | .callValue _ a es, _, h => by
    obtain ⟨a', ha, h⟩ := Lowered.bind_eq_ok.mp h
    obtain ⟨ts, hts, ⟨⟩⟩ := Lowered.bind_eq_ok.mp h
    exact (Term.text_mk _).trans (congrArg₂ ("(" ++ · ++ ")(" ++ Text.joined ", " · ++ ")")
      (Expr.text_lower a a' ha) (Expr.texts_lower es ts hts))
  | .structLiteral _ p fs b, _, h => by
    obtain ⟨p', hp, h⟩ := Lowered.bind_eq_ok.mp h
    obtain ⟨fs', hfs, h⟩ := Lowered.bind_eq_ok.mp h
    obtain ⟨t, ht, ⟨⟩⟩ := Lowered.bind_eq_ok.mp h
    rw [Term.text_mk, Expr.text, ← Path.text_lower p p' hp, ← Expr.fieldTexts_lower fs fs' hfs,
      ← Expr.text?_lower b t ht]
    rfl
  | .ifElse _ c b e, _, h => by
    obtain ⟨c', hc, h⟩ := Lowered.bind_eq_ok.mp h
    obtain ⟨b', hb, h⟩ := Lowered.bind_eq_ok.mp h
    obtain ⟨e', he, ⟨⟩⟩ := Lowered.bind_eq_ok.mp h
    rw [Term.text_mk, Expr.text, ← Expr.text_lower c c' hc, ← Expr.text_lower b b' hb,
      ← Expr.text?_lower e e' he]
    rfl
  | .ifLet _ p v b e, _, h => by
    obtain ⟨v', hv, h⟩ := Lowered.bind_eq_ok.mp h
    obtain ⟨p', hp, h⟩ := Lowered.bind_eq_ok.mp h
    obtain ⟨b', hb, h⟩ := Lowered.bind_eq_ok.mp h
    obtain ⟨e', he, ⟨⟩⟩ := Lowered.bind_eq_ok.mp h
    have helse : (e'.getD .emptyBlock).text = (e'.map Term.text).getD "\x7b \x7d" := by
      cases e' <;> rfl
    rw [text_matchElse, helse, Expr.text, ← Expr.text_lower v v' hv, ← Pattern.text_lower p p' hp,
      ← Expr.text_lower b b' hb, ← Expr.text?_lower e e' he]
  | .matchOn _ v as, _, h => by
    obtain ⟨v', hv, h⟩ := Lowered.bind_eq_ok.mp h
    obtain ⟨as', has, ⟨⟩⟩ := Lowered.bind_eq_ok.mp h
    exact congrArg₂ ("match " ++ · ++ " \x7b" ++ · ++ " \x7d") (Expr.text_lower v v' hv)
      (Arm.allText_lower as as' has)
  | .whileLoop _ l c b, _, h => by
    obtain ⟨c', hc, h⟩ := Lowered.bind_eq_ok.mp h
    obtain ⟨b', hb, ⟨⟩⟩ := Lowered.bind_eq_ok.mp h
    rw [Term.whileLoop, text_loopBlock, Term.text, Term.nodeText, Term.optText, text_exitBlock,
      Expr.text, ← Expr.text_lower c c' hc, ← Expr.text_lower b b' hb]
    exact String.toList_inj.mp (by simp)
  | .whileLet _ l p v b, _, h => by
    obtain ⟨v', hv, h⟩ := Lowered.bind_eq_ok.mp h
    obtain ⟨p', hp, h⟩ := Lowered.bind_eq_ok.mp h
    obtain ⟨b', hb, ⟨⟩⟩ := Lowered.bind_eq_ok.mp h
    rw [Term.whileLet, text_loopBlock, text_matchElse, text_exitBlock, Expr.text,
      ← Expr.text_lower v v' hv, ← Pattern.text_lower p p' hp, ← Expr.text_lower b b' hb]
    exact String.toList_inj.mp (by simp)
  | .ret _ v, _, h => by
    obtain ⟨v', hv, ⟨⟩⟩ := Lowered.bind_eq_ok.mp h
    exact (Term.text_mk _).trans
      (congrArg ("return" ++ optionalText " " ·) (Expr.text?_lower v v' hv))
  | .brk _ l v, _, h => by
    obtain ⟨v', hv, ⟨⟩⟩ := Lowered.bind_eq_ok.mp h
    exact (Term.text_mk _).trans (congrArg ("break" ++ optionalText " '" l ++ optionalText " " ·)
      (Expr.text?_lower v v' hv))

theorem Expr.texts_lower : ∀ (es : List Expr) (ts : List Term), Expr.lowerAll es = .ok ts →
    ts.map Term.text = Expr.texts es
  | [], _, h => by
    cases h
    rfl
  | e :: es, _, h => by
    obtain ⟨t, ht, h⟩ := Lowered.bind_eq_ok.mp h
    obtain ⟨ts, hts, ⟨⟩⟩ := Lowered.bind_eq_ok.mp h
    exact congrArg₂ List.cons (Expr.text_lower e t ht) (Expr.texts_lower es ts hts)

theorem Expr.text?_lower : ∀ (e : Option Expr) (t : Option Term), Expr.lowerOpt e = .ok t →
    t.map Term.text = Expr.text? e
  | none, _, h => by
    cases h
    rfl
  | some e, _, h => by
    obtain ⟨t, ht, ⟨⟩⟩ := Lowered.bind_eq_ok.mp h
    exact congrArg some (Expr.text_lower e t ht)

theorem Expr.fieldTexts_lower : ∀ (fs : List (String × Expr)) (ts : List (String × Term)),
    Expr.lowerNamed fs = .ok ts → (ts.map fun (n, e) => (n, e.text)) = Expr.fieldTexts fs
  | [], _, h => by
    cases h
    rfl
  | (n, e) :: fs, _, h => by
    obtain ⟨t, ht, h⟩ := Lowered.bind_eq_ok.mp h
    obtain ⟨ts, hts, ⟨⟩⟩ := Lowered.bind_eq_ok.mp h
    exact congrArg₂ (fun e fs => (n, e) :: fs) (Expr.text_lower e t ht)
      (Expr.fieldTexts_lower fs ts hts)

theorem Stmt.text_lower : ∀ (s : Stmt) (t : TermStmt), s.lower = .ok t → t.text = s.text
  | .letIn _ p t v, _, h => by
    obtain ⟨p', hp, h⟩ := Lowered.bind_eq_ok.mp h
    obtain ⟨t', ht, h⟩ := Lowered.bind_eq_ok.mp h
    obtain ⟨v', hv, ⟨⟩⟩ := Lowered.bind_eq_ok.mp h
    rw [TermStmt.text_mk, Stmt.text, ← Pattern.text_lower p p' hp, ← Ty.isInfer_lower ht,
      ← Ty.text_lower t t' ht, ← Expr.text?_lower v v' hv]
    rfl
  | .expr e, _, h => by
    obtain ⟨t, ht, ⟨⟩⟩ := Lowered.bind_eq_ok.mp h
    exact Expr.text_lower e t ht

theorem Stmt.blockText_lower : ∀ (ss : List Stmt) (ts : List TermStmt),
    Stmt.lowerAll ss = .ok ts → TermStmt.blockText ts = Stmt.blockText ss
  | [], _, h => by
    cases h
    rfl
  | s :: ss, _, h => by
    obtain ⟨t, ht, h⟩ := Lowered.bind_eq_ok.mp h
    obtain ⟨ts, hts, ⟨⟩⟩ := Lowered.bind_eq_ok.mp h
    exact congrArg₂ (" " ++ · ++ ";" ++ ·) (Stmt.text_lower s t ht) (Stmt.blockText_lower ss ts hts)

theorem Arm.allText_lower : ∀ (as : List Arm) (as' : List (Core.Arm Core.Pattern Term)),
    Arm.lowerAll as = .ok as' → Term.armsText as' = Arm.allText as
  | [], _, h => by
    cases h
    rfl
  | .mk ps g b :: as, _, h => by
    obtain ⟨a', ha, h⟩ := Lowered.bind_eq_ok.mp h
    obtain ⟨as', has, ⟨⟩⟩ := Lowered.bind_eq_ok.mp h
    obtain ⟨ps', hps, ha⟩ := Lowered.bind_eq_ok.mp ha
    obtain ⟨g', hg, ha⟩ := Lowered.bind_eq_ok.mp ha
    obtain ⟨b', hb, ⟨⟩⟩ := Lowered.bind_eq_ok.mp ha
    rw [Term.armsText, Term.optText_eq, Pattern.texts_lower ps ps' hps, Expr.text?_lower g g' hg,
      Expr.text_lower b b' hb, Arm.allText_lower as as' has]
    rfl

end

/-! ## Printed bodies -/

open Lowering.Core (Fragment exprText?)
open Lowering.Core.Body (nodeTexts stmtTexts)

theorem Expr.lowerBody_descending {e : Expr} {b : Core.Body} (h : e.lowerBody = .ok b) :
    (Fragment.body b).Everywhere Fragment.Descending :=
  fun f hf => (Expr.lowerBody_everywhere gives_bottomUp h f hf).descending

theorem Expr.text?_lowerBody {e : Expr} {b : Core.Body} (h : e.lowerBody = .ok b) :
    b.text? = some e.text := by
  obtain ⟨t, ht, ⟨⟩⟩ := Lowered.bind_eq_ok.mp h
  rw [t.text?_body, Expr.text_lower e t ht]

theorem Expr.lower_desugar (spans : List Nat → Nat → Location) (e : Expr) :
    (e.desugar spans).lower = e.lower :=
  (Expr.lower_rewrite (Expr.desugar_keepsLowering spans) [] e).trans (Lowered.relocate_id _)

/-- A body is printed from its root as the tree that it unfolds to.

1. If the numbers of a body and of all bodies inside it are in range and descend,
   each of them has a text: that of its tree by structural recursion. The printer
   gives it with any bound on its depth above the root.
2. Bodies that unfold to the same tree have the same text. So have bodies whose
   trees are the same but for the layout of the bodies inside their types, that is
   for the order, the sharing and the unused nodes of array sizes at any depth.
3. The body that an expression lowers to is such a body. Its text is the structural
   text of the expression, and that of the expression with all sugar written out. -/
theorem body_text_structural :
    (∀ b : Core.Body, (Fragment.body b).Everywhere Fragment.Descending →
      ∀ inner : Core.Body, (Fragment.body inner).Within (.body b) →
        inner.text? = some inner.term.text ∧
        ∀ depth, inner.root < depth →
          exprText? (nodeTexts inner.exprs) (stmtTexts inner.stmts) depth inner.root =
            some inner.term.text) ∧
    ((∀ b b' : Core.Body, b.Descending → b'.Descending → b.term = b'.term → b.text? = b'.text?) ∧
      ∀ b b' : Core.Body, (Fragment.body b).Everywhere Fragment.Descending →
        (Fragment.body b').Everywhere Fragment.Descending → b.unfolded = b'.unfolded →
        b.text? = b'.text?) ∧
    (∀ (e : Expr) (b : Core.Body), e.lowerBody = .ok b →
      (Fragment.body b).Everywhere Fragment.Descending ∧ b.text? = some e.text ∧
        ∀ spans, b.text? = some (e.desugar spans).text) := by
  refine ⟨fun b h inner hin => ?_, ⟨fun b b' h h' hterm => ?_, fun b b' h h' heq => ?_⟩,
    fun e b h => ?_⟩
  · have hinner : inner.Descending := h _ hin
    have hroot := hinner.root_in_range
    refine ⟨hinner.text?_eq, fun depth hdepth => ?_⟩
    rw [hinner.exprText?_eq depth inner.root hroot hdepth,
      hinner.readExpr_stable _ depth inner.exprs.length inner.root hroot hdepth hroot]
    rfl
  · rw [h.text?_eq, h'.text?_eq, hterm]
  · exact Core.Body.text?_eq_of_unfolded_eq h h' heq
  · refine ⟨Expr.lowerBody_descending h, Expr.text?_lowerBody h, fun spans => ?_⟩
    refine Expr.text?_lowerBody (e := e.desugar spans) ?_
    rw [Expr.lowerBody, Expr.lower_desugar]
    exact h

/-- The term `{ x; (x)(x) }`. -/
def callTerm : Term :=
  let x : Term := .mk (.localVar "x")
  .mk (.block [.mk (.expr x)] (some (.mk (.callValue x [x]))))

/-- The expression `{ x; x(x) }`. -/
def callInBlock : Expr :=
  let x : Path := .localName .dummy "x"
  .block .dummy [.expr (.path .dummy x)] (some (.callPath .dummy x [.path .dummy x]))

/-- A body for `{ x; (x)(x) }` that holds `x` once, and an expression and a statement
that nothing refers to. -/
def sharedCall : Core.Body :=
  .mk [.localVar "x", .callValue 0 [0], .deref 1, .block [1] (some 1)]
    [.letIn .wildcard .infer (some 2), .expr 0] 3

theorem sharedCall_descending : sharedCall.Descending := by
  refine ⟨by decide, by decide, by decide, fun i node hi => ?_, fun i node hi k hk s hs => ?_⟩
  · rcases i with _ | _ | _ | _ | i <;> cases hi <;> decide
  · -- only the block has a statement
    rcases i with _ | _ | _ | _ | i <;> cases hi
    · cases hk
    · cases hk
    · cases hk
    · obtain rfl : k = 1 := List.mem_singleton.mp hk
      cases hs
      decide

theorem sharedCall_everywhere : (Fragment.body sharedCall).Everywhere Fragment.Descending := by
  refine .of_parts sharedCall_descending fun g hg => ?_
  -- only the unused statement mentions anything, and there is no body in that
  rcases List.mem_cons.mp hg with rfl | hg
  · refine .of_parts trivial (List.forall_mem_singleton.mpr ?_)
    exact .of_parts trivial (List.forall_mem_nil _)
  · obtain rfl := List.mem_singleton.mp hg
    exact .of_parts trivial (List.forall_mem_nil _)

/-- A body for `y as [_; size]`. -/
def castToArray (size : Core.Body) : Core.Body :=
  .mk [.localVar "y", .cast 0 (.array .infer (some size))] [] 1

theorem castToArray_everywhere {size : Core.Body}
    (h : (Fragment.body size).Everywhere Fragment.Descending) :
    (Fragment.body (castToArray size)).Everywhere Fragment.Descending := by
  have hdescending : (castToArray size).Descending := by
    refine ⟨Nat.one_lt_two, List.forall_mem_singleton.mpr Nat.two_pos, nofun,
      fun i node hi => ?_, fun i node hi k hk => ?_⟩
    · rcases i with _ | _ | i <;> cases hi
      · exact List.forall_mem_nil _
      · exact List.forall_mem_singleton.mpr Nat.one_pos
    · rcases i with _ | _ | i <;> cases hi <;> cases hk
  have helement : (Fragment.ty .infer).Everywhere Fragment.Descending :=
    .of_parts trivial (List.forall_mem_nil _)
  refine .of_parts hdescending (List.forall_mem_singleton.mpr (.of_parts trivial ?_))
  exact List.forall_mem_cons.mpr ⟨helement, List.forall_mem_singleton.mpr h⟩

theorem castToArray_unfolded (size : Core.Body) :
    (castToArray size).unfolded = (castToArray size.unfolded).term.body := rfl

theorem sharedCall_printed : ∃ b, callInBlock.lowerBody = .ok b ∧ sharedCall.term = b.term ∧
    sharedCall.text? = b.text? ∧ b.text? = some "\x7b x; (x)(x) \x7d" ∧
    (castToArray sharedCall).term ≠ (castToArray b).term ∧
    (castToArray sharedCall).text? = (castToArray b).text? := by
  have hterm : sharedCall.term = callTerm.body.term := Eq.trans rfl callTerm.term_body.symm
  have hb := body_text_structural.2.2 callInBlock callTerm.body rfl
  refine ⟨callTerm.body, rfl, hterm, ?_, hb.2.1, ?_, ?_⟩
  · exact body_text_structural.2.1.1 _ _ sharedCall_descending (hb.1 _ (.self _)) hterm
  · -- the sizes are not the same arenas
    intro h
    cases h
  · refine body_text_structural.2.1.2 _ _ (castToArray_everywhere sharedCall_everywhere)
      (castToArray_everywhere hb.1) ?_
    rw [castToArray_unfolded, castToArray_unfolded, Core.Body.unfolded_eq_of_term_eq hterm]

end Lowering.Surface
