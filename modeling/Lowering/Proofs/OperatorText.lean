import Lowering.Proofs.Phrase
import Lowering.Proofs.TermText

/-!
# Texts of operator expressions

An operator expression is made of names, operators, borrows, casts to scalar types,
fields, indices, and calls of methods and values. It is written as a phrase
(`Term.phrase`), in which signs in front and suffixes behind stand side by side
whichever was applied first.

What is proved:
  1. `Term.Operators.toList_text`: the text of the term is the text of the phrase.
  2. `Term.text_eq_iff`: terms have the same text exactly when they have the same phrase.
-/

namespace Lowering.Core

/-! ## Operator expressions -/

/-- Whether a node is one of an operator expression. -/
def Node.isOperator {π ρ ε σ : Type} : Node Ty π ρ ε σ → Bool
  | .localVar _ | .binary _ _ _ | .unary _ _ | .deref _ | .borrow _ _ | .cast _ (.primitive _)
  | .callMethod _ _ _ | .callValue _ _ | .field _ _ | .index _ _ => true
  | _ => false

/-- The name in a node, if it has one, is a name. -/
def Node.Named {τ π ρ ε σ : Type} : Node τ π ρ ε σ → Prop
  | .localVar n | .field _ n | .callMethod _ n _ => IsName n
  | _ => True

/-- An operator expression all of whose nodes are `ok`. -/
inductive Term.Operators (ok : Node Ty Path Pattern Term TermStmt → Prop) : Term → Prop
  | mk {node : Node Ty Path Pattern Term TermStmt} : node.isOperator = true → ok node →
      (∀ t ∈ node.children, Operators ok t) → Operators ok (.mk node)

/-! ## Phrases of terms -/

/-- The phrase with nothing but a head. -/
def Phrase.ofHead (head : Head) : Phrase := .mk [] head []

/-- The phrase with another sign in front. -/
def Phrase.sign (x : Sign) : Phrase → Phrase
  | .mk signs head suffixes => .mk (x :: signs) head suffixes

/-- The phrase with another suffix behind. -/
def Phrase.suffix (x : Suffix) : Phrase → Phrase
  | .mk signs head suffixes => .mk signs head (suffixes ++ [x])

mutual

/-- The phrase that an operator expression is written as. -/
def Term.phrase : Term → Phrase
  | .mk node => Term.nodePhrase node

/-- The phrase that a node of an operator expression is written as. -/
def Term.nodePhrase : Node Ty Path Pattern Term TermStmt → Phrase
  | .localVar n => .ofHead (.name n)
  | .binary o a b => .ofHead (.binary o a.phrase b.phrase)
  | .cast a (.primitive c) => .ofHead (.cast a.phrase c)
  | .callValue a es => .ofHead (.call a.phrase (Term.phrases es))
  | .unary o a => a.phrase.sign (.unary o)
  | .deref a => a.phrase.sign .deref
  | .borrow k a => a.phrase.sign (.borrow k)
  | .field a n => a.phrase.suffix (.field n)
  | .index a b => a.phrase.suffix (.index b.phrase)
  | .callMethod a m es => a.phrase.suffix (.method m (Term.phrases es))
  | _ => .ofHead (.name "")

/-- The phrases of operator expressions in order. -/
def Term.phrases : List Term → List Phrase
  | [] => []
  | e :: es => e.phrase :: Term.phrases es

end

/-! ## Texts of phrases -/

theorem Phrase.chars_ofHead (head : Head) : (Phrase.ofHead head).chars = head.chars := by
  simp [Phrase.ofHead, Phrase.chars, Suffix.allChars]

theorem Phrase.chars_withSign (x : Sign) (p : Phrase) : (p.sign x).chars = x.chars ++ p.chars := by
  obtain ⟨signs, head, suffixes⟩ := p
  exact Phrase.chars_sign x signs head suffixes

theorem Suffix.allChars_concat (xs : List Suffix) (x : Suffix) :
    Suffix.allChars (xs ++ [x]) = Suffix.allChars xs ++ x.chars := by
  induction xs with
  | nil => simp [Suffix.allChars]
  | cons y ys ih => rw [List.cons_append, Suffix.allChars, Suffix.allChars, ih, List.append_assoc]

theorem Phrase.chars_withSuffix (x : Suffix) (p : Phrase) :
    (p.suffix x).chars = p.chars ++ x.chars := by
  obtain ⟨signs, head, suffixes⟩ := p
  simp [Phrase.suffix, Phrase.chars, Suffix.allChars_concat]

theorem Term.toList_listText {es : List Term} (h : ∀ e ∈ es, e.text.toList = e.phrase.chars) :
    (Term.listText "" es).toList = Phrase.argChars (Term.phrases es) := by
  have hlater : ∀ {es : List Term}, (∀ e ∈ es, e.text.toList = e.phrase.chars) →
      (Term.listText ", " es).toList = Phrase.laterChars (Term.phrases es) := by
    intro es h
    induction es with
    | nil => rfl
    | cons e es ih =>
      obtain ⟨he, hes⟩ := List.forall_mem_cons.mp h
      simp [Term.listText, Term.phrases, Phrase.laterChars, he, ih hes]
  cases es with
  | nil => rfl
  | cons e es =>
    obtain ⟨he, hes⟩ := List.forall_mem_cons.mp h
    simp [Term.listText, Term.phrases, Phrase.argChars, he, hlater hes]

theorem Phrase.Plain.ofHead {head : Head} (h : head.Plain) : (Phrase.ofHead head).Plain :=
  .mk h (List.forall_mem_nil _)

theorem Phrase.Plain.sign {p : Phrase} (h : p.Plain) (x : Sign) : (p.sign x).Plain := by
  cases h with
  | mk hhead hxs => exact .mk hhead hxs

theorem Phrase.Plain.suffix {p : Phrase} (h : p.Plain) {x : Suffix} (hx : x.Plain) :
    (p.suffix x).Plain := by
  cases h with
  | mk hhead hxs =>
    exact .mk hhead (List.forall_mem_append.mpr ⟨hxs, List.forall_mem_singleton.mpr hx⟩)

theorem Phrase.plain_phrases {es : List Term} (h : ∀ e ∈ es, e.phrase.Plain) :
    ∀ p ∈ Term.phrases es, p.Plain := by
  induction es with
  | nil => exact List.forall_mem_nil _
  | cons e es ih =>
    obtain ⟨he, hes⟩ := List.forall_mem_cons.mp h
    exact List.forall_mem_cons.mpr ⟨he, ih hes⟩

namespace Term.Operators

variable {ok : Node Ty Path Pattern Term TermStmt → Prop} {t : Term}

/-- An operator expression is written as its phrase. -/
theorem toList_text (h : t.Operators ok) : t.text.toList = t.phrase.chars := by
  induction h with
  | @mk node hop _ _ ih =>
    rw [Term.text, Term.phrase]
    cases node with
    | localVar n => rw [Term.nodeText, Term.nodePhrase, Phrase.chars_ofHead, Head.chars]
    | binary o a b =>
      have ha := ih a List.mem_cons_self
      have hb := ih b (List.mem_cons_of_mem _ List.mem_cons_self)
      simp [Term.nodeText, Term.nodePhrase, Phrase.chars_ofHead, Head.chars, ha, hb]
    | unary _ a | deref a | borrow _ a =>
      have ha := ih a List.mem_cons_self
      simp [Term.nodeText, Term.nodePhrase, Phrase.chars_withSign, Sign.chars, ha]
    | cast a ty =>
      have ha := ih a List.mem_cons_self
      cases ty with
      | primitive c =>
        simp [Term.nodeText, Term.nodePhrase, Phrase.chars_ofHead, Head.chars, Ty.text, ha]
      | _ => cases hop
    | callMethod a m es =>
      obtain ⟨ha, hes⟩ := List.forall_mem_cons.mp ih
      simp [Term.nodeText, Term.nodePhrase, Phrase.chars_withSuffix, Suffix.chars, ha,
        Term.toList_listText hes]
    | callValue a es =>
      obtain ⟨ha, hes⟩ := List.forall_mem_cons.mp ih
      simp [Term.nodeText, Term.nodePhrase, Phrase.chars_ofHead, Head.chars, ha,
        Term.toList_listText hes]
    | field a n =>
      have ha := ih a List.mem_cons_self
      simp [Term.nodeText, Term.nodePhrase, Phrase.chars_withSuffix, Suffix.chars, ha]
    | index a b =>
      have ha := ih a List.mem_cons_self
      have hb := ih b (List.mem_cons_of_mem _ List.mem_cons_self)
      simp [Term.nodeText, Term.nodePhrase, Phrase.chars_withSuffix, Suffix.chars, ha, hb]
    | _ => cases hop

/-- The phrase of an operator expression with names for names is plain. -/
theorem plain_phrase (h : t.Operators Node.Named) : t.phrase.Plain := by
  induction h with
  | @mk node hop hname _ ih =>
    rw [Term.phrase]
    cases node with
    | localVar n => exact .ofHead (.name hname)
    | binary o a b =>
      exact .ofHead (.binary (ih a List.mem_cons_self)
        (ih b (List.mem_cons_of_mem _ List.mem_cons_self)))
    | unary _ a | deref a | borrow _ a => exact (ih a List.mem_cons_self).sign _
    | cast a ty =>
      cases ty with
      | primitive c => exact .ofHead (.cast (ih a List.mem_cons_self))
      | _ => cases hop
    | callMethod a m es =>
      obtain ⟨ha, hes⟩ := List.forall_mem_cons.mp ih
      exact ha.suffix (.method hname (Phrase.plain_phrases hes))
    | callValue a es =>
      obtain ⟨ha, hes⟩ := List.forall_mem_cons.mp ih
      exact .ofHead (.call ha (Phrase.plain_phrases hes))
    | field a n => exact (ih a List.mem_cons_self).suffix (.field hname)
    | index a b =>
      exact (ih a List.mem_cons_self).suffix
        (.index (ih b (List.mem_cons_of_mem _ List.mem_cons_self)))
    | _ => cases hop

end Term.Operators

/-- Operator expressions with names for names have the same text exactly when they are
written as the same phrase. -/
theorem Term.text_eq_iff {t u : Term} (ht : t.Operators Node.Named) (hu : u.Operators Node.Named) :
    t.text = u.text ↔ t.phrase = u.phrase := by
  rw [← String.toList_inj, ht.toList_text, hu.toList_text]
  constructor
  · intro h
    exact (Phrase.separable _ ht.plain_phrase _ [] [] hu.plain_phrase rfl rfl (by rw [h])).1
  · intro h
    rw [h]

end Lowering.Core
