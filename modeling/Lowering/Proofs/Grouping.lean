import Lowering.Proofs.OperatorText
import Lowering.Proofs.SurfaceText

/-!
# Grouping in the texts of operator expressions

A sign and a suffix of one operand are written alike whichever was applied first:
`(-x).f` and `-(x.f)` are both `-x.f`. So a phrase is that of two terms at least, one
for each order, if one of its operands has both a sign and a suffix.

What is proved:
  1. `Term.Operators.term_phrase`: a term in which no suffix is applied to a sign is given
     back by its phrase.
  2. `Phrase.writtenAs`: the terms for both orders are written as the phrase.
  3. `Term.Operators.text_determines_iff`: a text belongs to one term only exactly when no
     operand in it has both a sign and a suffix.
Main statement: `operator_text_eq_iff`.
-/

namespace Lowering.Core

/-! ## Terms of phrases -/

/-- Whether a term is a sign before an operand. -/
def Term.isSigned : Term → Bool
  | .mk (.unary _ _) | .mk (.deref _) | .mk (.borrow _ _) => true
  | _ => false

/-- The node applies no suffix to a sign. -/
def Node.Grouped {τ π ρ σ : Type} : Node τ π ρ Term σ → Prop
  | .field a _ | .index a _ | .callMethod a _ _ => a.isSigned = false
  | _ => True

/-- The term with a sign before it. -/
def Sign.apply : Sign → Term → Term
  | .unary o, t => .mk (.unary o t)
  | .deref, t => .mk (.deref t)
  | .borrow k, t => .mk (.borrow k t)

mutual

/-- A term that is written as a phrase. The signs and the suffixes of its operands are
applied in the one order or the other. -/
def Phrase.term (signsFirst : Bool) : Phrase → Term
  | .mk signs head suffixes =>
    bif signsFirst then
      Suffix.applyAll signsFirst (signs.foldr Sign.apply (head.term signsFirst)) suffixes
    else signs.foldr Sign.apply (Suffix.applyAll signsFirst (head.term signsFirst) suffixes)

/-- A term that is written as a head. -/
def Head.term (signsFirst : Bool) : Head → Term
  | .name n => .mk (.localVar n)
  | .binary o a b => .mk (.binary o (a.term signsFirst) (b.term signsFirst))
  | .cast a c => .mk (.cast (a.term signsFirst) (.primitive c))
  | .call f es => .mk (.callValue (f.term signsFirst) (Phrase.terms signsFirst es))

/-- The term with a suffix behind it. -/
def Suffix.apply (signsFirst : Bool) (t : Term) : Suffix → Term
  | .field n => .mk (.field t n)
  | .index e => .mk (.index t (e.term signsFirst))
  | .method m es => .mk (.callMethod t m (Phrase.terms signsFirst es))

/-- The term with suffixes behind it, the first one first. -/
def Suffix.applyAll (signsFirst : Bool) (t : Term) : List Suffix → Term
  | [] => t
  | x :: xs => Suffix.applyAll signsFirst (x.apply signsFirst t) xs

/-- The terms of phrases in order. -/
def Phrase.terms (signsFirst : Bool) : List Phrase → List Term
  | [] => []
  | e :: es => e.term signsFirst :: Phrase.terms signsFirst es

end

/-- The signs of a phrase. -/
def Phrase.signs : Phrase → List Sign
  | .mk signs _ _ => signs

theorem Phrase.signs_withSuffix (x : Suffix) (p : Phrase) : (p.suffix x).signs = p.signs := by
  cases p
  rfl

theorem Phrase.signs_withSign_ne_nil (x : Sign) (p : Phrase) : (p.sign x).signs ≠ [] := by
  cases p
  nofun

theorem Phrase.term_ofHead (head : Head) : (Phrase.ofHead head).term false = head.term false := rfl

theorem Phrase.term_withSign (x : Sign) (p : Phrase) :
    (p.sign x).term false = x.apply (p.term false) := by
  cases p
  rfl

theorem Suffix.applyAll_concat (xs : List Suffix) (x : Suffix) (t : Term) :
    Suffix.applyAll false t (xs ++ [x]) = x.apply false (Suffix.applyAll false t xs) := by
  induction xs generalizing t with
  | nil => rfl
  | cons y ys ih => exact ih (y.apply false t)

/-- A suffix is applied last if there is no sign. -/
theorem Phrase.term_withSuffix {x : Suffix} {p : Phrase} (h : p.signs = []) :
    (p.suffix x).term false = x.apply false (p.term false) := by
  obtain ⟨signs, head, suffixes⟩ := p
  obtain rfl : signs = [] := h
  exact Suffix.applyAll_concat suffixes x (head.term false)

theorem Phrase.terms_phrases {es : List Term} (h : ∀ e ∈ es, e.phrase.term false = e) :
    Phrase.terms false (Term.phrases es) = es := by
  induction es with
  | nil => rfl
  | cons e es ih =>
    obtain ⟨he, hes⟩ := List.forall_mem_cons.mp h
    rw [Term.phrases, Phrase.terms, he, ih hes]

namespace Term.Operators

variable {t : Term}

/-- No sign stands before an operator expression that is no sign before an operand, if
no suffix is applied to a sign. -/
theorem signs_phrase (h : t.Operators Node.Grouped) (hsigned : t.isSigned = false) :
    t.phrase.signs = [] := by
  induction h with
  | @mk node hop hgroup _ ih =>
    rw [Term.phrase]
    cases node with
    | localVar | binary | callValue => rfl
    | unary | deref | borrow => cases hsigned
    | cast a ty =>
      cases ty with
      | primitive c => rfl
      | _ => cases hop
    | callMethod a _ _ | field a _ | index a _ =>
      rw [Term.nodePhrase, Phrase.signs_withSuffix]
      exact ih a List.mem_cons_self hgroup
    | _ => cases hop

/-- An operator expression that applies no suffix to a sign is the term of its phrase. -/
theorem term_phrase (h : t.Operators Node.Grouped) : t.phrase.term false = t := by
  induction h with
  | @mk node hop hgroup hchildren ih =>
    rw [Term.phrase]
    cases node with
    | localVar n => rfl
    | binary o a b =>
      have ha := ih a List.mem_cons_self
      have hb := ih b (List.mem_cons_of_mem _ List.mem_cons_self)
      simp [Term.nodePhrase, Phrase.term_ofHead, Head.term, ha, hb]
    | unary _ a | deref a | borrow _ a =>
      have ha := ih a List.mem_cons_self
      simp [Term.nodePhrase, Phrase.term_withSign, Sign.apply, ha]
    | cast a ty =>
      have ha := ih a List.mem_cons_self
      cases ty with
      | primitive c => simp [Term.nodePhrase, Phrase.term_ofHead, Head.term, ha]
      | _ => cases hop
    | callValue a es =>
      obtain ⟨ha, hes⟩ := List.forall_mem_cons.mp ih
      simp [Term.nodePhrase, Phrase.term_ofHead, Head.term, ha, Phrase.terms_phrases hes]
    | callMethod a m es =>
      obtain ⟨ha, hes⟩ := List.forall_mem_cons.mp ih
      have hsigns := (hchildren a List.mem_cons_self).signs_phrase hgroup
      simp [Term.nodePhrase, Phrase.term_withSuffix hsigns, Suffix.apply, ha,
        Phrase.terms_phrases hes]
    | field a n =>
      have ha := ih a List.mem_cons_self
      have hsigns := (hchildren a List.mem_cons_self).signs_phrase hgroup
      simp [Term.nodePhrase, Phrase.term_withSuffix hsigns, Suffix.apply, ha]
    | index a b =>
      have ha := ih a List.mem_cons_self
      have hb := ih b (List.mem_cons_of_mem _ List.mem_cons_self)
      have hsigns := (hchildren a List.mem_cons_self).signs_phrase hgroup
      simp [Term.nodePhrase, Phrase.term_withSuffix hsigns, Suffix.apply, ha, hb]
    | _ => cases hop

end Term.Operators

/-- Terms that apply no suffix to a sign are equal if they have the same text. -/
theorem Term.eq_of_text {t u : Term} (ht : t.Operators Node.Named) (hu : u.Operators Node.Named)
    (hgroup : t.Operators Node.Grouped) (hgroup' : u.Operators Node.Grouped)
    (h : t.text = u.text) : t = u := by
  have hphrase := (Term.text_eq_iff ht hu).mp h
  rw [← hgroup.term_phrase, hphrase, hgroup'.term_phrase]

/-! ## Both orders -/

/-- A term that is an operator expression with names for names and is written as a
given phrase. -/
structure Term.WrittenAs (t : Term) (p : Phrase) : Prop where
  operators : t.Operators Node.Named
  phrase_eq : t.phrase = p

namespace Term.WrittenAs

variable {t : Term} {p : Phrase}

theorem sign (h : t.WrittenAs p) (x : Sign) : (x.apply t).WrittenAs (p.sign x) := by
  have hoperand : ∀ u ∈ [t], u.Operators Node.Named := List.forall_mem_singleton.mpr h.operators
  cases x with
  | unary o => exact ⟨.mk rfl trivial hoperand, congrArg (Phrase.sign _) h.phrase_eq⟩
  | deref => exact ⟨.mk rfl trivial hoperand, congrArg (Phrase.sign _) h.phrase_eq⟩
  | borrow k => exact ⟨.mk rfl trivial hoperand, congrArg (Phrase.sign _) h.phrase_eq⟩

theorem signs {signs : List Sign} {head : Head} {xs : List Suffix}
    (h : t.WrittenAs (.mk signs head xs)) (more : List Sign) :
    (more.foldr Sign.apply t).WrittenAs (.mk (more ++ signs) head xs) := by
  induction more with
  | nil => exact h
  | cons x more ih => exact ih.sign x

end Term.WrittenAs

mutual

/-- Both terms of a plain phrase are written as the phrase. -/
theorem Phrase.writtenAs (signsFirst : Bool) : ∀ p : Phrase, p.Plain →
    (p.term signsFirst).WrittenAs p
  | .mk signs head xs, .mk hhead hxs => by
    have hterm := Head.writtenAs signsFirst head hhead
    have hall := @Suffix.writtenAs_all signsFirst xs hxs
    cases signsFirst with
    | false =>
      have h := (hall hterm).signs signs
      rwa [List.append_nil] at h
    | true =>
      have h := hall (hterm.signs signs)
      rwa [List.append_nil] at h

theorem Head.writtenAs (signsFirst : Bool) : ∀ x : Head, x.Plain →
    (x.term signsFirst).WrittenAs (.ofHead x)
  | .name _, .name hn => ⟨.mk rfl hn (List.forall_mem_nil _), rfl⟩
  | .binary o a b, .binary ha hb => by
    have hleft := Phrase.writtenAs signsFirst a ha
    have hright := Phrase.writtenAs signsFirst b hb
    refine ⟨.mk rfl trivial (List.forall_mem_cons.mpr
      ⟨hleft.operators, List.forall_mem_singleton.mpr hright.operators⟩), ?_⟩
    simp [Head.term, Term.phrase, Term.nodePhrase, hleft.phrase_eq, hright.phrase_eq]
  | .cast a c, .cast ha => by
    have hinner := Phrase.writtenAs signsFirst a ha
    refine ⟨.mk rfl trivial (List.forall_mem_singleton.mpr hinner.operators), ?_⟩
    simp [Head.term, Term.phrase, Term.nodePhrase, hinner.phrase_eq]
  | .call f es, .call hf hes => by
    have hcallee := Phrase.writtenAs signsFirst f hf
    obtain ⟨hargs, hphrases⟩ := Phrase.writtenAs_all signsFirst es hes
    refine ⟨.mk rfl trivial (List.forall_mem_cons.mpr ⟨hcallee.operators, hargs⟩), ?_⟩
    simp [Head.term, Term.phrase, Term.nodePhrase, hcallee.phrase_eq, hphrases]

theorem Suffix.writtenAs (signsFirst : Bool) : ∀ x : Suffix, x.Plain → ∀ {t : Term} {p : Phrase},
    t.WrittenAs p → (x.apply signsFirst t).WrittenAs (p.suffix x)
  | .field _, .field hn, _, _, h => by
    refine ⟨.mk rfl hn (List.forall_mem_singleton.mpr h.operators), ?_⟩
    simp [Suffix.apply, Term.phrase, Term.nodePhrase, h.phrase_eq]
  | .index e, .index he, _, _, h => by
    have hindex := Phrase.writtenAs signsFirst e he
    refine ⟨.mk rfl trivial (List.forall_mem_cons.mpr
      ⟨h.operators, List.forall_mem_singleton.mpr hindex.operators⟩), ?_⟩
    simp [Suffix.apply, Term.phrase, Term.nodePhrase, h.phrase_eq, hindex.phrase_eq]
  | .method _ es, .method hm hes, _, _, h => by
    obtain ⟨hargs, hphrases⟩ := Phrase.writtenAs_all signsFirst es hes
    refine ⟨.mk rfl hm (List.forall_mem_cons.mpr ⟨h.operators, hargs⟩), ?_⟩
    simp [Suffix.apply, Term.phrase, Term.nodePhrase, h.phrase_eq, hphrases]

theorem Suffix.writtenAs_all (signsFirst : Bool) : ∀ xs : List Suffix, (∀ x ∈ xs, x.Plain) →
    ∀ {t : Term} {signs : List Sign} {head : Head} {ys : List Suffix},
      t.WrittenAs (.mk signs head ys) →
      (Suffix.applyAll signsFirst t xs).WrittenAs (.mk signs head (ys ++ xs))
  | [], _, _, _, _, _, h => by
    rw [List.append_nil]
    exact h
  | x :: xs, hxs, _, _, _, _, h => by
    obtain ⟨hx, hrest⟩ := List.forall_mem_cons.mp hxs
    have hall := Suffix.writtenAs_all signsFirst xs hrest (Suffix.writtenAs signsFirst x hx h)
    rwa [List.append_assoc] at hall

theorem Phrase.writtenAs_all (signsFirst : Bool) : ∀ es : List Phrase, (∀ e ∈ es, e.Plain) →
    (∀ t ∈ Phrase.terms signsFirst es, t.Operators Node.Named) ∧
      Term.phrases (Phrase.terms signsFirst es) = es
  | [], _ => ⟨List.forall_mem_nil _, rfl⟩
  | e :: es, h => by
    obtain ⟨he, hes⟩ := List.forall_mem_cons.mp h
    have hfirst := Phrase.writtenAs signsFirst e he
    obtain ⟨hrest, hphrases⟩ := Phrase.writtenAs_all signsFirst es hes
    refine ⟨List.forall_mem_cons.mpr ⟨hfirst.operators, hrest⟩, ?_⟩
    rw [Phrase.terms, Term.phrases, hfirst.phrase_eq, hphrases]

end

/-! ## Texts of one term only -/

mutual

/-- Whether no operand has both a sign before it and a suffix behind it. -/
def Phrase.oneSided : Phrase → Bool
  | .mk signs head suffixes =>
    (signs.isEmpty || suffixes.isEmpty) && (head.oneSided && Suffix.allOneSided suffixes)

/-- Whether no operand inside of a head has both a sign and a suffix. -/
def Head.oneSided : Head → Bool
  | .name _ => true
  | .binary _ a b => a.oneSided && b.oneSided
  | .cast a _ => a.oneSided
  | .call f es => f.oneSided && Phrase.allOneSided es

/-- Whether no operand inside of a suffix has both a sign and a suffix. -/
def Suffix.oneSided : Suffix → Bool
  | .field _ => true
  | .index e => e.oneSided
  | .method _ es => Phrase.allOneSided es

/-- Whether no operand inside of suffixes has both a sign and a suffix. -/
def Suffix.allOneSided : List Suffix → Bool
  | [] => true
  | x :: xs => x.oneSided && Suffix.allOneSided xs

/-- Whether no operand in phrases has both a sign and a suffix. -/
def Phrase.allOneSided : List Phrase → Bool
  | [] => true
  | e :: es => e.oneSided && Phrase.allOneSided es

end

theorem Sign.apply_inj {x : Sign} {t u : Term} (h : x.apply t = x.apply u) : t = u := by
  cases x <;> cases h <;> rfl

theorem Sign.isSigned_apply (x : Sign) (t : Term) : (x.apply t).isSigned = true := by
  cases x <;> rfl

theorem Suffix.isSigned_apply (signsFirst : Bool) (x : Suffix) (t : Term) :
    (x.apply signsFirst t).isSigned = false := by
  cases x <;> rfl

theorem Suffix.isSigned_applyAll (signsFirst : Bool) (xs : List Suffix) {t : Term}
    (h : t.isSigned = false) : (Suffix.applyAll signsFirst t xs).isSigned = false := by
  induction xs generalizing t with
  | nil => exact h
  | cons x xs ih => exact ih (x.isSigned_apply signsFirst t)

theorem Sign.foldr_apply_inj {signs : List Sign} {t u : Term}
    (h : signs.foldr Sign.apply t = signs.foldr Sign.apply u) : t = u := by
  induction signs with
  | nil => exact h
  | cons x signs ih => exact ih (Sign.apply_inj h)

mutual

/-- If the order of signs and suffixes makes no difference to a term, then no operand
has both. -/
theorem Phrase.oneSided_of_term_eq : ∀ p : Phrase, p.term true = p.term false → p.oneSided = true
  | .mk [] head xs, h => by
    obtain ⟨hhead, hxs⟩ := Suffix.allOneSided_of_applyAll_eq xs _ _ h
    simp [Phrase.oneSided, Head.oneSided_of_term_eq head hhead, hxs]
  | .mk (x :: signs) head [], h => by
    have hhead : head.term true = head.term false := Sign.foldr_apply_inj h
    simp [Phrase.oneSided, Suffix.allOneSided, Head.oneSided_of_term_eq head hhead]
  | .mk (x :: signs) head (y :: ys), h => by
    -- the one term has a suffix at its root, the other one a sign
    have hroot := congrArg Term.isSigned h
    have hsuffix := Suffix.isSigned_applyAll true ys (y.isSigned_apply true
      ((x :: signs).foldr Sign.apply (head.term true)))
    exact absurd (hsuffix.symm.trans (hroot.trans (x.isSigned_apply _))) (by decide)

theorem Head.oneSided_of_term_eq : ∀ x : Head, x.term true = x.term false → x.oneSided = true
  | .name _, _ => rfl
  | .binary _ a b, h => by
    injection h with hnode
    injection hnode with _ ha hb
    simp [Head.oneSided, Phrase.oneSided_of_term_eq a ha, Phrase.oneSided_of_term_eq b hb]
  | .cast a _, h => by
    injection h with hnode
    injection hnode with ha
    exact Phrase.oneSided_of_term_eq a ha
  | .call f es, h => by
    injection h with hnode
    injection hnode with hf hes
    simp [Head.oneSided, Phrase.oneSided_of_term_eq f hf, Phrase.allOneSided_of_terms_eq es hes]

theorem Suffix.oneSided_of_apply_eq : ∀ (x : Suffix) (t u : Term),
    x.apply true t = x.apply false u → t = u ∧ x.oneSided = true
  | .field _, _, _, h => by
    injection h with hnode
    injection hnode with ht
    exact ⟨ht, rfl⟩
  | .index e, _, _, h => by
    injection h with hnode
    injection hnode with ht he
    exact ⟨ht, Phrase.oneSided_of_term_eq e he⟩
  | .method _ es, _, _, h => by
    injection h with hnode
    injection hnode with ht _ hes
    exact ⟨ht, Phrase.allOneSided_of_terms_eq es hes⟩

theorem Suffix.allOneSided_of_applyAll_eq : ∀ (xs : List Suffix) (t u : Term),
    Suffix.applyAll true t xs = Suffix.applyAll false u xs →
      t = u ∧ Suffix.allOneSided xs = true
  | [], _, _, h => ⟨h, rfl⟩
  | x :: xs, _, _, h => by
    obtain ⟨hfirst, hxs⟩ := Suffix.allOneSided_of_applyAll_eq xs _ _ h
    obtain ⟨ht, hx⟩ := Suffix.oneSided_of_apply_eq x _ _ hfirst
    exact ⟨ht, by simp [Suffix.allOneSided, hx, hxs]⟩

theorem Phrase.allOneSided_of_terms_eq : ∀ es : List Phrase,
    Phrase.terms true es = Phrase.terms false es → Phrase.allOneSided es = true
  | [], _ => rfl
  | e :: es, h => by
    obtain ⟨he, hes⟩ := List.cons.inj h
    simp [Phrase.allOneSided, Phrase.oneSided_of_term_eq e he,
      Phrase.allOneSided_of_terms_eq es hes]

end

theorem Phrase.oneSided_ofHead (head : Head) : (Phrase.ofHead head).oneSided = head.oneSided := by
  simp [Phrase.ofHead, Phrase.oneSided, Suffix.allOneSided]

theorem Phrase.oneSided_of_sign {x : Sign} {p : Phrase} (h : (p.sign x).oneSided = true) :
    p.oneSided = true := by
  obtain ⟨signs, head, xs⟩ := p
  simp only [Phrase.sign, Phrase.oneSided, List.isEmpty_cons, Bool.false_or, Bool.and_eq_true,
    Bool.or_eq_true] at h ⊢
  exact ⟨.inr h.1, h.2⟩

theorem Suffix.allOneSided_concat (xs : List Suffix) (x : Suffix) :
    Suffix.allOneSided (xs ++ [x]) = (Suffix.allOneSided xs && x.oneSided) := by
  induction xs with
  | nil => simp [Suffix.allOneSided]
  | cons y ys ih =>
    rw [List.cons_append, Suffix.allOneSided, Suffix.allOneSided, ih, Bool.and_assoc]

/-- An operand with a suffix has no sign if it has one of the two only. -/
theorem Phrase.oneSided_of_suffix {x : Suffix} {p : Phrase} (h : (p.suffix x).oneSided = true) :
    p.signs = [] ∧ p.oneSided = true ∧ x.oneSided = true := by
  obtain ⟨signs, head, xs⟩ := p
  have hparts : signs = [] ∧ head.oneSided = true ∧ Suffix.allOneSided xs = true ∧
      x.oneSided = true := by
    simpa [Phrase.suffix, Phrase.oneSided, Suffix.allOneSided_concat] using h
  obtain ⟨rfl, hhead, hxs, hx⟩ := hparts
  exact ⟨rfl, by simp [Phrase.oneSided, hhead, hxs], hx⟩

theorem Term.allOneSided_phrases {es : List Term}
    (h : Phrase.allOneSided (Term.phrases es) = true) : ∀ e ∈ es, e.phrase.oneSided = true := by
  induction es with
  | nil => exact List.forall_mem_nil _
  | cons e es ih =>
    obtain ⟨he, hes⟩ := Bool.and_eq_true_iff.mp h
    exact List.forall_mem_cons.mpr ⟨he, ih hes⟩

theorem Term.not_isSigned {t : Term} (h : t.phrase.signs = []) : t.isSigned = false := by
  refine Bool.eq_false_iff.mpr fun hsigned => ?_
  unfold Term.isSigned at hsigned
  split at hsigned
  · exact absurd h (Phrase.signs_withSign_ne_nil _ _)
  · exact absurd h (Phrase.signs_withSign_ne_nil _ _)
  · exact absurd h (Phrase.signs_withSign_ne_nil _ _)
  · cases hsigned

/-- If no operand of a node has both a sign and a suffix, then no suffix is applied to a
sign, and the same holds below. -/
theorem Node.grouped_of_oneSided {node : Node Ty Path Pattern Term TermStmt}
    (hop : node.isOperator = true) (h : (Term.nodePhrase node).oneSided = true) :
    node.Grouped ∧ ∀ t ∈ node.children, t.phrase.oneSided = true := by
  cases node with
  | localVar n => exact ⟨trivial, List.forall_mem_nil _⟩
  | binary o a b =>
    rw [Term.nodePhrase, Phrase.oneSided_ofHead] at h
    obtain ⟨ha, hb⟩ := Bool.and_eq_true_iff.mp h
    exact ⟨trivial, List.forall_mem_cons.mpr ⟨ha, List.forall_mem_singleton.mpr hb⟩⟩
  | unary _ a | deref a | borrow _ a =>
    exact ⟨trivial, List.forall_mem_singleton.mpr (Phrase.oneSided_of_sign h)⟩
  | cast a ty =>
    cases ty with
    | primitive c =>
      rw [Term.nodePhrase, Phrase.oneSided_ofHead] at h
      exact ⟨trivial, List.forall_mem_singleton.mpr h⟩
    | _ => cases hop
  | callValue a es =>
    rw [Term.nodePhrase, Phrase.oneSided_ofHead] at h
    obtain ⟨ha, hes⟩ := Bool.and_eq_true_iff.mp h
    exact ⟨trivial, List.forall_mem_cons.mpr ⟨ha, Term.allOneSided_phrases hes⟩⟩
  | field a n =>
    obtain ⟨hsigns, ha, -⟩ := Phrase.oneSided_of_suffix h
    exact ⟨Term.not_isSigned hsigns, List.forall_mem_singleton.mpr ha⟩
  | index a b =>
    obtain ⟨hsigns, ha, hb⟩ := Phrase.oneSided_of_suffix h
    exact ⟨Term.not_isSigned hsigns,
      List.forall_mem_cons.mpr ⟨ha, List.forall_mem_singleton.mpr hb⟩⟩
  | callMethod a m es =>
    obtain ⟨hsigns, ha, hes⟩ := Phrase.oneSided_of_suffix h
    exact ⟨Term.not_isSigned hsigns, List.forall_mem_cons.mpr ⟨ha, Term.allOneSided_phrases hes⟩⟩
  | _ => cases hop

namespace Term.Operators

variable {ok : Node Ty Path Pattern Term TermStmt → Prop} {t : Term}

theorem grouped (h : t.Operators ok) (hside : t.phrase.oneSided = true) :
    t.Operators Node.Grouped := by
  induction h with
  | mk hop _ _ ih =>
    obtain ⟨hgroup, hbelow⟩ := Node.grouped_of_oneSided hop hside
    exact .mk hop hgroup fun u hu => ih u hu (hbelow u hu)

/-- The text of an operator expression is that of no other one exactly when no operand
in it has both a sign and a suffix. -/
theorem text_determines_iff (h : t.Operators Node.Named) :
    (∀ u : Term, u.Operators Node.Named → t.text = u.text → t = u) ↔
      t.phrase.oneSided = true := by
  constructor
  · intro hunique
    have hterm (signsFirst : Bool) : t = t.phrase.term signsFirst := by
      have hwritten := Phrase.writtenAs signsFirst t.phrase h.plain_phrase
      exact hunique _ hwritten.operators
        ((Term.text_eq_iff h hwritten.operators).mpr hwritten.phrase_eq.symm)
    exact Phrase.oneSided_of_term_eq _ ((hterm true).symm.trans (hterm false))
  · intro hside u hu htext
    have hside' : u.phrase.oneSided = true := by
      rw [← (Term.text_eq_iff h hu).mp htext]
      exact hside
    exact Term.eq_of_text h hu (h.grouped hside) (hu.grouped hside') htext

/-! ## Lowered operator expressions -/

theorem lowerAll_raise {es : List Term}
    (h : ∀ e ∈ es, (e.read raising).lower = .ok e) :
    Surface.Expr.lowerAll (Term.readAll raising es) = .ok es := by
  induction es with
  | nil => rfl
  | cons e es ih =>
    obtain ⟨he, hes⟩ := List.forall_mem_cons.mp h
    rw [Term.readAll, Surface.Expr.lowerAll, he, ih hes]
    rfl

/-- Every operator expression is lowered from a surface expression. -/
theorem lower_raise (h : t.Operators ok) : (t.read raising).lower = .ok t := by
  induction h with
  | @mk node hop _ _ ih =>
    rw [Term.read]
    cases node with
    | localVar n => rfl
    | unary _ a | deref a | borrow _ a | field a _ =>
      have ha := ih a List.mem_cons_self
      show ((a.read raising).lower >>= _) = _
      rw [ha]
      rfl
    | cast a ty =>
      have ha := ih a List.mem_cons_self
      cases ty with
      | primitive c =>
        show ((a.read raising).lower >>= _) = _
        rw [ha]
        rfl
      | _ => cases hop
    | binary _ a b | index a b =>
      have ha := ih a List.mem_cons_self
      have hb := ih b (List.mem_cons_of_mem _ List.mem_cons_self)
      show ((a.read raising).lower >>= fun _ => (b.read raising).lower >>= _) = _
      rw [ha, hb]
      rfl
    | callMethod a _ es | callValue a es =>
      obtain ⟨ha, hes⟩ := List.forall_mem_cons.mp ih
      show ((a.read raising).lower >>= fun _ =>
        Surface.Expr.lowerAll (Term.readAll raising es) >>= _) = _
      rw [ha, lowerAll_raise hes]
      rfl
    | _ => cases hop

theorem lowerBody_raise (h : t.Operators ok) : (t.read raising).lowerBody = .ok t.body := by
  rw [Surface.Expr.lowerBody, h.lower_raise]
  rfl

theorem body (h : t.Operators ok) : t.body.term.Operators ok := by
  rw [t.term_body]
  exact h

end Term.Operators

/-- What the text of a lowered operator expression says about its tree.

1. Another one has the same text exactly when it is written as the same phrase.
2. If no suffix is applied to a sign in either of them, then the same text is that of the
   same tree.
3. The text tells the tree from all others exactly when no operand in it has both a sign
   and a suffix. -/
theorem operator_text_eq_iff (e : Surface.Expr) (b : Body) (h : e.lowerBody = .ok b)
    (ht : b.term.Operators Node.Named) :
    (∀ (e' : Surface.Expr) (b' : Body), e'.lowerBody = .ok b' → b'.term.Operators Node.Named →
      (b.text = b'.text ↔ b.term.phrase = b'.term.phrase) ∧
      (b.term.Operators Node.Grouped → b'.term.Operators Node.Grouped → b.text = b'.text →
        b.term = b'.term)) ∧
    ((∀ (e' : Surface.Expr) (b' : Body), e'.lowerBody = .ok b' → b'.term.Operators Node.Named →
      b.text = b'.text → b.term = b'.term) ↔ b.term.phrase.oneSided = true) := by
  have htext {e : Surface.Expr} {b : Body} (h : e.lowerBody = .ok b) : b.text = b.term.text :=
    Body.Descending.text_eq (Surface.Expr.lowerBody_descending h _ (.self _))
  refine ⟨fun e' b' h' ht' => ?_, ?_⟩
  · rw [htext h, htext h']
    exact ⟨Term.text_eq_iff ht ht', Term.eq_of_text ht ht'⟩
  · rw [← ht.text_determines_iff]
    refine ⟨fun hunique u hu hsame => ?_, fun hunique e' b' h' ht' hsame => ?_⟩
    · have hbody := hunique _ u.body hu.lowerBody_raise hu.body
      rw [htext h, u.text_body, u.term_body] at hbody
      exact hbody hsame
    · rw [htext h, htext h'] at hsame
      exact hunique b'.term ht' hsame

section

open Surface (Expr)

/-- The expression `x`. -/
def exprX : Expr := .path .dummy (.localName .dummy "x")

/-- The term `x`. -/
def termX : Term := .mk (.localVar "x")

/-- The term `(-x).f`. -/
def fieldOfNeg : Term := .mk (.field (.mk (.unary .neg termX)) "f")

/-- The term `-(x.f)`. -/
def negOfField : Term := .mk (.unary .neg (.mk (.field termX "f")))

theorem termX_operators : termX.Operators Node.Named :=
  .mk rfl (.of_all rfl rfl) (List.forall_mem_nil _)

theorem fieldOfNeg_operators : fieldOfNeg.Operators Node.Named := by
  have hneg : (Term.mk (.unary .neg termX)).Operators Node.Named :=
    .mk rfl trivial (List.forall_mem_singleton.mpr termX_operators)
  exact .mk rfl (.of_all rfl rfl) (List.forall_mem_singleton.mpr hneg)

theorem negOfField_operators : negOfField.Operators Node.Named := by
  have hfield : (Term.mk (.field termX "f")).Operators Node.Named :=
    .mk rfl (.of_all rfl rfl) (List.forall_mem_singleton.mpr termX_operators)
  exact .mk rfl trivial (List.forall_mem_singleton.mpr hfield)

/-- Taking a field of a negated name and negating the field are different expressions,
which are lowered to bodies with different trees and the same text. -/
theorem suffix_after_sign_confused :
    (Expr.field .dummy (.unary .dummy (.value .neg) exprX) "f").lowerBody = .ok fieldOfNeg.body ∧
    (Expr.unary .dummy (.value .neg) (.field .dummy exprX "f")).lowerBody = .ok negOfField.body ∧
    fieldOfNeg.Operators Node.Named ∧ negOfField.Operators Node.Named ∧
    fieldOfNeg.body.text = negOfField.body.text ∧
    fieldOfNeg.body.term ≠ negOfField.body.term := by
  refine ⟨rfl, rfl, fieldOfNeg_operators, negOfField_operators, ?_, ?_⟩
  · rw [Term.text_body, Term.text_body]
    rfl
  · rw [Term.term_body, Term.term_body]
    nofun

end

/-- The term that casts a reference to a name to `u8`. -/
def castBorrow (kind : BorrowKind) (name : String) : Term :=
  .mk (.cast (.mk (.borrow kind (.mk (.localVar name)))) (.primitive .u8))

theorem castBorrow_operators (kind : BorrowKind) {name : String} (h : IsName name) :
    (castBorrow kind name).Operators Node.Named := by
  have hname : (Term.mk (.localVar name)).Operators Node.Named :=
    .mk rfl h (List.forall_mem_nil _)
  have hborrow : (Term.mk (.borrow kind (.mk (.localVar name)))).Operators Node.Named :=
    .mk rfl trivial (List.forall_mem_singleton.mpr hname)
  exact .mk rfl trivial (List.forall_mem_singleton.mpr hborrow)

/-- The reference to `mut` in `(&mut as u8)` is told from the unique reference to `as` in
`(&mut as as u8)`, and from everything else. The field of a negated name has the phrase
of the negated field. -/
theorem castBorrow_told_apart :
    (castBorrow .shared "mut").body.text ≠ (castBorrow .unique "as").body.text ∧
    fieldOfNeg.body.term.phrase = negOfField.body.term.phrase := by
  have hmut : (castBorrow .shared "mut").Operators Node.Named :=
    castBorrow_operators .shared (.of_all rfl rfl)
  have has : (castBorrow .unique "as").Operators Node.Named :=
    castBorrow_operators .unique (.of_all rfl rfl)
  have hcast := operator_text_eq_iff _ _ hmut.lowerBody_raise hmut.body
  have hfield := operator_text_eq_iff _ _ fieldOfNeg_operators.lowerBody_raise
    fieldOfNeg_operators.body
  constructor
  · intro h
    have hside : (castBorrow .shared "mut").body.term.phrase.oneSided = true := by
      rw [Term.term_body]
      rfl
    have hterm := hcast.2.mpr hside _ _ has.lowerBody_raise has.body h
    rw [Term.term_body, Term.term_body] at hterm
    exact nomatch hterm
  · refine (hfield.1 _ _ negOfField_operators.lowerBody_raise negOfField_operators.body).1.mp ?_
    rw [Term.text_body, Term.text_body]
    rfl

end Lowering.Core
