import Lowering.Proofs.TypeText

/-!
# Phrases

How the text of an operator expression is put together: signs in front, then a head,
which is a name or something in parentheses, then suffixes. Parentheses stand around
binary operations, casts and called values only, so a phrase does not say which of
its signs and suffixes were applied first.

What is proved:
  1. `Phrase.Plain.not_after_blank`: what may follow a phrase after a blank is never the
     start of a phrase, not even with names such as `mut` and `as`.
  2. `Phrase.separable`: a phrase is determined by its text, and its text shows where
     it ends. The induction is on the phrase, its head and its suffixes together.
-/

namespace Lowering.Core

open Text (Separable endsRun sepChars)

/-- What stands before an operand. -/
inductive Sign where
  | unary (op : UnaryOp)
  | deref
  | borrow (kind : BorrowKind)
  deriving DecidableEq

mutual

/-- An operator expression as it is written. -/
inductive Phrase where
  | mk (signs : List Sign) (head : Head) (suffixes : List Suffix)

/-- What the signs and suffixes of a phrase belong to. -/
inductive Head where
  | name (name : String)
  | binary (op : BinaryOp) (left right : Phrase)
  | cast (inner : Phrase) (core : Scalar)
  | call (callee : Phrase) (args : List Phrase)

/-- What stands after an operand. -/
inductive Suffix where
  | field (name : String)
  | index (index : Phrase)
  | method (name : String) (args : List Phrase)

end

/-! ## Texts -/

/-- The text of a sign. -/
def Sign.chars : Sign → List Char
  | .unary o => o.sign.toList
  | .deref => ['*']
  | .borrow k => k.sign.toList

mutual

/-- The text of a phrase. -/
def Phrase.chars : Phrase → List Char
  | .mk signs head suffixes => signs.flatMap Sign.chars ++ (head.chars ++ Suffix.allChars suffixes)

/-- The text of a head. -/
def Head.chars : Head → List Char
  | .name n => n.toList
  | .binary o a b => '(' :: (a.chars ++ ' ' :: (o.sign.toList ++ ' ' :: (b.chars ++ [')'])))
  | .cast a c => '(' :: (a.chars ++ " as ".toList ++ (c.keyword.toList ++ [')']))
  | .call f es => '(' :: (f.chars ++ ')' :: '(' :: (Phrase.argChars es ++ [')']))

/-- The text of a suffix. -/
def Suffix.chars : Suffix → List Char
  | .field n => '.' :: n.toList
  | .index e => '[' :: (e.chars ++ [']'])
  | .method m es => '.' :: (m.toList ++ '(' :: (Phrase.argChars es ++ [')']))

/-- The texts of suffixes one after the other. -/
def Suffix.allChars : List Suffix → List Char
  | [] => []
  | x :: xs => x.chars ++ Suffix.allChars xs

/-- The texts of arguments with commas between them. -/
def Phrase.argChars : List Phrase → List Char
  | [] => []
  | e :: es => e.chars ++ Phrase.laterChars es

/-- The texts of the arguments after the first one. -/
def Phrase.laterChars : List Phrase → List Char
  | [] => []
  | e :: es => ", ".toList ++ (e.chars ++ Phrase.laterChars es)

end

theorem Phrase.argChars_eq (es : List Phrase) :
    Phrase.argChars es = sepChars ", ".toList Phrase.chars es := by
  have hlater (es : List Phrase) :
      Phrase.laterChars es = Text.leadChars ", ".toList Phrase.chars es := by
    induction es with
    | nil => rfl
    | cons e es ih => rw [Phrase.laterChars, Text.leadChars_cons, ih]
  cases es with
  | nil => rfl
  | cons e es => rw [Phrase.argChars, sepChars, hlater]

theorem Phrase.chars_sign (x : Sign) (signs : List Sign) (head : Head) (suffixes : List Suffix) :
    (Phrase.mk (x :: signs) head suffixes).chars =
      x.chars ++ (Phrase.mk signs head suffixes).chars := by
  simp [Phrase.chars]

theorem Phrase.chars_noSign (head : Head) (suffixes : List Suffix) (r : List Char) :
    (Phrase.mk [] head suffixes).chars ++ r = head.chars ++ (Suffix.allChars suffixes ++ r) := by
  simp [Phrase.chars]

mutual

/-- The names in a phrase are names. -/
inductive Phrase.Plain : Phrase → Prop
  | mk {signs : List Sign} {head : Head} {suffixes : List Suffix} : Head.Plain head →
      (∀ x ∈ suffixes, Suffix.Plain x) → Phrase.Plain (.mk signs head suffixes)

/-- The names in a head are names. -/
inductive Head.Plain : Head → Prop
  | name {n : String} : IsName n → Head.Plain (.name n)
  | binary {o : BinaryOp} {a b : Phrase} : Phrase.Plain a → Phrase.Plain b →
      Head.Plain (.binary o a b)
  | cast {a : Phrase} {c : Scalar} : Phrase.Plain a → Head.Plain (.cast a c)
  | call {f : Phrase} {es : List Phrase} : Phrase.Plain f → (∀ e ∈ es, Phrase.Plain e) →
      Head.Plain (.call f es)

/-- The names in a suffix are names. -/
inductive Suffix.Plain : Suffix → Prop
  | field {n : String} : IsName n → Suffix.Plain (.field n)
  | index {e : Phrase} : Phrase.Plain e → Suffix.Plain (.index e)
  | method {m : String} {es : List Phrase} : IsName m → (∀ e ∈ es, Phrase.Plain e) →
      Suffix.Plain (.method m es)

end

/-! ## What may follow -/

/-- What may follow a phrase: an operator with blanks around it, the rest of a cast, a
comma or a closing bracket. -/
def phraseEnd : List Char → Bool
  | [] => true
  | ' ' :: rest =>
    (BinaryOp.all.any fun o => (o.sign.toList ++ [' ']).isPrefixOf rest) ||
      Scalar.all.any fun c => ("as ".toList ++ (c.keyword.toList ++ [')'])).isPrefixOf rest
  | c :: _ => [',', ')', ']'].contains c

/-- What may follow a head or a suffix: a suffix too. -/
def suffixEnd : List Char → Bool
  | '.' :: _ | '[' :: _ => true
  | rest => phraseEnd rest

/-- The end of arguments. -/
def argsEnd : List Char → Bool
  | ')' :: _ => true
  | _ => false

theorem phraseEnd_operator (o : BinaryOp) (rest : List Char) :
    phraseEnd (' ' :: (o.sign.toList ++ ' ' :: rest)) = true := by
  cases o <;> rfl

theorem phraseEnd_cast (c : Scalar) (rest : List Char) :
    phraseEnd (" as ".toList ++ (c.keyword.toList ++ ')' :: rest)) = true := by
  cases c <;> rfl

/-- The type of a cast is no operator, and no second cast. -/
theorem phraseEnd_keyword (c : Scalar) (rest : List Char) :
    phraseEnd (' ' :: (c.keyword.toList ++ ')' :: rest)) = false := by
  cases c <;> rfl

theorem phraseEnd_cons {c : Char} {r : List Char} (h : phraseEnd (c :: r) = true) :
    c = ' ' ∨ c = ',' ∨ c = ')' ∨ c = ']' := by
  by_cases hc : c = ' '
  · exact .inl hc
  · right
    simpa [phraseEnd, hc] using h

theorem suffixEnd_of_phraseEnd {r : List Char} (h : phraseEnd r = true) : suffixEnd r = true := by
  unfold suffixEnd
  split
  · rfl
  · rfl
  · exact h

theorem endsRun_of_suffixEnd {r : List Char} (h : suffixEnd r = true) :
    endsRun isNameChar r = true := by
  unfold suffixEnd at h
  split at h
  · rfl
  · rfl
  · cases r with
    | nil => rfl
    | cons c r => rcases phraseEnd_cons h with rfl | rfl | rfl | rfl <;> rfl

/-- A suffix starts with a dot or a bracket. -/
theorem Suffix.chars_cons (x : Suffix) : ∃ c cs, x.chars = c :: cs ∧ (c = '.' ∨ c = '[') := by
  cases x with
  | field n => exact ⟨_, _, rfl, .inl rfl⟩
  | index e => exact ⟨_, _, rfl, .inr rfl⟩
  | method m es => exact ⟨_, _, rfl, .inl rfl⟩

theorem Suffix.suffixEnd_chars (x : Suffix) (r : List Char) : suffixEnd (x.chars ++ r) = true := by
  obtain ⟨c, cs, hx, rfl | rfl⟩ := x.chars_cons <;> rw [hx] <;> rfl

theorem Suffix.not_phraseEnd (x : Suffix) (r : List Char) : phraseEnd (x.chars ++ r) = false := by
  obtain ⟨c, cs, hx, rfl | rfl⟩ := x.chars_cons <;> rw [hx] <;> rfl

theorem Suffix.suffixEnd_allChars (xs : List Suffix) {r : List Char} (hr : phraseEnd r = true) :
    suffixEnd (Suffix.allChars xs ++ r) = true := by
  cases xs with
  | nil => exact suffixEnd_of_phraseEnd hr
  | cons x xs =>
    rw [Suffix.allChars, List.append_assoc]
    exact x.suffixEnd_chars _

/-! ## The start of a phrase -/

/-- The characters that signs start with. -/
def isSignChar (c : Char) : Bool := ['-', '!', '*', '&'].contains c

/-- The characters that heads start with. -/
def opensHead (c : Char) : Bool := isNameChar c || c == '('

theorem not_sign_of_opensHead {c : Char} (h : opensHead c = true) : isSignChar c = false := by
  refine Bool.eq_false_iff.mpr fun hsign => ?_
  have hc : c = '-' ∨ c = '!' ∨ c = '*' ∨ c = '&' := by simpa [isSignChar] using hsign
  rcases hc with rfl | rfl | rfl | rfl <;> cases h

theorem Sign.chars_cons (x : Sign) : ∃ c cs, x.chars = c :: cs ∧ isSignChar c = true := by
  cases x with
  | unary o => cases o <;> exact ⟨_, _, rfl, rfl⟩
  | deref => exact ⟨_, _, rfl, rfl⟩
  | borrow k => cases k <;> exact ⟨_, _, rfl, rfl⟩

theorem IsName.toList_cons {n : String} (h : IsName n) :
    ∃ c cs, n.toList = c :: cs ∧ isNameChar c = true := by
  obtain ⟨c, cs, hcs⟩ := List.exists_cons_of_ne_nil h.nonempty
  exact ⟨c, cs, hcs, h.chars c (hcs ▸ List.mem_cons_self)⟩

theorem Head.Plain.chars_cons {x : Head} (h : x.Plain) :
    ∃ c cs, x.chars = c :: cs ∧ opensHead c = true := by
  cases h with
  | name hn =>
    obtain ⟨c, cs, hcs, hc⟩ := hn.toList_cons
    exact ⟨c, cs, hcs, by simp [opensHead, hc]⟩
  | binary _ _ => exact ⟨_, _, rfl, rfl⟩
  | cast _ => exact ⟨_, _, rfl, rfl⟩
  | call _ _ => exact ⟨_, _, rfl, rfl⟩

/-- After all characters of signs, a phrase goes on with its head, or with the `mut` of
a sign. -/
theorem Phrase.Plain.after_signs {p : Phrase} (h : p.Plain) (rest : List Char) :
    ∃ c, ((p.chars ++ rest).dropWhile isSignChar).head? = some c ∧ opensHead c = true := by
  obtain ⟨signs, head, suffixes⟩ := p
  cases h with
  | mk hhead _ =>
    induction signs with
    | nil =>
      obtain ⟨c, cs, hcs, hc⟩ := hhead.chars_cons
      refine ⟨c, ?_, hc⟩
      simp [Phrase.chars, hcs, not_sign_of_opensHead hc]
    | cons x signs ih =>
      cases x with
      | unary o => cases o <;> exact ih
      | deref => exact ih
      | borrow k =>
        cases k with
        | shared => exact ih
        | unique => exact ⟨'m', rfl, rfl⟩

/-- A sign and a head start with different characters. -/
theorem Sign.chars_ne_head (x : Sign) {y : Head} (hy : y.Plain) (r rest : List Char) :
    x.chars ++ r ≠ y.chars ++ rest := by
  intro h
  obtain ⟨c, cs, hcs, hc⟩ := x.chars_cons
  obtain ⟨d, ds, hds, hd⟩ := hy.chars_cons
  rw [hcs, hds] at h
  obtain rfl : c = d := (List.cons.inj h).1
  rw [not_sign_of_opensHead hd] at hc
  cases hc

/-- A name and a head in parentheses start with different characters. -/
theorem IsName.ne_paren {n : String} (h : IsName n) (r rest : List Char) :
    n.toList ++ r ≠ '(' :: rest := by
  intro heq
  obtain ⟨c, cs, hcs, hc⟩ := h.toList_cons
  rw [hcs] at heq
  obtain rfl : c = '(' := (List.cons.inj heq).1
  cases hc

/-- A phrase that starts with a word before a blank is that name, and ends there. -/
theorem Phrase.Plain.word {p : Phrase} (h : p.Plain) {w : String} (hw : IsName w)
    {r rest : List Char} (hr : phraseEnd r = true) (heq : p.chars ++ r = w.toList ++ ' ' :: rest) :
    r = ' ' :: rest := by
  obtain ⟨signs, head, suffixes⟩ := p
  have hname : (Head.name w).Plain := .name hw
  cases h with
  | mk hhead _ =>
    cases signs with
    | cons x signs =>
      rw [Phrase.chars_sign, List.append_assoc] at heq
      exact absurd heq (x.chars_ne_head hname _ _)
    | nil =>
      rw [Phrase.chars_noSign] at heq
      cases hhead with
      | name hn =>
        have hend := endsRun_of_suffixEnd (Suffix.suffixEnd_allChars suffixes hr)
        obtain ⟨rfl, htail⟩ := hn.separable w _ _ hw hend rfl heq
        cases suffixes with
        | nil => exact htail
        | cons x xs =>
          obtain ⟨c, cs, hcs, hc⟩ := x.chars_cons
          rw [Suffix.allChars, hcs] at htail
          obtain rfl : c = ' ' := (List.cons.inj htail).1
          rcases hc with hc | hc <;> cases hc
      | binary _ _ => exact absurd heq.symm (hw.ne_paren _ _)
      | cast _ => exact absurd heq.symm (hw.ne_paren _ _)
      | call _ _ => exact absurd heq.symm (hw.ne_paren _ _)

/-- After the characters of signs, a binary operator goes on with a blank or with a
character of its own. -/
theorem operator_after_signs (o : BinaryOp) (rest : List Char) :
    ∃ c, ((o.sign.toList ++ ' ' :: rest).dropWhile isSignChar).head? = some c ∧
      opensHead c = false := by
  cases o <;> exact ⟨_, rfl, rfl⟩

/-- What may follow a phrase after a blank is not the start of a phrase. -/
theorem Phrase.Plain.not_after_blank {p : Phrase} (h : p.Plain) {r : List Char}
    (hr : phraseEnd r = true) : phraseEnd (' ' :: (p.chars ++ r)) = false := by
  refine Bool.eq_false_iff.mpr fun hend => ?_
  rcases Bool.or_eq_true_iff.mp hend with hop | hcast
  · obtain ⟨o, -, ho⟩ := List.any_eq_true.mp hop
    obtain ⟨rest, hrest⟩ := List.isPrefixOf_iff_prefix.mp ho
    obtain ⟨c, hc, hopens⟩ := h.after_signs r
    obtain ⟨d, hd, hnot⟩ := operator_after_signs o rest
    rw [← hrest, List.append_assoc, List.singleton_append, hd] at hc
    obtain rfl : d = c := Option.some.inj hc
    rw [hnot] at hopens
    cases hopens
  · obtain ⟨c, -, hc⟩ := List.any_eq_true.mp hcast
    obtain ⟨rest, hrest⟩ := List.isPrefixOf_iff_prefix.mp hc
    have has : IsName "as" := .of_all rfl rfl
    have heq : p.chars ++ r = "as".toList ++ ' ' :: (c.keyword.toList ++ ')' :: rest) := by
      rw [← hrest, List.append_assoc, List.append_assoc]
      rfl
    have hword := h.word has hr heq
    rw [hword, phraseEnd_keyword] at hr
    cases hr

/-! ## Separable texts -/

/-- Only the signs of borrows can be taken for one another, if `mut` goes on after the
shorter one. -/
theorem Sign.chars_append {x y : Sign} {r s : List Char} (h : x.chars ++ r = y.chars ++ s) :
    (x = y ∧ r = s) ∨ r = "mut".toList ++ ' ' :: s ∨ s = "mut".toList ++ ' ' :: r := by
  rcases x with (_ | _) | _ | (_ | _) <;> rcases y with (_ | _) | _ | (_ | _) <;>
    simp_all [Sign.chars, UnaryOp.sign, BorrowKind.sign]

/-- Phrases with the same text have the same signs, and go on alike after them. -/
theorem Phrase.signs_eq {head head' : Head} {xs xs' : List Suffix} (hhead : head.Plain)
    (hxs : ∀ x ∈ xs, x.Plain) (hhead' : head'.Plain) (hxs' : ∀ x ∈ xs', x.Plain) {r s : List Char}
    (hr : phraseEnd r = true) (hs : phraseEnd s = true) :
    ∀ signs signs', (Phrase.mk signs head xs).chars ++ r = (Phrase.mk signs' head' xs').chars ++ s →
      signs = signs' ∧
        head.chars ++ (Suffix.allChars xs ++ r) = head'.chars ++ (Suffix.allChars xs' ++ s)
  | [], [], h => by
    rw [Phrase.chars_noSign, Phrase.chars_noSign] at h
    exact ⟨rfl, h⟩
  | [], y :: signs', h => by
    rw [Phrase.chars_noSign, Phrase.chars_sign, List.append_assoc] at h
    exact absurd h.symm (y.chars_ne_head hhead _ _)
  | x :: signs, [], h => by
    rw [Phrase.chars_noSign, Phrase.chars_sign, List.append_assoc] at h
    exact absurd h (x.chars_ne_head hhead' _ _)
  | x :: signs, y :: signs', h => by
    rw [Phrase.chars_sign, Phrase.chars_sign, List.append_assoc, List.append_assoc] at h
    have hmut : IsName "mut" := .of_all rfl rfl
    have hp : (Phrase.mk signs head xs).Plain := .mk hhead hxs
    have hq : (Phrase.mk signs' head' xs').Plain := .mk hhead' hxs'
    rcases Sign.chars_append h with ⟨rfl, hrest⟩ | hafter | hafter
    · obtain ⟨rfl, htail⟩ := Phrase.signs_eq hhead hxs hhead' hxs' hr hs signs signs' hrest
      exact ⟨rfl, htail⟩
    -- a name `mut` after one sign would be followed by a phrase after the other
    · rw [hp.word hmut hr hafter, hq.not_after_blank hs] at hr
      cases hr
    · rw [hq.word hmut hs hafter, hp.not_after_blank hr] at hs
      cases hs

theorem Phrase.Plain.not_argsEnd {p : Phrase} (h : p.Plain) (rest : List Char) :
    argsEnd (p.chars ++ rest) = false := by
  refine Bool.eq_false_iff.mpr fun hend => ?_
  obtain ⟨c, hc, hopens⟩ := h.after_signs rest
  unfold argsEnd at hend
  split at hend
  · next heq =>
    rw [heq] at hc
    obtain rfl : ')' = c := Option.some.inj hc
    cases hopens
  · cases hend

theorem separable_args {es : List Phrase} (hes : ∀ e ∈ es, e.Plain)
    (hsep : ∀ e ∈ es, Separable Phrase.chars Phrase.Plain phraseEnd e) :
    Separable Phrase.argChars (fun fs => ∀ f ∈ fs, f.Plain) argsEnd es := by
  have hclose (r : List Char) (hr : argsEnd r = true) :
      phraseEnd r = true ∧ ¬ ", ".toList <+: r := by
    unfold argsEnd at hr
    split at hr
    · exact ⟨rfl, by rintro ⟨_, ⟨⟩⟩⟩
    · cases hr
  rw [funext Phrase.argChars_eq]
  exact Separable.joined (fun _ => rfl) hclose (fun e rest he _ => he.not_argsEnd rest) hes hsep

theorem ofSign?_sign (o : BinaryOp) : BinaryOp.ofSign? o.sign = some o := by
  cases o <;> decide

/-- The sign of a binary operator ends at the blank after it. -/
theorem operator_separable {o o' : BinaryOp} {r s : List Char}
    (h : o.sign.toList ++ ' ' :: r = o'.sign.toList ++ ' ' :: s) : o = o' ∧ r = s := by
  have hsign (o : BinaryOp) : ∀ c ∈ o.sign.toList, (c != ' ') = true := by
    cases o <;> exact List.all_eq_true.mp rfl
  obtain ⟨hoo, hrest⟩ := Separable.run (hsign o) o'.sign.toList _ _ (hsign o') rfl rfl h
  have heq := congrArg BinaryOp.ofSign? (String.toList_inj.mp hoo)
  rw [ofSign?_sign, ofSign?_sign] at heq
  exact ⟨Option.some.inj heq, (List.cons.inj hrest).2⟩

/-- The text of a phrase inside of another is separable from what stands there. -/
abbrev Phrase.Separates (p : Phrase) : Prop := Separable Phrase.chars Phrase.Plain phraseEnd p

/-- The text of a head is separable from the suffixes and from what follows. -/
abbrev Head.Separates (x : Head) : Prop := Separable Head.chars Head.Plain suffixEnd x

/-- The text of a suffix is separable from further suffixes and from what follows. -/
abbrev Suffix.Separates (x : Suffix) : Prop := Separable Suffix.chars Suffix.Plain suffixEnd x

theorem Head.separates_name {n : String} (hn : IsName n) : (Head.name n).Separates := by
  intro y r s hy hr hs h
  cases hy with
  | @name m hm =>
    obtain ⟨rfl, rfl⟩ :=
      hn.separable m r s hm (endsRun_of_suffixEnd hr) (endsRun_of_suffixEnd hs) h
    exact ⟨rfl, rfl⟩
  | binary _ _ => exact absurd h (hn.ne_paren _ _)
  | cast _ => exact absurd h (hn.ne_paren _ _)
  | call _ _ => exact absurd h (hn.ne_paren _ _)

theorem Head.chars_binary (o : BinaryOp) (a b : Phrase) (r : List Char) :
    (Head.binary o a b).chars ++ r =
      '(' :: (a.chars ++ ' ' :: (o.sign.toList ++ ' ' :: (b.chars ++ ')' :: r))) := by
  simp [Head.chars]

theorem Head.chars_cast (a : Phrase) (c : Scalar) (r : List Char) :
    (Head.cast a c).chars ++ r =
      '(' :: (a.chars ++ (" as ".toList ++ (c.keyword.toList ++ ')' :: r))) := by
  simp [Head.chars]

theorem Head.chars_call (f : Phrase) (es : List Phrase) (r : List Char) :
    (Head.call f es).chars ++ r =
      '(' :: (f.chars ++ ')' :: '(' :: (Phrase.argChars es ++ ')' :: r)) := by
  simp [Head.chars]

theorem operator_ne_cast {o : BinaryOp} {r s : List Char} :
    ' ' :: (o.sign.toList ++ ' ' :: r) ≠ " as ".toList ++ s := by
  cases o <;> nofun

theorem Head.separates_binary {o : BinaryOp} {a b : Phrase} (ha : a.Separates) (hb : b.Separates) :
    (Head.binary o a b).Separates := by
  intro y r s hy hr hs h
  rw [Head.chars_binary] at h
  cases hy with
  | name hn => exact absurd h.symm (hn.ne_paren _ _)
  | @binary o' a' b' ha' hb' =>
    rw [Head.chars_binary] at h
    obtain ⟨rfl, hop⟩ := ha a' _ _ ha' (phraseEnd_operator o _) (phraseEnd_operator o' _)
      (List.cons.inj h).2
    obtain ⟨rfl, hright⟩ := operator_separable (List.cons.inj hop).2
    obtain ⟨rfl, hclose⟩ := hb b' _ _ hb' rfl rfl hright
    exact ⟨rfl, (List.cons.inj hclose).2⟩
  | @cast a' c ha' =>
    rw [Head.chars_cast] at h
    obtain ⟨rfl, hop⟩ := ha a' _ _ ha' (phraseEnd_operator o _) (phraseEnd_cast c _)
      (List.cons.inj h).2
    exact absurd hop operator_ne_cast
  | @call f es hf _ =>
    rw [Head.chars_call] at h
    obtain ⟨rfl, hop⟩ := ha f _ _ hf (phraseEnd_operator o _) rfl (List.cons.inj h).2
    cases hop

theorem Head.separates_cast {a : Phrase} {c : Scalar} (ha : a.Separates) :
    (Head.cast a c).Separates := by
  intro y r s hy hr hs h
  rw [Head.chars_cast] at h
  cases hy with
  | name hn => exact absurd h.symm (hn.ne_paren _ _)
  | @binary o a' b' ha' _ =>
    rw [Head.chars_binary] at h
    obtain ⟨rfl, hop⟩ := ha a' _ _ ha' (phraseEnd_cast c _) (phraseEnd_operator o _)
      (List.cons.inj h).2
    exact absurd hop.symm operator_ne_cast
  | @cast a' c' ha' =>
    rw [Head.chars_cast] at h
    obtain ⟨rfl, hty⟩ := ha a' _ _ ha' (phraseEnd_cast c _) (phraseEnd_cast c' _)
      (List.cons.inj h).2
    obtain ⟨hword, hclose⟩ := (isName_keyword c).separable c'.keyword _ _ (isName_keyword c')
      rfl rfl (List.append_cancel_left hty)
    have hcc := congrArg Scalar.ofKeyword? hword
    rw [ofKeyword?_keyword, ofKeyword?_keyword] at hcc
    obtain rfl : c = c' := Option.some.inj hcc
    exact ⟨rfl, (List.cons.inj hclose).2⟩
  | @call f es hf _ =>
    rw [Head.chars_call] at h
    obtain ⟨rfl, hop⟩ := ha f _ _ hf (phraseEnd_cast c _) rfl (List.cons.inj h).2
    cases hop

theorem Head.separates_call {f : Phrase} {es : List Phrase} (hf : f.Separates)
    (hes : ∀ e ∈ es, e.Plain) (hsep : ∀ e ∈ es, e.Separates) : (Head.call f es).Separates := by
  intro y r s hy hr hs h
  rw [Head.chars_call] at h
  cases hy with
  | name hn => exact absurd h.symm (hn.ne_paren _ _)
  | @binary o a b ha _ =>
    rw [Head.chars_binary] at h
    obtain ⟨rfl, hop⟩ := hf a _ _ ha rfl (phraseEnd_operator o _) (List.cons.inj h).2
    cases hop
  | @cast a c ha =>
    rw [Head.chars_cast] at h
    obtain ⟨rfl, hop⟩ := hf a _ _ ha rfl (phraseEnd_cast c _) (List.cons.inj h).2
    cases hop
  | @call f' es' hf' hes' =>
    rw [Head.chars_call] at h
    obtain ⟨rfl, hargs⟩ := hf f' _ _ hf' rfl rfl (List.cons.inj h).2
    obtain ⟨rfl, hclose⟩ := separable_args hes hsep es' _ _ hes' rfl rfl
      (List.cons.inj (List.cons.inj hargs).2).2
    exact ⟨rfl, (List.cons.inj hclose).2⟩

theorem Suffix.chars_method (m : String) (es : List Phrase) (r : List Char) :
    (Suffix.method m es).chars ++ r =
      '.' :: (m.toList ++ '(' :: (Phrase.argChars es ++ ')' :: r)) := by
  simp [Suffix.chars]

theorem Suffix.separates_field {n : String} (hn : IsName n) : (Suffix.field n).Separates := by
  intro y r s hy hr hs h
  cases hy with
  | @field m hm =>
    obtain ⟨rfl, rfl⟩ := hn.separable m r s hm (endsRun_of_suffixEnd hr) (endsRun_of_suffixEnd hs)
      (List.cons.inj h).2
    exact ⟨rfl, rfl⟩
  | index _ => cases h
  | @method m es hm _ =>
    -- no parenthesis follows a field
    rw [Suffix.chars_method] at h
    obtain ⟨rfl, rfl⟩ := hn.separable m r _ hm (endsRun_of_suffixEnd hr) rfl (List.cons.inj h).2
    cases hr

theorem Suffix.separates_index {e : Phrase} (he : e.Separates) : (Suffix.index e).Separates := by
  intro y r s hy hr hs h
  cases hy with
  | @index e' he' =>
    simp only [Suffix.chars, List.cons_append, List.append_assoc] at h
    obtain ⟨rfl, hclose⟩ := he e' _ _ he' rfl rfl (List.cons.inj h).2
    exact ⟨rfl, (List.cons.inj hclose).2⟩
  | field _ => cases h
  | method _ _ => cases h

theorem Suffix.separates_method {m : String} {es : List Phrase} (hm : IsName m)
    (hes : ∀ e ∈ es, e.Plain) (hsep : ∀ e ∈ es, e.Separates) : (Suffix.method m es).Separates := by
  intro y r s hy hr hs h
  rw [Suffix.chars_method] at h
  cases hy with
  | @field n hn =>
    obtain ⟨rfl, rfl⟩ := hm.separable n _ s hn rfl (endsRun_of_suffixEnd hs) (List.cons.inj h).2
    cases hs
  | index _ => cases h
  | @method m' es' hm' hes' =>
    rw [Suffix.chars_method] at h
    obtain ⟨rfl, hargs⟩ := hm.separable m' _ _ hm' rfl rfl (List.cons.inj h).2
    obtain ⟨rfl, hclose⟩ := separable_args hes hsep es' _ _ hes' rfl rfl (List.cons.inj hargs).2
    exact ⟨rfl, (List.cons.inj hclose).2⟩

/-- Suffixes end where no suffix follows. -/
theorem separable_suffixes {xs : List Suffix} (hsep : ∀ x ∈ xs, x.Separates) :
    Separable Suffix.allChars (fun ys => ∀ y ∈ ys, y.Plain) phraseEnd xs := by
  induction xs with
  | nil =>
    intro ys r s hys hr hs h
    cases ys with
    | nil => exact ⟨rfl, h⟩
    | cons y ys =>
      rw [Suffix.allChars, Suffix.allChars, List.append_assoc, List.nil_append] at h
      rw [h, y.not_phraseEnd] at hr
      cases hr
  | cons x xs ih =>
    intro ys r s hys hr hs h
    cases ys with
    | nil =>
      rw [Suffix.allChars, Suffix.allChars, List.append_assoc, List.nil_append] at h
      rw [← h, x.not_phraseEnd] at hs
      cases hs
    | cons y ys =>
      obtain ⟨hx, hxs⟩ := List.forall_mem_cons.mp hsep
      obtain ⟨hy, hys'⟩ := List.forall_mem_cons.mp hys
      rw [Suffix.allChars, Suffix.allChars, List.append_assoc, List.append_assoc] at h
      obtain ⟨rfl, htail⟩ := hx y _ _ hy (Suffix.suffixEnd_allChars xs hr)
        (Suffix.suffixEnd_allChars ys hs) h
      obtain ⟨rfl, rfl⟩ := ih hxs ys r s hys' hr hs htail
      exact ⟨rfl, rfl⟩

mutual

/-- A phrase is determined by its text, and its text shows where it ends. -/
theorem Phrase.separable : ∀ p : Phrase, p.Plain → p.Separates
  | .mk signs head suffixes, .mk hhead hxs => by
    intro q r s hq hr hs h
    obtain ⟨signs', head', suffixes'⟩ := q
    cases hq with
    | mk hhead' hxs' =>
      obtain ⟨rfl, hrest⟩ := Phrase.signs_eq hhead hxs hhead' hxs' hr hs signs signs' h
      obtain ⟨rfl, htail⟩ := Head.separable head hhead head' _ _ hhead'
        (Suffix.suffixEnd_allChars suffixes hr) (Suffix.suffixEnd_allChars suffixes' hs) hrest
      obtain ⟨rfl, rfl⟩ := separable_suffixes (Suffix.separable_each suffixes hxs) suffixes' r s
        hxs' hr hs htail
      exact ⟨rfl, rfl⟩

theorem Head.separable : ∀ x : Head, x.Plain → x.Separates
  | .name _, .name hn => Head.separates_name hn
  | .binary _ a b, .binary ha hb =>
    Head.separates_binary (Phrase.separable a ha) (Phrase.separable b hb)
  | .cast a _, .cast ha => Head.separates_cast (Phrase.separable a ha)
  | .call f es, .call hf hes =>
    Head.separates_call (Phrase.separable f hf) hes (Phrase.separable_each es hes)

theorem Suffix.separable : ∀ x : Suffix, x.Plain → x.Separates
  | .field _, .field hn => Suffix.separates_field hn
  | .index e, .index he => Suffix.separates_index (Phrase.separable e he)
  | .method _ es, .method hm hes => Suffix.separates_method hm hes (Phrase.separable_each es hes)

theorem Phrase.separable_each : ∀ es : List Phrase, (∀ e ∈ es, e.Plain) → ∀ e ∈ es, e.Separates
  | [], _ => List.forall_mem_nil _
  | e :: es, h => List.forall_mem_cons.mpr
      ⟨Phrase.separable e (h e List.mem_cons_self),
        Phrase.separable_each es fun x hx => h x (List.mem_cons_of_mem e hx)⟩

theorem Suffix.separable_each : ∀ xs : List Suffix, (∀ x ∈ xs, x.Plain) → ∀ x ∈ xs, x.Separates
  | [], _ => List.forall_mem_nil _
  | x :: xs, h => List.forall_mem_cons.mpr
      ⟨Suffix.separable x (h x List.mem_cons_self),
        Suffix.separable_each xs fun y hy => h y (List.mem_cons_of_mem x hy)⟩

end

end Lowering.Core
