import Lowering.Core.Text
import Lowering.Proofs.Parts
import Lowering.Proofs.Separable

/-!
# Texts of types and paths

What stands in the text of a type or a path, part by part, as a list of characters,
and what can be read off its start. A fragment is plain if its names are made of
letters, digits, `_` and `#`, the crate names and calling conventions in it have no
quote, and its arrays have no size.

What may come after a type or a path is one of a few things (`typeEnd`, `pathEnd`,
`nameEnd`, `listEnd`), by which names, numbers and canonical paths are seen to end.

What is proved:
  1. `IsName.separable`, `Unquoted.separable`, `ParamIndex.separable`,
     `ItemPath.separable`: the words, the comments and the canonical paths in a text
     show where they end.
  2. `Ty.form?_chars`: the form of a plain type is read off the first word or sign of
     its text.
-/

namespace Lowering.Core

open Text (Separable endsRun leadChars sepChars)

/-! ## Plain fragments -/

/-- The characters of names: letters and digits, `_` and `#`. Outside of ASCII every
character is taken for a letter. -/
def isNameChar (c : Char) : Bool :=
  c.isAlphanum || c == '_' || c == '#' || decide (128 ≤ c.toNat)

/-- A name that is not empty and has no other characters. -/
structure IsName (name : String) : Prop where
  nonempty : name.toList ≠ []
  chars : ∀ c ∈ name.toList, isNameChar c = true

theorem IsName.of_all {name : String} (hne : name.toList.isEmpty = false)
    (hall : name.toList.all isNameChar = true) : IsName name :=
  ⟨List.isEmpty_eq_false_iff.mp hne, List.all_eq_true.mp hall⟩

/-- A text without a quote. -/
def Unquoted (text : String) : Prop := ∀ c ∈ text.toList, (c != '"') = true

/-- A canonical path with an unquoted crate and names for components. -/
structure ItemPath.Plain (p : ItemPath) : Prop where
  crate : Unquoted p.crate
  components : ∀ n ∈ p.components, IsName n

/-- What a plain fragment has to satisfy itself, apart from its parts. -/
def Fragment.PlainHere : Fragment → Prop
  | .ty (.array _ size) => size = none
  | .ty (.param name _) => IsName name
  | .ty (.function _ abi _ _) => Unquoted abi
  | .args (.mk _ bindings) => ∀ b ∈ bindings, IsName b.1
  | .applied (.mk p _) => p.Plain
  | .path (.qualified _ _ item _) => IsName item
  | _ => True

/-- A fragment that is plain everywhere in it. -/
def Fragment.Plain (f : Fragment) : Prop := f.Everywhere Fragment.PlainHere

/-! ## What may follow -/

/-- What may follow a canonical path with its arguments. -/
def pathEnd : List Char → Bool
  | [] => true
  | c :: _ => [',', ')', ']', '>', ' '].contains c

/-- What may follow a name that may have arguments. -/
def nameEnd : List Char → Bool
  | '<' :: _ => true
  | rest => pathEnd rest

/-- What may follow a type: a blank only if it is that of `as`. -/
def typeEnd : List Char → Bool
  | ' ' :: rest => rest.head? == some 'a'
  | rest => pathEnd rest

/-- The end of a list in parentheses or angle brackets. -/
def listEnd : List Char → Bool
  | ')' :: _ | '>' :: _ | ',' :: ')' :: _ => true
  | _ => false

section

variable {c : Char} {r : List Char}

theorem pathEnd_cons (h : pathEnd (c :: r) = true) :
    c = ',' ∨ c = ')' ∨ c = ']' ∨ c = '>' ∨ c = ' ' := by
  simpa [pathEnd] using h

theorem nameEnd_cons (h : nameEnd (c :: r) = true) :
    c = '<' ∨ c = ',' ∨ c = ')' ∨ c = ']' ∨ c = '>' ∨ c = ' ' := by
  unfold nameEnd at h
  split at h
  · simp_all
  · exact .inr (pathEnd_cons h)

theorem nameEnd_of_pathEnd (h : pathEnd r = true) : nameEnd r = true := by
  unfold nameEnd
  split
  · rfl
  · exact h

theorem pathEnd_of_typeEnd (h : typeEnd r = true) : pathEnd r = true := by
  unfold typeEnd at h
  split at h
  · rfl
  · exact h

theorem typeEnd_of_listEnd (h : listEnd r = true) : typeEnd r = true := by
  unfold listEnd at h
  split at h
  · rfl
  · rfl
  · rfl
  · cases h

theorem endsRun_of_nameEnd (h : nameEnd r = true) : endsRun isNameChar r = true := by
  cases r with
  | nil => rfl
  | cons c r => rcases nameEnd_cons h with rfl | rfl | rfl | rfl | rfl | rfl <;> rfl

theorem endsRun_of_typeEnd (h : typeEnd r = true) : endsRun isNameChar r = true :=
  endsRun_of_nameEnd (nameEnd_of_pathEnd (pathEnd_of_typeEnd h))

end

/-! ## Words and numbers -/

theorem IsName.separable {name : String} (h : IsName name) :
    Separable String.toList IsName (endsRun isNameChar) name := by
  intro other r s hother hr hs heq
  obtain ⟨hname, hrest⟩ := Separable.run h.chars other.toList r s hother.chars hr hs heq
  exact ⟨String.toList_inj.mp hname, hrest⟩

theorem IsName.not_nameEnd {name : String} (h : IsName name) (rest : List Char) :
    nameEnd (name.toList ++ rest) = false := by
  refine Bool.eq_false_iff.mpr fun hend => ?_
  have hrun := endsRun_of_nameEnd hend
  rw [Text.endsRun_run h.nonempty h.chars] at hrun
  cases hrun

/-- A text in quotes ends at the next quote. -/
theorem Unquoted.separable {text : String} (h : Unquoted text) :
    Separable String.toList Unquoted (endsRun (· != '"')) text := by
  intro other r s hother hr hs heq
  obtain ⟨htext, hrest⟩ := Separable.run h other.toList r s hother hr hs heq
  exact ⟨String.toList_inj.mp htext, hrest⟩

theorem toList_decimal (i : Nat) : (toString i).toList = Nat.toDigits 10 i := by
  rw [Nat.toString_eq_repr, Nat.toList_repr]

theorem isDigit_of_mem_decimal {i : Nat} {c : Char} (hc : c ∈ (toString i).toList) :
    c.isDigit = true := by
  rw [toList_decimal] at hc
  exact Nat.isDigit_of_mem_toDigits (by decide) (by decide) hc

/-- A number in decimal ends where no digit follows. -/
theorem separable_decimal (i : Nat) :
    Separable (fun i : Nat => (toString i).toList) (fun _ => True) (endsRun Char.isDigit) i := by
  intro j r s _ hr hs heq
  obtain ⟨hdigits, hrest⟩ := Separable.run (fun _ => isDigit_of_mem_decimal) _ r s
    (fun _ => isDigit_of_mem_decimal) hr hs heq
  rw [toList_decimal, toList_decimal] at hdigits
  have hij := congrArg (Nat.ofDigitChars 10 · 0) hdigits
  rw [Nat.ofDigitChars_ten_toDigits, Nat.ofDigitChars_ten_toDigits] at hij
  exact ⟨hij, hrest⟩

/-- The comment with the position of a parameter. -/
def ParamIndex.comment : ParamIndex → List Char
  | .unresolved => "/*".toList ++ "?*/".toList
  | .bound i => "/*".toList ++ ((toString i).toList ++ "*/".toList)

theorem toList_paramText (name : String) (i : ParamIndex) :
    (paramText name i).toList = name.toList ++ i.comment := by
  cases i <;> simp [paramText, ParamIndex.comment]

theorem ParamIndex.separable (i : ParamIndex) :
    Separable ParamIndex.comment (fun _ => True) (fun _ => true) i := by
  -- a position that is not known shows no digit
  have hunknown : ∀ k r s,
      ParamIndex.unresolved.comment ++ r ≠ (ParamIndex.bound k).comment ++ s := by
    intro k r s h
    simp only [comment, List.append_assoc] at h
    have hdigit := congrArg (endsRun Char.isDigit) (List.append_cancel_left h)
    have hne : (toString k).toList ≠ [] := by
      rw [toList_decimal]
      exact Nat.toDigits_ne_nil
    rw [Text.endsRun_run hne fun _ => isDigit_of_mem_decimal] at hdigit
    cases hdigit
  intro j r s _ _ _ h
  cases i with
  | unresolved =>
    cases j with
    | unresolved => exact ⟨rfl, List.append_cancel_left h⟩
    | bound k => exact absurd h (hunknown k r s)
  | bound i =>
    cases j with
    | unresolved => exact absurd h.symm (hunknown i s r)
    | bound k =>
      simp only [comment, List.append_assoc] at h
      obtain ⟨rfl, hrest⟩ := separable_decimal i k _ _ trivial rfl rfl (List.append_cancel_left h)
      exact ⟨rfl, List.append_cancel_left hrest⟩

/-! ## Canonical paths -/

/-- The text of a canonical path after the colons in front. -/
def ItemPath.tailChars (p : ItemPath) : List Char :=
  if p.crate.isEmpty then sepChars "::".toList String.toList p.components
  else '"' :: (p.crate.toList ++ '"' :: leadChars "::".toList String.toList p.components)

theorem ItemPath.toList_text (p : ItemPath) : p.text.toList = "::".toList ++ p.tailChars := by
  obtain ⟨crate, components⟩ := p
  have heach := Text.toList_eachAfter "::" id components
  rw [List.map_id] at heach
  unfold ItemPath.text ItemPath.crateText ItemPath.tailChars
  cases hcrate : crate.isEmpty with
  | true =>
    cases components with
    | nil => simp [sepChars]
    | cons n ns => simp [heach, sepChars, Text.leadChars_cons]
  | false => simp [heach]

theorem ItemPath.tailChars_local (names : List String) :
    ItemPath.tailChars ⟨"", names⟩ = sepChars "::".toList String.toList names := rfl

theorem ItemPath.tailChars_crate {crate : String} (h : crate ≠ "") (names : List String) :
    ItemPath.tailChars ⟨crate, names⟩ =
      '"' :: (crate.toList ++ '"' :: leadChars "::".toList String.toList names) := by
  unfold ItemPath.tailChars
  rw [if_neg (mt String.isEmpty_iff.mp h)]

theorem not_colons_of_nameEnd {r : List Char} (h : nameEnd r = true) : ¬ "::".toList <+: r := by
  rintro ⟨rest, rfl⟩
  cases h

/-- After the colons in front, only a crate starts with a quote. -/
theorem sepChars_ne_quote {names : List String} (hnames : ∀ n ∈ names, IsName n) {r : List Char}
    (hr : nameEnd r = true) (rest : List Char) :
    sepChars "::".toList String.toList names ++ r ≠ '"' :: rest := by
  intro h
  cases names with
  | nil =>
    cases h
    cases hr
  | cons n ns =>
    have hn := hnames n List.mem_cons_self
    rw [sepChars, List.append_assoc] at h
    have hrun := congrArg (endsRun isNameChar) h
    rw [Text.endsRun_run hn.nonempty hn.chars] at hrun
    cases hrun

/-- A canonical path ends where neither a component nor a crate follows. -/
theorem ItemPath.separable {p : ItemPath} (hp : p.Plain) :
    Separable (fun p : ItemPath => p.text.toList) ItemPath.Plain nameEnd p := by
  have hsep : ∀ rest, endsRun isNameChar ("::".toList ++ rest) = true := fun _ => rfl
  have hclose : ∀ r, nameEnd r = true → endsRun isNameChar r = true ∧ ¬ "::".toList <+: r :=
    fun r hr => ⟨endsRun_of_nameEnd hr, not_colons_of_nameEnd hr⟩
  have hstart : ∀ n rest, IsName n → endsRun isNameChar rest = true →
      nameEnd (n.toList ++ rest) = false := fun n rest hn _ => hn.not_nameEnd rest
  have hnames : ∀ n ∈ p.components, Separable String.toList IsName (endsRun isNameChar) n :=
    fun n hn => (hp.components n hn).separable
  intro q r s hq hr hs h
  simp only [ItemPath.toList_text, List.append_assoc] at h
  have h := List.append_cancel_left h
  obtain ⟨crate, names⟩ := p
  obtain ⟨crate', names'⟩ := q
  by_cases hc : crate = ""
  · subst hc
    rw [ItemPath.tailChars_local] at h
    by_cases hc' : crate' = ""
    · subst hc'
      rw [ItemPath.tailChars_local] at h
      obtain ⟨rfl, hrest⟩ := Separable.joined hsep hclose hstart hp.components hnames names' r s
        hq.components hr hs h
      exact ⟨rfl, hrest⟩
    · rw [ItemPath.tailChars_crate hc', List.cons_append] at h
      exact absurd h (sepChars_ne_quote hp.components hr _)
  · rw [ItemPath.tailChars_crate hc, List.cons_append] at h
    by_cases hc' : crate' = ""
    · subst hc'
      rw [ItemPath.tailChars_local] at h
      exact absurd h.symm (sepChars_ne_quote hq.components hs _)
    · rw [ItemPath.tailChars_crate hc', List.cons_append, List.cons.injEq, List.append_assoc,
        List.append_assoc] at h
      obtain ⟨rfl, hrest⟩ := hp.crate.separable crate' _ _ hq.crate rfl rfl h.2
      obtain ⟨rfl, rfl⟩ := Separable.eachAfter hsep hclose hnames names' r s hq.components hr hs
        (List.cons.inj hrest).2
      exact ⟨rfl, rfl⟩

/-! ## The form of a type -/

/-- The forms of types. -/
inductive Ty.Form where
  | infer | primitive | tuple | borrow | pointer | array | path | traitObject | function | param
  deriving DecidableEq

/-- The form of a type. -/
def Ty.form : Ty → Ty.Form
  | .infer => .infer
  | .primitive _ => .primitive
  | .tuple _ => .tuple
  | .borrow _ _ => .borrow
  | .pointer _ _ => .pointer
  | .array _ _ => .array
  | .path _ => .path
  | .traitObject _ => .traitObject
  | .function _ _ _ _ => .function
  | .param _ _ => .param

/-- The form of a type that starts with a keyword. -/
def keywordForm? (word : List Char) : Option Ty.Form :=
  if word = "_".toList then some .infer
  else if word = "dyn".toList then some .traitObject
  else if word ∈ ["unsafe".toList, "extern".toList, "fn".toList] then some .function
  else if word ∈ Scalar.all.map (·.keyword.toList) then some .primitive
  else none

/-- The form of a type that starts with a word, by the character after it: before a
comment any word is a parameter, and before an equals sign it is no type. -/
def wordForm? (word : List Char) : Option Char → Option Ty.Form
  | some '/' => some .param
  | some '=' => none
  | _ => keywordForm? word

/-- The form of a type that starts with a sign. -/
def signForm? : Char → Option Ty.Form
  | '(' => some .tuple
  | '&' => some .borrow
  | '*' => some .pointer
  | '[' => some .array
  | ':' | '<' => some .path
  | _ => none

/-- The form of the type that a text starts with, if it can start with one. -/
def form? : List Char → Option Ty.Form
  | [] => none
  | c :: cs =>
    if isNameChar c then
      wordForm? ((c :: cs).takeWhile isNameChar) ((c :: cs).dropWhile isNameChar).head?
    else signForm? c

theorem form?_word {word r : List Char} (hne : word ≠ [])
    (hchars : ∀ c ∈ word, isNameChar c = true) (hr : endsRun isNameChar r = true) :
    form? (word ++ r) = wordForm? word r.head? := by
  have htake := Text.takeWhile_run hchars hr
  have hdrop := Text.dropWhile_run hchars hr
  cases word with
  | nil => exact absurd rfl hne
  | cons c cs =>
    rw [List.cons_append] at htake hdrop ⊢
    rw [form?, if_pos (hchars c List.mem_cons_self), htake, hdrop]

theorem wordForm?_of_typeEnd (word : List Char) {r : List Char} (hr : typeEnd r = true) :
    wordForm? word r.head? = keywordForm? word := by
  cases r with
  | nil => rfl
  | cons c r =>
    rcases pathEnd_cons (pathEnd_of_typeEnd hr) with rfl | rfl | rfl | rfl | rfl <;> rfl

theorem form?_binding {name : String} (h : IsName name) (rest : List Char) :
    form? (name.toList ++ '=' :: rest) = none :=
  form?_word h.nonempty h.chars rfl

theorem form?_of_listEnd {r : List Char} (h : listEnd r = true) : form? r = none := by
  unfold listEnd at h
  split at h
  · rfl
  · rfl
  · rfl
  · cases h

theorem isName_keyword (c : Scalar) : IsName c.keyword := by
  cases c <;> exact .of_all rfl rfl

theorem ofKeyword?_keyword (c : Scalar) : Scalar.ofKeyword? c.keyword = some c := by
  cases c <;> decide

theorem keywordForm?_keyword (c : Scalar) : keywordForm? c.keyword.toList = some .primitive := by
  cases c <;> decide

/-! ## Texts part by part -/

theorem Ty.texts_eq (ts : List Ty) : Ty.texts ts = ts.map Ty.text := by
  induction ts with
  | nil => rfl
  | cons t ts ih => rw [Ty.texts, ih, List.map_cons]

theorem AppliedPath.texts_eq (ps : List AppliedPath) :
    AppliedPath.texts ps = ps.map AppliedPath.text := by
  induction ps with
  | nil => rfl
  | cons p ps ih => rw [AppliedPath.texts, ih, List.map_cons]

/-- The text of a type as characters. -/
def Ty.chars (t : Ty) : List Char := t.text.toList

/-- The text of a canonical path with arguments as characters. -/
def AppliedPath.chars (p : AppliedPath) : List Char := p.text.toList

theorem Ty.chars_borrow (k : BorrowKind) (t : Ty) :
    (Ty.borrow k t).chars = k.sign.toList ++ t.chars := by
  rw [Ty.chars, Ty.text, String.toList_append]
  rfl

/-- The sign of a pointer type. -/
def pointerSign (isMut : Bool) : List Char := if isMut then "*mut ".toList else "*const ".toList

theorem Ty.chars_pointer (isMut : Bool) (t : Ty) :
    (Ty.pointer isMut t).chars = pointerSign isMut ++ t.chars := by
  rw [Ty.chars, Ty.text, String.toList_append]
  cases isMut <;> rfl

theorem Ty.chars_array (t : Ty) : (Ty.array t none).chars = '[' :: (t.chars ++ [']']) := by
  simp [Ty.chars, Ty.text]

theorem Ty.chars_param (name : String) (i : ParamIndex) :
    (Ty.param name i).chars = name.toList ++ i.comment := by
  rw [Ty.chars, Ty.text, toList_paramText]

theorem Ty.chars_tuple (ts : List Ty) : (Ty.tuple ts).chars =
    '(' :: (sepChars ", ".toList Ty.chars ts ++ Text.tupleClose ts) := by
  rw [Ty.chars, Ty.text, Ty.texts_eq, Text.toList_tuple]
  rfl

/-- What a function type shows of its calling convention, up to its arguments. -/
def abiHead (abi : String) : List Char :=
  if abi.isEmpty then "fn(".toList else "extern \"".toList ++ (abi.toList ++ "\" fn(".toList)

/-- What a function type shows before its arguments. -/
def functionHead (isUnsafe : Bool) (abi : String) : List Char :=
  if isUnsafe then "unsafe ".toList ++ abiHead abi else abiHead abi

/-- What a function type shows of its result: nothing if that is the empty tuple. -/
def resultChars (ret : Ty) : List Char :=
  if ret.isUnit then [] else " -> ".toList ++ ret.chars

theorem Ty.chars_function (isUnsafe : Bool) (abi : String) (args : List Ty) (ret : Ty) :
    (Ty.function isUnsafe abi args ret).chars = functionHead isUnsafe abi ++
      (sepChars ", ".toList Ty.chars args ++ ')' :: resultChars ret) := by
  have hargs : (Text.joined ", " (args.map Ty.text)).toList = sepChars ", ".toList Ty.chars args :=
    Text.toList_joined ", " Ty.text args
  rw [Ty.chars, Ty.text, Ty.texts_eq, functionText, functionHead, abiHead, resultChars]
  cases isUnsafe <;> cases abi.isEmpty <;> cases ret.isUnit <;>
    simp [hargs, optionalText, Ty.chars]

theorem Ty.chars_traitObject (ps : List AppliedPath) :
    (Ty.traitObject ps).chars = "dyn ".toList ++ sepChars " + ".toList AppliedPath.chars ps := by
  rw [Ty.chars, Ty.text, AppliedPath.texts_eq, String.toList_append, Text.toList_joined]
  rfl

/-- What stands between the angle brackets of a path: types and types with names. -/
def GenericArgs.entries : GenericArgs → List (Ty ⊕ String × Ty)
  | .mk ts bs => ts.map .inl ++ bs.map .inr

/-- The text of an argument. -/
def entryText : Ty ⊕ String × Ty → String
  | .inl t => t.text
  | .inr (name, t) => name ++ "=" ++ t.text

/-- The text of an argument as characters. -/
def entryChars (e : Ty ⊕ String × Ty) : List Char := (entryText e).toList

theorem GenericArgs.entries_injective {a b : GenericArgs} (h : a.entries = b.entries) : a = b := by
  have htypes : ∀ a : GenericArgs, a.entries.filterMap Sum.getLeft? = a.types := by
    rintro ⟨ts, bs⟩
    simp [entries, types, List.filterMap_map, Function.comp_def]
  have hbindings : ∀ a : GenericArgs, a.entries.filterMap Sum.getRight? = a.bindings := by
    rintro ⟨ts, bs⟩
    simp [entries, bindings, List.filterMap_map, Function.comp_def]
  have hsame : a.types = b.types := by rw [← htypes a, h, htypes b]
  have hsame' : a.bindings = b.bindings := by rw [← hbindings a, h, hbindings b]
  obtain ⟨ts, bs⟩ := a
  obtain ⟨ts', bs'⟩ := b
  exact congrArg₂ GenericArgs.mk hsame hsame'

theorem Ty.bindingTexts_eq (bs : List (String × Ty)) :
    Ty.bindingTexts bs = bs.map fun b => entryText (.inr b) := by
  induction bs with
  | nil => rfl
  | cons b bs ih =>
    obtain ⟨name, t⟩ := b
    rw [Ty.bindingTexts, ih, List.map_cons]
    rfl

theorem GenericArgs.texts_eq (a : GenericArgs) :
    Ty.texts a.types ++ Ty.bindingTexts a.bindings = a.entries.map entryText := by
  obtain ⟨ts, bs⟩ := a
  rw [types, bindings, entries, Ty.texts_eq, Ty.bindingTexts_eq, List.map_append, List.map_map,
    List.map_map]
  rfl

/-- The text of arguments as characters. -/
def GenericArgs.chars (a : GenericArgs) : List Char := a.text.toList

theorem GenericArgs.chars_eq (a : GenericArgs) :
    a.chars = if a.entries = [] then []
      else '<' :: (sepChars ", ".toList entryChars a.entries ++ ['>']) := by
  have htexts := a.texts_eq
  have hjoined : (Text.joined ", " (a.entries.map entryText)).toList =
      sepChars ", ".toList entryChars a.entries := Text.toList_joined ", " entryText a.entries
  obtain ⟨ts, bs⟩ := a
  change Ty.texts ts ++ Ty.bindingTexts bs = _ at htexts
  rw [chars, GenericArgs.text, argsText, htexts]
  cases hentries : (GenericArgs.mk ts bs).entries with
  | nil => rfl
  | cons e es =>
    rw [hentries] at hjoined
    rw [if_neg (List.cons_ne_nil e es), ← hjoined]
    simp

theorem AppliedPath.chars_mk (p : ItemPath) (a : GenericArgs) :
    (AppliedPath.mk p a).chars = p.text.toList ++ a.chars := by
  rw [AppliedPath.chars, AppliedPath.text, String.toList_append]
  rfl

/-- The text of a path as characters. -/
def Path.chars (p : Path) : List Char := p.text.toList

/-- What a qualified path shows of its trait. -/
def traitChars : Option AppliedPath → List Char
  | none => []
  | some p => " as ".toList ++ p.chars

theorem Path.chars_qualified (self : Ty) (trait : Option AppliedPath) (item : String)
    (a : GenericArgs) : (Path.qualified self trait item a).chars =
      '<' :: (self.chars ++ (traitChars trait ++ (">::".toList ++ (item.toList ++ a.chars)))) := by
  cases trait <;>
    simp [Path.chars, Path.text, traitChars, Ty.chars, AppliedPath.chars, GenericArgs.chars]

theorem AppliedPath.chars_colons (p : AppliedPath) : ∃ rest, p.chars = ':' :: rest := by
  obtain ⟨p, a⟩ := p
  rw [AppliedPath.chars_mk, ItemPath.toList_text]
  exact ⟨_, rfl⟩

theorem Path.form?_chars (p : Path) (r : List Char) : form? (p.chars ++ r) = some .path := by
  cases p with
  | plain p =>
    obtain ⟨rest, hrest⟩ := p.chars_colons
    change form? (p.chars ++ r) = _
    rw [hrest]
    rfl
  | qualified self trait item a =>
    rw [Path.chars_qualified]
    rfl

theorem form?_functionHead (isUnsafe : Bool) (abi : String) (rest : List Char) :
    form? (functionHead isUnsafe abi ++ rest) = some .function := by
  unfold functionHead abiHead
  cases isUnsafe <;> cases abi.isEmpty <;> rfl

/-- The form of a plain type is read off its text. -/
theorem Ty.form?_chars {t : Ty} (ht : (Fragment.ty t).Plain) {r : List Char}
    (hr : typeEnd r = true) : form? (t.chars ++ r) = some t.form := by
  have hend : endsRun isNameChar r = true := endsRun_of_typeEnd hr
  cases t with
  | infer =>
    have hname : IsName "_" := .of_all rfl rfl
    exact (form?_word hname.nonempty hname.chars hend).trans (wordForm?_of_typeEnd _ hr)
  | primitive c =>
    have hname := isName_keyword c
    change form? (c.keyword.toList ++ r) = _
    rw [form?_word hname.nonempty hname.chars hend, wordForm?_of_typeEnd _ hr,
      keywordForm?_keyword]
    rfl
  | tuple ts =>
    rw [Ty.chars_tuple]
    rfl
  | borrow k t =>
    rw [Ty.chars_borrow]
    cases k <;> rfl
  | pointer isMut t =>
    rw [Ty.chars_pointer]
    cases isMut <;> rfl
  | array t size =>
    have hsize : size = none := ht.here
    rw [hsize, Ty.chars_array]
    rfl
  | path p => exact p.form?_chars r
  | traitObject ps =>
    rw [Ty.chars_traitObject]
    rfl
  | function u abi args ret =>
    rw [Ty.chars_function, List.append_assoc]
    exact form?_functionHead u abi _
  | param name i =>
    have hname : IsName name := ht.here
    rw [Ty.chars_param, List.append_assoc]
    cases i <;> exact form?_word hname.nonempty hname.chars rfl

end Lowering.Core
