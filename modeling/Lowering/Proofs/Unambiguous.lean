import Lowering.Proofs.TypeText

/-!
# Unambiguous text

The text of a plain type determines the type, and the same holds of paths. Texts are
read from the left: with something after it that may follow a type, a type is
separable, since its form is read off the start of its text and its parts are
separable in their turn.

What is proved:
  1. `Ty.readable_tuple` and the like: one form of type at a time, from its parts.
  2. `Fragment.readable`: every plain type and path, by induction on its parts.
Main statement: `plain_text_injective`.
-/

namespace Lowering.Core

open Text (Separable endsRun sepChars)

/-! ## Separable fragments -/

/-- A type is separable from what may follow a type. -/
def Ty.Readable (t : Ty) : Prop :=
  Separable Ty.chars (fun u => (Fragment.ty u).Plain) typeEnd t

/-- Arguments are separable from what may follow a path. -/
def GenericArgs.Readable (a : GenericArgs) : Prop :=
  Separable GenericArgs.chars (fun b => (Fragment.args b).Plain) pathEnd a

/-- A canonical path with arguments is separable from what may follow it. -/
def AppliedPath.Readable (p : AppliedPath) : Prop :=
  Separable AppliedPath.chars (fun q => (Fragment.applied q).Plain) pathEnd p

/-- A path is separable from what may follow it. -/
def Path.Readable (p : Path) : Prop :=
  Separable Path.chars (fun q => (Fragment.path q).Plain) pathEnd p

/-- Types and paths are separable; nothing is said of other fragments. -/
def Fragment.Readable : Fragment → Prop
  | .ty t => t.Readable
  | .args a => a.Readable
  | .applied p => p.Readable
  | .path p => p.Readable
  | .pattern _ | .kind _ | .body _ => True

/-- Two plain types whose texts start alike have the same form, so a type has to be
told only from types of its own form. -/
theorem Ty.readable_of_form {t : Ty} (ht : (Fragment.ty t).Plain)
    (h : ∀ u r s, t.form = u.form → (Fragment.ty u).Plain → typeEnd r = true → typeEnd s = true →
      t.chars ++ r = u.chars ++ s → t = u ∧ r = s) : t.Readable := by
  intro u r s hu hr hs heq
  refine h u r s ?_ hu hr hs heq
  have hform := Ty.form?_chars ht hr
  rw [heq, Ty.form?_chars hu hs] at hform
  exact (Option.some.inj hform).symm

theorem Ty.listEnd_chars {t : Ty} (ht : (Fragment.ty t).Plain) {rest : List Char}
    (hrest : typeEnd rest = true) : listEnd (t.chars ++ rest) = false := by
  refine Bool.eq_false_iff.mpr fun hend => ?_
  have hform := Ty.form?_chars ht hrest
  rw [form?_of_listEnd hend] at hform
  cases hform

section

variable {α : Type} {f : α → List Char} {ok : α → Prop}

/-- A list with commas ends at its bracket, if its members are separable as types are
and none of them starts with a bracket. -/
theorem separable_commas
    (hstart : ∀ a rest, ok a → typeEnd rest = true → listEnd (f a ++ rest) = false)
    {as : List α} (hok : ∀ a ∈ as, ok a) (has : ∀ a ∈ as, Separable f ok typeEnd a) :
    Separable (sepChars ", ".toList f) (fun bs => ∀ b ∈ bs, ok b) listEnd as := by
  refine Separable.joined (fun _ => rfl) (fun r hr => ⟨typeEnd_of_listEnd hr, ?_⟩) hstart hok has
  rintro ⟨rest, rfl⟩
  cases hr

end

theorem listEnd_tupleClose (ts : List Ty) (r : List Char) :
    listEnd (Text.tupleClose ts ++ r) = true := by
  rcases ts with _ | ⟨t, _ | ⟨u, ts⟩⟩ <;> rfl

theorem Ty.readable_infer (ht : (Fragment.ty .infer).Plain) : Ty.infer.Readable := by
  refine Ty.readable_of_form ht fun u r s hform _ _ _ h => ?_
  cases u with
  | infer => exact ⟨rfl, List.append_cancel_left h⟩
  | _ => cases hform

theorem Ty.readable_primitive {c : Scalar} (ht : (Fragment.ty (.primitive c)).Plain) :
    (Ty.primitive c).Readable := by
  refine Ty.readable_of_form ht fun u r s hform _ hr hs h => ?_
  cases u with
  | primitive d =>
    obtain ⟨hword, hrest⟩ := (isName_keyword c).separable d.keyword r s (isName_keyword d)
      (endsRun_of_typeEnd hr) (endsRun_of_typeEnd hs) h
    have hcd := congrArg Scalar.ofKeyword? hword
    rw [ofKeyword?_keyword, ofKeyword?_keyword] at hcd
    exact ⟨congrArg Ty.primitive (Option.some.inj hcd), hrest⟩
  | _ => cases hform

theorem Ty.readable_tuple {ts : List Ty} (ht : (Fragment.ty (.tuple ts)).Plain)
    (hts : ∀ t ∈ ts, t.Readable) : (Ty.tuple ts).Readable := by
  refine Ty.readable_of_form ht fun u r s hform hu _ _ h => ?_
  cases u with
  | tuple us =>
    rw [Ty.chars_tuple, Ty.chars_tuple, List.cons_append, List.cons_append, List.append_assoc,
      List.append_assoc] at h
    have hlist := separable_commas (fun t rest ht hrest => Ty.listEnd_chars ht hrest)
      (fun t hmem => ht.part (List.mem_map_of_mem hmem)) hts
    obtain ⟨rfl, hrest⟩ := hlist us _ _ (fun u hmem => hu.part (List.mem_map_of_mem hmem))
      (listEnd_tupleClose ts r) (listEnd_tupleClose us s) (List.cons.inj h).2
    exact ⟨rfl, List.append_cancel_left hrest⟩
  | _ => cases hform

/-- The word `mut` after the sign of a borrow does not start a type. -/
theorem Ty.readable_borrow {k : BorrowKind} {t : Ty} (ht : (Fragment.ty (.borrow k t)).Plain)
    (hinner : t.Readable) : (Ty.borrow k t).Readable := by
  have hmut : ∀ {t : Ty} {r rest}, (Fragment.ty t).Plain → typeEnd r = true →
      t.chars ++ r ≠ "mut ".toList ++ rest := by
    intro t r rest ht hr h
    have hform := Ty.form?_chars ht hr
    rw [h] at hform
    cases hform
  refine Ty.readable_of_form ht fun u r s hform hu hr hs h => ?_
  cases u with
  | borrow l u =>
    have ht' : (Fragment.ty t).Plain := ht.part List.mem_cons_self
    have hu' : (Fragment.ty u).Plain := hu.part List.mem_cons_self
    rw [Ty.chars_borrow, Ty.chars_borrow, List.append_assoc, List.append_assoc] at h
    cases k with
    | shared =>
      cases l with
      | shared =>
        obtain ⟨rfl, hrest⟩ := hinner u r s hu' hr hs (List.append_cancel_left h)
        exact ⟨rfl, hrest⟩
      | unique => exact absurd (List.cons.inj h).2 (hmut ht' hr)
    | unique =>
      cases l with
      | shared => exact absurd (List.cons.inj h).2.symm (hmut hu' hs)
      | unique =>
        obtain ⟨rfl, hrest⟩ := hinner u r s hu' hr hs (List.append_cancel_left h)
        exact ⟨rfl, hrest⟩
  | _ => cases hform

theorem Ty.readable_pointer {isMut : Bool} {t : Ty} (ht : (Fragment.ty (.pointer isMut t)).Plain)
    (hinner : t.Readable) : (Ty.pointer isMut t).Readable := by
  refine Ty.readable_of_form ht fun u r s hform hu hr hs h => ?_
  cases u with
  | pointer isMut' u =>
    rw [Ty.chars_pointer, Ty.chars_pointer, List.append_assoc, List.append_assoc] at h
    have hsign : isMut = isMut' := by
      cases isMut <;> cases isMut' <;> simp [pointerSign] at h ⊢
    subst hsign
    obtain ⟨rfl, hrest⟩ := hinner u r s (hu.part List.mem_cons_self) hr hs
      (List.append_cancel_left h)
    exact ⟨rfl, hrest⟩
  | _ => cases hform

theorem Ty.readable_array {t : Ty} {size : Option Body} (ht : (Fragment.ty (.array t size)).Plain)
    (hinner : t.Readable) : (Ty.array t size).Readable := by
  refine Ty.readable_of_form ht fun u r s hform hu _ _ h => ?_
  cases u with
  | array u size' =>
    have hsize : size = none := ht.here
    have hsize' : size' = none := hu.here
    subst hsize hsize'
    rw [Ty.chars_array, Ty.chars_array, List.cons_append, List.cons_append, List.append_assoc,
      List.append_assoc] at h
    obtain ⟨rfl, hrest⟩ := hinner u _ _ (hu.part List.mem_cons_self) rfl rfl (List.cons.inj h).2
    exact ⟨rfl, (List.cons.inj hrest).2⟩
  | _ => cases hform

theorem Ty.readable_path {p : Path} (ht : (Fragment.ty (.path p)).Plain)
    (hpath : p.Readable) : (Ty.path p).Readable := by
  refine Ty.readable_of_form ht fun u r s hform hu hr hs h => ?_
  cases u with
  | path q =>
    obtain ⟨rfl, hrest⟩ := hpath q r s (hu.part List.mem_cons_self) (pathEnd_of_typeEnd hr)
      (pathEnd_of_typeEnd hs) h
    exact ⟨rfl, hrest⟩
  | _ => cases hform

/-- The traits of an object end where a type ends: there no plus sign follows. -/
theorem Ty.readable_traitObject {ps : List AppliedPath}
    (ht : (Fragment.ty (.traitObject ps)).Plain) (hps : ∀ p ∈ ps, p.Readable) :
    (Ty.traitObject ps).Readable := by
  have hclose : ∀ r, typeEnd r = true → pathEnd r = true ∧ ¬ " + ".toList <+: r := by
    refine fun r hr => ⟨pathEnd_of_typeEnd hr, ?_⟩
    rintro ⟨rest, rfl⟩
    cases hr
  have hstart : ∀ (p : AppliedPath) rest, (Fragment.applied p).Plain → pathEnd rest = true →
      typeEnd (p.chars ++ rest) = false := by
    intro p rest _ _
    obtain ⟨tail, htail⟩ := p.chars_colons
    rw [htail]
    rfl
  refine Ty.readable_of_form ht fun u r s hform hu hr hs h => ?_
  cases u with
  | traitObject qs =>
    rw [Ty.chars_traitObject, Ty.chars_traitObject, List.append_assoc, List.append_assoc] at h
    obtain ⟨rfl, hrest⟩ := Separable.joined (fun _ => rfl) hclose hstart
      (fun p hmem => ht.part (List.mem_map_of_mem hmem)) hps qs r s
      (fun q hmem => hu.part (List.mem_map_of_mem hmem)) hr hs (List.append_cancel_left h)
    exact ⟨rfl, hrest⟩
  | _ => cases hform

theorem Ty.readable_param {name : String} {i : ParamIndex}
    (ht : (Fragment.ty (.param name i)).Plain) : (Ty.param name i).Readable := by
  have hcomment : ∀ (i : ParamIndex) rest, endsRun isNameChar (i.comment ++ rest) = true := by
    intro i rest
    cases i <;> rfl
  refine Ty.readable_of_form ht fun u r s hform hu _ _ h => ?_
  cases u with
  | param other j =>
    have hname : IsName name := ht.here
    have hother : IsName other := hu.here
    rw [Ty.chars_param, Ty.chars_param, List.append_assoc, List.append_assoc] at h
    obtain ⟨rfl, hrest⟩ := hname.separable other _ _ hother (hcomment i r) (hcomment j s) h
    obtain ⟨rfl, rfl⟩ := i.separable j r s trivial rfl rfl hrest
    exact ⟨rfl, rfl⟩
  | _ => cases hform

theorem abiHead_separable {abi : String} (habi : Unquoted abi) :
    Separable abiHead Unquoted (fun _ => true) abi := by
  intro abi' r s habi' _ _ h
  unfold abiHead at h
  by_cases ha : abi.isEmpty = true
  · by_cases ha' : abi'.isEmpty = true
    · rw [if_pos ha, if_pos ha'] at h
      exact ⟨(String.isEmpty_iff.mp ha).trans (String.isEmpty_iff.mp ha').symm,
        List.append_cancel_left h⟩
    · rw [if_pos ha, if_neg ha'] at h
      cases h
  · by_cases ha' : abi'.isEmpty = true
    · rw [if_neg ha, if_pos ha'] at h
      cases h
    · rw [if_neg ha, if_neg ha', List.append_assoc, List.append_assoc, List.append_assoc,
        List.append_assoc] at h
      obtain ⟨rfl, hrest⟩ := habi.separable abi' _ _ habi' rfl rfl (List.append_cancel_left h)
      exact ⟨rfl, List.append_cancel_left hrest⟩

/-- What a function type shows before its arguments tells whether it is unsafe and its
calling convention. -/
theorem functionHead_separable {isUnsafe isUnsafe' : Bool} {abi abi' : String}
    (habi : Unquoted abi) (habi' : Unquoted abi') {r s : List Char}
    (h : functionHead isUnsafe abi ++ r = functionHead isUnsafe' abi' ++ s) :
    isUnsafe = isUnsafe' ∧ abi = abi' ∧ r = s := by
  have hfirst : ∀ abi r rest, abiHead abi ++ r ≠ "unsafe ".toList ++ rest := by
    intro abi r rest h
    unfold abiHead at h
    cases habi : abi.isEmpty <;> simp [habi] at h
  cases isUnsafe with
  | false =>
    cases isUnsafe' with
    | false => exact ⟨rfl, abiHead_separable habi abi' r s habi' rfl rfl h⟩
    | true => exact absurd (h.trans (List.append_assoc _ _ _)) (hfirst _ _ _)
  | true =>
    cases isUnsafe' with
    | false => exact absurd (h.symm.trans (List.append_assoc _ _ _)) (hfirst _ _ _)
    | true =>
      change ("unsafe ".toList ++ abiHead abi) ++ r = ("unsafe ".toList ++ abiHead abi') ++ s at h
      rw [List.append_assoc, List.append_assoc] at h
      exact ⟨rfl, abiHead_separable habi abi' r s habi' rfl rfl (List.append_cancel_left h)⟩

theorem Ty.isUnit_iff {t : Ty} : t.isUnit = true ↔ t = .tuple [] := by
  unfold Ty.isUnit
  split <;> simp_all

/-- A result is separable as a type is: no type is followed by an arrow. -/
theorem resultChars_separable {ret : Ty} (hret : ret.Readable) :
    Separable resultChars (fun u => (Fragment.ty u).Plain) typeEnd ret := by
  have harrow : ∀ r rest, typeEnd r = true → r ≠ " -> ".toList ++ rest := by
    rintro r rest hr rfl
    cases hr
  intro u r s hu hr hs h
  unfold resultChars at h
  by_cases ht : ret.isUnit = true
  · by_cases hu' : u.isUnit = true
    · rw [if_pos ht, if_pos hu'] at h
      exact ⟨(Ty.isUnit_iff.mp ht).trans (Ty.isUnit_iff.mp hu').symm, h⟩
    · rw [if_pos ht, if_neg hu', List.append_assoc] at h
      exact absurd h (harrow r _ hr)
  · by_cases hu' : u.isUnit = true
    · rw [if_neg ht, if_pos hu', List.append_assoc] at h
      exact absurd h.symm (harrow s _ hs)
    · rw [if_neg ht, if_neg hu', List.append_assoc, List.append_assoc] at h
      exact hret u r s hu hr hs (List.append_cancel_left h)

theorem Ty.readable_function {isUnsafe : Bool} {abi : String} {args : List Ty} {ret : Ty}
    (ht : (Fragment.ty (.function isUnsafe abi args ret)).Plain)
    (hargs : ∀ t ∈ args, t.Readable) (hret : ret.Readable) :
    (Ty.function isUnsafe abi args ret).Readable := by
  have hpart : ∀ {isUnsafe abi args ret},
      (Fragment.ty (.function isUnsafe abi args ret)).Plain → ∀ t ∈ args, (Fragment.ty t).Plain :=
    fun h t hmem => h.part (List.mem_append_left _ (List.mem_map_of_mem hmem))
  refine Ty.readable_of_form ht fun u r s hform hu hr hs h => ?_
  cases u with
  | function isUnsafe' abi' args' ret' =>
    have hret' : (Fragment.ty ret').Plain :=
      hu.part (List.mem_append_right _ (List.mem_singleton_self _))
    rw [Ty.chars_function, Ty.chars_function, List.append_assoc, List.append_assoc,
      List.append_assoc, List.append_assoc] at h
    obtain ⟨rfl, rfl, hafter⟩ := functionHead_separable ht.here hu.here h
    have hlist := separable_commas (fun t rest ht hrest => Ty.listEnd_chars ht hrest) (hpart ht)
      hargs
    obtain ⟨rfl, hresult⟩ := hlist args' _ _ (hpart hu) rfl rfl hafter
    obtain ⟨rfl, rfl⟩ := resultChars_separable hret ret' r s hret' hr hs (List.cons.inj hresult).2
    exact ⟨rfl, rfl⟩
  | _ => cases hform

/-- An argument that is plain. -/
def PlainEntry : Ty ⊕ String × Ty → Prop
  | .inl t => (Fragment.ty t).Plain
  | .inr (name, t) => IsName name ∧ (Fragment.ty t).Plain

/-- The type of an argument. -/
def entryType : Ty ⊕ String × Ty → Ty
  | .inl t => t
  | .inr (_, t) => t

theorem entryChars_inr (name : String) (t : Ty) :
    entryChars (.inr (name, t)) = name.toList ++ '=' :: t.chars := by
  simp [entryChars, entryText, Ty.chars]

/-- An argument is separable if its type is: before an equals sign stands a name. -/
theorem entryChars_separable {e : Ty ⊕ String × Ty} (he : PlainEntry e)
    (htype : (entryType e).Readable) : Separable entryChars PlainEntry typeEnd e := by
  have hname : ∀ {t name u r s}, (Fragment.ty t).Plain → IsName name → typeEnd r = true →
      entryChars (.inl t) ++ r ≠ entryChars (.inr (name, u)) ++ s := by
    intro t name u r s ht hname hr h
    rw [entryChars_inr, List.append_assoc] at h
    have hform := Ty.form?_chars ht hr
    change t.chars ++ r = name.toList ++ '=' :: (u.chars ++ s) at h
    rw [h, form?_binding hname] at hform
    cases hform
  intro e' r s he' hr hs h
  rcases e with t | ⟨name, t⟩
  · rcases e' with u | ⟨name', u⟩
    · obtain ⟨rfl, hrest⟩ := htype u r s he' hr hs h
      exact ⟨rfl, hrest⟩
    · exact absurd h (hname he he'.1 hr)
  · rcases e' with u | ⟨name', u⟩
    · exact absurd h.symm (hname he' he.1 hs)
    · rw [entryChars_inr, entryChars_inr, List.append_assoc, List.append_assoc] at h
      obtain ⟨rfl, hbound⟩ := he.1.separable name' _ _ he'.1 rfl rfl h
      obtain ⟨rfl, hrest⟩ := htype u r s he'.2 hr hs (List.cons.inj hbound).2
      exact ⟨rfl, hrest⟩

theorem listEnd_entryChars {e : Ty ⊕ String × Ty} (he : PlainEntry e) {rest : List Char}
    (hrest : typeEnd rest = true) : listEnd (entryChars e ++ rest) = false := by
  rcases e with t | ⟨name, t⟩
  · exact Ty.listEnd_chars he hrest
  · refine Bool.eq_false_iff.mpr fun hend => ?_
    have hname := nameEnd_of_pathEnd (pathEnd_of_typeEnd (typeEnd_of_listEnd hend))
    rw [entryChars_inr, List.append_assoc, he.1.not_nameEnd] at hname
    cases hname

theorem GenericArgs.plain_entries {a : GenericArgs} (ha : (Fragment.args a).Plain) :
    ∀ e ∈ a.entries, PlainEntry e := by
  obtain ⟨ts, bs⟩ := a
  have hnames : ∀ b ∈ bs, IsName b.1 := ha.here
  refine List.forall_mem_append.mpr ⟨List.forall_mem_map.mpr fun t ht => ?_,
    List.forall_mem_map.mpr fun b hb => ⟨hnames b hb, ?_⟩⟩
  · exact ha.part (List.mem_append_left _ (List.mem_map_of_mem ht))
  · exact ha.part (List.mem_append_right _ (List.mem_map_of_mem hb))

theorem GenericArgs.readable {a : GenericArgs} (ha : (Fragment.args a).Plain)
    (htypes : ∀ e ∈ a.entries, (entryType e).Readable) : a.Readable := by
  have hplain := a.plain_entries ha
  have hlist := separable_commas (fun e rest he hrest => listEnd_entryChars he hrest) hplain
    fun e hmem => entryChars_separable (hplain e hmem) (htypes e hmem)
  intro b r s hb hr hs h
  rw [GenericArgs.chars_eq, GenericArgs.chars_eq] at h
  by_cases hnil : a.entries = []
  · by_cases hnil' : b.entries = []
    · rw [if_pos hnil, if_pos hnil'] at h
      exact ⟨GenericArgs.entries_injective (hnil.trans hnil'.symm), h⟩
    · rw [if_pos hnil, if_neg hnil', List.nil_append] at h
      subst h
      cases hr
  · by_cases hnil' : b.entries = []
    · rw [if_neg hnil, if_pos hnil', List.nil_append] at h
      subst h
      cases hs
    · rw [if_neg hnil, if_neg hnil', List.cons_append, List.cons_append, List.append_assoc,
        List.append_assoc] at h
      obtain ⟨hentries, hrest⟩ := hlist b.entries _ _ (b.plain_entries hb) rfl rfl
        (List.cons.inj h).2
      exact ⟨GenericArgs.entries_injective hentries, (List.cons.inj hrest).2⟩

theorem GenericArgs.nameEnd_chars (a : GenericArgs) {r : List Char} (hr : pathEnd r = true) :
    nameEnd (a.chars ++ r) = true := by
  rw [GenericArgs.chars_eq]
  split
  · exact nameEnd_of_pathEnd hr
  · rfl

theorem AppliedPath.readable {p : ItemPath} {a : GenericArgs}
    (hp : (Fragment.applied (.mk p a)).Plain) (hargs : a.Readable) :
    (AppliedPath.mk p a).Readable := by
  rintro ⟨q, b⟩ r s hq hr hs h
  rw [AppliedPath.chars_mk, AppliedPath.chars_mk, List.append_assoc, List.append_assoc] at h
  obtain ⟨rfl, hrest⟩ := ItemPath.separable hp.here q _ _ hq.here (a.nameEnd_chars hr)
    (b.nameEnd_chars hs) h
  obtain ⟨rfl, rfl⟩ := hargs b r s (hq.part List.mem_cons_self) hr hs hrest
  exact ⟨rfl, rfl⟩

/-- A trait is named after `as`, and the path it qualifies after the bracket. -/
theorem traitChars_separable {trait : Option AppliedPath} (htrait : ∀ p ∈ trait, p.Readable) :
    Separable traitChars (fun q => ∀ p ∈ q, (Fragment.applied p).Plain) (·.head? == some '>')
      trait := by
  have hend : ∀ {r : List Char}, (r.head? == some '>') = true → pathEnd r = true := by
    intro r hr
    cases r with
    | nil => cases hr
    | cons c r =>
      have hc : c = '>' := by simpa using hr
      subst hc
      rfl
  have has : ∀ p {r rest}, (r.head? == some '>') = true → r ≠ traitChars (some p) ++ rest := by
    rintro p r rest hr rfl
    cases hr
  intro trait' r s hplain hr hs h
  cases trait with
  | none =>
    cases trait' with
    | none => exact ⟨rfl, h⟩
    | some q => exact absurd h (has q hr)
  | some p =>
    cases trait' with
    | none => exact absurd h.symm (has p hs)
    | some q =>
      rw [traitChars, traitChars, List.append_assoc, List.append_assoc] at h
      obtain ⟨rfl, hrest⟩ := htrait p rfl q r s (hplain q rfl) (hend hr) (hend hs)
        (List.append_cancel_left h)
      exact ⟨rfl, hrest⟩

theorem Path.readable_plain {p : AppliedPath} (hp : p.Readable) : (Path.plain p).Readable := by
  intro q r s hq hr hs h
  cases q with
  | plain q =>
    obtain ⟨rfl, hrest⟩ := hp q r s (hq.part List.mem_cons_self) hr hs h
    exact ⟨rfl, hrest⟩
  | qualified self trait item a =>
    obtain ⟨rest, hrest⟩ := p.chars_colons
    change p.chars ++ r = _ at h
    rw [hrest, Path.chars_qualified] at h
    cases h

theorem Path.readable_qualified {self : Ty} {trait : Option AppliedPath} {item : String}
    {a : GenericArgs} (hp : (Fragment.path (.qualified self trait item a)).Plain)
    (hself : self.Readable) (htrait : ∀ p ∈ trait, p.Readable) (hargs : a.Readable) :
    (Path.qualified self trait item a).Readable := by
  have htype : ∀ (trait : Option AppliedPath) rest,
      typeEnd (traitChars trait ++ (">::".toList ++ rest)) = true := by
    intro trait rest
    cases trait <;> rfl
  intro q r s hq hr hs h
  cases q with
  | plain q =>
    obtain ⟨rest, hrest⟩ := q.chars_colons
    change _ = q.chars ++ s at h
    rw [hrest, Path.chars_qualified] at h
    cases h
  | qualified self' trait' item' b =>
    have hitem : IsName item := hp.here
    have hitem' : IsName item' := hq.here
    have hself' : (Fragment.ty self').Plain := hq.part List.mem_cons_self
    have hargs' : (Fragment.args b).Plain := hq.part (List.mem_cons_of_mem _ List.mem_cons_self)
    have htrait' : ∀ p ∈ trait', (Fragment.applied p).Plain := by
      rintro p hmem
      have hlist : p ∈ trait'.toList := Option.mem_toList.mpr hmem
      exact hq.part (List.mem_cons_of_mem _ (List.mem_cons_of_mem _ (List.mem_map_of_mem hlist)))
    simp only [Path.chars_qualified, List.cons_append, List.append_assoc, List.cons.injEq,
      true_and] at h
    obtain ⟨rfl, hsome⟩ := hself self' _ _ hself' (htype trait _) (htype trait' _) h
    obtain ⟨rfl, hafter⟩ := traitChars_separable htrait trait' _ _ htrait' rfl rfl hsome
    obtain ⟨rfl, hrest⟩ := hitem.separable item' _ _ hitem'
      (endsRun_of_nameEnd (a.nameEnd_chars hr)) (endsRun_of_nameEnd (b.nameEnd_chars hs))
      (List.append_cancel_left hafter)
    obtain ⟨rfl, rfl⟩ := hargs b r s hargs' hr hs hrest
    exact ⟨rfl, rfl⟩

/-- A plain fragment is separable, by induction on the fragment: its parts are plain
fragments, and what stands after each of them may follow it. -/
theorem Fragment.readable (f : Fragment) : f.Plain → f.Readable := by
  refine Fragment.induction (M := fun f => f.Plain → f.Readable) ?_ f
  intro f ih hf
  have hparts : ∀ g ∈ f.parts, g.Readable := fun g hg => ih g hg (hf.part hg)
  cases f with
  | ty t =>
    cases t with
    | infer => exact Ty.readable_infer hf
    | primitive c => exact Ty.readable_primitive hf
    | tuple ts => exact Ty.readable_tuple hf fun t ht => hparts _ (List.mem_map_of_mem ht)
    | borrow k t => exact Ty.readable_borrow hf (hparts _ List.mem_cons_self)
    | pointer m t => exact Ty.readable_pointer hf (hparts _ List.mem_cons_self)
    | array t size => exact Ty.readable_array hf (hparts _ List.mem_cons_self)
    | path p => exact Ty.readable_path hf (hparts _ List.mem_cons_self)
    | traitObject ps =>
      exact Ty.readable_traitObject hf fun p hp => hparts _ (List.mem_map_of_mem hp)
    | function u abi args ret =>
      obtain ⟨hargs, hret⟩ := List.forall_mem_append.mp hparts
      exact Ty.readable_function hf (fun t ht => hargs _ (List.mem_map_of_mem ht))
        (hret _ List.mem_cons_self)
    | param name i => exact Ty.readable_param hf
  | args a =>
    obtain ⟨ts, bs⟩ := a
    obtain ⟨htypes, hbindings⟩ := List.forall_mem_append.mp hparts
    refine GenericArgs.readable hf (List.forall_mem_append.mpr ⟨?_, ?_⟩)
    · exact List.forall_mem_map.mpr fun t ht => htypes _ (List.mem_map_of_mem ht)
    · exact List.forall_mem_map.mpr fun b hb => hbindings _ (List.mem_map_of_mem hb)
  | applied p =>
    obtain ⟨p, a⟩ := p
    exact AppliedPath.readable hf (hparts _ List.mem_cons_self)
  | path p =>
    cases p with
    | plain p => exact Path.readable_plain (hparts _ List.mem_cons_self)
    | qualified self trait item a =>
      obtain ⟨hself, hrest⟩ := List.forall_mem_cons.mp hparts
      obtain ⟨hargs, htrait⟩ := List.forall_mem_cons.mp hrest
      refine Path.readable_qualified hf hself (fun p hmem => ?_) hargs
      exact htrait _ (List.mem_map_of_mem (Option.mem_toList.mpr hmem))
  | pattern _ | kind _ | body _ => trivial

/-- At the end of a text nothing follows. -/
theorem eq_of_text {α : Type} {text : α → String} {ok : α → Prop} {follow : List Char → Bool}
    {a b : α} (ha : Separable (fun a => (text a).toList) ok follow a) (hnil : follow [] = true)
    (hb : ok b) (h : text a = text b) : a = b :=
  (ha b [] [] hb hnil hnil (congrArg (fun t => t.toList ++ []) h)).1

/-- Plain types with the same text are equal, and so are plain paths, canonical paths
with arguments and canonical paths. -/
theorem plain_text_injective :
    (∀ t u : Ty, (Fragment.ty t).Plain → (Fragment.ty u).Plain → t.text = u.text → t = u) ∧
    (∀ p q : Path, (Fragment.path p).Plain → (Fragment.path q).Plain → p.text = q.text → p = q) ∧
    (∀ p q : AppliedPath, (Fragment.applied p).Plain → (Fragment.applied q).Plain →
      p.text = q.text → p = q) ∧
    (∀ p q : ItemPath, p.Plain → q.Plain → p.text = q.text → p = q) := by
  refine ⟨fun t u ht hu h => ?_, fun p q hp hq h => ?_, fun p q hp hq h => ?_,
    fun p q hp hq h => ?_⟩
  · exact eq_of_text (Fragment.readable (.ty t) ht) rfl hu h
  · exact eq_of_text (Fragment.readable (.path p) hp) rfl hq h
  · exact eq_of_text (Fragment.readable (.applied p) hp) rfl hq h
  · exact eq_of_text (ItemPath.separable hp) rfl hq h

theorem noArgs_plain : (Fragment.args (.mk [] [])).Plain :=
  .of_parts (List.forall_mem_nil _) (List.forall_mem_nil _)

/-- A trait of the local crate, without arguments. -/
def localTrait (name : String) : AppliedPath := .mk ⟨"", [name]⟩ (.mk [] [])

theorem localTrait_plain {name : String} (h : IsName name) :
    (Fragment.applied (localTrait name)).Plain :=
  .of_parts ⟨List.forall_mem_nil _, List.forall_mem_singleton.mpr h⟩
    (List.forall_mem_singleton.mpr noArgs_plain)

/-- An item of an object of traits, looked up through a trait if one is given. -/
def objectItem (traits : List AppliedPath) (through : Option AppliedPath) : Ty :=
  .path (.qualified (.traitObject traits) through "x" (.mk [] []))

theorem objectItem_plain {traits : List AppliedPath} {through : Option AppliedPath}
    (htraits : ∀ p ∈ traits, (Fragment.applied p).Plain)
    (hthrough : ∀ p ∈ through.toList, (Fragment.applied p).Plain) :
    (Fragment.ty (objectItem traits through)).Plain := by
  have hself : (Fragment.ty (.traitObject traits)).Plain :=
    .of_parts trivial (List.forall_mem_map.mpr htraits)
  refine .of_parts trivial (List.forall_mem_singleton.mpr (.of_parts ?_ ?_))
  · exact IsName.of_all rfl rfl
  · exact List.forall_mem_cons.mpr
      ⟨hself, List.forall_mem_cons.mpr ⟨noArgs_plain, List.forall_mem_map.mpr hthrough⟩⟩

/-- An item of `dyn A` looked up through `B` and an item of `dyn A + B` have different
texts. -/
theorem objectItems_told_apart :
    (Fragment.ty (objectItem [localTrait "A"] (some (localTrait "B")))).Plain ∧
    (Fragment.ty (objectItem [localTrait "A", localTrait "B"] none)).Plain ∧
    (objectItem [localTrait "A"] (some (localTrait "B"))).text ≠
      (objectItem [localTrait "A", localTrait "B"] none).text := by
  have ha : (Fragment.applied (localTrait "A")).Plain := localTrait_plain (.of_all rfl rfl)
  have hb : (Fragment.applied (localTrait "B")).Plain := localTrait_plain (.of_all rfl rfl)
  have hthrough : (Fragment.ty (objectItem [localTrait "A"] (some (localTrait "B")))).Plain :=
    objectItem_plain (List.forall_mem_singleton.mpr ha) (List.forall_mem_singleton.mpr hb)
  have hboth : (Fragment.ty (objectItem [localTrait "A", localTrait "B"] none)).Plain :=
    objectItem_plain (List.forall_mem_cons.mpr ⟨ha, List.forall_mem_singleton.mpr hb⟩)
      (List.forall_mem_nil _)
  refine ⟨hthrough, hboth, fun h => ?_⟩
  cases plain_text_injective.1 _ _ hthrough hboth h

end Lowering.Core
