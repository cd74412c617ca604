import Lowering.Attribute
import Lowering.Proofs.TypeText

/-!
# Attributes and their texts

Two attributes are equal if they are written alike; the marks of the passes that
read them do not count. For attributes whose names are names and whose strings have
no quote, being written alike is having the same text: the text shows where every
name, string and list in it ends.

What is proved:
  1. `Attribute.beq_iff`, `Attribute.text_unmarked`: equality and text are those of
     the attribute without its marks.
  2. `Attribute.separable`: the text of a plain attribute determines what is written,
     and where it ends.
Main statement: `attribute_text_eq_iff`.
-/

namespace Lowering

open Lowering.Core (IsName Unquoted isNameChar)
open Text (Separable endsRun sepChars)

/-! ## Marks -/

mutual

/-- The attribute as it is written, with no mark anywhere in it. -/
def Attribute.unmarked : Attribute → Attribute
  | .mk name data _ => .mk name data.unmarked false

/-- What stands after the name, with no mark anywhere in it. -/
def AttributeData.unmarked : AttributeData → AttributeData
  | .bare => .bare
  | .string value => .string value
  | .list items => .list (Attribute.unmarkedAll items)

/-- The attributes of a sequence, with no mark anywhere in them. -/
def Attribute.unmarkedAll : List Attribute → List Attribute
  | [] => []
  | a :: as => a.unmarked :: Attribute.unmarkedAll as

end

mutual

theorem Attribute.beq_iff : ∀ a b : Attribute, a.beq b = true ↔ a.unmarked = b.unmarked
  | .mk n d _, .mk m e _ => by
    simp [Attribute.beq, Attribute.unmarked, AttributeData.beq_iff d e]

theorem AttributeData.beq_iff : ∀ d e : AttributeData, d.beq e = true ↔ d.unmarked = e.unmarked
  | .list as, .list bs => by
    simp [AttributeData.beq, AttributeData.unmarked, Attribute.beqAll_iff as bs]
  | .bare, .bare | .string _, .string _ => by simp [AttributeData.beq, AttributeData.unmarked]
  | .bare, .string _ | .bare, .list _ | .string _, .bare | .string _, .list _ | .list _, .bare
  | .list _, .string _ => by simp [AttributeData.beq, AttributeData.unmarked]

theorem Attribute.beqAll_iff : ∀ as bs : List Attribute,
    Attribute.beqAll as bs = true ↔ Attribute.unmarkedAll as = Attribute.unmarkedAll bs
  | [], [] | [], _ :: _ | _ :: _, [] => by simp [Attribute.beqAll, Attribute.unmarkedAll]
  | a :: as, b :: bs => by
    simp [Attribute.beqAll, Attribute.unmarkedAll, Attribute.beq_iff a b,
      Attribute.beqAll_iff as bs]

end

theorem Attribute.unmarkedAll_eq (as : List Attribute) :
    Attribute.unmarkedAll as = as.map Attribute.unmarked := by
  induction as with
  | nil => rfl
  | cons a as ih => rw [Attribute.unmarkedAll, ih, List.map_cons]

theorem Attribute.texts_eq (as : List Attribute) : Attribute.texts as = as.map Attribute.text := by
  induction as with
  | nil => rfl
  | cons a as ih => rw [Attribute.texts, ih, List.map_cons]

/-- Sequences are compared member by member. -/
theorem Attribute.list_beq_iff (as bs : List Attribute) :
    (as == bs) = true ↔ Attribute.unmarkedAll as = Attribute.unmarkedAll bs := by
  induction as generalizing bs with
  | nil => cases bs <;> simp [Attribute.unmarkedAll]
  | cons a as ih =>
    cases bs with
    | nil => simp [Attribute.unmarkedAll]
    | cons b bs =>
      have hab : (a == b) = true ↔ a.unmarked = b.unmarked := Attribute.beq_iff a b
      simp [Attribute.unmarkedAll, hab, ih]

mutual

theorem Attribute.text_unmarked : ∀ a : Attribute, a.unmarked.text = a.text
  | .mk n d _ => by
    simp [Attribute.unmarked, Attribute.text, AttributeData.text_unmarked d]

theorem AttributeData.text_unmarked : ∀ d : AttributeData, d.unmarked.text = d.text
  | .bare | .string _ => rfl
  | .list items => by
    simp [AttributeData.unmarked, AttributeData.text, Attribute.texts_unmarkedAll items]

theorem Attribute.texts_unmarkedAll : ∀ as : List Attribute,
    Attribute.texts (Attribute.unmarkedAll as) = Attribute.texts as
  | [] => rfl
  | a :: as => by
    simp [Attribute.unmarkedAll, Attribute.texts, Attribute.text_unmarked a,
      Attribute.texts_unmarkedAll as]

end

/-! ## Plain attributes -/

/-- Every name in the attribute is a name and no string has a quote, at any depth. -/
inductive Attribute.Plain : Attribute → Prop
  | bare {name : String} {used : Bool} : IsName name → Plain (.mk name .bare used)
  | string {name value : String} {used : Bool} : IsName name → Unquoted value →
      Plain (.mk name (.string value) used)
  | list {name : String} {items : List Attribute} {used : Bool} : IsName name →
      (∀ a ∈ items, Plain a) → Plain (.mk name (.list items) used)

/-- An attribute as it is written, with the bounds on names and strings. -/
structure Attribute.Written (a : Attribute) : Prop where
  plain : a.Plain
  unmarked : a.unmarked = a

theorem Attribute.Plain.unmarked {a : Attribute} (h : a.Plain) : a.unmarked.Plain := by
  induction h with
  | bare hname => exact .bare hname
  | string hname hvalue => exact .string hname hvalue
  | list hname _ ih =>
    refine .list hname ?_
    rw [Attribute.unmarkedAll_eq]
    exact List.forall_mem_map.mpr ih

theorem Attribute.unmarked_unmarked {a : Attribute} (h : a.Plain) :
    a.unmarked.unmarked = a.unmarked := by
  induction h with
  | bare => rfl
  | string => rfl
  | @list name items _ _ _ ih =>
    have hitems : Attribute.unmarkedAll (Attribute.unmarkedAll items) =
        Attribute.unmarkedAll items := by
      simp only [Attribute.unmarkedAll_eq, List.map_map]
      exact List.map_congr_left ih
    simp [Attribute.unmarked, AttributeData.unmarked, hitems]

theorem Attribute.Plain.written {a : Attribute} (h : a.Plain) : a.unmarked.Written :=
  ⟨h.unmarked, Attribute.unmarked_unmarked h⟩

/-- The members of a list are written as the list is. -/
theorem Attribute.Written.items {name : String} {items : List Attribute} {used : Bool}
    (h : (Attribute.mk name (.list items) used).Written) : ∀ a ∈ items, a.Written := by
  obtain ⟨hplain, hmark⟩ := h
  have hself : items.map Attribute.unmarked = items := by
    rw [← Attribute.unmarkedAll_eq]
    injection hmark with _ hdata _
    injection hdata
  cases hplain with
  | list _ hitems =>
    refine fun a ha => ⟨hitems a ha, ?_⟩
    exact List.map_inj_left.mp (hself.trans (List.map_id items).symm) a ha

theorem Attribute.Written.used {name : String} {data : AttributeData} {used : Bool}
    (h : (Attribute.mk name data used).Written) : used = false := by
  have hmark := h.unmarked
  injection hmark with _ _ hused
  exact hused.symm

/-! ## Texts as characters -/

/-- The text of an attribute as characters. -/
def Attribute.chars (a : Attribute) : List Char := a.text.toList

/-- The text of what stands after the name as characters. -/
def AttributeData.chars : AttributeData → List Char
  | .bare => []
  | .string value => '=' :: '"' :: (value.toList ++ ['"'])
  | .list items => '(' :: (sepChars ", ".toList Attribute.chars items ++ [')'])

theorem AttributeData.toList_text (d : AttributeData) : d.text.toList = d.chars := by
  cases d with
  | bare => rfl
  | string value => simp [AttributeData.text, AttributeData.chars]
  | list items =>
    have hjoined : (Text.joined ", " (items.map Attribute.text)).toList =
        sepChars ", ".toList Attribute.chars items := Text.toList_joined ", " Attribute.text items
    simp [AttributeData.text, AttributeData.chars, Attribute.texts_eq, hjoined]

theorem Attribute.chars_mk (name : String) (data : AttributeData) (used : Bool) :
    (Attribute.mk name data used).chars = name.toList ++ data.chars := by
  rw [Attribute.chars, Attribute.text, String.toList_append, AttributeData.toList_text]

theorem Attributes.toList_text (as : Attributes) :
    as.text.toList = '[' :: (sepChars ", ".toList Attribute.chars as.items ++ [']']) := by
  have hjoined : (Text.joined ", " (as.items.map Attribute.text)).toList =
      sepChars ", ".toList Attribute.chars as.items :=
    Text.toList_joined ", " Attribute.text as.items
  simp [Attributes.text, Attribute.texts_eq, hjoined]

/-! ## What may follow -/

/-- What may follow an attribute. -/
def attributeEnd : List Char → Bool
  | [] => true
  | c :: _ => [',', ')', ']'].contains c

/-- The end of a list of attributes. -/
def attributesEnd : List Char → Bool
  | ')' :: _ | ']' :: _ => true
  | _ => false

theorem attributeEnd_of_attributesEnd {r : List Char} (h : attributesEnd r = true) :
    attributeEnd r = true := by
  unfold attributesEnd at h
  split at h
  · rfl
  · rfl
  · cases h

/-- The name of an attribute ends where the rest of it starts. -/
theorem AttributeData.endsRun_chars (d : AttributeData) {r : List Char}
    (hr : attributeEnd r = true) : endsRun isNameChar (d.chars ++ r) = true := by
  cases d with
  | bare =>
    cases r with
    | nil => rfl
    | cons c r =>
      have hc : c = ',' ∨ c = ')' ∨ c = ']' := by simpa [attributeEnd] using hr
      rcases hc with rfl | rfl | rfl <;> rfl
  | string value => rfl
  | list items => rfl

/-- A name does not start where a list ends. -/
theorem Attribute.Plain.not_attributesEnd {a : Attribute} (h : a.Plain) (rest : List Char) :
    attributesEnd (a.chars ++ rest) = false := by
  have hname : ∃ name tail, IsName name ∧ a.chars = name.toList ++ tail := by
    cases h with
    | bare hname => exact ⟨_, _, hname, Attribute.chars_mk _ _ _⟩
    | string hname _ => exact ⟨_, _, hname, Attribute.chars_mk _ _ _⟩
    | list hname _ => exact ⟨_, _, hname, Attribute.chars_mk _ _ _⟩
  obtain ⟨name, tail, hname, hchars⟩ := hname
  rw [hchars, List.append_assoc]
  refine Bool.eq_false_iff.mpr fun hend => ?_
  have hrun := Text.endsRun_run (r := tail ++ rest) hname.nonempty hname.chars
  unfold attributesEnd at hend
  split at hend
  · next heq => rw [heq] at hrun; cases hrun
  · next heq => rw [heq] at hrun; cases hrun
  · cases hend

/-! ## Separable texts -/

theorem separable_attributes {as : List Attribute} (has : ∀ a ∈ as, a.Written)
    (hsep : ∀ a ∈ as, Separable Attribute.chars Attribute.Written attributeEnd a) :
    Separable (sepChars ", ".toList Attribute.chars) (fun bs => ∀ b ∈ bs, b.Written)
      attributesEnd as := by
  refine Separable.joined (fun _ => rfl) (fun r hr => ⟨attributeEnd_of_attributesEnd hr, ?_⟩)
    (fun b rest hb _ => hb.plain.not_attributesEnd rest) has hsep
  rintro ⟨rest, rfl⟩
  cases hr

/-- Attributes whose texts start alike have the same name, and go on alike after it. -/
theorem Attribute.name_of_chars {name name' : String} {data data' : AttributeData}
    {used used' : Bool} (hname : IsName name) (hname' : IsName name') {r s : List Char}
    (hr : attributeEnd r = true) (hs : attributeEnd s = true)
    (h : (Attribute.mk name data used).chars ++ r = (Attribute.mk name' data' used').chars ++ s) :
    name = name' ∧ data.chars ++ r = data'.chars ++ s := by
  rw [Attribute.chars_mk, Attribute.chars_mk, List.append_assoc, List.append_assoc] at h
  exact hname.separable name' _ _ hname' (data.endsRun_chars hr) (data'.endsRun_chars hs) h

/-- A written attribute is separable: its name ends where no name goes on, and the
character after it tells whether a string, a list or nothing follows. -/
theorem Attribute.separable {a : Attribute} (ha : a.Plain) :
    a.Written → Separable Attribute.chars Attribute.Written attributeEnd a := by
  -- by induction on the nesting: the members of a list are separable before the list is
  induction ha with
  | bare hname =>
    intro ha b r s hb hr hs h
    obtain rfl := ha.used
    cases hb.plain with
    | bare hname' =>
      obtain rfl := hb.used
      obtain ⟨rfl, hrest⟩ := Attribute.name_of_chars hname hname' hr hs h
      exact ⟨rfl, hrest⟩
    | string hname' _ | list hname' _ =>
      obtain ⟨-, hrest⟩ := Attribute.name_of_chars hname hname' hr hs h
      have hfirst : r = _ := hrest
      rw [hfirst] at hr
      cases hr
  | string hname hvalue =>
    intro ha b r s hb hr hs h
    obtain rfl := ha.used
    cases hb.plain with
    | string hname' hvalue' =>
      obtain rfl := hb.used
      obtain ⟨rfl, hrest⟩ := Attribute.name_of_chars hname hname' hr hs h
      simp only [AttributeData.chars, List.cons_append, List.append_assoc, List.cons.injEq,
        true_and] at hrest
      obtain ⟨rfl, hquote⟩ := hvalue.separable _ _ _ hvalue' rfl rfl hrest
      exact ⟨rfl, (List.cons.inj hquote).2⟩
    | bare hname' =>
      obtain ⟨-, hrest⟩ := Attribute.name_of_chars hname hname' hr hs h
      have hfirst : _ = s := hrest
      rw [← hfirst] at hs
      cases hs
    | list hname' _ =>
      obtain ⟨-, hrest⟩ := Attribute.name_of_chars hname hname' hr hs h
      cases hrest
  | list hname _ ih =>
    intro ha b r s hb hr hs h
    have hitems := ha.items
    have hlist := separable_attributes hitems fun a hmem => ih a hmem (hitems a hmem)
    obtain rfl := ha.used
    cases hb.plain with
    | list hname' _ =>
      have hitems' := hb.items
      obtain rfl := hb.used
      obtain ⟨rfl, hrest⟩ := Attribute.name_of_chars hname hname' hr hs h
      simp only [AttributeData.chars, List.cons_append, List.append_assoc, List.cons.injEq,
        true_and] at hrest
      obtain ⟨rfl, hclose⟩ := hlist _ _ _ hitems' rfl rfl hrest
      exact ⟨rfl, (List.cons.inj hclose).2⟩
    | bare hname' =>
      obtain ⟨-, hrest⟩ := Attribute.name_of_chars hname hname' hr hs h
      have hfirst : _ = s := hrest
      rw [← hfirst] at hs
      cases hs
    | string hname' _ =>
      obtain ⟨-, hrest⟩ := Attribute.name_of_chars hname hname' hr hs h
      cases hrest

/-! ## Equality by text -/

theorem Attribute.unmarked_eq_of_text {a b : Attribute} (ha : a.Plain) (hb : b.Plain)
    (h : a.text = b.text) : a.unmarked = b.unmarked := by
  rw [← a.text_unmarked, ← b.text_unmarked] at h
  have hchars : a.unmarked.chars ++ [] = b.unmarked.chars ++ [] :=
    congrArg (fun t => t.toList ++ []) h
  exact (Attribute.separable ha.unmarked ha.written b.unmarked [] [] hb.written rfl rfl hchars).1

theorem Attributes.unmarkedAll_eq_of_text {as bs : Attributes} (ha : ∀ a ∈ as.items, a.Plain)
    (hb : ∀ b ∈ bs.items, b.Plain) (h : as.text = bs.text) :
    Attribute.unmarkedAll as.items = Attribute.unmarkedAll bs.items := by
  have hwritten : ∀ {cs : Attributes}, (∀ c ∈ cs.items, c.Plain) →
      ∀ c ∈ Attribute.unmarkedAll cs.items, c.Written := by
    intro cs hcs
    rw [Attribute.unmarkedAll_eq]
    exact List.forall_mem_map.mpr fun c hc => (hcs c hc).written
  -- the brackets hold the text of the attributes without their marks
  have hshown : ∀ cs : Attributes, cs.text.toList =
      '[' :: (sepChars ", ".toList Attribute.chars (Attribute.unmarkedAll cs.items) ++ [']']) := by
    intro cs
    have htext : (Attributes.mk cs.span (Attribute.unmarkedAll cs.items)).text = cs.text := by
      simp [Attributes.text, Attribute.texts_unmarkedAll]
    rw [← htext, Attributes.toList_text]
  have hchars := congrArg String.toList h
  rw [hshown as, hshown bs] at hchars
  have hitems := hwritten ha
  have hlist := separable_attributes hitems fun a hmem =>
    Attribute.separable (hitems a hmem).plain (hitems a hmem)
  exact (hlist _ _ _ (hwritten hb) rfl rfl (List.cons.inj hchars).2).1

/-- For attributes whose names are names and whose strings have no quote, having the
same text is being equal, for lists and for single attributes, whatever their marks
and places. So a bare name, a string and lists of different lengths have different
texts. -/
theorem attribute_text_eq_iff :
    (∀ as bs : Attributes, (∀ a ∈ as.items, a.Plain) → (∀ b ∈ bs.items, b.Plain) →
      (as.text = bs.text ↔ (as.items == bs.items) = true)) ∧
    (∀ a b : Attribute, a.Plain → b.Plain → (a.text = b.text ↔ (a == b) = true)) ∧
    (∀ a b : Attribute, a.Plain → b.Plain → a.text = b.text → a.isBare = b.isBare ∧
      a.string? = b.string? ∧ a.items?.map List.length = b.items?.map List.length) := by
  refine ⟨fun as bs has hbs => ?_, fun a b ha hb => ?_, fun a b ha hb h => ?_⟩
  · rw [Attribute.list_beq_iff]
    refine ⟨Attributes.unmarkedAll_eq_of_text has hbs, fun h => ?_⟩
    rw [Attributes.text, Attributes.text, ← Attribute.texts_unmarkedAll as.items, h,
      Attribute.texts_unmarkedAll]
  · show a.text = b.text ↔ a.beq b = true
    rw [Attribute.beq_iff]
    refine ⟨Attribute.unmarked_eq_of_text ha hb, fun h => ?_⟩
    rw [← a.text_unmarked, h, b.text_unmarked]
  · have hsame := Attribute.unmarked_eq_of_text ha hb h
    have hshape : ∀ c : Attribute, c.unmarked.isBare = c.isBare ∧ c.unmarked.string? = c.string? ∧
        c.unmarked.items?.map List.length = c.items?.map List.length := by
      rintro ⟨name, data, used⟩
      cases data with
      | bare => exact ⟨rfl, rfl, rfl⟩
      | string value => exact ⟨rfl, rfl, rfl⟩
      | list items =>
        refine ⟨rfl, rfl, ?_⟩
        show some (Attribute.unmarkedAll items).length = some items.length
        rw [Attribute.unmarkedAll_eq, List.length_map]
    obtain ⟨hbare, hstring, hitems⟩ := hshape a
    obtain ⟨hbare', hstring', hitems'⟩ := hshape b
    rw [← hbare, ← hstring, ← hitems, hsame]
    exact ⟨hbare', hstring', hitems'⟩

/-- The attribute `feature="a), b="`, whose string looks like the end of a list. -/
def trickyFeature (used : Bool) : Attribute := .mk "feature" (.string "a), b=") used

/-- The list `[cfg(all(unix, feature="a), b="))]`. -/
def featureInside (used : Bool) : Attributes :=
  { items := [.mk "cfg" (.list [.mk "all" (.list [.mk "unix" .bare used, trickyFeature used]) used])
      false] }

/-- The list `[cfg(all(unix), feature="a), b=")]`. -/
def featureBeside : Attributes :=
  { items := [.mk "cfg" (.list [.mk "all" (.list [.mk "unix" .bare false]) false,
      trickyFeature false]) false] }

theorem trickyFeature_plain (used : Bool) : (trickyFeature used).Plain :=
  .string (.of_all rfl rfl) (List.all_eq_true.mp rfl)

theorem unix_plain (used : Bool) : (Attribute.mk "unix" .bare used).Plain :=
  .bare (.of_all rfl rfl)

theorem featureInside_plain (used : Bool) : ∀ a ∈ (featureInside used).items, a.Plain := by
  have hall : (Attribute.mk "all" (.list [.mk "unix" .bare used, trickyFeature used]) used).Plain :=
    .list (.of_all rfl rfl) (List.forall_mem_cons.mpr
      ⟨unix_plain used, List.forall_mem_singleton.mpr (trickyFeature_plain used)⟩)
  exact List.forall_mem_singleton.mpr
    (.list (.of_all rfl rfl) (List.forall_mem_singleton.mpr hall))

theorem featureBeside_plain : ∀ a ∈ featureBeside.items, a.Plain := by
  have hall : (Attribute.mk "all" (.list [.mk "unix" .bare false]) false).Plain :=
    .list (.of_all rfl rfl) (List.forall_mem_singleton.mpr (unix_plain false))
  exact List.forall_mem_singleton.mpr (.list (.of_all rfl rfl) (List.forall_mem_cons.mpr
    ⟨hall, List.forall_mem_singleton.mpr (trickyFeature_plain false)⟩))

/-- A feature inside `all` and one beside it are told apart, and marks change nothing. -/
theorem features_told_apart :
    (∀ a ∈ (featureInside true).items, a.Plain) ∧ (∀ a ∈ featureBeside.items, a.Plain) ∧
    (featureInside true).text = (featureInside false).text ∧
    (featureInside true).text ≠ featureBeside.text := by
  obtain ⟨hlists, -, -⟩ := attribute_text_eq_iff
  refine ⟨featureInside_plain true, featureBeside_plain, ?_, fun h => ?_⟩
  · exact (hlists _ _ (featureInside_plain true) (featureInside_plain false)).mpr rfl
  · cases (hlists _ _ (featureInside_plain true) featureBeside_plain).mp h

end Lowering
