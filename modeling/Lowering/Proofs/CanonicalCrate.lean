import Lowering.Proofs.BottomUp
import Lowering.Proofs.Canonical
import Lowering.Proofs.Coherence
import Lowering.Proofs.MacroTable
import Lowering.Proofs.NameMap

/-!
# Canonical crates

A lowered crate is in canonical form everywhere: in its modules at any depth, in
their items, and in the generics, bounds and fragments of those. `Form` puts all of
these into one type, `Form.parts` lists what stands directly inside a form, and
`Form.Within` is what stands anywhere inside it, down to the bodies of array sizes
in bodies.

What is proved:
  1. `Form.Everywhere.of_fragment`: a fragment that is canonical everywhere is
     canonical as a form.
  2. `GenericParam.lowerAll_canonical`: a run over parameters numbers each one by its
     position among its kind.
  3. `Core.Module.declare_canonical`: adding canonical definitions keeps a module
     canonical; `ItemKind.lowerAll_canonical` carries it along a run over items and
     `Module.lower_canonical` through the tree.
Main statement: `Crate.lower_canonical_everywhere`.
-/

namespace Lowering

namespace Core

/-! ## Forms -/

/-- A part of a lowered crate. -/
inductive Form where
  | module (module : Module)
  | typeAlias (typeAlias : TypeAlias)
  | struct (struct : Struct)
  | enum (enum : Enum)
  | variant (variant : Variant)
  | trait (trait : Trait)
  | associated (type : AssociatedType)
  | function (function : Function)
  | constant (constant : Constant)
  | static (static : Static)
  | generics (generics : Generics)
  | bound (bound : GenericBound)
  | fragment (fragment : Fragment)

/-- The type as a form. -/
def Form.ty (t : Ty) : Form := .fragment (.ty t)

/-- The path with arguments as a form. -/
def Form.applied (p : AppliedPath) : Form := .fragment (.applied p)

/-- The pattern as a form. -/
def Form.pattern (p : Pattern) : Form := .fragment (.pattern p)

/-- The body as a form. -/
def Form.body (b : Body) : Form := .fragment (.body b)

/-- The entry as a form. -/
def TypeEntry.form : TypeEntry → Form
  | .module m => .module m
  | .typeAlias a => .typeAlias a
  | .struct s => .struct s
  | .enum e => .enum e
  | .trait t => .trait t

/-- The entry as a form; the value of a struct is known by its type. -/
def ValueEntry.form : ValueEntry → Form
  | .constant c => .constant c
  | .static s => .static s
  | .structConstant ty | .structConstructor ty => .ty ty
  | .function f => .function f

/-- The value as a form. -/
def TraitValue.form : TraitValue → Form
  | .constant c => .constant c
  | .static s => .static s
  | .function f => .function f

/-- The types of the fields. -/
def Fields.types : Fields → List Ty
  | .unit => []
  | .tuple fs => fs.map (·.item)
  | .named fs => fs.map (·.2.item)

/-- What stands directly inside what a variant carries. -/
def Payload.parts : Payload → List Form
  | .unit => []
  | .value b => b.toList.map .body
  | .tuple ts => ts.map .ty
  | .struct fs => fs.map fun f => .ty f.2

/-- What stands directly inside a bound. -/
def GenericBound.parts : GenericBound → List Form
  | .lifetime _ _ => []
  | .typeLifetime t _ => [.ty t]
  | .isTrait _ t p | .maybeTrait t p => [.ty t, .applied p]
  | .equality t u => [.ty t, .ty u]

/-- What stands directly inside a type parameter. -/
def TypeParam.parts (p : TypeParam) : List Form := p.default.toList.map .ty

/-- What stands directly inside a const parameter. -/
def ConstParam.parts (p : ConstParam) : List Form := .ty p.ty :: p.default.toList.map .body

/-- What stands directly inside a form. -/
def Form.parts : Form → List Form
  | .module m => m.types.entries.map (·.2.item.form) ++ m.values.entries.map (·.2.item.form)
  | .typeAlias a => [.generics a.generics, .ty a.ty]
  | .struct s => .generics s.generics :: s.data.types.map .ty
  | .enum e => .generics e.generics :: e.variants.map .variant
  | .variant v => v.data.parts
  | .trait t => .generics t.generics :: t.parents.map .applied ++
      (t.types.entries.map (.associated ·.2) ++ t.values.entries.map (·.2.form))
  | .associated a => a.bounds.map .applied ++ a.default.toList.map .ty
  | .function f => .generics f.generics :: .ty f.ret ::
      (f.args.map (.pattern ·.1) ++ f.args.map (.ty ·.2) ++ f.code.toList.map .body)
  | .constant c => .generics c.generics :: .ty c.ty :: c.value.toList.map .body
  | .static s => .ty s.ty :: s.value.toList.map .body
  | .generics g => g.types.flatMap TypeParam.parts ++ g.consts.flatMap ConstParam.parts ++
      g.bounds.map .bound
  | .bound b => b.parts
  | .fragment f => f.parts.map .fragment

/-- A form stands in itself, and in everything it is part of. -/
inductive Form.Within : Form → Form → Prop
  | self (f : Form) : Within f f
  | part {f g h : Form} : g ∈ f.parts → Within h g → Within h f

/-- A property of a form and of everything that stands inside it. -/
def Form.Everywhere (P : Form → Prop) (f : Form) : Prop := ∀ g, Form.Within g f → P g

namespace Form.Everywhere

variable {P : Form → Prop} {f : Form}

theorem of_parts (h : P f) (hp : ∀ g ∈ f.parts, Everywhere P g) : Everywhere P f := by
  intro g hg
  cases hg with
  | self => exact h
  | part hmem hin => exact hp _ hmem _ hin

theorem here (h : Everywhere P f) : P f := h f (.self f)

theorem parts (h : Everywhere P f) : ∀ g ∈ f.parts, Everywhere P g :=
  fun _ hg k hk => h k (.part hg hk)

/-- What holds everywhere in a fragment holds everywhere in it as a form. -/
theorem of_fragment {g : Fragment} (h : g.Everywhere fun k => P (.fragment k)) :
    Everywhere P (.fragment g) := by
  induction g using Fragment.induction with
  | step g ih =>
    refine of_parts h.here (List.forall_mem_map.mpr fun k hk => ?_)
    exact ih k hk (h.part hk)

end Form.Everywhere

/-! ## Canonical forms -/

/-- Each element's number is its position. -/
def Numbered {α : Type} (index : α → Nat) (l : List α) : Prop :=
  ∀ i a, l[i]? = some a → index a = i

theorem Numbered.nil {α : Type} (index : α → Nat) : Numbered index [] := by
  intro i a h
  cases h

/-- An element numbered by the length goes to the end. -/
theorem Numbered.concat {α : Type} {index : α → Nat} {l : List α} {a : α}
    (h : Numbered index l) (ha : index a = l.length) : Numbered index (l ++ [a]) := by
  intro i b hb
  rcases Nat.lt_trichotomy i l.length with hi | rfl | hi
  · rw [List.getElem?_append_left hi] at hb
    exact h i b hb
  · rw [List.getElem?_concat_length] at hb
    cases hb
    exact ha
  · rw [List.getElem?_eq_none (by simp; omega)] at hb
    cases hb

/-- The parameters of each kind are numbered by position. -/
structure Generics.Numbered (g : Generics) : Prop where
  types : Core.Numbered TypeParam.index g.types
  lifetimes : Core.Numbered LifetimeParam.index g.lifetimes
  consts : Core.Numbered ConstParam.index g.consts

/-- What canonical forms are like, parts apart. -/
def Form.IsCanonical : Form → Prop
  | .struct s => s.data ≠ .tuple []
  | .variant v => v.data ≠ .value none ∧
    ∀ b, v.data = .value (some b) → b.root < b.exprs.length
  | .constant c => c.generics = {}
  | .generics g => g.Numbered
  | .fragment f => f.IsCanonical
  | _ => True

/-- A form that is canonical everywhere. -/
abbrev Form.Canonical (f : Form) : Prop := f.Everywhere Form.IsCanonical

theorem Form.canonical_noGenerics : Form.Canonical (.generics {}) :=
  .of_parts ⟨.nil _, .nil _, .nil _⟩ (List.forall_mem_nil _)

/-! ## Adding definitions -/

/-- What an item defines, as forms. -/
def Definitions.forms (d : Definitions) : List Form :=
  d.value?.toList.map (·.form) ++ d.type?.toList.map (·.form)

section

variable {m m' : Module} {name : String} {isPub : Bool}

theorem Module.addType_canonical {t : TypeEntry} (hm : Form.Canonical (.module m))
    (ht : t.form.Canonical) (h : (m.addType name ⟨isPub, t⟩).outcome = .ok m') :
    Form.Canonical (.module m') := by
  obtain ⟨htypes, hvalues⟩ := List.forall_mem_append.mp hm.parts
  obtain ⟨types, hadd, rfl⟩ := Namespace.outcome_add_eq_ok.mp h
  have hentries := NameMap.forall_add? hadd (List.forall_mem_map.mp htypes) ht
  exact .of_parts trivial (List.forall_mem_append.mpr ⟨List.forall_mem_map.mpr hentries, hvalues⟩)

theorem Module.addValue_canonical {v : ValueEntry} (hm : Form.Canonical (.module m))
    (hv : v.form.Canonical) (h : (m.addValue name ⟨isPub, v⟩).outcome = .ok m') :
    Form.Canonical (.module m') := by
  obtain ⟨htypes, hvalues⟩ := List.forall_mem_append.mp hm.parts
  obtain ⟨values, hadd, rfl⟩ := Namespace.outcome_add_eq_ok.mp h
  have hentries := NameMap.forall_add? hadd (List.forall_mem_map.mp hvalues) hv
  exact .of_parts trivial (List.forall_mem_append.mpr ⟨htypes, List.forall_mem_map.mpr hentries⟩)

/-- Adding canonical definitions keeps a module canonical. -/
theorem Module.declare_canonical {d : Definitions} (hm : Form.Canonical (.module m))
    (hd : ∀ f ∈ d.forms, f.Canonical) (h : m.declare name isPub d = .ok m') :
    Form.Canonical (.module m') := by
  obtain ⟨value?, type?⟩ := d
  obtain ⟨hvalue, htype⟩ := List.forall_mem_append.mp hd
  have hlast (m₁ : Module) (hm₁ : Form.Canonical (.module m₁))
      (h : m₁.addType? name isPub type? = .ok m') : Form.Canonical (.module m') := by
    cases type? with
    | none =>
      cases h
      exact hm₁
    | some t => exact Module.addType_canonical hm₁ (htype _ List.mem_cons_self) h
  rw [Module.declare_eq] at h
  cases value? with
  | none => exact hlast m hm h
  | some v =>
    cases hadd : (m.addValue name ⟨isPub, v⟩).outcome with
    | error c =>
      simp only [Module.addValue?, hadd] at h
      cases h
    | ok m₁ =>
      simp only [Module.addValue?, hadd] at h
      exact hlast m₁ (Module.addValue_canonical hm (hvalue _ List.mem_cons_self) hadd) h

end

/-- The entry as a form. -/
def TraitEntry.form : TraitEntry → Form
  | .type a => .associated a
  | .value v => v.form

/-- Adding a canonical entry keeps a trait canonical. -/
theorem Trait.add_canonical {t t' : Trait} {name : String} {entry : TraitEntry}
    (ht : Form.Canonical (.trait t)) (he : entry.form.Canonical)
    (h : (t.add name entry).outcome = .ok t') : Form.Canonical (.trait t') := by
  obtain ⟨hhead, hentries⟩ := List.forall_mem_append.mp ht.parts
  obtain ⟨htypes, hvalues⟩ := List.forall_mem_append.mp hentries
  cases entry with
  | type a =>
    obtain ⟨types, hadd, rfl⟩ := Namespace.outcome_add_eq_ok.mp h
    have hadded := NameMap.forall_add? hadd (List.forall_mem_map.mp htypes) he
    exact .of_parts trivial (List.forall_mem_append.mpr
      ⟨hhead, List.forall_mem_append.mpr ⟨List.forall_mem_map.mpr hadded, hvalues⟩⟩)
  | value v =>
    obtain ⟨values, hadd, rfl⟩ := Namespace.outcome_add_eq_ok.mp h
    have hadded := NameMap.forall_add? hadd (List.forall_mem_map.mp hvalues) he
    exact .of_parts trivial (List.forall_mem_append.mpr
      ⟨hhead, List.forall_mem_append.mpr ⟨htypes, List.forall_mem_map.mpr hadded⟩⟩)

/-! ## Adding parameters -/

section

variable {g : Generics} (hg : Form.Canonical (.generics g))

include hg

theorem Generics.addType_canonical {p : TypeParam} (hindex : p.index = g.types.length)
    (hp : ∀ f ∈ p.parts, f.Canonical) :
    Form.Canonical (.generics { g with types := g.types ++ [p] }) := by
  obtain ⟨hparams, hbounds⟩ := List.forall_mem_append.mp hg.parts
  obtain ⟨htypes, hconsts⟩ := List.forall_mem_append.mp hparams
  have hnumbered : g.Numbered := hg.here
  refine .of_parts ⟨hnumbered.types.concat hindex, hnumbered.lifetimes, hnumbered.consts⟩ ?_
  refine List.forall_mem_append.mpr ⟨List.forall_mem_append.mpr ⟨?_, hconsts⟩, hbounds⟩
  rw [List.flatMap_append, List.flatMap_singleton]
  exact List.forall_mem_append.mpr ⟨htypes, hp⟩

theorem Generics.addLifetime_canonical {p : LifetimeParam} (hindex : p.index = g.lifetimes.length) :
    Form.Canonical (.generics { g with lifetimes := g.lifetimes ++ [p] }) := by
  have hnumbered : g.Numbered := hg.here
  exact .of_parts ⟨hnumbered.types, hnumbered.lifetimes.concat hindex, hnumbered.consts⟩ hg.parts

theorem Generics.addConst_canonical {p : ConstParam} (hindex : p.index = g.consts.length)
    (hp : ∀ f ∈ p.parts, f.Canonical) :
    Form.Canonical (.generics { g with consts := g.consts ++ [p] }) := by
  obtain ⟨hparams, hbounds⟩ := List.forall_mem_append.mp hg.parts
  obtain ⟨htypes, hconsts⟩ := List.forall_mem_append.mp hparams
  have hnumbered : g.Numbered := hg.here
  refine .of_parts ⟨hnumbered.types, hnumbered.lifetimes, hnumbered.consts.concat hindex⟩ ?_
  refine List.forall_mem_append.mpr ⟨List.forall_mem_append.mpr ⟨htypes, ?_⟩, hbounds⟩
  rw [List.flatMap_append, List.flatMap_singleton]
  exact List.forall_mem_append.mpr ⟨hconsts, hp⟩

theorem Generics.withBounds_canonical {bounds : List GenericBound}
    (hbounds : ∀ b ∈ bounds, Form.Canonical (.bound b)) :
    Form.Canonical (.generics { g with bounds }) := by
  obtain ⟨hparams, -⟩ := List.forall_mem_append.mp hg.parts
  have hnumbered : g.Numbered := hg.here
  refine .of_parts ⟨hnumbered.types, hnumbered.lifetimes, hnumbered.consts⟩ ?_
  exact List.forall_mem_append.mpr ⟨hparams, List.forall_mem_map.mpr hbounds⟩

end

end Core

/-! ## What lowering gives -/

namespace Surface

open Lowering.Core (Form)

theorem Ty.lower_canonical {t : Ty} {t' : Core.Ty} (h : t.lower = .ok t') :
    Form.Canonical (.ty t') :=
  .of_fragment (Ty.lower_everywhere gives_canonical t t' h)

theorem Ty.lowerAll_canonical {ts : List Ty} {ts' : List Core.Ty} (h : Ty.lowerAll ts = .ok ts') :
    ∀ t ∈ ts', Form.Canonical (.ty t) :=
  fun t ht => .of_fragment (Ty.lowerAll_everywhere gives_canonical ts ts' h t ht)

theorem Ty.lowerOpt_canonical {t : Option Ty} {t' : Option Core.Ty} (h : Ty.lowerOpt t = .ok t') :
    ∀ t ∈ t'.toList, Form.Canonical (.ty t) := by
  cases t with
  | none =>
    cases h
    exact List.forall_mem_nil _
  | some t =>
    obtain ⟨t', ht, ⟨⟩⟩ := Lowered.bind_eq_ok.mp h
    exact List.forall_mem_singleton.mpr (Ty.lower_canonical ht)

theorem Path.lowerPlain_canonical {p : Path} {p' : Core.AppliedPath} (h : p.lowerPlain = .ok p') :
    Form.Canonical (.applied p') :=
  .of_fragment (Path.lowerPlain_everywhere gives_canonical p p' h)

theorem Path.lowerPlainAll_canonical {ps : List Path} {ps' : List Core.AppliedPath}
    (h : Path.lowerPlainAll ps = .ok ps') : ∀ p ∈ ps', Form.Canonical (.applied p) :=
  fun p hp => .of_fragment (Path.lowerPlainAll_everywhere gives_canonical ps ps' h p hp)

theorem Pattern.lower_canonical {p : Pattern} {p' : Core.Pattern} (h : p.lower = .ok p') :
    Form.Canonical (.pattern p') :=
  .of_fragment (Pattern.lower_everywhere gives_canonical p p' h)

theorem Expr.lowerBody_canonical {e : Expr} {b : Core.Body} (h : e.lowerBody = .ok b) :
    Form.Canonical (.body b) :=
  .of_fragment (Expr.lowerBody_everywhere gives_canonical h)

theorem Expr.lowerBodyOpt_canonical {e : Option Expr} {b : Option Core.Body}
    (h : Expr.lowerBodyOpt e = .ok b) : ∀ c ∈ b.toList, Form.Canonical (.body c) :=
  fun c hc => .of_fragment (Expr.lowerBodyOpt_everywhere gives_canonical e b h c hc)

/-! ### Generics -/

theorem eq_of_paramIndex {s : Location} {count i : Nat} (h : paramIndex s count = .ok i) :
    i = count := by
  unfold paramIndex at h
  split at h
  · cases h
    rfl
  · cases h

/-- A run over parameters keeps what it adds to numbered and canonical. -/
theorem GenericParam.lowerAll_canonical {params : List GenericParam} {out out' : Core.Generics}
    (hout : Form.Canonical (.generics out)) (h : GenericParam.lowerAll params out = .ok out') :
    Form.Canonical (.generics out') := by
  induction params generalizing out with
  | nil =>
    cases h
    exact hout
  | cons param rest ih =>
    cases param with
    | lifetime s n =>
      obtain ⟨i, hi, h⟩ := Lowered.bind_eq_ok.mp h
      exact ih (Core.Generics.addLifetime_canonical hout (eq_of_paramIndex hi)) h
    | type s n d =>
      obtain ⟨i, hi, h⟩ := Lowered.bind_eq_ok.mp h
      obtain ⟨d', hd, h⟩ := Lowered.bind_eq_ok.mp h
      refine ih (Core.Generics.addType_canonical hout (eq_of_paramIndex hi) ?_) h
      exact List.forall_mem_map.mpr (Ty.lowerOpt_canonical hd)
    | const s n t d =>
      obtain ⟨i, hi, h⟩ := Lowered.bind_eq_ok.mp h
      obtain ⟨t', ht, h⟩ := Lowered.bind_eq_ok.mp h
      obtain ⟨d', hd, h⟩ := Lowered.bind_eq_ok.mp h
      refine ih (Core.Generics.addConst_canonical hout (eq_of_paramIndex hi) ?_) h
      have hdefault := List.forall_mem_map.mpr (Expr.lowerBodyOpt_canonical hd)
      exact List.forall_mem_cons.mpr ⟨Ty.lower_canonical ht, hdefault⟩

theorem GenericBound.lower_canonical {b : GenericBound} {b' : Core.GenericBound}
    (h : b.lower = .ok b') : Form.Canonical (.bound b') := by
  cases b with
  | lifetime x y =>
    cases h
    exact .of_parts trivial (List.forall_mem_nil _)
  | typeLifetime t y =>
    obtain ⟨t', ht, ⟨⟩⟩ := Lowered.bind_eq_ok.mp h
    exact .of_parts trivial (List.forall_mem_singleton.mpr (Ty.lower_canonical ht))
  | isTrait _ t p | maybeTrait t p =>
    obtain ⟨t', ht, h⟩ := Lowered.bind_eq_ok.mp h
    obtain ⟨p', hp, ⟨⟩⟩ := Lowered.bind_eq_ok.mp h
    exact .of_parts trivial (List.forall_mem_cons.mpr ⟨Ty.lower_canonical ht,
      List.forall_mem_singleton.mpr (Path.lowerPlain_canonical hp)⟩)
  | equality t u =>
    obtain ⟨t', ht, h⟩ := Lowered.bind_eq_ok.mp h
    obtain ⟨u', hu, ⟨⟩⟩ := Lowered.bind_eq_ok.mp h
    exact .of_parts trivial (List.forall_mem_cons.mpr ⟨Ty.lower_canonical ht,
      List.forall_mem_singleton.mpr (Ty.lower_canonical hu)⟩)

theorem GenericBound.lowerAll_canonical {bs : List GenericBound} {bs' : List Core.GenericBound}
    (h : GenericBound.lowerAll bs = .ok bs') : ∀ b ∈ bs', Form.Canonical (.bound b) := by
  induction bs generalizing bs' with
  | nil =>
    cases h
    exact List.forall_mem_nil _
  | cons b bs ih =>
    obtain ⟨b', hb, h⟩ := Lowered.bind_eq_ok.mp h
    obtain ⟨bs', hbs, ⟨⟩⟩ := Lowered.bind_eq_ok.mp h
    exact List.forall_mem_cons.mpr ⟨GenericBound.lower_canonical hb, ih hbs⟩

theorem Generics.lower_canonical {g : Generics} {g' : Core.Generics} (h : g.lower = .ok g') :
    Form.Canonical (.generics g') := by
  obtain ⟨out, hout, h⟩ := Lowered.bind_eq_ok.mp h
  obtain ⟨bounds, hbounds, ⟨⟩⟩ := Lowered.bind_eq_ok.mp h
  have hparams := GenericParam.lowerAll_canonical Form.canonical_noGenerics hout
  exact Core.Generics.withBounds_canonical hparams (GenericBound.lowerAll_canonical hbounds)

/-! ### Types -/

theorem TypeAlias.lower_canonical {a : TypeAlias} {a' : Core.TypeAlias} (h : a.lower = .ok a') :
    Form.Canonical (.typeAlias a') := by
  obtain ⟨generics, hgenerics, h⟩ := Lowered.bind_eq_ok.mp h
  obtain ⟨ty, hty, ⟨⟩⟩ := Lowered.bind_eq_ok.mp h
  exact .of_parts trivial (List.forall_mem_cons.mpr ⟨Generics.lower_canonical hgenerics,
    List.forall_mem_singleton.mpr (Ty.lower_canonical hty)⟩)

theorem TupleField.lowerAll_canonical {fs : List TupleField}
    {fs' : List (Core.Visible Core.Ty)} (h : TupleField.lowerAll fs = .ok fs') :
    ∀ f ∈ fs', Form.Canonical (.ty f.item) := by
  induction fs generalizing fs' with
  | nil =>
    cases h
    exact List.forall_mem_nil _
  | cons f fs ih =>
    obtain ⟨t, ht, h⟩ := Lowered.bind_eq_ok.mp h
    obtain ⟨fs', hfs, ⟨⟩⟩ := Lowered.bind_eq_ok.mp h
    exact List.forall_mem_cons.mpr ⟨Ty.lower_canonical ht, ih hfs⟩

theorem NamedField.lowerAll_canonical {fs : List NamedField}
    {fs' : List (String × Core.Visible Core.Ty)} (h : NamedField.lowerAll fs = .ok fs') :
    ∀ f ∈ fs', Form.Canonical (.ty f.2.item) := by
  induction fs generalizing fs' with
  | nil =>
    cases h
    exact List.forall_mem_nil _
  | cons f fs ih =>
    obtain ⟨t, ht, h⟩ := Lowered.bind_eq_ok.mp h
    obtain ⟨fs', hfs, ⟨⟩⟩ := Lowered.bind_eq_ok.mp h
    exact List.forall_mem_cons.mpr ⟨Ty.lower_canonical ht, ih hfs⟩

theorem NamedField.lowerTypes_canonical {fs : List NamedField} {fs' : List (String × Core.Ty)}
    (h : NamedField.lowerTypes fs = .ok fs') : ∀ f ∈ fs', Form.Canonical (.ty f.2) := by
  induction fs generalizing fs' with
  | nil =>
    cases h
    exact List.forall_mem_nil _
  | cons f fs ih =>
    obtain ⟨t, ht, h⟩ := Lowered.bind_eq_ok.mp h
    obtain ⟨fs', hfs, ⟨⟩⟩ := Lowered.bind_eq_ok.mp h
    exact List.forall_mem_cons.mpr ⟨Ty.lower_canonical ht, ih hfs⟩

/-- A tuple of fields that is lowered is not empty: the empty one is a unit struct. -/
theorem Fields.lower_canonical {data : Fields} {data' : Core.Fields} (h : data.lower = .ok data') :
    data' ≠ .tuple [] ∧ ∀ t ∈ data'.types, Form.Canonical (.ty t) := by
  match data with
  | .tuple [] =>
    cases h
    exact ⟨nofun, List.forall_mem_nil _⟩
  | .tuple (f :: fs) =>
    obtain ⟨fs', hfs, ⟨⟩⟩ := Lowered.bind_eq_ok.mp h
    refine ⟨?_, List.forall_mem_map.mpr (TupleField.lowerAll_canonical hfs)⟩
    obtain ⟨t, ht, hfs⟩ := Lowered.bind_eq_ok.mp hfs
    obtain ⟨rest, hrest, ⟨⟩⟩ := Lowered.bind_eq_ok.mp hfs
    exact nofun
  | .named fs =>
    obtain ⟨fs', hfs, ⟨⟩⟩ := Lowered.bind_eq_ok.mp h
    exact ⟨nofun, List.forall_mem_map.mpr (NamedField.lowerAll_canonical hfs)⟩

theorem Struct.lower_canonical {s : Struct} {s' : Core.Struct} (h : s.lower = .ok s') :
    Form.Canonical (.struct s') := by
  obtain ⟨data, hdata, h⟩ := Lowered.bind_eq_ok.mp h
  obtain ⟨generics, hgenerics, ⟨⟩⟩ := Lowered.bind_eq_ok.mp h
  obtain ⟨htuple, htypes⟩ := Fields.lower_canonical hdata
  exact .of_parts htuple (List.forall_mem_cons.mpr
    ⟨Generics.lower_canonical hgenerics, List.forall_mem_map.mpr htypes⟩)

/-- A value that a variant carries is there, as a body with its root in it. -/
theorem Payload.lower_canonical {data : Payload} {data' : Core.Payload}
    (h : data.lower = .ok data') (name : String) : Form.Canonical (.variant ⟨name, data'⟩) := by
  match data with
  | .value none =>
    cases h
    exact .of_parts ⟨nofun, nofun⟩ (List.forall_mem_nil _)
  | .value (some e) =>
    obtain ⟨b, hb, ⟨⟩⟩ := Lowered.bind_eq_ok.mp h
    refine .of_parts ⟨nofun, ?_⟩ (List.forall_mem_singleton.mpr (Expr.lowerBody_canonical hb))
    rintro _ ⟨⟩
    obtain ⟨t, ht, ⟨⟩⟩ := Lowered.bind_eq_ok.mp hb
    rw [t.body_root]
    exact Nat.lt_succ_self _
  | .tuple ts =>
    obtain ⟨ts', hts, ⟨⟩⟩ := Lowered.bind_eq_ok.mp h
    exact .of_parts ⟨nofun, nofun⟩ (List.forall_mem_map.mpr (Ty.lowerAll_canonical hts))
  | .struct fs =>
    obtain ⟨fs', hfs, ⟨⟩⟩ := Lowered.bind_eq_ok.mp h
    exact .of_parts ⟨nofun, nofun⟩
      (List.forall_mem_map.mpr (NamedField.lowerTypes_canonical hfs))

theorem Variant.lowerAll_canonical {vs : List Variant} {vs' : List Core.Variant}
    (h : Variant.lowerAll vs = .ok vs') : ∀ v ∈ vs', Form.Canonical (.variant v) := by
  induction vs generalizing vs' with
  | nil =>
    cases h
    exact List.forall_mem_nil _
  | cons v vs ih =>
    obtain ⟨data, hdata, h⟩ := Lowered.bind_eq_ok.mp h
    obtain ⟨vs', hvs, ⟨⟩⟩ := Lowered.bind_eq_ok.mp h
    exact List.forall_mem_cons.mpr ⟨Payload.lower_canonical hdata v.name, ih hvs⟩

theorem Enum.lower_canonical {e : Enum} {e' : Core.Enum} (h : e.lower = .ok e') :
    Form.Canonical (.enum e') := by
  obtain ⟨variants, hvariants, h⟩ := Lowered.bind_eq_ok.mp h
  obtain ⟨generics, hgenerics, ⟨⟩⟩ := Lowered.bind_eq_ok.mp h
  exact .of_parts trivial (List.forall_mem_cons.mpr ⟨Generics.lower_canonical hgenerics,
    List.forall_mem_map.mpr (Variant.lowerAll_canonical hvariants)⟩)

/-! ### Values -/

theorem Function.lowerArgs_canonical {args : List (Pattern × Ty)}
    {args' : List (Core.Pattern × Core.Ty)} (h : Function.lowerArgs args = .ok args') :
    (∀ a ∈ args', Form.Canonical (.pattern a.1)) ∧ ∀ a ∈ args', Form.Canonical (.ty a.2) := by
  induction args generalizing args' with
  | nil =>
    cases h
    exact ⟨List.forall_mem_nil _, List.forall_mem_nil _⟩
  | cons arg rest ih =>
    obtain ⟨p, hp, h⟩ := Lowered.bind_eq_ok.mp h
    obtain ⟨t, ht, h⟩ := Lowered.bind_eq_ok.mp h
    obtain ⟨rest', hrest, ⟨⟩⟩ := Lowered.bind_eq_ok.mp h
    obtain ⟨hpatterns, htypes⟩ := ih hrest
    exact ⟨List.forall_mem_cons.mpr ⟨Pattern.lower_canonical hp, hpatterns⟩,
      List.forall_mem_cons.mpr ⟨Ty.lower_canonical ht, htypes⟩⟩

theorem Function.lower_canonical {f : Function} {f' : Core.Function} (h : f.lower = .ok f') :
    Form.Canonical (.function f') := by
  obtain ⟨generics, hgenerics, h⟩ := Lowered.bind_eq_ok.mp h
  obtain ⟨args, hargs, h⟩ := Lowered.bind_eq_ok.mp h
  obtain ⟨ret, hret, h⟩ := Lowered.bind_eq_ok.mp h
  obtain ⟨code, hcode, ⟨⟩⟩ := Lowered.bind_eq_ok.mp h
  obtain ⟨hpatterns, htypes⟩ := Function.lowerArgs_canonical hargs
  refine .of_parts trivial (List.forall_mem_cons.mpr ⟨Generics.lower_canonical hgenerics, ?_⟩)
  refine List.forall_mem_cons.mpr ⟨Ty.lower_canonical hret, ?_⟩
  refine List.forall_mem_append.mpr ⟨List.forall_mem_append.mpr ⟨?_, ?_⟩, ?_⟩
  · exact List.forall_mem_map.mpr hpatterns
  · exact List.forall_mem_map.mpr htypes
  · exact List.forall_mem_map.mpr (Expr.lowerBodyOpt_canonical hcode)

/-- Constants have no generics. -/
theorem Static.lowerConstant_canonical {s : Static} {c : Core.Constant}
    (h : s.lowerConstant = .ok c) : Form.Canonical (.constant c) := by
  obtain ⟨ty, hty, h⟩ := Lowered.bind_eq_ok.mp h
  obtain ⟨value, hvalue, ⟨⟩⟩ := Lowered.bind_eq_ok.mp h
  refine .of_parts rfl (List.forall_mem_cons.mpr ⟨Form.canonical_noGenerics, ?_⟩)
  exact List.forall_mem_cons.mpr ⟨Ty.lower_canonical hty,
    List.forall_mem_map.mpr (Expr.lowerBodyOpt_canonical hvalue)⟩

theorem Static.lowerStatic_canonical {s : Static} {s' : Core.Static}
    (h : s.lowerStatic = .ok s') : Form.Canonical (.static s') := by
  obtain ⟨ty, hty, h⟩ := Lowered.bind_eq_ok.mp h
  obtain ⟨value, hvalue, ⟨⟩⟩ := Lowered.bind_eq_ok.mp h
  exact .of_parts trivial (List.forall_mem_cons.mpr ⟨Ty.lower_canonical hty,
    List.forall_mem_map.mpr (Expr.lowerBodyOpt_canonical hvalue)⟩)

theorem Static.lower_canonical {s : Static} {v : Core.ValueEntry} (h : s.lower = .ok v) :
    v.form.Canonical := by
  unfold Static.lower at h
  split at h
  · obtain ⟨c, hc, ⟨⟩⟩ := Lowered.bind_eq_ok.mp h
    exact Static.lowerConstant_canonical hc
  all_goals
    obtain ⟨s', hs, ⟨⟩⟩ := Lowered.bind_eq_ok.mp h
    exact Static.lowerStatic_canonical hs

theorem Static.lowerInTrait_canonical {s : Static} {v : Core.TraitValue}
    (h : s.lowerInTrait = .ok v) : v.form.Canonical := by
  unfold Static.lowerInTrait at h
  split at h
  · obtain ⟨c, hc, ⟨⟩⟩ := Lowered.bind_eq_ok.mp h
    exact Static.lowerConstant_canonical hc
  all_goals
    obtain ⟨s', hs, ⟨⟩⟩ := Lowered.bind_eq_ok.mp h
    exact Static.lowerStatic_canonical hs

/-! ### Traits -/

theorem TraitItem.lower_canonical {item : TraitItem} {entry : Core.TraitEntry}
    (h : item.lower = .ok entry) : entry.form.Canonical := by
  cases item with
  | type a =>
    obtain ⟨a', ha, ⟨⟩⟩ := Lowered.bind_eq_ok.mp h
    obtain ⟨bounds, hbounds, ha⟩ := Lowered.bind_eq_ok.mp ha
    obtain ⟨default, hdefault, ⟨⟩⟩ := Lowered.bind_eq_ok.mp ha
    exact .of_parts trivial (List.forall_mem_append.mpr
      ⟨List.forall_mem_map.mpr (Path.lowerPlainAll_canonical hbounds),
        List.forall_mem_map.mpr (Ty.lowerOpt_canonical hdefault)⟩)
  | function f =>
    obtain ⟨f', hf, ⟨⟩⟩ := Lowered.bind_eq_ok.mp h
    exact Function.lower_canonical hf
  | static s =>
    obtain ⟨v, hv, ⟨⟩⟩ := Lowered.bind_eq_ok.mp h
    exact Static.lowerInTrait_canonical hv

theorem TraitItem.lowerAll_canonical {path : Core.ItemPath} {items : List (Named TraitItem)}
    {out out' : Core.Trait} (hout : Form.Canonical (.trait out))
    (h : TraitItem.lowerAll path items out = .ok out') : Form.Canonical (.trait out') := by
  induction items generalizing out with
  | nil =>
    cases h
    exact hout
  | cons item rest ih =>
    obtain ⟨entry, hentry, h⟩ := Lowered.bind_eq_ok.mp h
    obtain ⟨next, hnext, h⟩ := Lowered.bind_eq_ok.mp h
    have hadd := duplicateAt_eq_ok.mp hnext
    exact ih (Core.Trait.add_canonical hout (TraitItem.lower_canonical hentry) hadd) h

theorem Trait.lower_canonical {t : Trait} {path : Core.ItemPath} {t' : Core.Trait}
    (h : t.lower path = .ok t') : Form.Canonical (.trait t') := by
  obtain ⟨out, hhead, h⟩ := Lowered.bind_eq_ok.mp h
  obtain ⟨parents, hparents, hhead⟩ := Lowered.bind_eq_ok.mp hhead
  obtain ⟨generics, hgenerics, ⟨⟩⟩ := Lowered.bind_eq_ok.mp hhead
  refine TraitItem.lowerAll_canonical (.of_parts trivial ?_) h
  refine List.forall_mem_append.mpr ⟨?_, List.forall_mem_nil _⟩
  exact List.forall_mem_cons.mpr ⟨Generics.lower_canonical hgenerics,
    List.forall_mem_map.mpr (Path.lowerPlainAll_canonical hparents)⟩

/-! ### Modules -/

/-- The value of a struct at a path with a component has a canonical type. -/
theorem structValue_canonical {path : Core.ItemPath} (hpath : path.components ≠ [])
    (data : Core.Fields) : ∀ v ∈ (data.value? path).toList, v.form.Canonical := by
  have happlied : Core.Fragment.Canonical (.applied (.ofItem path)) :=
    .of_parts hpath (List.forall_mem_singleton.mpr gives_canonical.noArgs)
  have hplain : Core.Fragment.Canonical (.path (.ofItem path)) :=
    .of_parts trivial (List.forall_mem_singleton.mpr happlied)
  have hty : Form.Canonical (.ty (.path (.ofItem path))) :=
    .of_fragment (.of_parts trivial (List.forall_mem_singleton.mpr hplain))
  cases data with
  | unit => exact List.forall_mem_singleton.mpr hty
  | tuple fs => exact List.forall_mem_singleton.mpr hty
  | named fs => exact List.forall_mem_nil _

/-- The modules that this one lowers to are canonical. -/
def Module.LowersCanonically (m : Module) : Prop :=
  ∀ path out, (m.lower path).outcome = .ok out → Form.Canonical (.module out)

/-- An item defines canonical forms if the module that it may be lowers to such. -/
theorem ItemKind.Defines.canonical {kind : ItemKind} {path : Core.ItemPath}
    {defs : Core.Definitions} (h : kind.Defines path defs) (hpath : path.components ≠ [])
    (hchild : ∀ child, kind = .module child → child.LowersCanonically) :
    ∀ f ∈ defs.forms, f.Canonical := by
  cases h with
  | removed => exact List.forall_mem_nil _
  | externCrate => exact List.forall_mem_nil _
  | module hm => exact List.forall_mem_singleton.mpr (hchild _ rfl _ _ hm)
  | typeAlias ha => exact List.forall_mem_singleton.mpr (TypeAlias.lower_canonical ha)
  | struct hs =>
    exact List.forall_mem_append.mpr ⟨List.forall_mem_map.mpr (structValue_canonical hpath _),
      List.forall_mem_singleton.mpr (Struct.lower_canonical hs)⟩
  | enum he => exact List.forall_mem_singleton.mpr (Enum.lower_canonical he)
  | trait ht => exact List.forall_mem_singleton.mpr (Trait.lower_canonical ht)
  | function hf => exact List.forall_mem_singleton.mpr (Function.lower_canonical hf)
  | static hs => exact List.forall_mem_singleton.mpr (Static.lower_canonical hs)

/-- A run over items keeps the module that it adds to canonical. -/
theorem ItemKind.lowerAll_canonical {items : List (Named ItemKind)} {out out' : Core.Module}
    (hchild : ∀ item ∈ items, ∀ child, item.data = .module child → child.LowersCanonically)
    (hout : Form.Canonical (.module out))
    (h : (ItemKind.lowerAll items out).outcome = .ok out') : Form.Canonical (.module out') := by
  induction items generalizing out with
  | nil =>
    cases h
    exact hout
  | cons item rest ih =>
    obtain ⟨hitem, hrest⟩ := List.forall_mem_cons.mp hchild
    rw [ItemKind.lowerAll_cons] at h
    obtain ⟨defs, hdefs, h⟩ := Lowered.bind_eq_ok.mp h
    obtain ⟨next, hnext, h⟩ := Lowered.bind_eq_ok.mp h
    have hpath : (out.path.join item.name).components ≠ [] :=
      List.append_ne_nil_of_right_ne_nil _ nofun
    have hforms := (ItemKind.defines_of_lower hdefs).canonical hpath hitem
    exact ih hrest (Core.Module.declare_canonical hout hforms (duplicateAt_eq_ok.mp hnext)) h

theorem Module.lower_canonical : ∀ m : Module, m.LowersCanonically := by
  refine Module.tree_induction fun m hchild path out h => ?_
  rw [Module.lower_outcome] at h
  have hempty : Form.Canonical (.module (.empty path)) := .of_parts trivial (List.forall_mem_nil _)
  exact ItemKind.lowerAll_canonical hchild hempty h

/-- Canonical form, everywhere in a lowered crate. Every type parameter is
unresolved and every path has a component, in whatever type, path, pattern, bound
or body they stand; no struct is a tuple without fields, no variant has an absent
value or one whose root is not in its body, no constant has generics, and the
parameters of every list are numbered by their positions among their kind. -/
theorem Crate.lower_canonical_everywhere (c : Crate) (config : Config) (out : Core.Crate)
    (h : (c.lower config).outcome = .ok out) :
    (∀ name index, Form.Within (.ty (.param name index)) (.module out.root) →
      index = .unresolved) ∧
    (∀ p, Form.Within (.applied p) (.module out.root) → p.path.components ≠ []) ∧
    (∀ s, Form.Within (.struct s) (.module out.root) → s.data ≠ .tuple []) ∧
    (∀ v, Form.Within (.variant v) (.module out.root) → v.data ≠ .value none ∧
      ∀ b, v.data = .value (some b) → b.root < b.exprs.length) ∧
    (∀ k, Form.Within (.constant k) (.module out.root) → k.generics = {}) ∧
    ∀ g, Form.Within (.generics g) (.module out.root) →
      (∀ (i : Nat) (p : Core.TypeParam), g.types[i]? = some p → p.index = i) ∧
      (∀ (i : Nat) (p : Core.LifetimeParam), g.lifetimes[i]? = some p → p.index = i) ∧
      ∀ (i : Nat) (p : Core.ConstParam), g.consts[i]? = some p → p.index = i := by
  rw [Crate.lower_outcome] at h
  obtain ⟨macros, -, h⟩ := Lowered.bind_eq_ok.mp h
  obtain ⟨root, hroot, ⟨⟩⟩ := Lowered.bind_eq_ok.mp h
  have hcanonical : Form.Canonical (.module root) := c.root.lower_canonical _ root hroot
  refine ⟨fun _ _ hin => hcanonical _ hin, fun _ hin => hcanonical _ hin,
    fun _ hin => hcanonical _ hin, fun _ hin => hcanonical _ hin,
    fun _ hin => hcanonical _ hin, fun g hin => ?_⟩
  have hnumbered : g.Numbered := hcanonical _ hin
  exact ⟨hnumbered.types, hnumbered.lifetimes, hnumbered.consts⟩

/-- The crate `mod inner { type Sized<A, 'a, B> = [A; x as [B; n]]; }`. -/
def sizedAlias : Crate :=
  let name (n : String) : Expr := .path .dummy (.localName .dummy n)
  let size : Expr := .cast .dummy (name "x") (.array .dummy (.param .dummy "B") (some (name "n")))
  let generics : Generics :=
    ⟨[.type .dummy "A" none, .lifetime .dummy "a", .type .dummy "B" none], []⟩
  let sized : ItemKind := .typeAlias ⟨generics, .array .dummy (.param .dummy "A") (some size)⟩
  let inner : Module := .mk [⟨"Sized", false, {}, sized, .dummy⟩] [] [] [] .dummy
  ⟨.mk [⟨"inner", false, {}, .module inner, .dummy⟩] [] [] [] .dummy, {}⟩

theorem sizedAlias_canonical : ∃ out, (sizedAlias.lower {}).outcome = .ok out ∧
    (∃ index, Form.Within (.ty (.param "B" index)) (.module out.root) ∧ index = .unresolved) ∧
    ∃ g p, Form.Within (.generics g) (.module out.root) ∧ g.types[1]? = some p ∧
      p.name = "B" ∧ p.index = 1 := by
  obtain ⟨out, hout, ⟨index, hin⟩, g, p, hlist, hp, hname⟩ :
      ∃ out, (sizedAlias.lower {}).outcome = .ok out ∧
        (∃ index, Form.Within (.ty (.param "B" index)) (.module out.root)) ∧
        ∃ g p, Form.Within (.generics g) (.module out.root) ∧ g.types[1]? = some p ∧
          p.name = "B" := by
    refine ⟨_, rfl, ⟨.unresolved, ?_⟩,
      ⟨[⟨"A", 0, none⟩, ⟨"B", 1, none⟩], [⟨"a", 0⟩], [], []⟩, _, ?_, rfl, rfl⟩
    · -- down through the alias, its type, the size, the type of the cast and its element
      exact .part (.head _) (.part (.head _) (.part (.tail _ (.head _)) (.part (.tail _ (.head _))
        (.part (.head _) (.part (.head _) (.self _))))))
    · exact .part (.head _) (.part (.head _) (.part (.head _) (.self _)))
  obtain ⟨hparam, -, -, -, -, hnumbered⟩ :=
    Crate.lower_canonical_everywhere sizedAlias {} out hout
  exact ⟨out, hout, ⟨index, hin, hparam _ _ hin⟩, g, p, hlist, hp, hname,
    (hnumbered g hlist).1 1 p hp⟩

end Surface

end Lowering
