import Lowering.Lower.Module
import Lowering.Proofs.Rewriting

/-!
# Rewriting of items

A rewriting of items rewrites every tree in them, moves every item, and may
change what lowering does not read: attributes, the visibility of trait items and
of the fields of variants, and the macros of a module.

Main statement (`Module.lower_rewrite` and the theorems beside it): a rewriting
whose replacements keep what a node lowers to keeps what an item and a module
lower to, and everything they log, or moves the diagnostic along with the node
that it is about.
-/

namespace Lowering

open Lowered (bind_relocate)

/-- The run with its diagnostic at another place. -/
def Traced.relocate {α : Type} (f : Location → Location) (t : Traced α) : Traced α :=
  ⟨t.log, Lowered.relocate f t.outcome⟩

theorem Traced.bind_relocate {α β : Type} {f : Location → Location} {t t' : Traced α}
    {k k' : α → Traced β} (ht : t' = t.relocate f) (hk : ∀ a, k' a = (k a).relocate f) :
    (t' >>= k') = (t >>= k).relocate f := by
  subst ht
  obtain ⟨log, outcome⟩ := t
  cases outcome with
  | error d => rfl
  | ok a =>
    change (⟨log ++ (k' a).log, (k' a).outcome⟩ : Traced β) = _
    rw [hk]
    rfl

theorem Traced.lift_relocate {α : Type} {f : Location → Location} {x x' : Lowered α}
    (h : x' = x.relocate f) : Traced.lift x' = (Traced.lift x).relocate f := by
  rw [h]
  rfl

namespace Surface

/-- What to make of items and of the trees in them. -/
structure ItemRewriting extends Rewriting where
  /-- What stands for attributes. -/
  attrs : Attributes → Attributes := id
  /-- The visibility of a trait item or of a field of a variant. -/
  visibility : Bool → Bool := id
  /-- What stands for the macros that a module defines, and for those it imports. -/
  macros : List NamedMacro → List NamedMacro := id

section

variable (r : ItemRewriting)

/-- Rewrites a generic parameter. -/
def GenericParam.rewrite : GenericParam → GenericParam
  | .lifetime s n => .lifetime (r.place s) n
  | .type s n d => .type (r.place s) n (d.map (·.rewrite r.toRewriting []))
  | .const s n t d =>
    .const (r.place s) n (t.rewrite r.toRewriting []) (Expr.rewriteOpt r.toRewriting [] d)

/-- Rewrites a bound. -/
def GenericBound.rewrite : GenericBound → GenericBound
  | .lifetime a b => .lifetime a b
  | .typeLifetime t b => .typeLifetime (t.rewrite r.toRewriting []) b
  | .isTrait ls t p => .isTrait ls (t.rewrite r.toRewriting []) (p.rewrite r.toRewriting [])
  | .maybeTrait t p => .maybeTrait (t.rewrite r.toRewriting []) (p.rewrite r.toRewriting [])
  | .equality t u => .equality (t.rewrite r.toRewriting []) (u.rewrite r.toRewriting [])

/-- Rewrites a parameter list. -/
def Generics.rewrite (g : Generics) : Generics where
  params := g.params.map (GenericParam.rewrite r)
  bounds := g.bounds.map (GenericBound.rewrite r)

/-- Rewrites a type alias. -/
def TypeAlias.rewrite (a : TypeAlias) : TypeAlias where
  generics := a.generics.rewrite r
  ty := a.ty.rewrite r.toRewriting []

/-- Rewrites a field of a tuple struct. -/
def TupleField.rewrite (f : TupleField) : TupleField :=
  { f with ty := f.ty.rewrite r.toRewriting [], attrs := r.attrs f.attrs }

/-- Rewrites a named field of a struct. -/
def NamedField.rewrite (f : NamedField) : NamedField :=
  { f with ty := f.ty.rewrite r.toRewriting [], attrs := r.attrs f.attrs }

/-- Rewrites a named field of a variant. -/
def NamedField.rewriteInVariant (f : NamedField) : NamedField :=
  { f.rewrite r with isPub := r.visibility f.isPub }

/-- Rewrites the fields of a struct. -/
def Fields.rewrite : Fields → Fields
  | .tuple fs => .tuple (fs.map (TupleField.rewrite r))
  | .named fs => .named (fs.map (NamedField.rewrite r))

/-- Rewrites a struct. -/
def Struct.rewrite (s : Struct) : Struct where
  generics := s.generics.rewrite r
  data := s.data.rewrite r

/-- Rewrites what a variant carries. -/
def Payload.rewrite : Payload → Payload
  | .value e => .value (Expr.rewriteOpt r.toRewriting [] e)
  | .tuple ts => .tuple (Ty.rewriteAll r.toRewriting [] ts)
  | .struct fs => .struct (fs.map (NamedField.rewriteInVariant r))

/-- Rewrites a variant. -/
def Variant.rewrite (v : Variant) : Variant where
  name := v.name
  attrs := r.attrs v.attrs
  data := v.data.rewrite r
  span := r.place v.span

/-- Rewrites an enum. -/
def Enum.rewrite (e : Enum) : Enum where
  generics := e.generics.rewrite r
  variants := e.variants.map (Variant.rewrite r)

/-- Rewrites a function. -/
def Function.rewrite (f : Function) : Function :=
  { f with
    generics := f.generics.rewrite r
    args := f.args.map fun (p, t) => (p.rewrite r.toRewriting [], t.rewrite r.toRewriting [])
    ret := f.ret.rewrite r.toRewriting []
    code := Expr.rewriteOpt r.toRewriting [] f.code }

/-- Rewrites a constant or static. -/
def Static.rewrite (s : Static) : Static :=
  { s with
    ty := s.ty.rewrite r.toRewriting []
    value := Expr.rewriteOpt r.toRewriting [] s.value }

/-- Rewrites an associated type. -/
def AssociatedType.rewrite (a : AssociatedType) : AssociatedType where
  bounds := Path.rewriteAll r.toRewriting [] a.bounds
  default := a.default.map (·.rewrite r.toRewriting [])

/-- Rewrites what a trait declares. -/
def TraitItem.rewrite : TraitItem → TraitItem
  | .type a => .type (a.rewrite r)
  | .function f => .function (f.rewrite r)
  | .static s => .static (s.rewrite r)

/-- Rewrites an item of a trait. -/
def Named.rewriteInTrait (item : Named TraitItem) : Named TraitItem where
  name := item.name
  isPub := r.visibility item.isPub
  attrs := r.attrs item.attrs
  data := item.data.rewrite r
  span := r.place item.span

/-- Rewrites a trait. -/
def Trait.rewrite (t : Trait) : Trait where
  generics := t.generics.rewrite r
  supertraits := Path.rewriteAll r.toRewriting [] t.supertraits
  items := t.items.map (Named.rewriteInTrait r)

mutual

/-- Rewrites what an item declares. -/
def ItemKind.rewrite : ItemKind → ItemKind
  | .removed => .removed
  | .module m => .module m.rewrite
  | .externCrate c => .externCrate c
  | .typeAlias a => .typeAlias (a.rewrite r)
  | .struct s => .struct (s.rewrite r)
  | .enum e => .enum (e.rewrite r)
  | .trait t => .trait (t.rewrite r)
  | .function f => .function (f.rewrite r)
  | .static s => .static (s.rewrite r)

/-- Rewrites a module and all modules in it. -/
def Module.rewrite : Module → Module
  | .mk items anonymous macros imports span =>
    .mk (ItemKind.rewriteAll items) (Module.rewriteAll anonymous) (r.macros macros)
      (r.macros imports) (r.place span)

/-- Rewrites items in order. -/
def ItemKind.rewriteAll : List (Named ItemKind) → List (Named ItemKind)
  | [] => []
  | ⟨n, p, a, k, s⟩ :: rest => ⟨n, p, r.attrs a, k.rewrite, r.place s⟩ :: ItemKind.rewriteAll rest

/-- Rewrites modules in order. -/
def Module.rewriteAll : List Module → List Module
  | [] => []
  | m :: ms => m.rewrite :: Module.rewriteAll ms

end

end

/-! ## Lowering of rewritten items -/

theorem paramIndex_relocate (f : Location → Location) (s : Location) (count : Nat) :
    paramIndex (f s) count = (paramIndex s count).relocate f := by
  unfold paramIndex
  split <;> rfl

theorem duplicateAt_relocate {α : Type} (f : Location → Location) (path : Core.ItemPath)
    (s : Location) (x : Except Core.NameClash α) :
    duplicateAt path (f s) x = (duplicateAt path s x).relocate f := by
  cases x <;> rfl

theorem Module.span_rewrite (r : ItemRewriting) (m : Module) :
    (m.rewrite r).span = r.place m.span := by
  cases m
  rfl

section

variable {r : ItemRewriting} (hr : r.KeepsLowering)
include hr

theorem Ty.lowerOpt_rewrite (t : Option Ty) :
    Ty.lowerOpt (t.map (·.rewrite r.toRewriting [])) = (Ty.lowerOpt t).relocate r.place := by
  cases t with
  | none => rfl
  | some t => exact bind_relocate (Ty.lower_rewrite hr [] t) fun _ => rfl

theorem GenericParam.lowerAll_rewrite (params : List GenericParam) (out : Core.Generics) :
    GenericParam.lowerAll (params.map (GenericParam.rewrite r)) out =
      (GenericParam.lowerAll params out).relocate r.place := by
  induction params generalizing out with
  | nil => rfl
  | cons p rest ih =>
    cases p with
    | lifetime s n => exact bind_relocate (paramIndex_relocate r.place s _) fun _ => ih _
    | type s n d =>
      exact bind_relocate (paramIndex_relocate r.place s _) fun _ =>
        bind_relocate (Ty.lowerOpt_rewrite hr d) fun _ => ih _
    | const s n t d =>
      exact bind_relocate (paramIndex_relocate r.place s _) fun _ =>
        bind_relocate (Ty.lower_rewrite hr [] t) fun _ =>
          bind_relocate (Expr.lowerBodyOpt_rewrite hr [] d) fun _ => ih _

theorem GenericBound.lower_rewrite (b : GenericBound) :
    (b.rewrite r).lower = b.lower.relocate r.place := by
  cases b with
  | lifetime a b => rfl
  | typeLifetime t b => exact bind_relocate (Ty.lower_rewrite hr [] t) fun _ => rfl
  | isTrait _ t p | maybeTrait t p =>
    exact bind_relocate (Ty.lower_rewrite hr [] t) fun _ =>
      bind_relocate (Path.lowerPlain_rewrite hr [] p) fun _ => rfl
  | equality t u =>
    exact bind_relocate (Ty.lower_rewrite hr [] t) fun _ =>
      bind_relocate (Ty.lower_rewrite hr [] u) fun _ => rfl

theorem GenericBound.lowerAll_rewrite (bounds : List GenericBound) :
    GenericBound.lowerAll (bounds.map (GenericBound.rewrite r)) =
      (GenericBound.lowerAll bounds).relocate r.place := by
  induction bounds with
  | nil => rfl
  | cons b rest ih =>
    exact bind_relocate (GenericBound.lower_rewrite hr b) fun _ => bind_relocate ih fun _ => rfl

theorem Generics.lower_rewrite (g : Generics) :
    (g.rewrite r).lower = g.lower.relocate r.place :=
  bind_relocate (GenericParam.lowerAll_rewrite hr g.params {}) fun _ =>
    bind_relocate (GenericBound.lowerAll_rewrite hr g.bounds) fun _ => rfl

theorem TypeAlias.lower_rewrite (a : TypeAlias) :
    (a.rewrite r).lower = a.lower.relocate r.place :=
  bind_relocate (Generics.lower_rewrite hr a.generics) fun _ =>
    bind_relocate (Ty.lower_rewrite hr [] a.ty) fun _ => rfl

theorem TupleField.lowerAll_rewrite (fields : List TupleField) :
    TupleField.lowerAll (fields.map (TupleField.rewrite r)) =
      (TupleField.lowerAll fields).relocate r.place := by
  induction fields with
  | nil => rfl
  | cons f rest ih =>
    exact bind_relocate (Ty.lower_rewrite hr [] f.ty) fun _ => bind_relocate ih fun _ => rfl

theorem NamedField.lowerAll_rewrite (fields : List NamedField) :
    NamedField.lowerAll (fields.map (NamedField.rewrite r)) =
      (NamedField.lowerAll fields).relocate r.place := by
  induction fields with
  | nil => rfl
  | cons f rest ih =>
    exact bind_relocate (Ty.lower_rewrite hr [] f.ty) fun _ => bind_relocate ih fun _ => rfl

theorem NamedField.lowerTypes_rewrite (fields : List NamedField) :
    NamedField.lowerTypes (fields.map (NamedField.rewriteInVariant r)) =
      (NamedField.lowerTypes fields).relocate r.place := by
  induction fields with
  | nil => rfl
  | cons f rest ih =>
    exact bind_relocate (Ty.lower_rewrite hr [] f.ty) fun _ => bind_relocate ih fun _ => rfl

theorem Fields.lower_rewrite (d : Fields) : (d.rewrite r).lower = d.lower.relocate r.place := by
  cases d with
  | named fs => exact bind_relocate (NamedField.lowerAll_rewrite hr fs) fun _ => rfl
  | tuple fs =>
    cases fs with
    | nil => rfl
    | cons f fs => exact bind_relocate (TupleField.lowerAll_rewrite hr (f :: fs)) fun _ => rfl

theorem Struct.lower_rewrite (s : Struct) : (s.rewrite r).lower = s.lower.relocate r.place :=
  bind_relocate (Fields.lower_rewrite hr s.data) fun _ =>
    bind_relocate (Generics.lower_rewrite hr s.generics) fun _ => rfl

theorem Payload.lower_rewrite (d : Payload) : (d.rewrite r).lower = d.lower.relocate r.place := by
  cases d with
  | value e =>
    cases e with
    | none => rfl
    | some e =>
      have hbody : (e.rewrite r.toRewriting []).lowerBody = e.lowerBody.relocate r.place :=
        bind_relocate (Expr.lower_rewrite hr [] e) fun _ => rfl
      exact bind_relocate hbody fun _ => rfl
  | tuple ts => exact bind_relocate (Ty.lowerAll_rewrite hr [] ts) fun _ => rfl
  | struct fs => exact bind_relocate (NamedField.lowerTypes_rewrite hr fs) fun _ => rfl

theorem Variant.lowerAll_rewrite (variants : List Variant) :
    Variant.lowerAll (variants.map (Variant.rewrite r)) =
      (Variant.lowerAll variants).relocate r.place := by
  induction variants with
  | nil => rfl
  | cons v rest ih =>
    exact bind_relocate (Payload.lower_rewrite hr v.data) fun _ => bind_relocate ih fun _ => rfl

theorem Enum.lower_rewrite (e : Enum) : (e.rewrite r).lower = e.lower.relocate r.place :=
  bind_relocate (Variant.lowerAll_rewrite hr e.variants) fun _ =>
    bind_relocate (Generics.lower_rewrite hr e.generics) fun _ => rfl

theorem Function.lowerArgs_rewrite (args : List (Pattern × Ty)) :
    Function.lowerArgs (args.map fun (p, t) =>
      (p.rewrite r.toRewriting [], t.rewrite r.toRewriting [])) =
      (Function.lowerArgs args).relocate r.place := by
  induction args with
  | nil => rfl
  | cons a rest ih =>
    exact bind_relocate (Pattern.lower_rewrite hr [] a.1) fun _ =>
      bind_relocate (Ty.lower_rewrite hr [] a.2) fun _ => bind_relocate ih fun _ => rfl

theorem Function.lower_rewrite (f : Function) :
    (f.rewrite r).lower = f.lower.relocate r.place :=
  bind_relocate (Generics.lower_rewrite hr f.generics) fun _ =>
    bind_relocate (Function.lowerArgs_rewrite hr f.args) fun _ =>
      bind_relocate (Ty.lower_rewrite hr [] f.ret) fun _ =>
        bind_relocate (Expr.lowerBodyOpt_rewrite hr [] f.code) fun _ => rfl

theorem Static.lowerConstant_rewrite (s : Static) :
    (s.rewrite r).lowerConstant = s.lowerConstant.relocate r.place :=
  bind_relocate (Ty.lower_rewrite hr [] s.ty) fun _ =>
    bind_relocate (Expr.lowerBodyOpt_rewrite hr [] s.value) fun _ => rfl

theorem Static.lowerStatic_rewrite (s : Static) :
    (s.rewrite r).lowerStatic = s.lowerStatic.relocate r.place :=
  bind_relocate (Ty.lower_rewrite hr [] s.ty) fun _ =>
    bind_relocate (Expr.lowerBodyOpt_rewrite hr [] s.value) fun _ => rfl

theorem Static.lower_rewrite (s : Static) : (s.rewrite r).lower = s.lower.relocate r.place := by
  obtain ⟨storage, ty, value⟩ := s
  cases storage with
  | const => exact bind_relocate (Static.lowerConstant_rewrite hr ⟨.const, ty, value⟩) fun _ => rfl
  | static | staticMut =>
    exact bind_relocate (Static.lowerStatic_rewrite hr ⟨_, ty, value⟩) fun _ => rfl

theorem Static.lowerInTrait_rewrite (s : Static) :
    (s.rewrite r).lowerInTrait = s.lowerInTrait.relocate r.place := by
  obtain ⟨storage, ty, value⟩ := s
  cases storage with
  | const => exact bind_relocate (Static.lowerConstant_rewrite hr ⟨.const, ty, value⟩) fun _ => rfl
  | static | staticMut =>
    exact bind_relocate (Static.lowerStatic_rewrite hr ⟨_, ty, value⟩) fun _ => rfl

theorem AssociatedType.lower_rewrite (a : AssociatedType) :
    (a.rewrite r).lower = a.lower.relocate r.place :=
  bind_relocate (Path.lowerPlainAll_rewrite hr [] a.bounds) fun _ =>
    bind_relocate (Ty.lowerOpt_rewrite hr a.default) fun _ => rfl

theorem TraitItem.lower_rewrite (item : TraitItem) :
    (item.rewrite r).lower = item.lower.relocate r.place := by
  cases item with
  | type a => exact bind_relocate (AssociatedType.lower_rewrite hr a) fun _ => rfl
  | function f => exact bind_relocate (Function.lower_rewrite hr f) fun _ => rfl
  | static s => exact bind_relocate (Static.lowerInTrait_rewrite hr s) fun _ => rfl

theorem TraitItem.lowerAll_rewrite (path : Core.ItemPath) (items : List (Named TraitItem))
    (out : Core.Trait) :
    TraitItem.lowerAll path (items.map (Named.rewriteInTrait r)) out =
      (TraitItem.lowerAll path items out).relocate r.place := by
  induction items generalizing out with
  | nil => rfl
  | cons item rest ih =>
    exact bind_relocate (TraitItem.lower_rewrite hr item.data) fun _ =>
      bind_relocate (duplicateAt_relocate r.place path item.span _) fun _ => ih _

theorem Trait.lower_rewrite (t : Trait) (path : Core.ItemPath) :
    (t.rewrite r).lower path = (t.lower path).relocate r.place := by
  have hhead : (t.rewrite r).lowerHead = t.lowerHead.relocate r.place :=
    bind_relocate (Path.lowerPlainAll_rewrite hr [] t.supertraits) fun _ =>
      bind_relocate (Generics.lower_rewrite hr t.generics) fun _ => rfl
  exact bind_relocate hhead fun out => TraitItem.lowerAll_rewrite hr path t.items out

end

mutual

theorem ItemKind.lower_rewrite {r : ItemRewriting} (hr : r.KeepsLowering) (name : String)
    (path : Core.ItemPath) : ∀ k : ItemKind,
    (k.rewrite r).lower name path = (k.lower name path).relocate r.place
  | .removed | .externCrate _ => rfl
  | .module m => Traced.bind_relocate (Module.lower_rewrite hr path m) fun _ => rfl
  | .typeAlias a =>
    Traced.bind_relocate (Traced.lift_relocate (TypeAlias.lower_rewrite hr a)) fun _ => rfl
  | .struct s =>
    Traced.bind_relocate (Traced.lift_relocate (Struct.lower_rewrite hr s)) fun _ => rfl
  | .enum e => Traced.bind_relocate (Traced.lift_relocate (Enum.lower_rewrite hr e)) fun _ => rfl
  | .trait t =>
    Traced.bind_relocate (Traced.lift_relocate (Trait.lower_rewrite hr t path)) fun _ => rfl
  | .function f =>
    Traced.bind_relocate (Traced.lift_relocate (Function.lower_rewrite hr f)) fun _ => rfl
  | .static s =>
    Traced.bind_relocate (Traced.lift_relocate (Static.lower_rewrite hr s)) fun _ => rfl

theorem Module.lower_rewrite {r : ItemRewriting} (hr : r.KeepsLowering) (path : Core.ItemPath) :
    ∀ m : Module, (m.rewrite r).lower path = (m.lower path).relocate r.place
  | .mk items anonymous _ _ _ =>
    Traced.bind_relocate rfl fun _ =>
      Traced.bind_relocate (ItemKind.lowerAll_rewrite hr items _) fun out =>
        Traced.bind_relocate (Module.lowerAnonymous_rewrite hr anonymous 0 out) fun _ => rfl

theorem ItemKind.lowerAll_rewrite {r : ItemRewriting} (hr : r.KeepsLowering) :
    ∀ (items : List (Named ItemKind)) (out : Core.Module),
    ItemKind.lowerAll (ItemKind.rewriteAll r items) out =
      (ItemKind.lowerAll items out).relocate r.place
  | [], _ => rfl
  | ⟨name, _, _, kind, span⟩ :: rest, _ =>
    Traced.bind_relocate rfl fun _ =>
      Traced.bind_relocate (ItemKind.lower_rewrite hr name _ kind) fun _ =>
        Traced.bind_relocate (Traced.lift_relocate (duplicateAt_relocate r.place _ span _))
          fun out => ItemKind.lowerAll_rewrite hr rest out

theorem Module.lowerAnonymous_rewrite {r : ItemRewriting} (hr : r.KeepsLowering) :
    ∀ (children : List Module) (index : Nat) (out : Core.Module),
    Module.lowerAnonymous (Module.rewriteAll r children) index out =
      (Module.lowerAnonymous children index out).relocate r.place
  | [], _, _ => rfl
  | child :: rest, index, out => by
    refine Traced.bind_relocate (Module.lower_rewrite hr _ child) fun _ =>
      Traced.bind_relocate (Traced.lift_relocate ?_) fun out =>
        Module.lowerAnonymous_rewrite hr rest (index + 1) out
    -- a clash is reported at the child's own place, which has moved with it
    rw [Module.span_rewrite]
    exact duplicateAt_relocate r.place _ child.span _

end

end Surface

end Lowering
