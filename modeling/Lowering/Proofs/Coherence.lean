import Lowering.Proofs.Entries

/-!
# Coherence of a lowered tree

The modules of a lowered tree know where they are: the path of a module is the
path of the root followed by the keys that lead to it. In every one of them the
value of a struct and the struct itself stand under one name, with one
visibility, and the value's type is the path of the struct, which leads back to it
from the root.

One step of the way is `Module.lower_submodule`: the child under a key was lowered
at the path joined with that key. `Module.lower_descend` is the whole way. Main
statement: `Module.lower_coherent`.
-/

namespace Lowering

namespace Core

/-! ## Paths of walks -/

/-- The path of what a walk by name leads to. -/
def ItemPath.joinAll (p : ItemPath) (names : List String) : ItemPath := names.foldl join p

theorem ItemPath.joinAll_eq (p : ItemPath) (names : List String) :
    p.joinAll names = ⟨p.crate, p.components ++ names⟩ := by
  induction names generalizing p with
  | nil => simp [joinAll]
  | cons n names ih =>
    have hstep : p.joinAll (n :: names) = (p.join n).joinAll names := rfl
    rw [hstep, ih, join]
    simp

/-- Different walks lead to different paths. -/
theorem ItemPath.joinAll_injective (p : ItemPath) {names names' : List String}
    (h : p.joinAll names = p.joinAll names') : names = names' := by
  rw [joinAll_eq, joinAll_eq] at h
  exact List.append_cancel_left (ItemPath.mk.inj h).2

namespace Module

/-- The type that a walk by name leads to: the last name is one of a type, those
before it are of child modules. -/
def walk? (m : Module) : List String → Option (Visible TypeEntry)
  | [] => none
  | [n] => m.typeEntry? n
  | n :: n' :: ns => do
    let child ← m.submodule? n
    child.walk? (n' :: ns)

/-- The type that a canonical path names in the tree of `root`, whose own path it
has to start with. -/
def resolve? (root : Module) (p : ItemPath) : Option (Visible TypeEntry) :=
  if p.crate = root.path.crate ∧ root.path.components <+: p.components then
    root.walk? (p.components.drop root.path.components.length)
  else none

theorem submodule?_eq_some {m child : Module} {n : String} :
    m.submodule? n = some child ↔ ∃ v, m.typeEntry? n = some ⟨v, .module child⟩ := by
  unfold submodule?
  split
  case h_1 v c he => simp [he]
  case h_2 hne =>
    simp only [reduceCtorEq, false_iff, not_exists]
    exact fun v hv => hne v child hv

theorem descend?_cons {m child : Module} {n : String} {ns : List String} :
    m.descend? (n :: ns) = some child ↔
      ∃ next, m.submodule? n = some next ∧ next.descend? ns = some child :=
  Option.bind_eq_some_iff

theorem walk?_descend {root child : Module} {keys : List String}
    (h : root.descend? keys = some child) (n : String) :
    root.walk? (keys ++ [n]) = child.typeEntry? n := by
  induction keys generalizing root with
  | nil =>
    cases h
    rfl
  | cons key keys ih =>
    obtain ⟨next, hnext, hrest⟩ := descend?_cons.mp h
    have hwalk : root.walk? (key :: (keys ++ [n])) =
        (root.submodule? key).bind fun child => child.walk? (keys ++ [n]) := by
      cases keys <;> rfl
    rw [List.cons_append, hwalk, hnext]
    exact ih hrest

/-- A path that goes on from the root's by the keys of a walk and one name more
names the type under it in the module reached. -/
theorem resolve?_joinAll {root child : Module} {keys : List String}
    (h : root.descend? keys = some child) (n : String) :
    root.resolve? ((root.path.joinAll keys).join n) = child.typeEntry? n := by
  have hpath : (root.path.joinAll keys).join n =
      ⟨root.path.crate, root.path.components ++ (keys ++ [n])⟩ := by
    rw [ItemPath.joinAll_eq, ItemPath.join, List.append_assoc]
  rw [hpath, resolve?, if_pos ⟨rfl, List.prefix_append _ _⟩, List.drop_left]
  exact walk?_descend h n

end Module

/-! ## Values of structs -/

/-- Whether a value is that of a struct. -/
def ValueEntry.isStructValue : ValueEntry → Bool
  | .structConstant _ | .structConstructor _ => true
  | .constant _ | .static _ | .function _ => false

section

variable {data : Fields} {p : ItemPath}

theorem Fields.isStructValue_of_value? {value : ValueEntry} (h : data.value? p = some value) :
    value.isStructValue = true := by
  cases data <;> cases h <;> rfl

theorem Fields.value?_eq_constant {ty : Ty} :
    data.value? p = some (.structConstant ty) ↔ data = .unit ∧ ty = .path (.ofItem p) := by
  cases data <;> simp [Fields.value?, eq_comm]

theorem Fields.value?_eq_constructor {ty : Ty} :
    data.value? p = some (.structConstructor ty) ↔
      (∃ fs, data = .tuple fs) ∧ ty = .path (.ofItem p) := by
  cases data <;> simp [Fields.value?, eq_comm]

end

/-- The entries of the module `m` under the name `n` agree, in the tree of `root`:
a value of a struct stands beside that struct and has its visibility and its path
for type, and a struct stands beside the value that its fields ask for. -/
structure Module.StructCoherent (root m : Module) (n : String) : Prop where
  constant : (∃ v ty, m.valueEntry? n = some ⟨v, .structConstant ty⟩) ↔
    ∃ v g, m.typeEntry? n = some ⟨v, .struct ⟨g, .unit⟩⟩
  constructor : (∃ v ty, m.valueEntry? n = some ⟨v, .structConstructor ty⟩) ↔
    ∃ v g fs, m.typeEntry? n = some ⟨v, .struct ⟨g, .tuple fs⟩⟩
  ofStruct : ∀ v ty, (m.valueEntry? n = some ⟨v, .structConstant ty⟩ ∨
      m.valueEntry? n = some ⟨v, .structConstructor ty⟩) →
    ty = .path (.ofItem (m.path.join n)) ∧ ∃ s, m.typeEntry? n = some ⟨v, .struct s⟩ ∧
      root.resolve? (m.path.join n) = some ⟨v, .struct s⟩
  named : ∀ v g fs e, m.typeEntry? n = some ⟨v, .struct ⟨g, .named fs⟩⟩ →
    m.valueEntry? n = some e → e.item.isStructValue = false

end Core

namespace Surface

open Lowering.Core (ValueEntry)

theorem Static.isStructValue_of_lower {s : Static} {value : ValueEntry}
    (h : s.lower = .ok value) : value.isStructValue = false := by
  unfold Static.lower at h
  split at h <;>
  · obtain ⟨_, -, ⟨⟩⟩ := Lowered.bind_eq_ok.mp h
    rfl

/-- Of the items, only structs define values of structs, and those that their
fields ask for. -/
theorem ItemKind.Defines.structValue_iff {kind : ItemKind} {path : Core.ItemPath}
    {defs : Core.Definitions} (h : kind.Defines path defs) (value : ValueEntry) :
    defs.value? = some value ∧ value.isStructValue = true ↔
      ∃ s, defs.type? = some (.struct s) ∧ s.data.value? path = some value := by
  constructor
  · rintro ⟨hvalue, hstruct⟩
    cases h with
    | struct hs => exact ⟨_, rfl, hvalue⟩
    | static hs =>
      cases hvalue
      rw [Static.isStructValue_of_lower hs] at hstruct
      cases hstruct
    | function hf =>
      cases hvalue
      cases hstruct
    | _ => cases hvalue
  · rintro ⟨s, htype, hvalue⟩
    cases h with
    | struct hs =>
      cases htype
      exact ⟨hvalue, Core.Fields.isStructValue_of_value? hvalue⟩
    | _ => cases htype

theorem ItemKind.LowersToType.lower_module {kind : ItemKind} {path : Core.ItemPath}
    {child : Core.Module} (h : kind.LowersToType path (.module child)) :
    ∃ m : Module, (m.lower path).outcome = .ok child := by
  cases h with
  | module hm => exact ⟨_, hm⟩

section

variable {m : Module} {path : Core.ItemPath} {out : Core.Module}

/-- The value of a struct stands under a name exactly when the struct does, with
the same visibility. -/
theorem Module.lower_structValue (h : (m.lower path).outcome = .ok out) (n : String)
    (v : Bool) (value : ValueEntry) :
    out.valueEntry? n = some ⟨v, value⟩ ∧ value.isStructValue = true ↔
      ∃ s, out.typeEntry? n = some ⟨v, .struct s⟩ ∧ s.data.value? (path.join n) = some value := by
  obtain ⟨hfill, hdef⟩ := Module.lower_filledBy h
  constructor
  · rintro ⟨hvalue, hstruct⟩
    obtain ⟨item, hi, rfl, a, ha, he⟩ := Named.mem_entries.mp ((hfill.values.get? _ _).mp hvalue)
    cases he
    obtain ⟨s, hs, hdata⟩ := ((hdef item hi).structValue_iff value).mp ⟨ha, hstruct⟩
    have hentry := Named.mem_entries.mpr ⟨item, hi, rfl, _, hs, rfl⟩
    exact ⟨s, (hfill.types.get? _ _).mpr hentry, hdata⟩
  · rintro ⟨s, htype, hdata⟩
    obtain ⟨item, hi, rfl, t, ht, he⟩ := Named.mem_entries.mp ((hfill.types.get? _ _).mp htype)
    cases he
    obtain ⟨ha, hstruct⟩ := ((hdef item hi).structValue_iff value).mpr ⟨s, ht, hdata⟩
    have hentry := Named.mem_entries.mpr ⟨item, hi, rfl, _, ha, rfl⟩
    exact ⟨(hfill.values.get? _ _).mpr hentry, hstruct⟩

/-- The child of a lowered module under a name was lowered at the path joined with
that name. -/
theorem Module.lower_submodule (h : (m.lower path).outcome = .ok out) {n : String}
    {child : Core.Module} (hchild : out.submodule? n = some child) :
    ∃ m' : Module, (m'.lower (path.join n)).outcome = .ok child := by
  obtain ⟨hfill, hdef⟩ := Module.lower_filledBy h
  obtain ⟨v, hentry⟩ := Core.Module.submodule?_eq_some.mp hchild
  obtain ⟨item, hi, rfl, t, ht, he⟩ := Named.mem_entries.mp ((hfill.types.get? _ _).mp hentry)
  cases he
  exact (((hdef item hi).type_iff _).mp ht).lower_module

/-- Every module of a lowered tree was lowered at the path of the walk to it. -/
theorem Module.lower_descend (h : (m.lower path).outcome = .ok out) {keys : List String}
    {child : Core.Module} (hchild : out.descend? keys = some child) :
    ∃ m' : Module, (m'.lower (path.joinAll keys)).outcome = .ok child := by
  induction keys generalizing m path out with
  | nil =>
    cases hchild
    exact ⟨m, h⟩
  | cons key keys ih =>
    obtain ⟨next, hnext, hrest⟩ := Core.Module.descend?_cons.mp hchild
    obtain ⟨m', hm'⟩ := Module.lower_submodule h hnext
    exact ih hm' hrest

theorem Module.lower_path (h : (m.lower path).outcome = .ok out) : out.path = path :=
  (Module.lower_filledBy h).1.path

/-- The path of a module of a lowered tree is the path of the walk to it. -/
theorem Module.descend_path (h : (m.lower path).outcome = .ok out) {keys : List String}
    {child : Core.Module} (hchild : out.descend? keys = some child) :
    child.path = path.joinAll keys := by
  obtain ⟨m', hm'⟩ := Module.lower_descend h hchild
  exact Module.lower_path hm'

/-- Structs and their values agree in every module of a lowered tree. -/
theorem Module.descend_structCoherent (h : (m.lower path).outcome = .ok out) {keys : List String}
    {child : Core.Module} (hchild : out.descend? keys = some child) (n : String) :
    Core.Module.StructCoherent out child n := by
  obtain ⟨m', hm'⟩ := Module.lower_descend h hchild
  have hvalue := Module.lower_structValue hm' n
  rw [← Module.lower_path hm'] at hvalue
  have hresolve : out.resolve? (child.path.join n) = child.typeEntry? n := by
    rw [Module.descend_path h hchild, ← Module.lower_path h]
    exact Core.Module.resolve?_joinAll hchild n
  refine ⟨⟨?_, ?_⟩, ⟨?_, ?_⟩, ?_, ?_⟩
  · rintro ⟨v, ty, hv⟩
    obtain ⟨⟨g, data⟩, hs, hd⟩ := (hvalue v _).mp ⟨hv, rfl⟩
    obtain ⟨rfl, -⟩ := Core.Fields.value?_eq_constant.mp hd
    exact ⟨v, g, hs⟩
  · rintro ⟨v, g, hs⟩
    exact ⟨v, _, ((hvalue v _).mpr ⟨_, hs, rfl⟩).1⟩
  · rintro ⟨v, ty, hv⟩
    obtain ⟨⟨g, data⟩, hs, hd⟩ := (hvalue v _).mp ⟨hv, rfl⟩
    obtain ⟨⟨fs, rfl⟩, -⟩ := Core.Fields.value?_eq_constructor.mp hd
    exact ⟨v, g, fs, hs⟩
  · rintro ⟨v, g, fs, hs⟩
    exact ⟨v, _, ((hvalue v _).mpr ⟨_, hs, rfl⟩).1⟩
  · rintro v ty (hv | hv)
    · obtain ⟨s, hs, hd⟩ := (hvalue v _).mp ⟨hv, rfl⟩
      exact ⟨(Core.Fields.value?_eq_constant.mp hd).2, s, hs, hresolve.trans hs⟩
    · obtain ⟨s, hs, hd⟩ := (hvalue v _).mp ⟨hv, rfl⟩
      exact ⟨(Core.Fields.value?_eq_constructor.mp hd).2, s, hs, hresolve.trans hs⟩
  · intro v g fs e hs he
    rw [Bool.eq_false_iff]
    intro hstruct
    obtain ⟨s, hs', hd⟩ := (hvalue e.isPub e.item).mp ⟨he, hstruct⟩
    -- the type under the name is one struct, and its named fields ask for no value
    cases hs.symm.trans hs'
    cases hd

end

/-- A lowered tree is coherent. Every module that a walk from the root reaches has
the root's path followed by the keys of the walk, so that modules at different
places have different paths, and under every name of it structs and values of
structs agree. -/
theorem Module.lower_coherent (m : Module) (path : Core.ItemPath) (out : Core.Module)
    (h : (m.lower path).outcome = .ok out) :
    (∀ keys child, out.descend? keys = some child →
      child.path = keys.foldl Core.ItemPath.join path) ∧
    (∀ keys keys' child child', out.descend? keys = some child → out.descend? keys' = some child' →
      child.path = child'.path → keys = keys') ∧
    ∀ keys child, out.descend? keys = some child → ∀ n, Core.Module.StructCoherent out child n := by
  refine ⟨fun keys child hc => Module.descend_path h hc, ?_,
    fun keys child hc => Module.descend_structCoherent h hc⟩
  intro keys keys' child child' hc hc' heq
  rw [Module.descend_path h hc, Module.descend_path h hc'] at heq
  exact path.joinAll_injective heq

/-- A block with the module `mod a { pub struct P(u8); struct U; }` in it. -/
def structsInBlock : Module :=
  let named (name : String) (isPub : Bool) (kind : ItemKind) : Named ItemKind :=
    ⟨name, isPub, {}, kind, .dummy⟩
  let byte : TupleField := ⟨false, .primitive .dummy (.keyword .u8), {}⟩
  let a : Module := .mk [named "P" true (.struct ⟨{}, .tuple [byte]⟩),
    named "U" false (.struct ⟨{}, .tuple []⟩)] [] [] [] .dummy
  .mk [] [.mk [named "a" false (.module a)] [] [] [] .dummy] [] [] .dummy

theorem structsInBlock_coherent : ∃ out child,
    (structsInBlock.lower (.root "k")).outcome = .ok out ∧
    out.descend? ["#0", "a"] = some child ∧ child.path = ⟨"k", ["#0", "a"]⟩ ∧
    ∃ s, out.resolve? ⟨"k", ["#0", "a", "P"]⟩ = some ⟨true, .struct s⟩ := by
  refine ⟨_, _, rfl, rfl, ?_, ?_⟩
  · exact (Module.lower_coherent structsInBlock (.root "k") _ rfl).1 ["#0", "a"] _ rfl
  · have hP := (Module.lower_coherent structsInBlock (.root "k") _ rfl).2.2 ["#0", "a"] _ rfl "P"
    obtain ⟨-, s, -, hs⟩ := hP.ofStruct true _ (.inr rfl)
    exact ⟨s, hs⟩

end Surface

end Lowering
