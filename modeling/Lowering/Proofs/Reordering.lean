import Lowering.Proofs.Declared
import Mathlib.Data.Option.NAry
import Mathlib.Logic.Relation

/-!
# Declaration order

The items of a module and those of a trait may stand in any order. What two
orders may change is the diagnostic that lowering stops at, never whether it
stops and never what it gives, so results are compared with diagnostics left out
(`Except.toOption`).

What is proved:
  1. `Named.enter?_comm`, `Named.enterTrait?_comm`: two items are added in either
     order, or in neither. An item may add to both name spaces.
  2. `foldlM_perm`: steps that commute give the same in any order.
  3. `Module.Step.lower_eq`: one reordering anywhere in the tree keeps what the
     module lowers to.
Main statement: `Module.lower_reordered`.
-/

namespace Lowering

/-! ## Results without their diagnostics -/

section

variable {ε α β : Type}

theorem toOption_bind (x : Except ε α) (f : α → Except ε β) :
    (x >>= f).toOption = x.toOption.bind fun a => (f a).toOption := by
  cases x <;> rfl

theorem toOption_eq_some {x : Except ε α} {a : α} : x.toOption = some a ↔ x = .ok a := by
  cases x <;> simp [Except.toOption]

end

/-- Steps that commute lead to the same state in any order. -/
theorem foldlM_perm {σ ι : Type} {step : σ → ι → Option σ}
    (hcomm : ∀ s i j, (step s i).bind (step · j) = (step s j).bind (step · i)) {l l' : List ι}
    (h : l.Perm l') (s : σ) : l.foldlM step s = l'.foldlM step s := by
  induction h generalizing s with
  | nil => rfl
  | cons i _ ih =>
    rw [List.foldlM_cons, List.foldlM_cons]
    exact congrArg (step s i).bind (funext ih)
  | swap i j l =>
    simp only [List.foldlM_cons, Option.bind_eq_bind, ← Option.bind_assoc]
    rw [hcomm]
  | trans _ _ ih₁ ih₂ => exact (ih₁ s).trans (ih₂ s)

/-- A step may stand for another that leads to the same states. -/
theorem foldlM_replace {σ ι : Type} {step : σ → ι → Option σ} {i j : ι}
    (h : ∀ s, step s i = step s j) (before after : List ι) (s : σ) :
    (before ++ i :: after).foldlM step s = (before ++ j :: after).foldlM step s := by
  simp only [List.foldlM_append, List.foldlM_cons, h]

/-! ## Entries in either order -/

/-- Adds an entry that may be absent. -/
def NameMap.addIf? {α : Type} (m : NameMap α) (name : String) : Option α → Option (NameMap α)
  | none => some m
  | some a => m.add? name a

theorem NameMap.addIf?_comm {α : Type} (m : NameMap α) (a b : String) (x? y? : Option α) :
    (m.addIf? a x?).bind (·.addIf? b y?) = (m.addIf? b y?).bind (·.addIf? a x?) := by
  cases x? with
  | none => cases y? <;> simp [addIf?]
  | some x =>
    cases y? with
    | none => simp [addIf?]
    | some y => exact m.add?_comm a b x y

namespace Core

/-- Adds a value and a type under one name, either of which may be absent. -/
def addBoth? {α β : Type} (spaces : NameMap α × NameMap β) (name : String) (value? : Option α)
    (type? : Option β) : Option (NameMap α × NameMap β) :=
  Option.map₂ Prod.mk (spaces.1.addIf? name value?) (spaces.2.addIf? name type?)

theorem addBoth?_bind {α β : Type} (spaces : NameMap α × NameMap β) (a b : String)
    (v? w? : Option α) (t? u? : Option β) :
    (addBoth? spaces a v? t?).bind (addBoth? · b w? u?) =
      Option.map₂ Prod.mk ((spaces.1.addIf? a v?).bind (·.addIf? b w?))
        ((spaces.2.addIf? a t?).bind (·.addIf? b u?)) := by
  unfold addBoth?
  cases spaces.1.addIf? a v? with
  | none => rfl
  | some vs =>
    cases spaces.2.addIf? a t? with
    | none => exact (Option.map₂_none_right _ _).symm
    | some ts => rfl

theorem addBoth?_comm {α β : Type} (spaces : NameMap α × NameMap β) (a b : String)
    (v? w? : Option α) (t? u? : Option β) :
    (addBoth? spaces a v? t?).bind (addBoth? · b w? u?) =
      (addBoth? spaces b w? u?).bind (addBoth? · a v? t?) := by
  rw [addBoth?_bind, addBoth?_bind, spaces.1.addIf?_comm, spaces.2.addIf?_comm]

theorem Namespace.add_toOption {α σ : Type} (space : Namespace) (m : NameMap α) (name : String)
    (value : α) (f : NameMap α → σ) :
    ((space.add m name value).map f).outcome.toOption = (m.add? name value).map f := by
  unfold Namespace.add
  cases m.add? name value <;> rfl

/-! ## Items in either order -/

/-- Adds a value and a type to a module; diagnostics are left out. -/
def Module.enter? (m : Module) (name : String) (value? : Option (Visible ValueEntry))
    (type? : Option (Visible TypeEntry)) : Option Module :=
  (addBoth? (m.values, m.types) name value? type?).map fun spaces => .mk m.path spaces.2 spaces.1

theorem Module.declare_toOption (m : Module) (name : String) (isPub : Bool) (d : Definitions) :
    (m.declare name isPub d).toOption =
      m.enter? name (d.value?.map (⟨isPub, ·⟩)) (d.type?.map (⟨isPub, ·⟩)) := by
  have hvalue : (m.addValue? name isPub d.value?).toOption =
      (m.values.addIf? name (d.value?.map (⟨isPub, ·⟩))).map (.mk m.path m.types) := by
    cases d.value? with
    | none => cases m; rfl
    | some v => exact Namespace.add_toOption ..
  have htype : ∀ vs, ((Module.mk m.path m.types vs).addType? name isPub d.type?).toOption =
      (m.types.addIf? name (d.type?.map (⟨isPub, ·⟩))).map fun ts => .mk m.path ts vs := by
    intro vs
    cases d.type? with
    | none => rfl
    | some t => exact Namespace.add_toOption ..
  rw [declare_eq, toOption_bind, hvalue, enter?, addBoth?, Option.bind_map, Option.map_map₂]
  exact congrArg _ (funext htype)

theorem Module.enter?_comm (m : Module) (a b : String) (v? w? : Option (Visible ValueEntry))
    (t? u? : Option (Visible TypeEntry)) :
    (m.enter? a v? t?).bind (·.enter? b w? u?) = (m.enter? b w? u?).bind (·.enter? a v? t?) := by
  have htwo : ∀ a b v? w? t? u?, (m.enter? a v? t?).bind (·.enter? b w? u?) =
      ((addBoth? (m.values, m.types) a v? t?).bind (addBoth? · b w? u?)).map
        fun spaces => .mk m.path spaces.2 spaces.1 := by
    intro a b v? w? t? u?
    rw [enter?, Option.bind_map, Option.map_bind]
    rfl
  rw [htwo, htwo, addBoth?_comm]

theorem Module.enter?_path {m m' : Module} {name : String} {v? : Option (Visible ValueEntry)}
    {t? : Option (Visible TypeEntry)} (h : m.enter? name v? t? = some m') : m'.path = m.path := by
  obtain ⟨_, -, rfl⟩ := Option.map_eq_some_iff.mp h
  rfl

theorem Module.declare_path {m m' : Module} {name : String} {isPub : Bool} {d : Definitions}
    (h : m.declare name isPub d = .ok m') : m'.path = m.path := by
  have hentered : (m.declare name isPub d).toOption = some m' := toOption_eq_some.mpr h
  rw [Module.declare_toOption] at hentered
  exact Module.enter?_path hentered

/-- The associated type of an entry. -/
def TraitEntry.type? : TraitEntry → Option AssociatedType
  | .type a => some a
  | .value _ => none

/-- The associated value of an entry. -/
def TraitEntry.value? : TraitEntry → Option TraitValue
  | .type _ => none
  | .value v => some v

/-- Adds an entry to a trait; diagnostics are left out. -/
def Trait.enter? (t : Trait) (name : String) (entry : TraitEntry) : Option Trait :=
  (addBoth? (t.values, t.types) name entry.value? entry.type?).map
    fun spaces => { t with types := spaces.2, values := spaces.1 }

theorem Trait.add_toOption (t : Trait) (name : String) (entry : TraitEntry) :
    (t.add name entry).outcome.toOption = t.enter? name entry := by
  cases entry with
  | type a =>
    refine (Namespace.add_toOption ..).trans ?_
    simp [enter?, addBoth?, NameMap.addIf?, TraitEntry.value?, TraitEntry.type?, Function.comp_def]
  | value v =>
    refine (Namespace.add_toOption ..).trans ?_
    simp [enter?, addBoth?, NameMap.addIf?, TraitEntry.value?, TraitEntry.type?, Function.comp_def]

theorem Trait.enter?_comm (t : Trait) (a b : String) (d e : TraitEntry) :
    (t.enter? a d).bind (·.enter? b e) = (t.enter? b e).bind (·.enter? a d) := by
  have htwo : ∀ a b d e, (t.enter? a d).bind (·.enter? b e) =
      ((addBoth? (t.values, t.types) a d.value? d.type?).bind
        (addBoth? · b e.value? e.type?)).map
          fun spaces => { t with types := spaces.2, values := spaces.1 } := by
    intro a b d e
    rw [enter?, Option.bind_map, Option.map_bind]
    rfl
  rw [htwo, htwo, addBoth?_comm]

end Core

namespace Surface

/-- Adds what an item defines to a module; diagnostics are left out. -/
def Named.enter? (out : Core.Module) (item : Named ItemKind) : Option Core.Module :=
  (item.define out.path).toOption.bind fun defs =>
    (out.declare item.name item.isPub defs).toOption

theorem Named.enter?_comm (out : Core.Module) (i j : Named ItemKind) :
    (Named.enter? out i).bind (Named.enter? · j) =
      (Named.enter? out j).bind (Named.enter? · i) := by
  -- what an item defines depends on the module's path, which no item changes
  have htwo : ∀ i j, (Named.enter? out i).bind (Named.enter? · j) =
      (i.define out.path).toOption.bind fun d => (j.define out.path).toOption.bind fun e =>
        (out.declare i.name i.isPub d).toOption.bind fun out =>
          (out.declare j.name j.isPub e).toOption := by
    intro i j
    unfold Named.enter?
    rw [Option.bind_assoc]
    refine congrArg _ (funext fun d => ?_)
    cases hd : (out.declare i.name i.isPub d).toOption with
    | none => cases (j.define out.path).toOption <;> rfl
    | some out₁ =>
      rw [Core.Module.declare_toOption] at hd
      simp only [Option.bind_some, Core.Module.enter?_path hd]
  rw [htwo, htwo, Option.bind_comm]
  simp only [Core.Module.declare_toOption, Core.Module.enter?_comm out i.name]

theorem duplicateAt_toOption {α : Type} (path : Core.ItemPath) (span : Location)
    (r : Except Core.NameClash α) : (duplicateAt path span r).toOption = r.toOption := by
  cases r <;> rfl

theorem ItemKind.lowerAll_toOption (items : List (Named ItemKind)) (out : Core.Module) :
    (ItemKind.lowerAll items out).outcome.toOption = items.foldlM Named.enter? out := by
  induction items generalizing out with
  | nil => rfl
  | cons item rest ih =>
    rw [ItemKind.lowerAll_cons, List.foldlM_cons, Named.enter?, Option.bind_eq_bind,
      Option.bind_assoc]
    simp only [toOption_bind, duplicateAt_toOption, ih]

theorem ItemKind.path_of_lowerAll {items : List (Named ItemKind)} {out out' : Core.Module}
    (h : (ItemKind.lowerAll items out).outcome = .ok out') : out'.path = out.path := by
  induction items generalizing out with
  | nil =>
    cases h
    rfl
  | cons item rest ih =>
    rw [ItemKind.lowerAll_cons] at h
    obtain ⟨defs, _, h⟩ := Lowered.bind_eq_ok.mp h
    obtain ⟨next, hnext, h⟩ := Lowered.bind_eq_ok.mp h
    rw [ih h, Core.Module.declare_path (duplicateAt_eq_ok.mp hnext)]

/-- Adds an item to a trait; diagnostics are left out. -/
def Named.enterTrait? (out : Core.Trait) (item : Named TraitItem) : Option Core.Trait :=
  item.data.lower.toOption.bind fun entry =>
    (out.add item.name entry).outcome.toOption

theorem Named.enterTrait?_comm (out : Core.Trait) (i j : Named TraitItem) :
    (Named.enterTrait? out i).bind (Named.enterTrait? · j) =
      (Named.enterTrait? out j).bind (Named.enterTrait? · i) := by
  have htwo : ∀ i j : Named TraitItem, (Named.enterTrait? out i).bind (Named.enterTrait? · j) =
      i.data.lower.toOption.bind fun d => j.data.lower.toOption.bind fun e =>
        (out.enter? i.name d).bind (·.enter? j.name e) := by
    intro i j
    simp only [Named.enterTrait?, Option.bind_assoc, Core.Trait.add_toOption]
    exact congrArg _ (funext fun d => Option.bind_comm _ _)
  rw [htwo, htwo, Option.bind_comm]
  simp only [Core.Trait.enter?_comm out i.name]

theorem TraitItem.lowerAll_toOption (path : Core.ItemPath) (items : List (Named TraitItem))
    (out : Core.Trait) :
    (TraitItem.lowerAll path items out).toOption = items.foldlM Named.enterTrait? out := by
  induction items generalizing out with
  | nil => rfl
  | cons item rest ih =>
    rw [TraitItem.lowerAll, List.foldlM_cons, Named.enterTrait?, Option.bind_eq_bind,
      Option.bind_assoc]
    simp only [toOption_bind, duplicateAt_toOption, ih]

theorem Trait.lower_perm {t : Trait} {items : List (Named TraitItem)} (h : t.items.Perm items)
    (path : Core.ItemPath) :
    (Trait.lower { t with items } path).toOption = (t.lower path).toOption := by
  rw [Trait.lower, Trait.lower, toOption_bind, toOption_bind]
  simp only [TraitItem.lowerAll_toOption, foldlM_perm Named.enterTrait?_comm h]
  rfl

/-! ## Reorderings of a tree -/

/-- One list of items in the tree of a module is permuted: the module's own, that
of a trait, or one in the tree of a child, with a name or without. -/
inductive Module.Step : Module → Module → Prop
  | items {items items' anonymous macros imports span} : items.Perm items' →
      Step (.mk items anonymous macros imports span) (.mk items' anonymous macros imports span)
  | trait (before after) {anonymous macros imports span t items} {item : Named ItemKind} :
      item.data = .trait t → t.items.Perm items →
      Step (.mk (before ++ item :: after) anonymous macros imports span)
        (.mk (before ++ { item with data := .trait { t with items } } :: after) anonymous macros
          imports span)
  | named (before after) {anonymous macros imports span m m'} {item : Named ItemKind} :
      item.data = .module m → Step m m' →
      Step (.mk (before ++ item :: after) anonymous macros imports span)
        (.mk (before ++ { item with data := .module m' } :: after) anonymous macros imports span)
  | anonymous (before after) {items macros imports span m m'} : Step m m' →
      Step (.mk items (before ++ m :: after) macros imports span)
        (.mk items (before ++ m' :: after) macros imports span)

/-- Any lists of items in the tree of a module are permuted, each on its own. -/
abbrev Module.Reordered : Module → Module → Prop := Relation.ReflTransGen Module.Step

theorem Module.anonymousItems_append (first second : List Module) (index : Nat) :
    Module.anonymousItems index (first ++ second) =
      Module.anonymousItems index first ++
        Module.anonymousItems (index + first.length) second := by
  induction first generalizing index with
  | nil => rfl
  | cons m rest ih =>
    simp only [List.cons_append, Module.anonymousItems, ih, List.length_cons, Nat.add_assoc,
      Nat.add_comm 1]

theorem Module.lower_toOption (items : List (Named ItemKind)) (anonymous : List Module)
    (macros imports : List NamedMacro) (span : Location) (path : Core.ItemPath) :
    ((Module.mk items anonymous macros imports span).lower path).outcome.toOption =
      (items ++ Module.anonymousItems 0 anonymous).foldlM Named.enter? (.empty path) := by
  rw [Module.lower_outcome, ItemKind.lowerAll_toOption]
  rfl

/-- Items of one name and visibility that define the same are added alike. -/
theorem Named.enter?_congr {i j : Named ItemKind} (hname : i.name = j.name)
    (hpub : i.isPub = j.isPub) (h : ∀ path, (i.define path).toOption = (j.define path).toOption)
    (out : Core.Module) : Named.enter? out i = Named.enter? out j := by
  simp only [Named.enter?, h, hname, hpub]

theorem Named.define_trait {i : Named ItemKind} {t : Trait} (h : i.data = .trait t)
    (path : Core.ItemPath) : (i.define path).toOption =
      (t.lower (path.join i.name)).toOption.map fun t => { type? := some (.trait t) } := by
  unfold Named.define
  rw [h, ItemKind.lower, Traced.outcome_bind, Traced.outcome_lift, toOption_bind]
  exact Option.map_eq_bind.symm

theorem Named.define_module {i : Named ItemKind} {m : Module} (h : i.data = .module m)
    (path : Core.ItemPath) : (i.define path).toOption =
      (m.lower (path.join i.name)).outcome.toOption.map fun m => { type? := some (.module m) } := by
  unfold Named.define
  rw [h, ItemKind.lower, Traced.outcome_bind, toOption_bind]
  exact Option.map_eq_bind.symm

/-- One reordering keeps what the module lowers to, at every path. -/
theorem Module.Step.lower_eq {m m' : Module} (h : m.Step m') (path : Core.ItemPath) :
    (m.lower path).outcome.toOption = (m'.lower path).outcome.toOption := by
  induction h generalizing path with
  | items h =>
    -- the anonymous children come after the items and stay where they are
    rw [Module.lower_toOption, Module.lower_toOption]
    exact foldlM_perm Named.enter?_comm (h.append_right _) _
  | trait before after hdata h =>
    rw [Module.lower_toOption, Module.lower_toOption, List.append_assoc, List.append_assoc]
    refine foldlM_replace ?_ _ _ _
    refine Named.enter?_congr rfl rfl fun path => ?_
    rw [Named.define_trait hdata, Named.define_trait rfl, Trait.lower_perm h]
  | named before after hdata h ih =>
    -- the child's path is the same, and the induction hypothesis is for every path
    rw [Module.lower_toOption, Module.lower_toOption, List.append_assoc, List.append_assoc]
    refine foldlM_replace ?_ _ _ _
    refine Named.enter?_congr rfl rfl fun path => ?_
    rw [Named.define_module hdata, Named.define_module rfl, ih]
  | anonymous before after h ih =>
    rw [Module.lower_toOption, Module.lower_toOption, Module.anonymousItems_append,
      Module.anonymousItems_append, ← List.append_assoc, ← List.append_assoc]
    refine foldlM_replace ?_ _ _ _
    refine Named.enter?_congr rfl rfl fun path => ?_
    rw [Named.define_module rfl, Named.define_module rfl, ih]

/-- The order of declaration is irrelevant: a module and any reordering of it both
lower to the same module, or neither lowers. -/
theorem Module.lower_reordered {m m' : Module} (h : m.Reordered m') (path : Core.ItemPath)
    (out : Core.Module) :
    (m.lower path).outcome = .ok out ↔ (m'.lower path).outcome = .ok out := by
  have heq : (m.lower path).outcome.toOption = (m'.lower path).outcome.toOption := by
    induction h with
    | refl => rfl
    | tail _ hstep ih => exact ih.trans (hstep.lower_eq path)
  rw [← toOption_eq_some, ← toOption_eq_some, heq]

/-- A module with a unit struct and a named child beside a block of two items. The
child holds a trait of two items. The lists of the module, of the trait and of the
block can be turned. -/
def turnable (turnModule turnTrait turnBlock : Bool) : Module :=
  let list {α : Type} (turn : Bool) (l : List α) : List α := if turn then l.reverse else l
  let item (name : String) (kind : ItemKind) : Named ItemKind := ⟨name, false, {}, kind, .dummy⟩
  let one : Named TraitItem := ⟨"A", false, {}, .type ⟨[], none⟩, .dummy⟩
  let two : Named TraitItem := ⟨"N", false, {}, .static ⟨.const, .unit .dummy, none⟩, .dummy⟩
  let child : Module :=
    .mk [item "T" (.trait ⟨{}, [], list turnTrait [one, two]⟩)] [] [] [] .dummy
  let unit : ItemKind := .struct ⟨{}, .tuple []⟩
  let block : Module :=
    .mk (list turnBlock [item "V" unit, item "std" (.externCrate "std")]) [] [] [] .dummy
  .mk (list turnModule [item "U" unit, item "m" (.module child)]) [block] [] [] .dummy

theorem turnable_turned : (turnable false false false).Reordered (turnable true true true) ∧
    ∃ out, ((turnable false false false).lower (.root "k")).outcome = .ok out ∧
      ((turnable true true true).lower (.root "k")).outcome = .ok out := by
  have hblock : (turnable false false false).Step (turnable false false true) :=
    .anonymous [] [] (.items (.swap _ _ []))
  have htrait : (turnable false false true).Step (turnable false true true) :=
    .named [_] [] rfl (.trait [] [] (t := ⟨{}, [], [_, _]⟩) rfl (.swap _ _ []))
  have hmodule : (turnable false true true).Step (turnable true true true) :=
    .items (.swap _ _ [])
  have hturn := ((Relation.ReflTransGen.single hblock).tail htrait).tail hmodule
  exact ⟨hturn, _, rfl, (Module.lower_reordered hturn (.root "k") _).mp rfl⟩

end Surface

end Lowering
