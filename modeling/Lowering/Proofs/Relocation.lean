import Lowering.Proofs.ItemRewriting
import Lowering.Proofs.NameMap

/-!
# Places of source trees

Lowering reads no place: it only carries the place of a node into the diagnostic
about it, and the places of macro rules into the macro table. So moving every
place in a tree by any function, injective or not, moves those places in the result
and changes nothing else.

What is proved:
  1. `NamedMacro.collect_relocate`, `Crate.lower_relocate`: macro tables and crates
     follow their places, as fragments, items and modules do (`Module.lower_rewrite`).
  2. `Equivariant.of_commutes`: whatever follows the places of its input puts no
     other place into a diagnostic, and gives like results for inputs that are alike
     but for their places.
Main statement: `lower_equivariant`.
-/

namespace Lowering

/-! ## Moved results -/

section

variable {α β γ δ : Type} {f : Location → Location}

/-- The outcome with its diagnostic at another place and its result changed. -/
def Lowered.move (f : Location → Location) (g : α → β) (x : Lowered α) : Lowered β :=
  Lowered.relocate f (x.map g)

theorem Lowered.move_id (x : Lowered α) : x.move f id = x.relocate f := by
  cases x <;> rfl

/-- The run with its diagnostic at another place and its result changed. -/
def Traced.move (f : Location → Location) (g : α → β) (t : Traced α) : Traced β :=
  ⟨t.log, Lowered.move f g t.outcome⟩

theorem Traced.move_id (t : Traced α) : t.move f id = t.relocate f := by
  rw [Traced.move, Lowered.move_id, Traced.relocate]

theorem Traced.bind_move {t : Traced α} {t' : Traced β} {g : α → β} {h : γ → δ} {k : α → Traced γ}
    {k' : β → Traced δ} (ht : t' = t.move f g) (hk : ∀ a, k' (g a) = (k a).move f h) :
    (t' >>= k') = (t >>= k).move f h := by
  subst ht
  obtain ⟨log, outcome⟩ := t
  cases outcome with
  | error d => rfl
  | ok a =>
    change (⟨log ++ (k' (g a)).log, (k' (g a)).outcome⟩ : Traced δ) = _
    rw [hk]
    rfl

end

theorem Diagnostic.span_relocate (f : Location → Location) (d : Diagnostic) :
    (d.relocate f).span = f d.span := by
  cases d <;> rfl

/-! ## Moved sources -/

/-- The attributes at another place. -/
def Attributes.relocate (f : Location → Location) (as : Attributes) : Attributes :=
  { as with span := f as.span }

/-- The rules at another place. -/
def MacroRules.relocate (f : Location → Location) (m : MacroRules) : MacroRules :=
  { m with span := f m.span }

/-- The crate with the rules in its macro table at other places. -/
def Core.Crate.relocate (f : Location → Location) (c : Core.Crate) : Core.Crate :=
  { c with macros := c.macros.map (MacroRules.relocate f) }

namespace Surface

/-- The macro at another place. -/
def NamedMacro.relocate (f : Location → Location) (m : NamedMacro) : NamedMacro :=
  { m with rules := m.rules.relocate f }

/-- Everything in items that has a place, moved. -/
def movingItems (f : Location → Location) : ItemRewriting where
  toRewriting := relocating f
  attrs := Attributes.relocate f
  macros := List.map (NamedMacro.relocate f)

section

variable (f : Location → Location)

/-- The parameter list with every place in it moved. -/
def Generics.relocate (g : Generics) : Generics := g.rewrite (movingItems f)

/-- The type alias with every place in it moved. -/
def TypeAlias.relocate (a : TypeAlias) : TypeAlias := a.rewrite (movingItems f)

/-- The struct with every place in it moved. -/
def Struct.relocate (s : Struct) : Struct := s.rewrite (movingItems f)

/-- The enum with every place in it moved. -/
def Enum.relocate (e : Enum) : Enum := e.rewrite (movingItems f)

/-- The function with every place in it moved. -/
def Function.relocate (g : Function) : Function := g.rewrite (movingItems f)

/-- The constant or static with every place in it moved. -/
def Static.relocate (s : Static) : Static := s.rewrite (movingItems f)

/-- The trait with every place in it moved. -/
def Trait.relocate (t : Trait) : Trait := t.rewrite (movingItems f)

/-- The module with every place in it moved. -/
def Module.relocate (m : Module) : Module := m.rewrite (movingItems f)

/-- The crate with every place in it moved. -/
def Crate.relocate (c : Crate) : Crate := ⟨c.root.relocate f, c.attrs.relocate f⟩

theorem movingItems_keepsLowering : (movingItems f).KeepsLowering := relocating_keepsLowering f

theorem Module.lower_relocate (path : Core.ItemPath) (m : Module) :
    (m.relocate f).lower path = (m.lower path).relocate f :=
  Module.lower_rewrite (movingItems_keepsLowering f) path m

theorem NamedMacro.collect_relocate (policy : ConflictPolicy) (entries : List NamedMacro)
    (table : NameMap MacroRules) :
    NamedMacro.collect policy (entries.map (NamedMacro.relocate f))
        (table.map (MacroRules.relocate f)) =
      (NamedMacro.collect policy entries table).move f (NameMap.map (MacroRules.relocate f)) := by
  induction entries generalizing table with
  | nil => rfl
  | cons m rest ih =>
    have hset : (table.map (MacroRules.relocate f)).set m.name (m.rules.relocate f) =
        (table.set m.name m.rules).map (MacroRules.relocate f) :=
      (NameMap.map_set _ table m.name m.rules).symm
    rw [List.map_cons]
    unfold NamedMacro.collect
    simp only [NamedMacro.relocate, NameMap.contains_map, hset]
    cases table.contains m.name with
    | false => exact ih _
    | true =>
      cases policy with
      | reject => rfl
      | keepFirst => exact Traced.bind_move (g := id) rfl fun _ => ih _
      | keepLast => exact Traced.bind_move (g := id) rfl fun _ => ih _

theorem Crate.lower_relocate (c : Crate) (config : Config) :
    (c.relocate f).lower config = (c.lower config).move f (Core.Crate.relocate f) := by
  obtain ⟨⟨items, anonymous, macros, imports, span⟩, attrs⟩ := c
  have hmacros := NamedMacro.collect_relocate f config.macroConflicts (macros ++ imports) .empty
  rw [List.map_append] at hmacros
  refine Traced.bind_move (g := id) rfl fun _ => Traced.bind_move hmacros fun table => ?_
  -- the size of the table is logged, and moving its rules keeps it
  rw [NameMap.size_map]
  refine Traced.bind_move (g := id) rfl fun _ => ?_
  refine Traced.bind_move (g := id) ?_ fun root => rfl
  rw [Traced.move_id]
  exact Module.lower_relocate f _ _

end

/-! ## Equivariance -/

/-- The place stands in the tree: to move it, and no other place, elsewhere
changes the tree. -/
def StandsIn {α : Type} (move : (Location → Location) → α → α) (s : Location) (x : α) : Prop :=
  ∀ t, t ≠ s → move (fun p => if p = s then t else p) x ≠ x

/-- Core forms without macro tables have no places. -/
def unmoved {α : Type} (_ : Location → Location) (a : α) : α := a

/-- Lowering follows the places of its input. Every diagnostic is about a place in
the input, and inputs that differ in their places only give results that differ in
their places only. -/
structure Equivariant {α β : Type} (moveIn : (Location → Location) → α → α)
    (moveOut : (Location → Location) → β → β) (lower : α → Lowered β) : Prop where
  commutes : ∀ f x, lower (moveIn f x) = (lower x).move f (moveOut f)
  located : ∀ x d, lower x = .error d → StandsIn moveIn d.span x
  alike : ∀ x y, Alike moveIn x y →
    (∃ a b, lower x = .ok a ∧ lower y = .ok b ∧ Alike moveOut a b) ∨
    ∃ d e, lower x = .error d ∧ lower y = .error e ∧ Alike Diagnostic.relocate d e

/-- A computation that commutes with moves follows the places of its input. -/
theorem Equivariant.of_commutes {α β : Type} {moveIn : (Location → Location) → α → α}
    {moveOut : (Location → Location) → β → β} {lower : α → Lowered β}
    (h : ∀ f x, lower (moveIn f x) = (lower x).move f (moveOut f)) :
    Equivariant moveIn moveOut lower where
  commutes := h
  located := by
    intro x d hd t ht hsame
    -- the tree stays as it is, so its diagnostic does too, and yet its place moves to `t`
    have hmoved := h (fun p => if p = d.span then t else p) x
    rw [hsame, hd] at hmoved
    have hspan := congrArg Diagnostic.span (Except.error.inj hmoved)
    rw [Diagnostic.span_relocate, if_pos rfl] at hspan
    exact ht hspan.symm
  alike := by
    intro x y hxy
    have hmoved : (lower x).move (fun _ => .dummy) (moveOut fun _ => .dummy) =
        (lower y).move (fun _ => .dummy) (moveOut fun _ => .dummy) := by
      rw [← h, ← h, hxy]
    cases hx : lower x with
    | ok a =>
      cases hy : lower y with
      | ok b =>
        rw [hx, hy] at hmoved
        exact .inl ⟨a, b, rfl, rfl, Except.ok.inj hmoved⟩
      | error e =>
        rw [hx, hy] at hmoved
        cases hmoved
    | error d =>
      cases hy : lower y with
      | ok b =>
        rw [hx, hy] at hmoved
        cases hmoved
      | error e =>
        rw [hx, hy] at hmoved
        exact .inr ⟨d, e, rfl, rfl, Except.error.inj hmoved⟩

theorem Equivariant.of_relocate {α β : Type} {moveIn : (Location → Location) → α → α}
    {lower : α → Lowered β} (h : ∀ f x, lower (moveIn f x) = (lower x).relocate f) :
    Equivariant moveIn unmoved lower :=
  .of_commutes fun f x => (h f x).trans (Lowered.move_id _).symm

/-- Lowering is equivariant in places: scalar types, types, paths, arguments,
patterns and expressions, generics, items, traits, modules and crates. The log of a
module or a crate does not depend on places at all. -/
theorem lower_equivariant :
    Equivariant (fun f (x : Location × ScalarName) => (f x.1, x.2)) unmoved
      (fun x => x.2.lower x.1) ∧
    Equivariant Ty.relocate unmoved Ty.lower ∧
    Equivariant Path.relocate unmoved Path.lower ∧
    Equivariant Path.relocate unmoved Path.lowerPlain ∧
    Equivariant GenericArgs.relocate unmoved GenericArgs.lower ∧
    Equivariant Pattern.relocate unmoved Pattern.lower ∧
    Equivariant Expr.relocate unmoved Expr.lowerBody ∧
    Equivariant (fun f => Option.map (Expr.relocate f)) unmoved Expr.lowerBodyOpt ∧
    Equivariant Generics.relocate unmoved Generics.lower ∧
    Equivariant TypeAlias.relocate unmoved TypeAlias.lower ∧
    Equivariant Struct.relocate unmoved Struct.lower ∧
    Equivariant Enum.relocate unmoved Enum.lower ∧
    Equivariant Function.relocate unmoved Function.lower ∧
    Equivariant Static.relocate unmoved Static.lowerConstant ∧
    Equivariant Static.relocate unmoved Static.lowerStatic ∧
    Equivariant Static.relocate unmoved Static.lower ∧
    (∀ path, Equivariant Trait.relocate unmoved (·.lower path)) ∧
    (∀ path, Equivariant Module.relocate unmoved fun m => (m.lower path).outcome) ∧
    (∀ config, Equivariant Crate.relocate Core.Crate.relocate fun c => (c.lower config).outcome) ∧
    (∀ f (m : Module) path, ((m.relocate f).lower path).log = (m.lower path).log) ∧
    (∀ f (c : Crate) config, ((c.relocate f).lower config).log = (c.lower config).log) := by
  have hmoves := movingItems_keepsLowering
  refine ⟨.of_relocate ?_, .of_relocate Ty.lower_relocate, .of_relocate Path.lower_relocate,
    .of_relocate Path.lowerPlain_relocate, .of_relocate GenericArgs.lower_relocate,
    .of_relocate Pattern.lower_relocate, .of_relocate Expr.lowerBody_relocate, .of_relocate ?_,
    .of_relocate fun f => Generics.lower_rewrite (hmoves f),
    .of_relocate fun f => TypeAlias.lower_rewrite (hmoves f),
    .of_relocate fun f => Struct.lower_rewrite (hmoves f),
    .of_relocate fun f => Enum.lower_rewrite (hmoves f),
    .of_relocate fun f => Function.lower_rewrite (hmoves f),
    .of_relocate fun f => Static.lowerConstant_rewrite (hmoves f),
    .of_relocate fun f => Static.lowerStatic_rewrite (hmoves f),
    .of_relocate fun f => Static.lower_rewrite (hmoves f),
    fun path => .of_relocate fun f t => Trait.lower_rewrite (hmoves f) t path,
    fun path => .of_relocate ?_, fun config => .of_commutes ?_, ?_, ?_⟩
  · intro f x
    exact ScalarName.lower_relocate f x.1 x.2
  · intro f e
    cases e with
    | none => rfl
    | some e => exact Lowered.bind_relocate (Expr.lower_rewrite (hmoves f) [] e) fun _ => rfl
  · intro f m
    rw [Module.lower_relocate]
    rfl
  · intro f c
    rw [Crate.lower_relocate]
    rfl
  · intro f m path
    rw [Module.lower_relocate]
    rfl
  · intro f c config
    rw [Crate.lower_relocate]
    rfl

end Surface

end Lowering
