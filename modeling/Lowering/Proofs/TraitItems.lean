import Lowering.Proofs.ParameterKinds
import Lowering.Proofs.Store

/-!
# Lowered traits

A trait is lowered in one pass that stops at the first fault: its supertraits, its
generics, then its items in order. Each item is lowered and then added to the name
space it belongs to, associated types to one and functions, constants and statics
to the other. The adding is a run of calls on the trait as a store, so a name is
taken exactly when an earlier item of the same name space has it.

What is proved:
  1. `TraitItem.lower_eq_ok`, `TraitItem.lower_decided`: what one item lowers to, and
     where its lowering stops.
  2. `TraitItem.lowerAll_run`: items that lower one after the other are a run of
     calls, one for each item.
  3. `TraitItem.lowerAll_decided`: a pass over items stops at its first fault, the
     faults of an item before the clash of its name.
Main statement: `Trait.lower_exact`.
-/

namespace Lowering

open Lowering.Core (Call NameClash Namespace)

/-- What a trait declares under a name, as a call on the trait. -/
def Core.TraitEntry.call (name : String) : Core.TraitEntry → Call Core.Trait.Entry
  | .type a => ⟨.type, name, a⟩
  | .value v => ⟨.value, name, v⟩

/-- An entry of either name space. -/
def Core.TraitEntry.ofSpace : (k : Namespace) → Core.Trait.Entry k → Core.TraitEntry
  | .type, a => .type a
  | .value, v => .value v

theorem Core.TraitEntry.entryAt?_call {e : Core.TraitEntry} {name n : String} {k : Namespace}
    {x : Core.Trait.Entry k} :
    (e.call name).entryAt? k n = some x ↔ name = n ∧ e = .ofSpace k x := by
  rcases e with a | v <;> rcases k with _ | _
  · refine Option.ite_some_none_eq_some.trans (and_congr_right fun _ => ?_)
    exact ⟨congrArg TraitEntry.type, TraitEntry.type.inj⟩
  · simp [call, ofSpace, Call.entryAt?]
  · simp [call, ofSpace, Call.entryAt?]
  · refine Option.ite_some_none_eq_some.trans (and_congr_right fun _ => ?_)
    exact ⟨congrArg TraitEntry.value, TraitEntry.value.inj⟩

theorem Core.Trait.add_eq_call (t : Core.Trait) (name : String) (entry : Core.TraitEntry) :
    t.add name entry = Core.Trait.store.call t (entry.call name) := by
  cases entry <;> rfl

namespace Surface

/-! ## One item -/

/-- The name space in which an item of a trait declares its name. -/
def TraitItem.space : TraitItem → Namespace
  | .type _ => .type
  | .function _ | .static _ => .value

/-- What an item of a trait lowers to. A constant has no generics, and a static is
mutable when it is declared so. -/
inductive TraitItem.LowersTo : TraitItem → Core.TraitEntry → Prop
  | type {a out} : a.lower = .ok out → LowersTo (.type a) (.type out)
  | function {f out} : f.lower = .ok out → LowersTo (.function f) (.value (.function out))
  | constant {s ty value} : s.storage = .const → s.ty.lower = .ok ty →
      Expr.lowerBodyOpt s.value = .ok value →
      LowersTo (.static s) (.value (.constant ⟨{}, ty, value⟩))
  | static {s ty value} : s.storage = .static → s.ty.lower = .ok ty →
      Expr.lowerBodyOpt s.value = .ok value →
      LowersTo (.static s) (.value (.static ⟨false, ty, value⟩))
  | staticMut {s ty value} : s.storage = .staticMut → s.ty.lower = .ok ty →
      Expr.lowerBodyOpt s.value = .ok value →
      LowersTo (.static s) (.value (.static ⟨true, ty, value⟩))

/-- The faults of an associated type. -/
def AssociatedType.faults (a : AssociatedType) : List Diagnostic :=
  Path.plainFaultsAll a.bounds ++ Ty.faultsOpt a.default

/-- The faults of a function: its generics, then each argument's pattern before its
type, then its result and its code. -/
def Function.faults (f : Function) : List Diagnostic :=
  f.generics.faults ++ (f.args.flatMap (fun arg => arg.1.faults ++ arg.2.faults) ++
    (f.ret.faults ++ Expr.faultsOpt f.code))

/-- The faults of a constant or a static. -/
def Static.faults (s : Static) : List Diagnostic := s.ty.faults ++ Expr.faultsOpt s.value

/-- The faults of an item of a trait, its name apart. -/
def TraitItem.faults : TraitItem → List Diagnostic
  | .type a => a.faults
  | .function f => f.faults
  | .static s => s.faults

theorem AssociatedType.lower_decided (a : AssociatedType) : DecidedBy a.lower a.faults :=
  (Path.lowerPlainAll_decided a.bounds).bind fun _ _ => (Ty.lowerOpt_decided a.default).bind_ok _

theorem Function.lowerArgs_decided (args : List (Pattern × Ty)) :
    DecidedBy (Function.lowerArgs args)
      (args.flatMap fun arg => arg.1.faults ++ arg.2.faults) := by
  induction args with
  | nil => exact .ok []
  | cons arg rest ih =>
    obtain ⟨p, t⟩ := arg
    rw [List.flatMap_cons, List.append_assoc]
    exact p.lower_decided.bind fun _ _ => t.lower_decided.bind fun _ _ => ih.bind_ok _

theorem Function.lower_decided (f : Function) : DecidedBy f.lower f.faults :=
  f.generics.lower_decided.bind fun _ _ => (Function.lowerArgs_decided f.args).bind fun _ _ =>
    f.ret.lower_decided.bind fun _ _ => (Expr.lowerBodyOpt_decided f.code).bind_ok _

theorem Static.lowerInTrait_decided (s : Static) : DecidedBy s.lowerInTrait s.faults := by
  have hconst : DecidedBy s.lowerConstant s.faults :=
    s.ty.lower_decided.bind fun _ _ => (Expr.lowerBodyOpt_decided s.value).bind_ok _
  have hstatic : DecidedBy s.lowerStatic s.faults :=
    s.ty.lower_decided.bind fun _ _ => (Expr.lowerBodyOpt_decided s.value).bind_ok _
  unfold Static.lowerInTrait
  cases s.storage with
  | const => exact hconst.bind_ok _
  | static => exact hstatic.bind_ok _
  | staticMut => exact hstatic.bind_ok _

theorem TraitItem.lower_decided (i : TraitItem) : DecidedBy i.lower i.faults := by
  cases i with
  | type a => exact a.lower_decided.bind_ok _
  | function f => exact f.lower_decided.bind_ok _
  | static s => exact s.lowerInTrait_decided.bind_ok _

/-- What is made of the type and the value of a constant or a static. -/
theorem Static.parts_eq_ok {β : Type} {s : Static} (make : Core.Ty → Option Core.Body → β)
    {out : β} :
    (do let ty ← s.ty.lower; return make ty (← Expr.lowerBodyOpt s.value)) = .ok out ↔
      ∃ ty value, s.ty.lower = .ok ty ∧ Expr.lowerBodyOpt s.value = .ok value ∧
        make ty value = out := by
  simp only [Lowered.bind_eq_ok, Lowered.pure_eq_ok, exists_and_left]

theorem Static.lowerInTrait_eq_ok {s : Static} {v : Core.TraitValue} :
    s.lowerInTrait = .ok v ↔ (TraitItem.static s).LowersTo (.value v) := by
  unfold Static.lowerInTrait
  constructor
  · intro h
    cases hs : s.storage with
    | const =>
      rw [hs] at h
      obtain ⟨c, hc, ⟨⟩⟩ := Lowered.bind_eq_ok.mp h
      obtain ⟨ty, value, hty, hvalue, rfl⟩ := (Static.parts_eq_ok _).mp hc
      exact .constant hs hty hvalue
    | static =>
      rw [hs] at h
      obtain ⟨c, hc, ⟨⟩⟩ := Lowered.bind_eq_ok.mp h
      obtain ⟨ty, value, hty, hvalue, rfl⟩ := (Static.parts_eq_ok _).mp hc
      rw [hs]
      exact .static hs hty hvalue
    | staticMut =>
      rw [hs] at h
      obtain ⟨c, hc, ⟨⟩⟩ := Lowered.bind_eq_ok.mp h
      obtain ⟨ty, value, hty, hvalue, rfl⟩ := (Static.parts_eq_ok _).mp hc
      rw [hs]
      exact .staticMut hs hty hvalue
  · intro h
    cases h with
    | constant hs hty hvalue => rw [hs, Static.lowerConstant, hty, hvalue]; rfl
    | static hs hty hvalue => rw [hs, Static.lowerStatic, hs, hty, hvalue]; rfl
    | staticMut hs hty hvalue => rw [hs, Static.lowerStatic, hs, hty, hvalue]; rfl

theorem TraitItem.lower_eq_ok {i : TraitItem} {entry : Core.TraitEntry} :
    i.lower = .ok entry ↔ i.LowersTo entry := by
  constructor
  · intro h
    cases i with
    | type a =>
      obtain ⟨out, hout, ⟨⟩⟩ := Lowered.bind_eq_ok.mp h
      exact .type hout
    | function f =>
      obtain ⟨out, hout, ⟨⟩⟩ := Lowered.bind_eq_ok.mp h
      exact .function hout
    | static s =>
      obtain ⟨out, hout, ⟨⟩⟩ := Lowered.bind_eq_ok.mp h
      exact Static.lowerInTrait_eq_ok.mp hout
  · intro h
    have hstatic : ∀ {s v}, (TraitItem.static s).LowersTo (.value v) →
        (TraitItem.static s).lower = .ok (.value v) := fun h =>
      Lowered.bind_eq_ok.mpr ⟨_, Static.lowerInTrait_eq_ok.mpr h, rfl⟩
    cases h with
    | type ha => exact Lowered.bind_eq_ok.mpr ⟨_, ha, rfl⟩
    | function hf => exact Lowered.bind_eq_ok.mpr ⟨_, hf, rfl⟩
    | constant hs hty hvalue => exact hstatic (.constant hs hty hvalue)
    | static hs hty hvalue => exact hstatic (.static hs hty hvalue)
    | staticMut hs hty hvalue => exact hstatic (.staticMut hs hty hvalue)

theorem TraitItem.LowersTo.unique {i : TraitItem} {e e' : Core.TraitEntry}
    (h : i.LowersTo e) (h' : i.LowersTo e') : e = e' :=
  Except.ok.inj ((lower_eq_ok.mpr h).symm.trans (lower_eq_ok.mpr h'))

/-! ## Names -/

/-- The name that an item of a trait declares, with its name space. -/
def Named.key (i : Named TraitItem) : NameClash := ⟨i.data.space, i.name⟩

theorem TraitItem.LowersTo.clash_call {i : Named TraitItem} {e : Core.TraitEntry}
    (h : i.data.LowersTo e) : (e.call i.name).clash = i.key := by
  obtain ⟨name, isPub, attrs, data, span⟩ := i
  cases h <;> rfl

/-- The names that a trait declares in a name space, in order. -/
def Trait.names (t : Trait) (k : Namespace) : List String :=
  (t.items.filter (·.data.space == k)).map (·.name)

/-- A trait declares each name once when it does so in either name space. -/
theorem Trait.keys_nodup (t : Trait) :
    (t.items.map Named.key).Nodup ↔ (t.names .type).Nodup ∧ (t.names .value).Nodup := by
  simp only [Trait.names, List.Nodup, List.pairwise_map, List.pairwise_filter]
  rw [← List.pairwise_and_iff]
  refine iff_of_eq (congrArg (List.Pairwise · t.items) ?_)
  funext a b
  cases ha : a.data.space <;> cases hb : b.data.space <;> simp [Named.key, ha, hb]

/-- The fault of an item whose name an earlier one declares in the same name space. -/
def TraitItem.nameFaults (path : Core.ItemPath) (earlier : List (Named TraitItem))
    (i : Named TraitItem) : List Diagnostic :=
  if i.key ∈ earlier.map Named.key then [.duplicateItem path i.key i.span] else []

/-- The faults of the items of the trait at `path` that follow the `earlier` ones: of
each item what it declares before its name. -/
def TraitItem.faultsAll (path : Core.ItemPath) :
    (earlier items : List (Named TraitItem)) → List Diagnostic
  | _, [] => []
  | earlier, i :: rest => i.data.faults ++ (TraitItem.nameFaults path earlier i ++
      TraitItem.faultsAll path (earlier ++ [i]) rest)

/-- The faults of the trait at `path`, in the order in which lowering meets them. -/
def Trait.faults (t : Trait) (path : Core.ItemPath) : List Diagnostic :=
  Path.plainFaultsAll t.supertraits ++ (t.generics.faults ++ TraitItem.faultsAll path [] t.items)

theorem TraitItem.faultsAll_eq_nil (path : Core.ItemPath) (earlier items : List (Named TraitItem)) :
    TraitItem.faultsAll path earlier items = [] ↔ (∀ i ∈ items, i.data.faults = []) ∧
      (∀ i ∈ items, i.key ∉ earlier.map Named.key) ∧ (items.map Named.key).Nodup := by
  induction items generalizing earlier with
  | nil => simp [TraitItem.faultsAll]
  | cons i rest ih =>
    have hname : TraitItem.nameFaults path earlier i = [] ↔ i.key ∉ earlier.map Named.key := by
      unfold TraitItem.nameFaults
      split <;> simp_all
    rw [TraitItem.faultsAll, List.append_eq_nil_iff, List.append_eq_nil_iff, hname, ih,
      List.map_append, List.map_cons, List.map_cons, List.nodup_cons]
    simp only [List.forall_mem_cons, List.mem_append, List.mem_map, List.map_nil,
      List.mem_singleton]
    grind

/-! ## The items of a trait -/

section Items

variable {path : Core.ItemPath} {head : Core.Trait}
  (hhead : ∀ k, Core.Trait.store.space k head = .empty)

include hhead in
/-- Adding an item to what earlier items have filled is one more call, unless one of
them has declared its name. -/
theorem TraitItem.add_eq {i : Named TraitItem} {earlier : List (Named TraitItem)}
    {calls : List (Call Core.Trait.Entry)} (hcalls : calls.map Call.clash = earlier.map Named.key)
    {e : Core.TraitEntry} (he : i.data.LowersTo e) :
    duplicateAt path i.span ((Core.Trait.store.run head calls).add i.name e).outcome =
      if i.key ∈ earlier.map Named.key then .error (.duplicateItem path i.key i.span)
      else .ok (Core.Trait.store.run head (calls ++ [e.call i.name])) := by
  have htaken : Core.Trait.store.taken (Core.Trait.store.run head calls) (e.call i.name) = true ↔
      i.key ∈ earlier.map Named.key := by
    rw [Core.Trait.store_lawful.taken_run_iff hhead, ← hcalls, ← he.clash_call, List.mem_map]
    simp only [Call.clash, NameClash.mk.injEq]
  rw [Core.Trait.add_eq_call, Core.Trait.store_lawful.outcome_call, he.clash_call,
    Core.Store.run_concat]
  by_cases h : i.key ∈ earlier.map Named.key
  · rw [if_pos (htaken.mpr h), if_pos h]
    rfl
  · rw [if_neg (mt htaken.mp h), if_neg h]
    rfl

theorem TraitItem.clashes_concat {i : Named TraitItem} {earlier : List (Named TraitItem)}
    {calls : List (Call Core.Trait.Entry)} (hcalls : calls.map Call.clash = earlier.map Named.key)
    {e : Core.TraitEntry} (he : i.data.LowersTo e) :
    (calls ++ [e.call i.name]).map Call.clash = (earlier ++ [i]).map Named.key := by
  rw [List.map_append, List.map_append, hcalls, List.map_singleton, List.map_singleton,
    he.clash_call]

include hhead in
theorem TraitItem.lowerAll_decided (items : List (Named TraitItem))
    {earlier : List (Named TraitItem)} {calls : List (Call Core.Trait.Entry)}
    (hcalls : calls.map Call.clash = earlier.map Named.key) :
    DecidedBy (TraitItem.lowerAll path items (Core.Trait.store.run head calls))
      (TraitItem.faultsAll path earlier items) := by
  induction items generalizing earlier calls with
  | nil => exact .ok _
  | cons i rest ih =>
    refine i.data.lower_decided.bind fun e he => ?_
    have he := TraitItem.lower_eq_ok.mp he
    rw [TraitItem.add_eq hhead hcalls he, TraitItem.nameFaults]
    split
    · rfl
    · exact ih (TraitItem.clashes_concat hcalls he)

include hhead in
/-- Items that lower one after the other are a run of calls, one for each. -/
theorem TraitItem.lowerAll_run {items : List (Named TraitItem)}
    {earlier : List (Named TraitItem)} {calls : List (Call Core.Trait.Entry)}
    (hcalls : calls.map Call.clash = earlier.map Named.key) {out : Core.Trait}
    (h : TraitItem.lowerAll path items (Core.Trait.store.run head calls) = .ok out) :
    ∃ added, List.Forall₂ (fun i c => ∃ e, i.data.LowersTo e ∧ c = e.call i.name) items added ∧
      out = Core.Trait.store.run head (calls ++ added) := by
  induction items generalizing earlier calls with
  | nil =>
    cases h
    exact ⟨[], .nil, by rw [List.append_nil]⟩
  | cons i rest ih =>
    obtain ⟨e, he, h⟩ := Lowered.bind_eq_ok.mp h
    obtain ⟨next, hnext, h⟩ := Lowered.bind_eq_ok.mp h
    have he := TraitItem.lower_eq_ok.mp he
    rw [TraitItem.add_eq hhead hcalls he] at hnext
    split at hnext
    · cases hnext
    · cases hnext
      obtain ⟨added, hadded, rfl⟩ := ih (TraitItem.clashes_concat hcalls he) h
      refine ⟨e.call i.name :: added, .cons ⟨e, he, rfl⟩ hadded, ?_⟩
      rw [List.append_assoc, List.singleton_append]

end Items

/-! ## Traits -/

/-- The supertraits, the generics and the items of a trait lower on their own, and it
declares each name once in each name space. -/
structure Trait.Sound (t : Trait) : Prop where
  supertraits : ∀ p ∈ t.supertraits, ∃ parent, p.lowerPlain = .ok parent
  generics : ∃ generics, t.generics.lower = .ok generics
  items : ∀ i ∈ t.items, ∃ entry, i.data.LowersTo entry
  types : (t.names .type).Nodup
  values : (t.names .value).Nodup

/-- A trait that is the lowering of another, part by part: each name space has what
the items of that space lower to, under their names, and nothing else. -/
structure Trait.LowersTo (t : Trait) (out : Core.Trait) : Prop where
  parents : List.Forall₂ (fun p parent => p.lowerPlain = .ok parent) t.supertraits out.parents
  generics : t.generics.lower = .ok out.generics
  types : ∀ name a, out.types.get? name = some a ↔
    ∃ i ∈ t.items, i.name = name ∧ i.data.LowersTo (.type a)
  values : ∀ name v, out.values.get? name = some v ↔
    ∃ i ∈ t.items, i.name = name ∧ i.data.LowersTo (.value v)

theorem Path.lowerPlainAll_eq_ok {ps : List Path} {out : List Core.AppliedPath} :
    Path.lowerPlainAll ps = .ok out ↔
      List.Forall₂ (fun p a => p.lowerPlain = .ok a) ps out :=
  Lowered.inOrder_eq_ok Path.lowerPlain Path.lowerPlainAll rfl fun _ _ => rfl

theorem Path.plainFaultsAll_eq_nil (ps : List Path) :
    Path.plainFaultsAll ps = [] ↔ ∀ p ∈ ps, ∃ a, p.lowerPlain = .ok a := by
  induction ps with
  | nil => simp [Path.plainFaultsAll]
  | cons p ps ih =>
    rw [Path.plainFaultsAll, List.append_eq_nil_iff, ih, ← p.lowerPlain_decided.ok_iff,
      List.forall_mem_cons]

theorem Trait.lowerHead_eq_ok {t : Trait} {head : Core.Trait} (h : t.lowerHead = .ok head) :
    List.Forall₂ (fun p parent => p.lowerPlain = .ok parent) t.supertraits head.parents ∧
      t.generics.lower = .ok head.generics ∧ ∀ k, Core.Trait.store.space k head = .empty := by
  obtain ⟨parents, hparents, h⟩ := Lowered.bind_eq_ok.mp h
  obtain ⟨generics, hgenerics, ⟨⟩⟩ := Lowered.bind_eq_ok.mp h
  exact ⟨Path.lowerPlainAll_eq_ok.mp hparents, hgenerics, Core.Trait.empty_space generics parents⟩

theorem Trait.lower_decided (t : Trait) (path : Core.ItemPath) :
    DecidedBy (t.lower path) (t.faults path) := by
  have hhead : DecidedBy t.lowerHead (Path.plainFaultsAll t.supertraits ++ t.generics.faults) :=
    (Path.lowerPlainAll_decided t.supertraits).bind fun _ _ => t.generics.lower_decided.bind_ok _
  rw [Trait.faults, ← List.append_assoc]
  refine hhead.bind fun head hok => ?_
  change DecidedBy (TraitItem.lowerAll path t.items (Core.Trait.store.run head [])) _
  exact TraitItem.lowerAll_decided (Trait.lowerHead_eq_ok hok).2.2 t.items rfl

theorem TraitItem.faults_eq_nil (i : TraitItem) : i.faults = [] ↔ ∃ entry, i.LowersTo entry := by
  rw [← i.lower_decided.ok_iff]
  exact exists_congr fun entry => TraitItem.lower_eq_ok

theorem Trait.faults_eq_nil (t : Trait) (path : Core.ItemPath) : t.faults path = [] ↔ t.Sound := by
  rw [Trait.faults, List.append_eq_nil_iff, List.append_eq_nil_iff, Path.plainFaultsAll_eq_nil,
    ← t.generics.lower_decided.ok_iff, TraitItem.faultsAll_eq_nil, Trait.keys_nodup]
  simp only [TraitItem.faults_eq_nil, List.map_nil, List.not_mem_nil, not_false_eq_true,
    implies_true, true_and]
  constructor
  · rintro ⟨hsupertraits, hgenerics, hitems, htypes, hvalues⟩
    exact ⟨hsupertraits, hgenerics, hitems, htypes, hvalues⟩
  · intro h
    exact ⟨h.supertraits, h.generics, h.items, h.types, h.values⟩

/-- A call leaves the head of a trait as it was. -/
theorem Trait.head_run (head : Core.Trait) (calls : List (Call Core.Trait.Entry)) :
    (Core.Trait.store.run head calls).generics = head.generics ∧
      (Core.Trait.store.run head calls).parents = head.parents := by
  induction calls generalizing head with
  | nil => exact ⟨rfl, rfl⟩
  | cons c rest ih =>
    have hafter : (Core.Trait.store.after head c).generics = head.generics ∧
        (Core.Trait.store.after head c).parents = head.parents := by
      rcases c with ⟨_ | _, name, entry⟩ <;> exact ⟨rfl, rfl⟩
    obtain ⟨hgenerics, hparents⟩ := ih (Core.Trait.store.after head c)
    exact ⟨hgenerics.trans hafter.1, hparents.trans hafter.2⟩

/-- After a run of one call for each item, a name space has the items of that space
under their names, if those are different. -/
theorem Trait.get?_run {items : List (Named TraitItem)} {added : List (Call Core.Trait.Entry)}
    (hadded : List.Forall₂ (fun i c => ∃ e, i.data.LowersTo e ∧ c = e.call i.name) items added)
    (hkeys : (items.map Named.key).Nodup) {head : Core.Trait} {k : Namespace}
    (hhead : Core.Trait.store.space k head = .empty) (name : String) (x : Core.Trait.Entry k) :
    (Core.Trait.store.space k (Core.Trait.store.run head added)).get? name = some x ↔
      ∃ i ∈ items, i.name = name ∧ i.data.LowersTo (.ofSpace k x) := by
  have hclash : added.map Call.clash = items.map Named.key := by
    induction hadded with
    | nil => rfl
    | cons h _ ih =>
      obtain ⟨e, he, rfl⟩ := h
      rw [List.map_cons, List.map_cons, he.clash_call, ih (List.nodup_cons.mp hkeys).2]
  rw [Core.Trait.store_lawful.get?_run hhead, Call.findSome?_entryAt? (hclash ▸ hkeys)]
  clear hclash hkeys
  induction hadded with
  | nil => simp
  | cons h _ ih =>
    obtain ⟨e, he, rfl⟩ := h
    rw [List.exists_mem_cons_iff, List.exists_mem_cons_iff, Core.TraitEntry.entryAt?_call]
    refine or_congr (and_congr_right fun _ => ?_) ih
    exact ⟨fun h => h ▸ he, fun h => he.unique h⟩

theorem Trait.lowersTo_of_lower {t : Trait} {path : Core.ItemPath} {out : Core.Trait}
    (h : t.lower path = .ok out) : t.LowersTo out := by
  have hsound : t.Sound :=
    (t.faults_eq_nil path).mp ((t.lower_decided path).ok_iff.mp ⟨out, h⟩)
  have hkeys := t.keys_nodup.mpr ⟨hsound.types, hsound.values⟩
  obtain ⟨head, hok, h⟩ := Lowered.bind_eq_ok.mp h
  obtain ⟨hparents, hgenerics, hempty⟩ := Trait.lowerHead_eq_ok hok
  change TraitItem.lowerAll path t.items (Core.Trait.store.run head []) = .ok out at h
  obtain ⟨added, hadded, rfl⟩ :=
    TraitItem.lowerAll_run hempty (List.map_nil.trans List.map_nil.symm) h
  rw [List.nil_append]
  obtain ⟨hg, hp⟩ := Trait.head_run head added
  exact {
    parents := hp ▸ hparents
    generics := hg ▸ hgenerics
    types := Trait.get?_run hadded hkeys (hempty .type)
    values := Trait.get?_run hadded hkeys (hempty .value) }

/-- The trait at `path` lowers exactly when it is sound, and then to its lowering part
by part. Otherwise it stops at its first fault: of a supertrait, of its generics, and
then item by item of what the item declares and of its name, if that is taken. -/
theorem Trait.lower_exact (t : Trait) (path : Core.ItemPath) :
    ((∃ out, t.lower path = .ok out) ↔ t.Sound) ∧
    (∀ out, t.lower path = .ok out → t.LowersTo out) ∧
    ∀ d, t.lower path = .error d ↔ (t.faults path).head? = some d := by
  refine ⟨?_, fun out h => Trait.lowersTo_of_lower h, (t.lower_decided path).error_iff⟩
  rw [(t.lower_decided path).ok_iff, t.faults_eq_nil path]

end Surface

end Lowering
