import Lowering.Proofs.Entries

/-!
# Faults of modules and crates

The faults of a crate, in the order in which lowering meets them: those of the
macro table, then those of the module tree. In a module the declared items come
in order, and an item's own faults come before the clashes of its name, a value's
before a type's. An item clashes with the items declared before it, so the list
needs no state.

Main statement (`Crate.lower_determined`): lowering stops at the first fault of
the list, and there is none exactly when macro names are distinct where they have
to be, every item of every module lowers on its own and every module declares
each name once in each of its name spaces.
-/

namespace Lowering.Surface

/-- The clashes of an item with items declared before it, a value's before a
type's. -/
def Named.clashes (seen : List (Named ItemKind)) (item : Named ItemKind) : List Core.NameClash :=
  [Core.Namespace.value, .type].flatMap fun space =>
    Core.NameClash.ifTaken space item.name (item.data.declares space &&
      seen.any fun earlier => earlier.data.declares space && earlier.name == item.name)

/-- The faults of an item's name in the module at `path`. -/
def Named.nameFaults (path : Core.ItemPath) (seen : List (Named ItemKind))
    (item : Named ItemKind) : List Diagnostic :=
  (item.clashes seen).map fun clash => .duplicateItem path clash item.span

mutual

/-- The faults of an item's own parts. -/
def ItemKind.faults (path : Core.ItemPath) : ItemKind → List Diagnostic
  | .removed | .externCrate _ => []
  | .module m => m.faults path
  | .typeAlias a => stops a.lower
  | .struct s => stops s.lower
  | .enum e => stops e.lower
  | .trait t => stops (t.lower path)
  | .function f => stops f.lower
  | .static s => stops s.lower

/-- The faults of the module at `path`. -/
def Module.faults : Module → Core.ItemPath → List Diagnostic
  | .mk items anonymous _ _ _, path =>
    ItemKind.faultsAll items path [] ++ Module.faultsAnonymous anonymous path 0 items

/-- The faults of items, after those that were declared before them. -/
def ItemKind.faultsAll : List (Named ItemKind) → Core.ItemPath → (seen : List (Named ItemKind)) →
    List Diagnostic
  | [], _, _ => []
  | ⟨name, isPub, attrs, kind, span⟩ :: rest, path, seen =>
    kind.faults (path.join name) ++
      Named.nameFaults path seen ⟨name, isPub, attrs, kind, span⟩ ++
      ItemKind.faultsAll rest path (seen ++ [⟨name, isPub, attrs, kind, span⟩])

/-- The faults of anonymous children, the first at position `index`. -/
def Module.faultsAnonymous : List Module → Core.ItemPath → (index : Nat) →
    (seen : List (Named ItemKind)) → List Diagnostic
  | [], _, _, _ => []
  | child :: rest, path, index, seen =>
    let item := ⟨Module.anonymousName index, false, {}, .module child, child.span⟩
    child.faults (path.join (Module.anonymousName index)) ++ Named.nameFaults path seen item ++
      Module.faultsAnonymous rest path (index + 1) (seen ++ [item])

end

/-- The conflicts of macros with macros of the same name before them. -/
def NamedMacro.conflicts : List NamedMacro → (seen : List String) → List Diagnostic
  | [], _ => []
  | m :: rest, seen =>
    (if seen.contains m.name then [.macroConflict m.name m.rules.span] else []) ++
      NamedMacro.conflicts rest (seen ++ [m.name])

/-- The faults of a macro table under a policy. -/
def NamedMacro.faults (policy : ConflictPolicy) (entries : List NamedMacro) : List Diagnostic :=
  match policy with
  | .reject => NamedMacro.conflicts entries []
  | .keepFirst | .keepLast => []

/-- The faults of a crate. -/
def Crate.faults (c : Crate) (config : Config) : List Diagnostic :=
  NamedMacro.faults config.macroConflicts (c.root.macros ++ c.root.imports) ++
    c.root.faults (.root config.crateName)

/-- The module `child` at `q` is in the tree of the module `m` at `p`. -/
inductive Module.Within (child : Module) (q : Core.ItemPath) : Module → Core.ItemPath → Prop
  | self : Within child q child q
  | named {m p i c} : i ∈ m.items → i.data = .module c → Within child q c (p.join i.name) →
      Within child q m p
  | anonymous {m p k c} : m.anonymous[k]? = some c →
      Within child q c (p.join (Module.anonymousName k)) → Within child q m p

/-- An item at `path` lowers on its own. The items of a module are asked one by
one. -/
def ItemKind.LowersAlone (path : Core.ItemPath) : ItemKind → Prop
  | .removed | .externCrate _ | .module _ => True
  | .typeAlias a => ∃ out, a.lower = .ok out
  | .struct s => ∃ out, s.lower = .ok out
  | .enum e => ∃ out, e.lower = .ok out
  | .trait t => ∃ out, t.lower path = .ok out
  | .function f => ∃ out, f.lower = .ok out
  | .static s => ∃ out, s.lower = .ok out

/-! ## Faults of declared items -/

theorem ItemKind.faultsAll_cons (item : Named ItemKind) (rest : List (Named ItemKind))
    (path : Core.ItemPath) (seen : List (Named ItemKind)) :
    ItemKind.faultsAll (item :: rest) path seen =
      item.data.faults (path.join item.name) ++ Named.nameFaults path seen item ++
        ItemKind.faultsAll rest path (seen ++ [item]) := by
  rw [ItemKind.faultsAll]

theorem ItemKind.faultsAll_append (first second : List (Named ItemKind)) (path : Core.ItemPath)
    (seen : List (Named ItemKind)) :
    ItemKind.faultsAll (first ++ second) path seen =
      ItemKind.faultsAll first path seen ++ ItemKind.faultsAll second path (seen ++ first) := by
  induction first generalizing seen with
  | nil => simp [ItemKind.faultsAll]
  | cons item rest ih => simp [ItemKind.faultsAll_cons, ih]

theorem Module.faultsAnonymous_eq (children : List Module) (path : Core.ItemPath) (index : Nat)
    (seen : List (Named ItemKind)) :
    Module.faultsAnonymous children path index seen =
      ItemKind.faultsAll (Module.anonymousItems index children) path seen := by
  induction children generalizing index seen with
  | nil => simp [Module.faultsAnonymous, Module.anonymousItems, ItemKind.faultsAll]
  | cons child rest ih =>
    simp only [Module.faultsAnonymous, Module.anonymousItems, ItemKind.faultsAll_cons, ih,
      ItemKind.faults]

theorem Module.faults_eq (m : Module) (path : Core.ItemPath) :
    m.faults path = ItemKind.faultsAll m.declared path [] := by
  obtain ⟨items, anonymous, macros, imports, span⟩ := m
  rw [Module.declared, ItemKind.faultsAll_append, Module.faults, Module.faultsAnonymous_eq]
  rfl

/-! ## Lowering stops at the first fault -/

variable {path : Core.ItemPath} {seen : List (Named ItemKind)} {out : Core.Module}

theorem Named.any_declares (seen : List (Named ItemKind)) (space : Core.Namespace) (n : String) :
    ((seen.filter (·.data.declares space)).map (·.name)).contains n =
      seen.any fun earlier => earlier.data.declares space && earlier.name == n := by
  rw [Bool.eq_iff_iff, List.contains_iff_mem]
  simp only [List.mem_map, List.mem_filter, List.any_eq_true, Bool.and_eq_true, beq_iff_eq,
    and_assoc]

/-- The entries of a filled module clash where the items before do. -/
theorem Named.FilledBy.clashes_decide {item : Named ItemKind} {defs : Core.Definitions}
    (h : Named.FilledBy out path seen)
    (hseen : ∀ i ∈ seen, i.data.Defines (path.join i.name) (i.definitions path))
    (hdef : item.data.Defines (path.join item.name) defs) :
    DecidedBy (duplicateAt path item.span (out.declare item.name item.isPub defs))
      (Named.nameFaults path seen item) := by
  have hclash := (h.declare_decided item.name item.isPub defs).mapError
    fun c => Diagnostic.duplicateItem path c item.span
  rw [Named.entries_names fun i hi => (hseen i hi).declares_type,
    Named.entries_names fun i hi => (hseen i hi).declares_value, Named.any_declares,
    Named.any_declares, hdef.declares_type, hdef.declares_value] at hclash
  simpa [Named.nameFaults, Named.clashes, duplicateAt] using hclash

/-- Items stop at their first fault, if each of them does on its own. -/
theorem ItemKind.lowerAll_decided (items : List (Named ItemKind))
    (hitems : ∀ i ∈ items, DecidedBy (i.define path) (i.data.faults (path.join i.name)))
    (h : Named.FilledBy out path seen)
    (hseen : ∀ i ∈ seen, i.data.Defines (path.join i.name) (i.definitions path)) :
    DecidedBy (ItemKind.lowerAll items out).outcome (ItemKind.faultsAll items path seen) := by
  induction items generalizing out seen with
  | nil => exact ⟨out, rfl⟩
  | cons item rest ih =>
    rw [ItemKind.lowerAll_cons, ItemKind.faultsAll_cons, h.path, List.append_assoc]
    refine (hitems item List.mem_cons_self).bind fun defs hdef => ?_
    have hitem : item.data.Defines (path.join item.name) defs := ItemKind.defines_of_lower hdef
    -- the maps are filled by the items before, so those decide whether the name is taken
    refine (h.clashes_decide hseen hitem).bind fun out' hout' => ?_
    refine ih (fun i hi => hitems i (List.mem_cons_of_mem _ hi))
      (h.step hdef (duplicateAt_eq_ok.mp hout')) fun i hi => ?_
    rcases List.mem_append.mp hi with hi | hi
    · exact hseen i hi
    · obtain rfl := List.mem_singleton.mp hi
      exact Named.defines_definitions ⟨defs, hdef⟩

/-- An item stops at the first of its own faults, if its module does. -/
theorem ItemKind.lower_decided (kind : ItemKind) (name : String) (path : Core.ItemPath)
    (h : ∀ child, kind = .module child →
      DecidedBy (child.lower path).outcome (child.faults path)) :
    DecidedBy (kind.lower name path).outcome (kind.faults path) := by
  cases kind with
  | removed => exact ⟨_, rfl⟩
  | externCrate c => exact ⟨_, rfl⟩
  | module m =>
    rw [ItemKind.lower, Traced.outcome_bind, ItemKind.faults]
    exact (h m rfl).bind_ok _
  | _ =>
    rw [ItemKind.lower, Traced.outcome_bind, ItemKind.faults]
    exact (DecidedBy.self _).bind_ok _

theorem Module.lower_decided (m : Module) : ∀ path,
    DecidedBy (m.lower path).outcome (m.faults path) := by
  refine Module.tree_induction
    (P := fun m => ∀ path, DecidedBy (m.lower path).outcome (m.faults path))
    (fun m ih path => ?_) m
  rw [Module.lower_outcome, Module.faults_eq]
  refine ItemKind.lowerAll_decided m.declared (fun item hi => ?_) (.empty path) (by simp)
  exact ItemKind.lower_decided item.data item.name _ fun child hc => ih item hi child hc _

/-! ## Modules without faults -/

/-- Two items declare different names wherever they declare in one name space. -/
def Named.Apart (a b : Named ItemKind) : Prop :=
  ∀ space, a.data.declares space = true → b.data.declares space = true → a.name ≠ b.name

theorem Named.clashes_eq_nil {item : Named ItemKind} :
    item.clashes seen = [] ↔ ∀ a ∈ seen, Named.Apart a item := by
  have hspace : item.clashes seen = [] ↔ ∀ space, ¬ (item.data.declares space = true ∧
      ∃ a ∈ seen, a.data.declares space = true ∧ a.name = item.name) := by
    simp only [Named.clashes, Core.NameClash.ifTaken, List.flatMap_eq_nil_iff, ite_eq_right_iff,
      Bool.and_eq_true, List.any_eq_true, beq_iff_eq, List.cons_ne_nil, imp_false]
    refine ⟨fun h space => h space (by cases space <;> simp), fun h space _ => h space⟩
  rw [hspace]
  constructor
  · intro h a ha space hd hi hn
    exact h space ⟨hi, a, ha, hd, hn⟩
  · rintro h space ⟨hi, a, ha, hd, hn⟩
    exact h a ha space hd hi hn

theorem ItemKind.faultsAll_eq_nil (items : List (Named ItemKind)) :
    ItemKind.faultsAll items path seen = [] ↔
      (∀ i ∈ items, i.data.faults (path.join i.name) = []) ∧
      (∀ a ∈ seen, ∀ i ∈ items, Named.Apart a i) ∧ items.Pairwise Named.Apart := by
  induction items generalizing seen with
  | nil => simp [ItemKind.faultsAll]
  | cons item rest ih =>
    simp only [ItemKind.faultsAll_cons, List.append_eq_nil_iff, ih, Named.nameFaults,
      List.map_eq_nil_iff, Named.clashes_eq_nil, List.pairwise_cons, List.mem_append,
      List.mem_cons, List.not_mem_nil, or_false]
    grind

/-- Items are apart when each name space has its names once. -/
theorem Named.pairwise_apart (items : List (Named ItemKind)) :
    items.Pairwise Named.Apart ↔
      ((items.filter (·.data.declares .type)).map (·.name)).Nodup ∧
      ((items.filter (·.data.declares .value)).map (·.name)).Nodup := by
  simp only [List.Nodup, List.pairwise_map, List.pairwise_filter]
  rw [← List.pairwise_and_iff]
  refine iff_of_eq (congrArg (List.Pairwise · items) ?_)
  funext a b
  refine propext ⟨fun h => ⟨h .type, h .value⟩, fun h space => ?_⟩
  cases space with
  | type => exact h.1
  | value => exact h.2

theorem stops_eq_nil {ε α : Type} (r : Except ε α) : stops r = [] ↔ ∃ a, r = .ok a :=
  (DecidedBy.self r).ok_iff.symm

theorem ItemKind.faults_eq_nil (kind : ItemKind) (path : Core.ItemPath) :
    kind.faults path = [] ↔
      kind.LowersAlone path ∧ ∀ child, kind = .module child → child.faults path = [] := by
  cases kind <;> simp [ItemKind.faults, ItemKind.LowersAlone, stops_eq_nil]

/-- The items of a module lower on their own, and it declares each name once in
each name space. -/
structure Module.Sound (m : Module) (path : Core.ItemPath) : Prop where
  items : ∀ i ∈ m.items, i.data.LowersAlone (path.join i.name)
  types : m.typeNames.Nodup
  values : m.valueNames.Nodup

theorem Module.declared_lowersAlone (m : Module) (path : Core.ItemPath) :
    (∀ i ∈ m.declared, i.data.LowersAlone (path.join i.name)) ↔
      ∀ i ∈ m.items, i.data.LowersAlone (path.join i.name) := by
  refine ⟨fun h i hi => h i (List.mem_append_left _ hi), fun h i hi => ?_⟩
  rcases List.mem_append.mp hi with hi | hi
  · exact h i hi
  · obtain ⟨k, child, -, rfl⟩ := Module.mem_anonymousItems.mp hi
    trivial

theorem Module.faults_eq_nil (m : Module) (path : Core.ItemPath) :
    m.faults path = [] ↔ m.Sound path ∧ ∀ i ∈ m.declared, ∀ child, i.data = .module child →
      child.faults (path.join i.name) = [] := by
  rw [Module.faults_eq, ItemKind.faultsAll_eq_nil, Named.pairwise_apart, Module.declared_types,
    Module.declared_values]
  simp only [ItemKind.faults_eq_nil, List.not_mem_nil, false_implies, implies_true, true_and]
  constructor
  · rintro ⟨hitems, htypes, hvalues⟩
    refine ⟨⟨?_, htypes, hvalues⟩, fun i hi => (hitems i hi).2⟩
    exact (m.declared_lowersAlone path).mp fun i hi => (hitems i hi).1
  · rintro ⟨hsound, hchildren⟩
    refine ⟨fun i hi => ⟨?_, hchildren i hi⟩, hsound.types, hsound.values⟩
    exact (m.declared_lowersAlone path).mpr hsound.items i hi

theorem Module.Within.of_declared {c child : Module} {q p : Core.ItemPath} {m : Module}
    {i : Named ItemKind} (hi : i ∈ m.declared) (hc : i.data = .module child)
    (h : c.Within q child (p.join i.name)) : c.Within q m p := by
  rcases List.mem_append.mp hi with hi | hi
  · exact .named hi hc h
  · obtain ⟨k, child, hk, rfl⟩ := Module.mem_anonymousItems.mp hi
    cases hc
    rw [Nat.zero_add] at h
    exact .anonymous hk h

theorem Module.Within.cases_declared {c : Module} {q p : Core.ItemPath} {m : Module}
    (h : c.Within q m p) : (c = m ∧ q = p) ∨ ∃ i ∈ m.declared, ∃ child, i.data = .module child ∧
      c.Within q child (p.join i.name) := by
  cases h with
  | self => exact .inl ⟨rfl, rfl⟩
  | named hi hc h => exact .inr ⟨_, List.mem_append_left _ hi, _, hc, h⟩
  | anonymous hk h =>
    refine .inr ⟨_, List.mem_append_right _ (Module.mem_anonymousItems.mpr ⟨_, _, hk, rfl⟩), _,
      rfl, ?_⟩
    rwa [Nat.zero_add]

/-- A module has no fault when every module of its tree is sound. -/
theorem Module.faults_eq_nil_iff (m : Module) : ∀ path,
    m.faults path = [] ↔ ∀ (c : Module) (q : Core.ItemPath), c.Within q m path → c.Sound q := by
  refine Module.tree_induction
    (P := fun m => ∀ path, m.faults path = [] ↔
      ∀ (c : Module) (q : Core.ItemPath), c.Within q m path → c.Sound q)
    (fun m ih path => ?_) m
  rw [Module.faults_eq_nil]
  constructor
  · rintro ⟨hsound, hchildren⟩ c q hw
    rcases hw.cases_declared with ⟨rfl, rfl⟩ | ⟨i, hi, child, hc, hw⟩
    · exact hsound
    · exact (ih i hi child hc _).mp (hchildren i hi child hc) c q hw
  · intro h
    refine ⟨h m path .self, fun i hi child hc => (ih i hi child hc _).mpr fun c q hw => ?_⟩
    exact h c q (.of_declared hi hc hw)

/-! ## Macros -/

theorem NamedMacro.conflicts_eq_nil (entries : List NamedMacro) (seen : List String) :
    NamedMacro.conflicts entries seen = [] ↔
      (entries.map (·.name)).Nodup ∧ ∀ m ∈ entries, m.name ∉ seen := by
  induction entries generalizing seen with
  | nil => simp [NamedMacro.conflicts]
  | cons m rest ih =>
    simp only [NamedMacro.conflicts, List.append_eq_nil_iff, ih, ite_eq_right_iff,
      List.contains_iff_mem, List.map_cons, List.nodup_cons, List.mem_map, List.mem_append,
      List.mem_cons, List.not_mem_nil, or_false, List.cons_ne_nil, imp_false]
    grind

theorem NamedMacro.collect_reject (entries : List NamedMacro) (table : NameMap MacroRules)
    (seen : List String) (h : ∀ n, table.contains n = seen.contains n) :
    DecidedBy (NamedMacro.collect .reject entries table).outcome
      (NamedMacro.conflicts entries seen) := by
  induction entries generalizing table seen with
  | nil => exact ⟨table, rfl⟩
  | cons m rest ih =>
    rw [NamedMacro.collect, NamedMacro.conflicts, h]
    split
    · rfl
    · refine ih _ _ fun n => ?_
      rw [NameMap.contains_set, h, Bool.eq_iff_iff]
      simp only [Bool.or_eq_true, beq_iff_eq, List.contains_iff_mem, List.mem_append,
        List.mem_singleton]
      rw [or_comm, @eq_comm _ n]

theorem NamedMacro.collect_keep {policy : ConflictPolicy} (hp : policy ≠ .reject)
    (entries : List NamedMacro) (table : NameMap MacroRules) :
    DecidedBy (NamedMacro.collect policy entries table).outcome [] := by
  induction entries generalizing table with
  | nil => exact ⟨table, rfl⟩
  | cons m rest ih =>
    unfold NamedMacro.collect
    split
    · cases policy with
      | reject => exact absurd rfl hp
      | keepFirst => exact ih table
      | keepLast => exact ih _
    · exact ih _

theorem NamedMacro.collect_decided (policy : ConflictPolicy) (entries : List NamedMacro) :
    DecidedBy (NamedMacro.collect policy entries .empty).outcome
      (NamedMacro.faults policy entries) := by
  cases policy with
  | reject => exact NamedMacro.collect_reject entries .empty [] fun _ => rfl
  | keepFirst => exact NamedMacro.collect_keep (by simp) entries .empty
  | keepLast => exact NamedMacro.collect_keep (by simp) entries .empty

theorem NamedMacro.faults_eq_nil (policy : ConflictPolicy) (entries : List NamedMacro) :
    NamedMacro.faults policy entries = [] ↔
      policy ≠ .reject ∨ (entries.map (·.name)).Nodup := by
  cases policy <;> simp [NamedMacro.faults, NamedMacro.conflicts_eq_nil]

/-! ## Crates -/

theorem Crate.lower_decided (c : Crate) (config : Config) :
    DecidedBy (c.lower config).outcome (c.faults config) := by
  simp only [Crate.lower, Traced.outcome_bind, Traced.outcome_emit, Lowered.ok_bind]
  refine (NamedMacro.collect_decided config.macroConflicts _).bind fun macros _ => ?_
  exact (c.root.lower_decided _).bind_ok _

/-- Lowering a crate gives a crate or stops, and its faults say which. It gives a
crate exactly when the names of the macros are distinct or need not be, every
item of every module of the tree lowers on its own, and every module declares
each type name once and each value name once. Otherwise it stops at the first
fault. -/
theorem Crate.lower_determined (c : Crate) (config : Config) :
    ((∃ out, (c.lower config).outcome = .ok out) ↔
      (config.macroConflicts ≠ .reject ∨
        ((c.root.macros ++ c.root.imports).map (·.name)).Nodup) ∧
      (∀ m p, Module.Within m p c.root (.root config.crateName) →
        ∀ i ∈ m.items, i.data.LowersAlone (p.join i.name)) ∧
      (∀ m p, Module.Within m p c.root (.root config.crateName) →
        m.typeNames.Nodup ∧ m.valueNames.Nodup)) ∧
    ∀ d, (c.lower config).outcome = .error d ↔ (c.faults config).head? = some d := by
  refine ⟨?_, (c.lower_decided config).error_iff⟩
  rw [(c.lower_decided config).ok_iff, Crate.faults, List.append_eq_nil_iff,
    NamedMacro.faults_eq_nil, Module.faults_eq_nil_iff, and_congr_right_iff]
  intro _
  constructor
  · intro h
    exact ⟨fun m p hw => (h m p hw).items, fun m p hw => ⟨(h m p hw).types, (h m p hw).values⟩⟩
  · rintro ⟨hitems, hnames⟩ m p hw
    exact ⟨hitems m p hw, (hnames m p hw).1, (hnames m p hw).2⟩

end Lowering.Surface
