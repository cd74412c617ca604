import Lowering.Proofs.Faults

/-!
# Macro tables

A crate's macro table is collected from the macros of its root module, those it
defines before those it imports. A list of macros may repeat names in any way; the
policy says which of the rules under one name the table keeps, or that there must
be no repetition at all.

What is proved:
  1. `NamedMacro.conflicts_head`: refusing stops at the first macro whose name
     occurs before it.
  2. `NamedMacro.get?_replacing`: replacing leaves the last rules under each name.
  3. `NamedMacro.replacing_eq_keeping`: keeping the first of a list is replacing
     along the reversed list.
Main statement: `NamedMacro.table_by_policy`.
-/

namespace Lowering.Surface

namespace NamedMacro

/-- The names of macros. -/
abbrev names (entries : List NamedMacro) : List String := entries.map (·.name)

/-- The table that is collected from macros under a policy. -/
abbrev table (policy : ConflictPolicy) (entries : List NamedMacro) : Lowered (NameMap MacroRules) :=
  (NamedMacro.collect policy entries .empty).outcome

/-- The macro is the first one in the list whose name occurs before it. -/
def FirstRepeat (entries : List NamedMacro) (m : NamedMacro) : Prop :=
  ∃ before after, entries = before ++ m :: after ∧ (names before).Nodup ∧ m.name ∈ names before

/-- The rules are those of the first macro of that name. -/
def First (entries : List NamedMacro) (name : String) (rules : MacroRules) : Prop :=
  ∃ before after, entries = before ++ ⟨name, rules⟩ :: after ∧ name ∉ names before

/-- The rules are those of the last macro of that name. -/
def Last (entries : List NamedMacro) (name : String) (rules : MacroRules) : Prop :=
  ∃ before after, entries = before ++ ⟨name, rules⟩ :: after ∧ name ∉ names after

theorem last_reverse {entries : List NamedMacro} {name : String} {rules : MacroRules} :
    Last entries.reverse name rules ↔ First entries name rules := by
  constructor
  · rintro ⟨before, after, h, hafter⟩
    refine ⟨after.reverse, before.reverse, ?_, by simpa using hafter⟩
    rw [← List.reverse_reverse entries, h]
    simp
  · rintro ⟨before, after, rfl, hbefore⟩
    exact ⟨after.reverse, before.reverse, by simp, by simpa using hbefore⟩

theorem last_cons {m : NamedMacro} {rest : List NamedMacro} {name : String} {rules : MacroRules} :
    Last (m :: rest) name rules ↔
      Last rest name rules ∨ name ∉ names rest ∧ m = ⟨name, rules⟩ := by
  constructor
  · rintro ⟨before, after, h, hafter⟩
    cases before with
    | nil =>
      obtain ⟨rfl, rfl⟩ := List.cons.inj h
      exact .inr ⟨hafter, rfl⟩
    | cons x before =>
      obtain ⟨rfl, rfl⟩ := List.cons.inj h
      exact .inl ⟨before, after, rfl, hafter⟩
  · rintro (⟨before, after, rfl, hafter⟩ | ⟨hrest, rfl⟩)
    · exact ⟨m :: before, after, rfl, hafter⟩
    · exact ⟨[], rest, rfl, hrest⟩

theorem Last.mem {entries : List NamedMacro} {name : String} {rules : MacroRules}
    (h : Last entries name rules) : ⟨name, rules⟩ ∈ entries := by
  obtain ⟨before, after, rfl, -⟩ := h
  exact List.mem_append_right _ List.mem_cons_self

/-! ## Refusing repetitions -/

/-- The first conflict is that of the first macro whose name occurs before it. -/
theorem conflicts_head (entries : List NamedMacro) (seen : List String) (d : Diagnostic) :
    (conflicts entries seen).head? = some d ↔ ∃ before m after, entries = before ++ m :: after ∧
      conflicts before seen = [] ∧ m.name ∈ seen ++ names before ∧
      d = .macroConflict m.name m.rules.span := by
  induction entries generalizing seen with
  | nil => simp [conflicts]
  | cons x rest ih =>
    by_cases hx : x.name ∈ seen
    · have hconflict : ∀ l, conflicts (x :: l) seen =
          .macroConflict x.name x.rules.span :: conflicts l (seen ++ [x.name]) := by
        simp [conflicts, hx]
      constructor
      · intro h
        rw [hconflict, List.head?_cons, Option.some.injEq] at h
        exact ⟨[], x, rest, rfl, rfl, by simpa using hx, h.symm⟩
      · rintro ⟨before, m, after, h, hnone, -, rfl⟩
        cases before with
        | nil =>
          obtain ⟨rfl, -⟩ := List.cons.inj h
          rw [hconflict, List.head?_cons]
        | cons y before =>
          -- `x` conflicts, so it cannot stand before the first conflict
          obtain ⟨rfl, -⟩ := List.cons.inj h
          rw [hconflict] at hnone
          cases hnone
    · have hnext : ∀ l, conflicts (x :: l) seen = conflicts l (seen ++ [x.name]) := by
        simp [conflicts, hx]
      rw [hnext, ih]
      constructor
      · rintro ⟨before, m, after, rfl, hnone, hm, rfl⟩
        exact ⟨x :: before, m, after, rfl, (hnext before).trans hnone, by simpa using hm, rfl⟩
      · rintro ⟨before, m, after, h, hnone, hm, rfl⟩
        cases before with
        | nil =>
          obtain ⟨rfl, -⟩ := List.cons.inj h
          exact absurd (by simpa using hm) hx
        | cons y before =>
          obtain ⟨rfl, rfl⟩ := List.cons.inj h
          exact ⟨before, m, after, rfl, (hnext before).symm.trans hnone, by simpa using hm, rfl⟩

theorem table_reject_error (entries : List NamedMacro) (d : Diagnostic) :
    table .reject entries = .error d ↔
      ∃ m, FirstRepeat entries m ∧ d = .macroConflict m.name m.rules.span := by
  rw [(collect_decided .reject entries).error_iff, faults, conflicts_head]
  simp only [conflicts_eq_nil, List.not_mem_nil, not_false_eq_true, implies_true, and_true,
    List.nil_append]
  constructor
  · rintro ⟨before, m, after, h, hbefore, hm, hd⟩
    exact ⟨m, ⟨before, after, h, hbefore, hm⟩, hd⟩
  · rintro ⟨m, ⟨before, after, h, hbefore, hm⟩, hd⟩
    exact ⟨before, m, after, h, hbefore, hm, hd⟩

/-- Where refusing gives a table, every policy gives the same one. -/
theorem collect_of_reject (policy : ConflictPolicy) {entries : List NamedMacro}
    {start out : NameMap MacroRules}
    (h : (NamedMacro.collect .reject entries start).outcome = .ok out) :
    (NamedMacro.collect policy entries start).outcome = .ok out := by
  induction entries generalizing start with
  | nil => exact h
  | cons m rest ih =>
    unfold NamedMacro.collect at h ⊢
    split at h
    · cases h
    · rename_i hnew
      rw [if_neg hnew]
      exact ih h

/-! ## Keeping one of several -/

/-- Puts a macro in place of what is under its name. -/
def replacing (table : NameMap MacroRules) (m : NamedMacro) : NameMap MacroRules :=
  table.set m.name m.rules

/-- Adds a macro unless its name is taken. -/
def keeping (table : NameMap MacroRules) (m : NamedMacro) : NameMap MacroRules :=
  if table.contains m.name then table else table.set m.name m.rules

theorem collect_keepLast (entries : List NamedMacro) (start : NameMap MacroRules) :
    (NamedMacro.collect .keepLast entries start).outcome = .ok (entries.foldl replacing start) := by
  induction entries generalizing start with
  | nil => rfl
  | cons m rest ih =>
    unfold NamedMacro.collect
    split
    · exact ih _
    · exact ih _

theorem collect_keepFirst (entries : List NamedMacro) (start : NameMap MacroRules) :
    (NamedMacro.collect .keepFirst entries start).outcome = .ok (entries.foldl keeping start) := by
  induction entries generalizing start with
  | nil => rfl
  | cons m rest ih =>
    rw [List.foldl_cons, keeping]
    unfold NamedMacro.collect
    split
    · exact ih start
    · exact ih _

theorem get?_replacing (entries : List NamedMacro) (start : NameMap MacroRules) (n : String)
    (r : MacroRules) :
    (entries.foldl replacing start).get? n = some r ↔
      Last entries n r ∨ n ∉ names entries ∧ start.get? n = some r := by
  induction entries generalizing start with
  | nil => simp [Last]
  | cons m rest ih =>
    obtain ⟨name, rules⟩ := m
    rw [List.foldl_cons, ih, last_cons, replacing, NameMap.get?_set]
    by_cases hn : name = n
    · simp [hn]
    · simp [hn, Ne.symm hn]

theorem contains_replacing (entries : List NamedMacro) (start : NameMap MacroRules) (n : String) :
    (entries.foldl replacing start).contains n = true ↔
      n ∈ names entries ∨ start.contains n = true := by
  induction entries generalizing start with
  | nil => simp
  | cons m rest ih =>
    rw [List.foldl_cons, ih, replacing, NameMap.contains_set]
    rw [Bool.or_eq_true, beq_iff_eq, @eq_comm _ m.name, ← or_assoc, @or_comm (n ∈ names rest)]
    exact or_congr_left List.mem_cons.symm

/-- A macro that comes first counts only if no later one has its name. -/
theorem foldl_replacing_first (m : NamedMacro) (rest : List NamedMacro)
    (start : NameMap MacroRules) :
    rest.foldl replacing (replacing start m) =
      if m.name ∈ names rest then rest.foldl replacing start
      else replacing (rest.foldl replacing start) m := by
  induction rest generalizing start with
  | nil => rfl
  | cons x rest ih =>
    rw [List.foldl_cons, List.foldl_cons]
    by_cases hx : m.name = x.name
    · have htwice : replacing (replacing start m) x = replacing start x := by
        unfold replacing
        rw [hx, NameMap.set_set]
      rw [htwice, if_pos (by simp [hx])]
    · -- under another name `m` may as well come after `x`
      have hswap : replacing (replacing start m) x = replacing (replacing start x) m :=
        start.set_comm hx m.rules x.rules
      rw [hswap, ih]
      simp [hx]

/-- Replacing along a list is keeping along the reversed list. -/
theorem replacing_eq_keeping (entries : List NamedMacro) :
    entries.foldl replacing .empty = entries.reverse.foldl keeping .empty := by
  induction entries with
  | nil => rfl
  | cons m rest ih =>
    have htaken : (rest.foldl replacing .empty).contains m.name = true ↔ m.name ∈ names rest := by
      rw [contains_replacing]
      exact or_iff_left Bool.false_ne_true
    rw [List.reverse_cons, List.foldl_append, ← ih, List.foldl_cons, foldl_replacing_first,
      List.foldl_cons, List.foldl_nil, keeping]
    simp only [htaken, replacing]

theorem table_keepLast_eq (entries : List NamedMacro) :
    table .keepLast entries = table .keepFirst entries.reverse := by
  rw [table, table, collect_keepLast, collect_keepFirst, replacing_eq_keeping]

/-- The table holds the macros that are selected, and holds every name. -/
structure Holds (table : NameMap MacroRules) (entries : List NamedMacro)
    (selected : List NamedMacro → String → MacroRules → Prop) : Prop where
  keys : ∀ n, table.contains n = true ↔ n ∈ names entries
  rules : ∀ n r, table.get? n = some r ↔ selected entries n r

theorem table_keepLast (entries : List NamedMacro) :
    ∃ t, table .keepLast entries = .ok t ∧ Holds t entries Last := by
  refine ⟨_, collect_keepLast entries .empty, fun n => ?_, fun n r => ?_⟩
  · rw [contains_replacing]
    exact or_iff_left Bool.false_ne_true
  · rw [get?_replacing]
    exact or_iff_left fun h => nomatch h.2

theorem table_keepFirst (entries : List NamedMacro) :
    ∃ t, table .keepFirst entries = .ok t ∧ Holds t entries First := by
  obtain ⟨t, ht, h⟩ := table_keepLast entries.reverse
  refine ⟨t, ?_, fun n => ?_, fun n r => ?_⟩
  · rw [← ht, table_keepLast_eq, List.reverse_reverse]
  · rw [h.keys, names, List.map_reverse, List.mem_reverse]
  · rw [h.rules, last_reverse]

/-- A table holds only what it was collected from. -/
theorem mem_of_get? {policy : ConflictPolicy} {entries : List NamedMacro} {t : NameMap MacroRules}
    (ht : table policy entries = .ok t) {n : String} {r : MacroRules} (h : t.get? n = some r) :
    ⟨n, r⟩ ∈ entries := by
  have hlast : ∀ l, table .keepLast l = .ok t → ⟨n, r⟩ ∈ l := by
    intro l hl
    obtain ⟨t', ht', hholds⟩ := table_keepLast l
    obtain rfl : t' = t := Except.ok.inj (ht'.symm.trans hl)
    exact ((hholds.rules n r).mp h).mem
  cases policy with
  | reject => exact hlast entries (collect_of_reject .keepLast ht)
  | keepFirst =>
    rw [← List.mem_reverse]
    exact hlast _ (by rw [table_keepLast_eq, List.reverse_reverse, ht])
  | keepLast => exact hlast entries ht

/-- What each policy makes of a list of macros. -/
structure ByPolicy (entries : List NamedMacro) : Prop where
  reject_ok : (∃ t, table .reject entries = .ok t) ↔ (names entries).Nodup
  reject_error : ∀ d, table .reject entries = .error d ↔
    ∃ m, FirstRepeat entries m ∧ d = .macroConflict m.name m.rules.span
  keepFirst : ∃ t, table .keepFirst entries = .ok t ∧ Holds t entries First
  keepLast : ∃ t, table .keepLast entries = .ok t ∧ Holds t entries Last
  reversed : table .keepLast entries = table .keepFirst entries.reverse
  agree : ∀ t, table .reject entries = .ok t → ∀ policy, table policy entries = .ok t

end NamedMacro

/-- The macros that a crate's table is collected from. -/
def Crate.tableEntries (c : Crate) : List NamedMacro := c.root.macros ++ c.root.imports

theorem Crate.lower_outcome (c : Crate) (config : Config) :
    (c.lower config).outcome =
      NamedMacro.table config.macroConflicts c.tableEntries >>= fun macros =>
      (c.root.lower (.root config.crateName)).outcome >>= fun root => .ok ⟨root, macros⟩ := by
  simp only [Crate.lower, Traced.outcome_bind, Traced.outcome_emit, Lowered.ok_bind]
  rfl

/-- The table of a lowered crate: it is the one collected from the macros of the
root, it holds no other macros, and a conflict is reported before anything in the
module tree is. -/
structure Crate.HasTable (c : Crate) (config : Config) : Prop where
  attached : ∀ out, (c.lower config).outcome = .ok out →
    NamedMacro.table config.macroConflicts c.tableEntries = .ok out.macros
  ofRoot : ∀ out, (c.lower config).outcome = .ok out → ∀ n r, out.macros.get? n = some r →
    ⟨n, r⟩ ∈ c.tableEntries
  conflict_first : ∀ d, NamedMacro.table config.macroConflicts c.tableEntries = .error d →
    (c.lower config).outcome = .error d

/-- Macro tables obey their policy, for every list of macros, and the table of a
crate is the one for the macros of its root. -/
theorem NamedMacro.table_by_policy :
    (∀ entries, NamedMacro.ByPolicy entries) ∧
      ∀ (c : Crate) (config : Config), c.HasTable config := by
  refine ⟨fun entries => ?_, fun c config => ?_⟩
  · have hreject := NamedMacro.collect_decided .reject entries
    exact {
      reject_ok := by simpa [NamedMacro.faults_eq_nil] using hreject.ok_iff
      reject_error := NamedMacro.table_reject_error entries
      keepFirst := NamedMacro.table_keepFirst entries
      keepLast := NamedMacro.table_keepLast entries
      reversed := NamedMacro.table_keepLast_eq entries
      agree := fun t ht policy => NamedMacro.collect_of_reject policy ht }
  · have htable : ∀ out, (c.lower config).outcome = .ok out →
        NamedMacro.table config.macroConflicts c.tableEntries = .ok out.macros := by
      intro out h
      rw [Crate.lower_outcome] at h
      obtain ⟨macros, hmacros, h⟩ := Lowered.bind_eq_ok.mp h
      obtain ⟨root, -, ⟨⟩⟩ := Lowered.bind_eq_ok.mp h
      exact hmacros
    refine ⟨htable, fun out h n r hr => NamedMacro.mem_of_get? (htable out h) hr, fun d h => ?_⟩
    rw [Crate.lower_outcome, h]
    rfl

end Lowering.Surface
