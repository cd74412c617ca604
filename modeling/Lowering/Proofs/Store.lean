import Lowering.Proofs.Coherence

/-!
# Stores with two name spaces

A module and a trait both store entries in two name spaces. A run is a list of
calls, each of which adds one entry, in any mixture of the two spaces and with any
names repeated. The run goes on after a call that fails, with the store that the
call has left.

What is proved:
  1. `Module.store_lawful`, `Trait.store_lawful`: what one call does. It writes to
     its own name space unless the name is taken there, and to nothing else; if the
     name is taken, the store it leaves is the one it was made on.
  2. `Store.Lawful.space_run`: after a run each name space holds what the calls wrote
     to it one after the other, so it has under a name what the first call with that
     name brought (`get?_run`), and a name is taken when an earlier call has used it
     (`taken_run_iff`).
  3. `Store.Lawful.reports_filter`: a name space does not notice the calls of the
     other one.
Main statement: `stores_firstWriterWins`.
-/

namespace Lowering.Core

/-! ## Calls -/

/-- A call that adds an entry to a name space, whose entries are of type `E`. -/
structure Call (E : Namespace → Type) where
  space : Namespace
  name : String
  entry : E space

variable {E : Namespace → Type}

namespace Call

/-- What a call fails with. -/
def clash (c : Call E) : NameClash := ⟨c.space, c.name⟩

/-- The entry that a call adds to a name space under a name, if it does. -/
def entryAt? (k : Namespace) (n : String) (c : Call E) : Option (E k) :=
  if h : c.space = k then if c.name = n then some (h ▸ c.entry) else none else none

/-- What a call writes to a name space: nothing if it is for the other one or the
name is taken. -/
def write (k : Namespace) (m : NameMap (E k)) (c : Call E) : NameMap (E k) :=
  if h : c.space = k then if m.contains c.name then m else m.set c.name (h ▸ c.entry) else m

theorem write_of_ne {k : Namespace} {c : Call E} (h : c.space ≠ k) (m : NameMap (E k)) :
    c.write k m = m := dif_neg h

theorem entryAt?_isSome (k : Namespace) (n : String) (c : Call E) :
    (c.entryAt? k n).isSome = true ↔ c.space = k ∧ c.name = n := by
  unfold entryAt?
  by_cases hk : c.space = k
  · by_cases hn : c.name = n <;> simp [hk, hn]
  · simp [hk]

/-- A name keeps the value it has, and otherwise gets what the call brings. -/
theorem get?_write (k : Namespace) (m : NameMap (E k)) (c : Call E) (n : String) :
    (c.write k m).get? n = (m.get? n).or (c.entryAt? k n) := by
  obtain ⟨space, name, entry⟩ := c
  by_cases hk : space = k
  · subst hk
    by_cases hn : name = n
    · subst hn
      cases hm : m.get? name <;> simp [write, entryAt?, NameMap.contains, hm]
    · cases hm : m.contains name <;> simp [write, entryAt?, hm, hn]
  · simp [write, entryAt?, hk]

/-- What the calls of a run write to a name space, one after the other. -/
def writeAll (k : Namespace) (m : NameMap (E k)) (calls : List (Call E)) : NameMap (E k) :=
  calls.foldl (fun m c => c.write k m) m

/-- Of the calls with one name the first one counts, and none does if the name has
a value already. -/
theorem get?_writeAll (k : Namespace) (m : NameMap (E k)) (calls : List (Call E)) (n : String) :
    (writeAll k m calls).get? n = (m.get? n).or (calls.findSome? (entryAt? k n)) := by
  induction calls generalizing m with
  | nil => simp [writeAll]
  | cons c rest ih =>
    change (writeAll k (c.write k m) rest).get? n = _
    rw [ih, get?_write, Option.or_assoc, List.findSome?_cons]
    cases c.entryAt? k n <;> simp

/-- Where no two calls have one name in one name space, each of them is the first
with its name. -/
theorem findSome?_entryAt? {calls : List (Call E)} (h : (calls.map clash).Nodup)
    {k : Namespace} {n : String} {e : E k} :
    calls.findSome? (entryAt? k n) = some e ↔ ∃ c ∈ calls, c.entryAt? k n = some e := by
  refine ⟨List.exists_of_findSome?_eq_some, ?_⟩
  rintro ⟨c, hc, he⟩
  induction calls with
  | nil => cases hc
  | cons d rest ih =>
    rw [List.map_cons, List.nodup_cons] at h
    rw [List.findSome?_cons]
    rcases List.mem_cons.mp hc with rfl | hc
    · rw [he]
    · cases hd : d.entryAt? k n with
      | none => exact ih h.2 hc
      | some e' =>
        obtain ⟨hcs, hcn⟩ := (c.entryAt?_isSome k n).mp (by simp [he])
        obtain ⟨hds, hdn⟩ := (d.entryAt?_isSome k n).mp (by simp [hd])
        have hsame : d.clash = c.clash := by simp [clash, hcs, hcn, hds, hdn]
        exact absurd (hsame ▸ List.mem_map_of_mem hc) h.1

/-- Calls for the other name space can be left out. -/
theorem writeAll_filter (k : Namespace) (m : NameMap (E k)) (calls : List (Call E)) :
    writeAll k m (calls.filter (·.space == k)) = writeAll k m calls := by
  induction calls generalizing m with
  | nil => rfl
  | cons c rest ih =>
    by_cases hk : c.space = k
    · rw [List.filter_cons, if_pos (beq_iff_eq.mpr hk)]
      exact ih (c.write k m)
    · rw [List.filter_cons, if_neg (by simpa using hk), ih]
      change writeAll k m rest = writeAll k (c.write k m) rest
      rw [write_of_ne hk]

end Call

/-! ## Stores -/

/-- A store with two name spaces: what they hold, and what a call does. -/
structure Store (σ : Type) (E : Namespace → Type) where
  space : (k : Namespace) → σ → NameMap (E k)
  call : σ → Call E → Attempt σ

namespace Store

variable {σ : Type} (S : Store σ E)

/-- The store that a call leaves, whether it succeeds or fails. -/
def after (s : σ) (c : Call E) : σ := (S.call s c).store

/-- What a call reports. -/
def report (s : σ) (c : Call E) : Except NameClash Unit := (S.call s c).report

/-- The store after a run of calls. -/
def run (s : σ) (calls : List (Call E)) : σ := calls.foldl S.after s

/-- What the calls of a run report, in order. -/
def reports : σ → List (Call E) → List (Except NameClash Unit)
  | _, [] => []
  | s, c :: rest => S.report s c :: reports (S.after s c) rest

/-- Whether a call's name is taken in its name space. -/
def taken (s : σ) (c : Call E) : Bool := (S.space c.space s).contains c.name

/-- What one call does to a store. -/
structure Lawful : Prop where
  report_eq : ∀ s c, S.report s c = if S.taken s c then .error c.clash else .ok ()
  after_of_taken : ∀ s c, S.taken s c = true → S.after s c = s
  space_after : ∀ k s c, S.space k (S.after s c) = c.write k (S.space k s)

/-- The first writer of a name wins in either name space of a store, whatever the
run of calls on it, and the two name spaces are independent. -/
structure FirstWriterWins (start : σ) : Prop where
  /-- A call fails exactly when an earlier one has used its name in its name space,
  and it reports just that. -/
  report : ∀ before c, S.report (S.run start before) c =
    if ∃ d ∈ before, d.space = c.space ∧ d.name = c.name then .error ⟨c.space, c.name⟩
    else .ok ()
  /-- The reports of a run are those of its calls, each made after the ones before. -/
  reports : ∀ before c after, (S.reports start (before ++ c :: after))[before.length]? =
    some (S.report (S.run start before) c)
  /-- A call that fails leaves the whole store unchanged. -/
  unchanged : ∀ before c, (∃ clash, S.report (S.run start before) c = .error clash) →
    S.run start (before ++ [c]) = S.run start before
  /-- A name has the entry of the first call with that name, or none. -/
  lookup : ∀ calls k n, (S.space k (S.run start calls)).get? n =
    calls.findSome? (Call.entryAt? k n)
  /-- The calls of one name space report as they do without those of the other. -/
  alone_reports : ∀ (calls : List (Call E)) k,
    ((calls.zip (S.reports start calls)).filter (·.1.space == k)).map Prod.snd =
      S.reports start (calls.filter (·.space == k))
  /-- One name space has the contents it has without the calls of the other. -/
  alone_contents : ∀ calls k, S.space k (S.run start calls) =
    S.space k (S.run start (calls.filter (·.space == k)))

/-! ## Runs -/

theorem run_concat (s : σ) (calls : List (Call E)) (c : Call E) :
    S.run s (calls ++ [c]) = S.after (S.run s calls) c := by
  simp [run]

theorem reports_get? (s : σ) (before : List (Call E)) (c : Call E) (after : List (Call E)) :
    (S.reports s (before ++ c :: after))[before.length]? = some (S.report (S.run s before) c) := by
  induction before generalizing s with
  | nil => rfl
  | cons d rest ih =>
    rw [List.cons_append, reports, List.length_cons, List.getElem?_cons_succ]
    exact ih (S.after s d)

namespace Lawful

variable {S} (hS : S.Lawful)

include hS

/-- What a call gives to a caller that stops at a clash. -/
theorem outcome_call (s : σ) (c : Call E) :
    (S.call s c).outcome = if S.taken s c then .error c.clash else .ok (S.after s c) := by
  change (S.report s c).map (fun _ => S.after s c) = _
  rw [hS.report_eq]
  split <;> rfl

theorem space_run (k : Namespace) (s : σ) (calls : List (Call E)) :
    S.space k (S.run s calls) = Call.writeAll k (S.space k s) calls := by
  induction calls generalizing s with
  | nil => rfl
  | cons c rest ih =>
    change S.space k (S.run (S.after s c) rest) = Call.writeAll k (c.write k (S.space k s)) rest
    rw [ih, hS.space_after]

theorem get?_run {k : Namespace} {s : σ} (hs : S.space k s = .empty) (calls : List (Call E))
    (n : String) : (S.space k (S.run s calls)).get? n = calls.findSome? (Call.entryAt? k n) := by
  rw [hS.space_run, hs, Call.get?_writeAll]
  rfl

theorem taken_run_iff {s : σ} (hs : ∀ k, S.space k s = .empty) (before : List (Call E))
    (c : Call E) : S.taken (S.run s before) c = true ↔
      ∃ d ∈ before, d.space = c.space ∧ d.name = c.name := by
  unfold taken NameMap.contains
  rw [hS.get?_run (hs c.space), List.findSome?_isSome_iff]
  simp only [Call.entryAt?_isSome]

/-- A name space reports alike on two stores that agree on it, with the calls of
the other space and without them. -/
theorem reports_filter (k : Namespace) (calls : List (Call E)) {s t : σ}
    (h : S.space k s = S.space k t) :
    ((calls.zip (S.reports s calls)).filter (·.1.space == k)).map Prod.snd =
      S.reports t (calls.filter (·.space == k)) := by
  induction calls generalizing s t with
  | nil => rfl
  | cons c rest ih =>
    rw [reports, List.zip_cons_cons]
    by_cases hk : c.space = k
    · have hbeq : (c.space == k) = true := beq_iff_eq.mpr hk
      simp only [List.filter_cons, hbeq, if_true, List.map_cons, reports]
      -- the call does the same to both stores as far as this space goes
      have htaken : S.taken s c = S.taken t c := by
        subst hk
        exact congrArg (·.contains c.name) h
      rw [hS.report_eq, hS.report_eq, htaken]
      refine congrArg _ (ih ?_)
      rw [hS.space_after, hS.space_after, h]
    · have hbeq : (c.space == k) = false := beq_eq_false_iff_ne.mpr hk
      simp only [List.filter_cons, hbeq, Bool.false_eq_true, if_false]
      refine ih ?_
      rw [hS.space_after, Call.write_of_ne hk, h]

/-- In a store that starts out empty the first writer wins. -/
theorem firstWriterWins {start : σ} (hs : ∀ k, S.space k start = .empty) :
    S.FirstWriterWins start where
  report before c := by
    rw [hS.report_eq]
    simp only [hS.taken_run_iff hs, Call.clash]
  reports := S.reports_get? start
  unchanged before c := by
    rintro ⟨clash, hclash⟩
    rw [S.run_concat]
    apply hS.after_of_taken
    by_contra hfree
    rw [hS.report_eq, if_neg hfree] at hclash
    cases hclash
  lookup calls k n := hS.get?_run (hs k) calls n
  alone_reports calls k := hS.reports_filter k calls rfl
  alone_contents calls k := by
    rw [hS.space_run, hS.space_run, Call.writeAll_filter]

end Lawful

end Store

/-! ## Modules and traits as stores -/

theorem Namespace.add_eq {α : Type} (k : Namespace) (m : NameMap α) (name : String) (value : α) :
    k.add m name value =
      if m.contains name then ⟨.error ⟨k, name⟩, m⟩ else ⟨.ok (), m.set name value⟩ := by
  unfold Namespace.add NameMap.add?
  cases m.contains name <;> rfl

/-- A store is lawful when a call adds to its name space and puts the result in
place, and nothing else moves. -/
theorem Store.Lawful.of_put {σ : Type} {S : Store σ E}
    (put : (k : Namespace) → σ → NameMap (E k) → σ)
    (hcall : ∀ s c, S.call s c =
      (c.space.add (S.space c.space s) c.name c.entry).map (put c.space s))
    (hput : ∀ k s m, S.space k (put k s m) = m) (hsame : ∀ k s, put k s (S.space k s) = s)
    (htypes : ∀ s values, S.space .type (put .value s values) = S.space .type s)
    (hvalues : ∀ s types, S.space .value (put .type s types) = S.space .value s) :
    S.Lawful where
  report_eq s c := by
    unfold Store.report Store.taken
    rw [hcall, Namespace.add_eq]
    cases (S.space c.space s).contains c.name <;> rfl
  after_of_taken s c htaken := by
    unfold Store.taken at htaken
    unfold Store.after
    rw [hcall, Namespace.add_eq, if_pos htaken]
    -- the map that goes back in place is the one that was there
    exact hsame c.space s
  space_after k s c := by
    have hother : ∀ j m, j ≠ k → S.space k (put j s m) = S.space k s := by
      intro j m hjk
      cases j with
      | type =>
        cases k with
        | type => exact absurd rfl hjk
        | value => exact hvalues s m
      | value =>
        cases k with
        | type => exact htypes s m
        | value => exact absurd rfl hjk
    obtain ⟨space, name, entry⟩ := c
    unfold Store.after
    rw [hcall]
    by_cases hk : space = k
    · subst hk
      refine (hput space s _).trans ?_
      rw [Namespace.add_eq]
      cases hm : (S.space space s).contains name <;> simp [Call.write, hm]
    · exact (hother space _ hk).trans (Call.write_of_ne hk _).symm

/-- The entries of a module's name spaces. -/
def Module.Entry : Namespace → Type
  | .type => Visible TypeEntry
  | .value => Visible ValueEntry

/-- A module as a store. -/
def Module.store : Store Module Module.Entry where
  space
    | .type, m => m.types
    | .value, m => m.values
  call
    | m, ⟨.type, name, entry⟩ => m.addType name entry
    | m, ⟨.value, name, entry⟩ => m.addValue name entry

/-- A module with one of its name spaces replaced. -/
def Module.put : (k : Namespace) → Module → NameMap (Module.Entry k) → Module
  | .type, m, types => .mk m.path types m.values
  | .value, m, values => .mk m.path m.types values

theorem Module.store_lawful : Module.store.Lawful := by
  refine .of_put Module.put ?_ ?_ ?_ (fun _ _ => rfl) fun _ _ => rfl
  · rintro m ⟨_ | _, name, entry⟩ <;> rfl
  · rintro (_ | _) m entries <;> rfl
  · rintro (_ | _) ⟨path, types, values⟩ <;> rfl

/-- The entries of a trait's name spaces. -/
def Trait.Entry : Namespace → Type
  | .type => AssociatedType
  | .value => TraitValue

/-- A trait as a store. -/
def Trait.store : Store Trait Trait.Entry where
  space
    | .type, t => t.types
    | .value, t => t.values
  call
    | t, ⟨.type, name, entry⟩ => t.addType name entry
    | t, ⟨.value, name, entry⟩ => t.addValue name entry

/-- A trait with one of its name spaces replaced. -/
def Trait.put : (k : Namespace) → Trait → NameMap (Trait.Entry k) → Trait
  | .type, t, types => { t with types }
  | .value, t, values => { t with values }

theorem Trait.store_lawful : Trait.store.Lawful := by
  refine .of_put Trait.put ?_ ?_ ?_ (fun _ _ => rfl) fun _ _ => rfl
  · rintro t ⟨_ | _, name, entry⟩ <;> rfl
  · rintro (_ | _) t entries <;> rfl
  · rintro (_ | _) t <;> rfl

theorem Module.empty_space (path : ItemPath) (k : Namespace) :
    Module.store.space k (.empty path) = .empty := by
  cases k <;> rfl

theorem Trait.empty_space (generics : Generics) (parents : List AppliedPath) (k : Namespace) :
    Trait.store.space k ⟨generics, parents, .empty, .empty⟩ = .empty := by
  cases k <;> rfl

/-- New modules and new traits behave as two independent maps, in each of which the
first writer of a name wins, over every run of calls. A module has a child under a
name exactly when the first call that adds a type under that name brings a module,
and then the child is that module. -/
theorem stores_firstWriterWins :
    (∀ path, Module.store.FirstWriterWins (.empty path)) ∧
    (∀ generics parents,
      Trait.store.FirstWriterWins ⟨generics, parents, .empty, .empty⟩) ∧
    ∀ path calls name child,
      (Module.store.run (.empty path) calls).submodule? name = some child ↔
        ∃ isPub, calls.findSome? (Call.entryAt? .type name) = some ⟨isPub, .module child⟩ := by
  refine ⟨fun path => Module.store_lawful.firstWriterWins (Module.empty_space path),
    fun generics parents => Trait.store_lawful.firstWriterWins (Trait.empty_space generics parents),
    fun path calls name child => ?_⟩
  rw [← Module.store_lawful.get?_run (Module.empty_space path .type) calls name]
  exact Module.submodule?_eq_some

end Lowering.Core
