import Lowering.NameMap
import Mathlib.Data.List.Nodup

/-!
# Contents of name maps

A map lists the entries that were added to it. `NameMap.Lists m l` says that `m`
holds exactly the entries of `l`, no name twice. Adding keeps it true of the list
with one entry more, and adding is refused exactly for the names of the list. The
size of a map goes up by one with each name that is new (`size_add?`).
-/

namespace Lowering.NameMap

variable {α : Type}

theorem lookup_place (name k : String) (value : α) (entries : List (String × α)) :
    lookup k (place name value entries) = if name = k then some value else lookup k entries := by
  induction entries with
  | nil => rfl
  | cons entry rest ih =>
    obtain ⟨n, a⟩ := entry
    simp only [place]
    split
    · rfl
    · split
      · rename_i hn
        subst hn
        simp only [lookup]
        split <;> rfl
      · rename_i hn
        simp only [lookup, ih]
        by_cases hk : n = k
        · subst hk
          simp [Ne.symm hn]
        · simp [hk]

@[simp] theorem get?_empty (k : String) : (empty : NameMap α).get? k = none := rfl

@[simp] theorem get?_set (m : NameMap α) (name k : String) (value : α) :
    (m.set name value).get? k = if name = k then some value else m.get? k :=
  lookup_place name k value m.entries

theorem contains_set (m : NameMap α) (name k : String) (value : α) :
    (m.set name value).contains k = (name == k || m.contains k) := by
  unfold contains
  rw [get?_set]
  by_cases h : name = k <;> simp [h]

/-- Values under different names are placed in either order. -/
theorem place_comm {a b : String} (h : a ≠ b) (x y : α) (entries : List (String × α)) :
    place b y (place a x entries) = place a x (place b y entries) := by
  induction entries with
  | nil =>
    rcases Std.lt_trichotomy a b with hab | rfl | hab
    · simp [place, hab, String.lt_asymm hab, h]
    · exact absurd rfl h
    · simp [place, hab, String.lt_asymm hab, h.symm]
  | cons entry rest ih =>
    obtain ⟨n, v⟩ := entry
    -- whichever way `a`, `b` and `n` are ordered, both sides put them in that order
    grind [place, String.lt_trans, String.lt_asymm, String.lt_irrefl, Std.lt_trichotomy a b]

/-- Of two values placed under one name the later one stays. -/
theorem place_place (a : String) (x y : α) (entries : List (String × α)) :
    place a y (place a x entries) = place a y entries := by
  induction entries with
  | nil => simp [place]
  | cons entry rest ih =>
    obtain ⟨n, v⟩ := entry
    grind [place, String.lt_irrefl]

theorem set_comm (m : NameMap α) {a b : String} (h : a ≠ b) (x y : α) :
    (m.set a x).set b y = (m.set b y).set a x :=
  congrArg NameMap.mk (place_comm h x y m.entries)

theorem set_set (m : NameMap α) (a : String) (x y : α) : (m.set a x).set a y = m.set a y :=
  congrArg NameMap.mk (place_place a x y m.entries)

/-- Two entries are added in either order or, if one name is taken or they share
it, in neither. -/
theorem add?_comm (m : NameMap α) (a b : String) (x y : α) :
    (m.add? a x).bind (·.add? b y) = (m.add? b y).bind (·.add? a x) := by
  by_cases h : a = b
  · subst h
    cases ha : m.contains a <;> simp [add?, contains_set, ha]
  · have hba : (b == a) = false := beq_eq_false_iff_ne.mpr (Ne.symm h)
    have hab : (a == b) = false := beq_eq_false_iff_ne.mpr h
    cases ha : m.contains a <;> cases hb : m.contains b <;>
      simp [add?, contains_set, ha, hb, hab, hba, set_comm m h]

theorem mem_place {name : String} {value : α} {entries : List (String × α)} {e : String × α}
    (he : e ∈ place name value entries) : e = (name, value) ∨ e ∈ entries := by
  induction entries with
  | nil => exact .inl (List.mem_singleton.mp he)
  | cons entry rest ih =>
    obtain ⟨n, a⟩ := entry
    unfold place at he
    split at he
    · exact List.mem_cons.mp he
    · split at he
      · exact (List.mem_cons.mp he).imp_right (List.mem_cons_of_mem _)
      · rcases List.mem_cons.mp he with rfl | he
        · exact .inr List.mem_cons_self
        · exact (ih he).imp_right (List.mem_cons_of_mem _)

/-- An entry of a map is the one added last or was there before. -/
theorem mem_of_add? {m m' : NameMap α} {name : String} {value : α}
    (h : m.add? name value = some m') {e : String × α} (he : e ∈ m'.entries) :
    e = (name, value) ∨ e ∈ m.entries := by
  unfold add? at h
  split at h
  · cases h
  · cases h
    exact mem_place he

/-- What holds of the entries of a map and of the one added to it. -/
theorem forall_add? {P : String × α → Prop} {m m' : NameMap α} {name : String} {value : α}
    (h : m.add? name value = some m') (hm : ∀ e ∈ m.entries, P e) (hvalue : P (name, value)) :
    ∀ e ∈ m'.entries, P e := by
  intro e he
  rcases mem_of_add? h he with rfl | he
  · exact hvalue
  · exact hm e he

/-! ## Sizes -/

theorem length_place_of_new {name : String} (value : α) {entries : List (String × α)}
    (h : lookup name entries = none) :
    (place name value entries).length = entries.length + 1 := by
  induction entries with
  | nil => rfl
  | cons entry rest ih =>
    obtain ⟨n, a⟩ := entry
    by_cases hn : n = name
    · rw [lookup, if_pos hn] at h
      cases h
    · rw [lookup, if_neg hn] at h
      unfold place
      rw [if_neg hn]
      split
      · rfl
      · exact congrArg (· + 1) (ih h)

/-- A new name is one more. -/
theorem size_set_of_new {m : NameMap α} {name : String} (value : α)
    (h : m.contains name = false) : (m.set name value).size = m.size + 1 := by
  refine length_place_of_new value ?_
  unfold contains at h
  cases hget : m.get? name with
  | none => exact hget
  | some a =>
    rw [hget] at h
    cases h

theorem size_add? {m m' : NameMap α} {name : String} {value : α}
    (h : m.add? name value = some m') : m'.size = m.size + 1 := by
  unfold add? at h
  split at h
  · cases h
  · rename_i hnew
    cases h
    exact size_set_of_new value (Bool.eq_false_iff.mpr hnew)

/-- The names of the entries ascend. -/
def Ascending (entries : List (String × α)) : Prop := entries.Pairwise fun e f => e.1 < f.1

theorem Ascending.place {name : String} {value : α} {entries : List (String × α)}
    (h : Ascending entries) : Ascending (place name value entries) := by
  induction entries with
  | nil => exact List.pairwise_singleton _ _
  | cons entry rest ih =>
    obtain ⟨n, a⟩ := entry
    obtain ⟨hhead, hrest⟩ := List.pairwise_cons.mp h
    unfold NameMap.place
    split
    · rename_i hlt
      refine List.pairwise_cons.mpr ⟨List.forall_mem_cons.mpr ⟨hlt, fun e he => ?_⟩, h⟩
      exact String.lt_trans hlt (hhead e he)
    · rename_i hge
      split
      · rename_i hn
        subst hn
        exact List.pairwise_cons.mpr ⟨hhead, hrest⟩
      · rename_i hn
        refine List.pairwise_cons.mpr ⟨fun e he => ?_, ih hrest⟩
        rcases mem_place he with rfl | he
        · rcases Std.lt_trichotomy n name with hlt | heq | hlt
          · exact hlt
          · exact absurd heq hn
          · exact absurd hlt hge
        · exact hhead e he

theorem Ascending.set {m : NameMap α} {name : String} {value : α} (h : Ascending m.entries) :
    Ascending (m.set name value).entries := h.place

theorem lookup_of_lt {name : String} {entries : List (String × α)}
    (h : ∀ e ∈ entries, name < e.1) : lookup name entries = none := by
  induction entries with
  | nil => rfl
  | cons entry rest ih =>
    obtain ⟨hhead, hrest⟩ := List.forall_mem_cons.mp h
    rw [lookup, if_neg (fun heq => String.lt_irrefl _ (heq ▸ hhead))]
    exact ih hrest

/-- In ascending entries a name that is there is found before it would be put in
anew. -/
theorem Ascending.length_place_of_old {name : String} {value a : α}
    {entries : List (String × α)} (h : Ascending entries) (ha : lookup name entries = some a) :
    (NameMap.place name value entries).length = entries.length := by
  induction entries with
  | nil => cases ha
  | cons entry rest ih =>
    obtain ⟨n, b⟩ := entry
    obtain ⟨hhead, hrest⟩ := List.pairwise_cons.mp h
    unfold NameMap.place
    split
    · rename_i hlt
      have hnone : lookup name ((n, b) :: rest) = none :=
        lookup_of_lt (List.forall_mem_cons.mpr
          ⟨hlt, fun e he => String.lt_trans hlt (hhead e he)⟩)
      rw [hnone] at ha
      cases ha
    · split
      · rfl
      · rename_i hn
        rw [lookup, if_neg hn] at ha
        exact congrArg (· + 1) (ih hrest ha)

theorem size_set_of_old {m : NameMap α} {name : String} (value : α) (hm : Ascending m.entries)
    (h : m.contains name = true) : (m.set name value).size = m.size := by
  obtain ⟨a, ha⟩ := Option.isSome_iff_exists.mp h
  exact hm.length_place_of_old ha

/-- The map holds exactly the listed entries, no name twice. -/
structure Lists (m : NameMap α) (entries : List (String × α)) : Prop where
  nodup : (entries.map Prod.fst).Nodup
  get? : ∀ n a, m.get? n = some a ↔ (n, a) ∈ entries

namespace Lists

variable {m m' : NameMap α} {entries : List (String × α)} {name : String} {value : α}

theorem empty : Lists (.empty : NameMap α) [] := ⟨.nil, by simp⟩

theorem exists_get?_iff (h : m.Lists entries) (n : String) :
    (∃ a, m.get? n = some a) ↔ n ∈ entries.map Prod.fst := by
  simp only [h.get?, List.mem_map, Prod.exists, exists_and_right, exists_eq_right]

theorem contains_iff (h : m.Lists entries) (n : String) :
    m.contains n = true ↔ n ∈ entries.map Prod.fst := by
  unfold contains
  rw [Option.isSome_iff_exists, h.exists_get?_iff]

theorem count_eq_one (h : m.Lists entries) {n : String} {a : α} (ha : m.get? n = some a) :
    (entries.map Prod.fst).count n = 1 :=
  List.count_eq_one_of_mem h.nodup ((h.exists_get?_iff n).mp ⟨a, ha⟩)

theorem contains_eq (h : m.Lists entries) (n : String) :
    m.contains n = (entries.map Prod.fst).contains n := by
  rw [Bool.eq_iff_iff, h.contains_iff, List.contains_iff_mem]

theorem add? (h : m.Lists entries) (hadd : m.add? name value = some m') :
    m'.Lists (entries ++ [(name, value)]) := by
  unfold NameMap.add? at hadd
  split at hadd
  · cases hadd
  · rename_i hnew
    rw [h.contains_iff] at hnew
    cases hadd
    refine ⟨?_, fun n a => ?_⟩
    · rw [List.map_append, List.nodup_append]
      refine ⟨h.nodup, by simp, fun n hn k hk => ?_⟩
      obtain rfl : k = name := by simpa using hk
      exact fun heq => hnew (heq ▸ hn)
    · rw [get?_set]
      split
      · rename_i hn
        subst hn
        have hold : (name, a) ∉ entries := fun hm => hnew (List.mem_map_of_mem hm)
        simp [hold, eq_comm]
      · rename_i hn
        simp [h.get?, Ne.symm hn]

end Lists

/-! ## Changed values -/

/-- The map with every value changed. -/
def map {β : Type} (g : α → β) (m : NameMap α) : NameMap β :=
  ⟨m.entries.map fun e => (e.1, g e.2)⟩

section

variable {β : Type} (g : α → β) (m : NameMap α)

theorem size_map : (m.map g).size = m.size := List.length_map _

theorem get?_map (name : String) : (m.map g).get? name = (m.get? name).map g := by
  obtain ⟨entries⟩ := m
  show lookup name (entries.map fun e => (e.1, g e.2)) = (lookup name entries).map g
  induction entries with
  | nil => rfl
  | cons e rest ih =>
    simp only [List.map_cons, lookup, ih]
    split <;> rfl

theorem contains_map (name : String) : (m.map g).contains name = m.contains name := by
  rw [contains, get?_map, Option.isSome_map, contains]

theorem map_set (name : String) (value : α) :
    (m.set name value).map g = (m.map g).set name (g value) := by
  obtain ⟨entries⟩ := m
  refine congrArg NameMap.mk ?_
  show (place name value entries).map (fun e => (e.1, g e.2)) =
    place name (g value) (entries.map fun e => (e.1, g e.2))
  induction entries with
  | nil => rfl
  | cons e rest ih =>
    simp only [place, List.map_cons]
    split
    · rfl
    · split
      · rfl
      · rw [List.map_cons, ih]

theorem add?_map (name : String) (value : α) :
    (m.map g).add? name (g value) = (m.add? name value).map (map g) := by
  unfold add?
  rw [contains_map, ← map_set]
  split <;> rfl

end

end Lowering.NameMap
