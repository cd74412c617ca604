import Lowering.Proofs.CanonicalCrate
import Lowering.Proofs.FragmentFaults
import Mathlib.Data.List.Forall2

/-!
# Generic parameters by kind

One pass over a parameter list fills three lists, and the length of each is the
number of the next parameter of its kind. The result is read off kind by kind: the
parameters of one kind, in the order written, each lowered at its position among
them. What stands between two parameters of a kind does not matter.

What is proved:
  1. `GenericParam.lowerAll_cons`: what one parameter adds.
  2. `GenericParam.lowerAll_eq_ok`: what a run over parameters adds, from any lists.
  3. `Generics.lower_eq_ok`: a parameter list lowers to what its kinds lower to, and
     to nothing else.
Main statement: `Generics.lower_partition`.
-/

namespace Lowering

/-- A list lowered in order gives the list of what its elements lower to. -/
theorem Lowered.inOrder_eq_ok {α β : Type} (lower : α → Lowered β)
    (lowerAll : List α → Lowered (List β)) (hnil : lowerAll [] = .ok [])
    (hcons : ∀ a as, lowerAll (a :: as) = do let b ← lower a; return b :: (← lowerAll as))
    {as : List α} {bs : List β} :
    lowerAll as = .ok bs ↔ List.Forall₂ (fun a b => lower a = .ok b) as bs := by
  induction as generalizing bs with
  | nil =>
    rw [hnil, List.forall₂_nil_left_iff, Except.ok.injEq, eq_comm]
  | cons a as ih =>
    rw [hcons, List.forall₂_cons_left_iff]
    constructor
    · intro h
      obtain ⟨b, hb, h⟩ := Lowered.bind_eq_ok.mp h
      obtain ⟨bs', hbs, ⟨⟩⟩ := Lowered.bind_eq_ok.mp h
      exact ⟨b, bs', hb, ih.mp hbs, rfl⟩
    · rintro ⟨b, bs', hb, hbs, rfl⟩
      refine Lowered.bind_eq_ok.mpr ⟨b, hb, ?_⟩
      exact Lowered.bind_eq_ok.mpr ⟨bs', ih.mpr hbs, rfl⟩

namespace Surface

/-! ## Parameters of one kind -/

/-- The name of a parameter. -/
def GenericParam.name : GenericParam → String
  | .lifetime _ n | .type _ n _ | .const _ n _ _ => n

/-- The parameters of one kind, in order. -/
def GenericParam.ofKind (kind : ParamKind) (params : List GenericParam) : List GenericParam :=
  params.filter (·.kind == kind)

/-- A type parameter lowers at a position. -/
inductive GenericParam.LowersToType : GenericParam × Nat → Core.TypeParam → Prop
  | mk {s n d d' i} : i < UInt32.size → Ty.lowerOpt d = .ok d' →
      LowersToType (.type s n d, i) ⟨n, i, d'⟩

/-- A lifetime parameter lowers at a position. -/
inductive GenericParam.LowersToLifetime : GenericParam × Nat → Core.LifetimeParam → Prop
  | mk {s n i} : i < UInt32.size → LowersToLifetime (.lifetime s n, i) ⟨n, i⟩

/-- A const parameter lowers at a position. -/
inductive GenericParam.LowersToConst : GenericParam × Nat → Core.ConstParam → Prop
  | mk {s n t t' d d' i} : i < UInt32.size → t.lower = .ok t' → Expr.lowerBodyOpt d = .ok d' →
      LowersToConst (.const s n t d, i) ⟨n, i, t', d'⟩

/-- What a parameter list lowers to, kind by kind. -/
structure Generics.LowersByKind (g : Generics) (out : Core.Generics) : Prop where
  types : List.Forall₂ GenericParam.LowersToType
    (GenericParam.ofKind .type g.params).zipIdx out.types
  lifetimes : List.Forall₂ GenericParam.LowersToLifetime
    (GenericParam.ofKind .lifetime g.params).zipIdx out.lifetimes
  consts : List.Forall₂ GenericParam.LowersToConst
    (GenericParam.ofKind .const g.params).zipIdx out.consts
  bounds : List.Forall₂ (fun b b' => b.lower = .ok b') g.bounds out.bounds

/-! ## One parameter -/

/-- What one parameter adds to the lists: it goes to the end of its kind. -/
inductive GenericParam.Adds (out : Core.Generics) (p : GenericParam) : Core.Generics → Prop
  | type {t} : p.kind = .type → LowersToType (p, out.types.length) t →
      Adds out p { out with types := out.types ++ [t] }
  | lifetime {l} : p.kind = .lifetime → LowersToLifetime (p, out.lifetimes.length) l →
      Adds out p { out with lifetimes := out.lifetimes ++ [l] }
  | const {c} : p.kind = .const → LowersToConst (p, out.consts.length) c →
      Adds out p { out with consts := out.consts ++ [c] }

theorem paramIndex_eq_ok {s : Location} {count i : Nat} :
    paramIndex s count = .ok i ↔ count < UInt32.size ∧ i = count := by
  constructor
  · intro h
    obtain rfl := eq_of_paramIndex h
    unfold paramIndex at h
    split at h
    · exact ⟨‹_›, rfl⟩
    · cases h
  · rintro ⟨hfits, rfl⟩
    exact if_pos hfits

theorem GenericParam.lowerAll_cons {p : GenericParam} {rest : List GenericParam}
    {out out' : Core.Generics} : GenericParam.lowerAll (p :: rest) out = .ok out' ↔
      ∃ next, GenericParam.Adds out p next ∧ GenericParam.lowerAll rest next = .ok out' := by
  constructor
  · intro h
    cases p with
    | lifetime s n =>
      obtain ⟨i, hi, h⟩ := Lowered.bind_eq_ok.mp h
      obtain ⟨hfits, rfl⟩ := paramIndex_eq_ok.mp hi
      exact ⟨_, .lifetime rfl (.mk hfits), h⟩
    | type s n d =>
      obtain ⟨i, hi, h⟩ := Lowered.bind_eq_ok.mp h
      obtain ⟨hfits, rfl⟩ := paramIndex_eq_ok.mp hi
      obtain ⟨d', hd, h⟩ := Lowered.bind_eq_ok.mp h
      exact ⟨_, .type rfl (.mk hfits hd), h⟩
    | const s n t d =>
      obtain ⟨i, hi, h⟩ := Lowered.bind_eq_ok.mp h
      obtain ⟨hfits, rfl⟩ := paramIndex_eq_ok.mp hi
      obtain ⟨t', ht, h⟩ := Lowered.bind_eq_ok.mp h
      obtain ⟨d', hd, h⟩ := Lowered.bind_eq_ok.mp h
      exact ⟨_, .const rfl (.mk hfits ht hd), h⟩
  · rintro ⟨next, hadds, h⟩
    cases hadds with
    | lifetime _ hl =>
      obtain ⟨hfits⟩ := hl
      exact Lowered.bind_eq_ok.mpr ⟨_, paramIndex_eq_ok.mpr ⟨hfits, rfl⟩, h⟩
    | type _ ht =>
      obtain ⟨hfits, hd⟩ := ht
      refine Lowered.bind_eq_ok.mpr ⟨_, paramIndex_eq_ok.mpr ⟨hfits, rfl⟩, ?_⟩
      exact Lowered.bind_eq_ok.mpr ⟨_, hd, h⟩
    | const _ hc =>
      obtain ⟨hfits, ht, hd⟩ := hc
      refine Lowered.bind_eq_ok.mpr ⟨_, paramIndex_eq_ok.mpr ⟨hfits, rfl⟩, ?_⟩
      refine Lowered.bind_eq_ok.mpr ⟨_, ht, ?_⟩
      exact Lowered.bind_eq_ok.mpr ⟨_, hd, h⟩

/-! ## Runs over parameters -/

/-- What parameters add to the lists, kind by kind. -/
def GenericParam.AddsAll (out : Core.Generics) (params : List GenericParam)
    (out' : Core.Generics) : Prop :=
  ∃ ts ls cs,
    List.Forall₂ LowersToType ((ofKind .type params).zipIdx out.types.length) ts ∧
    List.Forall₂ LowersToLifetime ((ofKind .lifetime params).zipIdx out.lifetimes.length) ls ∧
    List.Forall₂ LowersToConst ((ofKind .const params).zipIdx out.consts.length) cs ∧
    out' = { out with
      types := out.types ++ ts, lifetimes := out.lifetimes ++ ls, consts := out.consts ++ cs }

theorem GenericParam.ofKind_cons_self {kind : ParamKind} {p : GenericParam} (h : p.kind = kind)
    (rest : List GenericParam) : ofKind kind (p :: rest) = p :: ofKind kind rest := by
  simp [ofKind, h]

theorem GenericParam.ofKind_cons_other {kind : ParamKind} {p : GenericParam} (h : p.kind ≠ kind)
    (rest : List GenericParam) : ofKind kind (p :: rest) = ofKind kind rest := by
  simp [ofKind, h]

/-- What parameters add is what the first one adds and then the others. -/
theorem GenericParam.addsAll_cons {p : GenericParam} {rest : List GenericParam}
    {out out' : Core.Generics} : GenericParam.AddsAll out (p :: rest) out' ↔
      ∃ next, GenericParam.Adds out p next ∧ GenericParam.AddsAll next rest out' := by
  constructor
  · rintro ⟨ts, ls, cs, hts, hls, hcs, rfl⟩
    cases hp : p.kind with
    | type =>
      rw [ofKind_cons_self hp, List.zipIdx_cons] at hts
      rw [ofKind_cons_other (by simp [hp])] at hls hcs
      obtain ⟨t, ts', ht, hts', rfl⟩ := List.forall₂_cons_left_iff.mp hts
      exact ⟨_, .type hp ht, ts', ls, cs, by simpa using hts', hls, hcs, by simp⟩
    | lifetime =>
      rw [ofKind_cons_self hp, List.zipIdx_cons] at hls
      rw [ofKind_cons_other (by simp [hp])] at hts hcs
      obtain ⟨l, ls', hl, hls', rfl⟩ := List.forall₂_cons_left_iff.mp hls
      exact ⟨_, .lifetime hp hl, ts, ls', cs, hts, by simpa using hls', hcs, by simp⟩
    | const =>
      rw [ofKind_cons_self hp, List.zipIdx_cons] at hcs
      rw [ofKind_cons_other (by simp [hp])] at hts hls
      obtain ⟨c, cs', hc, hcs', rfl⟩ := List.forall₂_cons_left_iff.mp hcs
      exact ⟨_, .const hp hc, ts, ls, cs', hts, hls, by simpa using hcs', by simp⟩
  · rintro ⟨next, hadds, ts, ls, cs, hts, hls, hcs, rfl⟩
    cases hadds with
    | @type t hp ht =>
      refine ⟨t :: ts, ls, cs, ?_, ?_, ?_, by simp⟩
      · rw [ofKind_cons_self hp, List.zipIdx_cons]
        exact .cons ht (by simpa using hts)
      · rwa [ofKind_cons_other (by simp [hp])]
      · rwa [ofKind_cons_other (by simp [hp])]
    | @lifetime l hp hl =>
      refine ⟨ts, l :: ls, cs, ?_, ?_, ?_, by simp⟩
      · rwa [ofKind_cons_other (by simp [hp])]
      · rw [ofKind_cons_self hp, List.zipIdx_cons]
        exact .cons hl (by simpa using hls)
      · rwa [ofKind_cons_other (by simp [hp])]
    | @const c hp hc =>
      refine ⟨ts, ls, c :: cs, ?_, ?_, ?_, by simp⟩
      · rwa [ofKind_cons_other (by simp [hp])]
      · rwa [ofKind_cons_other (by simp [hp])]
      · rw [ofKind_cons_self hp, List.zipIdx_cons]
        exact .cons hc (by simpa using hcs)

theorem GenericParam.lowerAll_eq_ok (params : List GenericParam) (out out' : Core.Generics) :
    GenericParam.lowerAll params out = .ok out' ↔ GenericParam.AddsAll out params out' := by
  induction params generalizing out with
  | nil =>
    constructor
    · intro h
      cases h
      exact ⟨[], [], [], .nil, .nil, .nil, by simp⟩
    · rintro ⟨_, _, _, ⟨⟩, ⟨⟩, ⟨⟩, rfl⟩
      simp [GenericParam.lowerAll]
  | cons p rest ih =>
    rw [GenericParam.lowerAll_cons, GenericParam.addsAll_cons]
    simp only [ih]

theorem GenericBound.lowerAll_eq_ok {bs : List GenericBound} {bs' : List Core.GenericBound} :
    GenericBound.lowerAll bs = .ok bs' ↔ List.Forall₂ (fun b b' => b.lower = .ok b') bs bs' :=
  Lowered.inOrder_eq_ok GenericBound.lower GenericBound.lowerAll rfl fun _ _ => rfl

/-- A parameter list lowers to what its kinds and its bounds lower to. -/
theorem Generics.lower_eq_ok {g : Generics} {out : Core.Generics} :
    g.lower = .ok out ↔ g.LowersByKind out := by
  constructor
  · intro h
    obtain ⟨params, hparams, h⟩ := Lowered.bind_eq_ok.mp h
    obtain ⟨bounds, hbounds, ⟨⟩⟩ := Lowered.bind_eq_ok.mp h
    obtain ⟨ts, ls, cs, hts, hls, hcs, rfl⟩ := (GenericParam.lowerAll_eq_ok _ _ _).mp hparams
    exact ⟨hts, hls, hcs, GenericBound.lowerAll_eq_ok.mp hbounds⟩
  · rintro ⟨hts, hls, hcs, hbounds⟩
    have hparams : GenericParam.lowerAll g.params {} = .ok { out with bounds := [] } :=
      (GenericParam.lowerAll_eq_ok _ _ _).mpr ⟨_, _, _, hts, hls, hcs, rfl⟩
    refine Lowered.bind_eq_ok.mpr ⟨_, hparams, ?_⟩
    exact Lowered.bind_eq_ok.mpr ⟨_, GenericBound.lowerAll_eq_ok.mpr hbounds, rfl⟩

/-! ## What follows for the result -/

theorem GenericParam.length_ofKind (params : List GenericParam) :
    (ofKind .type params).length + (ofKind .lifetime params).length +
      (ofKind .const params).length = params.length := by
  induction params with
  | nil => rfl
  | cons p rest ih =>
    cases hp : p.kind <;> simp only [ofKind, List.filter_cons, hp] at ih ⊢ <;> simp <;> omega

/-- Lists that are related element by element are searched alike. -/
theorem find?_rel {α β : Type} {R : α → β → Prop} {p : α → Bool} {q : β → Bool}
    (hpq : ∀ a b, R a b → p a = q b) {l : List α} {l' : List β} (h : List.Forall₂ R l l') :
    Option.Rel R (l.find? p) (l'.find? q) := by
  induction h with
  | nil => exact .none
  | @cons a b l l' hab _ ih =>
    rw [List.find?_cons, List.find?_cons, hpq a b hab]
    cases q b with
    | true => exact .some hab
    | false => exact ih

namespace Generics.LowersByKind

variable {g : Generics} {out : Core.Generics} (h : g.LowersByKind out)

include h

theorem length_params :
    out.types.length + out.lifetimes.length + out.consts.length = g.params.length := by
  have htypes := h.types.length_eq
  have hlifetimes := h.lifetimes.length_eq
  have hconsts := h.consts.length_eq
  rw [List.length_zipIdx] at htypes hlifetimes hconsts
  rw [← htypes, ← hlifetimes, ← hconsts]
  exact GenericParam.length_ofKind g.params

theorem isEmpty_eq : out.isEmpty = g.isEmpty := by
  have hparams := h.length_params
  have hbounds := h.bounds.length_eq
  rw [Bool.eq_iff_iff]
  simp only [Core.Generics.isEmpty, Generics.isEmpty, Bool.and_eq_true,
    List.isEmpty_iff_length_eq_zero]
  omega

theorem typeParam?_rel (name : String) : Option.Rel GenericParam.LowersToType
    ((GenericParam.ofKind .type g.params).zipIdx.find? (·.1.name == name))
    (out.typeParam? name) := by
  refine find?_rel ?_ h.types
  rintro _ _ ⟨_, _⟩
  rfl

end Generics.LowersByKind

/-- Lowering a parameter list splits it by kind and keeps the order of each kind.
A list lowers exactly to what its type, lifetime and const parameters lower to in
order, each at its position among its kind, with its bounds in order. So the
numbers in each list of the result are the positions, no parameter is lost, the
result is empty when the list is, and the type parameter found under a name is the
first one of that name. How parameters of different kinds are mixed matters
neither for success nor for the result. -/
theorem Generics.lower_partition :
    (∀ (g : Generics) (out : Core.Generics), g.lower = .ok out ↔ g.LowersByKind out) ∧
    (∀ (g : Generics) (out : Core.Generics), g.lower = .ok out → out.Numbered ∧
      out.types.length + out.lifetimes.length + out.consts.length = g.params.length ∧
      out.isEmpty = g.isEmpty ∧
      ∀ name, Option.Rel GenericParam.LowersToType
        ((GenericParam.ofKind .type g.params).zipIdx.find? (·.1.name == name))
        (out.typeParam? name)) ∧
    ∀ g g' : Generics,
      (∀ kind, GenericParam.ofKind kind g.params = GenericParam.ofKind kind g'.params) →
      g.bounds = g'.bounds → ∀ out, g.lower = .ok out ↔ g'.lower = .ok out := by
  refine ⟨fun g out => Generics.lower_eq_ok, fun g out h => ?_, fun g g' hkinds hbounds out => ?_⟩
  · have hnumbered : out.Numbered := (Generics.lower_canonical h).here
    have hkinds := Generics.lower_eq_ok.mp h
    exact ⟨hnumbered, hkinds.length_params, hkinds.isEmpty_eq, hkinds.typeParam?_rel⟩
  · have htransfer : g.LowersByKind out ↔ g'.LowersByKind out := by
      constructor
      · rintro ⟨hts, hls, hcs, hbs⟩
        exact ⟨hkinds .type ▸ hts, hkinds .lifetime ▸ hls, hkinds .const ▸ hcs, hbounds ▸ hbs⟩
      · rintro ⟨hts, hls, hcs, hbs⟩
        exact ⟨hkinds .type ▸ hts, hkinds .lifetime ▸ hls, hkinds .const ▸ hcs, hbounds ▸ hbs⟩
    rw [Generics.lower_eq_ok, Generics.lower_eq_ok, htransfer]

/-- Two type parameters with a lifetime and a const parameter between them. -/
def mixedParams : Generics :=
  ⟨[.type .dummy "T" none, .lifetime .dummy "a", .const .dummy "N" (.unit .dummy) none,
    .type .dummy "U" (some (.infer .dummy))], []⟩

/-- The same parameters, sorted by kind. -/
def sortedParams : Generics :=
  ⟨[.lifetime .dummy "a", .type .dummy "T" none, .type .dummy "U" (some (.infer .dummy)),
    .const .dummy "N" (.unit .dummy) none], []⟩

theorem mixedParams_lower_as_sorted : ∃ out, sortedParams.lower = .ok out ∧
    mixedParams.lower = .ok out ∧ (out.typeParam? "U").map (·.index) = some 1 := by
  have hkinds : ∀ kind, GenericParam.ofKind kind sortedParams.params =
      GenericParam.ofKind kind mixedParams.params := by
    intro kind
    cases kind <;> rfl
  refine ⟨_, rfl, ?_, rfl⟩
  exact (Generics.lower_partition.2.2 sortedParams mixedParams hkinds rfl _).mp rfl

end Surface

end Lowering
