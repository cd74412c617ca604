import Lowering.Event
import Lowering.Lower.Fragment

/-!
# Steps that may stop

A step after another succeeds when both do, and otherwise stops where the first
of them stops. `DecidedBy` names the faults that a computation could stop at, in
the order in which it meets them: it succeeds when there is none and stops at the
first one when there is. The faults of two steps in a row are those of the first
followed by those of the second.
-/

namespace Lowering

variable {ε ε' α β : Type}

namespace Lowered

theorem pure_eq_ok {a b : α} : (pure a : Lowered α) = .ok b ↔ a = b :=
  ⟨fun h => Except.ok.inj h, fun h => congrArg _ h⟩

theorem ok_bind (a : α) (f : α → Lowered β) : (.ok a >>= f) = f a := rfl

theorem bind_ok (x : Lowered α) : (x >>= fun a => .ok a) = x := bind_pure x

theorem bind_eq_ok {x : Lowered α} {f : α → Lowered β} {b : β} :
    (x >>= f) = .ok b ↔ ∃ a, x = .ok a ∧ f a = .ok b := by
  cases x with
  | error d => simp [bind, Except.bind]
  | ok a => simp [bind, Except.bind]

end Lowered

/-- The first of `faults` is what `r` stops at; without faults, `r` succeeds. -/
def DecidedBy (r : Except ε α) : (faults : List ε) → Prop
  | [] => ∃ a, r = .ok a
  | e :: _ => r = .error e

/-- What a computation stops at, or nothing. -/
def stops : Except ε α → List ε
  | .ok _ => []
  | .error e => [e]

namespace DecidedBy

theorem ok (a : α) : DecidedBy (.ok a : Except ε α) [] := ⟨a, rfl⟩

theorem self (r : Except ε α) : DecidedBy r (stops r) := by
  cases r with
  | ok a => exact ⟨a, rfl⟩
  | error e => rfl

theorem bind {x : Except ε α} {f : α → Except ε β} {first second : List ε}
    (hx : DecidedBy x first) (hf : ∀ a, x = .ok a → DecidedBy (f a) second) :
    DecidedBy (x >>= f) (first ++ second) := by
  cases first with
  | nil =>
    obtain ⟨a, rfl⟩ := hx
    exact hf a rfl
  | cons e _ =>
    have hx : x = .error e := hx
    subst hx
    rfl

/-- A last step that cannot stop adds no fault. -/
theorem bind_ok {x : Except ε α} {faults : List ε} (h : DecidedBy x faults) (f : α → β) :
    DecidedBy (x >>= fun a => .ok (f a)) faults := by
  rw [← List.append_nil faults]
  exact h.bind fun a _ => .ok (f a)

theorem map {r : Except ε α} {faults : List ε} (h : DecidedBy r faults) (f : α → β) :
    DecidedBy (r.map f) faults := by
  cases faults with
  | nil =>
    obtain ⟨a, rfl⟩ := h
    exact ⟨f a, rfl⟩
  | cons e _ =>
    have h : r = .error e := h
    subst h
    rfl

theorem mapError {r : Except ε α} {faults : List ε} (h : DecidedBy r faults) (g : ε → ε') :
    DecidedBy (r.mapError g) (faults.map g) := by
  cases faults with
  | nil =>
    obtain ⟨a, rfl⟩ := h
    exact ⟨a, rfl⟩
  | cons e _ =>
    have h : r = .error e := h
    subst h
    rfl

theorem ok_iff {r : Except ε α} {faults : List ε} (h : DecidedBy r faults) :
    (∃ a, r = .ok a) ↔ faults = [] := by
  cases faults with
  | nil => exact ⟨fun _ => rfl, fun _ => h⟩
  | cons e _ =>
    have h : r = .error e := h
    simp [h]

theorem error_iff {r : Except ε α} {faults : List ε} (h : DecidedBy r faults) (e : ε) :
    r = .error e ↔ faults.head? = some e := by
  cases faults with
  | nil =>
    obtain ⟨a, rfl⟩ := h
    simp
  | cons d _ =>
    have h : r = .error d := h
    simp [h]

end DecidedBy

namespace Traced

@[simp] theorem outcome_pure (a : α) : (pure a : Traced α).outcome = .ok a := rfl

@[simp] theorem outcome_lift (r : Lowered α) : (lift r).outcome = r := rfl

@[simp] theorem outcome_emit (e : Event) : (emit e).outcome = .ok () := rfl

@[simp] theorem outcome_bind (t : Traced α) (f : α → Traced β) :
    (t >>= f).outcome = t.outcome >>= fun a => (f a).outcome := by
  change (t.andThen f).outcome = _
  unfold andThen
  cases t.outcome <;> rfl

end Traced

/-! ## Forms lowered by cases -/

namespace Surface

open Lowering.Core (Term)

variable {s : Location}

theorem Ty.lower_traitObject {ls : List String} {ps : List Path} {t : Core.Ty}
    (h : (Ty.traitObject s ls ps).lower = .ok t) :
    ls.isEmpty = true ∧ ∃ ps', Path.lowerPlainAll ps = .ok ps' ∧ t = .traitObject ps' := by
  change (if ls.isEmpty then _ else _) = _ at h
  split at h
  case isTrue hls =>
    obtain ⟨ps', hps, ⟨⟩⟩ := Lowered.bind_eq_ok.mp h
    exact ⟨hls, ps', hps, rfl⟩
  case isFalse => cases h

/-- A path that lowers where every path is allowed lowers to the same plain path
where only a plain one is. -/
theorem Path.lower_absolute {c : String} {segs : List Segment} {p : Core.Path}
    (h : (Path.absolute s c segs).lower = .ok p) : ∃ args,
      (Path.absolute s c segs).lowerPlain = .ok (.mk ⟨c, segs.map Segment.name⟩ args) ∧
      Segment.lowerLastArgs segs = .ok args ∧ p = .plain (.mk ⟨c, segs.map Segment.name⟩ args) := by
  obtain ⟨_, hcheck, h⟩ := Lowered.bind_eq_ok.mp h
  obtain ⟨args, hargs, ⟨⟩⟩ := Lowered.bind_eq_ok.mp h
  refine ⟨args, ?_, hargs, rfl⟩
  exact Lowered.bind_eq_ok.mpr ⟨(), hcheck, Lowered.bind_eq_ok.mpr ⟨args, hargs, rfl⟩⟩

theorem Expr.lower_path_eq (s : Location) (p : Path) :
    (Expr.path s p).lower =
      p.localName?.elim (return .mk (.path (← p.lower))) fun n => .ok (.mk (.localVar n)) := by
  cases p <;> rfl

theorem Expr.lower_callPath_eq (s : Location) (p : Path) (es : List Expr) :
    (Expr.callPath s p es).lower = p.localName?.elim
      (do let p ← p.lower; return .mk (.callPath p (← Expr.lowerAll es)))
      fun n => return .mk (.callValue (.mk (.localVar n)) (← Expr.lowerAll es)) := by
  cases p <;> rfl

theorem Expr.lower_path {p : Path} {t : Term} (h : (Expr.path s p).lower = .ok t) :
    (∃ n, p.localName? = some n ∧ t = .mk (.localVar n)) ∨
      p.localName? = none ∧ ∃ p', p.lower = .ok p' ∧ t = .mk (.path p') := by
  cases p with
  | localName _ n =>
    cases h
    exact .inl ⟨n, rfl, rfl⟩
  | _ =>
    obtain ⟨p', hp, ⟨⟩⟩ := Lowered.bind_eq_ok.mp h
    exact .inr ⟨rfl, p', hp, rfl⟩

theorem Expr.lower_callPath {p : Path} {es : List Expr} {t : Term}
    (h : (Expr.callPath s p es).lower = .ok t) : ∃ ts, Expr.lowerAll es = .ok ts ∧
      ((∃ n, p.localName? = some n ∧ t = .mk (.callValue (.mk (.localVar n)) ts)) ∨
        p.localName? = none ∧ ∃ p', p.lower = .ok p' ∧ t = .mk (.callPath p' ts)) := by
  cases p with
  | localName _ n =>
    obtain ⟨ts, hts, ⟨⟩⟩ := Lowered.bind_eq_ok.mp h
    exact ⟨ts, hts, .inl ⟨n, rfl, rfl⟩⟩
  | _ =>
    obtain ⟨p', hp, h⟩ := Lowered.bind_eq_ok.mp h
    obtain ⟨ts, hts, ⟨⟩⟩ := Lowered.bind_eq_ok.mp h
    exact ⟨ts, hts, .inr ⟨rfl, p', hp, rfl⟩⟩

end Surface

end Lowering
