import Lowering.Text.Joined
import Mathlib.Data.List.TakeWhile

/-!
# Texts that show where they end

A text is separable from what follows it when, whatever text of the same sort is
put in its place, a whole that reads the same has the same value in front and the
same rest. What may follow has to be restricted: a name ends where a character
comes that cannot be part of one.

What is proved:
  1. `Separable.run`: a run of characters of one class, before a character of
     another class.
  2. `Separable.eachAfter`, `Separable.joined`: lists of separable texts, each after a
     lead or with a separator between neighbours.
-/

namespace Lowering.Text

variable {α : Type}

/-- The text `f a`, with something after it that `follow` allows, determines `a` among
all values that are `ok`, and the rest. -/
def Separable (f : α → List Char) (ok : α → Prop) (follow : List Char → Bool) (a : α) : Prop :=
  ∀ b r s, ok b → follow r = true → follow s = true → f a ++ r = f b ++ s → a = b ∧ r = s

/-! ## Runs -/

/-- Whether a run of characters of a class ends here. -/
def endsRun (p : Char → Bool) : List Char → Bool
  | [] => true
  | c :: _ => !p c

section

variable {p : Char → Bool} {a r : List Char}

theorem takeWhile_run (ha : ∀ c ∈ a, p c = true) (hr : endsRun p r = true) :
    (a ++ r).takeWhile p = a := by
  rw [List.takeWhile_append_of_pos ha]
  cases r with
  | nil => simp
  | cons c r => simp_all [endsRun]

theorem dropWhile_run (ha : ∀ c ∈ a, p c = true) (hr : endsRun p r = true) :
    (a ++ r).dropWhile p = r := by
  have h := List.takeWhile_append_dropWhile (p := p) (l := a ++ r)
  rw [takeWhile_run ha hr] at h
  exact List.append_cancel_left h

/-- A run that is not empty does not end where it starts. -/
theorem endsRun_run (hne : a ≠ []) (ha : ∀ c ∈ a, p c = true) : endsRun p (a ++ r) = false := by
  cases a with
  | nil => exact absurd rfl hne
  | cons c cs => simp [endsRun, ha c List.mem_cons_self]

/-- A run of characters of a class ends where its class ends. -/
theorem Separable.run (ha : ∀ c ∈ a, p c = true) :
    Separable id (fun b => ∀ c ∈ b, p c = true) (endsRun p) a := by
  intro b r s hb hr hs h
  have hab : a = b := by
    rw [← takeWhile_run ha hr, ← takeWhile_run hb hs]
    exact congrArg (List.takeWhile p) h
  subst hab
  exact ⟨rfl, List.append_cancel_left h⟩

end

/-! ## Lists -/

/-- The texts of a list, each after `lead`. -/
def leadChars (lead : List Char) (f : α → List Char) (as : List α) : List Char :=
  as.flatMap fun a => lead ++ f a

/-- The texts of a list, with `sep` between neighbours. -/
def sepChars (sep : List Char) (f : α → List Char) : List α → List Char
  | [] => []
  | a :: as => f a ++ leadChars sep f as

theorem leadChars_cons (lead : List Char) (f : α → List Char) (a : α) (as : List α) :
    leadChars lead f (a :: as) = lead ++ (f a ++ leadChars lead f as) := by
  simp [leadChars]

theorem toList_eachAfter (lead : String) (g : α → String) (as : List α) :
    (eachAfter lead (as.map g)).toList = leadChars lead.toList (fun a => (g a).toList) as := by
  induction as with
  | nil => rfl
  | cons a as ih => simp [eachAfter, leadChars_cons, ih]

theorem toList_joined (sep : String) (g : α → String) (as : List α) :
    (joined sep (as.map g)).toList = sepChars sep.toList (fun a => (g a).toList) as := by
  cases as with
  | nil => rfl
  | cons a as =>
    induction as generalizing a with
    | nil => simp [joined, sepChars, leadChars]
    | cons b as ih =>
      have htail := ih b
      rw [List.map_cons] at htail
      simp [joined, sepChars, leadChars_cons, htail]

/-- What closes a parenthesised list: after a single member a comma as well. -/
def tupleClose : List α → List Char
  | [_] => [',', ')']
  | _ => [')']

theorem toList_tuple (g : α → String) (as : List α) :
    (tuple (as.map g)).toList =
      '(' :: (sepChars ", ".toList (fun a => (g a).toList) as ++ tupleClose as) := by
  rw [← toList_joined]
  rcases as with _ | ⟨a, _ | ⟨b, as⟩⟩ <;> simp [tuple, joined, tupleClose]

section

variable {f : α → List Char} {ok : α → Prop} {follow close : List Char → Bool} {sep : List Char}
  (hsep : ∀ rest, follow (sep ++ rest) = true)
  (hclose : ∀ r, close r = true → follow r = true ∧ ¬ sep <+: r)

include hsep hclose

theorem follow_leadChars (as : List α) {r : List Char} (hr : close r = true) :
    follow (leadChars sep f as ++ r) = true := by
  cases as with
  | nil => exact (hclose r hr).1
  | cons a as =>
    rw [leadChars_cons, List.append_assoc]
    exact hsep _

/-- A list of separable texts ends where something other than the lead follows. -/
theorem Separable.eachAfter {as : List α} (has : ∀ a ∈ as, Separable f ok follow a) :
    Separable (leadChars sep f) (fun bs => ∀ b ∈ bs, ok b) close as := by
  -- at the end of the shorter list, the longer one goes on with the lead
  have hend : ∀ b (bs : List α) {r s}, close r = true → r ≠ leadChars sep f (b :: bs) ++ s := by
    intro b bs r s hr h
    rw [leadChars_cons, List.append_assoc] at h
    exact (hclose r hr).2 ⟨_, h.symm⟩
  induction as with
  | nil =>
    intro bs r s _ hr _ h
    cases bs with
    | nil => exact ⟨rfl, h⟩
    | cons b bs => exact absurd h (hend b bs hr)
  | cons a as ih =>
    intro bs r s hbs hr hs h
    cases bs with
    | nil => exact absurd h.symm (hend a as hs)
    | cons b bs =>
      rw [leadChars_cons, leadChars_cons, List.append_assoc, List.append_assoc, List.append_assoc,
        List.append_assoc] at h
      obtain ⟨hb, hrest⟩ := List.forall_mem_cons.mp hbs
      obtain ⟨ha, has⟩ := List.forall_mem_cons.mp has
      obtain ⟨rfl, htail⟩ := ha b _ _ hb (follow_leadChars hsep hclose as hr)
        (follow_leadChars hsep hclose bs hs) (List.append_cancel_left h)
      obtain ⟨rfl, rfl⟩ := ih has bs r s hrest hr hs htail
      exact ⟨rfl, rfl⟩

/-- A list of separable texts with a separator ends where something other than the
separator follows, and an empty one where no text of the list can start. -/
theorem Separable.joined {as : List α}
    (hstart : ∀ b rest, ok b → follow rest = true → close (f b ++ rest) = false)
    (hok : ∀ a ∈ as, ok a) (has : ∀ a ∈ as, Separable f ok follow a) :
    Separable (sepChars sep f) (fun bs => ∀ b ∈ bs, ok b) close as := by
  have hend : ∀ b (bs : List α) {r s}, ok b → close r = true → close s = true →
      r ≠ sepChars sep f (b :: bs) ++ s := by
    intro b bs r s hb hr hs h
    have hfollow := follow_leadChars (f := f) hsep hclose bs hs
    rw [h, sepChars, List.append_assoc, hstart b _ hb hfollow] at hr
    cases hr
  intro bs r s hbs hr hs h
  cases as with
  | nil =>
    cases bs with
    | nil => exact ⟨rfl, h⟩
    | cons b bs => exact absurd h (hend b bs (hbs b List.mem_cons_self) hr hs)
  | cons a as =>
    cases bs with
    | nil => exact absurd h.symm (hend a as (hok a List.mem_cons_self) hs hr)
    | cons b bs =>
      rw [sepChars, sepChars, List.append_assoc, List.append_assoc] at h
      obtain ⟨hb, hrest⟩ := List.forall_mem_cons.mp hbs
      obtain ⟨ha, has⟩ := List.forall_mem_cons.mp has
      obtain ⟨rfl, htail⟩ := ha b _ _ hb (follow_leadChars hsep hclose as hr)
        (follow_leadChars hsep hclose bs hs) h
      obtain ⟨rfl, rfl⟩ := Separable.eachAfter hsep hclose has bs r s hrest hr hs htail
      exact ⟨rfl, rfl⟩

end

end Lowering.Text
