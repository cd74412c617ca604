import Lowering.Proofs.ItemRewriting

/-!
# Ignored parts of a crate

Some parts of a crate have no influence on what it lowers to, on what lowering
stops at and on what is logged: attributes, the macros of every module but the root,
lifetimes in the last segment of an absolute path and in the segments of a qualified
one, the visibility of trait items and of the fields of variants, and the places of
macro calls and `let` statements. `Crate.strip` clears all of them at once.

Lifetimes are the delicate part. On a segment before the last they are arguments
like any other, and a path that has them is refused; so stripping keeps those
segments as they are (`Segment.checkAbsolute_eraseLast`).

Stripping is a rewriting whose replacements keep what a node lowers to
(`stripping_keepsLowering`) and that moves no node. Main statement:
`Crate.lower_strip`.
-/

namespace Lowering.Surface

/-! ## Lifetimes of paths -/

/-- The segments with no lifetime among the arguments of the last one. -/
def Segment.eraseLast : List Segment → List Segment
  | [] => []
  | [seg] => [seg.withoutLifetimes]
  | seg :: next :: rest => seg :: Segment.eraseLast (next :: rest)

/-- The path without the lifetimes that lowering ignores, those of its arguments'
own paths apart. -/
def Path.eraseLifetimes : Path → Path
  | .absolute s c segs => .absolute s c (Segment.eraseLast segs)
  | .qualified s self trait segs => .qualified s self trait (segs.map Segment.withoutLifetimes)
  | p => p

theorem Segment.eraseLast_names (segs : List Segment) :
    (Segment.eraseLast segs).map Segment.name = segs.map Segment.name := by
  fun_induction Segment.eraseLast segs with
  | case1 => rfl
  | case2 seg => simp [Segment.name_withoutLifetimes]
  | case3 seg next rest ih => simpa using ih

theorem Segment.eraseLast_isEmpty (segs : List Segment) :
    (Segment.eraseLast segs).isEmpty = segs.isEmpty := by
  fun_cases Segment.eraseLast segs <;> rfl

/-- The segments that are searched for arguments stay as they are. -/
theorem Segment.leadingWithArgs?_eraseLast (segs : List Segment) :
    Segment.leadingWithArgs? (Segment.eraseLast segs) = Segment.leadingWithArgs? segs := by
  fun_induction Segment.eraseLast segs with
  | case1 => rfl
  | case2 seg => rfl
  | case3 seg next rest ih =>
    obtain ⟨head, tail, htail⟩ : ∃ head tail, Segment.eraseLast (next :: rest) = head :: tail := by
      cases rest with
      | nil => exact ⟨_, _, rfl⟩
      | cons last rest => exact ⟨_, _, rfl⟩
    rw [htail] at ih ⊢
    simp only [Segment.leadingWithArgs?, ih]

theorem Segment.checkAbsolute_eraseLast (s : Location) (segs : List Segment) :
    Segment.checkAbsolute s (Segment.eraseLast segs) = Segment.checkAbsolute s segs := by
  unfold Segment.checkAbsolute
  rw [Segment.eraseLast_isEmpty, Segment.leadingWithArgs?_eraseLast]

theorem Segment.lowerLastArgs_eraseLast (segs : List Segment) :
    Segment.lowerLastArgs (Segment.eraseLast segs) = Segment.lowerLastArgs segs := by
  fun_induction Segment.eraseLast segs with
  | case1 => rfl
  | case2 seg =>
    obtain ⟨n, args⟩ := seg
    exact args.lower_withoutLifetimes
  | case3 seg next rest ih =>
    obtain ⟨n, args⟩ := seg
    obtain ⟨n', args'⟩ := next
    -- the tail has a segment, so the first one is not the last, erased or not
    cases rest <;> exact ih

theorem Path.lower_eraseLifetimes (p : Path) : p.eraseLifetimes.lower = p.lower := by
  cases p with
  | absolute s c segs =>
    simp only [Path.eraseLifetimes, Path.lower, Segment.checkAbsolute_eraseLast,
      Segment.eraseLast_names, Segment.lowerLastArgs_eraseLast]
  | qualified s self trait segs =>
    rcases segs with _ | ⟨⟨n, args⟩, _ | ⟨⟨n', args'⟩, rest⟩⟩
    · rfl
    · simp only [Path.eraseLifetimes, List.map_cons, List.map_nil, Segment.withoutLifetimes,
        Path.lower, GenericArgs.lower_withoutLifetimes]
    · rfl
  | _ => rfl

-- a lifetime before the last segment is kept, and decides
example : (Path.absolute .dummy ""
    [.mk "a" (.mk ["x"] [] []), .mk "b" (.mk ["y"] [] [])]).eraseLifetimes.lower =
      .error (.unimplemented (.argumentsOnLeadingSegment "a") .dummy) := rfl

theorem Path.lowerPlain_eraseLifetimes (p : Path) :
    p.eraseLifetimes.lowerPlain = p.lowerPlain := by
  cases p with
  | absolute s c segs =>
    simp only [Path.eraseLifetimes, Path.lowerPlain, Segment.checkAbsolute_eraseLast,
      Segment.eraseLast_names, Segment.lowerLastArgs_eraseLast]
  | _ => rfl

theorem Path.localName?_eraseLifetimes (p : Path) :
    p.eraseLifetimes.localName? = p.localName? := by
  cases p <;> rfl

/-! ## Stripped crates -/

/-- Clears everything in items that lowering ignores. -/
def stripping : ItemRewriting where
  mark _ := .dummy
  path := Path.eraseLifetimes
  attrs _ := {}
  visibility _ := false
  macros _ := []

/-- The crate without the parts that lowering ignores. The macros of its root are
kept, since they make up the macro table. -/
def Crate.strip (c : Crate) : Crate where
  root := .mk (ItemKind.rewriteAll stripping c.root.items)
    (Module.rewriteAll stripping c.root.anonymous) c.root.macros c.root.imports c.root.span
  attrs := {}

theorem stripping_keepsLowering : stripping.KeepsLowering where
  ty _ := rfl
  path := Path.lower_eraseLifetimes
  plain := Path.lowerPlain_eraseLifetimes
  localName := Path.localName?_eraseLifetimes
  expr _ _ := rfl

/-- A module lowers alike whatever macros it has. -/
theorem Module.lower_macros_irrelevant (items : List (Named ItemKind)) (anonymous : List Module)
    (macros imports macros' imports' : List NamedMacro) (span : Location) (path : Core.ItemPath) :
    (Module.mk items anonymous macros imports span).lower path =
      (Module.mk items anonymous macros' imports' span).lower path := by
  simp only [Module.lower]

theorem Module.lower_stripping (m : Module) (path : Core.ItemPath) :
    (m.rewrite stripping).lower path = m.lower path := by
  rw [Module.lower_rewrite stripping_keepsLowering]
  show Traced.relocate id (m.lower path) = m.lower path
  rw [Traced.relocate, Lowered.relocate_id]

theorem Crate.root_strip_lower (c : Crate) (path : Core.ItemPath) :
    c.strip.root.lower path = c.root.lower path := by
  obtain ⟨⟨items, anonymous, macros, imports, span⟩, attrs⟩ := c
  rw [← Module.lower_stripping (.mk items anonymous macros imports span)]
  exact Module.lower_macros_irrelevant _ _ _ _ _ _ _ _

/-- The ignored parts of a crate have no influence. A stripped crate lowers as the
crate itself does, to the same crate or to the same diagnostic at the same place,
with the same log; so two crates that differ in ignored parts only lower alike. -/
theorem Crate.lower_strip (c : Crate) (config : Config) :
    c.strip.lower config = c.lower config ∧
      ∀ c' : Crate, c'.strip = c.strip → c'.lower config = c.lower config := by
  have hstrip : ∀ c : Crate, c.strip.lower config = c.lower config := by
    intro c
    unfold Crate.lower
    rw [Crate.root_strip_lower]
    rfl
  refine ⟨hstrip c, ?_⟩
  intro c' hc'
  rw [← hstrip c', hc', hstrip c]

end Lowering.Surface
