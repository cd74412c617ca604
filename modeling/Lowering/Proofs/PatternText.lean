import Lowering.Proofs.Unambiguous

/-!
# Texts of patterns

A pattern is written without parentheses of its own: markers and signs stand in
front of what they belong to, one after the other. Two things are lost by this. A
name bound by `ref` and marked `mut` is written as one bound by `ref mut`, and `&`
around a name that is marked `mut` is written as `&mut` around the name. Nothing
else is lost in patterns made of wildcards, bindings, tuples and references.

What is proved:
  1. `Pattern.text_reading`: a pattern has the text of its reading, in which both
     cases are taken for the one that is written the same.
  2. `Pattern.separable`: a pattern in which neither case occurs is determined by its
     text, which also shows where it ends.
Main statement: `pattern_text_eq_iff`.
-/

namespace Lowering

open Lowering.Core (IsName isNameChar)
open Text (Separable endsRun sepChars)

/-! ## Bindings -/

/-- The words in front of a bound name. -/
def Binding.markers (b : Binding) : List String :=
  (match b.mode with
    | .move => []
    | .ref => ["ref"]
    | .refMut => ["ref", "mut"]) ++ if b.isMut then ["mut"] else []

/-- The name is one, and no word with a meaning of its own. -/
structure Binding.Named (b : Binding) : Prop where
  isName : IsName b.name
  ordinary : b.name ∉ ["_", "mut", "ref"]

/-- A name bound by `ref` is not marked `mut`. -/
def Binding.Clear (b : Binding) : Prop := b.mode = .ref → b.isMut = false

/-- A name bound by `ref` and marked `mut` is read as one bound by `ref mut`. -/
def Binding.reading : Binding → Binding
  | ⟨n, true, .ref⟩ => ⟨n, false, .refMut⟩
  | b => b

/-- Words with a blank after each of them. -/
def markerChars (words : List String) : List Char := words.flatMap fun w => w.toList ++ [' ']

theorem markerChars_cons (w : String) (words : List String) (rest : List Char) :
    markerChars (w :: words) ++ rest = w.toList ++ ' ' :: (markerChars words ++ rest) := by
  simp [markerChars]

namespace Binding

theorem toList_text (b : Binding) : b.text.toList = markerChars b.markers ++ b.name.toList := by
  obtain ⟨n, m, mode⟩ := b
  cases m <;> cases mode <;> simp [Binding.text, BindingMode.lead, markers, markerChars]

theorem mem_markers {b : Binding} {w : String} (hw : w ∈ b.markers) : w = "ref" ∨ w = "mut" := by
  obtain ⟨n, m, mode⟩ := b
  cases m <;> cases mode <;> simp_all [markers]

theorem isName_marker {b : Binding} {w : String} (hw : w ∈ b.markers) : IsName w := by
  rcases mem_markers hw with rfl | rfl
  · exact .of_all rfl rfl
  · exact .of_all rfl rfl

theorem Named.not_marker {b c : Binding} (h : b.Named) : b.name ∉ c.markers := by
  intro hmem
  have hordinary := h.ordinary
  rcases mem_markers hmem with hw | hw <;> simp [hw] at hordinary

/-- The markers tell how a name is bound, unless one bound by `ref` is marked `mut`. -/
theorem Clear.eq_of_markers {b c : Binding} (hb : b.Clear) (hc : c.Clear) (hname : b.name = c.name)
    (h : b.markers = c.markers) : b = c := by
  obtain ⟨n, m, mode⟩ := b
  obtain ⟨n', m', mode'⟩ := c
  cases m <;> cases mode <;> cases m' <;> cases mode' <;> simp_all [markers, Clear]

end Binding

/-- Words before a name, and the name itself, show where they end, if neither name is
one of the words. -/
theorem separable_markers {n n' : String} (hn : IsName n) (hn' : IsName n') {r s : List Char}
    (hr : endsRun isNameChar r = true) (hs : endsRun isNameChar s = true) :
    ∀ (ws ws' : List String), (∀ w ∈ ws, IsName w) → (∀ w ∈ ws', IsName w) →
      n ∉ ws' → n' ∉ ws →
      markerChars ws ++ (n.toList ++ r) = markerChars ws' ++ (n'.toList ++ s) →
      ws = ws' ∧ n = n' ∧ r = s
  | [], [], _, _, _, _, h => by
    obtain ⟨rfl, rfl⟩ := hn.separable n' r s hn' hr hs h
    exact ⟨rfl, rfl, rfl⟩
  | [], w :: ws, _, hws', hmem, _, h => by
    rw [markerChars_cons] at h
    obtain ⟨rfl, -⟩ := hn.separable w r _ (hws' w List.mem_cons_self) hr rfl h
    exact absurd List.mem_cons_self hmem
  | w :: ws, [], hws, _, _, hmem, h => by
    rw [markerChars_cons] at h
    obtain ⟨rfl, -⟩ := (hws w List.mem_cons_self).separable n' _ s hn' rfl hs h
    exact absurd List.mem_cons_self hmem
  | w :: ws, w' :: ws', hws, hws', hmem, hmem', h => by
    rw [markerChars_cons, markerChars_cons] at h
    obtain ⟨hw, hwords⟩ := List.forall_mem_cons.mp hws
    obtain ⟨hw', hwords'⟩ := List.forall_mem_cons.mp hws'
    obtain ⟨rfl, htail⟩ := hw.separable w' _ _ hw' rfl rfl h
    obtain ⟨rfl, hrest⟩ := separable_markers hn hn' hr hs ws ws' hwords hwords'
      (fun hin => hmem (List.mem_cons_of_mem w hin))
      (fun hin => hmem' (List.mem_cons_of_mem w hin)) (List.cons.inj htail).2
    exact ⟨rfl, hrest⟩

namespace Binding

/-- A binding ends with its name. -/
theorem separable {b : Binding} (hb : b.Named) (hclear : b.Clear) :
    Separable (fun b : Binding => b.text.toList) (fun c => c.Named ∧ c.Clear)
      (endsRun isNameChar) b := by
  rintro c r s ⟨hc, hclear'⟩ hr hs h
  simp only [toList_text, List.append_assoc] at h
  obtain ⟨hmarkers, hname, hrest⟩ := separable_markers hb.isName hc.isName hr hs _ _
    (fun _ => isName_marker) (fun _ => isName_marker) hb.not_marker hc.not_marker h
  exact ⟨hclear.eq_of_markers hclear' hname hmarkers, hrest⟩

/-- The first word of the text of a binding. -/
def headWord (b : Binding) : String := b.markers.headD b.name

theorem headWord_cases (b : Binding) :
    b.headWord = b.name ∨ b.headWord = "ref" ∨ b.headWord = "mut" := by
  unfold headWord
  cases hws : b.markers with
  | nil => exact .inl rfl
  | cons w ws => exact .inr (mem_markers (hws ▸ List.mem_cons_self))

theorem Named.headWord_isName {b : Binding} (h : b.Named) : IsName b.headWord := by
  rcases b.headWord_cases with hw | hw | hw <;> rw [hw]
  · exact h.isName
  · exact .of_all rfl rfl
  · exact .of_all rfl rfl

theorem Named.headWord_ne_wildcard {b : Binding} (h : b.Named) : b.headWord ≠ "_" := by
  rcases b.headWord_cases with hw | hw | hw <;> rw [hw]
  · intro hname
    exact h.ordinary (by simp [hname])
  · decide
  · decide

theorem takeWhile_text {b : Binding} (h : b.Named) {r : List Char}
    (hr : endsRun isNameChar r = true) :
    (b.text.toList ++ r).takeWhile isNameChar = b.headWord.toList := by
  rw [toList_text, List.append_assoc, headWord]
  cases hws : b.markers with
  | nil => exact Text.takeWhile_run h.isName.chars hr
  | cons w ws =>
    have hw : IsName w := isName_marker (hws ▸ List.mem_cons_self)
    rw [markerChars_cons]
    exact Text.takeWhile_run hw.chars rfl

/-- A text that starts with the word `mut` is that of a name bound by value and marked. -/
theorem Named.of_headWord_mut {b : Binding} (h : b.Named) (hmut : b.headWord = "mut") :
    b = ⟨b.name, true, .move⟩ := by
  obtain ⟨n, m, mode⟩ := b
  have hn : n ≠ "mut" := by
    rintro rfl
    exact h.ordinary (by simp)
  cases m <;> cases mode <;> simp_all [headWord, markers]

theorem text_reading (b : Binding) : b.reading.text = b.text := by
  obtain ⟨n, m, mode⟩ := b
  cases m <;> cases mode <;> rfl

theorem Named.reading {b : Binding} (h : b.Named) : b.reading.Named := by
  obtain ⟨n, m, mode⟩ := b
  cases m <;> cases mode <;> exact ⟨h.isName, h.ordinary⟩

theorem clear_reading (b : Binding) : b.reading.Clear := by
  obtain ⟨n, m, mode⟩ := b
  cases m <;> cases mode <;> simp [reading, Clear]

end Binding

namespace Core

/-! ## Patterns of bindings, tuples and references -/

/-- A pattern made of wildcards, bindings, tuples and references, all of which are
`ok`. -/
inductive Pattern.Built (ok : Pattern → Prop) : Pattern → Prop
  | any {b : Option Binding} : ok (.mk b .any) → Built ok (.mk b .any)
  | tuple {b : Option Binding} {ps : List Pattern} : ok (.mk b (.tuple ps)) →
      (∀ p ∈ ps, Built ok p) → Built ok (.mk b (.tuple ps))
  | ref {b : Option Binding} {k : BorrowKind} {p : Pattern} : ok (.mk b (.ref k p)) →
      Built ok p → Built ok (.mk b (.ref k p))

/-- The name that a pattern binds, if it binds one, is no word with a meaning. -/
def Pattern.Named (p : Pattern) : Prop := ∀ b ∈ p.binding, b.Named

/-- The pattern binds a name by value and marks it `mut`. -/
def Pattern.MarkedMut (p : Pattern) : Prop := ∃ name, p.binding = some ⟨name, true, .move⟩

/-- What is written in front of a pattern belongs where it seems to belong: a name
bound by `ref` is not marked, and no `&` stands before a marked name. -/
structure Pattern.Clear (p : Pattern) : Prop where
  binding : ∀ b ∈ p.binding, b.Named ∧ b.Clear
  inner : ∀ q, p.kind = .ref .shared q → ¬ q.MarkedMut

/-- A reference, with `&` before a marked name read as `&mut` before the name. -/
def PatternKind.refReading : BorrowKind → Pattern → PatternKind
  | .shared, .mk (some ⟨n, true, .move⟩) k => .ref .unique (.mk (some ⟨n, false, .move⟩) k)
  | kind, p => .ref kind p

mutual

/-- The pattern that the text of a pattern is read as. -/
def Pattern.reading : Pattern → Pattern
  | .mk b k => .mk (b.map Binding.reading) k.reading

/-- What a pattern is read to match. -/
def PatternKind.reading : PatternKind → PatternKind
  | .tuple ps => .tuple (Pattern.readings ps)
  | .ref k p => .refReading k p.reading
  | k => k

/-- The readings of patterns in order. -/
def Pattern.readings : List Pattern → List Pattern
  | [] => []
  | p :: ps => p.reading :: Pattern.readings ps

end

theorem Pattern.readings_eq (ps : List Pattern) : Pattern.readings ps = ps.map Pattern.reading := by
  induction ps with
  | nil => rfl
  | cons p ps ih => rw [Pattern.readings, ih, List.map_cons]

/-! ## Texts as characters -/

/-- Whether a pattern matches everything. -/
def PatternKind.isAny : PatternKind → Bool
  | .any => true
  | _ => false

/-- The text of a pattern as characters. -/
def Pattern.chars (p : Pattern) : List Char := p.text.toList

/-- The text of what a pattern matches as characters. -/
def PatternKind.chars (k : PatternKind) : List Char := k.text.toList

/-- What stands after a bound name. -/
def PatternKind.tail (k : PatternKind) : List Char :=
  if k.isAny then [] else " @ ".toList ++ k.chars

theorem Pattern.chars_none (k : PatternKind) : (Pattern.mk none k).chars = k.chars := by
  cases k <;> rfl

theorem Pattern.chars_some (b : Binding) (k : PatternKind) :
    (Pattern.mk (some b) k).chars = b.text.toList ++ k.tail := by
  cases k <;>
    simp [Pattern.chars, Pattern.text, PatternKind.tail, PatternKind.isAny, PatternKind.chars]

theorem PatternKind.chars_ref (k : BorrowKind) (p : Pattern) :
    (PatternKind.ref k p).chars = k.sign.toList ++ p.chars := by
  simp [PatternKind.chars, PatternKind.text, Pattern.chars]

theorem Pattern.texts_eq (ps : List Pattern) : Pattern.texts ps = ps.map Pattern.text := by
  induction ps with
  | nil => rfl
  | cons p ps ih => exact congrArg (p.text :: ·) ih

theorem PatternKind.chars_tuple (ps : List Pattern) : (PatternKind.tuple ps).chars =
    '(' :: (sepChars ", ".toList Pattern.chars ps ++ Text.tupleClose ps) := by
  rw [PatternKind.chars, PatternKind.text, Pattern.texts_eq]
  exact Text.toList_tuple Pattern.text ps

/-! ## Readings -/

theorem PatternKind.chars_refReading (k : BorrowKind) (p : Pattern) :
    (PatternKind.refReading k p).chars = (PatternKind.ref k p).chars := by
  unfold PatternKind.refReading
  split
  · -- the sign with its `mut` is the other sign before the marker
    simp [PatternKind.chars_ref, Pattern.chars_some, Binding.text, BindingMode.lead,
      BorrowKind.sign]
  · rfl

theorem PatternKind.isAny_reading (k : PatternKind) : k.reading.isAny = k.isAny := by
  cases k with
  | ref k p =>
    rw [PatternKind.reading, PatternKind.refReading.eq_def]
    split <;> rfl
  | _ => rfl

mutual

theorem Pattern.chars_reading : ∀ p : Pattern, p.reading.chars = p.chars
  | .mk none k => by
    rw [Pattern.chars_none, ← PatternKind.chars_reading k]
    exact Pattern.chars_none k.reading
  | .mk (some b) k => by
    have htail : k.reading.tail = k.tail := by
      rw [PatternKind.tail, PatternKind.isAny_reading, PatternKind.chars_reading k]
      rfl
    rw [Pattern.chars_some, ← htail, ← Binding.text_reading b]
    exact Pattern.chars_some b.reading k.reading

theorem PatternKind.chars_reading : ∀ k : PatternKind, k.reading.chars = k.chars
  | .any | .value _ | .range _ _ | .tupleStruct _ _ | .struct _ _ _ => rfl
  | .ref k p => by
    rw [PatternKind.reading, PatternKind.chars_refReading, PatternKind.chars_ref,
      PatternKind.chars_ref, Pattern.chars_reading p]
  | .tuple ps => congrArg (fun ts => (Text.tuple ts).toList) (Pattern.texts_readings ps)

theorem Pattern.texts_readings : ∀ ps : List Pattern,
    Pattern.texts (Pattern.readings ps) = Pattern.texts ps
  | [] => rfl
  | p :: ps =>
    congrArg₂ List.cons (String.toList_inj.mp (Pattern.chars_reading p)) (Pattern.texts_readings ps)

end

/-- A pattern has the text of its reading. -/
theorem Pattern.text_reading (p : Pattern) : p.reading.text = p.text :=
  String.toList_inj.mp p.chars_reading

theorem Pattern.Named.reading {b : Option Binding} {k : PatternKind}
    (h : (Pattern.mk b k).Named) : ∀ c ∈ b.map Binding.reading, c.Named ∧ c.Clear := by
  intro c hc
  obtain ⟨d, hd, rfl⟩ := Option.map_eq_some_iff.mp hc
  exact ⟨(h d hd).reading, d.clear_reading⟩

/-- What a pattern is built of stays when it binds another name. -/
theorem Pattern.Built.rebind {ok : Pattern → Prop} {b b' : Option Binding} {k : PatternKind}
    (h : (Pattern.mk b k).Built ok) (hok : ok (.mk b' k)) : (Pattern.mk b' k).Built ok := by
  cases h with
  | any _ => exact .any hok
  | tuple _ hps => exact .tuple hok hps
  | ref _ hp => exact .ref hok hp

theorem Pattern.Built.here {ok : Pattern → Prop} {p : Pattern} (h : p.Built ok) : ok p := by
  cases h with
  | any hok => exact hok
  | tuple hok _ => exact hok
  | ref hok _ => exact hok

/-- A reference to a pattern that is clear is read as one that is clear. -/
theorem Pattern.Built.refReading {b : Option Binding} (hb : ∀ c ∈ b, c.Named ∧ c.Clear)
    (k : BorrowKind) {p : Pattern} (hp : p.Built Pattern.Clear) :
    (Pattern.mk b (.refReading k p)).Built Pattern.Clear := by
  unfold PatternKind.refReading
  split
  · next n kind =>
    -- without its marker the name is still one, and what is below it stays
    have hname : (Pattern.mk (some ⟨n, false, .move⟩) kind).Clear := by
      refine ⟨fun c hc => ?_, hp.here.inner⟩
      obtain rfl := Option.some.inj hc
      obtain ⟨hnamed, -⟩ := hp.here.binding _ rfl
      exact ⟨⟨hnamed.isName, hnamed.ordinary⟩, nofun⟩
    exact .ref ⟨hb, nofun⟩ (hp.rebind hname)
  · next hne =>
    refine .ref ⟨hb, fun q hq => ?_⟩ hp
    rintro ⟨n, hmarked⟩
    injection hq with hk hpq
    subst hpq
    obtain ⟨b', kind⟩ := p
    obtain rfl : b' = some ⟨n, true, .move⟩ := hmarked
    exact hne n kind hk rfl

/-- Readings are clear. -/
theorem Pattern.Built.reading {p : Pattern} (h : p.Built Pattern.Named) :
    p.reading.Built Pattern.Clear := by
  induction h with
  | any hok => exact .any ⟨hok.reading, nofun⟩
  | tuple hok _ ih =>
    refine .tuple ⟨hok.reading, nofun⟩ ?_
    rw [Pattern.readings_eq]
    exact List.forall_mem_map.mpr ih
  | ref hok _ ih => exact .refReading hok.reading _ ih

/-! ## Separable texts -/

/-- What may follow a pattern. -/
def patternEnd : List Char → Bool
  | [] | ',' :: _ | ')' :: _ => true
  | _ => false

/-- The end of the patterns of a tuple. -/
def patternsEnd : List Char → Bool
  | ')' :: _ | ',' :: ')' :: _ => true
  | _ => false

theorem patternEnd_of_patternsEnd {r : List Char} (h : patternsEnd r = true) :
    patternEnd r = true := by
  unfold patternsEnd at h
  split at h
  · rfl
  · rfl
  · cases h

theorem patternsEnd_tupleClose (ps : List Pattern) (r : List Char) :
    patternsEnd (Text.tupleClose ps ++ r) = true := by
  rcases ps with _ | ⟨p, _ | ⟨q, ps⟩⟩ <;> rfl

theorem endsRun_of_patternEnd {r : List Char} (h : patternEnd r = true) :
    endsRun isNameChar r = true := by
  unfold patternEnd at h
  split at h
  · rfl
  · rfl
  · rfl
  · cases h

theorem PatternKind.endsRun_tail (k : PatternKind) {r : List Char} (hr : patternEnd r = true) :
    endsRun isNameChar (k.tail ++ r) = true := by
  unfold PatternKind.tail
  split
  · exact endsRun_of_patternEnd hr
  · rfl

/-- The first word of the text of a pattern; a tuple and a reference have none. -/
def Pattern.headWord : Pattern → String
  | .mk (some b) _ => b.headWord
  | .mk none .any => "_"
  | .mk none _ => ""

theorem Pattern.headWord_none (k : PatternKind) :
    (Pattern.mk none k).headWord = if k.isAny then "_" else "" := by
  cases k <;> rfl

theorem PatternKind.eq_any {k : PatternKind} (h : k.isAny = true) : k = .any := by
  cases k with
  | any => rfl
  | _ => cases h

theorem Pattern.Built.takeWhile_chars {p : Pattern} (h : p.Built Pattern.Clear) {r : List Char}
    (hr : patternEnd r = true) :
    (p.chars ++ r).takeWhile isNameChar = p.headWord.toList := by
  obtain ⟨b, k⟩ := p
  cases b with
  | some b =>
    rw [Pattern.chars_some, List.append_assoc]
    exact Binding.takeWhile_text (h.here.binding b rfl).1 (k.endsRun_tail hr)
  | none =>
    rw [Pattern.chars_none]
    cases h with
    | any _ =>
      have hrun := endsRun_of_patternEnd hr
      exact Text.takeWhile_run (a := ['_']) (List.all_eq_true.mp rfl) hrun
    | tuple _ _ =>
      rw [PatternKind.chars_tuple]
      rfl
    | @ref _ k _ _ _ =>
      rw [PatternKind.chars_ref]
      cases k <;> rfl

/-- Patterns whose texts start alike have the same first word. -/
theorem Pattern.Built.headWord_eq {p q : Pattern} (hp : p.Built Pattern.Clear)
    (hq : q.Built Pattern.Clear) {r s : List Char} (hr : patternEnd r = true)
    (hs : patternEnd s = true) (h : p.chars ++ r = q.chars ++ s) : p.headWord = q.headWord := by
  rw [← String.toList_inj, ← hp.takeWhile_chars hr, ← hq.takeWhile_chars hs, h]

/-- A pattern does not start where the patterns of a tuple end. -/
theorem Pattern.Built.not_patternsEnd {p : Pattern} (h : p.Built Pattern.Clear) {rest : List Char}
    (hrest : patternEnd rest = true) : patternsEnd (p.chars ++ rest) = false := by
  have hword := h.takeWhile_chars hrest
  obtain ⟨b, k⟩ := p
  cases b with
  | some b =>
    refine Bool.eq_false_iff.mpr fun hend => ?_
    have hrun := endsRun_of_patternEnd (patternEnd_of_patternsEnd hend)
    have hnil : (Pattern.mk (some b) k).headWord.toList = [] :=
      hword.symm.trans (Text.takeWhile_run (a := []) (List.forall_mem_nil _) hrun)
    exact (h.here.binding b rfl).1.headWord_isName.nonempty hnil
  | none =>
    rw [Pattern.chars_none]
    cases h with
    | any _ => rfl
    | tuple _ _ =>
      rw [PatternKind.chars_tuple]
      rfl
    | @ref _ k _ _ _ =>
      rw [PatternKind.chars_ref]
      cases k <;> rfl

theorem separable_patterns {ps : List Pattern} (hps : ∀ p ∈ ps, p.Built Pattern.Clear)
    (hsep : ∀ p ∈ ps, Separable Pattern.chars (Pattern.Built Pattern.Clear) patternEnd p) :
    Separable (sepChars ", ".toList Pattern.chars) (fun qs => ∀ q ∈ qs, q.Built Pattern.Clear)
      patternsEnd ps := by
  refine Separable.joined (fun _ => rfl) (fun r hr => ⟨patternEnd_of_patternsEnd hr, ?_⟩)
    (fun q rest hq hrest => hq.not_patternsEnd hrest) hps hsep
  rintro ⟨rest, rfl⟩
  cases hr

/-- A tuple or a reference is told by its text from others and from what follows. -/
def PatternKind.Separates (k : PatternKind) : Prop :=
  ∀ (b : Option Binding) (k' : PatternKind) (r s : List Char),
    (Pattern.mk b k').Built Pattern.Clear → k'.isAny = false → patternEnd r = true →
    patternEnd s = true → k.chars ++ r = k'.chars ++ s → k = k' ∧ r = s

theorem PatternKind.separates_tuple {ps : List Pattern} (hps : ∀ p ∈ ps, p.Built Pattern.Clear)
    (hsep : ∀ p ∈ ps, Separable Pattern.chars (Pattern.Built Pattern.Clear) patternEnd p) :
    (PatternKind.tuple ps).Separates := by
  intro b k' r s hk' hany hr hs h
  rw [PatternKind.chars_tuple, List.cons_append, List.append_assoc] at h
  cases hk' with
  | any _ => cases hany
  | @tuple _ qs _ hqs =>
    rw [PatternKind.chars_tuple, List.cons_append, List.append_assoc] at h
    obtain ⟨rfl, hclose⟩ := separable_patterns hps hsep qs _ _ hqs (patternsEnd_tupleClose ps r)
      (patternsEnd_tupleClose qs s) (List.cons.inj h).2
    exact ⟨rfl, List.append_cancel_left hclose⟩
  | @ref _ l _ _ _ =>
    rw [PatternKind.chars_ref] at h
    cases l <;> cases h

/-- A text that starts with the word `mut` is that of a marked name. -/
theorem Pattern.Built.markedMut {p : Pattern} (h : p.Built Pattern.Clear) {r rest : List Char}
    (hr : patternEnd r = true) (heq : p.chars ++ r = "mut".toList ++ ' ' :: rest) :
    p.MarkedMut := by
  have hmut : IsName "mut" := .of_all rfl rfl
  have hword : p.headWord = "mut" := by
    rw [← String.toList_inj, ← h.takeWhile_chars hr, heq]
    exact Text.takeWhile_run hmut.chars rfl
  obtain ⟨b, k⟩ := p
  cases b with
  | none =>
    rw [Pattern.headWord_none] at hword
    split at hword <;> exact absurd hword (by decide)
  | some b => exact ⟨b.name, congrArg some ((h.here.binding b rfl).1.of_headWord_mut hword)⟩

theorem PatternKind.separates_ref {b : Option Binding} {k : BorrowKind} {p : Pattern}
    (hhere : (Pattern.mk b (.ref k p)).Clear) (hp : p.Built Pattern.Clear)
    (hsep : Separable Pattern.chars (Pattern.Built Pattern.Clear) patternEnd p) :
    (PatternKind.ref k p).Separates := by
  intro b' k' r s hk' hany hr hs h
  rw [PatternKind.chars_ref, List.append_assoc] at h
  cases hk' with
  | any _ => cases hany
  | tuple _ _ =>
    rw [PatternKind.chars_tuple] at h
    cases k <;> cases h
  | @ref _ l q hhere' hq =>
    rw [PatternKind.chars_ref, List.append_assoc] at h
    -- only before a marked name could the signs be taken for one another
    cases k with
    | shared =>
      cases l with
      | shared =>
        obtain ⟨rfl, rfl⟩ := hsep q r s hq hr hs (List.append_cancel_left h)
        exact ⟨rfl, rfl⟩
      | unique => exact absurd (hp.markedMut hr (List.cons.inj h).2) (hhere.inner p rfl)
    | unique =>
      cases l with
      | shared => exact absurd (hq.markedMut hs (List.cons.inj h).2.symm) (hhere'.inner q rfl)
      | unique =>
        obtain ⟨rfl, rfl⟩ := hsep q r s hq hr hs (List.append_cancel_left h)
        exact ⟨rfl, rfl⟩

/-- Whether anything is matched below a name shows after the name. -/
theorem PatternKind.separable_tail {b : Option Binding} {k k' : PatternKind}
    (hk : k.isAny = false → k.Separates) (hk' : (Pattern.mk b k').Built Pattern.Clear)
    {r s : List Char} (hr : patternEnd r = true) (hs : patternEnd s = true)
    (h : k.tail ++ r = k'.tail ++ s) : k = k' ∧ r = s := by
  unfold PatternKind.tail at h
  split at h
  · next hany =>
    split at h
    · next hany' => exact ⟨(eq_any hany).trans (eq_any hany').symm, h⟩
    · rw [show r = _ from h] at hr
      cases hr
  · next hany =>
    split at h
    · rw [← show _ = s from h] at hs
      cases hs
    · next hany' =>
      rw [List.append_assoc, List.append_assoc] at h
      exact hk (eq_false_of_ne_true hany) b k' r s hk' (eq_false_of_ne_true hany') hr hs
        (List.append_cancel_left h)

/-- A pattern that binds no name is a wildcard, or separable as a tuple or a reference. -/
theorem PatternKind.separable_whole {k k' : PatternKind} (hk : k.isAny = false → k.Separates)
    (hk' : (Pattern.mk none k').Built Pattern.Clear) {r s : List Char} (hr : patternEnd r = true)
    (hs : patternEnd s = true)
    (hword : (Pattern.mk none k).headWord = (Pattern.mk none k').headWord)
    (h : k.chars ++ r = k'.chars ++ s) : k = k' ∧ r = s := by
  rw [Pattern.headWord_none, Pattern.headWord_none] at hword
  cases hany : k.isAny with
  | true =>
    cases hany' : k'.isAny with
    | true =>
      rw [eq_any hany, eq_any hany'] at h
      exact ⟨(eq_any hany).trans (eq_any hany').symm, List.append_cancel_left h⟩
    | false =>
      rw [hany, hany'] at hword
      exact absurd hword (by decide)
  | false =>
    cases hany' : k'.isAny with
    | true =>
      rw [hany, hany'] at hword
      exact absurd hword (by decide)
    | false => exact hk hany none k' r s hk' hany' hr hs h

theorem Pattern.headWord_none_ne {b : Binding} (h : b.Named) (k : PatternKind) :
    b.headWord ≠ (Pattern.mk none k).headWord := by
  rw [Pattern.headWord_none]
  split
  · exact h.headWord_ne_wildcard
  · intro hnil
    exact h.headWord_isName.nonempty (by rw [hnil]; rfl)

/-- The name that a pattern binds is separable from the rest of the pattern, and a name
is told from a pattern without one. -/
theorem Pattern.separable_of_kind {b : Option Binding} {k : PatternKind}
    (hp : (Pattern.mk b k).Built Pattern.Clear) (hk : k.isAny = false → k.Separates) :
    Separable Pattern.chars (Pattern.Built Pattern.Clear) patternEnd (.mk b k) := by
  intro q r s hq hr hs h
  have hword := hp.headWord_eq hq hr hs h
  obtain ⟨b', k'⟩ := q
  cases b with
  | none =>
    cases b' with
    | none =>
      rw [Pattern.chars_none, Pattern.chars_none] at h
      obtain ⟨rfl, rfl⟩ := PatternKind.separable_whole hk hq hr hs hword h
      exact ⟨rfl, rfl⟩
    | some b' => exact absurd hword.symm (headWord_none_ne (hq.here.binding b' rfl).1 k)
  | some b =>
    have hb := hp.here.binding b rfl
    cases b' with
    | none => exact absurd hword (headWord_none_ne hb.1 k')
    | some b' =>
      rw [Pattern.chars_some, Pattern.chars_some, List.append_assoc, List.append_assoc] at h
      obtain ⟨rfl, htail⟩ := b.separable hb.1 hb.2 b' _ _ (hq.here.binding b' rfl)
        (k.endsRun_tail hr) (k'.endsRun_tail hs) h
      obtain ⟨rfl, rfl⟩ := PatternKind.separable_tail hk hq hr hs htail
      exact ⟨rfl, rfl⟩

/-- A clear pattern is determined by its text, and its text shows where it ends. -/
theorem Pattern.separable {p : Pattern} (h : p.Built Pattern.Clear) :
    Separable Pattern.chars (Pattern.Built Pattern.Clear) patternEnd p := by
  induction h with
  | any hok => exact separable_of_kind (.any hok) nofun
  | tuple hok hps ih =>
    exact separable_of_kind (.tuple hok hps) fun _ => PatternKind.separates_tuple hps ih
  | ref hok hp ih =>
    exact separable_of_kind (.ref hok hp) fun _ => PatternKind.separates_ref hok hp ih

/-- Patterns made of wildcards, bindings, tuples and references have the same text
exactly when they are read as the same pattern. If moreover no name bound by `ref` is
marked `mut` in them and no `&` stands before a marked name, then patterns with the
same text are equal. -/
theorem pattern_text_eq_iff :
    (∀ p q : Pattern, p.Built Pattern.Named → q.Built Pattern.Named →
      (p.text = q.text ↔ p.reading = q.reading)) ∧
    (∀ p q : Pattern, p.Built Pattern.Clear → q.Built Pattern.Clear → p.text = q.text → p = q) := by
  have hclear : ∀ p q : Pattern, p.Built Pattern.Clear → q.Built Pattern.Clear →
      p.text = q.text → p = q :=
    fun p q hp hq h => eq_of_text (Pattern.separable hp) rfl hq h
  refine ⟨fun p q hp hq => ⟨fun h => ?_, fun h => ?_⟩, hclear⟩
  · refine hclear p.reading q.reading hp.reading hq.reading ?_
    rw [p.text_reading, q.text_reading, h]
  · rw [← p.text_reading, h, q.text_reading]

/-- The name `x`, bound as a mode says and marked or not. -/
def bindX (isMut : Bool) (mode : BindingMode) : Pattern := .mk (some ⟨"x", isMut, mode⟩) .any

theorem x_named (isMut : Bool) (mode : BindingMode) : Binding.Named ⟨"x", isMut, mode⟩ := by
  have hx : IsName "x" := .of_all rfl rfl
  have hordinary : "x" ∉ ["_", "mut", "ref"] := by decide
  exact ⟨hx, hordinary⟩

theorem bindX_named (isMut : Bool) (mode : BindingMode) :
    (bindX isMut mode).Built Pattern.Named := by
  refine .any fun b hb => ?_
  obtain rfl := Option.some.inj hb
  exact x_named isMut mode

/-- A reference to the name `x`, bound by value and marked or not. -/
def refX (kind : BorrowKind) (isMut : Bool) : Pattern := .mk none (.ref kind (bindX isMut .move))

theorem refX_named (kind : BorrowKind) (isMut : Bool) : (refX kind isMut).Built Pattern.Named :=
  .ref nofun (bindX_named isMut .move)

/-- With `&` before a marked name, or `ref` before a marker, different patterns have the
same text. -/
theorem mut_marker_confused :
    ((refX .shared true).Built Pattern.Named ∧ (refX .unique false).Built Pattern.Named ∧
      (refX .shared true).text = (refX .unique false).text ∧
      refX .shared true ≠ refX .unique false) ∧
    (bindX true .ref).Built Pattern.Named ∧ (bindX false .refMut).Built Pattern.Named ∧
      (bindX true .ref).text = (bindX false .refMut).text ∧
      bindX true .ref ≠ bindX false .refMut :=
  ⟨⟨refX_named _ _, refX_named _ _, rfl, nofun⟩, bindX_named _ _, bindX_named _ _, rfl, nofun⟩

theorem bindX_clear {isMut : Bool} {mode : BindingMode} (h : mode = .ref → isMut = false) :
    (bindX isMut mode).Built Pattern.Clear := by
  refine .any ⟨fun b hb => ?_, nofun⟩
  obtain rfl := Option.some.inj hb
  exact ⟨x_named isMut mode, h⟩

/-- With `&mut` before it a marked name is told from one that is not: `&mut mut x` is
not `&mut x`. Before the bare name, `&mut x` and the reference to a marked name read
alike. -/
theorem refX_told_apart : (refX .unique true).text ≠ (refX .unique false).text ∧
    (refX .shared true).reading = (refX .unique false).reading := by
  have hclear (isMut : Bool) : (refX .unique isMut).Built Pattern.Clear :=
    .ref ⟨nofun, nofun⟩ (bindX_clear nofun)
  refine ⟨fun h => ?_, ?_⟩
  · exact absurd (pattern_text_eq_iff.2 _ _ (hclear true) (hclear false) h) nofun
  · exact (pattern_text_eq_iff.1 _ _ (refX_named _ _) (refX_named _ _)).mp rfl

end Core

end Lowering
