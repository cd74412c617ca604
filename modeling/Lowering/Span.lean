/-!
# Source locations

A file is known by its number, a span is a half-open range of byte offsets in
one file, and a location joins the two. The parser promises nothing about the
order of a span's ends, so a length may not exist.
-/

namespace Lowering

/-- A source file, known by its number. -/
structure FileId where
  index : UInt32
  deriving DecidableEq, Inhabited

/-- A range of byte offsets in a file, `stop` excluded. -/
structure Span where
  start : UInt32
  stop : UInt32
  deriving DecidableEq, Inhabited

/-- A range of byte offsets together with the file it lies in. -/
structure Location where
  file : FileId
  span : Span
  deriving DecidableEq, Inhabited

/-- Why a span has no length. -/
inductive SpanError where
  | stopBeforeStart
  deriving DecidableEq

/-- The text of a span error. -/
def SpanError.message : SpanError → String
  | .stopBeforeStart => "attempt to subtract with overflow"

/-- The text of a file number, as `file3`. -/
def FileId.text (f : FileId) : String :=
  "file" ++ toString f.index.toNat

namespace Span

/-- The text of a span, as `3..5`. -/
def text (s : Span) : String :=
  toString s.start.toNat ++ ".." ++ toString s.stop.toNat

/-- Whether a span covers no offset. -/
def isEmpty (s : Span) : Bool := s.start == s.stop

/-- The number of offsets in a span, if its ends are in order. -/
def length (s : Span) : Except SpanError UInt32 :=
  if s.stop < s.start then .error .stopBeforeStart else .ok (s.stop - s.start)

/-- The least span that covers both. -/
def cover (s t : Span) : Span where
  start := if s.start ≤ t.start then s.start else t.start
  stop := if s.stop ≤ t.stop then t.stop else s.stop

end Span

namespace Location

/-- The location of what has no source text: the first file, at offset zero. -/
def dummy : Location := ⟨⟨0⟩, ⟨0, 0⟩⟩

/-- The text of a location, as `file1:3..5`. -/
def text (s : Location) : String :=
  s.file.text ++ ":" ++ s.span.text

end Location

end Lowering
