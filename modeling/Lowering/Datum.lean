import Lowering.Span

/-!
# Spans as structured data

Spans are exchanged with other tools as plain structured data. A record is
written with its field names, and it is read either that way, whatever other
fields stand beside them, or as a list of exactly its fields in order. A number
is read only if it is whole and fits the field.
-/

namespace Lowering

/-- A piece of structured data. A number that is not whole is `real`. -/
inductive Datum where
  | null
  | bool (value : Bool)
  | whole (value : Int)
  | real
  | string (value : String)
  | list (items : List Datum)
  | record (fields : List (String × Datum))
  deriving Inhabited

namespace Datum

/-- The number held by a datum, if it fits 32 bits. -/
def word? : Datum → Option UInt32
  | .whole (.ofNat n) => if n < UInt32.size then some (.ofNat n) else none
  | _ => none

/-- The two members of a record with fields `first` and `second`, in either of
its two forms. -/
def pair? (first second : String) : Datum → Option (Datum × Datum)
  | .list [a, b] => some (a, b)
  | .record fields => do
    let a ← fields.lookup first
    let b ← fields.lookup second
    return (a, b)
  | _ => none

end Datum

/-- A file number is a bare number. -/
def FileId.ofDatum? (d : Datum) : Option FileId :=
  d.word?.map FileId.mk

/-- A span has the fields `start` and `end`. -/
def Span.ofDatum? (d : Datum) : Option Span := do
  let (a, b) ← d.pair? "start" "end"
  return ⟨← a.word?, ← b.word?⟩

/-- A location has the fields `file` and `span`. -/
def Location.ofDatum? (d : Datum) : Option Location := do
  let (f, s) ← d.pair? "file" "span"
  return ⟨← FileId.ofDatum? f, ← Span.ofDatum? s⟩

/-- The data form of a file number. -/
def FileId.toDatum (f : FileId) : Datum := .whole f.index.toNat

/-- The data form of a span. -/
def Span.toDatum (s : Span) : Datum :=
  .record [("start", .whole s.start.toNat), ("end", .whole s.stop.toNat)]

/-- The data form of a location. -/
def Location.toDatum (s : Location) : Datum :=
  .record [("file", s.file.toDatum), ("span", s.span.toDatum)]

end Lowering
