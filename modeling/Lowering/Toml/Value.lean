/-!
# TOML values and tables

The values of a TOML document and the rules by which tables are opened and
filled. Every table remembers how it came about, because that decides what may
still be added to it: a table written inline is closed, one opened by a header
may not be opened again, one that a longer header implied may be opened later,
and one made by a dotted key may only grow by further dotted keys.
-/

namespace Lowering.Toml

/-- How a table came about. -/
inductive Origin where
  | inline
  | header
  | implied
  | dotted
  deriving DecidableEq

/-- A value. Floats and dates are kept as they are written. -/
inductive Value where
  | string (value : String)
  | integer (value : Int)
  | float (text : String)
  | bool (value : Bool)
  | datetime (text : String)
  | array (items : List Value)
  | table (origin : Origin) (entries : List (String × Value))
  | tables (elements : List (List (String × Value)))

/-- The entries of a table in the order in which they were added. -/
abbrev Entries := List (String × Value)

namespace Entries

/-- Replaces the value under a key, or adds it at the end. -/
def put (key : String) (value : Value) : Entries → Entries
  | [] => [(key, value)]
  | (k, v) :: rest => if k = key then (k, value) :: rest else (k, v) :: put key value rest

/-- Applies `f` to the last of a list of tables. -/
def onLast (f : Entries → Option Entries) : List Entries → Option (List Entries)
  | [] => none
  | [es] => (f es).map ([·])
  | es :: rest => (onLast f rest).map (es :: ·)

/-- Adds a value under a dotted key: `path`, then `key`. Tables on the way are
made if they are missing. The table that takes the key must have been made by a
dotted key itself, unless the key has no path. -/
def addDotted (key : String) (value : Value) : (path : List String) → Entries → Option Entries
  | [], es => if (es.lookup key).isSome then none else some (es ++ [(key, value)])
  | p :: path, es => do
    let child ← match es.lookup p with
      | none => (addDotted key value path []).map (.table .dotted)
      | some (.table .dotted inner) => (addDotted key value path inner).map (.table .dotted)
      | some (.table .implied inner) =>
        if path.isEmpty then none else (addDotted key value path inner).map (.table .implied)
      | some (.tables elements) =>
        if path.isEmpty then none else (onLast (addDotted key value path) elements).map .tables
      | some _ => none
    return put p child es

/-- Applies `f` to the table under `path`, making tables on the way if they are
missing. An array of tables stands for its last element. -/
def descend (f : Entries → Option Entries) : (path : List String) → Entries → Option Entries
  | [], es => f es
  | p :: path, es => do
    let child ← match es.lookup p with
      | none => (descend f path []).map (.table .implied)
      | some (.table .inline _) => none
      | some (.table origin inner) => (descend f path inner).map (.table origin)
      | some (.tables elements) => (onLast (descend f path) elements).map .tables
      | some _ => none
    return put p child es

/-- Opens the table `key`, which must be new or only implied so far. -/
def openTable (key : String) (es : Entries) : Option Entries :=
  match es.lookup key with
  | none => some (es ++ [(key, .table .header [])])
  | some (.table .implied inner) => some (put key (.table .header inner) es)
  | some _ => none

/-- Opens a further element of the array of tables `key`. -/
def openElement (key : String) (es : Entries) : Option Entries :=
  match es.lookup key with
  | none => some (es ++ [(key, .tables [[]])])
  | some (.tables elements) => some (put key (.tables (elements ++ [[]])) es)
  | some _ => none

end Entries

end Lowering.Toml
