import Lowering.Toml.Scalar

/-!
# TOML documents

A document is a sequence of lines: blank ones, comments, headers that open a
table or an element of an array of tables, and keys with values, which go to the
table opened last. Arrays may span lines, inline tables may not.

A value holds other values to a depth of at most `nestingLimit`, and a key has
at most as many parts, so reading is a recursion on that number.
-/

namespace Lowering.Toml

/-- How deep arrays and inline tables may nest, and how many parts a dotted key
may have. -/
def nestingLimit : Nat := 79

/-- Skips blanks. -/
def blanks : Reader Unit := do
  let _ ← Reader.span isBlank

/-- Reads a comment up to the end of its line. -/
def comment : Reader Unit := do
  Reader.char '#'
  let _ ← Reader.span isPrinted

/-- Reads the end of a line, or finds the end of the document. -/
def lineEnd : Reader Unit := fun cs =>
  match cs with
  | [] => some ((), [])
  | cs => newline cs

/-- Reads what may follow on a line: blanks and a comment. -/
def lineRest : Reader Unit := do
  blanks
  let _ ← Reader.optional comment
  lineEnd

/-! ## Keys -/

/-- A character of a key without quotes. -/
def isKeyChar (c : Char) : Bool :=
  c.isAlphanum || c == '_' || c == '-'

/-- Reads one part of a key. -/
def keyPart : Reader String :=
  lineString <|> do
    let cs ← Reader.span isKeyChar
    if cs.isEmpty then Reader.refuse else return String.ofList cs

/-- Reads a dotted key of at most `limit` parts. -/
def keyParts : (limit : Nat) → Reader (List String)
  | 0 => Reader.refuse
  | limit + 1 => do
    blanks
    let part ← keyPart
    blanks
    match ← Reader.optional (Reader.char '.') with
    | none => return [part]
    | some _ => return part :: (← keyParts limit)

/-- Reads a key: the path to its table, and its last part. -/
def key : Reader (List String × String) := do
  let parts ← keyParts nestingLimit
  match parts.getLast? with
  | none => Reader.refuse
  | some last => return (parts.dropLast, last)

/-! ## Values -/

/-- Skips blanks, comments and line ends, `fuel` lines at most. -/
def blankLines : (fuel : Nat) → Reader Unit
  | 0 => blanks
  | fuel + 1 => do
    blanks
    let line ← Reader.optional do
      let _ ← Reader.optional comment
      newline
    match line with
    | none => return ()
    | some _ => blankLines fuel

/-- Skips blanks, comments and line ends. -/
def betweenItems : Reader Unit := fun cs => blankLines cs.length cs

/-- Reads the items of an array after its opening bracket, `fuel` at most. -/
def arrayItems (value : Reader Value) : (fuel : Nat) → Reader (List Value)
  | 0 => Reader.refuse
  | fuel + 1 => do
    betweenItems
    match ← Reader.optional (Reader.char ']') with
    | some _ => return []
    | none => do
      let item ← value
      betweenItems
      match ← Reader.optional (Reader.char ',') with
      | some _ => return item :: (← arrayItems value fuel)
      | none => do
        Reader.char ']'
        return [item]

/-- Reads a key and its value. -/
def keyValue (value : Reader Value) : Reader ((List String × String) × Value) := do
  let k ← key
  Reader.char '='
  blanks
  return (k, ← value)

/-- Reads the entries of an inline table, at least one and `fuel` at most, and
adds them to `es`. -/
def inlineEntries (value : Reader Value) : (fuel : Nat) → Entries → Reader Entries
  | 0, _ => Reader.refuse
  | fuel + 1, es => do
    let ((path, name), v) ← keyValue value
    let es ← (Entries.addDotted name v path es : Option Entries)
    blanks
    match ← Reader.optional (Reader.char ',') with
    | some _ => inlineEntries value fuel es
    | none => do
      Reader.char '\x7d'
      return es

/-- Reads an inline table after its opening brace. -/
def inlineTable (value : Reader Value) : Reader Entries := do
  blanks
  match ← Reader.optional (Reader.char '\x7d') with
  | some _ => return []
  | none => fun cs => inlineEntries value cs.length [] cs

/-- Reads a value that nests at most `depth` arrays and inline tables. -/
def value : (depth : Nat) → Reader Value
  | 0 => scalar
  | depth + 1 => fun cs =>
    match cs with
    | '[' :: cs => do
      let (items, cs) ← arrayItems (value depth) (cs.length + 1) cs
      return (.array items, cs)
    | '\x7b' :: cs => do
      let (es, cs) ← inlineTable (value depth) cs
      return (.table .inline es, cs)
    | cs => scalar cs

/-! ## Lines -/

/-- A document as far as it is read: its top table, and the path of the table
opened last. -/
structure Document where
  top : Entries := []
  opened : List String := []

/-- Reads a header between brackets and opens its table. -/
def header (left right : String) (open? : String → Entries → Option Entries)
    (doc : Document) : Reader Document := do
  Reader.word left
  let (path, name) ← key
  Reader.word right
  lineRest
  let top ← (Entries.descend (open? name) path doc.top : Option Entries)
  return ⟨top, path ++ [name]⟩

/-- Reads a line with a key and a value and adds it to the table opened last. -/
def assignment (doc : Document) : Reader Document := do
  let ((path, name), v) ← keyValue (value nestingLimit)
  lineRest
  let top ← (Entries.descend (Entries.addDotted name v path) doc.opened doc.top : Option Entries)
  return { doc with top }

/-- Reads one line that is not empty. -/
def line (doc : Document) : Reader Document := fun cs =>
  match cs with
  | '#' :: _ => (do comment; lineEnd; return doc : Reader Document) cs
  | '[' :: '[' :: _ => header "[[" "]]" Entries.openElement doc cs
  | '[' :: _ => header "[" "]" Entries.openTable doc cs
  | '\n' :: _ | '\r' :: _ => (do newline; return doc : Reader Document) cs
  | _ => assignment doc cs

/-- Reads lines until the input ends, `fuel` at most. -/
def lines : (fuel : Nat) → Document → List Char → Option Document
  | fuel, doc, cs =>
    match fuel, cs.dropWhile isBlank with
    | _, [] => some doc
    | 0, _ => none
    | fuel + 1, cs => do
      let (doc, cs) ← line doc cs
      lines fuel doc cs

/-- The top table of a document, if it is well formed. A mark of the byte order
may stand before it. -/
def parse? (text : String) : Option Entries :=
  let cs := match text.toList with
    | '\ufeff' :: cs => cs
    | cs => cs
  (lines (cs.length + 1) {} cs).map Document.top

end Lowering.Toml
