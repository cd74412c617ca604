import Lowering.Span
import Lowering.Text.Joined

/-!
# Attributes

An attribute is a bare name, a name with a string, or a name with a list of
further attributes. Only surface items have attributes: lowering does not read
them, and what it gives has none. A pass that does read an attribute marks it as
used. Equality and text are of the written form only, so the mark takes part in
neither.
-/

namespace Lowering

mutual

/-- One attribute, with the mark of the pass that read it. -/
inductive Attribute where
  | mk (name : String) (data : AttributeData) (used : Bool)

/-- What stands after an attribute's name. -/
inductive AttributeData where
  | bare
  | string (value : String)
  | list (items : List Attribute)

end

mutual

/-- Equality of the written forms. -/
def Attribute.beq : Attribute → Attribute → Bool
  | .mk n d _, .mk m e _ => n == m && d.beq e
termination_by structural a => a

/-- Equality of what stands after the name. -/
def AttributeData.beq : AttributeData → AttributeData → Bool
  | .bare, .bare => true
  | .string s, .string t => s == t
  | .list as, .list bs => Attribute.beqAll as bs
  | _, _ => false
termination_by structural d => d

/-- Equality of attribute sequences. -/
def Attribute.beqAll : List Attribute → List Attribute → Bool
  | [], [] => true
  | a :: as, b :: bs => a.beq b && Attribute.beqAll as bs
  | _, _ => false
termination_by structural as => as

end

mutual

/-- The text of an attribute: `name`, `name="value"` or `name(a, b)`. -/
def Attribute.text : Attribute → String
  | .mk n d _ => n ++ d.text

/-- The text of what stands after the name. -/
def AttributeData.text : AttributeData → String
  | .bare => ""
  | .string s => "=\"" ++ s ++ "\""
  | .list items => "(" ++ Text.joined ", " (Attribute.texts items) ++ ")"

/-- The texts of the attributes of a sequence. -/
def Attribute.texts : List Attribute → List String
  | [] => []
  | a :: as => a.text :: Attribute.texts as

end

namespace Attribute

instance : BEq Attribute := ⟨Attribute.beq⟩
instance : Inhabited Attribute := ⟨.mk "" .bare false⟩

/-- An attribute that no pass has read yet. -/
def unused (name : String) (data : AttributeData) : Attribute := .mk name data false

/-- The name of an attribute. -/
def name : Attribute → String
  | .mk n _ _ => n

/-- What stands after the name. -/
def data : Attribute → AttributeData
  | .mk _ d _ => d

/-- Whether a pass has read the attribute. -/
def isUsed : Attribute → Bool
  | .mk _ _ u => u

/-- Whether nothing stands after the name. -/
def isBare (a : Attribute) : Bool :=
  match a.data with
  | .bare => true
  | _ => false

/-- The string after the name, if there is one. -/
def string? (a : Attribute) : Option String :=
  match a.data with
  | .string s => some s
  | _ => none

/-- The list after the name, if there is one. -/
def items? (a : Attribute) : Option (List Attribute) :=
  match a.data with
  | .list items => some items
  | _ => none

/-- The attribute reached through nested lists by position. -/
def at? : Attribute → List Nat → Option Attribute
  | a, [] => some a
  | a, i :: rest => do
    let items ← a.items?
    let b ← items[i]?
    b.at? rest

/-- The attribute with a mark on what `at?` reaches. -/
def mark? : Attribute → List Nat → Option Attribute
  | .mk n d _, [] => some (.mk n d true)
  | .mk n (.list items) u, i :: rest => do
    let b ← items[i]?
    let b' ← b.mark? rest
    return .mk n (.list (items.set i b')) u
  | _, _ :: _ => none

/-- The attribute with one more member in its list. -/
def push? (a : Attribute) (b : Attribute) : Option Attribute :=
  a.items?.map fun items => .mk a.name (.list (items ++ [b])) a.isUsed

end Attribute

/-- The attributes written at one place. -/
structure Attributes where
  span : Location := Location.dummy
  items : List Attribute := []
  deriving BEq

namespace Attributes

/-- The text of an attribute list, as `[a, b]`. -/
def text (as : Attributes) : String :=
  "[" ++ Text.joined ", " (Attribute.texts as.items) ++ "]"

/-- The number of attributes, nested ones not counted. -/
def size (as : Attributes) : Nat := as.items.length

/-- Whether there is no attribute. -/
def isEmpty (as : Attributes) : Bool := as.items.isEmpty

/-- The list with one more attribute at its end. -/
def push (as : Attributes) (a : Attribute) : Attributes :=
  { as with items := as.items ++ [a] }

/-- The first attribute with a given name. -/
def get? (as : Attributes) (name : String) : Option Attribute :=
  as.items.find? fun a => a.name == name

/-- Whether some attribute has a given name. -/
def has (as : Attributes) (name : String) : Bool := (as.get? name).isSome

/-- The attribute reached from the first one of a given name by position. -/
def at? (as : Attributes) (name : String) (path : List Nat) : Option Attribute := do
  let a ← as.get? name
  a.at? path

/-- Replaces the first attribute of a given name, if there is one and `f` gives
a replacement. -/
def replaceFirst (f : Attribute → Option Attribute) (name : String) :
    List Attribute → Option (List Attribute)
  | [] => none
  | a :: as =>
    if a.name == name then (f a).map (· :: as)
    else (replaceFirst f name as).map (a :: ·)

/-- The list with a mark on what `at?` reaches. -/
def mark? (as : Attributes) (name : String) (path : List Nat) : Option Attributes :=
  (replaceFirst (·.mark? path) name as.items).map fun items => { as with items }

/-- The list with one more member in the list of the first attribute of a given
name. -/
def pushInto? (as : Attributes) (name : String) (b : Attribute) : Option Attributes :=
  (replaceFirst (·.push? b) name as.items).map fun items => { as with items }

end Attributes

end Lowering
