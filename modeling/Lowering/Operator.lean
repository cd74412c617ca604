/-!
# Operators and binding modes

The small closed vocabularies that both languages share.
-/

namespace Lowering

/-- The binary operators. -/
inductive BinaryOp where
  | add
  | sub
  | mul
  | div
  | rem
  | bitAnd
  | bitOr
  | bitXor
  | shl
  | shr
  | eq
  | ne
  | lt
  | le
  | gt
  | ge
  | and
  | or
  deriving DecidableEq

namespace BinaryOp

/-- The sign of a binary operator. -/
def sign : BinaryOp → String
  | add => "+"
  | sub => "-"
  | mul => "*"
  | div => "/"
  | rem => "%"
  | bitAnd => "&"
  | bitOr => "|"
  | bitXor => "^"
  | shl => "<<"
  | shr => ">>"
  | eq => "=="
  | ne => "!="
  | lt => "<"
  | le => "<="
  | gt => ">"
  | ge => ">="
  | and => "&&"
  | or => "||"

/-- Every binary operator. -/
def all : List BinaryOp :=
  [add, sub, mul, div, rem, bitAnd, bitOr, bitXor, shl, shr, eq, ne, lt, le, gt, ge, and, or]

/-- The binary operator with a given sign. -/
def ofSign? (s : String) : Option BinaryOp :=
  all.find? fun o => o.sign == s

end BinaryOp

/-- The unary operators that compute a value from a value. -/
inductive UnaryOp where
  | neg
  | not
  deriving DecidableEq

/-- The sign of a unary operator. -/
def UnaryOp.sign : UnaryOp → String
  | .neg => "-"
  | .not => "!"

/-- How a place is borrowed. -/
inductive BorrowKind where
  | shared
  | unique
  deriving DecidableEq

/-- The sign of a borrow, with the blank that parts `mut` from what follows. -/
def BorrowKind.sign : BorrowKind → String
  | .shared => "&"
  | .unique => "&mut "

/-- How a pattern binds the value it matches. -/
inductive BindingMode where
  | move
  | ref
  | refMut
  deriving DecidableEq

/-- The words before a binding's name. -/
def BindingMode.lead : BindingMode → String
  | .move => ""
  | .ref => "ref "
  | .refMut => "ref mut "

/-- A name bound by a pattern. -/
structure Binding where
  name : String
  isMut : Bool
  mode : BindingMode
  deriving DecidableEq

/-- The text of a binding, as `ref mut x`. -/
def Binding.text (b : Binding) : String :=
  b.mode.lead ++ (if b.isMut then "mut " else "") ++ b.name

end Lowering
