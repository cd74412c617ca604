import Lowering.Binary64.Shortest
import Lowering.Text.Quoted

/-!
# Scalar types and literals

The scalar types have one keyword each. A literal is shared by the surface and
the core language, which differ only in what stands for the suffix of a number.
-/

namespace Lowering

/-- The scalar types. -/
inductive Scalar where
  | bool
  | char
  | f32
  | f64
  | i8
  | u8
  | i16
  | u16
  | i32
  | u32
  | i64
  | u64
  | isize
  | usize
  deriving DecidableEq

namespace Scalar

/-- The keyword of a scalar type. -/
def keyword : Scalar → String
  | bool => "bool"
  | char => "char"
  | f32 => "f32"
  | f64 => "f64"
  | i8 => "i8"
  | u8 => "u8"
  | i16 => "i16"
  | u16 => "u16"
  | i32 => "i32"
  | u32 => "u32"
  | i64 => "i64"
  | u64 => "u64"
  | isize => "isize"
  | usize => "usize"

/-- Every scalar type. -/
def all : List Scalar :=
  [bool, char, f32, f64, i8, u8, i16, u16, i32, u32, i64, u64, isize, usize]

/-- The scalar type of a keyword. -/
def ofKeyword? (word : String) : Option Scalar :=
  all.find? fun c => c.keyword == word

end Scalar

/-- A literal whose numbers carry a suffix of type `σ`. -/
inductive Literal (σ : Type) where
  | integer (value : Nat) (suffix : σ)
  | float (value : Binary64) (suffix : σ)
  | bool (value : Bool)
  | char (value : Char)
  | string (value : String)
  deriving BEq, DecidableEq

/-- The text of a suffix; an absent one has none. -/
def Scalar.suffixText : Option Scalar → String
  | none => ""
  | some c => c.keyword

/-- The text of a literal with its suffix. -/
def Literal.text : Literal (Option Scalar) → String
  | .integer n s => toString n ++ Scalar.suffixText s
  | .float x s => x.text ++ Scalar.suffixText s
  | .bool b => if b then "true" else "false"
  | .char c => Text.quotedChar c
  | .string s => Text.quotedString s

end Lowering
