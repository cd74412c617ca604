import Lowering.Text.Hidden

/-!
# Quoted literals

The text of a character or string literal: the value between quotes, with a
backslash before the quote in use and before a backslash, short names for the
common controls, and a number in braces for every other character that has no
glyph of its own.
-/

namespace Lowering.Text

/-- The number of a character in lower-case hexadecimal, without padding. -/
def hexadecimal (c : Char) : String :=
  String.ofList (Nat.toDigits 16 c.toNat)

/-- One character inside a literal that is closed by `quote`. -/
def escaped (quote c : Char) : String :=
  if c = '\x00' then "\\0"
  else if c = '\t' then "\\t"
  else if c = '\n' then "\\n"
  else if c = '\r' then "\\r"
  else if c = '\\' then "\\\\"
  else if c = quote then "\\" ++ c.toString
  else if isHidden c then "\\u\x7b" ++ hexadecimal c ++ "\x7d"
  else c.toString

/-- A character literal. -/
def quotedChar (c : Char) : String :=
  "'" ++ escaped '\'' c ++ "'"

/-- The characters of a string literal, between its quotes. -/
def escapedAll (quote : Char) : List Char → String
  | [] => ""
  | c :: rest => escaped quote c ++ escapedAll quote rest

/-- A string literal. -/
def quotedString (s : String) : String :=
  "\"" ++ escapedAll '"' s.toList ++ "\""

end Lowering.Text
