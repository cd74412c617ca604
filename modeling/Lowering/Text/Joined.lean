/-!
# Joined text

A list of texts with a separator between neighbours, the one shape shared by
every comma-separated part of the output.
-/

namespace Lowering.Text

/-- The texts in order, with `sep` between neighbours. -/
def joined (sep : String) : List String → String
  | [] => ""
  | [t] => t
  | t :: u :: rest => t ++ sep ++ joined sep (u :: rest)

/-- The texts in order, each one after `lead`. -/
def eachAfter (lead : String) : List String → String
  | [] => ""
  | t :: rest => lead ++ t ++ eachAfter lead rest

/-- A parenthesised list in which a single member keeps a comma, so that it is
not read as a grouping. -/
def tuple : List String → String
  | [t] => "(" ++ t ++ ",)"
  | ts => "(" ++ joined ", " ts ++ ")"

end Lowering.Text
