/-!
# Tokens

The token trees that macros are made of: identifiers, literals, punctuation and
delimited groups.
-/

namespace Lowering

/-- The brackets around a group. -/
inductive Delimiter where
  | paren
  | bracket
  | brace
  deriving DecidableEq

/-- A token tree. -/
inductive Token where
  | ident (text : String)
  | literal (text : String)
  | punct (sign : Char)
  | group (delimiter : Delimiter) (tokens : List Token)
  deriving Inhabited

mutual

/-- Equality of token trees. -/
def Token.beq : Token → Token → Bool
  | .ident s, .ident t => s == t
  | .literal s, .literal t => s == t
  | .punct c, .punct d => c == d
  | .group d ts, .group e us => d == e && Token.beqAll ts us
  | _, _ => false
termination_by structural t => t

/-- Equality of token sequences. -/
def Token.beqAll : List Token → List Token → Bool
  | [], [] => true
  | t :: ts, u :: us => t.beq u && Token.beqAll ts us
  | _, _ => false
termination_by structural ts => ts

end

instance : BEq Token := ⟨Token.beq⟩

/-- A sequence of token trees. -/
structure TokenStream where
  tokens : List Token := []
  deriving BEq

namespace TokenStream

/-- The stream with one more token at its end. -/
def push (s : TokenStream) (t : Token) : TokenStream := ⟨s.tokens ++ [t]⟩

/-- The number of token trees, groups counted once. -/
def size (s : TokenStream) : Nat := s.tokens.length

/-- Whether the stream holds no token. -/
def isEmpty (s : TokenStream) : Bool := s.tokens.isEmpty

end TokenStream

end Lowering
