/-!
# Syntax errors

Why a text is not a filter, and where: a character position for a character outside the alphabet,
and an index into the token sequence for everything else.
-/

namespace PostFilter

/-- What the grammar required at the place of an error. -/
inductive Expected where
  | expression
  | openParen
  | comma
  | closeParen
  | name
  deriving DecidableEq, Repr

def Expected.describe : Expected → String
  | .expression => "one of '|', '&', '!', '@', '#'"
  | .openParen => "'('"
  | .comma => "','"
  | .closeParen => "')'"
  | .name => "a name"

inductive SyntaxError where
  | emptyExpression
  | invalidCharacter (character : Char) (position : Nat)
  | unexpectedToken (index : Nat) (expected : Expected) (found : String)
  | unexpectedEnd (index : Nat)
  | tooDeep (index : Nat)
  | trailingTokens (index : Nat)
  deriving DecidableEq, Repr

namespace SyntaxError

def message : SyntaxError → String
  | emptyExpression => "filter expression is empty"
  | invalidCharacter c p =>
    "invalid character '" ++ c.toString ++ "' at position " ++ toString p
  | unexpectedToken i e f =>
    "expected " ++ e.describe ++ " at token " ++ toString i ++ ", found '" ++ f ++ "'"
  | unexpectedEnd i => "unexpected end of expression at token " ++ toString i
  | tooDeep i => "expression nested too deeply at token " ++ toString i
  | trailingTokens i => "unexpected trailing input at token " ++ toString i

/-- The token the error is about. A character outside the alphabet belongs to no token. -/
def tokenIndex? : SyntaxError → Option Nat
  | emptyExpression => some 0
  | invalidCharacter _ _ => none
  | unexpectedToken i _ _ | unexpectedEnd i | tooDeep i | trailingTokens i => some i

end SyntaxError

end PostFilter
