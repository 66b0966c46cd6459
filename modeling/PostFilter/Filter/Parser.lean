import PostFilter.Filter.Expr
import PostFilter.Filter.Token

/-!
# Parsing filters

    expr ::= "|" "(" expr "," expr ")"
           | "&" "(" expr "," expr ")"
           | "!" "(" expr ")"
           | "@" word
           | "#" word

The first token decides the production, so the parser never goes back. It is handed the number of
operators that may still be nested, and recurses on that number; width is not limited.
-/

namespace PostFilter

namespace Parser

/-- How deep operators may be nested. -/
def maxDepth : Nat := 128

/-- An expression, the index of the token after it, and the tokens from there on. -/
structure Parsed where
  expr : Expr
  next : Nat
  rest : List Token
  deriving DecidableEq, Repr

/-- Take one fixed token. -/
def expect (t : Token) (what : Expected) (i : Nat) :
    List Token → Except SyntaxError (List Token)
  | [] => .error (.unexpectedEnd i)
  | u :: ts => if u = t then .ok ts else .error (.unexpectedToken i what u.text)

/-- Take a word and make a leaf of it. -/
def leaf (make : String → Expr) (i : Nat) : List Token → Except SyntaxError Parsed
  | [] => .error (.unexpectedEnd i)
  | .word w :: ts => .ok ⟨make w, i + 1, ts⟩
  | u :: _ => .error (.unexpectedToken i .name u.text)

/-- Take two operands in parentheses, each of them read by `operand`. -/
def operands (operand : Nat → List Token → Except SyntaxError Parsed)
    (make : Expr → Expr → Expr) (i : Nat) (ts : List Token) : Except SyntaxError Parsed := do
  let ts ← expect .openParen .openParen i ts
  let a ← operand (i + 1) ts
  let ts ← expect .comma .comma a.next a.rest
  let b ← operand (a.next + 1) ts
  let ts ← expect .closeParen .closeParen b.next b.rest
  pure ⟨make a.expr b.expr, b.next + 1, ts⟩

/-- Read one expression from the tokens `ts`, the first of which has index `i`. At most `room`
operators may be nested in it. -/
def expression (room : Nat) (i : Nat) : List Token → Except SyntaxError Parsed
  | [] => .error (.unexpectedEnd i)
  | .atSign :: ts => leaf .author (i + 1) ts
  | .hash :: ts => leaf .tag (i + 1) ts
  | .not :: ts =>
    match room with
    | 0 => .error (.tooDeep i)
    | room + 1 => do
      let ts ← expect .openParen .openParen (i + 1) ts
      let e ← expression room (i + 2) ts
      let ts ← expect .closeParen .closeParen e.next e.rest
      pure ⟨.not e.expr, e.next + 1, ts⟩
  | .and :: ts =>
    match room with
    | 0 => .error (.tooDeep i)
    | room + 1 => operands (expression room) .and (i + 1) ts
  | .or :: ts =>
    match room with
    | 0 => .error (.tooDeep i)
    | room + 1 => operands (expression room) .or (i + 1) ts
  | u :: _ => .error (.unexpectedToken i .expression u.text)

/-- Read one expression and nothing more. -/
def tokens (ts : List Token) : Except SyntaxError Expr :=
  match expression maxDepth 0 ts with
  | .error e => .error e
  | .ok p => if p.rest.isEmpty then .ok p.expr else .error (.trailingTokens p.next)

end Parser

/-- The expression that a filter text denotes. -/
def parse (s : String) : Except SyntaxError Expr :=
  if s.isEmpty then .error .emptyExpression
  else
    match Lexer.tokenize s with
    | .error e => .error e
    | .ok ts => Parser.tokens (ts.map (·.token))

end PostFilter
