import PostFilter.Text.Hex
import PostFilter.Toml.Blank

/-!
# TOML strings and keys

Strings have four forms: basic or literal, on one line or on several. Only basic strings know
escapes. A string on several lines loses a line end that follows its opening, and up to two quotes
may stand before its closing.
-/

namespace PostFilter.Toml

def isHexDigit (c : Char) : Bool :=
  (Hex.value? c).isSome

/-- The number that a run of digits denotes. -/
def natOfDigits (base : Nat) (ds : List Char) : Nat :=
  ds.foldl (fun n c => base * n + (Hex.value? c).getD 0) 0

namespace Reader

/-- The character with the code that the next digits give. -/
def codePoint (digits : Nat) : Reader Char := do
  let n := natOfDigits 16 (← exactly isHexDigit digits)
  if n.isValidChar then pure (Char.ofNat n) else failure

def escaped : Reader Char := do
  char '\\'
  match ← one fun _ => true with
  | 'b' => pure '\x08'
  | 't' => pure '\t'
  | 'n' => pure '\n'
  | 'f' => pure '\x0c'
  | 'r' => pure '\r'
  | '"' => pure '"'
  | '\\' => pure '\\'
  | 'u' => codePoint 4
  | 'U' => codePoint 8
  | _ => failure

def isBasicChar (c : Char) : Bool :=
  isTextChar c && c != '"' && c != '\\'

def isLiteralChar (c : Char) : Bool :=
  isTextChar c && c != '\''

def basicString : Reader String := do
  char '"'
  let cs ← many (one isBasicChar <|> escaped)
  char '"'
  pure (String.ofList cs)

def literalString : Reader String := do
  char '\''
  let cs ← run isLiteralChar
  char '\''
  pure (String.ofList cs)

/-! ## Several lines -/

def lineBreak : Reader (List Char) := do
  newline
  pure ['\n']

/-- A backslash at the end of a line joins it with the next text, without the blanks and line ends
between. -/
def join : Reader (List Char) := do
  char '\\'
  blanks
  newline
  discard (many (discard (one isBlank) <|> newline))
  pure []

/-- One or two quotes that do not belong to a longer run. -/
def innerQuotes (quote : Char) : Reader (List Char) := do
  let qs ← nonemptyRun (· == quote)
  if qs.length ≤ 2 then pure qs else failure

/-- Three quotes, with up to two more that belong to the text. -/
def closing (quote : Char) : Reader (List Char) := do
  chars [quote, quote, quote]
  let first ← optional (one (· == quote))
  let second ← optional (one (· == quote))
  pure (first.toList ++ second.toList)

/-- A string on several lines, given what it may hold besides line ends and quotes. -/
def longString (quote : Char) (piece : Reader (List Char)) : Reader String := do
  chars [quote, quote, quote]
  discard (optional newline)
  let pieces ← many (piece <|> lineBreak <|> innerQuotes quote)
  let quotes ← closing quote
  pure (String.ofList (pieces.flatten ++ quotes))

def longBasicString : Reader String :=
  longString '"' (nonemptyRun isBasicChar <|> join <|> (do pure [← escaped]))

def longLiteralString : Reader String :=
  longString '\'' (nonemptyRun isLiteralChar)

def text : Reader String :=
  longBasicString <|> basicString <|> longLiteralString <|> literalString

/-! ## Keys -/

def isBareChar (c : Char) : Bool :=
  c.isAlphanum || c == '_' || c == '-'

def bareKey : Reader String := do
  pure (String.ofList (← nonemptyRun isBareChar))

def keyPart : Reader String := do
  blanks
  let k ← basicString <|> literalString <|> bareKey
  blanks
  pure k

/-- How many levels of tables and arrays a text may spell out at once. -/
def maxNesting : Nat := 79

/-- A dotted key: the path to a table, and the key in it. -/
def key : Reader (List String × String) := do
  let first ← keyPart
  let more ← many (char '.' *> keyPart)
  if more.length < maxNesting then
    pure ((first :: more).dropLast, (first :: more).getLast (by simp))
  else failure

end Reader

end PostFilter.Toml
