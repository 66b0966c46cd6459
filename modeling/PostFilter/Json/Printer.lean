import PostFilter.Json.Basic

/-!
# Writing JSON

Values are written compactly, or over several lines with two spaces per level. Of a string only
the quote, the backslash and the control characters below U+0020 are escaped.
-/

namespace PostFilter.Json

namespace Printer

def escape (c : Char) : List Char :=
  match c with
  | '"' => ['\\', '"']
  | '\\' => ['\\', '\\']
  | '\x08' => ['\\', 'b']
  | '\x0c' => ['\\', 'f']
  | '\n' => ['\\', 'n']
  | '\r' => ['\\', 'r']
  | '\t' => ['\\', 't']
  | c =>
    if c.toNat < 0x20 then
      ['\\', 'u', '0', '0', Nat.digitChar (c.toNat / 16), Nat.digitChar (c.toNat % 16)]
    else [c]

def quoted (s : String) : List Char :=
  '"' :: (s.toList.flatMap escape ++ ['"'])

/-- A literal that denotes nothing. -/
def meaningless : List Char :=
  ['"', '\\', 'u', 'd', '8', '0', '0', '"']

def ofBool (b : Bool) : List Char :=
  if b then ['t', 'r', 'u', 'e'] else ['f', 'a', 'l', 's', 'e']

mutual

/-- The value without any blanks. -/
def compact : Json → List Char
  | .null => ['n', 'u', 'l', 'l']
  | .bool b => ofBool b
  | .number l => l.toList
  | .string s => quoted s
  | .array xs => '[' :: (compactItems xs ++ [']'])
  | .object fs => '{' :: (compactFields fs ++ ['}'])
  | .meaningless => meaningless

def compactItems : List Json → List Char
  | [] => []
  | [x] => compact x
  | x :: xs => compact x ++ ',' :: compactItems xs

def compactFields : List (String × Json) → List Char
  | [] => []
  | [(k, v)] => quoted k ++ ':' :: compact v
  | (k, v) :: fs => quoted k ++ ':' :: (compact v ++ ',' :: compactFields fs)

end

/-- A line break and two spaces for each level. -/
def newline (level : Nat) : List Char :=
  '\n' :: List.replicate (2 * level) ' '

mutual

/-- The value over several lines, of which the first stands at the given level. -/
def pretty (level : Nat) : Json → List Char
  | .null => ['n', 'u', 'l', 'l']
  | .bool b => ofBool b
  | .number l => l.toList
  | .string s => quoted s
  | .array [] => ['[', ']']
  | .array (x :: xs) =>
    '[' :: (newline (level + 1) ++ pretty (level + 1) x ++ prettyItems (level + 1) xs ++
      newline level ++ [']'])
  | .object [] => ['{', '}']
  | .object ((k, v) :: fs) =>
    '{' :: (newline (level + 1) ++ quoted k ++ ':' :: ' ' :: pretty (level + 1) v ++
      prettyFields (level + 1) fs ++ newline level ++ ['}'])
  | .meaningless => meaningless

/-- The items after the first one. -/
def prettyItems (level : Nat) : List Json → List Char
  | [] => []
  | x :: xs => ',' :: (newline level ++ pretty level x ++ prettyItems level xs)

/-- The fields after the first one. -/
def prettyFields (level : Nat) : List (String × Json) → List Char
  | [] => []
  | (k, v) :: fs =>
    ',' :: (newline level ++ quoted k ++ ':' :: ' ' :: pretty level v ++ prettyFields level fs)

end

end Printer

def compact (j : Json) : String :=
  String.ofList (Printer.compact j)

def pretty (j : Json) : String :=
  String.ofList (Printer.pretty 0 j)

end PostFilter.Json
