import PostFilter.Filter.Name
import PostFilter.Filter.SyntaxError

/-!
# Tokens

Filter text is cut into eight symbols and words. A word is a maximal run of word characters, and
no character stands between tokens, so the token texts concatenate to the input.
-/

namespace PostFilter

inductive Token where
  | or
  | and
  | not
  | atSign
  | hash
  | openParen
  | closeParen
  | comma
  | word (text : String)
  deriving DecidableEq, Repr

namespace Token

def chars : Token → List Char
  | or => ['|']
  | and => ['&']
  | not => ['!']
  | atSign => ['@']
  | hash => ['#']
  | openParen => ['(']
  | closeParen => [')']
  | comma => [',']
  | word w => w.toList

def text (t : Token) : String :=
  String.ofList t.chars

def ofSymbol? : Char → Option Token
  | '|' => some or
  | '&' => some and
  | '!' => some not
  | '@' => some atSign
  | '#' => some hash
  | '(' => some openParen
  | ')' => some closeParen
  | ',' => some comma
  | _ => none

end Token

/-- A token and the byte offset of its first character. -/
structure PlacedToken where
  token : Token
  position : Nat
  deriving DecidableEq, Repr

namespace Lexer

/-- The characters a filter may be written with. -/
def inAlphabet (c : Char) : Bool :=
  isWordChar c || (Token.ofSymbol? c).isSome

/-- The first character outside the alphabet, with its byte offset. -/
def firstInvalid? (position : Nat) : List Char → Option (Char × Nat)
  | [] => none
  | c :: cs =>
    if inAlphabet c then firstInvalid? (position + c.utf8Size) cs else some (c, position)

theorem length_dropWhile_le (p : Char → Bool) (cs : List Char) :
    (cs.dropWhile p).length ≤ cs.length :=
  (List.dropWhile_sublist p).length_le

/-- Cut a text into tokens. Every character that is no symbol is taken to begin a word. -/
def scan (position : Nat) : List Char → List PlacedToken
  | [] => []
  | c :: cs =>
    match Token.ofSymbol? c with
    | some t => ⟨t, position⟩ :: scan (position + c.utf8Size) cs
    | none =>
      let tail := cs.takeWhile isWordChar
      ⟨.word (String.ofList (c :: tail)), position⟩ ::
        scan (position + c.utf8Size + tail.length) (cs.dropWhile isWordChar)
termination_by cs => cs.length
decreasing_by
  · simp
  · have := length_dropWhile_le isWordChar cs
    simp only [List.length_cons]
    omega

/-- The tokens of a text. The whole text is checked against the alphabet before any is cut. -/
def tokenize (s : String) : Except SyntaxError (List PlacedToken) :=
  match firstInvalid? 0 s.toList with
  | some (c, p) => .error (.invalidCharacter c p)
  | none => .ok (scan 0 s.toList)

end Lexer

end PostFilter
