import PostFilter.Toml.Reader

/-!
# What separates the parts of a document

Blanks within a line, line ends and comments.
-/

namespace PostFilter.Toml

/-- May the character stand in a comment or a literal string? Of the control characters only the
tab may. -/
def isTextChar (c : Char) : Bool :=
  c == '\t' || (' ' ≤ c && c != '\x7f')

def isBlank (c : Char) : Bool :=
  c == ' ' || c == '\t'

namespace Reader

def blanks : Reader Unit := do
  discard (run isBlank)

def newline : Reader Unit :=
  char '\n' <|> chars ['\r', '\n']

def comment : Reader Unit := do
  char '#'
  discard (run isTextChar)

/-- The rest of a line that holds nothing more. -/
def lineRest : Reader Unit := do
  blanks
  discard (optional comment)
  newline <|> atEnd

/-- Blanks, line ends and comments in any number. -/
def gap : Reader Unit := do
  discard (many (discard (one isBlank) <|> newline <|> (comment *> newline)))

end Reader

end PostFilter.Toml
