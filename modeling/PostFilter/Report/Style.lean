/-!
# Terminal styles

A styled text stands between two escape sequences. The closing sequence of a color resets only the
color, that of the others resets everything.
-/

namespace PostFilter

inductive Style where
  | cyan
  | green
  | yellow
  | dimmed
  | bold
  deriving DecidableEq, Repr

namespace Style

def opening : Style → String
  | cyan => "\x1b[36m"
  | green => "\x1b[32m"
  | yellow => "\x1b[33m"
  | dimmed => "\x1b[2m"
  | bold => "\x1b[1m"

def closing : Style → String
  | cyan | green | yellow => "\x1b[39m"
  | dimmed | bold => "\x1b[0m"

def paint (style : Style) (text : String) : String :=
  style.opening ++ text ++ style.closing

/-- Apply the style if colors are on. -/
def paintIf (colors : Bool) (style : Style) (text : String) : String :=
  if colors then style.paint text else text

end Style

end PostFilter
