import PostFilter.Report.Page
import PostFilter.Report.Style

/-!
# The post table

One line for each post under a header, and a footer if posts were left out. Cells are padded to a
width in characters and never cut by it. The padding of a colored cell is inside its color.
-/

namespace PostFilter

namespace Table

def idWidth : Nat := 10
def authorWidth : Nat := 16
def createdWidth : Nat := 17
def contentWidth : Nat := 60

def cell (width : Nat) (text : String) : String :=
  Text.padRight width text

/-- Four cells, the last of which is not padded. -/
def line (id author created content : String) : String :=
  id ++ " " ++ author ++ " " ++ created ++ " " ++ content

def header (colors : Bool) : String :=
  Style.dimmed.paintIf colors
    (line (cell idWidth "ID") (cell authorWidth "Author") (cell createdWidth "Created") "Content")

def authorText (row : PostRow) : String :=
  Text.truncate authorWidth (match row.author with
    | some name => "@" ++ name
    | none => "?")

/-- The time on a local clock that is `localOffset t` seconds ahead of UTC at the instant `t`. -/
def createdText (localOffset : Instant → Int) (createdAt : Option Instant) : String :=
  match createdAt with
  | some t => t.localMinute (localOffset t)
  | none => ""

def contentText (colors : Bool) (row : PostRow) : String :=
  match row.content with
  | some c => Text.truncate contentWidth (Text.singleLine c)
  | none => Style.dimmed.paintIf colors "(not in snapshot)"

def rowLine (localOffset : Instant → Int) (colors : Bool) (row : PostRow) : String :=
  line (Style.cyan.paintIf colors (cell idWidth (Text.shortId row.id.hex)))
    (Style.green.paintIf colors (cell authorWidth (authorText row)))
    (cell createdWidth (createdText localOffset row.createdAt))
    (contentText colors row)

def footer (colors : Bool) (page : PostPage) : String :=
  Style.dimmed.paintIf colors ("Showing " ++ toString page.rows.length ++ " of " ++
    toString page.total ++ " posts (use --all to show everything)")

/-- The lines of a table with at least one row. -/
def lines (localOffset : Instant → Int) (colors : Bool) (page : PostPage) : List String :=
  header colors :: page.rows.map (rowLine localOffset colors) ++
    if page.truncated then [footer colors page] else []

def render (localOffset : Instant → Int) (colors : Bool) (page : PostPage) : String :=
  if page.rows.isEmpty then "No posts found.\n"
  else String.join ((lines localOffset colors page).map (· ++ "\n"))

end Table

end PostFilter
