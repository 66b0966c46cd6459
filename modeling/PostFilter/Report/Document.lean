import PostFilter.Filter.Expr
import PostFilter.Json.Printer
import PostFilter.Report.Page

/-!
# The post document

A page as JSON, with the filter it came from in both printed forms.
-/

namespace PostFilter

namespace Document

def optionalString : Option String → Json
  | some s => .string s
  | none => .null

def rowJson (row : PostRow) : Json :=
  .object ([("id", .string row.id.hex), ("author", optionalString row.author),
    ("content", optionalString row.content)] ++
    (row.createdAt.map fun t => ("created_at", Json.string t.shown)).toList)

def filterFields : Option Expr → List (String × Json)
  | some e => [("filter", .string e.filterText), ("expression", .string e.render)]
  | none => []

def pageJson (filter : Option Expr) (page : PostPage) : Json :=
  .object (filterFields filter ++ [("count", .nat page.total),
    ("truncated", .bool page.truncated), ("posts", .array (page.rows.map rowJson))])

def render (filter : Option Expr) (page : PostPage) : String :=
  (pageJson filter page).pretty

end Document

end PostFilter
