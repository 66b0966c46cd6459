import PostFilter.Command.Outcome
import PostFilter.Filter.Evaluation
import PostFilter.Hint.Unknown
import PostFilter.Report.Document
import PostFilter.Report.Table

/-!
# Queries

The commands about filters. Checking a filter only parses it. Listing posts evaluates a filter on a
snapshot and shows a page of what matches, with a warning for each name the snapshot does not know.
-/

namespace PostFilter

/-- How a command shows what it has found. -/
structure View where
  json : Bool
  quiet : Bool
  verbose : Bool
  colors : Bool
  /-- How many seconds the local clock is ahead of UTC at an instant. -/
  localOffset : Instant → Int

namespace View

/-! ## Checking -/

def checkJson (e : Expr) : Json :=
  .object [("valid", .bool true), ("kind", .string e.kind), ("filter", .string e.filterText),
    ("expression", .string e.render)]

def checkText (colors : Bool) (e : Expr) : String :=
  Style.green.paintIf colors e.render ++ "\n" ++ Style.dimmed.paintIf colors "filter:" ++ " " ++
    e.filterText ++ "\n"

def check (v : View) (text : String) : Outcome :=
  match parse text with
  | .error e => .failure v.json "" (.filter e)
  | .ok e =>
    .success
      (if v.json then (checkJson e).pretty ++ "\n"
      else if v.quiet then ""
      else checkText v.colors e)

/-! ## Listing -/

def warning (colors : Bool) (u : UnknownName) : String :=
  let label := if colors then Style.bold.paint (Style.yellow.paint "warning:") else "warning:"
  label ++ " " ++ u.message ++ "\n"

def warnings (v : View) (s : Snapshot) (e : Expr) : String :=
  if v.quiet then "" else String.join ((unknownNames s e).map (warning v.colors))

/-- The tree of a filter, for a talkative run. -/
def treeRemark (v : View) (e : Expr) : String :=
  if v.verbose && !v.json then "expression: " ++ e.render ++ "\n" else ""

def pageText (v : View) (filter : Option Expr) (page : PostPage) : String :=
  if v.json then Document.render filter page ++ "\n"
  else if v.quiet then ""
  else Table.render v.localOffset v.colors page

/-- Show a page of some posts, or why there is none. -/
def list (v : View) (s : Snapshot) (filter : Option Expr) (limit : Option Nat) (remarks : String)
    (found : Except StoreError IdSet) : Outcome :=
  match found with
  | .error e => .failure v.json remarks (.store e)
  | .ok ids => ⟨0, v.pageText filter (.collect s ids limit), remarks⟩

/-- List the posts that match a filter text. -/
def eval (v : View) (s : Snapshot) (text : String) (limit : Option Nat) : Outcome :=
  match parse text with
  | .error e => .failure v.json "" (.filter e)
  | .ok e => v.list s (some e) limit (v.treeRemark e ++ v.warnings s e) (e.resolve s.source)

/-- List the posts of the given authors. -/
def following (v : View) (s : Snapshot) (usernames : List String) (limit : Option Nat) : Outcome :=
  let filter := Expr.anyAuthor? usernames
  let remarks := match filter with
    | some e => v.warnings s e
    | none => ""
  v.list s filter limit remarks (resolveFollowing s.source usernames)

end View

end PostFilter
