import PostFilter.Toml.Number
import PostFilter.Toml.Table
import PostFilter.Toml.Time

/-!
# TOML documents

A document is a sequence of lines, each of which is an entry or a header or holds nothing. The
entries after a header belong to its table.
-/

namespace PostFilter.Toml

namespace Reader

def boolean : Reader Value :=
  (chars ['t', 'r', 'u', 'e'] *> pure (.boolean true)) <|>
    (chars ['f', 'a', 'l', 's', 'e'] *> pure (.boolean false))

def scalar : Reader Value :=
  (do pure (.string (← text))) <|> time <|> float <|> integer <|> boolean

/-- An array. A comma may follow the last item. -/
def array (item : Reader Value) : Reader Value := do
  char '['
  let items ← optional (separated ',' (do gap; let v ← item; gap; pure v))
  if items.isSome then discard (optional (char ','))
  gap
  char ']'
  pure (.array (items.getD []))

/-- A key and its value. -/
def entry (item : Reader Value) : Reader ((List String × String) × Value) := do
  let k ← key
  char '='
  blanks
  pure (k, ← item)

/-- A table in braces, on one line and without a comma after the last entry. -/
def bracedTable (item : Reader Value) : Reader Value := do
  char '{'
  let entries ← optional (separated ',' (do let e ← entry item; blanks; pure e))
  blanks
  char '}'
  match (entries.getD []).foldlM (fun es ((path, k), v) => Entries.enter? path k v es) [] with
  | some es => pure (.table .braced es)
  | none => failure

/-- A value with at most so many arrays and tables inside each other. -/
def value : Nat → Reader Value
  | 0 => scalar
  | n + 1 => array (value n) <|> bracedTable (value n) <|> scalar

end Reader

inductive Line where
  | entry (path : List String) (key : String) (value : Value)
  | header (path : List String) (key : String)
  | repeatedHeader (path : List String) (key : String)
  | empty
  deriving Repr

namespace Reader

def header : Reader Line := do
  char '['
  let (path, k) ← key
  char ']'
  pure (.header path k)

def repeatedHeader : Reader Line := do
  chars ['[', '[']
  let (path, k) ← key
  chars [']', ']']
  pure (.repeatedHeader path k)

def lineContent : Reader Line := do
  match ← next? with
  | none | some '#' | some '\n' | some '\r' => pure .empty
  | some '[' => repeatedHeader <|> header
  | some _ => do
    let ((path, k), v) ← entry (value maxNesting)
    pure (.entry path k v)

/-- The next line. There is none at the end of the text. -/
def line : Reader Line := do
  let some _ ← next? | failure
  blanks
  let l ← lineContent
  lineRest
  pure l

def lines : Reader (List Line) := do
  let ls ← many line
  atEnd
  pure ls

end Reader

/-- A document of which some lines are read, with the header that the next entry is under. -/
structure Draft where
  root : Entries
  header : List String
  deriving Repr

def Draft.add? (d : Draft) : Line → Option Draft
  | .entry path k v =>
    (d.root.under? d.header (Entries.enter? path k v)).map fun root => { d with root }
  | .header path k => (d.root.openTable? path k).map (⟨·, path ++ [k]⟩)
  | .repeatedHeader path k => (d.root.openItem? path k).map (⟨·, path ++ [k]⟩)
  | .empty => some d

/-- The top table of a document, which may begin with a byte order mark. -/
def parse? (document : String) : Option Entries := do
  let cs := match document.toList with
    | '\ufeff' :: cs => cs
    | cs => cs
  let (ls, _) ← Reader.lines cs
  let d ← ls.foldlM Draft.add? ⟨[], []⟩
  pure d.root

end PostFilter.Toml
