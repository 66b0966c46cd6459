import PostFilter.Filter.Evaluation
import PostFilter.Json.Printer
import PostFilter.Json.Reader
import PostFilter.Json.Record
import PostFilter.Saved.Uuid

/-!
# Saved filters

A saved filter is a named filter text that belongs to a user. Names and texts are checked when a
filter is made or changed, and not when one is loaded. The text is parsed whenever it is used.
-/

namespace PostFilter

structure SavedFilter where
  id : Uuid
  owner : String
  name : String
  expression : String
  deriving DecidableEq, Repr

namespace FilterError

def message : FilterError → String
  | malformed e => e.message
  | store e => e.message
  | invalidName n =>
    "filter name '" ++ n ++ "' must be a nonempty alphanumeric string"

end FilterError

namespace SavedFilter

def checkName (name : String) : Except FilterError Unit :=
  if isName name then .ok () else .error (.invalidName name)

def checkExpression (expression : String) : Except FilterError Unit :=
  match parse expression with
  | .ok _ => .ok ()
  | .error e => .error (.malformed e)

/-- A field that is not given needs no check. -/
def checkGiven (check : String → Except FilterError Unit) : Option String → Except FilterError Unit
  | none => .ok ()
  | some s => check s

/-- Make a filter. The name is checked before the text. -/
def create (id : Uuid) (owner name expression : String) : Except FilterError SavedFilter := do
  checkName name
  checkExpression expression
  pure ⟨id, owner, name, expression⟩

/-- Change the given fields, all of them or none. -/
def update (f : SavedFilter) (name expression : Option String) :
    Except FilterError SavedFilter := do
  checkGiven checkName name
  checkGiven checkExpression expression
  pure { f with name := name.getD f.name, expression := expression.getD f.expression }

def compile (f : SavedFilter) : Except SyntaxError Expr :=
  parse f.expression

def resolve (source : Source) (f : SavedFilter) : Except FilterError IdSet :=
  resolveFilter source f.expression

/-! ## Documents -/

def toJson (f : SavedFilter) : Json :=
  .object [("id", .string f.id.toString), ("owner", .string f.owner), ("name", .string f.name),
    ("expression", .string f.expression)]

def ofJson? (j : Json) : Option SavedFilter := do
  match ← Json.slots? ["id", "owner", "name", "expression"] j with
  | [some id, some owner, some name, some expression] =>
    pure ⟨← Uuid.ofString? (← id.string?), ← owner.string?, ← name.string?,
      ← expression.string?⟩
  | _ => none

def encode (f : SavedFilter) : String :=
  f.toJson.compact

def decode? (document : String) : Option SavedFilter :=
  (Json.parse? document).bind ofJson?

end SavedFilter

end PostFilter
