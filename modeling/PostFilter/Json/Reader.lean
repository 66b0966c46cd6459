import PostFilter.Json.Token

/-!
# Reading JSON

The tokens of a text are read one by one with a stack of the arrays and objects that are still
open. Depth is not limited.
-/

namespace PostFilter.Json

namespace Reader

/-- An array or object under construction, its parts newest first. -/
inductive Frame where
  | array (done : List Json)
  | object (done : List (Option String × Json)) (key : Option String)

/-- What has been read, named for what may follow. -/
inductive State where
  /-- A value. -/
  | value (stack : List Frame)
  /-- A value or the end of the array just opened. -/
  | arrayStart (stack : List Frame)
  /-- A key or the end of the object just opened. -/
  | objectStart (stack : List Frame)
  /-- A key. -/
  | key (done : List (Option String × Json)) (stack : List Frame)
  /-- A colon. -/
  | colon (done : List (Option String × Json)) (key : Option String) (stack : List Frame)
  /-- The end of the enclosing array or object, or a comma. -/
  | after (v : Json) (stack : List Frame)

/-- The object with the given fields. A key that denotes no text leaves the object without
meaning. -/
def close (fields : List (Option String × Json)) : Json :=
  match fields.mapM fun (k, v) => k.map (·, v) with
  | some fs => .object fs
  | none => .meaningless

def value? (stack : List Frame) : Token → Option State
  | .scalar v => some (.after v stack)
  | .text (some s) => some (.after (.string s) stack)
  | .text none => some (.after .meaningless stack)
  | .openArray => some (.arrayStart stack)
  | .openObject => some (.objectStart stack)
  | _ => none

def step? : State → Token → Option State
  | .value stack, t => value? stack t
  | .arrayStart stack, .closeArray => some (.after (.array []) stack)
  | .arrayStart stack, t => value? (.array [] :: stack) t
  | .objectStart stack, .closeObject => some (.after (.object []) stack)
  | .objectStart stack, .text k => some (.colon [] k stack)
  | .objectStart _, _ => none
  | .key done stack, .text k => some (.colon done k stack)
  | .key _ _, _ => none
  | .colon done k stack, .colon => some (.value (.object done k :: stack))
  | .colon _ _ _, _ => none
  | .after v (.array done :: stack), .comma => some (.value (.array (v :: done) :: stack))
  | .after v (.array done :: stack), .closeArray =>
    some (.after (.array (v :: done).reverse) stack)
  | .after v (.object done k :: stack), .comma => some (.key ((k, v) :: done) stack)
  | .after v (.object done k :: stack), .closeObject =>
    some (.after (close ((k, v) :: done).reverse) stack)
  | .after _ _, _ => none

def run? : State → List Token → Option State
  | s, [] => some s
  | s, t :: ts =>
    match step? s t with
    | some s' => run? s' ts
    | none => none

/-- The one value that a sequence of tokens spells. -/
def read? (ts : List Token) : Option Json :=
  match run? (.value []) ts with
  | some (.after v []) => some v
  | _ => none

end Reader

/-- The value that a text spells, with nothing but blanks around it. -/
def parse? (s : String) : Option Json :=
  match Lexer.tokens? s.toList with
  | some ts => Reader.read? ts
  | none => none

end PostFilter.Json
