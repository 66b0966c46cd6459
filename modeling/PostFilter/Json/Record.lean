import PostFilter.Json.Basic

/-!
# Records in JSON

A record with named fields is written as an object, or as an array of its fields in order. In an
object unknown keys are ignored, and a known key that comes twice is an error. In an array the last
fields may be absent, and there are no fields beyond the known ones.
-/

namespace PostFilter.Json

/-- The value of the field `name`, or none within if there is no such field. -/
def field? (name : String) (fields : List (String × Json)) : Option (Option Json) :=
  match fields.filter (·.1 == name) with
  | [] => some none
  | [(_, v)] => some (some v)
  | _ => none

/-- The values of the named fields in order, absent ones as none. -/
def slots? (names : List String) : Json → Option (List (Option Json))
  | .object fs => names.mapM (field? · fs)
  | .array xs =>
    if xs.length ≤ names.length then
      some (xs.map some ++ List.replicate (names.length - xs.length) none)
    else none
  | _ => none

def string? : Json → Option String
  | .string s => some s
  | _ => none

/-- The items of an array, each decoded. -/
def listOf? {α : Type} (decode : Json → Option α) : Json → Option (List α)
  | .array xs => xs.mapM decode
  | _ => none

/-- A field that may be absent and then has a default. -/
def optionalSlot? {α : Type} (default : α) (decode : Json → Option α) :
    Option Json → Option α
  | none => some default
  | some j => decode j

end PostFilter.Json
