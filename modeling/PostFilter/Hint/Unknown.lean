import PostFilter.Filter.Expr
import PostFilter.Hint.Similar
import PostFilter.Store.Memory

/-!
# Unknown names

The names in a filter that a snapshot does not know, each with the nearest name it does know.
-/

namespace PostFilter

namespace Expr.Leaf

def kind : Leaf → String
  | author _ => "user"
  | tag _ => "tag"

def name : Leaf → String
  | author u => u
  | tag l => l

/-- The names of the same kind that a snapshot knows. -/
def candidates (s : Snapshot) : Leaf → List String
  | author _ => s.usernames
  | tag _ => s.labels

end Expr.Leaf

structure UnknownName where
  leaf : Expr.Leaf
  suggestion : Option String
  deriving DecidableEq, Repr

namespace UnknownName

def message (u : UnknownName) : String :=
  let missing := "no " ++ u.leaf.kind ++ " named '" ++ u.leaf.name ++ "'"
  match u.suggestion with
  | some s => missing ++ " (did you mean '" ++ s ++ "'?)"
  | none => missing

end UnknownName

/-- The leaves of the list that a snapshot does not know, without those in `seen` and without
repetitions. -/
def unknownLeaves (s : Snapshot) (seen : List Expr.Leaf) : List Expr.Leaf → List Expr.Leaf
  | [] => []
  | l :: ls =>
    if l.name ∈ l.candidates s ∨ l ∈ seen then unknownLeaves s seen ls
    else l :: unknownLeaves s (l :: seen) ls

/-- The unknown names of a filter from left to right, each once. -/
def unknownNames (s : Snapshot) (e : Expr) : List UnknownName :=
  (unknownLeaves s [] e.leaves).map fun l => ⟨l, similarName? l.name (l.candidates s)⟩

end PostFilter
