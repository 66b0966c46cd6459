import PostFilter.Text.EditDistance
import PostFilter.Text.Lowercase

/-!
# Similar names

The candidate nearest to a name, letter case aside, if it is near enough to be meant.
-/

namespace PostFilter

/-- How many edits a suggestion may be away. -/
def maxSuggestionDistance : Nat := 3

/-- The distance of two names in lowercase. -/
def nameDistance (a b : String) : Nat :=
  Text.editDistance (Text.lowercase a.toList) (Text.lowercase b.toList)

/-- A nonempty name other than the one that is looked for. -/
def isEligible (query candidate : String) : Bool :=
  candidate != "" && candidate != query

/-- The first of the elements with the least weight, and that weight. -/
def leastBy {α : Type} (weight : α → Nat) : List α → Option (α × Nat)
  | [] => none
  | a :: as =>
    match leastBy weight as with
    | none => some (a, weight a)
    | some (b, w) => if weight a ≤ w then some (a, weight a) else some (b, w)

def similarName? (query : String) (candidates : List String) : Option String :=
  match leastBy (nameDistance query) (candidates.filter (isEligible query)) with
  | some (name, d) => if d ≤ maxSuggestionDistance then some name else none
  | none => none

end PostFilter
