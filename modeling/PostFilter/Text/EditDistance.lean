/-!
# Edit distance

The least number of insertions, deletions and substitutions of single characters that turn one text
into another. Distances are computed row by row: a row holds the distances of every suffix of `xs`
from one text, longest suffix first.
-/

namespace PostFilter.Text

/-- The distances of the suffixes of `xs` from the empty text. -/
def firstRow : List Char → List Nat
  | [] => [0]
  | x :: xs => (x :: xs).length :: firstRow xs

/-- The row for `y :: ys` from the row for `ys`. -/
def nextRow (y : Char) : List Char → List Nat → List Nat
  | [], row => [row.headD 0 + 1]
  | x :: xs, row =>
    let shorter := nextRow y xs row.tail
    let deleted := shorter.headD 0 + 1
    let inserted := row.headD 0 + 1
    let kept := row.tail.headD 0 + if x = y then 0 else 1
    min deleted (min inserted kept) :: shorter

def editDistance (xs ys : List Char) : Nat :=
  (ys.foldr (fun y row => nextRow y xs row) (firstRow xs)).headD 0

end PostFilter.Text
