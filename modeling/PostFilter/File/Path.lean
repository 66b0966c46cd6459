/-!
# Paths

A path is a text in which slashes separate names. Two slashes in a row have an empty name between
them, which leads nowhere else, like the name of a single dot.
-/

namespace PostFilter.Path

/-- The path of a name in a directory. -/
def join (directory name : String) : String :=
  if directory.isEmpty || directory.toList.getLast? == some '/' then directory ++ name
  else directory ++ "/" ++ name

def isAbsolute (path : String) : Bool :=
  path.toList.head? == some '/'

def splitAtSlashes : List Char → List (List Char)
  | [] => [[]]
  | c :: cs =>
    if c = '/' then [] :: splitAtSlashes cs
    else
      match splitAtSlashes cs with
      | [] => [[c]]
      | name :: names => (c :: name) :: names

/-- The names between slashes, empty ones included. -/
def names (path : String) : List String :=
  (splitAtSlashes path.toList).map String.ofList

/-- The paths to the names that lead elsewhere, the last name first, where the names are given from
the last to the first. A dot counts only in front of a relative path. -/
def stages : List String → List String
  | [] => []
  | name :: up =>
    if name = "" ∨ (name = "." ∧ !up.isEmpty) then stages up
    else "/".intercalate (name :: up).reverse :: stages up

/-- The paths of the directories that hold the last name of a path, the nearest first. -/
def parents (path : String) : List String :=
  (stages (names path).reverse).tail

end PostFilter.Path
