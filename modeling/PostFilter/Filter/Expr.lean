import PostFilter.Filter.Name

/-!
# Filter expressions

A filter is a tree of set operations over two kinds of leaves: the posts of one author and the
posts that carry one tag. This module holds the tree, its two printed forms, its measures, and the
balanced disjunction of a list of authors.
-/

namespace PostFilter

inductive Expr where
  | author (username : String)
  | tag (label : String)
  | not (operand : Expr)
  | and (left right : Expr)
  | or (left right : Expr)
  deriving DecidableEq, Repr

namespace Expr

/-- The name of the outermost construction. -/
def kind : Expr → String
  | author _ => "Author"
  | tag _ => "Tag"
  | not _ => "Not"
  | and _ _ => "And"
  | or _ _ => "Or"

/-- The tree form, such as `And(Author(alice),Tag(dog))`, for people to read. -/
def treeChars : Expr → List Char
  | author u => "Author(".toList ++ u.toList ++ [')']
  | tag l => "Tag(".toList ++ l.toList ++ [')']
  | not e => "Not(".toList ++ treeChars e ++ [')']
  | and a b => "And(".toList ++ treeChars a ++ ',' :: treeChars b ++ [')']
  | or a b => "Or(".toList ++ treeChars a ++ ',' :: treeChars b ++ [')']

def render (e : Expr) : String :=
  String.ofList e.treeChars

/-- The filter notation, such as `&(@alice,#dog)`, which parses back. -/
def filterChars : Expr → List Char
  | author u => '@' :: u.toList
  | tag l => '#' :: l.toList
  | not e => '!' :: '(' :: (filterChars e ++ [')'])
  | and a b => '&' :: '(' :: (filterChars a ++ ',' :: (filterChars b ++ [')']))
  | or a b => '|' :: '(' :: (filterChars a ++ ',' :: (filterChars b ++ [')']))

def filterText (e : Expr) : String :=
  String.ofList e.filterChars

/-- How deep operators are nested. A leaf has depth zero. -/
def depth : Expr → Nat
  | author _ | tag _ => 0
  | not e => e.depth + 1
  | and a b | or a b => max a.depth b.depth + 1

/-- A leaf of the tree, with its name. -/
inductive Leaf where
  | author (username : String)
  | tag (label : String)
  deriving DecidableEq, Repr

/-- The leaves from left to right, with repetitions. -/
def leaves : Expr → List Leaf
  | author u => [.author u]
  | tag l => [.tag l]
  | not e => e.leaves
  | and a b | or a b => a.leaves ++ b.leaves

/-- Every name in the tree can be written in filter notation. -/
def NamesValid : Expr → Prop
  | author n | tag n => isName n = true
  | not e => e.NamesValid
  | and a b | or a b => a.NamesValid ∧ b.NamesValid

/-- Join neighbours in pairs; an odd one at the end stays alone. -/
def pairUp : List Expr → List Expr
  | a :: b :: es => or a b :: pairUp es
  | es => es

theorem length_pairUp_le (es : List Expr) : (pairUp es).length ≤ es.length := by
  fun_induction pairUp es with
  | case1 a b es ih => simp only [List.length_cons]; omega
  | case2 es _ => exact Nat.le_refl _

/-- Pair up neighbours level by level until one tree is left. -/
def disjunction? : List Expr → Option Expr
  | [] => none
  | [e] => some e
  | a :: b :: es => disjunction? (or a b :: pairUp es)
termination_by es => es.length
decreasing_by
  have := length_pairUp_le es
  simp only [List.length_cons]
  omega

/-- Posts by any of the given authors. There is no filter for an empty list, since no filter
matches nothing. -/
def anyAuthor? (usernames : List String) : Option Expr :=
  disjunction? (usernames.map author)

end Expr

end PostFilter
