import PostFilter.Store.Memory

/-!
# Pages of posts

Matched identifiers are joined with what the snapshot knows about them and listed newest first.
Posts without a time come last, and ties go by descending identifier.
-/

namespace PostFilter

/-- A matched post. A tag may name posts that the snapshot does not hold, so all but the identifier
may be missing. -/
structure PostRow where
  id : PostId
  author : Option String
  content : Option String
  createdAt : Option Instant
  deriving DecidableEq, Repr

namespace PostRow

def ofId (s : Snapshot) (id : PostId) : PostRow :=
  match s.findPost? id with
  | some p => ⟨id, s.authorOf? p, some p.content, p.createdAt⟩
  | none => ⟨id, none, none, none⟩

/-- Is the first row listed before the second? -/
def precedes (a b : PostRow) : Bool :=
  match a.createdAt, b.createdAt with
  | some s, some t =>
    if t.rank < s.rank then true
    else if s.rank < t.rank then false
    else b.id < a.id
  | some _, none => true
  | none, some _ => false
  | none, none => b.id < a.id

end PostRow

/-- The rows that are shown, and how many posts matched. -/
structure PostPage where
  rows : List PostRow
  total : Nat
  deriving DecidableEq, Repr

namespace PostPage

/-- Did a limit leave out some matches? -/
def truncated (p : PostPage) : Bool :=
  p.rows.length < p.total

/-- All rows in the order in which they are listed. -/
def allRows (s : Snapshot) (ids : IdSet) : List PostRow :=
  (ids.toList.map (PostRow.ofId s)).mergeSort fun a b => !b.precedes a

/-- The first rows, at most `limit` of them if there is a limit. -/
def collect (s : Snapshot) (ids : IdSet) (limit : Option Nat) : PostPage where
  rows := match limit with
    | some n => (allRows s ids).take n
    | none => allRows s ids
  total := ids.size

end PostPage

end PostFilter
