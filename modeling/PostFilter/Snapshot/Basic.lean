import PostFilter.Post.Key
import PostFilter.Time.Instant

/-!
# Snapshots

Users, posts and tags. Nothing forces identifiers, usernames or labels to be distinct; whoever
looks something up takes the first match.
-/

namespace PostFilter

structure User where
  id : String
  username : String
  deriving DecidableEq, Repr

structure Post where
  id : PostId
  authorId : String
  content : String
  createdAt : Option Instant
  deriving DecidableEq, Repr

/-- A tag and the posts that carry it, each key in the form in which it was recorded. -/
structure Tag where
  label : String
  keys : List PostKey
  deriving DecidableEq, Repr

structure Snapshot where
  users : List User
  posts : List Post
  tags : List Tag
  deriving DecidableEq, Repr

def Snapshot.empty : Snapshot := ⟨[], [], []⟩

end PostFilter
