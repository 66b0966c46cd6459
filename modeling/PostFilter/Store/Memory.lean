import PostFilter.Snapshot.Basic
import PostFilter.Store.Lookup

/-!
# Snapshots as stores

A snapshot answers lookups at once and never fails to. Updates only append: users and posts go to
the end of their lists, and a tagged post goes to the end of the first tag with its label.
-/

namespace PostFilter.Snapshot

/-! ## Updates -/

def addUser (s : Snapshot) (u : User) : Snapshot :=
  { s with users := s.users ++ [u] }

def addPost (s : Snapshot) (p : Post) : Snapshot :=
  { s with posts := s.posts ++ [p] }

def tagIn (label : String) (key : PostKey) : List Tag → List Tag
  | [] => [⟨label, [key]⟩]
  | t :: ts =>
    if t.label = label then { t with keys := t.keys ++ [key] } :: ts
    else t :: tagIn label key ts

/-- Attach a post to a tag, which is created if there is none. -/
def tagPost (s : Snapshot) (label : String) (key : PostKey) : Snapshot :=
  { s with tags := tagIn label key s.tags }

/-! ## Queries -/

def findUser? (s : Snapshot) (username : String) : Option User :=
  s.users.find? (·.username == username)

def findPost? (s : Snapshot) (id : PostId) : Option Post :=
  s.posts.find? (·.id == id)

def findTag? (s : Snapshot) (label : String) : Option Tag :=
  s.tags.find? (·.label == label)

def usernames (s : Snapshot) : List String :=
  s.users.map (·.username)

def labels (s : Snapshot) : List String :=
  s.tags.map (·.label)

/-- The username of the post's author, if the author is known. -/
def authorOf? (s : Snapshot) (p : Post) : Option String :=
  (s.users.find? (·.id == p.authorId)).map (·.username)

/-! ## Lookups -/

def allKeys (s : Snapshot) : List PostKey :=
  s.posts.map fun p => .object p.id

/-- The posts of the first user with this name. -/
def authorKeys (s : Snapshot) (username : String) : List PostKey :=
  match s.findUser? username with
  | some u => (s.posts.filter (·.authorId == u.id)).map fun p => .object p.id
  | none => []

/-- The lookups of a store that holds its data in memory need no time and cannot fail. -/
def source (s : Snapshot) : Source where
  everything := ⟨0, .ok s.allKeys⟩
  author u := ⟨0, .ok (s.authorKeys u)⟩
  tag l := ⟨0, .ok (s.findTag? l)⟩

end PostFilter.Snapshot
