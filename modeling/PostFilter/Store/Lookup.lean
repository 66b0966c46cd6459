import PostFilter.Post.IdSet
import PostFilter.Snapshot.Basic

/-!
# Lookups

A store answers three kinds of lookups, each after some time. A tag may be absent, and is then
treated like a tag without posts.
-/

namespace PostFilter

inductive Lookup where
  | everything
  | author (username : String)
  | tag (label : String)
  deriving DecidableEq, Repr

/-- How a lookup ends, and how long it takes. A reply without delay is there at once. -/
structure Reply (α : Type) where
  delay : Nat
  answer : Except StoreError α

/-- What a store replies to each lookup. -/
structure Source where
  everything : Reply (List PostKey)
  author (username : String) : Reply (List PostKey)
  tag (label : String) : Reply (Option Tag)

namespace Source

def delay (source : Source) : Lookup → Nat
  | .everything => source.everything.delay
  | .author u => (source.author u).delay
  | .tag l => (source.tag l).delay

/-- The keys that a lookup brings. An absent tag has none. -/
def keys (source : Source) : Lookup → Except StoreError (List PostKey)
  | .everything => source.everything.answer
  | .author u => (source.author u).answer
  | .tag l => (source.tag l).answer.map fun tag? => (tag?.map (·.keys)).getD []

/-- The posts that a lookup brings. A key that stands for no post makes it fail when it returns. -/
def found (source : Source) (l : Lookup) : Except StoreError IdSet :=
  (source.keys l).bind IdSet.ofKeys

end Source

end PostFilter
