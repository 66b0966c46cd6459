import PostFilter.Json.Printer
import PostFilter.Json.Reader
import PostFilter.Json.Record
import PostFilter.Snapshot.Basic

/-!
# Snapshot documents

Snapshots are stored as JSON. Encoding writes the fields in a fixed order and leaves out a missing
timestamp. Decoding accepts any order and the array form of a record.
-/

namespace PostFilter

/-- How many arrays and objects may be nested where a value has to be understood. -/
def maxNesting : Nat := 127

namespace PostId

def toJson (x : PostId) : Json :=
  .string x.hex

def ofJson? (j : Json) : Option PostId :=
  j.string?.bind ofHex?

end PostId

namespace PostKey

def toJson : PostKey → Json
  | .object id => .object [("$oid", id.toJson)]
  | .text s => .string s

/-- Decode a key that stands inside `around` arrays and objects. The array form is refused. -/
def ofJson? (around : Nat) : Json → Option PostKey
  | .string s => some (.text s)
  | .object fs =>
    if Json.isMeaningful (.object fs) && Json.nesting (.object fs) + around ≤ maxNesting then
      match Json.field? "$oid" fs with
      | some (some j) => (PostId.ofJson? j).map .object
      | _ => none
    else none
  | _ => none

end PostKey

namespace User

def toJson (u : User) : Json :=
  .object [("id", .string u.id), ("username", .string u.username)]

def ofJson? (j : Json) : Option User := do
  match ← Json.slots? ["id", "username"] j with
  | [some id, some username] => pure ⟨← id.string?, ← username.string?⟩
  | _ => none

end User

namespace Instant

/-- A timestamp that may be null. -/
def ofJson? : Json → Option (Option Instant)
  | .null => some none
  | .string s => (ofString? s).map some
  | _ => none

end Instant

namespace Post

def toJson (p : Post) : Json :=
  .object ([("id", p.id.toJson), ("author_id", .string p.authorId),
    ("content", .string p.content)] ++
    (p.createdAt.map fun t => ("created_at", Json.string t.stored)).toList)

def ofJson? (j : Json) : Option Post := do
  match ← Json.slots? ["id", "author_id", "content", "created_at"] j with
  | [some id, some author, some content, created] =>
    pure ⟨← PostId.ofJson? id, ← author.string?, ← content.string?,
      ← Json.optionalSlot? none Instant.ofJson? created⟩
  | _ => none

end Post

namespace Tag

def toJson (t : Tag) : Json :=
  .object [("label", .string t.label), ("post_ids", .array (t.keys.map PostKey.toJson))]

def ofJson? (j : Json) : Option Tag := do
  match ← Json.slots? ["label", "post_ids"] j with
  | [some label, keys] =>
    pure ⟨← label.string?, ← Json.optionalSlot? [] (Json.listOf? (PostKey.ofJson? 4)) keys⟩
  | _ => none

end Tag

namespace Snapshot

def toJson (s : Snapshot) : Json :=
  .object [("users", .array (s.users.map User.toJson)),
    ("posts", .array (s.posts.map Post.toJson)), ("tags", .array (s.tags.map Tag.toJson))]

def ofJson? (j : Json) : Option Snapshot := do
  match ← Json.slots? ["users", "posts", "tags"] j with
  | [users, posts, tags] =>
    pure ⟨← Json.optionalSlot? [] (Json.listOf? User.ofJson?) users,
      ← Json.optionalSlot? [] (Json.listOf? Post.ofJson?) posts,
      ← Json.optionalSlot? [] (Json.listOf? Tag.ofJson?) tags⟩
  | _ => none

/-- The snapshot as a compact document. -/
def encode (s : Snapshot) : String :=
  s.toJson.compact

/-- The snapshot in a document, where `fault` says what is wrong with one that is malformed. -/
def decode (fault : String → String) (document : String) : Except StoreError Snapshot :=
  match (Json.parse? document).bind ofJson? with
  | some s => .ok s
  | none => .error (.malformed (fault document))

end Snapshot

end PostFilter
