import PostFilter.Post.Id
import PostFilter.Store.Error

/-!
# Post keys

Stores name a post either by a structured identifier or by plain text. Both forms normalize to the
identifier, which is what set operations compare.
-/

namespace PostFilter

inductive PostKey where
  | object (id : PostId)
  | text (s : String)
  deriving DecidableEq, Repr

/-- The identifier a key stands for. Text that is not an identifier is an error. -/
def PostKey.normalize : PostKey → Except StoreError PostId
  | .object id => .ok id
  | .text s =>
    match PostId.ofHex? s with
    | some id => .ok id
    | none => .error (.invalidPostId s)

end PostFilter
