import Mathlib
import PostFilter.Proofs.Documents
import PostFilter.Proofs.Timestamps
import PostFilter.Snapshot.Codec

/-!
# Snapshots are read back

Every snapshot is decoded from the document that it is encoded as, down to the form of each key.
What a document says is therefore kept when it is written anew, and written once more it does not
change.
-/

namespace PostFilter

/-- What is encoded can be printed and read back, and decodes to what it was. -/
structure Json.Faithful {α : Type} (encode : α → Json) (decode : Json → Option α) : Prop where
  printable : ∀ x, (encode x).Printable
  decodes : ∀ x, decode (encode x) = some x

namespace Json.Faithful

variable {α : Type} {encode : α → Json} {decode : Json → Option α}

theorem list (h : Faithful encode decode) :
    Faithful (fun xs => .array (xs.map encode)) (listOf? decode) where
  printable xs := by
    refine .array fun j hj => ?_
    obtain ⟨x, -, rfl⟩ := List.mem_map.mp hj
    exact h.printable x
  decodes := mapM_map_eq_some h.decodes

end Json.Faithful

open Json (Faithful Printable)

/-! ## Records -/

theorem PostId.faithful : Faithful PostId.toJson PostId.ofJson? where
  printable x := .string x.hex
  decodes := ofHex?_hex

/-- A text is kept as such, also if it is an identifier. -/
theorem PostKey.faithful : Faithful PostKey.toJson (PostKey.ofJson? 4) where
  printable
    | .object id => .object (by simpa using PostId.faithful.printable id)
    | .text s => .string s
  decodes
    | .object id => by
      have hmeaningful : Json.isMeaningful (.object [("$oid", id.toJson)]) = true := rfl
      have hnesting : Json.nesting (.object [("$oid", id.toJson)]) = 1 := rfl
      have hfield : Json.field? "$oid" [("$oid", id.toJson)] = some (some id.toJson) := rfl
      simp [toJson, ofJson?, hmeaningful, hnesting, hfield, maxNesting, PostId.faithful.decodes]
    | .text s => rfl

theorem User.faithful : Faithful User.toJson User.ofJson? where
  printable u := .object (by simp [Printable.string])
  decodes u := rfl

/-- A missing timestamp is left out, and what is left out is missing. -/
theorem Instant.optionalSlot?_stored (t? : Option Instant) :
    Json.optionalSlot? none ofJson? (t?.map fun t => .string t.stored) = some t? := by
  cases t? with
  | none => rfl
  | some t => simp [Json.optionalSlot?, ofJson?, ofString?_stored]

theorem Post.faithful : Faithful Post.toJson Post.ofJson? where
  printable p := .object (by
    cases p.createdAt <;> simp [Printable.string, PostId.faithful.printable p.id])
  decodes p := by
    have hslots : Json.slots? ["id", "author_id", "content", "created_at"] p.toJson =
        some [some p.id.toJson, some (.string p.authorId), some (.string p.content),
          p.createdAt.map fun t => .string t.stored] := by
      obtain ⟨id, author, content, created⟩ := p
      cases created <;> rfl
    rw [ofJson?, hslots]
    simp [PostId.faithful.decodes p.id, Json.string?, Instant.optionalSlot?_stored p.createdAt]

theorem Tag.faithful : Faithful Tag.toJson Tag.ofJson? where
  printable t := .object (by simp [Printable.string, PostKey.faithful.list.printable t.keys])
  decodes t := by
    have hslots : Json.slots? ["label", "post_ids"] t.toJson =
        some [some (.string t.label), some (.array (t.keys.map PostKey.toJson))] := rfl
    rw [ofJson?, hslots]
    simp [Json.string?, Json.optionalSlot?, PostKey.faithful.list.decodes t.keys]

theorem Snapshot.faithful : Faithful Snapshot.toJson Snapshot.ofJson? where
  printable s := .object (by
    simp [User.faithful.list.printable s.users, Post.faithful.list.printable s.posts,
      Tag.faithful.list.printable s.tags])
  decodes s := by
    have hslots : Json.slots? ["users", "posts", "tags"] s.toJson =
        some [some (.array (s.users.map User.toJson)), some (.array (s.posts.map Post.toJson)),
          some (.array (s.tags.map Tag.toJson))] := rfl
    rw [ofJson?, hslots]
    simp [Json.optionalSlot?, User.faithful.list.decodes s.users,
      Post.faithful.list.decodes s.posts, Tag.faithful.list.decodes s.tags]

/-! ## Documents -/

namespace Snapshot

theorem decode_encode (fault : String → String) (s : Snapshot) :
    decode fault s.encode = .ok s := by
  rw [decode, encode, Json.parse?_compact (faithful.printable s), Option.bind_some,
    faithful.decodes s]

/-- A document anew, as the snapshot in it is encoded. -/
def rewrite (fault : String → String) (document : String) : Except StoreError String :=
  (decode fault document).map encode

/-- Every snapshot comes back from its document. A document that is decoded at all can be written
anew without loss, and then it is as it stays. -/
theorem decode_encode_stable (fault : String → String) :
    (∀ s : Snapshot, decode fault s.encode = .ok s) ∧
      ∀ d s, decode fault d = .ok s →
        ∃ d', rewrite fault d = .ok d' ∧ decode fault d' = .ok s ∧ rewrite fault d' = .ok d' := by
  refine ⟨decode_encode fault, fun d s hd => ⟨s.encode, ?_, decode_encode fault s, ?_⟩⟩
  · rw [rewrite, hd, Except.map]
  · rw [rewrite, decode_encode, Except.map]

/-- Records as arrays, an unknown key, both forms of a key, and a leap second on a clock that is
ahead. -/
def leapDocument : String :=
  "\x7b\"tags\": [[\"t\", [\x7b\"$oid\": \"0A0A0A0A0A0A0A0A0a0a0a0a\"\x7d, \"0A\"]]], " ++
  "\"next\": 1e9, \"posts\": [[\"0A0A0A0A0A0A0A0A0a0a0a0a\", \"1\", \"\\ud83d\\ude00\", " ++
  "\"2017-1-1 08:59:60.50 +0900\"]]\x7d"

def leapSnapshot : Snapshot where
  users := []
  posts := [⟨⟨List.replicate 12 10, rfl⟩, "1", "😀",
    (Date.ofParts? 2016 12 31).bind (Instant.ofParts? · 86399 1500000000)⟩]
  tags := [⟨"t", [.object ⟨List.replicate 12 10, rfl⟩, .text "0A"]⟩]

theorem decode_encode_stable_leap :
    decode id leapDocument = .ok leapSnapshot ∧
      ∃ d', rewrite id leapDocument = .ok d' ∧ decode id d' = .ok leapSnapshot ∧
        rewrite id d' = .ok d' := by
  have hread : (Json.parse? leapDocument).bind ofJson? = some leapSnapshot := by decide +kernel
  have hdecode : decode id leapDocument = .ok leapSnapshot := by rw [decode, hread]
  exact ⟨hdecode, (decode_encode_stable id).2 leapDocument leapSnapshot hdecode⟩

end Snapshot

end PostFilter
