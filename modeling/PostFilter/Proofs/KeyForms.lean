import PostFilter.Proofs.MalformedKeys
import PostFilter.Proofs.PostIdTexts

/-!
# The forms of keys

A key in either form and with letters of either case stands for one identifier. What a list of keys
is read as depends on the identifiers they stand for and on nothing else, neither their order, nor
how often they come, nor their forms. So the keys of a snapshot may be written in the other form,
and every filter gives the same result.
-/

namespace PostFilter

variable {k k' : PostKey} {keys keys' : List PostKey} {x : PostId} {t t' : Tag}

/-! ## Keys -/

namespace PostId

/-- Texts that differ in the case of letters only are read alike. -/
theorem ofHex?_eq_some_iff_hex {s : String} : ofHex? s = some x ↔ x.hex = s.map Char.toLower := by
  refine ⟨hex_of_ofHex?, fun h => ?_⟩
  have hchars : x.hexChars = s.toList.map Char.toLower := by
    rw [← String.toList_map, ← h, hex, String.toList_ofList]
  obtain ⟨hlength, hdigits⟩ := Hex.digits_chars x.bytes
  have htext : IsText s := by
    refine ⟨?_, fun c hc => Hex.isDigit_of_toLower (hdigits _ ?_)⟩
    · have hsame : x.hexChars.length = s.toList.length := by rw [hchars, List.length_map]
      rw [← hsame, hexChars, hlength, x.length_bytes]
    · change c.toLower ∈ x.hexChars
      rw [hchars]
      exact List.mem_map_of_mem hc
  obtain ⟨y, hy⟩ := isText_iff.mp htext
  have hsame : ofHex? x.hex = ofHex? y.hex := by rw [h, hex_of_ofHex? hy]
  rw [ofHex?_hex, ofHex?_hex] at hsame
  rw [hy, hsame]

end PostId

namespace PostKey

/-- The key holds the identifier, or it is the text of it with letters of either case. -/
def Denotes : PostKey → PostId → Prop
  | object y, x => y = x
  | text s, x => x.hex = s.map Char.toLower

theorem normalize_eq_ok_iff : k.normalize = .ok x ↔ k.Denotes x := by
  cases k with
  | object y => simp [normalize, Denotes]
  | text s =>
    rw [Denotes, ← PostId.ofHex?_eq_some_iff_hex]
    cases h : PostId.ofHex? s <;> simp [normalize, h]

/-- The keys are the same, or they stand for one identifier. -/
def Alike (k k' : PostKey) : Prop :=
  k = k' ∨ ∃ x, k.Denotes x ∧ k'.Denotes x

theorem Alike.normalize_eq (h : k.Alike k') : k'.normalize = k.normalize := by
  rcases h with rfl | ⟨x, hk, hk'⟩
  · rfl
  · rw [normalize_eq_ok_iff.mpr hk, normalize_eq_ok_iff.mpr hk']

/-- A text that is an identifier is replaced by the identifier. -/
def asObject : PostKey → PostKey
  | object x => object x
  | text s => ((PostId.ofHex? s).map object).getD (text s)

/-- An identifier is replaced by its text. -/
def asText : PostKey → PostKey
  | object x => text x.hex
  | text s => text s

theorem alike_asObject (k : PostKey) : k.Alike k.asObject := by
  cases k with
  | object x => exact .inl rfl
  | text s =>
    cases h : PostId.ofHex? s with
    | none => simp [asObject, h, Alike]
    | some x =>
      refine .inr ⟨x, PostId.ofHex?_eq_some_iff_hex.mp h, ?_⟩
      simp [asObject, h, Denotes]

theorem alike_asText (k : PostKey) : k.Alike k.asText := by
  cases k with
  | object x => exact .inr ⟨x, rfl, PostId.ofHex?_eq_some_iff_hex.mp (PostId.ofHex?_hex x)⟩
  | text s => exact .inl rfl

end PostKey

namespace IdSet

theorem ofKeys_congr (h : List.Forall₂ PostKey.Alike keys keys') : ofKeys keys' = ofKeys keys := by
  induction h with
  | nil => rfl
  | cons hk _ ih => rw [ofKeys_cons, ofKeys_cons, hk.normalize_eq, ih]

theorem mem_of_ofKeys_denotes {s : IdSet} (h : ofKeys keys = .ok s) :
    x ∈ s ↔ ∃ k ∈ keys, k.Denotes x := by
  simp only [(mem_of_ofKeys h).2, PostKey.normalize_eq_ok_iff]

/-- Keys that stand for the same identifiers give the same set. -/
theorem ofKeys_eq_of_denotes {s : IdSet} (h : ofKeys keys = .ok s)
    (htexts : ∀ text, .text text ∈ keys' → PostId.IsText text)
    (hsame : ∀ x, (∃ k ∈ keys', k.Denotes x) ↔ ∃ k ∈ keys, k.Denotes x) :
    ofKeys keys' = .ok s := by
  cases h' : ofKeys keys' with
  | ok s' =>
    refine congrArg Except.ok (ext fun x => ?_)
    rw [mem_of_ofKeys_denotes h', hsame, mem_of_ofKeys_denotes h]
  | error err =>
    obtain ⟨text, hmem, htext⟩ := exists_ofKeys_eq_error_iff.mp ⟨err, h'⟩
    exact absurd (htexts text hmem) htext

end IdSet

/-! ## Snapshots -/

/-- The tags differ at most in how their keys are written. -/
structure Tag.Alike (t t' : Tag) : Prop where
  label : t'.label = t.label
  keys : List.Forall₂ PostKey.Alike t.keys t'.keys

namespace Snapshot

variable {s s' : Snapshot}

/-- The snapshots differ at most in how the keys of tags are written. -/
structure Alike (s s' : Snapshot) : Prop where
  users : s'.users = s.users
  posts : s'.posts = s.posts
  tags : List.Forall₂ Tag.Alike s.tags s'.tags

/-- Write every key of a tag in another way. -/
def mapKeys (f : PostKey → PostKey) (s : Snapshot) : Snapshot :=
  { s with tags := s.tags.map fun t => { t with keys := t.keys.map f } }

theorem alike_mapKeys {f : PostKey → PostKey} (hf : ∀ k : PostKey, k.Alike (f k)) (s : Snapshot) :
    s.Alike (s.mapKeys f) where
  users := rfl
  posts := rfl
  tags := by
    refine List.forall₂_map_right_iff.mpr (List.forall₂_same.mpr fun t _ => ⟨rfl, ?_⟩)
    exact List.forall₂_map_right_iff.mpr (List.forall₂_same.mpr fun k _ => hf k)

/-- The records that a label selects stand at the same place. -/
theorem forall₂_keys_find? {ts ts' : List Tag} (h : List.Forall₂ Tag.Alike ts ts') (l : String) :
    List.Forall₂ PostKey.Alike (((ts.find? (·.label == l)).map (·.keys)).getD [])
      (((ts'.find? (·.label == l)).map (·.keys)).getD []) := by
  induction h with
  | nil => exact .nil
  | @cons t t' ts ts' ht _ ih =>
    simp only [List.find?_cons, ht.label]
    cases t.label == l with
    | true => exact ht.keys
    | false => exact ih

theorem Alike.resolve_eq (h : s.Alike s') (e : Expr) :
    e.resolve s'.source = e.resolve s.source := by
  refine resolve_congr_found fun m _ => ?_
  cases m with
  | everything => simp [Source.found, Source.keys, source, allKeys, h.posts]
  | author u => simp [Source.found, Source.keys, source, authorKeys, findUser?, h.users, h.posts]
  | tag l => rw [found_source_tag, found_source_tag, keysUnder, keysUnder,
      findTag?, findTag?, IdSet.ofKeys_congr (forall₂_keys_find? h.tags l)]

end Snapshot

/-- Keys are read as a set unless one of them is a text that is no identifier, and the error carries
the first such text. The set lists in ascending order, and each once, the identifiers that the keys
stand for, so any keys that stand for these give the same set. Written in other ways, the keys of a
snapshot leave the results of all filters as they are. -/
theorem IdSet.ofKeys_exact (keys : List PostKey) :
    ((∃ err, ofKeys keys = .error err) ↔
      ∃ text, .text text ∈ keys ∧ ¬ PostId.IsText text) ∧
    (∀ err, ofKeys keys = .error err ↔ ∃ good value rest, keys = good ++ .text value :: rest ∧
      (∀ text, .text text ∈ good → PostId.IsText text) ∧ ¬ PostId.IsText value ∧
      err = .invalidPostId value) ∧
    (∀ s, ofKeys keys = .ok s → (∀ x, x ∈ s.toList ↔ ∃ k ∈ keys, k.Denotes x) ∧
      s.toList.Pairwise (· < ·) ∧ s.toList.Nodup ∧
      ∀ keys', (∀ text, .text text ∈ keys' → PostId.IsText text) →
        (∀ x, (∃ k ∈ keys', k.Denotes x) ↔ ∃ k ∈ keys, k.Denotes x) → ofKeys keys' = .ok s) ∧
    ∀ (s : Snapshot) (e : Expr),
      (∀ s', s.Alike s' → e.resolve s'.source = e.resolve s.source) ∧
      e.resolve (s.mapKeys .asObject).source = e.resolve s.source ∧
      e.resolve (s.mapKeys .asText).source = e.resolve s.source := by
  refine ⟨exists_ofKeys_eq_error_iff, fun err => ofKeys_eq_error_iff, fun s hs => ?_,
    fun s e => ⟨fun s' h => h.resolve_eq e, ?_, ?_⟩⟩
  · exact ⟨fun x => mem_of_ofKeys_denotes hs, s.ascending, s.nodup_toList,
      fun keys' => ofKeys_eq_of_denotes hs⟩
  · exact (s.alike_mapKeys PostKey.alike_asObject).resolve_eq e
  · exact (s.alike_mapKeys PostKey.alike_asText).resolve_eq e

/-- An identifier in both forms and with letters of both cases, a text that is none before another
one, and a tag with all of them. -/
theorem IdSet.ofKeys_exact_mixed :
    let keys : List PostKey := [.text "0A0A0A0A0a0a0a0a0a0a0a0a", .object (.ofByte 10)]
    let s : Snapshot := ⟨[], [⟨.ofByte 10, "1", "first", none⟩], [⟨"t", keys⟩]⟩
    ofKeys keys = .ok (ofList [.ofByte 10]) ∧
      ofKeys [.text "0a0a0a0a0a0a0a0a0a0a0a0a"] = .ok (ofList [.ofByte 10]) ∧
      ofKeys (keys ++ [.text "x", .text "y"]) = .error (.invalidPostId "x") ∧
      (Expr.not (.tag "t")).resolve (s.mapKeys .asObject).source =
        (Expr.not (.tag "t")).resolve s.source := by
  intro keys s
  have hmixed : (PostKey.text "0A0A0A0A0a0a0a0a0a0a0a0a").normalize = .ok (.ofByte 10) := by cbv
  have hlower : (PostKey.text "0a0a0a0a0a0a0a0a0a0a0a0a").normalize = .ok (.ofByte 10) := by cbv
  have hobject : (PostKey.object (.ofByte 10)).normalize = .ok (.ofByte 10) := rfl
  have hkeys : ofKeys keys = .ok (ofList [.ofByte 10]) := by cbv
  obtain ⟨-, -, hset, -⟩ := ofKeys_exact keys
  obtain ⟨-, -, -, hsame⟩ := hset _ hkeys
  obtain ⟨-, herror, -⟩ := ofKeys_exact (keys ++ [.text "x", .text "y"])
  obtain ⟨-, -, -, hsnapshot⟩ := ofKeys_exact keys
  refine ⟨hkeys, hsame _ ?_ fun x => ?_,
    (herror _).mpr ⟨keys, "x", [.text "y"], by simp, ?_, ?_, rfl⟩, (hsnapshot s _).2.1⟩
  · simpa using PostKey.normalizes_iff.mp ⟨_, hlower⟩
  · simp [keys, ← PostKey.normalize_eq_ok_iff, hmixed, hlower, hobject]
  · simpa [keys] using PostKey.normalizes_iff.mp ⟨_, hmixed⟩
  · exact fun h => absurd h.1 (by decide)

end PostFilter
