import PostFilter.Proofs.PostIds
import PostFilter.Proofs.SavedFilters
import PostFilter.Proofs.SnapshotCodec

/-!
# Saved filters are read back

A saved filter is decoded from the document that it is encoded as, whatever its identifier is and
whatever its texts hold. So it does not matter when it is saved and loaded again: all that is asked
of it is answered as if it had been kept.
-/

namespace PostFilter

/-! ## Identifiers -/

namespace Uuid

variable {ds : List Char}

theorem length_hyphenate (h : ds.length = 32) : (hyphenate ds).length = 36 := by
  simp [hyphenate, h]

/-- The groups between the hyphens are the digits, cut in four places. -/
theorem filter_hyphenate (h : '-' ∉ ds) : (hyphenate ds).filter (· != '-') = ds := by
  have hpart {cs : List Char} (hcs : cs <:+: ds) : cs.filter (· != '-') = cs := by
    refine List.filter_eq_self.mpr fun c hc => ?_
    have hne : c ≠ '-' := fun heq => h (heq ▸ hcs.subset hc)
    simpa using hne
  have hgroup (m n : Nat) : (ds.drop m).take n <:+: ds :=
    (List.take_prefix n _).isInfix.trans (List.drop_suffix m ds).isInfix
  have hjoin (m n : Nat) : (ds.drop m).take n ++ ds.drop (m + n) = ds.drop m := by
    rw [← List.drop_drop, List.take_append_drop]
  -- each hyphen is dropped and each group is kept, so the groups can be joined from the end
  simp only [hyphenate, List.filter_append, List.filter_cons, bne_self_eq_false, Bool.false_eq_true,
    if_false, hpart (hgroup _ _), hpart (List.take_prefix 8 ds).isInfix,
    hpart (List.drop_suffix 20 ds).isInfix]
  rw [hjoin 16 4, hjoin 12 4, hjoin 8 4, List.take_append_drop]

theorem length_digits (u : Uuid) : (Hex.chars u.bytes).length = 32 := by
  rw [(Hex.digits_chars u.bytes).1, u.length_bytes]

theorem hyphen_notMem_digits (u : Uuid) : '-' ∉ Hex.chars u.bytes := by
  intro h
  have hdigit : Hex.IsDigit '-' := (Hex.digits_chars u.bytes).2 '-' h
  simp [Hex.IsDigit] at hdigit

theorem ofDigits?_digits (u : Uuid) : ofDigits? (Hex.chars u.bytes) = some u := by
  simp [ofDigits?, Hex.bytes?_chars, u.length_bytes]

theorem ofHyphenated?_chars (u : Uuid) : ofHyphenated? u.chars = some u := by
  simp only [ofHyphenated?, chars, filter_hyphenate u.hyphen_notMem_digits, if_true,
    ofDigits?_digits]

/-- An identifier is read back. Its text is told from the other forms by its length. -/
theorem ofString?_toString (u : Uuid) : ofString? u.toString = some u := by
  have hlength : u.chars.length = 36 := length_hyphenate u.length_digits
  simp [ofString?, toString, ofChars?, hlength, ofHyphenated?_chars]

end Uuid

/-! ## Documents -/

namespace SavedFilter

theorem faithful : Json.Faithful toJson ofJson? where
  printable f := .object (by simp [Json.Printable.string])
  decodes f := by
    have hslots : Json.slots? ["id", "owner", "name", "expression"] f.toJson =
        some [some (.string f.id.toString), some (.string f.owner), some (.string f.name),
          some (.string f.expression)] := rfl
    rw [ofJson?, hslots]
    simp [Json.string?, Uuid.ofString?_toString]

theorem decode?_encode (f : SavedFilter) : decode? f.encode = some f := by
  rw [decode?, encode, Json.parse?_compact (faithful.printable f), Option.bind_some,
    faithful.decodes f]

/-! ## Sessions -/

/-- What is done with a saved filter. -/
inductive Use where
  | amend (c : Change)
  | compile
  | resolve (source : Source)
  /-- The filter is written as a document, and what is read from this takes its place. -/
  | reload

def Use.isReload : Use → Bool
  | reload => true
  | _ => false

/-- What is learned from a use. -/
inductive Answer where
  | amended (result : Except FilterError Unit)
  | compiled (result : Except SyntaxError Expr)
  | resolved (result : Except FilterError IdSet)

/-- The answers that a use gives, and the filter after it. There is none if a document cannot be
read. -/
def use? (f : SavedFilter) : Use → Option (List Answer × SavedFilter)
  | .amend c => some ([.amended (f.amend c).1], (f.amend c).2)
  | .compile => some ([.compiled f.compile], f)
  | .resolve source => some ([.resolved (f.resolve source)], f)
  | .reload => (decode? f.encode).map fun g => ([], g)

/-- The answers that some uses give, the first of which comes first, and the filter after them. -/
def session? (f : SavedFilter) : List Use → Option (List Answer × SavedFilter)
  | [] => some ([], f)
  | u :: us => do
    let (answers, f) ← f.use? u
    let (rest, f) ← f.session? us
    pure (answers ++ rest, f)

theorem use?_of_isReload (f : SavedFilter) {u : Use} (h : u.isReload = true) :
    f.use? u = some ([], f) := by
  cases u with
  | reload => rw [use?, decode?_encode, Option.map_some]
  | _ => cases h

theorem exists_use? (f : SavedFilter) (u : Use) : ∃ r, f.use? u = some r := by
  cases u with
  | reload => exact ⟨_, f.use?_of_isReload rfl⟩
  | _ => exact ⟨_, rfl⟩

theorem exists_session? (f : SavedFilter) (us : List Use) : ∃ r, f.session? us = some r := by
  induction us generalizing f with
  | nil => exact ⟨_, rfl⟩
  | cons u us ih =>
    obtain ⟨⟨answers, g⟩, hu⟩ := f.exists_use? u
    obtain ⟨⟨rest, g'⟩, hus⟩ := ih g
    exact ⟨(answers ++ rest, g'), by simp [session?, hu, hus]⟩

/-- A reload may be left out wherever it stands. -/
theorem session?_filter_not_isReload (f : SavedFilter) (us : List Use) :
    f.session? (us.filter (!·.isReload)) = f.session? us := by
  induction us generalizing f with
  | nil => rfl
  | cons u us ih =>
    cases hu : u.isReload with
    | true => simp [hu, session?, f.use?_of_isReload hu, ih]
    | false => simp [hu, session?, ih]

/-- A saved filter is read back as it is, before and after any changes. So it compiles to the same
tree and gives the same posts, or fails in the same way, and no session can tell how often and
where it has been saved and loaded again. -/
theorem decode_encode_unnoticed (f : SavedFilter) :
    decode? f.encode = some f ∧
    (∀ cs, ∃ g, decode? (f.afterAll cs).encode = some g ∧
      g.compile = (f.afterAll cs).compile ∧
      (∀ source, g.resolve source = (f.afterAll cs).resolve source) ∧
      ∀ cs', g.afterAll cs' = f.afterAll (cs ++ cs')) ∧
    ∀ us, ∃ answers g, f.session? us = some (answers, g) ∧
      f.session? (us.filter (!·.isReload)) = some (answers, g) := by
  refine ⟨f.decode?_encode, fun cs => ⟨f.afterAll cs, decode?_encode _, rfl, fun _ => rfl, ?_⟩,
    fun us => ?_⟩
  · exact fun cs' => (List.foldl_append ..).symm
  · obtain ⟨⟨answers, g⟩, hsession⟩ := f.exists_session? us
    exact ⟨answers, g, hsession, by rw [session?_filter_not_isReload, hsession]⟩

/-- Quotes, backslashes and control characters are written with escapes, and nothing is checked. -/
example :
    (⟨⟨List.replicate 16 171, rfl⟩, "\"u\\", "two\nwords", "\u0001\u007f"⟩ : SavedFilter).encode =
      "\x7b\"id\":\"abababab-abab-abab-abab-abababababab\",\"owner\":\"\\\"u\\\\\"," ++
        "\"name\":\"two\\nwords\",\"expression\":\"\\u0001\u007f\"\x7d" := by
  decide

end SavedFilter

end PostFilter
