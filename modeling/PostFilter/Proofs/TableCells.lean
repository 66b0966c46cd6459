import PostFilter.Proofs.PostIdTexts
import PostFilter.Proofs.SingleLines
import PostFilter.Proofs.Timestamps
import PostFilter.Report.Table

/-!
# The characters of a post table

Identifiers, times and the fixed texts of a table hold no control characters. What stands in the
cell of a content is a space, a dot, or a character of the content that is not blank. The cell of an
author lets every character through that is not cut off.
-/

namespace PostFilter

/-- The control characters that come before the space. -/
def IsControl (c : Char) : Prop :=
  c.toNat < 0x20

instance (c : Char) : Decidable (IsControl c) :=
  inferInstanceAs (Decidable (_ < _))

variable {c : Char}

theorem IsControl.not_isDigit (hc : IsControl c) : c.isDigit = false := by
  unfold IsControl at hc
  simp [Char.isDigit, UInt32.le_iff_toNat_le]
  omega

namespace Text

variable {s : String} {width : Nat}

/-! ## Padding -/

/-- The cell is the text with spaces behind it, as many as the text is short of the width. A text
that is longer than the width is not cut. -/
structure Fills (width : Nat) (text cell : String) : Prop where
  padding : ∃ n, cell = text ++ String.ofList (List.replicate n ' ')
  length_eq : cell.length = max width text.length

theorem length_padRight (width : Nat) (s : String) :
    (padRight width s).length = max width s.length := by
  rw [padRight, String.length_append, String.length_ofList, List.length_replicate]
  omega

theorem fills_padRight (width : Nat) (s : String) : Fills width s (padRight width s) :=
  ⟨⟨_, rfl⟩, length_padRight width s⟩

theorem mem_padRight (h : c ∈ (padRight width s).toList) : c = ' ' ∨ c ∈ s.toList := by
  rw [padRight, String.toList_append, String.toList_ofList] at h
  rcases List.mem_append.mp h with h | h
  · exact .inr h
  · exact .inl (List.eq_of_mem_replicate h)

theorem count_padRight (h : c ≠ ' ') : (padRight width s).toList.count c = s.toList.count c := by
  simp [padRight, List.count_replicate, h.symm]

end Text

/-! ## Printed values -/

theorem Nat.not_mem_toDigits (hc : IsControl c) (n : Nat) : c ∉ Nat.toDigits 10 n := by
  intro h
  simpa [hc.not_isDigit] using Nat.isDigit_of_mem_toDigits (by decide) (by decide) h

theorem PostId.not_mem_hexChars (hc : IsControl c) (x : PostId) : c ∉ x.hexChars := by
  intro h
  have hdigit := (Hex.digits_chars x.bytes).2 c h
  rw [Hex.isDigit_iff_toNat] at hdigit
  unfold IsControl at hc
  omega

namespace Instant

theorem not_mem_padded (hc : IsControl c) (width n : Nat) : c ∉ padded width n := by
  intro h
  simpa [hc.not_isDigit] using isDigit_of_mem_padded c h

theorem not_mem_yearChars (hc : IsControl c) (y : Int) : c ∉ yearChars y := by
  have hsign : c ≠ '-' ∧ c ≠ '+' := by
    constructor <;> rintro rfl <;> exact absurd hc (by decide)
  unfold yearChars
  split_ifs <;> simp [hsign, not_mem_padded hc]

theorem not_mem_localMinute (hc : IsControl c) (t : Instant) (offset : Int) :
    c ∉ (t.localMinute offset).toList := by
  have hsymbol : c ≠ '-' ∧ c ≠ ' ' ∧ c ≠ ':' := by
    refine ⟨?_, ?_, ?_⟩ <;> rintro rfl <;> exact absurd hc (by decide)
  simp [localMinute, dateChars, hsymbol, not_mem_padded hc, not_mem_yearChars hc]

end Instant

/-! ## Cells -/

/-- The part of a name that an author cell has room for behind the sign in front. A name that does
not fit makes room for three dots. -/
def PostRow.shownName (name : String) : List Char :=
  if name.length ≤ 15 then name.toList else name.toList.take 12

/-- What a row shows of the name of its author. -/
def PostRow.shownAuthor (row : PostRow) : List Char :=
  match row.author with
  | some name => shownName name
  | none => []

namespace Table

variable {row : PostRow}

theorem not_mem_idCell (hc : IsControl c) (x : PostId) :
    c ∉ (cell idWidth (Text.shortId x.hex)).toList := by
  intro h
  rcases Text.mem_padRight h with rfl | h
  · exact absurd hc (by decide)
  · rw [Text.shortId, PostId.hex, String.toList_ofList, String.toList_ofList] at h
    exact PostId.not_mem_hexChars hc x (List.mem_of_mem_take h)

theorem not_mem_createdCell (hc : IsControl c) (localOffset : Instant → Int)
    (createdAt : Option Instant) :
    c ∉ (cell createdWidth (createdText localOffset createdAt)).toList := by
  intro h
  rcases Text.mem_padRight h with rfl | h
  · exact absurd hc (by decide)
  · cases createdAt with
    | none => simp [createdText] at h
    | some t => exact t.not_mem_localMinute hc (localOffset t) h

theorem mem_contentText (hc : IsControl c) (h : c ∈ (contentText false row).toList) :
    ∃ content ∈ row.content, c ∈ content.toList ∧ Text.isBlank c = false := by
  unfold contentText at h
  split at h
  · next content hcontent =>
    rcases Text.mem_truncate h with rfl | h
    · exact absurd hc (by decide)
    · rcases Text.mem_singleLine h with rfl | h
      · exact absurd hc (by decide)
      · exact ⟨content, hcontent, h⟩
  · have hplain : ∀ d ∈ "(not in snapshot)".toList, ¬ IsControl d := by simp [IsControl]
    exact absurd hc (hplain c h)

/-- The author cell holds a control character as often as the shown part of the name. -/
theorem count_authorCell (hc : IsControl c) (row : PostRow) :
    (cell authorWidth (authorText row)).toList.count c = row.shownAuthor.count c := by
  have hne : c ≠ ' ' ∧ c ≠ '.' ∧ c ≠ '@' ∧ c ≠ '?' := by
    refine ⟨?_, ?_, ?_, ?_⟩ <;> rintro rfl <;> exact absurd hc (by decide)
  rw [cell, Text.count_padRight hne.1, authorText, Text.truncate, String.toList_ofList,
    PostRow.shownAuthor]
  cases row.author with
  | none => simp [Text.truncateChars, authorWidth, hne.2.2.2.symm]
  | some name =>
    have hlength : ("@" ++ name).toList.length = name.length + 1 := by
      rw [String.length_toList, String.length_append, Nat.add_comm]
      rfl
    simp only [Text.truncateChars, authorWidth, PostRow.shownName, hlength]
    by_cases hfits : name.length ≤ 15
    · rw [if_neg (by omega), if_pos hfits]
      simp [hne.2.2.1.symm]
    · rw [if_pos (by omega), if_neg hfits]
      simp [hne.2.2.1.symm, hne.2.1.symm]

end Table

end PostFilter
