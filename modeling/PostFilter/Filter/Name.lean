/-!
# Names

Usernames and tag labels are written in filters as names: nonempty runs of ASCII letters, digits
and underscores. The same rule governs the names of saved filters.
-/

namespace PostFilter

/-- The characters of a name. Only ASCII letters and digits count. -/
def isWordChar (c : Char) : Bool :=
  c.isAlphanum || c == '_'

/-- Is the text a nonempty run of word characters? -/
def isName (s : String) : Bool :=
  !s.toList.isEmpty && s.toList.all isWordChar

theorem isName_iff {s : String} :
    isName s = true ↔ s.toList ≠ [] ∧ ∀ c ∈ s.toList, isWordChar c = true := by
  simp [isName]

end PostFilter
