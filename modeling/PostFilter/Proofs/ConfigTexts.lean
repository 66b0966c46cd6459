import PostFilter.Config.Basic
import PostFilter.Proofs.JsonAtoms
import PostFilter.Proofs.TomlReaders

/-!
# No config is a snapshot

What comes first in a config file is a key, perhaps behind one bracket or two, unless the file has
no entries at all. As JSON a key begins with an atom, if it is JSON, and there is no atom at this
place in a snapshot. So no file is read both as a config and as a snapshot.
-/

namespace PostFilter

namespace Toml

/-! ## Keys -/

/-- A key may begin with the character. -/
def StartsKey (c : Char) : Prop :=
  Reader.isBareChar c = true ∨ c = '"' ∨ c = '\''

/-- A key comes next, perhaps behind blanks. -/
def KeyNext (cs : List Char) : Prop :=
  ∃ c ∈ (cs.dropWhile isBlank).head?, StartsKey c

namespace Reader

variable {cs rest : List Char}

theorem keyNext_of_keyPart {k : String} (h : keyPart cs = some (k, rest)) : KeyNext cs := by
  obtain ⟨u, cs₁, hblanks, h⟩ := bind_eq_some.mp h
  obtain rfl := blanks_eq_some hblanks
  obtain ⟨k', cs₂, hkey, -⟩ := bind_eq_some.mp h
  rcases orElse_eq_some hkey with hstring | hkey
  · obtain ⟨v, cs₃, hquote, -⟩ := bind_eq_some.mp hstring
    exact ⟨'"', by simp [char_eq_some hquote], .inr (.inl rfl)⟩
  rcases orElse_eq_some hkey with hstring | hbare
  · obtain ⟨v, cs₃, hquote, -⟩ := bind_eq_some.mp hstring
    exact ⟨'\'', by simp [char_eq_some hquote], .inr (.inr rfl)⟩
  · obtain ⟨ds, cs₃, hrun, -⟩ := bind_eq_some.mp hbare
    obtain ⟨c, cs₄, hone, -⟩ := bind_eq_some.mp hrun
    obtain ⟨heq, hc⟩ := one_eq_some hone
    exact ⟨c, by simp [heq], .inl hc⟩

theorem keyNext_of_key {x : List String × String} (h : key cs = some (x, rest)) : KeyNext cs := by
  obtain ⟨k, cs', hpart, -⟩ := bind_eq_some.mp h
  exact keyNext_of_keyPart hpart

theorem keyNext_of_entry {item : Reader Value} {x : (List String × String) × Value}
    (h : entry item cs = some (x, rest)) : KeyNext cs := by
  obtain ⟨k, cs', hkey, -⟩ := bind_eq_some.mp h
  exact keyNext_of_key hkey

end Reader

/-! ## The first tokens of a config -/

open Json.Lexer (tokens? token? tokens?_eq_bind tokens?_blank tokens?_cons tokens?_brackets
  isAtomToken_of_token?)
open Json.Reader (IsAtomToken)

variable {n : Nat} {c : Char} {cs rest : List Char}

/-- What begins a key is neither blank nor a symbol in a JSON text. -/
theorem StartsKey.notMem (hc : StartsKey c) :
    c ∉ [' ', '\t', '\n', '\r'] ∧ c ∉ ['[', ']', '{', '}', ',', ':'] := by
  have hblanks : ∀ d ∈ [' ', '\t', '\n', '\r'], ¬StartsKey d := by
    simp [StartsKey, Reader.isBareChar]
  have hsymbols : ∀ d ∈ ['[', ']', '{', '}', ',', ':'], ¬StartsKey d := by
    simp [StartsKey, Reader.isBareChar]
  exact ⟨fun hmem => hblanks c hmem hc, fun hmem => hsymbols c hmem hc⟩

theorem tokens?_dropWhile (cs : List Char) : tokens? (cs.dropWhile isBlank) = tokens? cs := by
  induction cs with
  | nil => rfl
  | cons c cs ih =>
    rw [List.dropWhile_cons]
    split_ifs with hc
    · have hblank : Json.Lexer.isBlank c = true := by
        simp only [isBlank, Bool.or_eq_true] at hc
        simp only [Json.Lexer.isBlank, Bool.or_eq_true]
        exact .inl (.inl hc)
      rw [ih, tokens?_blank hblank]
    · rfl

/-- Where a key comes next, the first token is an atom. -/
theorem KeyNext.exists_cons {ts : List Json.Token} (h : KeyNext cs) (hts : tokens? cs = some ts) :
    ∃ t us, IsAtomToken t ∧ ts = t :: us := by
  obtain ⟨c, hhead, hc⟩ := h
  obtain ⟨rest, hrest⟩ := List.head?_eq_some_iff.mp hhead
  obtain ⟨hnotBlank, hsymbol⟩ := hc.notMem
  have hblank : Json.Lexer.isBlank c = false := by
    simpa [Json.Lexer.isBlank, and_assoc] using hnotBlank
  rw [← tokens?_dropWhile, hrest, tokens?_cons hblank] at hts
  obtain ⟨⟨t, rest'⟩, htoken, hts⟩ := Option.bind_eq_some_iff.mp hts
  obtain ⟨us, -, rfl⟩ := Option.map_eq_some_iff.mp hts
  exact ⟨t, us, isAtomToken_of_token? hsymbol htoken, rfl⟩

/-- If the text is cut into tokens, they begin with an atom behind at most `n` brackets, or there
are none. -/
def AtomFirst (n : Nat) (cs : List Char) : Prop :=
  ∀ ts, tokens? cs = some ts → ts = [] ∨
    ∃ k ≤ n, ∃ t us, IsAtomToken t ∧ ts = List.replicate k .openArray ++ t :: us

namespace AtomFirst

theorem of_dropWhile (h : AtomFirst n (cs.dropWhile isBlank)) : AtomFirst n cs := by
  intro ts hts
  exact h ts (tokens?_dropWhile cs ▸ hts)

theorem blank (hc : Json.Lexer.isBlank c = true) (h : AtomFirst n cs) : AtomFirst n (c :: cs) := by
  intro ts hts
  exact h ts (tokens?_blank hc cs ▸ hts)

theorem nil : AtomFirst n [] := by
  intro ts hts
  rw [tokens?_eq_bind] at hts
  cases hts
  exact .inl rfl

/-- A text that begins with anything else is not cut into tokens. -/
theorem of_token?_eq_none (hblank : Json.Lexer.isBlank c = false)
    (h : token? (c :: cs) = none) : AtomFirst n (c :: cs) := by
  intro ts hts
  rw [tokens?_cons hblank, h] at hts
  cases hts

theorem brackets {k : Nat} (hk : k ≤ n) (h : KeyNext cs) :
    AtomFirst n (List.replicate k '[' ++ cs) := by
  intro ts hts
  rw [tokens?_brackets] at hts
  obtain ⟨us, hus, rfl⟩ := Option.map_eq_some_iff.mp hts
  obtain ⟨t, us, ht, rfl⟩ := h.exists_cons hus
  exact .inr ⟨k, hk, t, us, ht, rfl⟩

end AtomFirst

/-! ## Lines -/

namespace Reader

theorem brackets_of_header {l : Line} (h : header cs = some (l, rest)) :
    ∃ cs', cs = List.replicate 1 '[' ++ cs' ∧ KeyNext cs' := by
  obtain ⟨u, cs', hopen, h⟩ := bind_eq_some.mp h
  obtain ⟨x, cs₂, hkey, -⟩ := bind_eq_some.mp h
  exact ⟨cs', char_eq_some hopen, keyNext_of_key hkey⟩

theorem brackets_of_repeatedHeader {l : Line} (h : repeatedHeader cs = some (l, rest)) :
    ∃ cs', cs = List.replicate 2 '[' ++ cs' ∧ KeyNext cs' := by
  obtain ⟨u, cs₂, hopen, h⟩ := bind_eq_some.mp h
  obtain ⟨x, cs₃, hkey, -⟩ := bind_eq_some.mp h
  obtain ⟨cs₁, rfl, hopen₁⟩ := chars_cons_eq_some hopen
  obtain ⟨cs₀, rfl, hopen₀⟩ := chars_cons_eq_some hopen₁
  cases hopen₀
  exact ⟨cs₂, rfl, keyNext_of_key hkey⟩

/-- A line that holds nothing more leaves it to the next one what comes first. -/
theorem atomFirst_of_lineRest {u : Unit} (h : lineRest cs = some (u, rest))
    (hrest : AtomFirst n rest) : AtomFirst n cs := by
  obtain ⟨u₁, cs₁, hblanks, h⟩ := bind_eq_some.mp h
  obtain rfl := blanks_eq_some hblanks
  obtain ⟨u₂, cs₂, hcomment, h⟩ := bind_eq_some.mp h
  obtain ⟨o, hcomment⟩ := discard_eq_some hcomment
  apply AtomFirst.of_dropWhile
  rcases optional_eq_some hcomment with ⟨a, -, hcomment⟩ | ⟨-, rfl⟩
  · obtain ⟨v, cs₃, hhash, -⟩ := bind_eq_some.mp hcomment
    rw [char_eq_some hhash]
    exact .of_token?_eq_none rfl rfl
  rcases orElse_eq_some h with h | h
  · rcases newline_eq_some h with heq | heq
    · exact heq ▸ hrest.blank rfl
    · exact heq ▸ (hrest.blank rfl).blank rfl
  · exact atEnd_eq_some h ▸ .nil

/-- Where a line begins with an entry or a header this is what comes first. -/
theorem atomFirst_or_eq_of_lineContent {l : Line} (h : lineContent cs = some (l, rest)) :
    AtomFirst 2 cs ∨ rest = cs := by
  obtain ⟨o, cs₁, hnext, hl⟩ := bind_eq_some.mp h
  obtain rfl := next?_eq_some hnext
  split at hl
  case h_5 =>
    rcases orElse_eq_some hl with hheader | hheader
    · obtain ⟨cs', heq, hkey⟩ := brackets_of_repeatedHeader hheader
      exact .inl (heq ▸ .brackets (by omega) hkey)
    · obtain ⟨cs', heq, hkey⟩ := brackets_of_header hheader
      exact .inl (heq ▸ .brackets (by omega) hkey)
  case h_6 =>
    obtain ⟨x, cs₅, hentry, -⟩ := bind_eq_some.mp hl
    exact .inl (.brackets (k := 0) (by omega) (keyNext_of_entry hentry))
  all_goals
    cases hl
    exact .inr rfl

/-- The line holds an entry or a header, or else it is the rest of the text that matters. -/
theorem atomFirst_of_line {l : Line} (h : line cs = some (l, rest)) (hrest : AtomFirst 2 rest) :
    AtomFirst 2 cs := by
  obtain ⟨o, cs₁, hnext, hl⟩ := bind_eq_some.mp h
  obtain rfl := next?_eq_some hnext
  cases o with
  | none => cases hl
  | some c =>
    obtain ⟨u, cs₂, hblanks, hl⟩ := bind_eq_some.mp hl
    obtain rfl := blanks_eq_some hblanks
    obtain ⟨l', cs₃, hcontent, hl⟩ := bind_eq_some.mp hl
    obtain ⟨v, cs₄, hend, hl⟩ := bind_eq_some.mp hl
    cases hl
    apply AtomFirst.of_dropWhile
    rcases atomFirst_or_eq_of_lineContent hcontent with hcontent | rfl
    · exact hcontent
    · exact atomFirst_of_lineRest hend hrest

theorem atomFirst_of_manyUpTo {ls : List Line} {k : Nat}
    (h : manyUpTo line k cs = some (ls, [])) : AtomFirst 2 cs := by
  induction k generalizing cs ls with
  | zero =>
    cases h
    exact .nil
  | succ k ih =>
    obtain ⟨o, cs₁, hline, hrest⟩ := bind_eq_some.mp h
    rcases optional_eq_some hline with ⟨l, rfl, hl⟩ | ⟨rfl, rfl⟩
    · obtain ⟨ls', cs₂, hmore, hrest⟩ := bind_eq_some.mp hrest
      cases hrest
      exact atomFirst_of_line hl (ih hmore)
    · cases hrest
      exact .nil

end Reader

open Reader in
/-- What comes first in a document is an atom behind two brackets at most. -/
theorem atomFirst_of_parse? {document : String} {es : Entries} (h : parse? document = some es) :
    AtomFirst 2 document.toList := by
  unfold parse? at h
  obtain ⟨⟨ls, rest⟩, hlines, -⟩ := Option.bind_eq_some_iff.mp h
  split at hlines
  · next cs heq =>
    rw [heq]
    exact .of_token?_eq_none rfl rfl
  · obtain ⟨ls', cs₁, hmany, hend⟩ := bind_eq_some.mp hlines
    obtain ⟨u, cs₂, hatEnd, -⟩ := bind_eq_some.mp hend
    obtain rfl := atEnd_eq_some hatEnd
    exact atomFirst_of_manyUpTo hmany

end Toml

/-! ## Configs and snapshots -/

theorem Snapshot.decode_of_ofText {fault fault' : String → String} {text : String} {c : Config}
    (h : Config.ofText fault text = .ok c) :
    Snapshot.decode fault' text = .error (.malformed (fault' text)) := by
  have hnone : (Json.parse? text).bind Snapshot.ofJson? = none := by
    rw [Option.bind_eq_none_iff]
    intro j hj
    obtain ⟨es, hes⟩ : ∃ es, Toml.parse? text = some es := by
      unfold Config.ofText at h
      split at h
      · cases h
      · next hdecode =>
        obtain ⟨es, hes, -⟩ := Option.bind_eq_some_iff.mp hdecode
        exact ⟨es, hes⟩
    unfold Json.parse? at hj
    split at hj
    · next ts hts =>
      rcases Toml.atomFirst_of_parse? hes ts hts with rfl | ⟨k, hk, t, us, ht, rfl⟩
      · cases hj
      · exact Json.ofJson?_of_atomBehind (Json.Reader.atomBehind_of_read? ht hj) hk
    · cases hj
  rw [Snapshot.decode, hnone]

end PostFilter
