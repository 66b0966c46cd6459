import PostFilter.Proofs.Lexing

/-!
# Texts as token lists

A text in the alphabet is the spelling of exactly one canonical list of tokens that stand one after
the other, and this is the list it is cut into. Each token is the slice of the text from its place
on. A text with other characters is refused because of the first of them, wherever it stands.
-/

namespace PostFilter

open Token

/-! ## Bytes -/

theorem utf8ByteSize_ofList_cons (c : Char) (cs : List Char) :
    (String.ofList (c :: cs)).utf8ByteSize = c.utf8Size + (String.ofList cs).utf8ByteSize := by
  rw [← List.singleton_append, String.ofList_append, String.utf8ByteSize_append]
  simp

theorem utf8Size_of_isWordChar {c : Char} (h : isWordChar c = true) : c.utf8Size = 1 := by
  rw [Char.utf8Size_eq_one_iff]
  simp only [isWordChar, Char.isAlphanum, Char.isAlpha, Char.isUpper, Char.isLower, Char.isDigit,
    Bool.or_eq_true, Bool.and_eq_true, decide_eq_true_eq, beq_iff_eq] at h
  rcases h with ((⟨-, hc⟩ | ⟨-, hc⟩) | ⟨-, hc⟩) | rfl
  · exact UInt32.le_trans hc (by decide)
  · exact UInt32.le_trans hc (by decide)
  · exact UInt32.le_trans hc (by decide)
  · decide

namespace Lexer

theorem utf8Size_of_inAlphabet {c : Char} (h : inAlphabet c = true) : c.utf8Size = 1 := by
  cases hs : ofSymbol? c with
  | none => exact utf8Size_of_isWordChar (isWordChar_of_inAlphabet h hs)
  | some t =>
    unfold ofSymbol? at hs
    split at hs <;> first | rfl | cases hs

/-- Characters of the alphabet take one byte each. -/
theorem utf8ByteSize_ofList_of_inAlphabet {cs : List Char} (h : ∀ c ∈ cs, inAlphabet c = true) :
    (String.ofList cs).utf8ByteSize = cs.length := by
  induction cs with
  | nil => rfl
  | cons c cs ih =>
    obtain ⟨hc, hcs⟩ := List.forall_mem_cons.mp h
    rw [utf8ByteSize_ofList_cons, utf8Size_of_inAlphabet hc, ih hcs, List.length_cons, Nat.add_comm]

theorem utf8ByteSize_takeWhile (cs : List Char) :
    (String.ofList (cs.takeWhile isWordChar)).utf8ByteSize = (cs.takeWhile isWordChar).length := by
  refine utf8ByteSize_ofList_of_inAlphabet fun c hc => ?_
  have hword : isWordChar c = true := List.all_eq_true.mp List.all_takeWhile c hc
  simp [inAlphabet, hword]

/-! ## Places -/

/-- The tokens stand one after the other, and the first stands at byte `p`. -/
def StandsAt (p : Nat) : List PlacedToken → Prop
  | [] => True
  | t :: ts => t.position = p ∧ StandsAt (p + t.token.text.utf8ByteSize) ts

theorem standsAt_scan (p : Nat) (cs : List Char) : StandsAt p (scan p cs) := by
  fun_induction scan p cs with
  | case1 p => trivial
  | case2 p c cs t h ih =>
    refine ⟨rfl, ?_⟩
    simpa [Token.text, chars_of_ofSymbol? h] using ih
  | case3 p c cs h tail ih =>
    refine ⟨rfl, ?_⟩
    have htail : (String.ofList tail).utf8ByteSize = tail.length := utf8ByteSize_takeWhile cs
    simpa [Token.text, Token.chars, utf8ByteSize_ofList_cons, htail, Nat.add_assoc] using ih

/-- Tokens that stand one after the other are known from their texts. -/
theorem StandsAt.eq_of_map_token_eq {p : Nat} {ts us : List PlacedToken} (hts : StandsAt p ts)
    (hus : StandsAt p us) (h : ts.map (·.token) = us.map (·.token)) : ts = us := by
  induction ts generalizing p us with
  | nil => simpa using h.symm
  | cons t ts ih =>
    obtain ⟨u, us, rfl⟩ := List.exists_cons_of_ne_nil (l := us) (by rintro rfl; simp at h)
    obtain ⟨htoken, hrest⟩ := List.cons_eq_cons.mp h
    obtain ⟨ht, hts⟩ := hts
    obtain ⟨hu, hus⟩ := hus
    have heq : t = u := by
      cases t
      cases u
      simp_all
    subst heq
    rw [ih hts hus hrest]

/-! ## Slices -/

/-- The text `t` is what `s` has from byte `p` to byte `q`, and no character of `s` is cut there. -/
def IsSlice (s : String) (p q : Nat) (t : String) : Prop :=
  ∃ start stop : s.Pos, start.offset.byteIdx = p ∧ stop.offset.byteIdx = q ∧
    ∃ h : start ≤ stop, (s.slice start stop h).copy = t

theorem isSlice_of_eq_append {s before t after : String} (h : s = before ++ t ++ after) :
    IsSlice s before.utf8ByteSize (before.utf8ByteSize + t.utf8ByteSize) t := by
  have h' : s = before ++ (t ++ after) := by rw [h, String.append_assoc]
  have hstart := String.Pos.splits_ofEqAppend h'
  have hstop := String.Pos.splits_ofEqAppend h
  refine ⟨_, _, ?_, ?_, String.copy_slice_eq_iff_splits.mpr ⟨before, after, hstart, hstop⟩⟩
  · rw [hstart.offset_eq_rawEndPos, String.byteIdx_rawEndPos]
  · rw [hstop.offset_eq_rawEndPos, String.byteIdx_rawEndPos, String.utf8ByteSize_append]

/-- The byte after a word that may go on with `cs`: `stop` is the byte after what is read of it, and
`next` is where `cs` begins. -/
def wordEnd (stop next : Nat) : List Char → Nat
  | [] => stop
  | c :: cs =>
    if isWordChar c then wordEnd (next + c.utf8Size) (next + c.utf8Size) cs else stop

theorem wordEnd_eq (p : Nat) (cs : List Char) :
    wordEnd p p cs = p + (String.ofList (cs.takeWhile isWordChar)).utf8ByteSize := by
  induction cs generalizing p with
  | nil => simp [wordEnd]
  | cons c cs ih =>
    cases hc : isWordChar c with
    | false => simp [wordEnd, hc]
    | true => simp [wordEnd, hc, ih, Nat.add_assoc]

/-- A token is read from the characters at its place: a symbol from one, a word from the first and
all word characters after it. -/
theorem exists_of_mem_scan {p : Nat} {cs : List Char} {t : PlacedToken} (ht : t ∈ scan p cs) :
    ∃ before c after, cs = before ++ c :: after ∧
      t.position = p + (String.ofList before).utf8ByteSize ∧
      (ofSymbol? c = some t.token ∨ ofSymbol? c = none ∧
        t.token = .word (String.ofList (c :: after.takeWhile isWordChar))) := by
  fun_induction scan p cs with
  | case1 p => cases ht
  | case2 p c cs u h ih =>
    rcases List.mem_cons.mp ht with rfl | ht
    · exact ⟨[], c, cs, rfl, by simp, .inl h⟩
    · obtain ⟨before, d, after, rfl, hp, hd⟩ := ih ht
      refine ⟨c :: before, d, after, rfl, ?_, hd⟩
      rw [hp, utf8ByteSize_ofList_cons, Nat.add_assoc]
  | case3 p c cs h tail ih =>
    rcases List.mem_cons.mp ht with rfl | ht
    · exact ⟨[], c, cs, rfl, by simp, .inr ⟨h, rfl⟩⟩
    · obtain ⟨before, d, after, hcs, hp, hd⟩ := ih ht
      have htail : (String.ofList tail).utf8ByteSize = tail.length := utf8ByteSize_takeWhile cs
      refine ⟨c :: (tail ++ before), d, after, ?_, ?_, hd⟩
      · rw [List.cons_append, List.append_assoc, ← hcs, List.takeWhile_append_dropWhile]
      · rw [hp, utf8ByteSize_ofList_cons, String.ofList_append, String.utf8ByteSize_append,
          htail]
        omega

/-- The byte after the token that begins with `c` at byte `p`. -/
def tokenEnd (p : Nat) (c : Char) (after : List Char) : Nat :=
  match ofSymbol? c with
  | some _ => p + c.utf8Size
  | none => wordEnd (p + 1) (p + c.utf8Size) after

/-- The byte arithmetic finds the end of every token, so the slice taken is its text. -/
theorem isSlice_of_mem_scan {s : String} (h : ∀ c ∈ s.toList, inAlphabet c = true)
    {t : PlacedToken} (ht : t ∈ scan 0 s.toList) :
    ∃ before c after, s.toList = before ++ c :: after ∧
      t.position = (String.ofList before).utf8ByteSize ∧
      IsSlice s t.position (tokenEnd t.position c after) t.token.text := by
  obtain ⟨before, c, after, hs, hp, hread⟩ := exists_of_mem_scan ht
  rw [Nat.zero_add] at hp
  have hc : c.utf8Size = 1 := utf8Size_of_inAlphabet (h c (by simp [hs]))
  refine ⟨before, c, after, hs, hp, ?_⟩
  have hsplit : ∃ rest, s = String.ofList before ++ t.token.text ++ String.ofList rest ∧
      tokenEnd t.position c after = t.position + t.token.text.utf8ByteSize := by
    rcases hread with hsym | ⟨hsym, hword⟩
    · refine ⟨after, ?_, ?_⟩
      · rw [← String.toList_inj]
        simp [Token.text, chars_of_ofSymbol? hsym, hs]
      · simp [tokenEnd, hsym, Token.text, chars_of_ofSymbol? hsym]
    · refine ⟨after.dropWhile isWordChar, ?_, ?_⟩
      · rw [← String.toList_inj]
        simp [Token.text, Token.chars, hword, hs, List.takeWhile_append_dropWhile]
      · simp [tokenEnd, hsym, hword, hc, wordEnd_eq, Token.text, Token.chars,
          Nat.add_assoc]
  obtain ⟨rest, hrest, hend⟩ := hsplit
  rw [hend, hp]
  exact isSlice_of_eq_append hrest

/-! ## Refused texts -/

/-- The character reported is the first one outside the alphabet, and its place counts the bytes of
all characters before it. -/
theorem split_of_firstInvalid? {p q : Nat} {c : Char} {cs : List Char}
    (h : firstInvalid? p cs = some (c, q)) :
    ∃ before after, cs = before ++ c :: after ∧ (∀ d ∈ before, inAlphabet d = true) ∧
      inAlphabet c = false ∧ q = p + (String.ofList before).utf8ByteSize := by
  induction cs generalizing p with
  | nil => cases h
  | cons d cs ih =>
    cases hd : inAlphabet d with
    | false =>
      obtain ⟨rfl, rfl⟩ : d = c ∧ p = q := by simpa [firstInvalid?, hd] using h
      exact ⟨[], cs, rfl, by simp, hd, by simp⟩
    | true =>
      rw [firstInvalid?, if_pos hd] at h
      obtain ⟨before, after, rfl, hbefore, hc, rfl⟩ := ih h
      refine ⟨d :: before, after, rfl, List.forall_mem_cons.mpr ⟨hd, hbefore⟩, hc, ?_⟩
      rw [utf8ByteSize_ofList_cons, Nat.add_assoc]

/-! ## Token lists of a text -/

/-- The tokens spell the text, no two of them could be one, and each stands where its text is. -/
structure Tokenizes (s : String) (ts : List PlacedToken) : Prop where
  spells : spelling (ts.map (·.token)) = s
  canonical : Canonical (ts.map (·.token))
  places : StandsAt 0 ts

theorem tokenizes_scan {s : String} (h : ∀ c ∈ s.toList, inAlphabet c = true) :
    Tokenizes s (scan 0 s.toList) where
  spells := spelling_cut s
  canonical := canonical_cut h
  places := standsAt_scan 0 s.toList

theorem Tokenizes.unique {s : String} {ts us : List PlacedToken} (hts : Tokenizes s ts)
    (hus : Tokenizes s us) : ts = us := by
  refine hts.places.eq_of_map_token_eq hus.places ?_
  have hspell : spell (ts.map (·.token)) = spell (us.map (·.token)) :=
    String.ofList_injective (hts.spells.trans hus.spells.symm)
  rw [← cut_spell hts.canonical, hspell, cut_spell hus.canonical]

/-- Cutting loses nothing. A text in the alphabet is cut into its only list of tokens, each of which
is the slice of the text at its place; any other text is refused for its first character outside the
alphabet. Every canonical list is what its spelling is cut into. -/
theorem tokenize_lossless (s : String) :
    ((∀ c ∈ s.toList, inAlphabet c = true) → ∃ ts, tokenize s = .ok ts ∧ Tokenizes s ts ∧
      (∀ us, Tokenizes s us → us = ts) ∧
      ∀ t ∈ ts, ∃ before c after, s.toList = before ++ c :: after ∧
        t.position = (String.ofList before).utf8ByteSize ∧
        IsSlice s t.position (tokenEnd t.position c after) t.token.text) ∧
    ((¬ ∀ c ∈ s.toList, inAlphabet c = true) → ∃ before c after,
      s.toList = before ++ c :: after ∧ (∀ d ∈ before, inAlphabet d = true) ∧
      inAlphabet c = false ∧
      tokenize s = .error (.invalidCharacter c (String.ofList before).utf8ByteSize)) ∧
    ∀ ts, Canonical ts →
      ∃ placed, tokenize (spelling ts) = .ok placed ∧ placed.map (·.token) = ts := by
  refine ⟨fun h => ?_, fun h => ?_, fun ts hts => ?_⟩
  · have hscan := tokenizes_scan h
    exact ⟨_, tokenize_of_inAlphabet h, hscan, fun us hus => hus.unique hscan,
      fun t ht => isSlice_of_mem_scan h ht⟩
  · obtain ⟨⟨c, q⟩, hfirst⟩ :=
      Option.ne_none_iff_exists'.mp (mt firstInvalid?_eq_none_iff.mp h : firstInvalid? 0 _ ≠ none)
    obtain ⟨before, after, hs, hbefore, hc, hq⟩ := split_of_firstInvalid? hfirst
    refine ⟨before, c, after, hs, hbefore, hc, ?_⟩
    rw [Nat.zero_add] at hq
    rw [tokenize, hfirst, hq]
  · have halpha : ∀ c ∈ (spelling ts).toList, inAlphabet c = true := fun c hc =>
      inAlphabet_of_mem_spell hts.valid (by simpa [spelling] using hc)
    refine ⟨_, tokenize_of_inAlphabet halpha, ?_⟩
    simpa [spelling, cut] using cut_spell hts

/-- A text that is cut, a text with two good tokens before the first stray character, and a list. -/
theorem tokenize_lossless_stray :
    (∃ ts, tokenize "!(#a_1)" = .ok ts ∧ Tokenizes "!(#a_1)" ts) ∧
    (∃ before after, "@aé,ß".toList = before ++ 'é' :: after ∧
      (String.ofList before).utf8ByteSize = 2) ∧
    ∃ placed, tokenize (spelling [.hash, .word "a", .comma, .word "b"]) = .ok placed ∧
      placed.map (·.token) = [.hash, .word "a", .comma, .word "b"] := by
  refine ⟨?_, ?_, ?_⟩
  · have halpha : "!(#a_1)".toList.all inAlphabet = true := by decide
    obtain ⟨ts, hts, htokens, -⟩ := (tokenize_lossless "!(#a_1)").1 (List.all_eq_true.mp halpha)
    exact ⟨ts, hts, htokens⟩
  · have hstray : ¬ "@aé,ß".toList.all inAlphabet = true := by decide
    obtain ⟨before, c, after, hs, -, -, herr⟩ :=
      (tokenize_lossless "@aé,ß").2.1 (mt List.all_eq_true.mpr hstray)
    have hrun : tokenize "@aé,ß" = .error (.invalidCharacter 'é' 2) := rfl
    obtain ⟨rfl, hp⟩ : 'é' = c ∧ 2 = (String.ofList before).utf8ByteSize := by
      simpa [hrun] using herr
    exact ⟨before, after, hs, hp.symm⟩
  · refine (tokenize_lossless "").2.2 _ ?_
    exact .symbol rfl (.word rfl (by simp [isWord]) (.symbol rfl (.word rfl (by simp) .nil)))

end Lexer

end PostFilter
