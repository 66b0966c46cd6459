import Mathlib
import PostFilter.Filter.Token

/-!
# Cutting and spelling

Cutting a text into tokens and spelling the tokens out again lose nothing. The token lists that
arise are exactly the canonical ones: words are names, and no two of them are neighbours. A
canonical list is also found again in front of other text, unless that text goes on with the last
word.
-/

namespace PostFilter

namespace Token

def isWord : Token → Bool
  | word _ => true
  | _ => false

/-- A word is a name. Nothing is asked of a symbol. -/
def Valid : Token → Prop
  | word w => isName w = true
  | _ => True

/-- The text that a list of tokens is cut from. -/
def spell (ts : List Token) : List Char :=
  ts.flatMap chars

@[simp] theorem spell_nil : spell [] = [] := rfl

@[simp] theorem spell_cons (t : Token) (ts : List Token) : spell (t :: ts) = t.chars ++ spell ts :=
  rfl

@[simp] theorem spell_append (ts us : List Token) : spell (ts ++ us) = spell ts ++ spell us :=
  List.flatMap_append

/-- The same as a string. -/
def spelling (ts : List Token) : String :=
  String.ofList (spell ts)

theorem spelling_append (ts us : List Token) :
    spelling (ts ++ us) = spelling ts ++ spelling us := by
  simp [spelling]

theorem chars_of_ofSymbol? {c : Char} {t : Token} (h : ofSymbol? c = some t) : t.chars = [c] := by
  unfold ofSymbol? at h
  split at h <;> cases h <;> rfl

theorem isWord_of_ofSymbol? {c : Char} {t : Token} (h : ofSymbol? c = some t) :
    t.isWord = false := by
  unfold ofSymbol? at h
  split at h <;> cases h <;> rfl

theorem exists_ofSymbol? {t : Token} (h : t.isWord = false) :
    ∃ c, t.chars = [c] ∧ ofSymbol? c = some t := by
  cases t with
  | word w => exact absurd h (by simp [isWord])
  | _ => exact ⟨_, rfl, rfl⟩

theorem ofSymbol?_of_isWordChar {c : Char} (h : isWordChar c = true) : ofSymbol? c = none := by
  unfold ofSymbol?
  split <;> first | rfl | exact absurd h (by decide)

end Token

namespace Lexer

open Token

/-- The tokens of a text, without their places. -/
def cut (cs : List Char) : List Token :=
  (scan 0 cs).map (·.token)

theorem map_token_scan (p q : Nat) (cs : List Char) :
    (scan p cs).map (·.token) = (scan q cs).map (·.token) := by
  fun_induction scan p cs generalizing q with
  | case1 p => simp [scan]
  | case2 p c cs t h ih => simp [scan, h, ih (q + c.utf8Size)]
  | case3 p c cs h tail ih =>
    rw [scan]
    simp [h, tail, ih (q + c.utf8Size + tail.length)]

@[simp] theorem cut_nil : cut [] = [] := by simp [cut, scan]

theorem cut_symbol {c : Char} {t : Token} (h : ofSymbol? c = some t) (cs : List Char) :
    cut (c :: cs) = t :: cut cs := by
  rw [cut, scan]
  simpa [h, cut] using map_token_scan _ 0 cs

theorem cut_word {c : Char} (h : ofSymbol? c = none) (cs : List Char) :
    cut (c :: cs) = .word (String.ofList (c :: cs.takeWhile isWordChar)) ::
      cut (cs.dropWhile isWordChar) := by
  rw [cut, scan]
  simpa [h, cut] using map_token_scan _ 0 (cs.dropWhile isWordChar)

/-- Induction along the tokens of a text: either a symbol comes first, or a word. -/
theorem cut_induction {P : List Char → Prop} (nil : P [])
    (symbol : ∀ c t cs, ofSymbol? c = some t → P cs → P (c :: cs))
    (word : ∀ c cs, ofSymbol? c = none → P (cs.dropWhile isWordChar) → P (c :: cs))
    (cs : List Char) : P cs := by
  fun_induction scan 0 cs with
  | case1 p => exact nil
  | case2 p c cs t h ih => exact symbol c t cs h ih
  | case3 p c cs h tail ih => exact word c cs h ih

/-- No character is lost between tokens. -/
@[simp] theorem spell_cut (cs : List Char) : spell (cut cs) = cs := by
  induction cs using cut_induction with
  | nil => simp
  | symbol c t cs h ih => simp [cut_symbol h, chars_of_ofSymbol? h, ih]
  | word c cs h ih => simp [cut_word h, ih, Token.chars, List.takeWhile_append_dropWhile]

@[simp] theorem spelling_cut (s : String) : spelling (cut s.toList) = s := by
  simp [spelling]

/-! ## Canonical lists -/

/-- Words are names, and a word is never followed by another one. -/
inductive Canonical : List Token → Prop
  | nil : Canonical []
  | symbol {t : Token} {ts : List Token} :
      t.isWord = false → Canonical ts → Canonical (t :: ts)
  | word {w : String} {ts : List Token} :
      isName w = true → (∀ t, ts.head? = some t → t.isWord = false) → Canonical ts →
        Canonical (.word w :: ts)

theorem isWordChar_of_inAlphabet {c : Char} (h : inAlphabet c = true) (hs : ofSymbol? c = none) :
    isWordChar c = true := by
  simpa [inAlphabet, hs] using h

theorem head?_cut_dropWhile {cs : List Char} (h : ∀ c ∈ cs, inAlphabet c = true) {t : Token}
    (ht : (cut (cs.dropWhile isWordChar)).head? = some t) : t.isWord = false := by
  cases hd : cs.dropWhile isWordChar with
  | nil => simp [hd] at ht
  | cons c rest =>
    have hc : isWordChar c = false := by
      simpa [hd] using List.head_dropWhile_not isWordChar (l := cs) (by simp [hd])
    have hmem : c ∈ cs := (List.dropWhile_sublist isWordChar).subset (hd ▸ List.mem_cons_self)
    cases hs : ofSymbol? c with
    | none => exact absurd (isWordChar_of_inAlphabet (h c hmem) hs) (by simp [hc])
    | some u =>
      rw [hd, cut_symbol hs] at ht
      cases ht
      exact isWord_of_ofSymbol? hs

theorem canonical_cut {cs : List Char} (h : ∀ c ∈ cs, inAlphabet c = true) :
    Canonical (cut cs) := by
  induction cs using cut_induction with
  | nil => simpa using Canonical.nil
  | symbol c t cs hs ih =>
    rw [cut_symbol hs]
    exact .symbol (isWord_of_ofSymbol? hs) (ih fun d hd => h d (by simp [hd]))
  | word c cs hs ih =>
    have htail : ∀ d ∈ cs, inAlphabet d = true := fun d hd => h d (by simp [hd])
    have hc : isWordChar c = true := isWordChar_of_inAlphabet (h c (by simp)) hs
    rw [cut_word hs]
    refine .word ?_ (fun t ht => head?_cut_dropWhile htail ht) (ih ?_)
    · rw [isName_iff]
      refine ⟨by simp, ?_⟩
      intro d hd
      rcases List.mem_cons.mp (by simpa using hd) with rfl | hd
      · exact hc
      · exact List.all_eq_true.mp List.all_takeWhile d hd
    · intro d hd
      exact htail d ((List.dropWhile_sublist isWordChar).subset hd)

namespace Canonical

theorem of_append_left {ts us : List Token} (h : Canonical (ts ++ us)) : Canonical ts := by
  induction ts with
  | nil => exact .nil
  | cons t ts ih =>
    cases h with
    | symbol ht h => exact .symbol ht (ih h)
    | word hw hnext h =>
      refine .word hw (fun u hu => hnext u ?_) (ih h)
      cases ts with
      | nil => simp at hu
      | cons => exact hu

theorem of_cons {t : Token} {ts : List Token} (h : Canonical (t :: ts)) : Canonical ts := by
  cases h with
  | symbol _ h => exact h
  | word _ _ h => exact h

/-- The tokens up to and including the one in the middle. -/
theorem through {ts us : List Token} {t : Token} (h : Canonical (ts ++ t :: us)) :
    Canonical (ts ++ [t]) := by
  rw [List.append_cons] at h
  exact h.of_append_left

theorem valid {ts : List Token} (h : Canonical ts) : ∀ t ∈ ts, t.Valid := by
  induction h with
  | nil => simp
  | @symbol t ts ht _ ih =>
    intro u hu
    rcases List.mem_cons.mp hu with rfl | hu
    · cases u <;> trivial
    · exact ih u hu
  | word hw _ _ ih =>
    intro u hu
    rcases List.mem_cons.mp hu with rfl | hu
    · exact hw
    · exact ih u hu

end Canonical

/-! ## Cutting in front of other text -/

/-- The text does not begin with a word character. -/
def Stops (cs : List Char) : Prop :=
  ∀ c, cs.head? = some c → isWordChar c = false

/-- The text `cs` does not go on with a word that `ts` ends in. -/
def Closed (ts : List Token) (cs : List Char) : Prop :=
  ∀ t, ts.getLast? = some t → t.isWord = true → Stops cs

theorem stops_symbol {t : Token} (ht : t.isWord = false) (cs : List Char) :
    Stops (t.chars ++ cs) := by
  obtain ⟨c, hc, hs⟩ := exists_ofSymbol? ht
  intro d hd
  obtain rfl : c = d := by simpa [hc] using hd
  cases hw : isWordChar c with
  | false => rfl
  | true => simp [ofSymbol?_of_isWordChar hw] at hs

theorem Closed.of_cons {t : Token} {ts : List Token} {cs : List Char} (h : Closed (t :: ts) cs) :
    Closed ts cs := by
  intro u hu
  refine h u ?_
  cases ts with
  | nil => simp at hu
  | cons => simpa using hu

/-- Inside a canonical list, no word goes on in the token after it. -/
theorem Canonical.closed {ts us : List Token} {t : Token} (h : Canonical (ts ++ t :: us))
    (cs : List Char) : Closed ts (t.chars ++ cs) := by
  induction ts with
  | nil => simp [Closed]
  | cons a ts ih =>
    intro u hu hword
    cases ts with
    | nil =>
      obtain rfl : a = u := by simpa using hu
      cases h with
      | symbol ha _ => simp [ha] at hword
      | word _ hnext _ => exact stops_symbol (hnext t rfl) cs
    | cons b bs => exact ih h.of_cons u (by simpa using hu) hword

/-- A word is cut as long as it can be. -/
theorem cut_name_append {w : String} (hw : isName w = true) (cs : List Char) :
    cut (w.toList ++ cs) = .word (String.ofList (w.toList ++ cs.takeWhile isWordChar)) ::
      cut (cs.dropWhile isWordChar) := by
  obtain ⟨hne, hall⟩ := isName_iff.mp hw
  obtain ⟨c, rest, hcs⟩ := List.exists_cons_of_ne_nil hne
  rw [hcs] at hall ⊢
  have hrest : ∀ d ∈ rest, isWordChar d = true := fun d hd => hall d (by simp [hd])
  rw [List.cons_append, cut_word (ofSymbol?_of_isWordChar (hall c (by simp))),
    List.takeWhile_append_of_pos hrest, List.dropWhile_append_of_pos hrest, List.cons_append]

theorem cut_name_append_of_stops {w : String} (hw : isName w = true) {cs : List Char}
    (hcs : Stops cs) : cut (w.toList ++ cs) = .word w :: cut cs := by
  rw [cut_name_append hw]
  cases cs with
  | nil => simp
  | cons c cs => simp [hcs c rfl]

/-- A canonical list is found again in front of a text that does not go on with its last word. -/
theorem cut_spell_append {ts : List Token} (h : Canonical ts) {cs : List Char}
    (hcs : Closed ts cs) : cut (spell ts ++ cs) = ts ++ cut cs := by
  induction h with
  | nil => rfl
  | @symbol t ts ht h ih =>
    obtain ⟨c, hc, hs⟩ := exists_ofSymbol? ht
    simp [hc, cut_symbol hs, ih hcs.of_cons]
  | @word w ts hw hnext h ih =>
    have hstop : Stops (spell ts ++ cs) := by
      cases ts with
      | nil => exact hcs (.word w) rfl rfl
      | cons t ts =>
        rw [spell_cons, List.append_assoc]
        exact stops_symbol (hnext t rfl) _
    have hcut := cut_name_append_of_stops hw hstop
    simpa [Token.chars, ih hcs.of_cons] using hcut

theorem cut_spell {ts : List Token} (h : Canonical ts) : cut (spell ts) = ts := by
  have hclosed : Closed ts [] := by simp [Closed, Stops]
  simpa using cut_spell_append h hclosed

/-- The last token may turn out longer when the text goes on, but it stays a word if it was one, and
the tokens before it stay what they were. -/
theorem exists_cut_spell_concat_append {ts : List Token} {t : Token}
    (h : Canonical (ts ++ [t])) (cs : List Char) :
    ∃ u us, cut (spell (ts ++ [t]) ++ cs) = ts ++ u :: us ∧
      (u = t ∨ (t.isWord = true ∧ u.isWord = true)) := by
  have hcut : cut (spell (ts ++ [t]) ++ cs) = ts ++ cut (t.chars ++ cs) := by
    rw [spell_append, spell_cons, spell_nil, List.append_nil, List.append_assoc]
    exact cut_spell_append h.of_append_left (h.closed cs)
  cases hw : t.isWord with
  | false =>
    obtain ⟨c, hc, hs⟩ := exists_ofSymbol? hw
    exact ⟨t, cut cs, by rw [hcut, hc, List.singleton_append, cut_symbol hs], .inl rfl⟩
  | true =>
    cases t with
    | word w =>
      have hname : isName w = true := h.valid (.word w) (by simp)
      exact ⟨_, _, by rw [hcut, Token.chars, cut_name_append hname], .inr ⟨rfl, rfl⟩⟩
    | _ => simp [isWord] at hw

/-! ## The alphabet -/

theorem firstInvalid?_eq_none_iff {p : Nat} {cs : List Char} :
    firstInvalid? p cs = none ↔ ∀ c ∈ cs, inAlphabet c = true := by
  induction cs generalizing p with
  | nil => simp [firstInvalid?]
  | cons c cs ih => by_cases h : inAlphabet c = true <;> simp [firstInvalid?, h, ih]

theorem tokenize_of_inAlphabet {s : String} (h : ∀ c ∈ s.toList, inAlphabet c = true) :
    tokenize s = .ok (scan 0 s.toList) := by
  simp [tokenize, firstInvalid?_eq_none_iff.mpr h]

theorem map_token_of_tokenize {s : String} {placed : List PlacedToken}
    (h : tokenize s = .ok placed) : placed.map (·.token) = cut s.toList := by
  unfold tokenize at h
  split at h
  · cases h
  · cases h
    rfl

theorem inAlphabet_of_mem_chars {t : Token} (ht : t.Valid) {c : Char} (hc : c ∈ t.chars) :
    inAlphabet c = true := by
  cases hw : t.isWord with
  | false =>
    obtain ⟨d, hd, hs⟩ := exists_ofSymbol? hw
    obtain rfl : c = d := by simpa [hd] using hc
    simp [inAlphabet, hs]
  | true =>
    cases t with
    | word w => simp [inAlphabet, (isName_iff.mp ht).2 c hc]
    | _ => simp [isWord] at hw

theorem inAlphabet_of_mem_spell {ts : List Token} (h : ∀ t ∈ ts, t.Valid) {c : Char}
    (hc : c ∈ spell ts) : inAlphabet c = true := by
  obtain ⟨t, ht, hc⟩ := List.mem_flatMap.mp hc
  exact inAlphabet_of_mem_chars (h t ht) hc

end Lexer

end PostFilter
