import Mathlib
import PostFilter.Text.Blank

/-!
# Texts on a single line

On a single line there are the words of a text, which are its maximal runs of characters that are
not blank, with one space between neighbours. This changes nothing on a line that is single already,
and neither does it change a text to be cut to a width that it fits in. So the cell of a content
says as much of it as there is room for.
-/

namespace PostFilter.Text

variable {c : Char} {cs w : List Char} {ws : List (List Char)} {s : String} {width : Nat}

/-! ## Words -/

/-- The text is cut into words, with nothing but blanks around them. No character of a word is
blank, and where a word ends there is a blank, or the text ends. -/
inductive Runs : List Char → List (List Char) → Prop
  | blank {cs : List Char} : (∀ c ∈ cs, isBlank c = true) → Runs cs []
  | word {gap w cs : List Char} {ws : List (List Char)} : (∀ c ∈ gap, isBlank c = true) →
      w ≠ [] → (∀ c ∈ w, isBlank c = false) → (∀ c, cs.head? = some c → isBlank c = true) →
      Runs cs ws → Runs (gap ++ (w ++ cs)) (w :: ws)

theorem runs_words (cs : List Char) : Runs cs (words cs) := by
  fun_induction words cs with
  | case1 cs hnil => exact .blank (by simpa [trimStart, List.dropWhile_eq_nil_iff] using hnil)
  | case2 cs c rest hcs ih =>
    have hc : isBlank c = false := by
      have hhead := List.head?_dropWhile_not isBlank cs
      rw [trimStart] at hcs
      simpa [hcs] using hhead
    have hgap : ∀ d ∈ cs.takeWhile isBlank, isBlank d = true := fun d => List.mem_takeWhile_imp
    have hword : ∀ d ∈ c :: rest.takeWhile (!isBlank ·), isBlank d = false := by
      refine List.forall_mem_cons.mpr ⟨hc, fun d hd => ?_⟩
      simpa using List.mem_takeWhile_imp hd
    have hnext : ∀ d, (rest.dropWhile (!isBlank ·)).head? = some d → isBlank d = true := by
      intro d hd
      have hhead := List.head?_dropWhile_not (!isBlank ·) rest
      simpa [hd] using hhead
    have hruns := Runs.word hgap (List.cons_ne_nil c _) hword hnext ih
    rwa [List.cons_append, List.takeWhile_append_dropWhile, ← hcs, trimStart,
      List.takeWhile_append_dropWhile] at hruns

theorem words_of_trimStart_eq_cons {rest : List Char} (h : trimStart cs = c :: rest) :
    words cs = (c :: rest.takeWhile (!isBlank ·)) :: words (rest.dropWhile (!isBlank ·)) := by
  rw [words]
  split
  · next hnil => simp [hnil] at h
  · next hcons =>
    obtain ⟨rfl, rfl⟩ := List.cons.inj (hcons.symm.trans h)
    rfl

/-- There is no other way to cut the text. -/
theorem Runs.words_eq (h : Runs cs ws) : words cs = ws := by
  induction h with
  | @blank cs hblank =>
    have hnil : trimStart cs = [] := by simpa [trimStart, List.dropWhile_eq_nil_iff] using hblank
    rw [words]
    split
    · rfl
    · next hcons => simp [hnil] at hcons
  | @word gap w cs ws hgap hne hword hnext _ ih =>
    -- the gap is skipped, and then the word is taken up to the blank after it
    obtain ⟨c, w, rfl⟩ := List.exists_cons_of_ne_nil hne
    obtain ⟨hc, hw⟩ := List.forall_mem_cons.mp hword
    have hw' : ∀ d ∈ w, (!isBlank d) = true := fun d hd => by simp [hw d hd]
    have hstart : trimStart (gap ++ (c :: w ++ cs)) = c :: (w ++ cs) := by
      rw [trimStart, List.dropWhile_append_of_pos hgap, List.cons_append,
        List.dropWhile_cons_of_neg (by simp [hc])]
    have hends : cs.takeWhile (!isBlank ·) = [] ∧ cs.dropWhile (!isBlank ·) = cs := by
      cases cs with
      | nil => simp
      | cons d cs => simp [hnext d rfl]
    rw [words_of_trimStart_eq_cons hstart, List.takeWhile_append_of_pos hw',
      List.dropWhile_append_of_pos hw', hends.1, hends.2, List.append_nil, ih]

theorem runs_iff : Runs cs ws ↔ ws = words cs :=
  ⟨fun h => h.words_eq.symm, fun h => h ▸ runs_words cs⟩

/-- A word is what may stand between blanks. -/
def IsWord (w : List Char) : Prop :=
  w ≠ [] ∧ ∀ c ∈ w, isBlank c = false

theorem Runs.isWord (h : Runs cs ws) : ∀ w ∈ ws, IsWord w ∧ w ⊆ cs := by
  induction h with
  | blank => simp
  | word _ hne hword _ _ ih =>
    refine List.forall_mem_cons.mpr ⟨⟨⟨hne, hword⟩, by simp⟩, fun v hv => ?_⟩
    obtain ⟨hv, hsubset⟩ := ih v hv
    exact ⟨hv, fun c hc => by simp [hsubset hc]⟩

theorem isWord_of_mem_words (hw : w ∈ words cs) : IsWord w :=
  ((runs_words cs).isWord w hw).1

/-- A word is made of characters of the text that are not blank. -/
theorem mem_of_mem_words (hw : w ∈ words cs) (hc : c ∈ w) : c ∈ cs ∧ isBlank c = false := by
  obtain ⟨hword, hsubset⟩ := (runs_words cs).isWord w hw
  exact ⟨hsubset hc, hword.2 c hc⟩

/-! ## Single lines -/

theorem Runs.cons_blank (h : Runs cs ws) (hc : isBlank c = true) : Runs (c :: cs) ws := by
  cases h with
  | blank hblank => exact .blank (List.forall_mem_cons.mpr ⟨hc, hblank⟩)
  | word hgap hne hword hnext h =>
    rw [← List.cons_append]
    exact .word (List.forall_mem_cons.mpr ⟨hc, hgap⟩) hne hword hnext h

theorem mem_intercalate {d : Char} {ws : List (List Char)} (h : c ∈ [d].intercalate ws) :
    c = d ∨ ∃ w ∈ ws, c ∈ w := by
  induction ws with
  | nil => simp at h
  | cons w ws ih =>
    cases ws with
    | nil => exact .inr ⟨w, by simp, by simpa using h⟩
    | cons w' ws =>
      rw [List.intercalate_cons_cons, List.append_assoc, List.mem_append] at h
      grind

theorem mem_singleLine (h : c ∈ (singleLine s).toList) :
    c = ' ' ∨ c ∈ s.toList ∧ isBlank c = false := by
  rw [singleLine, String.toList_ofList] at h
  rcases mem_intercalate h with h | ⟨w, hw, hc⟩
  · exact .inl h
  · exact .inr (mem_of_mem_words hw hc)

/-- The words on a single line are those that it is made of. -/
theorem runs_intercalate (h : ∀ w ∈ ws, IsWord w) : Runs ([' '].intercalate ws) ws := by
  induction ws with
  | nil => exact .blank (by simp)
  | cons w ws ih =>
    obtain ⟨⟨hne, hword⟩, hws⟩ := List.forall_mem_cons.mp h
    cases ws with
    | nil =>
      have hruns : Runs ([] ++ (w ++ [])) [w] :=
        .word (by simp) hne hword (by simp) (.blank (by simp))
      simpa using hruns
    | cons w' ws =>
      have hrest : Runs (' ' :: [' '].intercalate (w' :: ws)) (w' :: ws) := (ih hws).cons_blank rfl
      have hnext : ∀ c, (' ' :: [' '].intercalate (w' :: ws)).head? = some c →
          isBlank c = true := by
        rintro _ ⟨⟩
        rfl
      have hruns : Runs ([] ++ (w ++ ' ' :: [' '].intercalate (w' :: ws))) (w :: w' :: ws) :=
        .word (by simp) hne hword hnext hrest
      simpa [List.intercalate_cons_cons] using hruns

theorem words_singleLineChars (cs : List Char) : words (singleLineChars cs) = words cs :=
  (runs_intercalate fun _ => isWord_of_mem_words).words_eq

theorem singleLine_singleLine (s : String) : singleLine (singleLine s) = singleLine s := by
  rw [singleLine, singleLine, String.toList_ofList, singleLineChars, words_singleLineChars]
  rfl

theorem toList_singleLine (s : String) :
    (singleLine s).toList = [' '].intercalate (words s.toList) :=
  String.toList_ofList

theorem intercalate_ne_nil (h : ∀ w ∈ ws, IsWord w) (hne : ws ≠ []) :
    [' '].intercalate ws ≠ [] := by
  intro hnil
  have hwords := (runs_intercalate h).words_eq
  rw [hnil, (Runs.blank (by simp)).words_eq] at hwords
  exact hne hwords.symm

/-- A line begins with a word, and it ends with one. -/
theorem not_isBlank_of_ends (h : ∀ w ∈ ws, IsWord w)
    (hc : ([' '].intercalate ws).head? = some c ∨ ([' '].intercalate ws).getLast? = some c) :
    isBlank c = false := by
  induction ws with
  | nil => simp at hc
  | cons w ws ih =>
    obtain ⟨⟨hne, hword⟩, hws⟩ := List.forall_mem_cons.mp h
    cases ws with
    | nil =>
      rw [List.intercalate_singleton] at hc
      exact hword c (hc.elim List.mem_of_mem_head? List.mem_of_getLast?)
    | cons w' ws =>
      have hrest := intercalate_ne_nil hws (List.cons_ne_nil w' ws)
      rw [List.intercalate_cons_cons, List.append_assoc, List.head?_append_of_ne_nil w hne,
        List.getLast?_append_of_ne_nil w (by simp), List.getLast?_append_of_ne_nil [' '] hrest]
        at hc
      rcases hc with hc | hc
      · exact hword c (List.mem_of_mem_head? hc)
      · exact ih hws (.inr hc)

/-! ## Cutting -/

theorem truncate_of_length_le (h : s.length ≤ width) : truncate width s = s := by
  rw [truncate, truncateChars, String.length_toList, if_neg (Nat.not_lt.mpr h),
    String.ofList_toList]

theorem toList_truncate_of_lt (h : width < s.length) :
    (truncate width s).toList = s.toList.take (width - 3) ++ "...".toList := by
  rw [truncate, String.toList_ofList, truncateChars, String.length_toList, if_pos h]
  rfl

theorem mem_truncate (h : c ∈ (truncate width s).toList) : c = '.' ∨ c ∈ s.toList := by
  rw [truncate, String.toList_ofList, truncateChars] at h
  split at h
  · rcases List.mem_append.mp h with h | h
    · exact .inr (List.mem_of_mem_take h)
    · exact .inl (by simpa using h)
  · exact .inr h

theorem length_truncate_le (hwidth : 3 ≤ width) (s : String) :
    (truncate width s).length ≤ width := by
  by_cases h : s.length ≤ width
  · rwa [truncate_of_length_le h]
  · have hlt : width < s.length := Nat.lt_of_not_le h
    rw [← String.length_toList, toList_truncate_of_lt hlt]
    simp
    omega

/-- A single line holds the words of the text, which are its maximal runs of characters that are not
blank, with one space between neighbours. No other character on it is blank, it begins and ends with
a word, and it is a single line already. Cut to a width it fits in, and cut once more it stays: it
is the line, if that is short enough, or otherwise the beginning of it and three dots. -/
theorem truncate_singleLine_exact (s : String) (width : Nat) (hwidth : 3 ≤ width) :
    (∃ ws, (∀ ws', Runs s.toList ws' ↔ ws' = ws) ∧
      (singleLine s).toList = [' '].intercalate ws) ∧
    (∀ c ∈ (singleLine s).toList, isBlank c = true → c = ' ') ∧
    (∀ c, (singleLine s).toList.head? = some c ∨ (singleLine s).toList.getLast? = some c →
      isBlank c = false) ∧
    singleLine (singleLine s) = singleLine s ∧
    (truncate width (singleLine s)).length ≤ width ∧
    ((singleLine s).length ≤ width → truncate width (singleLine s) = singleLine s) ∧
    (width < (singleLine s).length → (truncate width (singleLine s)).toList =
      (singleLine s).toList.take (width - 3) ++ "...".toList) ∧
    truncate width (truncate width (singleLine s)) = truncate width (singleLine s) := by
  refine ⟨⟨words s.toList, fun ws' => runs_iff, toList_singleLine s⟩, fun c hc hblank => ?_,
    fun c hc => ?_, singleLine_singleLine s, length_truncate_le hwidth _, truncate_of_length_le,
    toList_truncate_of_lt, truncate_of_length_le (length_truncate_le hwidth _)⟩
  · rcases mem_singleLine hc with rfl | ⟨-, hnot⟩
    · rfl
    · simp [hnot] at hblank
  · rw [toList_singleLine] at hc
    exact not_isBlank_of_ends (fun _ => isWord_of_mem_words) hc

/-- Separators of lines and of paragraphs are blank, a combining accent is not, and characters are
counted as such. The line has seven of them. -/
theorem truncate_singleLine_exact_boundary :
    let s := "\u2028h\u00e9\u0085\u00a0e\u0301 \u2029\t\u4e16\u3000"
    singleLine s = "h\u00e9 e\u0301 \u4e16" ∧
      truncate 7 (singleLine s) = singleLine s ∧
      (truncate 6 (singleLine s)).toList = ['h', '\u00e9', ' ', '.', '.', '.'] ∧
      truncate 6 (truncate 6 (singleLine s)) = truncate 6 (singleLine s) := by
  intro s
  have hline : singleLine s = "h\u00e9 e\u0301 \u4e16" := by cbv
  have hlength : (singleLine s).length = 7 := by
    rw [hline]
    rfl
  obtain ⟨-, -, -, -, -, hfits, -, -⟩ := truncate_singleLine_exact s 7 (by decide)
  obtain ⟨-, -, -, -, -, -, hcut, hagain⟩ := truncate_singleLine_exact s 6 (by decide)
  refine ⟨hline, hfits (by omega), ?_, hagain⟩
  rw [hcut (by omega), hline]
  rfl

end PostFilter.Text
