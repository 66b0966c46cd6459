import PostFilter.Proofs.TableLines

/-!
# The colors of a post table

Colors are written as escape sequences around the texts of a table, never inside them. Both tables
of a page are made of the same cells, which are padded before they are colored. Deleting the
sequences leaves the table without colors, as long as no name or content brings escape characters of
its own.
-/

namespace PostFilter

/-! ## Color sequences -/

namespace Ansi

/-- A color sequence begins with this character and a bracket. -/
def escape : Char := '\x1b'

def isParameter (c : Char) : Bool :=
  c.isDigit || c == ';'

/-- What follows the rest of a color sequence: a bracket, parameters and an `m`. -/
def afterSequence? : List Char → Option (List Char)
  | '[' :: cs =>
    match cs.dropWhile isParameter with
    | 'm' :: rest => some rest
    | _ => none
  | _ => none

theorem length_afterSequence? {cs rest : List Char} (h : afterSequence? cs = some rest) :
    rest.length < cs.length := by
  unfold afterSequence? at h
  split at h
  · next cs =>
    split at h
    · next rest' hdrop =>
      cases h
      have hle := (List.dropWhile_suffix isParameter (l := cs)).length_le
      rw [hdrop] at hle
      simp only [List.length_cons] at hle ⊢
      omega
    · cases h
  · cases h

/-- Delete all color sequences. -/
def strip : List Char → List Char
  | [] => []
  | c :: cs =>
    if c = escape then
      match _h : afterSequence? cs with
      | some rest => strip rest
      | none => c :: strip cs
    else c :: strip cs
termination_by cs => cs.length
decreasing_by
  · have := length_afterSequence? _h
    simp only [List.length_cons]
    omega
  · simp
  · simp

theorem strip_cons_of_ne {c : Char} (h : c ≠ escape) (cs : List Char) :
    strip (c :: cs) = c :: strip cs := by
  rw [strip, if_neg h]

theorem strip_sequence {cs rest : List Char} (h : afterSequence? cs = some rest) :
    strip (escape :: cs) = strip rest := by
  rw [strip, if_pos rfl]
  split
  · next rest' hrest =>
    obtain rfl : rest' = rest := Option.some.inj (hrest.symm.trans h)
    rfl
  · next hnone => cases hnone.symm.trans h

/-- Deleting color sequences turns one text into the other, wherever it stands. -/
def Strips (dressed plain : String) : Prop :=
  ∀ rest, strip (dressed.toList ++ rest) = plain.toList ++ strip rest

variable {s t s' t' : String}

namespace Strips

theorem eq (h : Strips s t) : strip s.toList = t.toList := by
  simpa [strip] using h []

/-- A text without escape characters stays as it is. -/
theorem plain (h : escape ∉ s.toList) : Strips s s := by
  intro rest
  generalize s.toList = cs at h
  induction cs with
  | nil => rfl
  | cons c cs ih =>
    rw [List.mem_cons, not_or] at h
    rw [List.cons_append, strip_cons_of_ne (Ne.symm h.1), ih h.2, List.cons_append]

theorem append (h : Strips s t) (h' : Strips s' t') : Strips (s ++ s') (t ++ t') := by
  intro rest
  rw [String.toList_append, String.toList_append, List.append_assoc, h, h', List.append_assoc]

theorem opening (style : Style) : Strips style.opening "" := by
  intro rest
  cases style <;> exact strip_sequence rfl

theorem closing (style : Style) : Strips style.closing "" := by
  intro rest
  cases style <;> exact strip_sequence rfl

theorem paint (style : Style) (h : escape ∉ s.toList) : Strips (style.paint s) s := by
  have hpaint := ((opening style).append (plain h)).append (closing style)
  simpa [Style.paint] using hpaint

theorem paintIf (style : Style) (h : escape ∉ s.toList) :
    Strips (style.paintIf true s) (style.paintIf false s) :=
  paint style h

theorem ended {ls ls' : List String} (h : List.Forall₂ Strips ls ls') :
    Strips (Text.ended ls) (Text.ended ls') := by
  induction h with
  | nil => exact plain (by simp [Text.ended])
  | cons hl hls ih =>
    rw [Text.ended_cons, Text.ended_cons]
    exact (hl.append (plain (by decide))).append ih

end Strips

end Ansi

/-! ## Tables -/

open Ansi

/-- The name and the content of the row hold no escape characters. -/
def PostRow.IsPlain (row : PostRow) : Prop :=
  (∀ name ∈ row.author, escape ∉ name.toList) ∧ ∀ content ∈ row.content, escape ∉ content.toList

namespace Table

theorem isControl_escape : IsControl escape := by
  decide

variable {row : PostRow}

theorem not_mem_authorCell (h : row.IsPlain) :
    escape ∉ (cell authorWidth (authorText row)).toList := by
  rw [← List.count_eq_zero, count_authorCell isControl_escape, List.count_eq_zero,
    PostRow.shownAuthor]
  cases hauthor : row.author with
  | none => simp
  | some name =>
    have hname := h.1 name hauthor
    simp only [PostRow.shownName]
    split_ifs
    · exact hname
    · exact fun hmem => hname (List.mem_of_mem_take hmem)

theorem not_mem_contentText (h : row.IsPlain) : escape ∉ (contentText false row).toList := by
  intro hmem
  obtain ⟨content, hcontent, hin, -⟩ := mem_contentText isControl_escape hmem
  exact h.2 content hcontent hin

theorem strips_contentText (h : row.IsPlain) :
    Strips (contentText true row) (contentText false row) := by
  have hplain := not_mem_contentText h
  unfold contentText at hplain ⊢
  split
  · next content hcontent =>
    rw [hcontent] at hplain
    exact .plain hplain
  · exact .paintIf .dimmed (by decide)

theorem strips_header : Strips (header true) (header false) := by
  have hplain : escape ∉ (header false).toList := by simp [header_plain, escape]
  exact .paintIf .dimmed hplain

theorem strips_rowLine (localOffset : Instant → Int) (h : row.IsPlain) :
    Strips (rowLine localOffset true row) (rowLine localOffset false row) := by
  have hid := Strips.paintIf .cyan (not_mem_idCell isControl_escape row.id)
  have hauthor := Strips.paintIf .green (not_mem_authorCell h)
  have hcreated := Strips.plain (not_mem_createdCell isControl_escape localOffset row.createdAt)
  have hspace : Strips " " " " := .plain (by decide)
  unfold rowLine line
  exact (((((hid.append hspace).append hauthor).append hspace).append hcreated).append
    hspace).append (strips_contentText h)

theorem strips_footer (page : PostPage) : Strips (footer true page) (footer false page) :=
  .paintIf .dimmed (by simp [escape, Nat.not_mem_toDigits (c := '\x1b') (by decide)])

theorem forall₂_strips_lines (localOffset : Instant → Int) {page : PostPage}
    (h : ∀ row ∈ page.rows, row.IsPlain) :
    List.Forall₂ Strips (lines localOffset true page) (lines localOffset false page) := by
  have hrows : List.Forall₂ Strips (page.rows.map (rowLine localOffset true))
      (page.rows.map (rowLine localOffset false)) := by
    rw [List.forall₂_map_left_iff, List.forall₂_map_right_iff, List.forall₂_same]
    exact fun row hrow => strips_rowLine localOffset (h row hrow)
  unfold lines
  refine List.rel_append (.cons strips_header hrows) ?_
  split_ifs
  · exact .cons (strips_footer page) .nil
  · exact .nil

theorem render_colored_ne {page : PostPage} (localOffset : Instant → Int) (h : page.rows ≠ []) :
    render localOffset true page ≠ render localOffset false page := by
  rw [render_of_rows h, render_of_rows h, lines, lines, List.cons_append, List.cons_append,
    Text.ended_cons, Text.ended_cons]
  intro heq
  -- the header begins with an escape character, or with its first letter
  have hdressed : (header true).toList.head? = some escape := rfl
  have hletter : (header false).toList.head? = some 'I' := rfl
  have hhead := congrArg (fun text => text.toList.head?) heq
  simp [List.head?_append, hdressed, hletter, escape] at hhead

/-! ## The same cells -/

/-- The cells of a line that are padded. -/
structure Columns (id author created a b c : String) : Prop where
  id : Text.Fills 10 id a
  author : Text.Fills 16 author b
  created : Text.Fills 17 created c

theorem columns_cells (id author created : String) :
    Columns id author created (cell idWidth id) (cell authorWidth author)
      (cell createdWidth created) :=
  ⟨Text.fills_padRight 10 id, Text.fills_padRight 16 author, Text.fills_padRight 17 created⟩

/-- The plain and the colored header. The color covers the whole line. -/
inductive HeaderLines : String → String → Prop
  | intro {a b c : String} (cells : Columns "ID" "Author" "Created" a b c) :
      HeaderLines (a ++ " " ++ b ++ " " ++ c ++ " " ++ "Content")
        ("\x1b[2m" ++ (a ++ " " ++ b ++ " " ++ c ++ " " ++ "Content") ++ "\x1b[0m")

theorem headerLines : HeaderLines (header false) (header true) :=
  .intro (columns_cells "ID" "Author" "Created")

/-- The plain and the colored content of a row, where `none` stands for a post that is not in the
snapshot. -/
inductive ContentCells : Option String → String → String → Prop
  | known (content : String) :
      ContentCells (some content) (Text.truncate 60 (Text.singleLine content))
        (Text.truncate 60 (Text.singleLine content))
  | missing : ContentCells none "(not in snapshot)" ("\x1b[2m" ++ "(not in snapshot)" ++ "\x1b[0m")

/-- The plain and the colored line of a row. Both are made of the same padded cells, and the color
of a cell covers its padding too. -/
inductive RowLines (localOffset : Instant → Int) (row : PostRow) : String → String → Prop
  | intro {a b c d d' : String}
      (cells : Columns (Text.shortId row.id.hex)
        (Text.truncate 16 (row.author.elim "?" fun name => "@" ++ name))
        (row.createdAt.elim "" fun t => t.localMinute (localOffset t)) a b c)
      (content : ContentCells row.content d d') :
      RowLines localOffset row (a ++ " " ++ b ++ " " ++ c ++ " " ++ d)
        ("\x1b[36m" ++ a ++ "\x1b[39m" ++ " " ++ ("\x1b[32m" ++ b ++ "\x1b[39m") ++ " " ++ c ++
          " " ++ d')

theorem authorText_eq (row : PostRow) :
    authorText row = Text.truncate 16 (row.author.elim "?" fun name => "@" ++ name) := by
  unfold authorText
  cases row.author <;> rfl

theorem createdText_eq (localOffset : Instant → Int) (createdAt : Option Instant) :
    createdText localOffset createdAt =
      createdAt.elim "" fun t => t.localMinute (localOffset t) := by
  cases createdAt <;> rfl

theorem contentCells (row : PostRow) :
    ContentCells row.content (contentText false row) (contentText true row) := by
  unfold contentText
  cases row.content with
  | some content => exact .known content
  | none => exact .missing

theorem rowLines (localOffset : Instant → Int) (row : PostRow) :
    RowLines localOffset row (rowLine localOffset false row) (rowLine localOffset true row) := by
  have hcells := columns_cells (Text.shortId row.id.hex) (authorText row)
    (createdText localOffset row.createdAt)
  refine .intro ⟨hcells.id, ?_, ?_⟩ (contentCells row)
  · rw [← authorText_eq]
    exact hcells.author
  · rw [← createdText_eq]
    exact hcells.created

/-- The plain and the colored table of a page with rows, line by line. -/
theorem exists_rowLines (localOffset : Instant → Int) (page : PostPage) :
    ∃ rows, List.Forall₂ (fun row l => RowLines localOffset row l.1 l.2) page.rows rows ∧
      lines localOffset false page = header false :: rows.map Prod.fst ++
        (if page.truncated then [footer false page] else []) ∧
      lines localOffset true page = header true :: rows.map Prod.snd ++
        (if page.truncated then [footer true page] else []) := by
  refine ⟨page.rows.map fun row => (rowLine localOffset false row, rowLine localOffset true row),
    ?_, ?_, ?_⟩
  · rw [List.forall₂_map_right_iff, List.forall₂_same]
    exact fun row _ => rowLines localOffset row
  · simp [lines]
  · simp [lines]

/-- Deleting the color sequences of a table gives the table without colors, if no name or content
that it may show holds an escape character. Only the text for no posts has no colors to delete. The
two tables of a page with rows have the same cells, padded by characters, in all their lines. Colors
stand around the padded cells of a row and around the whole header and footer. -/
theorem strip_render_colored (localOffset : Instant → Int) (page : PostPage) :
    ((∀ row ∈ page.rows, row.IsPlain) →
      strip (render localOffset true page).toList = (render localOffset false page).toList) ∧
    (render localOffset true page = render localOffset false page ↔ page.rows = []) ∧
    (page.rows ≠ [] →
      let footer := if page.truncated then ["Showing " ++ toString page.rows.length ++ " of " ++
        toString page.total ++ " posts (use --all to show everything)"] else []
      ∃ head head' rows, HeaderLines head head' ∧
        List.Forall₂ (fun row l => RowLines localOffset row l.1 l.2) page.rows rows ∧
        render localOffset false page = Text.ended (head :: rows.map Prod.fst ++ footer) ∧
        render localOffset true page = Text.ended (head' :: rows.map Prod.snd ++
          footer.map fun l => "\x1b[2m" ++ l ++ "\x1b[0m")) := by
  by_cases hrows : page.rows = []
  · have htrue : render localOffset true page = "No posts found.\n" := render_eq_iff.mpr hrows
    have hfalse : render localOffset false page = "No posts found.\n" := render_eq_iff.mpr hrows
    have hplain : escape ∉ "No posts found.\n".toList := by decide
    rw [htrue, hfalse]
    exact ⟨fun _ => (Strips.plain hplain).eq, by simp [hrows], fun h => absurd hrows h⟩
  · have hne := render_colored_ne localOffset hrows
    rw [render_of_rows hrows, render_of_rows hrows] at hne ⊢
    refine ⟨fun h => (Strips.ended (forall₂_strips_lines localOffset h)).eq, by simp [hne, hrows],
      fun _ => ?_⟩
    obtain ⟨rows, hlines, hfalse, htrue⟩ := exists_rowLines localOffset page
    refine ⟨header false, header true, rows, headerLines, hlines, by rw [hfalse]; rfl, ?_⟩
    rw [htrue]
    split_ifs <;> rfl

/-- A page with a row of each kind, the first with a name and a content that are cut. -/
def mixedPage : PostPage where
  rows := [⟨.ofByte 7, some "a_very_long_username", some (String.ofList (List.replicate 61 'x')),
      PostPage.newYearsEve true⟩,
    ⟨.ofByte 8, none, some "two\nlines", none⟩, ⟨.ofByte 9, none, none, none⟩]
  total := 5

/-- A clock that is put forward for six months. -/
def summerTime (t : Instant) : Int :=
  if 4 ≤ t.date.month ∧ t.date.month ≤ 9 then 7200 else 3600

theorem strip_render_colored_mixed :
    strip (render summerTime true mixedPage).toList = (render summerTime false mixedPage).toList ∧
    render summerTime true mixedPage ≠ render summerTime false mixedPage ∧
    ∃ head head' rows, HeaderLines head head' ∧
      List.Forall₂ (fun row l => RowLines summerTime row l.1 l.2) mixedPage.rows rows ∧
      render summerTime true mixedPage = Text.ended (head' :: rows.map Prod.snd ++
        ["\x1b[2mShowing 3 of 5 posts (use --all to show everything)\x1b[0m"]) := by
  have hplain : ∀ row ∈ mixedPage.rows, row.IsPlain := by
    simp [mixedPage, PostRow.IsPlain, escape]
  have hrows : mixedPage.rows ≠ [] := by simp [mixedPage]
  obtain ⟨hstrip, hsame, hlines⟩ := strip_render_colored summerTime mixedPage
  obtain ⟨head, head', rows, hhead, hforall, -, hcolored⟩ := hlines hrows
  exact ⟨hstrip hplain, fun heq => hrows (hsame.mp heq), head, head', rows, hhead, hforall,
    hcolored⟩

end Table

end PostFilter
