import PostFilter.Proofs.Pages
import PostFilter.Proofs.TableCells
import PostFilter.Report.Document

/-!
# The lines of a post table

A table is a header, a line for each row and perhaps a footer, each ended by a line feed. A limit of
zero leaves no row to be shown, and then the table says that there are no posts, even if some
matched. A line feed in the shown part of an author's name splits the line of its row; nothing else
does.
-/

namespace PostFilter

/-! ## Lines of a text -/

namespace Text

/-- What stands between the line feeds of a text, before the first and after the last one. A text
that ends in a line feed has an empty last piece. -/
def lines (s : String) : List (List Char) :=
  s.toList.splitOn '\n'

/-- The text ends in the given line, and it is not the first one. -/
def EndsInLine (s line : String) : Prop :=
  ∃ above, s = above ++ "\n" ++ line ++ "\n"

/-- The text of some lines, each of them ended. -/
def ended (ls : List String) : String :=
  String.join (ls.map (· ++ "\n"))

theorem lines_append_newline (s t : String) : lines (s ++ "\n" ++ t) = lines s ++ lines t := by
  have hsplit : (s ++ "\n" ++ t).toList = s.toList ++ '\n' :: t.toList := by simp
  rw [lines, hsplit, List.splitOn_eq_splitOnP, List.splitOnP_append_cons _ _ (by rfl)]
  rfl

theorem lines_of_not_mem {s : String} (h : '\n' ∉ s.toList) : lines s = [s.toList] := by
  have hall : ∀ l ∈ [s.toList], '\n' ∉ l := by simpa using h
  have hsplit := List.splitOn_intercalate '\n' hall (by simp)
  rwa [List.intercalate_singleton] at hsplit

theorem length_lines (s : String) : (lines s).length = s.toList.count '\n' + 1 := by
  unfold lines
  induction s.toList with
  | nil => rfl
  | cons c cs ih =>
    rw [List.splitOn_cons_eq_if_modifyHead, List.count_cons]
    split <;> simp [ih]

theorem ended_cons (l : String) (ls : List String) : ended (l :: ls) = l ++ "\n" ++ ended ls := by
  simp [ended]

theorem lines_ended (ls : List String) : lines (ended ls) = ls.flatMap lines ++ [[]] := by
  induction ls with
  | nil => rfl
  | cons l ls ih => rw [ended_cons, lines_append_newline, ih, List.flatMap_cons, List.append_assoc]

/-- Every line feed in a line adds a piece. -/
theorem length_lines_ended (ls : List String) :
    (lines (ended ls)).length = ls.length + (ls.map fun l => l.toList.count '\n').sum + 1 := by
  induction ls with
  | nil => rfl
  | cons l ls ih =>
    rw [ended_cons, lines_append_newline, List.length_append, length_lines, ih, List.map_cons,
      List.sum_cons, List.length_cons]
    omega

theorem endsInLine_ended {ls : List String} (h : ls ≠ []) (line : String) :
    EndsInLine (ended (ls ++ [line])) line := by
  obtain ⟨init, last, rfl⟩ := (List.eq_nil_or_concat' ls).resolve_left h
  exact ⟨ended init ++ last, by simp [ended, String.append_assoc]⟩

/-- The line a text ends in is not its only one. -/
theorem EndsInLine.two_lt {s line : String} (h : EndsInLine s line) : 2 < (lines s).length := by
  obtain ⟨above, rfl⟩ := h
  rw [length_lines]
  simp
  omega

end Text

/-! ## Tables -/

namespace Table

variable {page : PostPage} {localOffset : Instant → Int} {colors : Bool}

theorem render_of_rows (h : page.rows ≠ []) :
    render localOffset colors page = Text.ended (lines localOffset colors page) := by
  rw [render, if_neg (by simpa using h)]
  rfl

theorem length_lines_le (localOffset : Instant → Int) (colors : Bool) (page : PostPage) :
    page.rows.length + 1 ≤ (lines localOffset colors page).length := by
  simp [lines]

/-- The text for no posts is short, so that it is no table with rows. -/
theorem render_eq_iff : render localOffset colors page = "No posts found.\n" ↔ page.rows = [] := by
  constructor
  · intro htext
    by_contra h
    have hpos : 0 < page.rows.length := List.length_pos_iff.mpr h
    have hlong := Text.length_lines_ended (lines localOffset colors page)
    have hle := length_lines_le localOffset colors page
    rw [← render_of_rows h, htext, Text.length_lines] at hlong
    have hshort : "No posts found.\n".toList.count '\n' = 1 := by decide
    omega
  · intro h
    simp [render, h]

/-- A table ends in its footer if it has rows. -/
theorem endsInLine_footer_iff (localOffset : Instant → Int) (colors : Bool)
    (h : page.truncated = true) :
    Text.EndsInLine (render localOffset colors page) (footer colors page) ↔ page.rows ≠ [] := by
  constructor
  · rintro hends hnil
    have hlong := hends.two_lt
    rw [render_eq_iff.mpr hnil] at hlong
    revert hlong
    decide
  · intro hrows
    rw [render_of_rows hrows, lines, if_pos h]
    exact Text.endsInLine_ended (by simp) _

end Table

namespace PostPage

variable {s : Snapshot} {ids : IdSet} {limit : Option Nat}

theorem length_rows_collect (s : Snapshot) (ids : IdSet) (k : Nat) :
    (collect s ids (some k)).rows.length = min k ids.size := by
  simp [rows_collect_some, length_allRows]

theorem rows_collect_eq_nil_iff : (collect s ids limit).rows = [] ↔ ids = ∅ ∨ limit = some 0 := by
  have hempty : ids = ∅ ↔ ids.size = 0 := by
    rw [IdSet.size, List.length_eq_zero_iff]
    constructor
    · rintro rfl
      rfl
    · intro h
      exact IdSet.ext fun x => by rw [IdSet.mem_def, h]; rfl
  rw [hempty, ← List.length_eq_zero_iff]
  cases limit with
  | none => simp [collect, length_allRows]
  | some k =>
    rw [length_rows_collect, Option.some.injEq]
    omega

end PostPage

namespace Table

/-- The table of a page says that there are no posts if and only if none matched or the limit is
zero. A page leaves out matches if its limit is smaller than their number, and then its table ends
in a line with the number of rows and the number of matches, unless the limit is zero. -/
theorem reports_matches_unless_limit_zero (s : Snapshot) (ids : IdSet) (limit : Option Nat)
    (localOffset : Instant → Int) (colors : Bool) :
    (render localOffset colors (.collect s ids limit) = "No posts found.\n" ↔
      ids = ∅ ∨ limit = some 0) ∧
    ((PostPage.collect s ids limit).truncated = true ↔ ∃ k, limit = some k ∧ k < ids.size) ∧
    ∀ k, limit = some k → k < ids.size →
      (PostPage.collect s ids limit).rows.length = k ∧
      (Text.EndsInLine (render localOffset colors (.collect s ids limit))
        (Style.dimmed.paintIf colors ("Showing " ++ toString k ++ " of " ++ toString ids.size ++
          " posts (use --all to show everything)")) ↔ k ≠ 0) := by
  have htruncated := PostPage.truncated_collect_iff s ids limit
  refine ⟨render_eq_iff.trans PostPage.rows_collect_eq_nil_iff, htruncated, ?_⟩
  rintro k rfl hk
  have hlength : (PostPage.collect s ids (some k)).rows.length = k := by
    rw [PostPage.length_rows_collect, min_eq_left hk.le]
  have hrows : (PostPage.collect s ids (some k)).rows ≠ [] ↔ k ≠ 0 := by
    rw [← List.length_pos_iff, hlength, Nat.pos_iff_ne_zero]
  have hends := endsInLine_footer_iff localOffset colors (htruncated.mpr ⟨k, rfl, hk⟩)
  rw [hrows, footer, hlength] at hends
  exact ⟨hlength, hends⟩

/-- Two of five posts are shown. -/
theorem reports_matches_unless_limit_zero_timeline :
    Text.EndsInLine
      (render (fun _ => 0) true (.collect PostPage.timeline PostPage.timelineIds (some 2)))
      (Style.dimmed.paint "Showing 2 of 5 posts (use --all to show everything)") := by
  have h := (reports_matches_unless_limit_zero PostPage.timeline PostPage.timelineIds (some 2)
    (fun _ => 0) true).2.2 2 rfl (by decide +kernel)
  exact h.2.mpr (by decide)

/-- With a limit of zero the table denies that there is a match. The document of the same page
counts one. -/
theorem limit_zero_denies_matches :
    let ids : IdSet := .ofList [.ofByte 1]
    let page := PostPage.collect ⟨[], [], []⟩ ids (some 0)
    ¬ (render (fun _ => 0) false page = "No posts found.\n" ↔ ids = ∅) ∧
    ¬ (page.truncated = true → ∃ line, Text.EndsInLine (render (fun _ => 0) false page) line) ∧
    Document.pageJson none page =
      .object [("count", .nat 1), ("truncated", .bool true), ("posts", .array [])] := by
  intro ids page
  have htext : render (fun _ => 0) false page = "No posts found.\n" := render_eq_iff.mpr (by decide)
  refine ⟨fun h => ?_, fun h => ?_, rfl⟩
  · exact absurd (h.mp htext) (by decide)
  · obtain ⟨line, hends⟩ := h (by decide)
    have hlong := hends.two_lt
    rw [htext] at hlong
    exact absurd hlong (by decide)

/-! ## One line for each row -/

/-- The line of a row holds the line feeds of the name it shows. -/
theorem count_rowLine (localOffset : Instant → Int) (row : PostRow) :
    (rowLine localOffset false row).toList.count '\n' = row.shownAuthor.count '\n' := by
  have hcontrol : IsControl '\n' := by decide
  have hid := List.count_eq_zero_of_not_mem (not_mem_idCell hcontrol row.id)
  have hcreated :=
    List.count_eq_zero_of_not_mem (not_mem_createdCell hcontrol localOffset row.createdAt)
  have hcontent : (contentText false row).toList.count '\n' = 0 := by
    rw [List.count_eq_zero]
    intro h
    obtain ⟨content, -, -, hblank⟩ := mem_contentText hcontrol h
    exact absurd hblank (by decide)
  have hauthor := count_authorCell hcontrol row
  simp [rowLine, line, Style.paintIf, hid, hcreated, hcontent, hauthor]

theorem take_hexChars_prefix (localOffset : Instant → Int) (row : PostRow) :
    row.id.hexChars.take 8 <+: (rowLine localOffset false row).toList := by
  simp [rowLine, line, Style.paintIf, cell, Text.padRight, Text.shortId, PostId.hex]

theorem not_mem_footer (page : PostPage) : '\n' ∉ (footer false page).toList := by
  have hcontrol : IsControl '\n' := by decide
  simp [footer, Style.paintIf, Nat.not_mem_toDigits hcontrol]

theorem header_plain : header false = "ID         Author           Created           Content" :=
  rfl

/-- The lines of a table, where a row may have several, and the empty piece after the last of
them. -/
theorem lines_render (localOffset : Instant → Int) {page : PostPage} (h : page.rows ≠ []) :
    Text.lines (render localOffset false page) = (header false).toList ::
      ((page.rows.map (rowLine localOffset false)).flatMap Text.lines ++
        (if page.truncated then [(footer false page).toList] else []) ++ [[]]) := by
  have hheader : Text.lines (header false) = [(header false).toList] :=
    Text.lines_of_not_mem (by simp [header_plain])
  have hfooter := Text.lines_of_not_mem (not_mem_footer page)
  rw [render_of_rows h, Text.lines_ended, lines, List.cons_append, List.flatMap_cons, hheader,
    List.flatMap_append]
  split_ifs <;> simp [hfooter]

theorem length_lines_rows (localOffset : Instant → Int) (rows : List PostRow) :
    ((rows.map (rowLine localOffset false)).flatMap Text.lines).length =
      rows.length + (rows.map fun row => row.shownAuthor.count '\n').sum := by
  induction rows with
  | nil => rfl
  | cons row rows ih =>
    rw [List.map_cons, List.flatMap_cons, List.length_append, Text.length_lines, count_rowLine, ih,
      List.map_cons, List.sum_cons, List.length_cons]
    omega

/-- Without line feeds in the names that are shown, every row has its own line. -/
theorem flatMap_lines_rows (localOffset : Instant → Int) {rows : List PostRow}
    (h : ∀ row ∈ rows, '\n' ∉ row.shownAuthor) :
    (rows.map (rowLine localOffset false)).flatMap Text.lines =
      rows.map fun row => (rowLine localOffset false row).toList := by
  induction rows with
  | nil => rfl
  | cons row rows ih =>
    obtain ⟨hrow, hrows⟩ := List.forall_mem_cons.mp h
    have hline : '\n' ∉ (rowLine localOffset false row).toList := by
      rwa [← List.count_eq_zero, count_rowLine, List.count_eq_zero]
    rw [List.map_cons, List.flatMap_cons, Text.lines_of_not_mem hline, ih hrows]
    rfl

/-- A table with rows has one line for its header, one for each row and one for the footer if its
page is truncated, and one more for each line feed in a name that is shown. So each row has one
line, which begins with eight digits of its identifier, if and only if no name is shown with a line
feed in it. -/
theorem one_line_for_each_row_iff (s : Snapshot) (ids : IdSet) (limit : Option Nat)
    (localOffset : Instant → Int) (h : (PostPage.collect s ids limit).rows ≠ []) :
    let page := PostPage.collect s ids limit
    let lines := Text.lines (render localOffset false page)
    let footer := if page.truncated then [("Showing " ++ toString page.rows.length ++ " of " ++
      toString ids.size ++ " posts (use --all to show everything)").toList] else []
    lines.length = 1 + page.rows.length + footer.length +
      (page.rows.map fun row => row.shownAuthor.count '\n').sum + 1 ∧
    ((∃ rowLines,
      lines = "ID         Author           Created           Content".toList ::
        (rowLines ++ footer ++ [[]]) ∧
      List.Forall₂ (fun row l => row.id.hexChars.take 8 <+: l) page.rows rowLines) ↔
        ∀ row ∈ page.rows, '\n' ∉ row.shownAuthor) := by
  intro page lines footer
  have hlines : lines = (header false).toList ::
      ((page.rows.map (rowLine localOffset false)).flatMap Text.lines ++ footer ++ [[]]) := by
    exact lines_render localOffset h
  have hlength : lines.length = 1 + page.rows.length + footer.length +
      (page.rows.map fun row => row.shownAuthor.count '\n').sum + 1 := by
    rw [hlines, List.length_cons, List.length_append, List.length_append, length_lines_rows]
    simp
    omega
  refine ⟨hlength, ?_, ?_⟩
  · rintro ⟨rowLines, heq, hrows⟩ row hrow hmem
    -- there is no line to spare for a line feed
    have hsum : (page.rows.map fun row => row.shownAuthor.count '\n').sum = 0 := by
      rw [heq] at hlength
      simp [hrows.length_eq] at hlength
      omega
    have hzero := List.sum_eq_zero_iff.mp hsum _ (List.mem_map_of_mem hrow)
    exact List.count_eq_zero.mp hzero hmem
  · intro hfeeds
    rw [flatMap_lines_rows localOffset hfeeds] at hlines
    refine ⟨_, hlines, ?_⟩
    rw [List.forall₂_map_right_iff, List.forall₂_same]
    exact fun row _ => take_hexChars_prefix localOffset row

/-- A known and an unknown author, and a footer for what is left out. -/
theorem one_line_for_each_row_iff_timeline :
    let page := PostPage.collect PostPage.timeline PostPage.timelineIds (some 2)
    page.rows ≠ [] ∧ ∃ rowLines,
      Text.lines (render (fun _ => 0) false page) =
        "ID         Author           Created           Content".toList ::
          (rowLines ++ ["Showing 2 of 5 posts (use --all to show everything)".toList] ++ [[]]) ∧
      List.Forall₂ (fun row l => row.id.hexChars.take 8 <+: l) page.rows rowLines := by
  intro page
  have hpage : page.rows = [PostRow.ofId PostPage.timeline (.ofByte 3),
      PostRow.ofId PostPage.timeline (.ofByte 2)] := by
    change (PostPage.allRows _ _).take 2 = _
    rw [PostPage.allRows_timeline]
    rfl
  have hrows : page.rows ≠ [] := by simp [hpage]
  have hnames : ∀ row ∈ page.rows, '\n' ∉ row.shownAuthor := by
    rw [hpage]
    decide +kernel
  have htruncated : page.truncated = true := by
    rw [PostPage.truncated_collect_iff]
    exact ⟨2, rfl, by decide +kernel⟩
  obtain ⟨rowLines, hlines, hstarts⟩ := (one_line_for_each_row_iff PostPage.timeline
    PostPage.timelineIds (some 2) (fun _ => 0) hrows).2.mpr hnames
  refine ⟨hrows, rowLines, ?_, hstarts⟩
  rw [if_pos htruncated, hpage] at hlines
  exact hlines

/-- The post of an author whose name holds a line feed. -/
def brokenName : Snapshot where
  users := [⟨"1", "ali\nce"⟩]
  posts := [⟨.ofByte 1, "1", "hello", none⟩]
  tags := []

/-- The row of a post takes two lines, the second of which begins with no identifier. -/
theorem broken_name_splits_line :
    let page := PostPage.collect brokenName (.ofList [.ofByte 1]) none
    let header := "ID         Author           Created           Content".toList
    Text.lines (render (fun _ => 0) false page) =
      [header, "01010101   @ali".toList, "ce                            hello".toList, []] ∧
    page.rows.length = 1 ∧ page.truncated = false ∧
    ¬ ∃ rowLines, Text.lines (render (fun _ => 0) false page) = header :: (rowLines ++ [] ++ [[]]) ∧
      List.Forall₂ (fun row l => row.id.hexChars.take 8 <+: l) page.rows rowLines := by
  intro page header
  have hpage : page.rows = [⟨.ofByte 1, some "ali\nce", some "hello", none⟩] := by
    decide +kernel
  have htruncated : page.truncated = false := by decide +kernel
  have hline : rowLine (fun _ => 0) false ⟨.ofByte 1, some "ali\nce", some "hello", none⟩ =
      "01010101   @ali" ++ "\n" ++ "ce                            hello" := by
    cbv
  have hlines : Text.lines (render (fun _ => 0) false page) =
      [header, "01010101   @ali".toList, "ce                            hello".toList, []] := by
    rw [lines_render (fun _ => 0) (by simp [hpage]), hpage, List.map_singleton, hline,
      List.flatMap_singleton, Text.lines_append_newline, Text.lines_of_not_mem (by decide),
      Text.lines_of_not_mem (by decide), htruncated]
    rfl
  refine ⟨hlines, by rw [hpage]; rfl, htruncated, ?_⟩
  rintro ⟨rowLines, heq, hrows⟩
  have hlength := hrows.length_eq
  rw [hlines] at heq
  simp [hpage] at hlength heq
  have hfour := congrArg List.length heq
  simp [← hlength] at hfour

end Table

end PostFilter
