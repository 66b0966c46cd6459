import PostFilter.Proofs.Disjunction
import PostFilter.Proofs.Queries

/-!
# Filters that are printed and read back

Each printed form tells a filter from all others, alone or in a document, as long as its names are
names. A listing by authors shows its filter in both forms. Nobody has asked whether the usernames
are names. If one of them is not, then the filter text is not accepted, or it is read as another
tree than the one shown: other notation can be spelled inside a username, but never so that both
forms come out alike.
-/

namespace PostFilter

/-! ## Different filters -/

/-- A page tells which filter it came from, also from a page of other posts. -/
theorem Document.render_forms_eq {a b : Expr} {s s' : Snapshot} {ids ids' : IdSet}
    {limit limit' : Option Nat}
    (h : render (some a) (.collect s ids limit) = render (some b) (.collect s' ids' limit')) :
    a.filterText = b.filterText ∧ a.render = b.render := by
  have hpage := parse?_render (some a) s ids limit
  rw [h, parse?_render, Option.some_inj] at hpage
  simp only [pageJson, filterFields, List.cons_append, Json.object.injEq, List.cons.injEq,
    Prod.mk.injEq, Json.string.injEq, true_and] at hpage
  exact ⟨hpage.1.symm, hpage.2.1.symm⟩

namespace View

theorem printable_checkJson (e : Expr) : (checkJson e).Printable :=
  .object (by simp [Json.Printable.string, Json.Printable.bool])

/-- So does the answer that a filter is well formed. -/
theorem checkJson_forms_eq {a b : Expr} (h : (checkJson a).pretty = (checkJson b).pretty) :
    a.filterText = b.filterText ∧ a.render = b.render := by
  have hcheck := Json.parse?_pretty (printable_checkJson a)
  rw [h, Json.parse?_pretty (printable_checkJson b), Option.some_inj] at hcheck
  simp only [checkJson, Json.object.injEq, List.cons.injEq, Prod.mk.injEq, Json.string.injEq,
    true_and, and_true] at hcheck
  exact ⟨hcheck.2.1.symm, hcheck.2.2.symm⟩

end View

namespace Expr

/-- Filters of any depth that are not the same are printed differently, as trees, in filter notation
and in the documents that show them. -/
theorem printed_forms_distinguish (a b : Expr) (ha : a.NamesValid) (hb : b.NamesValid) :
    (a.render = b.render → a = b) ∧
    (a.filterText = b.filterText → a = b) ∧
    ((View.checkJson a).pretty = (View.checkJson b).pretty → a = b) ∧
    ∀ (s s' : Snapshot) (ids ids' : IdSet) (limit limit' : Option Nat),
      Document.render (some a) (.collect s ids limit) =
        Document.render (some b) (.collect s' ids' limit') → a = b := by
  have htree : a.render = b.render → a = b := ha.wordNamed.eq_of_render hb.wordNamed
  refine ⟨htree, filterText_injective ha hb, fun h => ?_, fun s s' ids ids' limit limit' h => ?_⟩
  · exact htree (View.checkJson_forms_eq h).2
  · exact htree (Document.render_forms_eq h).2

/-- Inside more negations than are ever parsed, an author and a tag who are both named like a
negation. -/
theorem printed_forms_distinguish_deep :
    let a := Expr.not^[200] (.author "Not")
    let b := Expr.not^[200] (.tag "Not")
    a.depth = 200 ∧ a.render ≠ b.render ∧ a.filterText ≠ b.filterText := by
  intro a b
  have hvalid (n : Nat) {e : Expr} (h : e.NamesValid) : (Expr.not^[n] e).NamesValid := by
    induction n with
    | zero => exact h
    | succ n ih => rwa [Function.iterate_succ_apply']
  have hne : a ≠ b := by decide +kernel
  obtain ⟨hrender, htext, -⟩ := printed_forms_distinguish a b
    (hvalid 200 (e := .author "Not") (by simp [NamesValid, isName, isWordChar]))
    (hvalid 200 (e := .tag "Not") (by simp [NamesValid, isName, isWordChar]))
  exact ⟨by decide +kernel, mt hrender hne, mt htext hne⟩

/-! ## Filters of authors -/

/-- What is read back from a filter text, and prints the same tree, is the tree itself. -/
theorem parse_filterText_and_render_iff {e e' : Expr} :
    parse e.filterText = .ok e' ∧ e'.render = e.render ↔
      e' = e ∧ e.NamesValid ∧ e.depth ≤ Parser.maxDepth := by
  constructor
  · rintro ⟨hparse, hrender⟩
    obtain ⟨htext, hnames, hdepth⟩ := eq_filterText_of_parse hparse
    obtain rfl : e = e' := eq_of_printed_alike hnames.wordNamed htext hrender.symm
    exact ⟨rfl, hnames, hdepth⟩
  · rintro ⟨rfl, hnames, hdepth⟩
    exact ⟨parse_filterText hnames hdepth, rfl⟩

theorem parse_anyAuthor?_iff {us : List String} {e : Expr} (h : anyAuthor? us = some e)
    (e' : Expr) : parse e.filterText = .ok e' ∧ e'.render = e.render ↔
      e' = e ∧ (∀ u ∈ us, isName u = true) ∧ us.length ≤ 2 ^ Parser.maxDepth := by
  rw [parse_filterText_and_render_iff, namesValid_anyAuthor? h, depth_anyAuthor? h,
    Nat.clog_le_iff_le_pow Nat.one_lt_two]

end Expr

namespace View

/-- A listing by authors shows their filter, and none if there are no authors. -/
theorem parse?_stdout_following {v : View} (hjson : v.json = true) (s : Snapshot)
    (us : List String) (limit : Option Nat) :
    ∃ ids, Json.parse? (v.following s us limit).stdout =
      some (Document.pageJson (Expr.anyAuthor? us) (.collect s ids limit)) := by
  obtain ⟨ids, hids⟩ := exists_resolveFollowing_iff.mpr fun u (_ : u ∈ us) => s.usable_author u
  refine ⟨ids, ?_⟩
  simp only [following, list, hids, pageText, hjson, if_true, Document.parse?_render]

end View

namespace CommandLine

/-- A listing by authors as JSON shows its filter and its tree, unless there are no authors. The
filter is read back as the tree exactly if all usernames are names. The bound leaves nothing out,
since no system passes so many arguments. -/
theorem shown_filter_denotes_iff (us : List String) :
    (∀ e, Expr.anyAuthor? us = some e →
      (PostFilter.parse e.filterText = .ok e ↔
        (∀ u ∈ us, isName u = true) ∧ us.length ≤ 2 ^ Parser.maxDepth)) ∧
    ∀ (t t' : FileTree) (env : Environment) (args : List String) (i : Invocation) (limit : Limit)
      (out : Outcome),
      parse env.snapshotFile args = .ok i → i.command = .following us limit → i.json = true →
      run (m := StateM FileTree) env args t = (out, t') → out.exitCode = 0 →
      ∃ fields, Json.parse? out.stdout = some (.object fields) ∧
        (us = [] → Json.field? "filter" fields = some none) ∧
        (us ≠ [] → ∃ filter expression,
          Json.field? "filter" fields = some (some (.string filter)) ∧
          Json.field? "expression" fields = some (some (.string expression)) ∧
          ((∃ e, PostFilter.parse filter = .ok e ∧ e.render = expression) ↔
            (∀ u ∈ us, isName u = true) ∧ us.length ≤ 2 ^ Parser.maxDepth)) := by
  refine ⟨fun e he => ?_, ?_⟩
  · simpa using Expr.parse_anyAuthor?_iff he e
  · intro t t' env args i limit out hparse hi hjson hrun hout
    rw [run, hparse] at hrun
    obtain ⟨config, s, rfl⟩ := Command.exists_following_of_run hi hrun hout
    obtain ⟨ids, hids⟩ := View.parse?_stdout_following (v := Command.view env i config) hjson s us
      (limit.count? config)
    refine ⟨_, hids, ?_, ?_⟩
    · rintro rfl
      simp [Expr.anyAuthor?, Expr.disjunction?, Document.filterFields, Json.field?]
    · intro hne
      obtain ⟨e, he⟩ := Expr.exists_anyAuthor? hne
      refine ⟨e.filterText, e.render, ?_, ?_, ?_⟩
      · simp [he, Document.filterFields, Json.field?]
      · simp [he, Document.filterFields, Json.field?]
      · simp [Expr.parse_anyAuthor?_iff he]

/-- The filter of two authors who are names, as a run shows it, is read back. -/
theorem shown_filter_denotes_iff_sparse :
    ∃ out fields, run (m := StateM FileTree) sparseEnvironment
        ["following", "--json", "alice", "bob"] sparseTree = (out, sparseTree) ∧
      Json.parse? out.stdout = some (.object fields) ∧
      ∃ filter expression e, Json.field? "filter" fields = some (some (.string filter)) ∧
        Json.field? "expression" fields = some (some (.string expression)) ∧
        PostFilter.parse filter = .ok e ∧ e.render = expression := by
  let i : Invocation :=
    ⟨false, false, true, false, some "s.json", .following ["alice", "bob"] .configured⟩
  have hparse : parse (some "s.json") ["following", "--json", "alice", "bob"] = .ok i := rfl
  have hrun := Command.run_following (i := i) rfl serves_sparse
  obtain ⟨fields, hfields, -, hshown⟩ := (shown_filter_denotes_iff ["alice", "bob"]).2 sparseTree
    sparseTree sparseEnvironment _ i _ _ hparse rfl rfl hrun (View.exitCode_following ..)
  obtain ⟨filter, expression, hfilter, hexpression, hiff⟩ := hshown (by decide)
  obtain ⟨e, he, hrender⟩ := hiff.mpr ⟨by decide, by decide⟩
  exact ⟨_, fields, hrun, hfields, filter, expression, e, hfilter, hexpression, he, hrender⟩

/-- A run shows a filter that is not accepted, since there is a point in a username. Two usernames
with notation in them are shown as a filter that is read as another tree, of three authors. -/
theorem shown_filter_misread :
    (∃ out fields, run (m := StateM FileTree) sparseEnvironment
        ["following", "--json", "j.doe"] sparseTree = (out, sparseTree) ∧ out.exitCode = 0 ∧
      Json.parse? out.stdout = some (.object fields) ∧
      Json.field? "filter" fields = some (some (.string "@j.doe")) ∧
      Json.field? "expression" fields = some (some (.string "Author(j.doe)")) ∧
      PostFilter.parse "@j.doe" = .error (.invalidCharacter '.' 2)) ∧
    ∃ e e', Expr.anyAuthor? ["a,|(@b", "c)"] = some e ∧ PostFilter.parse e.filterText = .ok e' ∧
      e = .or (.author "a,|(@b") (.author "c)") ∧
      e' = .or (.author "a") (.or (.author "b") (.author "c")) ∧ e'.render ≠ e.render := by
  constructor
  · let i : Invocation :=
      ⟨false, false, true, false, some "s.json", .following ["j.doe"] .configured⟩
    have hrun := Command.run_following (i := i) rfl serves_sparse
    obtain ⟨ids, hids⟩ := View.parse?_stdout_following
      (v := Command.view sparseEnvironment i .default) rfl sparse ["j.doe"] (some 50)
    have he : Expr.anyAuthor? ["j.doe"] = some (.author "j.doe") := by
      simp [Expr.anyAuthor?, Expr.disjunction?]
    have htext : (Expr.author "j.doe").filterText = "@j.doe" := by decide
    have htree : (Expr.author "j.doe").render = "Author(j.doe)" := by decide
    refine ⟨_, _, hrun, View.exitCode_following .., hids, ?_, ?_, by decide⟩
    · simp [he, htext, Document.filterFields, Json.field?]
    · simp [he, htree, Document.filterFields, Json.field?]
  · have htext : (Expr.or (.author "a,|(@b") (.author "c)")).filterText =
        (Expr.or (.author "a") (.or (.author "b") (.author "c"))).filterText := by
      decide
    refine ⟨_, _, by simp [Expr.anyAuthor?, Expr.disjunction?, Expr.pairUp], ?_, rfl, rfl, ?_⟩
    · rw [htext]
      exact parse_filterText (by simp [Expr.NamesValid, isName, isWordChar]) (by decide)
    · decide

end CommandLine

end PostFilter
