import PostFilter.Proofs.CommandLines
import PostFilter.Proofs.Documents
import PostFilter.Proofs.Feed
import PostFilter.Proofs.Parsing
import PostFilter.Proofs.Runs
import PostFilter.Proofs.SnapshotCodec

/-!
# Listing by authors and by filter

The posts of some authors can be asked for by their names, or by the filter that matches the posts
of any of them. Both runs end alike. The filter is printed from the tree it was read as, and this is
the text that was given.
-/

namespace PostFilter

/-! ## The post document -/

/-- There are no more posts than identifiers. -/
theorem IdSet.size_le (s : IdSet) : s.size ≤ 256 ^ 12 := by
  let bytes (x : PostId) : List.Vector (Fin 256) 12 :=
    ⟨x.bytes.map UInt8.toFin, by simp [x.length_bytes]⟩
  have hbytes : Function.Injective bytes := by
    rintro ⟨xs, hxs⟩ ⟨ys, hys⟩ h
    have hmap : xs.map UInt8.toFin = ys.map UInt8.toFin := congrArg Subtype.val h
    have heq : xs = ys := List.map_injective_iff.mpr (fun a b => UInt8.toFin_inj.mp) hmap
    subst heq
    rfl
  have hle := (s.nodup_toList.map hbytes).length_le_card
  simpa [IdSet.size] using hle

namespace Document

open Json (Printable)

theorem printable_optionalString (s? : Option String) : (optionalString s?).Printable := by
  cases s? with
  | none => exact .null
  | some s => exact .string s

theorem printable_rowJson (row : PostRow) : (rowJson row).Printable :=
  .object (by cases row.createdAt <;> simp [Printable.string, printable_optionalString])

theorem printable_pageJson (filter : Option Expr) {page : PostPage} (h : page.total < 10 ^ 200) :
    (pageJson filter page).Printable := by
  have hrows : ∀ j ∈ page.rows.map rowJson, j.Printable := by
    intro j hj
    obtain ⟨row, -, rfl⟩ := List.mem_map.mp hj
    exact printable_rowJson row
  exact .object (by
    cases filter <;>
      simp [filterFields, Printable.string, Printable.nat h, Printable.bool, Printable.array hrows])

/-- What is shown of a page is read back as the page. -/
theorem parse?_render (filter : Option Expr) (s : Snapshot) (ids : IdSet) (limit : Option Nat) :
    Json.parse? (render filter (.collect s ids limit) ++ "\n") =
      some (pageJson filter (.collect s ids limit)) := by
  have htotal : (PostPage.collect s ids limit).total < 10 ^ 200 :=
    ids.size_le.trans_lt (by decide +kernel)
  exact Json.parse?_pretty (printable_pageJson filter htotal)

end Document

/-! ## Views -/

namespace View

variable {v : View} {s : Snapshot} {us : List String} {e : Expr} {limit : Option Nat}

/-- Without the remark of a talkative run, the posts of some authors are listed like those that
match any of them. -/
theorem eval_eq_following {text : String} (hv : v.verbose = false)
    (he : Expr.anyAuthor? us = some e) (hparse : parse text = .ok e) :
    v.eval s text limit = v.following s us limit := by
  have hremark : v.treeRemark e = "" := by simp [treeRemark, hv]
  simp only [eval, following, hparse, he, hremark, resolveFollowing_eq he, String.empty_append]

theorem exitCode_following (v : View) (s : Snapshot) (us : List String) (limit : Option Nat) :
    (v.following s us limit).exitCode = 0 := by
  obtain ⟨ids, hids⟩ := exists_resolveFollowing_iff.mpr fun u (_ : u ∈ us) => s.usable_author u
  simp only [following, list, hids]

/-- A filter text that is listed at all is shown as it was given. -/
theorem field?_filter_eval {text : String} (hjson : v.json = true)
    (h : (v.eval s text limit).exitCode = 0) :
    ∃ fields, Json.parse? (v.eval s text limit).stdout = some (.object fields) ∧
      Json.field? "filter" fields = some (some (.string text)) := by
  unfold eval at h ⊢
  cases hparse : parse text with
  | error err =>
    rw [hparse] at h
    exact absurd h (CommandError.exitCode_ne_zero (.filter err))
  | ok e =>
    simp only [hparse, list] at h ⊢
    cases hids : e.resolve s.source with
    | error err =>
      rw [hids] at h
      exact absurd h (CommandError.exitCode_ne_zero (.store err))
    | ok ids =>
      obtain ⟨rfl, -⟩ := eq_filterText_of_parse hparse
      simp only [pageText, hjson, if_true, Document.parse?_render]
      exact ⟨_, rfl, by simp [Document.filterFields, Json.field?]⟩

end View

/-! ## Commands -/

theorem head?_ne_dash {text : String} (h : ∀ c ∈ text.toList, Lexer.inAlphabet c = true) :
    text.toList.head? ≠ some '-' := by
  intro hhead
  exact absurd (h '-' (List.mem_of_mem_head? hhead)) (by decide)

namespace CommandLine

/-- Both runs succeed, show the same and leave all files as they are. -/
def SucceedAlike (t : FileTree) (env : Environment) (args args' : List String) : Prop :=
  ∃ out, out.exitCode = 0 ∧ run (m := StateM FileTree) env args t = (out, t) ∧
    run (m := StateM FileTree) env args' t = (out, t)

section

variable {t : FileTree} {env : Environment} {config : Config} {s : Snapshot} {us : List String}
  {e : Expr}

theorem succeedAlike_of_parse {i : Invocation} {limit : Limit} {args args' : List String}
    (h : Command.Serves t env i.snapshot config s) (hverbose : i.verbose = false)
    (he : Expr.anyAuthor? us = some e) (hparse : PostFilter.parse e.filterText = .ok e)
    (hargs : parse env.snapshotFile args = .ok { i with command := .following us limit })
    (hargs' : parse env.snapshotFile args' = .ok { i with command := .eval e.filterText limit }) :
    SucceedAlike t env args args' := by
  let v := Command.view env i config
  refine ⟨v.following s us (limit.count? config), v.exitCode_following .., ?_, ?_⟩
  · rw [run, hargs]
    exact Command.run_following rfl h
  · rw [run, hargs', ← View.eval_eq_following hverbose he hparse]
    exact Command.run_eval rfl h

theorem succeedAlike_line (h : Command.Serves t env env.snapshotFile config s)
    (he : Expr.anyAuthor? us = some e) (hus : ∀ u ∈ us, isName u = true)
    (hparse : PostFilter.parse e.filterText = .ok e) (o : ListingOptions) :
    SucceedAlike t env (o.line "following" us) (o.line "eval" [e.filterText]) := by
  have hinherited := Command.ne_empty_of_serves h
  have husernames : ∀ u ∈ us, u.toList.head? ≠ some '-' := by
    intro u hu
    refine head?_ne_dash fun c hc => ?_
    simp [Lexer.inAlphabet, (isName_iff.mp (hus u hu)).2 c hc]
  have hfilter := head?_ne_dash (parse_eq_ok_iff_tokens.mp hparse).1
  exact succeedAlike_of_parse (i := o.invocation env.snapshotFile .overview) h rfl he hparse
    (o.parse_following hinherited husernames) (o.parse_eval hinherited hfilter)

end

/-- To ask for the posts of some authors and to ask for what matches the filter of any of them is
the same, with equal options on both lines, and in any other order of arguments and options that
asks for the same. The bound leaves nothing out, since no system passes so many arguments. The
filter that a successful listing shows as JSON is the argument, character by character. -/
theorem following_agrees_with_eval :
    (∀ us : List String, us ≠ [] → (∀ u ∈ us, isName u = true) →
      us.length ≤ 2 ^ Parser.maxDepth →
      ∃ e, Expr.anyAuthor? us = some e ∧
        ∀ (t : FileTree) (env : Environment) (config : Config) (s : Snapshot),
          (Command.Serves t env env.snapshotFile config s → ∀ o : ListingOptions,
            SucceedAlike t env (o.line "following" us) (o.line "eval" [e.filterText])) ∧
          ∀ (i : Invocation) (limit : Limit) (args args' : List String),
            Command.Serves t env i.snapshot config s → i.verbose = false →
            parse env.snapshotFile args = .ok { i with command := .following us limit } →
            parse env.snapshotFile args' = .ok { i with command := .eval e.filterText limit } →
            SucceedAlike t env args args') ∧
      ∀ (t t' : FileTree) (env : Environment) (args : List String) (i : Invocation)
        (filter : String) (limit : Limit) (out : Outcome),
        parse env.snapshotFile args = .ok i → i.command = .eval filter limit → i.json = true →
        run (m := StateM FileTree) env args t = (out, t') → out.exitCode = 0 →
        filter ∈ args ∧ ∃ fields, Json.parse? out.stdout = some (.object fields) ∧
          Json.field? "filter" fields = some (some (.string filter)) := by
  refine ⟨fun us hne hus hlength => ?_, ?_⟩
  · obtain ⟨e, he⟩ := Expr.exists_anyAuthor? hne
    have hparse := parse_anyAuthor? he hus hlength
    refine ⟨e, he, fun t env config s => ⟨fun h o => ?_, fun i limit args args' h hi => ?_⟩⟩
    · exact succeedAlike_line h he hus hparse o
    · exact succeedAlike_of_parse h hi he hparse
  · intro t t' env args i filter limit out hparse hi hjson hrun hout
    refine ⟨mem_of_parse_eval hparse hi, ?_⟩
    rw [run, hparse] at hrun
    obtain ⟨config, s, rfl⟩ := Command.exists_eval_of_run hi hrun hout
    exact View.field?_filter_eval hjson hout

/-- Two of three authors are known, and one of these has a post. -/
def sparse : Snapshot where
  users := [⟨"1", "alice"⟩, ⟨"2", "bob"⟩]
  posts := [⟨.ofByte 10, "2", "hello", none⟩]
  tags := []

def sparseTree : FileTree :=
  ⟨[""], [(["s.json", ""], .file sparse.encode.toUTF8), ([""], .directory)]⟩

def sparseEnvironment : Environment :=
  { Environment.bare with configFile := some "c.toml", snapshotFile := some "s.json" }

theorem serves_sparse :
    Command.Serves sparseTree sparseEnvironment (some "s.json") .default sparse where
  hasConfig := ⟨"c.toml", rfl, by rw [if_neg (by decide)]⟩
  hasSnapshot := ⟨"s.json", rfl, sparse.encode, FileTree.read_of_walk (p := ["s.json", ""]) rfl rfl,
    Snapshot.decode_encode _ sparse⟩

def sparseOptions : ListingOptions where
  before := [.json]
  after := [.noColor]
  limit := some "1"
  presents := by decide
  before_nodup := by decide
  after_nodup := by decide
  limit_valid := by decide

/-- A whole line, two lines with their arguments in another order, and the filter that a run
shows. -/
theorem following_agrees_with_eval_sparse :
    SucceedAlike sparseTree sparseEnvironment
        (sparseOptions.line "following" ["alice", "bob", "zed"])
        (sparseOptions.line "eval" ["|(|(@alice,@bob),@zed)"]) ∧
      SucceedAlike sparseTree sparseEnvironment
        ["f", "alice", "--json", "bob", "zed", "--limit=1"]
        ["--json", "e", "--limit", "01", "|(|(@alice,@bob),@zed)"] ∧
      ∃ out fields, run (m := StateM FileTree) sparseEnvironment
          (sparseOptions.line "eval" ["|(|(@alice,@bob),@zed)"]) sparseTree = (out, sparseTree) ∧
        Json.parse? out.stdout = some (.object fields) ∧
        Json.field? "filter" fields = some (some (.string "|(|(@alice,@bob),@zed)")) := by
  obtain ⟨hagree, hshown⟩ := following_agrees_with_eval
  obtain ⟨e, he, h⟩ := hagree ["alice", "bob", "zed"] (by decide) (by decide) (by decide)
  obtain rfl : .or (.or (.author "alice") (.author "bob")) (.author "zed") = e := by
    simpa [Expr.anyAuthor?, Expr.disjunction?, Expr.pairUp] using he
  obtain ⟨hline, hargs⟩ := h sparseTree sparseEnvironment .default sparse
  have halike := hline serves_sparse sparseOptions
  refine ⟨halike, ?_, ?_⟩
  · exact hargs ⟨false, false, true, false, some "s.json", .overview⟩ (.atMost 1) _ _ serves_sparse
      rfl rfl rfl
  · obtain ⟨out, hout, -, hrun⟩ := halike
    have hparse : parse (some "s.json") (sparseOptions.line "eval" ["|(|(@alice,@bob),@zed)"]) =
        .ok _ := sparseOptions.parse_eval (by decide) (by decide)
    obtain ⟨-, fields, hfields, hfilter⟩ := hshown _ _ _ _ _ _ _ _ hparse rfl rfl hrun hout
    exact ⟨out, fields, hrun, hfields, hfilter⟩

end CommandLine

end PostFilter
