import PostFilter.Proofs.ConfigTexts
import PostFilter.Proofs.FileSafety
import PostFilter.Proofs.FrontSwitches
import PostFilter.Proofs.Queries

/-!
# Answers as JSON

With `--json` an answer depends on what is asked, and not on the settings for its presentation. On
quiet, verbose and colorless lines and in environments without colors the same is printed on
standard output, the exit code is the same and the same files are left behind. What is about a
filter is answered alike under configs with and without colors, too, even where the config file is
named as the snapshot: it is none, however its colors are set.
-/

namespace PostFilter

/-! ## Views -/

/-- The outcomes are the same up to what is said on standard error. -/
structure Outcome.AnswersLike (o o' : Outcome) : Prop where
  exitCode : o'.exitCode = o.exitCode
  stdout : o'.stdout = o.stdout

theorem Outcome.AnswersLike.refl (o : Outcome) : o.AnswersLike o :=
  ⟨rfl, rfl⟩

theorem Outcome.answersLike_failure (json json' : Bool) (remarks remarks' : String)
    {e e' : CommandError} (h : e'.exitCode = e.exitCode) :
    (failure json remarks e).AnswersLike (failure json' remarks' e') :=
  ⟨h, rfl⟩

namespace View

variable {v v' : View}

section

variable (hv : v.json = true) (hv' : v'.json = true)

include hv hv'

theorem answersLike_check (text : String) : (v.check text).AnswersLike (v'.check text) := by
  unfold check
  split
  · exact Outcome.answersLike_failure _ _ _ _ rfl
  · rw [hv, hv']
    exact .refl _

/-- Remarks are made on standard error. -/
theorem answersLike_list (s : Snapshot) (filter : Option Expr) (limit : Option Nat)
    (remarks remarks' : String) (found : Except StoreError IdSet) :
    (v.list s filter limit remarks found).AnswersLike (v'.list s filter limit remarks' found) := by
  unfold list
  split
  · exact Outcome.answersLike_failure _ _ _ _ rfl
  · simp only [pageText, hv, hv']
    exact ⟨rfl, rfl⟩

theorem answersLike_eval (s : Snapshot) (text : String) (limit : Option Nat) :
    (v.eval s text limit).AnswersLike (v'.eval s text limit) := by
  unfold eval
  split
  · exact Outcome.answersLike_failure _ _ _ _ rfl
  · exact answersLike_list hv hv' s _ limit _ _ _

theorem answersLike_settings (path : String) (isThere : Bool) (c : Config) :
    (v.settings path isThere c).AnswersLike (v'.settings path isThere c) := by
  simp only [settings, hv, hv', if_true]
  exact .refl _

theorem answersLike_configPath (path : String) (isThere : Bool) :
    (v.configPath path isThere).AnswersLike (v'.configPath path isThere) := by
  simp only [configPath, hv, hv', if_true]
  exact .refl _

theorem answersLike_configCreation (path : String) (created : Bool) :
    (v.configCreation path created).AnswersLike (v'.configCreation path created) := by
  simp only [configCreation, hv, hv', if_true]
  exact .refl _

end

end View

/-! ## Equal files but for the config -/

/-- Another text stands in the file at one place, and all else is alike. -/
structure FileTree.DiffersAt (p : Place) (text text' : String) (t t' : FileTree) : Prop where
  here : t'.here = t.here
  before : t.find? p = some (.file text.toUTF8)
  after : t'.find? p = some (.file text'.toUTF8)
  elsewhere : ∀ q, q ≠ p → t'.find? q = t.find? q

namespace FileTree.DiffersAt

variable {p : Place} {text text' : String} {t t' : FileTree}

theorem put (t : FileTree) (hp : p ≠ []) (text text' : String) :
    DiffersAt p text text' (t.put p (.file text.toUTF8)) (t.put p (.file text'.toUTF8)) where
  here := rfl
  before := find?_put hp
  after := find?_put hp
  elsewhere _ hq := by rw [find?_put_of_ne hq, find?_put_of_ne hq]

/-- No path is walked through a file, so what it holds does not matter. -/
theorem step_eq (h : DiffersAt p text text' t t') (q : Place) (name : String) :
    t'.step q name = t.step q name := by
  have hsome : ∀ q, (t'.find? q).isSome = (t.find? q).isSome := by
    intro q
    by_cases hq : q = p
    · simp [hq, h.before, h.after]
    · rw [h.elsewhere q hq]
  unfold step
  rw [hsome]
  by_cases hq : q = p
  · simp [hq, h.before, h.after]
  · rw [h.elsewhere q hq]

theorem walk_eq (h : DiffersAt p text text' t t') (path : String) : t'.walk path = t.walk path := by
  have hstep : t'.step = t.step := funext₂ h.step_eq
  simp only [walk, start, h.here, hstep]

theorem read_eq (h : DiffersAt p text text' t t') {path : String} (hpath : t.walk path ≠ .ok p) :
    t'.read path = t.read path := by
  unfold read
  rw [h.walk_eq]
  cases hq : t.walk path with
  | error e => rfl
  | ok q =>
    have hne : q ≠ p := by
      rintro rfl
      exact hpath hq
    simp only [bind, Except.bind, h.elsewhere q hne]

end FileTree.DiffersAt

/-- Both trees have a valid config file, and nothing differs but this file, in which nothing is set
to another value but the color. -/
inductive RecolorsConfig (env : Environment) (t t' : FileTree) : Prop
  | intro {path : String} {p : Place} {text text' : String} {c c' : Config}
      (atPath : env.configPath? = some path) (atPlace : t.walk path = .ok p)
      (differs : t.DiffersAt p text text' t')
      (valid : Config.ofText env.wording.configFault text = .ok c)
      (valid' : Config.ofText env.wording.configFault text' = .ok c')
      (snapshot : c'.snapshot = c.snapshot) (limit : c'.output.limit = c.output.limit)

/-! ## Commands -/

/-- The invocations are the same up to how answers are shown. -/
structure Invocation.AsksLike (i i' : Invocation) : Prop where
  json : i'.json = i.json
  snapshot : i'.snapshot = i.snapshot
  command : i'.command = i.command

def Environment.withNoColor (env : Environment) (value : Option String) : Environment :=
  { env with noColor := value }

/-- Is the command about a filter? -/
def Command.IsQuery : Command → Prop
  | .check _ | .eval _ _ | .following _ _ => True
  | _ => False

namespace Command

variable {env env' : Environment} {i i' : Invocation} {c c' : Config} {t t' : FileTree}

/-- Both are the same snapshot, or errors with the same exit code. -/
inductive LoadedLike : Except CommandError Snapshot → Except CommandError Snapshot → Prop
  | snapshot (s : Snapshot) : LoadedLike (.ok s) (.ok s)
  | error {e e' : CommandError} (h : e'.exitCode = e.exitCode) : LoadedLike (.error e) (.error e')

theorem LoadedLike.refl (r : Except CommandError Snapshot) : LoadedLike r r := by
  cases r with
  | error e => exact .error rfl
  | ok s => exact .snapshot s

/-- What is in a snapshot file is the same before and after a change, or it goes wrong alike. -/
def LoadsLike (env env' : Environment) (named : Option String) (c c' : Config)
    (t t' : FileTree) : Prop :=
  ∃ r r', loadSnapshot (m := StateM FileTree) env named c t = (r, t) ∧
    loadSnapshot (m := StateM FileTree) env' named c' t' = (r', t') ∧ LoadedLike r r'

/-- Both actions leave the trees as they are and end with answers that are alike. -/
def AnswerAlike (x x' : StateM FileTree Outcome) (t t' : FileTree) : Prop :=
  ∃ out out', x t = (out, t) ∧ x' t' = (out', t') ∧ out.AnswersLike out'

theorem answerAlike_query (hload : LoadsLike env env' i.snapshot c c' t t')
    (hi : i.AsksLike i') {answer answer' : Snapshot → Outcome}
    (hanswer : ∀ s, (answer s).AnswersLike (answer' s)) :
    AnswerAlike (query env i c answer) (query env' i' c' answer') t t' := by
  obtain ⟨r, r', hr, hr', halike⟩ := hload
  unfold AnswerAlike query
  simp only [FileTree.bind_apply, hi.snapshot, hr, hr']
  cases halike with
  | snapshot s => exact ⟨_, _, rfl, rfl, hanswer s⟩
  | error h => exact ⟨_, _, rfl, rfl, Outcome.answersLike_failure _ _ _ _ h⟩

theorem answerAlike_runWith (hi : i.AsksLike i') (hjson : i.json = true)
    (hquery : i.command.IsQuery) (hlimit : c'.limit = c.limit)
    (hload : LoadsLike env env' i.snapshot c c' t t') (path : String) :
    AnswerAlike (runWith env i path c) (runWith env' i' path c') t t' := by
  have hjson' : i'.json = true := hi.json.trans hjson
  have hcount : ∀ limit : Limit, limit.count? c' = limit.count? c := by
    intro limit
    cases limit <;> simp [Limit.count?, hlimit]
  unfold runWith
  rw [hi.command]
  cases hcommand : i.command with
  | check text => exact ⟨_, _, rfl, rfl, View.answersLike_check hjson hjson' text⟩
  | eval text limit =>
    simp only [hcount]
    exact answerAlike_query hload hi fun s => View.answersLike_eval hjson hjson' s text _
  | following us limit =>
    simp only [hcount]
    exact answerAlike_query hload hi fun s => View.answersLike_list hjson hjson' s _ _ _ _ _
  | _ => simp [hcommand, IsQuery] at hquery

/-! ## In one tree -/

theorem loadsLike_withNoColor (env : Environment) (value : Option String) (named : Option String)
    (c : Config) (t : FileTree) : LoadsLike env (env.withNoColor value) named c c t t := by
  obtain ⟨r, hr⟩ := loadSnapshot_apply t env named c
  exact ⟨r, r, hr, hr, .refl r⟩

/-- The two actions do the same to a tree, and end with answers that are alike. -/
def ActAlike (x x' : StateM FileTree Outcome) (t : FileTree) : Prop :=
  ∃ out out' t', x t = (out, t') ∧ x' t = (out', t') ∧ out.AnswersLike out'

theorem AnswerAlike.actAlike {x x' : StateM FileTree Outcome} (h : AnswerAlike x x' t t) :
    ActAlike x x' t := by
  obtain ⟨out, out', hx, hx', halike⟩ := h
  exact ⟨out, out', t, hx, hx', halike⟩

theorem actAlike_runWith (hi : i.AsksLike i') (hjson : i.json = true)
    (hcommand : i.command ≠ .overview) (value : Option String) (path : String) (c : Config)
    (t : FileTree) :
    ActAlike (runWith env i path c) (runWith (env.withNoColor value) i' path c) t := by
  have hjson' : i'.json = true := hi.json.trans hjson
  by_cases hquery : i.command.IsQuery
  · exact (answerAlike_runWith hi hjson hquery rfl
      (loadsLike_withNoColor env value i.snapshot c t) path).actAlike
  unfold runWith
  rw [hi.command]
  cases hc : i.command with
  | overview => exact absurd hc hcommand
  | check text => simp [hc, IsQuery] at hquery
  | eval text limit => simp [hc, IsQuery] at hquery
  | following us limit => simp [hc, IsQuery] at hquery
  | configShow => exact ⟨_, _, _, rfl, rfl, View.answersLike_settings hjson hjson' _ _ _⟩
  | configPath => exact ⟨_, _, _, rfl, rfl, View.answersLike_configPath hjson hjson' _ _⟩
  | configInit =>
    unfold ActAlike
    simp only [FileTree.bind_apply]
    cases (createConfig (m := StateM FileTree) path t).1 with
    | error e => exact ⟨_, _, _, rfl, rfl, Outcome.answersLike_failure _ _ _ _ rfl⟩
    | ok created =>
      exact ⟨_, _, _, rfl, rfl, View.answersLike_configCreation hjson hjson' _ _⟩
  | completions shell => exact ⟨_, _, _, rfl, rfl, .refl _⟩

theorem actAlike_run (hi : i.AsksLike i') (hjson : i.json = true)
    (hcommand : i.command ≠ .overview) (value : Option String) (t : FileTree) :
    ActAlike (run env i) (run (env.withNoColor value) i') t := by
  have hload : loadConfig (m := StateM FileTree) (env.withNoColor value) = loadConfig env := rfl
  unfold ActAlike run
  rw [hload]
  simp only [FileTree.bind_apply]
  cases (loadConfig (m := StateM FileTree) env t).1 with
  | error e => exact ⟨_, _, _, rfl, rfl, Outcome.answersLike_failure _ _ _ _ rfl⟩
  | ok r => exact actAlike_runWith hi hjson hcommand value r.1 r.2 _

/-! ## In a tree with another config -/

theorem loadConfig_of_valid (env : Environment) {path text : String} {p : Place}
    (hpath : env.configPath? = some path)
    (hplace : t.walk path = .ok p) (hfile : t.find? p = some (.file text.toUTF8))
    (hvalid : Config.ofText env.wording.configFault text = .ok c) :
    loadConfig (m := StateM FileTree) env t = (.ok (path, c), t) := by
  have hthere : t.isThere path = true := FileTree.isThere_iff.mpr ⟨p, hplace⟩
  rw [loadConfig, hpath]
  simp [hthere, FileTree.read_of_walk hplace hfile, hvalid, Except.map]

/-- The config file may be the snapshot file too. Then it is malformed in both trees. -/
theorem loadsLike_of_differsAt {p : Place} {text text' : String} (h : t.DiffersAt p text text' t')
    {fault : String → String} (hvalid : Config.ofText fault text = .ok c)
    (hvalid' : Config.ofText fault text' = .ok c')
    (hsnapshot : c'.snapshot = c.snapshot) (value : Option String) (named : Option String) :
    LoadsLike env (env.withNoColor value) named c c' t t' := by
  have hpath : snapshotPath? (env.withNoColor value) named c' = snapshotPath? env named c := by
    simp only [snapshotPath?, hsnapshot]
    rfl
  unfold LoadsLike loadSnapshot
  rw [hpath]
  cases snapshotPath? env named c with
  | none => exact ⟨_, _, rfl, rfl, .refl _⟩
  | some path =>
    simp only [FileTree.bind_apply, FileTree.read_apply]
    by_cases hplace : t.walk path = .ok p
    · have hread := FileTree.read_of_walk hplace h.before
      have hread' := FileTree.read_of_walk ((h.walk_eq path).trans hplace) h.after
      simp only [hread, hread', Snapshot.decode_of_ofText hvalid,
        Snapshot.decode_of_ofText hvalid']
      exact ⟨_, _, rfl, rfl, .error rfl⟩
    · rw [h.read_eq hplace]
      cases t.read path <;> exact ⟨_, _, rfl, rfl, .refl _⟩

theorem answerAlike_run (hi : i.AsksLike i') (hjson : i.json = true) (hquery : i.command.IsQuery)
    (h : RecolorsConfig env t t') (value : Option String) :
    AnswerAlike (run env i) (run (env.withNoColor value) i') t t' := by
  obtain ⟨hpath, hplace, hdiffers, hvalid, hvalid', hsnapshot, hlimit⟩ := h
  have hload := loadConfig_of_valid env hpath hplace hdiffers.before hvalid
  have hload' := loadConfig_of_valid (env.withNoColor value) hpath
    ((hdiffers.walk_eq _).trans hplace) hdiffers.after hvalid'
  unfold AnswerAlike run
  simp only [FileTree.bind_apply, hload, hload']
  exact answerAlike_runWith hi hjson hquery (by simp only [Config.limit, hlimit])
    (loadsLike_of_differsAt hdiffers hvalid hvalid' hsnapshot value i.snapshot) _

end Command

/-! ## Lines -/

namespace CommandLine

open Command

variable {env : Environment} {args : List String} {i : Invocation}

theorem run_of_parse (env : Environment) (h : parse env.snapshotFile args = .ok i) :
    run (m := StateM FileTree) env args = Command.run env i := by
  rw [run, h]

theorem asksLike_withSwitches {ss : List Switch} (hss : ∀ s ∈ ss, i.CanGain s) :
    i.AsksLike (i.withSwitches ss) := by
  have hjson : .json ∉ ss := fun h => hss .json h
  exact ⟨by simp [Invocation.withSwitches, hjson], rfl, rfl⟩

/-- A line that asks for JSON, and is not about the program as a whole, is answered like any line
that asks for the same in another presentation, whatever the environment says about colors: the same
is printed, the exit code is the same, and the same becomes of the files. What is about a filter is
answered alike under a config with other colors too, and no file is touched. Such a line is the line
itself with switches for the presentation in front that it does not have, unless it would be quiet
and verbose then. -/
theorem json_ignores_presentation (hargs : parse env.snapshotFile args = .ok i)
    (hjson : i.json = true) (hcommand : i.command ≠ .overview) :
    (∀ args' i', parse env.snapshotFile args' = .ok i' → i.AsksLike i' → ∀ value,
      (∀ t, ActAlike (run env args) (run (env.withNoColor value) args') t) ∧
      (i.command.IsQuery → ∀ t t', RecolorsConfig env t t' →
        AnswerAlike (run env args) (run (env.withNoColor value) args') t t')) ∧
    ∀ ss : List Switch, ss.Nodup → (∀ s ∈ ss, i.CanGain s) →
      ¬((i.withSwitches ss).verbose = true ∧ (i.withSwitches ss).quiet = true) →
      parse env.snapshotFile (ss.map Switch.option ++ args) = .ok (i.withSwitches ss) ∧
        i.AsksLike (i.withSwitches ss) := by
  refine ⟨fun args' i' hargs' hi value => ?_, fun ss hnodup hss hboth => ?_⟩
  · rw [run_of_parse env hargs, run_of_parse (env.withNoColor value) hargs']
    exact ⟨actAlike_run hi hjson hcommand value, fun hquery t t' h =>
      answerAlike_run hi hjson hquery h value⟩
  · exact ⟨parse_switches hargs hnodup hss hboth, asksLike_withSwitches hss⟩

def colorSetting (color : Bool) : String :=
  "[output]\ncolor = " ++ toString color ++ "\n"

theorem ofText_colorSetting (fault : String → String) (color : Bool) :
    Config.ofText fault (colorSetting color) = .ok ⟨none, ⟨some color, none⟩⟩ := by
  have hdecode : (Toml.parse? (colorSetting color)).bind Config.decode? =
      some (1, ⟨none, ⟨some color, none⟩⟩) := by
    cases color <;> decide +kernel
  rw [Config.ofText, hdecode]
  rfl

/-- A tree with a snapshot, and a config that allows colors or does not. -/
def recolored (color : Bool) : FileTree :=
  sparseTree.put ["c.toml", ""] (.file (colorSetting color).toUTF8)

theorem recolorsConfig_recolored :
    RecolorsConfig sparseEnvironment (recolored true) (recolored false) :=
  .intro rfl rfl (.put sparseTree (by decide) _ _) (ofText_colorSetting _ true)
    (ofText_colorSetting _ false) rfl rfl

theorem serves_recolored (color : Bool) :
    Serves (recolored color) sparseEnvironment (some "s.json") ⟨none, ⟨some color, none⟩⟩
      sparse where
  hasConfig := by
    have hthere : (recolored color).isThere "c.toml" = true := rfl
    refine ⟨"c.toml", rfl, ?_⟩
    rw [if_pos hthere]
    exact ⟨_, FileTree.read_of_walk (p := ["c.toml", ""]) rfl rfl, ofText_colorSetting _ color⟩
  hasSnapshot := ⟨"s.json", rfl, sparse.encode, FileTree.read_of_walk (p := ["s.json", ""]) rfl rfl,
    Snapshot.decode_encode _ sparse⟩

/-- A listing under two configs, which succeeds, and the creation of a config file with and without
two switches in front. -/
theorem json_ignores_presentation_recolored :
    AnswerAlike (run sparseEnvironment ["--json", "eval", "@bob"])
        (run (sparseEnvironment.withNoColor (some "1")) ["-q", "e", "--no-color", "@bob", "--json"])
        (recolored true) (recolored false) ∧
      (run (m := StateM FileTree) sparseEnvironment ["--json", "eval", "@bob"]
        (recolored true)).1.exitCode = 0 ∧
      ActAlike (run sparseEnvironment ["config", "init", "--json"])
        (run (sparseEnvironment.withNoColor none)
          ["--verbose", "--no-color", "config", "init", "--json"]) sparseTree := by
  have hlist : parse sparseEnvironment.snapshotFile ["--json", "eval", "@bob"] =
      .ok ⟨false, false, true, false, some "s.json", .eval "@bob" .configured⟩ := rfl
  refine ⟨?_, ?_, ?_⟩
  · obtain ⟨halike, -⟩ := json_ignores_presentation hlist rfl (by decide)
    have hlist' : parse sparseEnvironment.snapshotFile
        ["-q", "e", "--no-color", "@bob", "--json"] =
        .ok ⟨false, true, true, true, some "s.json", .eval "@bob" .configured⟩ := rfl
    exact (halike _ _ hlist' ⟨rfl, rfl, rfl⟩ _).2 trivial _ _ recolorsConfig_recolored
  · rw [run_of_parse _ hlist, Command.run_eval rfl (serves_recolored true)]
    decide +kernel
  · have hinit : parse sparseEnvironment.snapshotFile ["config", "init", "--json"] =
        .ok ⟨false, false, true, false, some "s.json", .configInit⟩ := rfl
    obtain ⟨halike, hfront⟩ := json_ignores_presentation hinit rfl (by decide)
    obtain ⟨hinit', hasks⟩ := hfront [.verbose, .noColor] (by decide)
      (by simp [Invocation.CanGain]) (by decide)
    exact (halike _ _ hinit' hasks _).1 _

end CommandLine

end PostFilter
