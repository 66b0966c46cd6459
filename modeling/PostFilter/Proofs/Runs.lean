import Mathlib
import PostFilter.Command.Run

/-!
# Listings on a file tree

A command that lists posts reads the config file and the snapshot and writes nothing. Where both can
be read it shows what it finds in the snapshot, and where one of them cannot it fails.
-/

namespace PostFilter

/-! ## Steps -/

namespace FileTree

variable {α β : Type} (t : FileTree)

@[simp] theorem pure_apply (a : α) : (pure a : StateM FileTree α) t = (a, t) := rfl

@[simp] theorem bind_apply (x : StateM FileTree α) (f : α → StateM FileTree β) :
    (x >>= f) t = f (x t).1 (x t).2 := rfl

@[simp] theorem isThere_apply (path : String) :
    FileAccess.isThere (m := StateM FileTree) path t = (t.isThere path, t) := rfl

@[simp] theorem read_apply (path : String) :
    FileAccess.read (m := StateM FileTree) path t = (t.read path, t) := rfl

/-- No file has the empty path. -/
theorem read_empty : t.read "" = .error .notFound := rfl

end FileTree

theorem CommandError.exitCode_ne_zero (e : CommandError) : e.exitCode ≠ 0 := by
  unfold CommandError.exitCode
  split <;> decide

namespace Command

/-- The config file is valid or not there, and the snapshot file holds a snapshot. -/
structure Serves (t : FileTree) (env : Environment) (named : Option String) (config : Config)
    (s : Snapshot) : Prop where
  hasConfig : ∃ path, env.configPath? = some path ∧
    if t.isThere path then
      ∃ text, t.read path = .ok text ∧ Config.ofText env.wording.configFault text = .ok config
    else config = .default
  hasSnapshot : ∃ path, snapshotPath? env named config = some path ∧
    ∃ text, t.read path = .ok text ∧ Snapshot.decode env.wording.snapshotFault text = .ok s

variable {t : FileTree} {env : Environment} {i : Invocation} {config : Config} {s : Snapshot}

theorem loadConfig_of_serves {named : Option String} (h : Serves t env named config s) :
    ∃ path, loadConfig (m := StateM FileTree) env t = (.ok (path, config), t) := by
  obtain ⟨path, hpath, hconfig⟩ := h.hasConfig
  refine ⟨path, ?_⟩
  rw [loadConfig, hpath]
  split at hconfig
  · next hthere =>
    obtain ⟨text, hread, htext⟩ := hconfig
    simp [hthere, hread, htext, Except.map]
  · next hthere => simp [hthere, hconfig]

theorem loadSnapshot_of_serves {named : Option String} (h : Serves t env named config s) :
    loadSnapshot (m := StateM FileTree) env named config t = (.ok s, t) := by
  obtain ⟨path, hpath, text, hread, htext⟩ := h.hasSnapshot
  rw [loadSnapshot, hpath]
  simp [hread, htext, Except.mapError]

/-- No snapshot has the empty path. -/
theorem ne_empty_of_serves {named : Option String} (h : Serves t env named config s) :
    named ≠ some "" := by
  rintro rfl
  obtain ⟨path, hpath, text, hread, -⟩ := h.hasSnapshot
  obtain rfl : path = "" := by simpa [snapshotPath?] using hpath.symm
  simp [FileTree.read_empty] at hread

/-! ## Listings -/

theorem run_eval {filter : String} {limit : Limit} (hi : i.command = .eval filter limit)
    (h : Serves t env i.snapshot config s) :
    run (m := StateM FileTree) env i t =
      ((view env i config).eval s filter (limit.count? config), t) := by
  obtain ⟨path, hconfig⟩ := loadConfig_of_serves h
  simp [run, hconfig, runWith, hi, query, loadSnapshot_of_serves h]

theorem run_following {us : List String} {limit : Limit} (hi : i.command = .following us limit)
    (h : Serves t env i.snapshot config s) :
    run (m := StateM FileTree) env i t =
      ((view env i config).following s us (limit.count? config), t) := by
  obtain ⟨path, hconfig⟩ := loadConfig_of_serves h
  simp [run, hconfig, runWith, hi, query, loadSnapshot_of_serves h]

/-- What a listing shows that succeeds comes from a snapshot. -/
theorem exists_answer_of_run {answer : Config → Snapshot → Outcome} {out : Outcome} {t' : FileTree}
    (hi : ∀ path config, runWith (m := StateM FileTree) env i path config =
      query env i config (answer config))
    (h : run (m := StateM FileTree) env i t = (out, t')) (hout : out.exitCode = 0) :
    ∃ config s, answer config s = out := by
  rcases hconfig : loadConfig (m := StateM FileTree) env t with ⟨_ | ⟨path, config⟩, t₁⟩
  · next e =>
    obtain rfl : Outcome.failure i.json "" (.config e) = out := by
      simpa [run, hconfig] using congrArg Prod.fst h
    exact absurd hout (CommandError.exitCode_ne_zero (.config e))
  rcases hsnapshot : loadSnapshot (m := StateM FileTree) env i.snapshot config t₁ with ⟨_ | s, t₂⟩
  · next e =>
    obtain rfl : Outcome.failure i.json "" e = out := by
      simpa [run, hconfig, hi, query, hsnapshot] using congrArg Prod.fst h
    exact absurd hout (CommandError.exitCode_ne_zero e)
  · refine ⟨config, s, ?_⟩
    simpa [run, hconfig, hi, query, hsnapshot] using congrArg Prod.fst h

theorem exists_eval_of_run {filter : String} {limit : Limit} {out : Outcome} {t' : FileTree}
    (hi : i.command = .eval filter limit) (h : run (m := StateM FileTree) env i t = (out, t'))
    (hout : out.exitCode = 0) :
    ∃ config s, (view env i config).eval s filter (limit.count? config) = out :=
  exists_answer_of_run (fun path config => by rw [runWith, hi]) h hout

theorem exists_following_of_run {us : List String} {limit : Limit} {out : Outcome} {t' : FileTree}
    (hi : i.command = .following us limit) (h : run (m := StateM FileTree) env i t = (out, t'))
    (hout : out.exitCode = 0) :
    ∃ config s, (view env i config).following s us (limit.count? config) = out :=
  exists_answer_of_run (fun path config => by rw [runWith, hi]) h hout

end Command

/-- An environment without variables and texts, on a clock that shows UTC. -/
def Environment.bare : Environment :=
  .ofVariables (fun _ => none) none (fun _ => 0)
    ⟨fun _ => "", fun _ => "", fun _ => "", fun _ => "", fun _ => ""⟩

end PostFilter
