import Mathlib
import PostFilter.Proofs.FileTrees
import PostFilter.Proofs.Runs

/-!
# Files under runs

Only the command that creates the config file writes, and only if its path leads nowhere. It makes
the directories above the file first. A path that steps up out of one of these may lead to an older
file, which is then lost; without such a path no file ever changes. A run that fails prints nothing
on standard output, and leaves at most new directories behind.
-/

namespace PostFilter

/-! ## Making directories -/

namespace FileTree

variable {α β : Type} {P : FileTree → Prop}

@[simp] theorem write_apply (t : FileTree) (path text : String) :
    FileAccess.write (m := StateM FileTree) path text t = apply (·.write path text) t := rfl

/-- The action leads from trees in `P` to trees in `P`. -/
def Preserves (P : FileTree → Prop) (x : StateM FileTree α) : Prop :=
  ∀ t, P t → P (x t).2

namespace Preserves

theorem pure (a : α) : Preserves P (pure a) :=
  fun _ h => h

theorem bind {x : StateM FileTree α} {f : α → StateM FileTree β} (hx : Preserves P x)
    (hf : ∀ a, Preserves P (f a)) : Preserves P (x >>= f) :=
  fun t h => hf _ _ (hx t h)

theorem createDirectory (make : ∀ path t t', P t → t.createDirectory path = .ok t' → P t')
    (path : String) : Preserves P (FileAccess.createDirectory (m := StateM FileTree) path) := by
  intro t h
  change P (apply (·.createDirectory path) t).2
  unfold apply
  split
  · next t' ht' => exact make path t t' h ht'
  · exact h

theorem unlessDirectory (path : String) (e : FileError) :
    Preserves P (FileAccess.unlessDirectory (m := StateM FileTree) path e) :=
  bind (fun _ h => h) fun b => by cases b <;> exact pure _

/-- What making one directory preserves is preserved by making many. -/
theorem createDirectories (make : ∀ path t t', P t → t.createDirectory path = .ok t' → P t')
    (paths : List String) :
    Preserves P (FileAccess.createDirectories (m := StateM FileTree) paths) := by
  induction paths with
  | nil => exact pure _
  | cons path up ih =>
    refine bind (createDirectory make path) fun r => ?_
    split
    · exact pure _
    · refine bind ih fun r => ?_
      split
      · exact pure _
      · refine bind (createDirectory make path) fun r => ?_
        split
        · exact pure _
        · exact unlessDirectory path _
    · exact unlessDirectory path _

end Preserves

/-- Only directories are new in a tree in which the parents of a path are made. -/
theorem gainsDirectories_createParent (t : FileTree) (path : String) :
    t.GainsDirectories (FileAccess.createParent (m := StateM FileTree) path t).2 := by
  refine Preserves.createDirectories (P := t.GainsDirectories) ?_ _ t (.refl t)
  intro path t₁ t₂ hgains hmake
  obtain ⟨name, dir, hdir, hnew, rfl⟩ := exists_place_of_createDirectory hmake
  exact hgains.trans (.put hdir hnew)

end FileTree

/-! ## Outcomes -/

/-- Nothing is printed on standard output by a run that fails. -/
def Outcome.SilentIfFailed (o : Outcome) : Prop :=
  o.exitCode ≠ 0 → o.stdout = ""

theorem Outcome.silentIfFailed_success (s : String) : (success s).SilentIfFailed :=
  fun h => absurd rfl h

theorem Outcome.silentIfFailed_failure (json : Bool) (remarks : String) (e : CommandError) :
    (failure json remarks e).SilentIfFailed :=
  fun _ => rfl

namespace View

variable (v : View) (s : Snapshot)

theorem silentIfFailed_check (text : String) : (v.check text).SilentIfFailed := by
  unfold check
  split
  · exact Outcome.silentIfFailed_failure _ _ _
  · exact Outcome.silentIfFailed_success _

theorem silentIfFailed_list (filter : Option Expr) (limit : Option Nat) (remarks : String)
    (found : Except StoreError IdSet) : (v.list s filter limit remarks found).SilentIfFailed := by
  unfold list
  split
  · exact Outcome.silentIfFailed_failure _ _ _
  · exact fun h => absurd rfl h

theorem silentIfFailed_eval (text : String) (limit : Option Nat) :
    (v.eval s text limit).SilentIfFailed := by
  unfold eval
  split
  · exact Outcome.silentIfFailed_failure _ _ _
  · exact silentIfFailed_list _ _ _ _ _ _

end View

/-! ## Commands -/

namespace Command

variable {t : FileTree} {env : Environment} {i : Invocation} {config : Config} {path : String}

theorem loadConfig_apply (t : FileTree) (env : Environment) :
    ∃ r, loadConfig (m := StateM FileTree) env t = (r, t) ∧
      ∀ path config, r = .ok (path, config) → env.configPath? = some path := by
  unfold loadConfig
  cases hpath : env.configPath? with
  | none => exact ⟨_, rfl, by simp⟩
  | some path =>
    dsimp only
    rw [FileTree.bind_apply, FileTree.isThere_apply]
    cases t.isThere path with
    | false => exact ⟨_, rfl, by simp⟩
    | true =>
      dsimp only
      rw [if_pos rfl, FileTree.bind_apply, FileTree.read_apply]
      cases t.read path with
      | error e => exact ⟨_, rfl, by simp⟩
      | ok text =>
        refine ⟨_, rfl, fun path' config hr => ?_⟩
        obtain ⟨c, -, hc⟩ := Fallible.map_eq_ok.mp hr
        rw [Prod.ext_iff] at hc
        exact congrArg some hc.1

theorem loadSnapshot_apply (t : FileTree) (env : Environment) (named : Option String)
    (config : Config) : ∃ r, loadSnapshot (m := StateM FileTree) env named config t = (r, t) := by
  unfold loadSnapshot
  cases snapshotPath? env named config with
  | none => exact ⟨_, rfl⟩
  | some path =>
    dsimp only
    rw [FileTree.bind_apply, FileTree.read_apply]
    cases t.read path <;> exact ⟨_, rfl⟩

theorem query_apply (t : FileTree) (env : Environment) (i : Invocation) (config : Config)
    {answer : Snapshot → Outcome} (h : ∀ s, (answer s).SilentIfFailed) :
    ∃ out, query (m := StateM FileTree) env i config answer t = (out, t) ∧ out.SilentIfFailed := by
  obtain ⟨r, hr⟩ := loadSnapshot_apply t env i.snapshot config
  rw [query, FileTree.bind_apply, hr]
  cases r with
  | error e => exact ⟨_, rfl, Outcome.silentIfFailed_failure _ _ _⟩
  | ok s => exact ⟨_, rfl, h s⟩

/-- The config file is written after the directories above it are made, if that goes well. -/
theorem createConfig_cases (t : FileTree) (path : String) :
    (t.isThere path = true ∧
      createConfig (m := StateM FileTree) path t = (.ok false, t)) ∨
    t.isThere path = false ∧ ∃ t₁, t.GainsDirectories t₁ ∧
      ((∃ e, createConfig (m := StateM FileTree) path t = (.error e, t₁)) ∨
        ∃ t₂, t₁.write path Config.template = .ok t₂ ∧
          createConfig (m := StateM FileTree) path t = (.ok true, t₂)) := by
  rw [createConfig, FileTree.bind_apply, FileTree.isThere_apply]
  cases t.isThere path with
  | true => exact .inl ⟨rfl, rfl⟩
  | false =>
    refine .inr ⟨rfl, _, FileTree.gainsDirectories_createParent t path, ?_⟩
    dsimp only
    rw [if_neg Bool.false_ne_true, FileTree.bind_apply]
    rcases FileAccess.createParent (m := StateM FileTree) path t with ⟨e | _, t₁⟩
    · exact .inl ⟨_, rfl⟩
    · dsimp only
      rw [FileTree.bind_apply, FileTree.write_apply, FileTree.apply]
      cases t₁.write path Config.template with
      | error e => exact .inl ⟨_, rfl⟩
      | ok t₂ => exact .inr ⟨t₂, rfl, rfl⟩

/-- What a run can do to a file tree, where `init` says that it is to create the config file at
`path?`. Otherwise it does nothing, and neither if there is something at the path. It makes the
directories above the path, and then either it is refused or it writes the file. -/
inductive Effect (init : Prop) (path? : Option String) (t : FileTree) : Outcome → FileTree → Prop
  | nothing {out : Outcome} (silent : out.SilentIfFailed)
      (there : init → out.exitCode = 0 → ∃ path, path? = some path ∧ t.isThere path = true) :
      Effect init path? t out t
  | refusal (path : String) {out : Outcome} {t₁ : FileTree} (asked : init)
      (atPath : path? = some path) (missing : t.isThere path = false) (failed : out.exitCode ≠ 0)
      (silent : out.stdout = "") (gains : t.GainsDirectories t₁) : Effect init path? t out t₁
  | creation (path : String) {out : Outcome} {t₁ t₂ : FileTree} (asked : init)
      (atPath : path? = some path) (missing : t.isThere path = false) (done : out.exitCode = 0)
      (gains : t.GainsDirectories t₁) (writes : t₁.write path Config.template = .ok t₂) :
      Effect init path? t out t₂

namespace Effect

variable {init : Prop} {path? : Option String} {out : Outcome} {t' : FileTree}

theorem of_not_init (h : ¬ init) (silent : out.SilentIfFailed) : Effect init path? t out t :=
  .nothing silent fun hinit => absurd hinit h

theorem of_failure (json : Bool) (e : CommandError) :
    Effect init path? t (.failure json "" e) t :=
  .nothing (Outcome.silentIfFailed_failure _ _ _) fun _ h => absurd h e.exitCode_ne_zero

theorem silentIfFailed (h : Effect init path? t out t') : out.SilentIfFailed := by
  cases h with
  | nothing silent there => exact silent
  | refusal path asked atPath missing failed silent gains => exact fun _ => silent
  | creation path asked atPath missing done gains writes => exact fun h => absurd done h

theorem wellFormed (h : Effect init path? t out t') (ht : t.WellFormed) : t'.WellFormed := by
  cases h with
  | nothing silent there => exact ht
  | refusal path asked atPath missing failed silent gains => exact gains.wellFormed ht
  | creation path asked atPath missing done gains writes =>
    obtain ⟨name, dir, hdir, hnew, rfl, -⟩ := FileTree.exists_place_of_write writes
    exact (gains.wellFormed ht).put hdir hnew

theorem grows (h : Effect init path? t out t') : t.Grows t' := by
  cases h with
  | nothing silent there => exact .refl t
  | refusal path asked atPath missing failed silent gains => exact gains.grows
  | creation path asked atPath missing done gains writes =>
    obtain ⟨name, dir, hdir, hnew, rfl, -⟩ := FileTree.exists_place_of_write writes
    exact gains.grows.trans (.put (by simp) hnew _)

/-- What fails leaves nothing but new directories. -/
theorem gainsDirectories (h : Effect init path? t out t') (hout : out.exitCode ≠ 0) :
    t.GainsDirectories t' := by
  cases h with
  | nothing silent there => exact .refl t
  | refusal path asked atPath missing failed silent gains => exact gains
  | creation path asked atPath missing done gains writes => exact absurd done hout

/-- Nothing happens where something is at the path. -/
theorem eq_of_isThere (h : Effect init path? t out t') (hpath : path? = some path)
    (hthere : t.isThere path = true) : t' = t := by
  have habsurd : ∀ q, path? = some q → t.isThere q ≠ false := by
    rintro q hq
    obtain rfl : path = q := Option.some.inj (hpath.symm.trans hq)
    simp [hthere]
  cases h with
  | nothing silent there => rfl
  | refusal path asked atPath missing failed silent gains =>
    exact absurd missing (habsurd _ atPath)
  | creation path asked atPath missing done gains writes =>
    exact absurd missing (habsurd _ atPath)

/-- Once the config file is to be created and no error is reported, there is something at its path,
and it is the default config if there was nothing. -/
theorem exists_of_init (h : Effect init path? t out t') (hinit : init) (hout : out.exitCode = 0) :
    ∃ path, path? = some path ∧ t'.isThere path = true ∧
      (t.isThere path = false → t'.read path = .ok Config.template) := by
  cases h with
  | nothing silent there =>
    obtain ⟨path, hpath, hthere⟩ := there hinit hout
    exact ⟨path, hpath, hthere, by simp [hthere]⟩
  | refusal path asked atPath missing failed silent gains => exact absurd hout failed
  | creation path asked atPath missing done gains writes =>
    obtain ⟨name, dir, hdir, hnew, rfl, hwalk, -⟩ := FileTree.exists_place_of_write writes
    refine ⟨path, atPath, FileTree.isThere_iff.mpr ⟨_, hwalk⟩, fun _ => ?_⟩
    exact FileTree.read_of_walk hwalk (FileTree.find?_put (List.cons_ne_nil name dir))

/-- A file that is not as it was is the default config, and it is where the path leads. There was
nothing before, unless the path steps up out of something that was not there. -/
theorem file_cases (h : Effect init path? t out t') {p : Place} {content : ByteArray}
    (hfile : t'.find? p = some (.file content)) :
    t.find? p = some (.file content) ∨
      ∃ path, init ∧ out.exitCode = 0 ∧ path? = some path ∧ t.isThere path = false ∧
        t'.walk path = .ok p ∧ content = Config.template.toUTF8 ∧
        (t.WellFormed → ¬ t.StepsUpFromMissing path → t.find? p = none) := by
  cases h with
  | nothing silent there => exact .inl hfile
  | refusal path asked atPath missing failed silent gains =>
    exact .inl (gains.files p content hfile)
  | creation path asked atPath missing done gains writes =>
    obtain ⟨name, dir, hdir, hnew, rfl, hwalk, hwas⟩ := FileTree.exists_place_of_write writes
    by_cases hp : p = name :: dir
    · subst hp
      have hcontent : content = Config.template.toUTF8 := by
        simpa using hfile.symm.trans (FileTree.find?_put (List.cons_ne_nil name dir))
      exact .inr ⟨path, asked, done, atPath, missing, hwalk, hcontent,
        fun ht hup => gains.find?_eq_none ht hup missing hwas⟩
    · exact .inl (gains.files p content (by rwa [FileTree.find?_put_of_ne hp] at hfile))

/-- All that is there stays as it is, if the path does not step up out of something missing. -/
theorem keeps (h : Effect init path? t out t') (ht : t.WellFormed)
    (hup : init → ∀ path, path? = some path → ¬ t.StepsUpFromMissing path) {p : Place}
    {e : FileEntry} (hp : t.find? p = some e) : t'.find? p = some e := by
  cases h with
  | nothing silent there => exact hp
  | refusal path asked atPath missing failed silent gains => exact gains.kept p e hp
  | creation path asked atPath missing done gains writes =>
    obtain ⟨name, dir, hdir, hnew, rfl, -, hwas⟩ := FileTree.exists_place_of_write writes
    have hnone : t.find? (name :: dir) = none :=
      gains.find?_eq_none ht (hup asked path atPath) missing hwas
    have hne : p ≠ name :: dir := by
      rintro rfl
      simp [hnone] at hp
    rw [FileTree.find?_put_of_ne hne]
    exact gains.kept p e hp

end Effect

theorem effect_runWith (t : FileTree) (config : Config) (hpath : env.configPath? = some path) :
    Effect (i.command = .configInit) env.configPath? t
      (runWith (m := StateM FileTree) env i path config t).1
      (runWith (m := StateM FileTree) env i path config t).2 := by
  unfold runWith
  cases i.command with
  | overview => exact .of_not_init (by simp) (Outcome.silentIfFailed_success _)
  | check text => exact .of_not_init (by simp) (View.silentIfFailed_check _ text)
  | eval text limit =>
    obtain ⟨out, hout, hsilent⟩ := query_apply t env i config
      fun s => (view env i config).silentIfFailed_eval s text (limit.count? config)
    dsimp only
    rw [hout]
    exact .of_not_init (by simp) hsilent
  | following us limit =>
    obtain ⟨out, hout, hsilent⟩ := query_apply t env i config
      fun s => (view env i config).silentIfFailed_list s _ (limit.count? config) _ _
    dsimp only [View.following]
    rw [hout]
    exact .of_not_init (by simp) hsilent
  | configShow => exact .of_not_init (by simp) (Outcome.silentIfFailed_success _)
  | configPath => exact .of_not_init (by simp) (Outcome.silentIfFailed_success _)
  | configInit =>
    dsimp only
    rw [FileTree.bind_apply]
    rcases createConfig_cases t path with ⟨hthere, hrun⟩ |
      ⟨hmissing, t₁, hgains, ⟨e, hrun⟩ | ⟨t₂, hwrite, hrun⟩⟩
    · rw [hrun]
      exact .nothing (Outcome.silentIfFailed_success _) fun _ _ => ⟨path, hpath, hthere⟩
    · rw [hrun]
      exact .refusal path rfl hpath hmissing (CommandError.exitCode_ne_zero (.config e)) rfl hgains
    · rw [hrun]
      exact .creation path rfl hpath hmissing rfl hgains hwrite
  | completions shell => exact .of_not_init (by simp) (Outcome.silentIfFailed_success _)

theorem effect_run (t : FileTree) (env : Environment) (i : Invocation) :
    Effect (i.command = .configInit) env.configPath? t (run (m := StateM FileTree) env i t).1
      (run (m := StateM FileTree) env i t).2 := by
  obtain ⟨r, hload, hpath⟩ := loadConfig_apply t env
  rw [run, FileTree.bind_apply, hload]
  rcases r with e | ⟨path, config⟩
  · exact .of_failure i.json (.config e)
  · exact effect_runWith t config (hpath path config rfl)

end Command

/-! ## Requests -/

/-- The arguments of a run, and the environment in which it takes place. -/
structure Request where
  env : Environment
  args : List String

namespace Request

/-- Is the run to create the config file? -/
def IsInit (r : Request) : Prop :=
  ∃ i, CommandLine.parse r.env.snapshotFile r.args = .ok i ∧ i.command = .configInit

def run (r : Request) (t : FileTree) : Outcome × FileTree :=
  CommandLine.run (m := StateM FileTree) r.env r.args t

theorem effect_run (r : Request) (t : FileTree) :
    Command.Effect r.IsInit r.env.configPath? t (r.run t).1 (r.run t).2 := by
  rw [run, CommandLine.run]
  cases hparse : CommandLine.parse r.env.snapshotFile r.args with
  | error stop =>
    refine .of_not_init (fun ⟨i, hi, _⟩ => by cases hparse.symm.trans hi) ?_
    cases stop with
    | usage => exact fun _ => rfl
    | help => exact Outcome.silentIfFailed_success _
    | version name => exact Outcome.silentIfFailed_success _
  | ok i =>
    have hinit : r.IsInit ↔ i.command = .configInit := by simp [IsInit, hparse]
    simpa only [hinit] using Command.effect_run t r.env i

end Request

/-! ## Sequences of runs -/

namespace FileTree

/-- The tree after some runs, one after the other. -/
def afterRuns (t : FileTree) (rs : List Request) : FileTree :=
  rs.foldl (fun t r => (r.run t).2) t

@[simp] theorem afterRuns_nil (t : FileTree) : t.afterRuns [] = t := rfl

@[simp] theorem afterRuns_cons (t : FileTree) (r : Request) (rs : List Request) :
    t.afterRuns (r :: rs) = (r.run t).2.afterRuns rs := rfl

variable {t t₁ t₂ : FileTree} {out : Outcome}

theorem WellFormed.afterRuns (ht : t.WellFormed) (rs : List Request) :
    (t.afterRuns rs).WellFormed := by
  induction rs generalizing t with
  | nil => exact ht
  | cons r rs ih => exact ih ((r.effect_run t).wellFormed ht)

theorem grows_afterRuns (t : FileTree) (rs : List Request) : t.Grows (t.afterRuns rs) := by
  induction rs generalizing t with
  | nil => exact .refl t
  | cons r rs ih => exact (r.effect_run t).grows.trans (ih _)

/-- All that is there stays as it is through runs that do not step up out of something missing. What
is there now is there in each of the trees between. -/
theorem afterRuns_keeps (ht : t.WellFormed) {rs : List Request}
    (hup : ∀ r ∈ rs, r.IsInit → ∀ path, r.env.configPath? = some path → ¬ t.StepsUpFromMissing path)
    {p : Place} {e : FileEntry} (hp : t.find? p = some e) : (t.afterRuns rs).find? p = some e := by
  induction rs generalizing t with
  | nil => exact hp
  | cons r rs ih =>
    obtain ⟨hr, hrs⟩ := List.forall_mem_cons.mp hup
    have heffect := r.effect_run t
    exact ih (heffect.wellFormed ht)
      (fun q hq hinit path hpath hup =>
        hrs q hq hinit path hpath (heffect.grows.stepsUpFromMissing hup))
      (heffect.keeps ht hr hp)

/-- Runs do not damage files. After some runs on a well-formed tree, a run and all later ones leave
every file as it is, unless the path of a config file to be created steps up out of something that
is not there. The only file that a run makes is the default config, at its path, if it is to create
it, succeeds and has found nothing; from then on no run with this config path changes anything. A
run that fails prints nothing on standard output and leaves all files as they are. -/
theorem runs_spare_files (ht : t.WellFormed) (earlier : List Request) (r : Request)
    (ht₁ : t.afterRuns earlier = t₁) (hrun : r.run t₁ = (out, t₂)) :
    (∀ later, (∀ q ∈ r :: later, q.IsInit → ∀ path, q.env.configPath? = some path →
        ¬ t₁.StepsUpFromMissing path) →
      ∀ p content, t₁.find? p = some (.file content) →
        (t₂.afterRuns later).find? p = some (.file content)) ∧
    (∀ p content, t₂.find? p = some (.file content) → t₁.find? p = some (.file content) ∨
      ∃ path, r.IsInit ∧ out.exitCode = 0 ∧ r.env.configPath? = some path ∧
        t₁.isThere path = false ∧ t₂.walk path = .ok p ∧ content = Config.template.toUTF8 ∧
        (¬ t₁.StepsUpFromMissing path → t₁.find? p = none)) ∧
    (r.IsInit → out.exitCode = 0 → ∃ path, r.env.configPath? = some path ∧
      (t₁.isThere path = false → t₂.read path = .ok Config.template) ∧
      ∀ later (q : Request), q.env.configPath? = some path →
        (q.run (t₂.afterRuns later)).2 = t₂.afterRuns later) ∧
    (out.exitCode ≠ 0 → out.stdout = "" ∧
      ∀ p content, t₂.find? p = some (.file content) ↔ t₁.find? p = some (.file content)) := by
  have heffect := r.effect_run t₁
  have hwf : t₁.WellFormed := ht₁ ▸ ht.afterRuns earlier
  have htree : (r.run t₁).2 = t₂ := congrArg Prod.snd hrun
  rw [hrun] at heffect
  refine ⟨fun later hup p content hp => ?_, fun p content hp => ?_, fun hinit hout => ?_,
    fun hout => ?_⟩
  · have hkept := afterRuns_keeps hwf hup hp
    rwa [afterRuns_cons, htree] at hkept
  · rcases heffect.file_cases hp with hold | ⟨path, hinit, hout, hpath, hmissing, hwalk, hc, hnew⟩
    · exact .inl hold
    · exact .inr ⟨path, hinit, hout, hpath, hmissing, hwalk, hc, hnew hwf⟩
  · obtain ⟨path, hpath, hthere, hread⟩ := heffect.exists_of_init hinit hout
    refine ⟨path, hpath, hread, fun later q hq => ?_⟩
    exact (q.effect_run _).eq_of_isThere hq ((grows_afterRuns t₂ later).isThere hthere)
  · have hgains := heffect.gainsDirectories hout
    exact ⟨heffect.silentIfFailed hout, fun p content =>
      ⟨hgains.files p content, hgains.kept p (.file content)⟩⟩

/-- A tree with a config file and nothing else. -/
def configured : FileTree :=
  ⟨[""], [(["f.toml", ""], .file "[output]\nlimit = 7\n".toUTF8), ([""], .directory)]⟩

/-- Create the config file at a path. -/
def initAt (path : String) : Request :=
  ⟨{ Environment.bare with configFile := some path }, ["config", "init"]⟩

theorem wellFormed_configured : configured.WellFormed := by
  refine ⟨rfl, fun name p h => ?_⟩
  simp only [configured, find?, List.lookup_cons] at h ⊢
  grind

/-- A config file in a new directory is made once, and the old one stays. -/
theorem runs_spare_files_nested :
    ∃ t', (initAt "x/f.toml").run configured =
        (.success "Created default config at: x/f.toml\n", t') ∧
      t'.find? ["f.toml", ""] = some (.file "[output]\nlimit = 7\n".toUTF8) ∧
      t'.read "x/f.toml" = .ok Config.template ∧ ((initAt "x/f.toml").run t').2 = t' := by
  have hrun : (initAt "x/f.toml").run configured =
      (.success "Created default config at: x/f.toml\n", _) := rfl
  obtain ⟨hkept, -, hagain, -⟩ := runs_spare_files wellFormed_configured [] _ rfl hrun
  obtain ⟨path, hpath, hread, hsame⟩ := hagain ⟨_, rfl, rfl⟩ rfl
  obtain rfl : "x/f.toml" = path := Option.some.inj hpath
  refine ⟨_, hrun, ?_, hread rfl, hsame [] _ hpath⟩
  refine hkept [] (fun q hq _ path hq' => ?_) _ _ rfl
  obtain rfl : q = initAt "x/f.toml" := by simpa using hq
  obtain rfl : "x/f.toml" = path := Option.some.inj hq'
  exact not_stepsUpFromMissing (by decide)

/-- The same file is lost if the path to it steps up out of a directory that is made on the way. -/
theorem config_init_overwrites :
    ¬ ∀ (t : FileTree) (r : Request), t.WellFormed → ∀ p content,
      t.find? p = some (.file content) → (r.run t).2.find? p = some (.file content) := by
  intro hkept
  have hlost := hkept configured (initAt "x/../f.toml") wellFormed_configured ["f.toml", ""] _ rfl
  have hnow : ((initAt "x/../f.toml").run configured).2.find? ["f.toml", ""] =
      some (.file Config.template.toUTF8) := rfl
  have htexts : Config.template.toUTF8 = "[output]\nlimit = 7\n".toUTF8 := by
    simpa using hnow.symm.trans hlost
  exact absurd (String.toByteArray_inj.mp htexts) (by decide)

end FileTree

end PostFilter
