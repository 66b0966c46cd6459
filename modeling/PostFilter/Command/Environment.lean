import PostFilter.Command.Wording
import PostFilter.File.Path
import PostFilter.Time.Instant

/-!
# Environment

What commands find around them: the environment variables that they heed, the account, the local
clock and the texts that they pass on. The default places of files follow from it.
-/

namespace PostFilter

structure Environment where
  /-- The config file. -/
  configFile : Option String
  /-- The snapshot file. -/
  snapshotFile : Option String
  configHome : Option String
  dataHome : Option String
  home : Option String
  /-- The home directory that the system knows for the account. -/
  accountHome : Option String
  noColor : Option String
  /-- How many seconds the local clock is ahead of UTC at an instant. -/
  localOffset : Instant → Int
  wording : Wording

namespace Environment

/-- The environment in which the variables have these values. -/
def ofVariables (value : String → Option String) (accountHome : Option String)
    (localOffset : Instant → Int) (wording : Wording) : Environment where
  configFile := value "FR_CONFIG"
  snapshotFile := value "FR_SNAPSHOT"
  configHome := value "XDG_CONFIG_HOME"
  dataHome := value "XDG_DATA_HOME"
  home := value "HOME"
  accountHome := accountHome
  noColor := value "NO_COLOR"
  localOffset := localOffset
  wording := wording

/-- The home directory: the one that the variable names, unless its name is empty, else that of the
account. -/
def homeDirectory? (env : Environment) : Option String :=
  env.home.filter (· != "") <|> env.accountHome

/-- A directory in the home directory. -/
def underHome? (env : Environment) (names : List String) : Option String :=
  env.homeDirectory?.map (names.foldl Path.join)

/-- The path of the config file, which need not exist. -/
def configPath? (env : Environment) : Option String :=
  match env.configFile with
  | some path => some path
  | none =>
    (env.configHome <|> env.underHome? [".config"]).map fun d =>
      Path.join (Path.join d "fr") "config.toml"

/-- The snapshot file that is used where none is named. A data directory counts only if its path is
absolute. -/
def defaultSnapshotPath? (env : Environment) : Option String := do
  let data ← env.underHome? [".local", "share"]
  let dir := (env.dataHome.filter Path.isAbsolute).getD data
  pure (Path.join (Path.join dir "fr") "snapshot.json")

/-- Does the environment ask for no colors? -/
def refusesColors (env : Environment) : Bool :=
  match env.noColor with
  | some v => v != ""
  | none => false

end Environment

end PostFilter
