import PostFilter.Command.Environment
import PostFilter.Command.Line
import PostFilter.Command.Settings
import PostFilter.File.Access
import PostFilter.Snapshot.Codec

/-!
# Running commands

A run reads the config file first, whatever the command. Only the listing commands read a snapshot,
and only `config init` writes, and then only where there is no config file.
-/

namespace PostFilter

namespace Command

variable {m : Type → Type} [Monad m] [FileAccess m]

/-! ## Files -/

/-- The path of the config file, and the settings in it. -/
def loadConfig (env : Environment) : m (Except ConfigError (String × Config)) := do
  match env.configPath? with
  | none => pure (.error .noConfigDirectory)
  | some path =>
    if ← FileAccess.isThere path then
      match ← FileAccess.read path with
      | .error e => pure (.error (.unreadable e))
      | .ok text => pure ((Config.ofText env.wording.configFault text).map (path, ·))
    else pure (.ok (path, .default))

/-- The snapshot file: the one that is named, else that of the config, else the default one. -/
def snapshotPath? (env : Environment) (named : Option String) (config : Config) : Option String :=
  named <|> config.snapshot <|> env.defaultSnapshotPath?

def loadSnapshot (env : Environment) (named : Option String) (config : Config) :
    m (Except CommandError Snapshot) := do
  match snapshotPath? env named config with
  | none => pure (.error (.config .noDataDirectory))
  | some path =>
    match ← FileAccess.read path with
    | .error e => pure (.error (.store (.unreadable path e)))
    | .ok text => pure ((Snapshot.decode env.wording.snapshotFault text).mapError .store)

/-- Write the config file unless there is one. The answer says whether it was written. -/
def createConfig (path : String) : m (Except ConfigError Bool) := do
  if ← FileAccess.isThere path then pure (.ok false)
  else
    match ← FileAccess.createParent path with
    | .error e => pure (.error (.directoryNotMade e))
    | .ok () =>
      match ← FileAccess.write path Config.template with
      | .error e => pure (.error (.unwritable e))
      | .ok () => pure (.ok true)

/-! ## Runs -/

/-- How results are shown: colors have to be wanted by the command line, the environment and the
config alike. -/
def view (env : Environment) (i : Invocation) (config : Config) : View where
  json := i.json
  quiet := i.quiet
  verbose := i.verbose
  colors := !i.noColor && !env.refusesColors && config.allowsColors
  localOffset := env.localOffset

def overviewText : String :=
  "fr - Fritter filter CLI\nUse --help for usage information\n"

/-- Show what a snapshot holds, if it can be read. -/
def query (env : Environment) (i : Invocation) (config : Config) (answer : Snapshot → Outcome) :
    m Outcome := do
  match ← loadSnapshot env i.snapshot config with
  | .error e => pure (.failure i.json "" e)
  | .ok s => pure (answer s)

/-- Run a command under the settings of a config file. -/
def runWith (env : Environment) (i : Invocation) (path : String) (config : Config) :
    m Outcome := do
  let v := view env i config
  match i.command with
  | .overview => pure (.success (if i.quiet then "" else overviewText))
  | .check text => pure (v.check text)
  | .eval text limit => query env i config fun s => v.eval s text (limit.count? config)
  | .following usernames limit =>
    query env i config fun s => v.following s usernames (limit.count? config)
  | .configShow => return v.settings path (← FileAccess.isThere path) config
  | .configPath => return v.configPath path (← FileAccess.isThere path)
  | .configInit =>
    match ← createConfig path with
    | .error e => pure (.failure i.json "" (.config e))
    | .ok created => pure (v.configCreation path created)
  | .completions shell => pure (.success (env.wording.completions shell))

def run (env : Environment) (i : Invocation) : m Outcome := do
  match ← loadConfig env with
  | .error e => pure (.failure i.json "" (.config e))
  | .ok (path, config) => runWith env i path config

end Command

namespace CommandLine

def versionNumber : String := "0.1.0"

/-- What is shown where no command is run. -/
def stopOutcome (env : Environment) (args : List String) : Stop → Outcome
  | .usage => .refused (env.wording.refusal args)
  | .help => .success (env.wording.help args)
  | .version name => .success (name ++ " " ++ versionNumber ++ "\n")

/-- Run the program with some arguments. -/
def run {m : Type → Type} [Monad m] [FileAccess m] (env : Environment) (args : List String) :
    m Outcome :=
  match parse env.snapshotFile args with
  | .error stop => pure (stopOutcome env args stop)
  | .ok i => Command.run env i

end CommandLine

end PostFilter
