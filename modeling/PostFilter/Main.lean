import PostFilter.Command.Run
import PostFilter.Time.Zone

/-!
# The program

Commands run on the files of the system.
-/

namespace PostFilter

/-- The refusal with a number of the system, which may come with its sign changed. -/
def FileError.ofCode (code : UInt32) (details : String) : FileError :=
  let number := (min code (0 - code)).toNat
  if number = 20 then .notDirectory
  else if number = 21 then .isDirectory
  else if number = 36 then .nameTooLong
  else .other (details ++ " (os error " ++ toString number ++ ")")

/-- The refusal that an error of the system stands for. -/
def FileError.ofSystem : IO.Error → FileError
  | .noFileOrDirectory .. => .notFound
  | .alreadyExists .. => .alreadyExists
  | .inappropriateType _ code details => .ofCode code details
  | .invalidArgument _ code details => .ofCode code details
  | .permissionDenied _ code details => .ofCode code details
  | e => .other (toString e)

/-- The result of an action, with a thrown error as a refusal. -/
def attempt {α : Type} (action : IO α) : IO (Except FileError α) := do
  try
    return .ok (← action)
  catch e =>
    return .error (.ofSystem e)

instance : FileAccess IO where
  isThere path := do
    match ← attempt (IO.FS.Handle.mk path .read) with
    | .ok _ => return true
    | .error .notFound | .error .notDirectory | .error .nameTooLong => return false
    | .error _ => return true
  isDirectory path := do
    match ← attempt (IO.FS.realPath path) with
    | .ok place => place.isDir
    | .error _ => return false
  read path := return (← attempt (IO.FS.readBinFile path)).bind decodeText
  write path text := attempt (IO.FS.writeFile path text)
  createDirectory path := attempt (IO.FS.createDir path)

/-! ## Texts -/

def helpText : String :=
  "Query Fritter posts with filter expressions\n\n" ++
  "Usage: fr [OPTIONS] [COMMAND]\n\n" ++
  "Commands:\n" ++
  "  check EXPRESSION                        Parse a filter expression\n" ++
  "  eval EXPRESSION [--limit N] [--all]     List matching posts\n" ++
  "  following [USERNAMES]... [--limit N]    List posts by the given authors\n" ++
  "  config [show|path|init]                 View configuration\n" ++
  "  completions bash|zsh|fish|powershell    Generate shell completions\n\n" ++
  "Options:\n" ++
  "  -v, --verbose  -q, --quiet  --json  --no-color  --snapshot FILE\n" ++
  "  -h, --help  -V, --version\n"

def commandWords : List String :=
  ["check", "eval", "following", "config", "completions", "help"]

/-- A script that offers the names of the commands. -/
def Shell.commandScript : Shell → String
  | bash => "complete -W '" ++ " ".intercalate commandWords ++ "' fr\n"
  | zsh => "compctl -k '(" ++ " ".intercalate commandWords ++ ")' fr\n"
  | fish => "complete -c fr -f -a '" ++ " ".intercalate commandWords ++ "'\n"
  | powershell =>
    "Register-ArgumentCompleter -Native -CommandName fr -ScriptBlock \x7b\n" ++
      "  param($word)\n  '" ++ "', '".intercalate commandWords ++
      "' | Where-Object \x7b $_ -like \"$word*\" \x7d\n\x7d\n"

/-- The shortest texts that serve. -/
def Wording.brief : Wording where
  help _ := helpText
  refusal _ := "usage error\n\nFor more information, try '--help'.\n"
  completions := Shell.commandScript
  snapshotFault _ := "malformed document"
  configFault _ := "malformed document"

/-! ## The process -/

/-- The number of the account that runs the process with this status. -/
def accountNumber? (status : String) : Option String :=
  (status.splitOn "\n").findSome? fun line =>
    match line.splitOn "\t" with
    | "Uid:" :: number :: _ => some number
    | _ => none

/-- The home directory in the entry with this number. -/
def accountHome? (accounts number : String) : Option String :=
  (accounts.splitOn "\n").findSome? fun line =>
    match line.splitOn ":" with
    | [_, _, n, _, _, home, _] => if n = number && !home.isEmpty then some home else none
    | _ => none

/-- The home directory of the account that runs the process. -/
def homeOfAccount : IO (Option String) := do
  match ← attempt (IO.FS.readFile "/proc/self/status"),
    ← attempt (IO.FS.readFile "/etc/passwd") with
  | .ok status, .ok accounts => return (accountNumber? status).bind (accountHome? accounts)
  | _, _ => return none

/-- The environment of the process. -/
def Environment.ofProcess : IO Environment := do
  let names := ["FR_CONFIG", "FR_SNAPSHOT", "XDG_CONFIG_HOME", "XDG_DATA_HOME", "HOME", "NO_COLOR"]
  let values ← names.mapM fun n => return (n, ← IO.getEnv n)
  let zone := (← IO.getEnv "TZ").getD ""
  return .ofVariables (fun n => (values.lookup n).join) (← homeOfAccount)
    (fun _ => Zone.offset zone) .brief

end PostFilter

open PostFilter in
def main (args : List String) : IO UInt32 := do
  let outcome ← CommandLine.run (← Environment.ofProcess) args
  (← IO.getStdout).putStr outcome.stdout
  (← IO.getStderr).putStr outcome.stderr
  return outcome.exitCode.toUInt32
