import PostFilter.Command.Invocation

/-!
# Command lines

Arguments are read from left to right on nested levels: the program, its commands, and the commands
of `config`. Most options may stand on any level, and each level is checked for itself: an option is
not given twice on a level, and some options exclude each other there. Asking for help or for the
version ends the reading at once, before the levels are checked as a whole.
-/

namespace PostFilter

/-- Why a command line leads to no invocation. -/
inductive Stop where
  | usage
  | help
  /-- The version is to be shown under this name. -/
  | version (name : String)
  deriving DecidableEq, Repr

namespace CommandLine

/-! ## Levels -/

inductive Level where
  | program
  | check
  | eval
  | following
  | config
  | configShow
  | configPath
  | configInit
  | completions
  deriving DecidableEq, Repr

namespace Level

/-- The level with its levels above it. -/
def fullName : Level → String
  | program => "fr"
  | check => "fr-check"
  | eval => "fr-eval"
  | following => "fr-following"
  | config => "fr-config"
  | configShow => "fr-config-show"
  | configPath => "fr-config-path"
  | configInit => "fr-config-init"
  | completions => "fr-completions"

/-- The level below that a word leads to. -/
def below? : Level → String → Option Level
  | program, "check" | program, "c" => some check
  | program, "eval" | program, "e" => some eval
  | program, "following" | program, "f" => some following
  | program, "config" => some config
  | program, "completions" => some completions
  | config, "show" => some configShow
  | config, "path" => some configPath
  | config, "init" => some configInit
  | _, _ => none

/-- Does the level have levels below it? -/
def isInner (l : Level) : Bool :=
  l = program || l = config

/-- May the word follow these operands? -/
def accepts (l : Level) (operands : List String) (word : String) : Bool :=
  match l with
  | check | eval => operands.isEmpty
  | following => true
  | completions => operands.isEmpty && (Shell.ofName? word).isSome
  | _ => false

end Level

/-! ## Options -/

inductive Switch where
  | verbose
  | quiet
  | json
  | noColor
  | all
  deriving DecidableEq, Repr

/-- What a dash or two can introduce. -/
inductive Opt where
  | switch (s : Switch)
  /-- The next argument, or the text after an equals sign, is the snapshot file. -/
  | snapshot
  /-- Likewise the limit. -/
  | limit
  | help
  | version
  deriving DecidableEq, Repr

def long? (l : Level) : String → Option Opt
  | "verbose" => some (.switch .verbose)
  | "quiet" => some (.switch .quiet)
  | "json" => some (.switch .json)
  | "no-color" => some (.switch .noColor)
  | "snapshot" => some .snapshot
  | "help" => some .help
  | "version" => some .version
  | "limit" => if l = .eval ∨ l = .following then some .limit else none
  | "all" => if l = .eval then some (.switch .all) else none
  | _ => none

def short? : Char → Option Opt
  | 'v' => some (.switch .verbose)
  | 'q' => some (.switch .quiet)
  | 'h' => some .help
  | 'V' => some .version
  | _ => none

/-- The options that are given on a level. Of the snapshot files, newest first, there may be one at
most. -/
structure Given where
  switches : List Switch
  snapshots : List String
  limit : Option Nat
  deriving DecidableEq, Repr

namespace Given

def none : Given := ⟨[], [], .none⟩

def has (g : Given) (s : Switch) : Bool := g.switches.contains s

/-- Do all options go together? -/
def isConsistent (g : Given) : Bool :=
  !(g.has .verbose && g.has .quiet) && !(g.has .all && g.limit.isSome) && g.snapshots.length ≤ 1

end Given

/-! ## Reading -/

/-- Where the reading stands. -/
structure Reading where
  level : Level
  above : List Given
  here : Given
  operands : List String
  deriving DecidableEq, Repr

namespace Reading

def start : Reading := ⟨.program, [], .none, []⟩

def descend (r : Reading) (l : Level) : Reading :=
  ⟨l, r.above ++ [r.here], .none, []⟩

def addSwitch (r : Reading) (s : Switch) : Except Stop Reading :=
  if r.here.has s then .error .usage
  else .ok { r with here := { r.here with switches := s :: r.here.switches } }

/-- Take a snapshot file without looking at it. -/
def noteSnapshot (r : Reading) (path : String) : Reading :=
  { r with here := { r.here with snapshots := path :: r.here.snapshots } }

def addSnapshot (r : Reading) (path : String) : Except Stop Reading :=
  if path.isEmpty || !r.here.snapshots.isEmpty then .error .usage else .ok (r.noteSnapshot path)

/-- The greatest limit. -/
def maxLimit : Nat := 4294967295

/-- A number within the limits, whose sign may be given. -/
def limit? (text : String) : Option Nat :=
  let (negative, ds) := match text.toList with
    | '-' :: ds => (true, ds)
    | '+' :: ds => (false, ds)
    | ds => (false, ds)
  let n := Decimal.natOfDigits ds
  if ds.isEmpty || !ds.all Char.isDigit || n > maxLimit || (negative && n != 0) then none
  else some n

def addLimit (r : Reading) (text : String) : Except Stop Reading :=
  match r.here.limit, limit? text with
  | none, some n => .ok { r with here := { r.here with limit := some n } }
  | _, _ => .error .usage

def addOperand (r : Reading) (word : String) : Except Stop Reading :=
  if r.level.accepts r.operands word then .ok { r with operands := r.operands ++ [word] }
  else .error .usage

/-- Read a cluster of one-letter options. -/
def cluster (r : Reading) : List Char → Except Stop Reading
  | [] => .ok r
  | c :: cs =>
    match short? c with
    | some (.switch s) =>
      match r.addSwitch s with
      | .ok r => r.cluster cs
      | .error e => .error e
    | some .help => .error .help
    | some .version => .error (.version r.level.fullName)
    | _ => .error .usage

/-- Does an argument begin like an option? A lone dash does not. -/
def isOptionLike (arg : String) : Bool :=
  match arg.toList with
  | '-' :: _ :: _ => true
  | _ => false

/-- Is a snapshot path before these arguments left to the final check? It is if a word follows that
leads to a level below. -/
def postponesSnapshot (l : Level) : List String → Bool
  | word :: _ => (l.below? word).isSome || (l.isInner && word == "help")
  | [] => false

/-- Do the words lead from level to level? -/
def isTopic (l : Level) : List String → Bool
  | [] => true
  | word :: words =>
    match l.below? word with
    | some l' => isTopic l' words
    | none => l.isInner && word == "help" && words.isEmpty

/-- Split an argument after two dashes at the first equals sign. -/
def splitOption (cs : List Char) : String × Option String :=
  (String.ofList (cs.takeWhile (· != '=')),
    match cs.dropWhile (· != '=') with
    | _ :: value => some (String.ofList value)
    | [] => none)

/-- Read the remaining arguments. After two dashes they are all operands. -/
def read (r : Reading) : List String → Except Stop Reading
  | [] => .ok r
  | arg :: rest =>
    match arg.toList with
    | ['-', '-'] => rest.foldlM addOperand r
    | '-' :: '-' :: cs =>
      let (name, value) := splitOption cs
      match long? r.level name, value with
      | some (.switch s), none =>
        match r.addSwitch s with
        | .ok r => r.read rest
        | .error e => .error e
      | some .help, none => .error .help
      | some .version, none => .error (.version r.level.fullName)
      | some .snapshot, some path =>
        match r.addSnapshot path with
        | .ok r => r.read rest
        | .error e => .error e
      | some .limit, some text =>
        match r.addLimit text with
        | .ok r => r.read rest
        | .error e => .error e
      | some .snapshot, none =>
        match rest with
        | path :: rest =>
          if isOptionLike path then .error .usage
          else if postponesSnapshot r.level rest then (r.noteSnapshot path).read rest
          else
            match r.addSnapshot path with
            | .ok r => r.read rest
            | .error e => .error e
        | [] => .error .usage
      | some .limit, none =>
        match rest with
        | text :: rest =>
          if isOptionLike text then .error .usage
          else
            match r.addLimit text with
            | .ok r => r.read rest
            | .error e => .error e
        | [] => .error .usage
      | _, _ => .error .usage
    | '-' :: c :: cs =>
      match r.cluster (c :: cs) with
      | .ok r => r.read rest
      | .error e => .error e
    | _ =>
      match r.level.below? arg with
      | some l => (r.descend l).read rest
      | none =>
        if r.level.isInner && arg == "help" then
          .error (if isTopic r.level rest then .help else .usage)
        else
          match r.addOperand arg with
          | .ok r => r.read rest
          | .error e => .error e

/-! ## The result -/

def levels (r : Reading) : List Given := r.above ++ [r.here]

/-- Is a switch given on any level? -/
def has (r : Reading) (s : Switch) : Bool := r.levels.any (·.has s)

/-- The snapshot file that counts on a level, given that of the environment. -/
def snapshotOn (inherited : Option String) (g : Given) : Option String :=
  g.snapshots.head? <|> inherited

/-- The snapshot file that the innermost level names, and that of the environment if none does. -/
def snapshot? (inherited : Option String) (r : Reading) : Option String :=
  (r.levels.reverse.findSome? (·.snapshots.head?)) <|> inherited

/-- Is every level well-formed? An empty snapshot path is none, wherever it comes from. -/
def isConsistent (inherited : Option String) (r : Reading) : Bool :=
  r.levels.all fun g => g.isConsistent && snapshotOn inherited g != some ""

def limit (r : Reading) : Limit :=
  if r.here.has .all then .unlimited
  else
    match r.here.limit with
    | some n => .atMost n
    | none => .configured

/-- The command, if it has all its operands. -/
def command? (r : Reading) : Option Command :=
  match r.level, r.operands with
  | .program, _ => some .overview
  | .check, [filter] => some (.check filter)
  | .eval, [filter] => some (.eval filter r.limit)
  | .following, usernames => some (.following usernames r.limit)
  | .config, _ | .configShow, _ => some .configShow
  | .configPath, _ => some .configPath
  | .configInit, _ => some .configInit
  | .completions, [name] => (Shell.ofName? name).map .completions
  | _, _ => none

def finish (inherited : Option String) (r : Reading) : Except Stop Invocation :=
  match r.command? with
  | some command =>
    if r.isConsistent inherited then
      .ok {
        verbose := r.has .verbose
        quiet := r.has .quiet
        json := r.has .json
        noColor := r.has .noColor
        snapshot := r.snapshot? inherited
        command := command }
    else .error .usage
  | none => .error .usage

end Reading

/-- What some arguments ask for, where the environment may name a snapshot file. -/
def parse (inherited : Option String) (args : List String) : Except Stop Invocation :=
  match Reading.start.read args with
  | .ok r => r.finish inherited
  | .error e => .error e

end CommandLine

end PostFilter
