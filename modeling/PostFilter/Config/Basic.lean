import PostFilter.File.Error
import PostFilter.Toml.Document

/-!
# Configuration

The settings of the config file, all of them optional. Unknown keys are ignored, and a file of an
older version is read as one of the current version.
-/

namespace PostFilter

structure OutputSettings where
  color : Option Bool
  limit : Option Nat
  deriving DecidableEq, Repr

structure Config where
  snapshot : Option String
  output : OutputSettings
  deriving DecidableEq, Repr

inductive ConfigError where
  | unreadable (reason : FileError)
  | malformed (details : String)
  | tooNew (version : Nat)
  | noConfigDirectory
  | noDataDirectory
  | directoryNotMade (reason : FileError)
  | unwritable (reason : FileError)
  deriving DecidableEq, Repr

namespace OutputSettings

def empty : OutputSettings := ⟨none, none⟩

end OutputSettings

namespace Config

/-- The settings where there is no file. -/
def default : Config := ⟨none, .empty⟩

def currentVersion : Nat := 1

/-- The config file that is written where there is none. -/
def template : String :=
  String.join ([
    "# fr - Fritter filter CLI configuration",
    "",
    "# Config schema version (do not modify)",
    "version = 1",
    "",
    "# Snapshot file to query (can also use --snapshot or FR_SNAPSHOT)",
    "# snapshot = \"/path/to/snapshot.json\"",
    "",
    "# Output preferences",
    "[output]",
    "# color = true   # Enable colors (respects NO_COLOR env)",
    "# limit = 50     # Default number of posts listed"].map (· ++ "\n"))

end Config

def ConfigError.message : ConfigError → String
  | unreadable r => "Failed to read config: " ++ r.message
  | malformed d => "Failed to parse config: " ++ d
  | tooNew v =>
    "Config version " ++ toString v ++ " is newer than supported version " ++
      toString Config.currentVersion
  | noConfigDirectory => "Could not determine config directory"
  | noDataDirectory => "Could not determine data directory"
  | directoryNotMade r => "Failed to create config directory: " ++ r.message
  | unwritable r => "Failed to write config: " ++ r.message

namespace Config

/-! ## Decoding -/

def switch? : Toml.Value → Option Bool
  | .boolean b => some b
  | _ => none

/-- A number of 32 bits. -/
def count? : Toml.Value → Option Nat
  | .integer n => if 0 ≤ n ∧ n < UInt32.size then some n.toNat else none
  | _ => none

def string? : Toml.Value → Option String
  | .string s => some s
  | _ => none

/-- A setting that may be missing, but has to be well-formed if it is there. -/
def setting? {α : Type} (decode : Toml.Value → Option α) (key : String) (es : Toml.Entries) :
    Option (Option α) :=
  match es.lookup key with
  | none => some none
  | some v => (decode v).map some

/-- The output settings as a table, or as an array that begins with both of them. A time is taken
for a table without any settings. -/
def output? : Toml.Value → Option OutputSettings
  | .table _ es => do pure ⟨← setting? switch? "color" es, ← setting? count? "limit" es⟩
  | .array (color :: limit :: _) => do pure ⟨some (← switch? color), some (← count? limit)⟩
  | .time _ => some .empty
  | _ => none

/-- The version and the settings of a document. -/
def decode? (es : Toml.Entries) : Option (Nat × Config) := do
  let version ← setting? count? "version" es
  let snapshot ← setting? string? "snapshot" es
  let output ← setting? output? "output" es
  pure (version.getD currentVersion, ⟨snapshot, output.getD .empty⟩)

/-- The settings in a document, where `fault` says what is wrong with one that is malformed. -/
def ofText (fault : String → String) (document : String) : Except ConfigError Config :=
  match (Toml.parse? document).bind decode? with
  | none => .error (.malformed (fault document))
  | some (version, config) =>
    if currentVersion < version then .error (.tooNew version) else .ok config

/-- Does the config allow colors? -/
def allowsColors (c : Config) : Bool :=
  c.output.color.getD true

def defaultLimit : Nat := 50

/-- How many posts are listed where no limit is given. -/
def limit (c : Config) : Nat :=
  c.output.limit.getD defaultLimit

end Config

end PostFilter
