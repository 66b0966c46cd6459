import PostFilter.Config.Basic
import PostFilter.Filter.SyntaxError
import PostFilter.Json.Printer
import PostFilter.Store.Error

/-!
# Outcomes

What a run of the program leaves on the terminal, and how its errors are shown. A run that fails
prints nothing on standard output.
-/

namespace PostFilter

structure Outcome where
  exitCode : Nat
  stdout : String
  stderr : String
  deriving DecidableEq, Repr

/-- Why a command failed. -/
inductive CommandError where
  | filter (e : SyntaxError)
  | store (e : StoreError)
  | config (e : ConfigError)
  deriving DecidableEq, Repr

namespace CommandError

def message : CommandError → String
  | filter e => "filter error: " ++ e.message
  | store e => "store error: " ++ e.message
  | config e => "configuration error: " ++ e.message

def code : CommandError → String
  | filter _ => "SYNTAX_ERROR"
  | store (.unreadable _ _) => "SNAPSHOT_READ_ERROR"
  | store _ => "STORE_ERROR"
  | config _ => "CONFIG_ERROR"

def exitCode : CommandError → Nat
  | filter _ => 1
  | store (.unreadable _ _) => 3
  | store _ => 2
  | config _ => 5

def tokenIndex? : CommandError → Option Nat
  | filter e => e.tokenIndex?
  | _ => none

def toJson (e : CommandError) : Json :=
  .object [("error", .object ([("code", .string e.code), ("message", .string e.message)] ++
    (e.tokenIndex?.map fun i => ("token_index", Json.nat i)).toList))]

/-- The line that reports an error. -/
def line (json : Bool) (e : CommandError) : String :=
  if json then e.toJson.compact ++ "\n" else "Error: " ++ e.message ++ "\n"

end CommandError

namespace Outcome

def success (stdout : String) : Outcome := ⟨0, stdout, ""⟩

/-- A failure after some remarks. -/
def failure (json : Bool) (remarks : String) (e : CommandError) : Outcome :=
  ⟨e.exitCode, "", remarks ++ e.line json⟩

/-- The outcome of arguments that are refused. -/
def refused (reason : String) : Outcome :=
  ⟨2, "", reason⟩

end Outcome

end PostFilter
