import PostFilter.Command.Wording
import PostFilter.Config.Basic

/-!
# Invocations

What the program can be asked to do.
-/

namespace PostFilter

/-- How many posts to list. -/
inductive Limit where
  /-- As many as the config says. -/
  | configured
  | atMost (n : Nat)
  | unlimited
  deriving DecidableEq, Repr

/-- The greatest number of posts, or none if there is no limit. -/
def Limit.count? (config : Config) : Limit → Option Nat
  | configured => some config.limit
  | atMost n => some n
  | unlimited => none

inductive Command where
  /-- Say what the program is. -/
  | overview
  | check (filter : String)
  | eval (filter : String) (limit : Limit)
  | following (usernames : List String) (limit : Limit)
  | configShow
  | configPath
  | configInit
  | completions (shell : Shell)
  deriving DecidableEq, Repr

structure Invocation where
  verbose : Bool
  quiet : Bool
  json : Bool
  noColor : Bool
  /-- The snapshot file, if the command line or the environment names one. -/
  snapshot : Option String
  command : Command
  deriving DecidableEq, Repr

end PostFilter
