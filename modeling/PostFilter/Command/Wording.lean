/-!
# Wording

Texts that the program shows and does not compose. Help, refusals and completion scripts follow from
how the arguments are declared, and what is wrong with a document is for its reader to say.
-/

namespace PostFilter

inductive Shell where
  | bash
  | zsh
  | fish
  | powershell
  deriving DecidableEq, Repr

def Shell.ofName? : String → Option Shell
  | "bash" => some .bash
  | "zsh" => some .zsh
  | "fish" => some .fish
  | "powershell" => some .powershell
  | _ => none

structure Wording where
  /-- The help that some arguments ask for. -/
  help (args : List String) : String
  /-- Why some arguments are refused. -/
  refusal (args : List String) : String
  /-- The script that makes a shell complete arguments. -/
  completions (shell : Shell) : String
  /-- What is wrong with a document that holds no snapshot. -/
  snapshotFault (document : String) : String
  /-- What is wrong with a document that holds no config. -/
  configFault (document : String) : String

end PostFilter
