/-!
# TOML values

What a document or a part of it denotes. Numbers with a fraction and times keep their literal, as
nothing here computes with them. A table remembers how it came to be, because that decides what may
still be added to it.
-/

namespace PostFilter.Toml

/-- How a table came to be. -/
inductive Origin where
  /-- A header names it. -/
  | named
  /-- A longer header passes through it. -/
  | passed
  /-- A dotted key passes through it. -/
  | dotted
  /-- It is written in braces. -/
  | braced
  deriving DecidableEq, Repr

inductive Value where
  | string (s : String)
  | integer (n : Int)
  | float (literal : String)
  | boolean (b : Bool)
  | time (literal : String)
  | array (items : List Value)
  | table (origin : Origin) (entries : List (String × Value))
  /-- The tables under a repeated header, newest first. -/
  | tables (items : List (List (String × Value)))
  deriving Repr

/-- The contents of a table, oldest first. -/
abbrev Entries := List (String × Value)

end PostFilter.Toml
