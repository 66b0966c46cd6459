/-!
# Readers of text

A reader takes what it understands from the front of a text, or fails. Of two readers the second
is tried where the first one fails, whatever the first one had taken.
-/

namespace PostFilter.Toml

abbrev Reader := StateT (List Char) Option

namespace Reader

variable {α : Type}

/-- The next character, which stays in the text. -/
def next? : Reader (Option Char) :=
  fun cs => some (cs.head?, cs)

/-- Take one character of a class. -/
def one (ok : Char → Bool) : Reader Char
  | [] => none
  | c :: cs => if ok c then some (c, cs) else none

def char (c : Char) : Reader Unit := do
  discard (one (· == c))

def chars : List Char → Reader Unit
  | [] => pure ()
  | c :: cs => do
    char c
    chars cs

/-- Take the longest run of characters of a class, which may be empty. -/
def run (ok : Char → Bool) : Reader (List Char) :=
  fun cs => some (cs.takeWhile ok, cs.dropWhile ok)

def nonemptyRun (ok : Char → Bool) : Reader (List Char) := do
  let c ← one ok
  let cs ← run ok
  pure (c :: cs)

/-- Take a given number of characters of a class. -/
def exactly (ok : Char → Bool) : Nat → Reader (List Char)
  | 0 => pure []
  | n + 1 => do
    let c ← one ok
    let cs ← exactly ok n
    pure (c :: cs)

def atEnd : Reader Unit
  | [] => some ((), [])
  | _ :: _ => none

/-- What the reader takes, or nothing where it fails. -/
def optional (r : Reader α) : Reader (Option α) :=
  fun cs =>
    match r cs with
    | some (a, rest) => some (some a, rest)
    | none => some (none, cs)

def manyUpTo (r : Reader α) : Nat → Reader (List α)
  | 0 => pure []
  | n + 1 => do
    match ← optional r with
    | none => pure []
    | some a => do
      let as ← manyUpTo r n
      pure (a :: as)

/-- Read as often as possible. The reader has to take at least one character each time. -/
def many (r : Reader α) : Reader (List α) := do
  manyUpTo r (← get).length

/-- Read once or more, with one character between any two. -/
def separated (separator : Char) (r : Reader α) : Reader (List α) := do
  let a ← r
  let as ← many (char separator *> r)
  pure (a :: as)

/-- The text that a reader takes. -/
def taken (r : Reader α) : Reader (List Char) :=
  fun cs =>
    match r cs with
    | some (_, rest) => some (cs.take (cs.length - rest.length), rest)
    | none => none

end Reader

end PostFilter.Toml
