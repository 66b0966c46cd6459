import PostFilter.Text.Number

/-!
# Time zones without daylight saving

A zone with a fixed offset is written as its abbreviation and the time to add to reach UTC, such as
`JST-9` or `<+0530>-5:30`. Blanks of ASCII may stand around it. Anything else is taken for UTC.
-/

namespace PostFilter.Zone

def isBlank (c : Char) : Bool :=
  c == ' ' || c == '\t' || c == '\n' || c == '\x0c' || c == '\r'

/-- The text without the blanks around it. -/
def trimBlanks (cs : List Char) : List Char :=
  ((cs.dropWhile isBlank).reverse.dropWhile isBlank).reverse

def isAbbreviationChar (c : Char) : Bool :=
  c.isAlphanum || c == '+' || c == '-'

/-- The text after the abbreviation, which has three to seven characters. -/
def afterAbbreviation? : List Char → Option (List Char)
  | '<' :: cs =>
    let n := (cs.takeWhile (· != '>')).length
    match cs.dropWhile (· != '>') with
    | _ :: rest =>
      if 3 ≤ n && n ≤ 7 && (cs.take n).all isAbbreviationChar then some rest else none
    | [] => none
  | cs =>
    let n := (cs.takeWhile Char.isAlpha).length
    if 3 ≤ n && n ≤ 7 then some (cs.drop n) else none

def number? (limit : Nat) (cs : List Char) : Option (Nat × List Char) :=
  match cs.takeWhile Char.isDigit with
  | [] => none
  | ds =>
    let n := Decimal.natOfDigits ds
    if n ≤ limit then some (n, cs.drop ds.length) else none

/-- A colon and a number, or zero if there is no colon. -/
def part? : List Char → Option (Nat × List Char)
  | ':' :: cs => number? 59 cs
  | cs => some (0, cs)

def duration? (cs : List Char) : Option Nat := do
  let (hours, cs) ← number? 24 cs
  let (minutes, cs) ← part? cs
  let (seconds, cs) ← part? cs
  if cs.isEmpty then pure (3600 * hours + 60 * minutes + seconds) else none

def offset? (cs : List Char) : Option Int := do
  match ← afterAbbreviation? cs with
  | '-' :: cs => (duration? cs).map fun n => (n : Int)
  | '+' :: cs => (duration? cs).map fun n => -(n : Int)
  | cs => (duration? cs).map fun n => -(n : Int)

/-- How many seconds the clocks of the zone are ahead of UTC. -/
def offset (name : String) : Int :=
  match offset? (trimBlanks name.toList) with
  | some n => if -86400 < n ∧ n < 86400 then n else 0
  | none => 0

end PostFilter.Zone
