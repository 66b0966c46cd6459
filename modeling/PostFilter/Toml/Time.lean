import PostFilter.Text.Number
import PostFilter.Time.Date
import PostFilter.Toml.Reader
import PostFilter.Toml.Value

/-!
# TOML times

A date, a time of day, or both, and then with or without an offset. The calendar is checked.
-/

namespace PostFilter.Toml.Reader

/-- A number of so many digits. -/
def fixedNumber (digits : Nat) : Reader Nat := do
  pure (Decimal.natOfDigits (← exactly Char.isDigit digits))

def numberWithin (digits low high : Nat) : Reader Nat := do
  let n ← fixedNumber digits
  if low ≤ n ∧ n ≤ high then pure n else failure

def date : Reader Unit := do
  let year ← fixedNumber 4
  char '-'
  let month ← numberWithin 2 1 12
  char '-'
  discard (numberWithin 2 1 (daysInMonth year month))

def hourAndMinute : Reader Unit := do
  discard (numberWithin 2 0 23)
  char ':'
  discard (numberWithin 2 0 59)

/-- A time of day, with seconds up to a leap second. -/
def timeOfDay : Reader Unit := do
  hourAndMinute
  char ':'
  discard (numberWithin 2 0 60)
  discard (optional (char '.' *> nonemptyRun Char.isDigit))

def offset : Reader Unit :=
  discard (one fun c => c == 'Z' || c == 'z') <|>
    (one (fun c => c == '+' || c == '-') *> hourAndMinute)

def timeAfterDate : Reader Unit := do
  discard (one fun c => c == 'T' || c == 't' || c == ' ')
  timeOfDay
  discard (optional offset)

def time : Reader Value := do
  pure (.time (String.ofList (← taken ((date *> discard (optional timeAfterDate)) <|> timeOfDay))))

end PostFilter.Toml.Reader
