import PostFilter.Text.Blank
import PostFilter.Text.Number
import PostFilter.Time.Date

/-!
# Instants

Points in time, to the nanosecond and in UTC, from the year -262143 to the year 262142. A leap
second is kept as such: it is the second before it with nanoseconds from one billion on. Reading is
lenient about blanks, leading zeros and the separators of the offset; writing uses the fewest
fraction digits in steps of three. On a local clock an instant may fall on the day before the first
year or on the day after the last one.
-/

namespace PostFilter

/-- Is the date in one of the years that instants can have? -/
def Date.isSupported (d : Date) : Bool :=
  -262143 ≤ d.year && d.year ≤ 262142

structure Instant where
  date : Date
  second : Nat
  nano : Nat
  supported : date.isSupported
  second_lt : second < 86400
  nano_lt : nano < 2000000000
  leap : 1000000000 ≤ nano → second % 60 = 59
  deriving DecidableEq, Repr

namespace Instant

def ofParts? (date : Date) (second nano : Nat) : Option Instant :=
  if h : date.isSupported ∧ second < 86400 ∧ nano < 2000000000 ∧
      (1000000000 ≤ nano → second % 60 = 59) then
    some ⟨date, second, nano, h.1, h.2.1, h.2.2.1, h.2.2.2⟩
  else none

/-- A number that grows with time. -/
def rank (t : Instant) : Int :=
  (((t.date.year * 13 + t.date.month) * 32 + t.date.day) * 86400 + t.second) * 2000000000 + t.nano

/-! ## Reading -/

namespace Reader

def literal? (c : Char) : List Char → Option (List Char)
  | d :: cs => if d = c then some cs else none
  | [] => none

/-- A number of at least one digit, in which no more than `width` digits are taken. -/
def number? (width : Nat) (cs : List Char) : Option (Nat × List Char) :=
  match (cs.take width).takeWhile Char.isDigit with
  | [] => none
  | ds => some (Decimal.natOfDigits ds, cs.drop ds.length)

/-- A year has at most four digits, or a sign and any number of them. -/
def year? : List Char → Option (Int × List Char)
  | '-' :: cs => (number? cs.length cs).map fun (n, rest) => (-(n : Int), rest)
  | '+' :: cs => (number? cs.length cs).map fun (n, rest) => ((n : Int), rest)
  | cs => (number? 4 cs).map fun (n, rest) => ((n : Int), rest)

def date? (cs : List Char) : Option (Date × List Char) := do
  let (year, cs) ← year? (Text.trimStart cs)
  let cs ← literal? '-' (Text.trimStart cs)
  let (month, cs) ← number? 2 (Text.trimStart cs)
  let cs ← literal? '-' (Text.trimStart cs)
  let (day, cs) ← number? 2 (Text.trimStart cs)
  let date ← (Date.ofParts? year month day).filter Date.isSupported
  pure (date, cs)

/-- Nanoseconds after a point. Digits beyond the ninth are dropped. -/
def fraction? : List Char → Option (Nat × List Char)
  | '.' :: cs =>
    match (cs.take 9).takeWhile Char.isDigit with
    | [] => none
    | ds =>
      some (Decimal.natOfDigits ds * Nat.pow 10 (9 - ds.length), cs.dropWhile Char.isDigit)
  | cs => some (0, cs)

/-- A time of day as its second and nanoseconds. Second sixty of any minute is a leap second. -/
def time? (cs : List Char) : Option ((Nat × Nat) × List Char) := do
  let (hour, cs) ← number? 2 (Text.trimStart cs)
  let cs ← literal? ':' (Text.trimStart cs)
  let (minute, cs) ← number? 2 (Text.trimStart cs)
  let cs ← literal? ':' (Text.trimStart cs)
  let (second, cs) ← number? 2 (Text.trimStart cs)
  let (nano, cs) ← fraction? cs
  if 23 < hour ∨ 59 < minute ∨ 60 < second then none
  else
    let start := 3600 * hour + 60 * minute
    if second = 60 then pure ((start + 59, nano + 1000000000), cs)
    else pure ((start + second, nano), cs)

def twoDigits? : List Char → Option (Nat × List Char)
  | a :: b :: cs =>
    if a.isDigit && b.isDigit then some (Decimal.natOfDigits [a, b], cs) else none
  | _ => none

/-- Hours and minutes of an offset, in seconds. Any run of colons and blanks may part them. -/
def offset? (cs : List Char) : Option (Nat × List Char) := do
  let (hours, cs) ← twoDigits? cs
  let (minutes, cs) ← twoDigits? (cs.dropWhile fun c => c == ':' || Text.isBlank c)
  if 23 < hours ∨ 59 < minutes then none
  else pure (3600 * hours + 60 * minutes, cs)

/-- How far local time is ahead of UTC, in seconds. -/
def zone? : List Char → Option (Int × List Char)
  | 'Z' :: cs | 'z' :: cs => some (0, cs)
  | '+' :: cs => (offset? cs).map fun (n, rest) => ((n : Int), rest)
  | '-' :: cs | '\u2212' :: cs => (offset? cs).map fun (n, rest) => (-(n : Int), rest)
  | a :: b :: c :: cs =>
    if [a, b, c].map Char.toLower = ['u', 't', 'c'] then some (0, cs) else none
  | _ => none

end Reader

/-- Read a date, a `T` or space, a time of day with seconds, and an offset from UTC. -/
def ofChars? (cs : List Char) : Option Instant := do
  let (date, cs) ← Reader.date? cs
  match cs with
  | [] => none
  | c :: cs =>
    if c = 'T' ∨ c = 't' ∨ c = ' ' then
      let ((second, nano), cs) ← Reader.time? cs
      let (offset, cs) ← Reader.zone? (Text.trimStart cs)
      if (Text.trimStart cs).isEmpty then
        let (date, second) := date.shift second (-offset)
        ofParts? date second nano
      else none
    else none

def ofString? (s : String) : Option Instant :=
  ofChars? s.toList

/-! ## Writing -/

/-- The decimal digits of a number, with zeros in front up to `width` digits. -/
def padded (width n : Nat) : List Char :=
  let ds := Nat.toDigits 10 n
  List.replicate (width - ds.length) '0' ++ ds

/-- Four digits, and a sign if the year needs more or is before year zero. -/
def yearChars (y : Int) : List Char :=
  if y < 0 then '-' :: padded 4 y.natAbs
  else if 9999 < y then '+' :: padded 4 y.natAbs
  else padded 4 y.natAbs

def dateChars (d : Date) : List Char :=
  yearChars d.year ++ '-' :: (padded 2 d.month ++ '-' :: padded 2 d.day)

/-- A point and three, six or nine digits, the fewest that are exact, or nothing. -/
def fractionChars (nano : Nat) : List Char :=
  if nano = 0 then []
  else if nano % 1000000 = 0 then '.' :: padded 3 (nano / 1000000)
  else if nano % 1000 = 0 then '.' :: padded 6 (nano / 1000)
  else '.' :: padded 9 nano

def timeChars (second nano : Nat) : List Char :=
  let leap := nano / 1000000000
  padded 2 (second / 3600) ++ ':' :: (padded 2 (second / 60 % 60) ++
    ':' :: (padded 2 (second % 60 + leap) ++ fractionChars (nano % 1000000000)))

def chars (t : Instant) (zone : List Char) : List Char :=
  dateChars t.date ++ 'T' :: (timeChars t.second t.nano ++ zone)

/-- The instant with the zone written `Z`, as documents store it. -/
def stored (t : Instant) : String :=
  String.ofList (t.chars ['Z'])

/-- The instant with the zone written as an offset, as reports show it. -/
def shown (t : Instant) : String :=
  String.ofList (t.chars ['+', '0', '0', ':', '0', '0'])

/-- Date, hour and minute on a clock that is `offset` seconds ahead of UTC. -/
def localMinute (t : Instant) (offset : Int) : String :=
  let (date, second) := t.date.shift t.second offset
  String.ofList (dateChars date ++ ' ' :: (padded 2 (second / 3600) ++
    ':' :: padded 2 (second / 60 % 60)))

end Instant

end PostFilter
