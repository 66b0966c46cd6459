/-!
# Calendar dates

Dates of the proleptic Gregorian calendar, in any year.
-/

namespace PostFilter

def isLeapYear (year : Int) : Bool :=
  year % 4 == 0 && (year % 100 != 0 || year % 400 == 0)

def daysInMonth (year : Int) (month : Nat) : Nat :=
  match month with
  | 2 => if isLeapYear year then 29 else 28
  | 4 | 6 | 9 | 11 => 30
  | _ => 31

theorem daysInMonth_pos (year : Int) (month : Nat) : 1 ≤ daysInMonth year month := by
  unfold daysInMonth
  split <;> (try split) <;> decide

structure Date where
  year : Int
  month : Nat
  day : Nat
  month_pos : 1 ≤ month
  month_le : month ≤ 12
  day_pos : 1 ≤ day
  day_le : day ≤ daysInMonth year month
  deriving DecidableEq, Repr

namespace Date

/-- The date with the given parts, if there is one. -/
def ofParts? (year : Int) (month day : Nat) : Option Date :=
  if h : 1 ≤ month ∧ month ≤ 12 ∧ 1 ≤ day ∧ day ≤ daysInMonth year month then
    some ⟨year, month, day, h.1, h.2.1, h.2.2.1, h.2.2.2⟩
  else none

theorem ofParts?_parts (d : Date) : ofParts? d.year d.month d.day = some d := by
  have h := d
  cases d
  simp [ofParts?, *]

def next (d : Date) : Date :=
  if h : d.day < daysInMonth d.year d.month then
    ⟨d.year, d.month, d.day + 1, d.month_pos, d.month_le, by omega, h⟩
  else if h : d.month < 12 then
    ⟨d.year, d.month + 1, 1, by omega, h, Nat.le_refl 1, daysInMonth_pos d.year (d.month + 1)⟩
  else ⟨d.year + 1, 1, 1, by decide, by decide, Nat.le_refl 1, daysInMonth_pos (d.year + 1) 1⟩

def previous (d : Date) : Date :=
  if h : 1 < d.day then
    ⟨d.year, d.month, d.day - 1, d.month_pos, d.month_le, by omega,
      Nat.le_trans (Nat.sub_le d.day 1) d.day_le⟩
  else if h : 1 < d.month then
    ⟨d.year, d.month - 1, daysInMonth d.year (d.month - 1), by omega,
      Nat.le_trans (Nat.sub_le d.month 1) d.month_le, daysInMonth_pos d.year (d.month - 1),
      Nat.le_refl _⟩
  else ⟨d.year - 1, 12, 31, by decide, by decide, by decide, Nat.le_refl 31⟩

def secondsPerDay : Nat := 86400

/-- Move a time of day by less than a day in either direction, into the neighbouring date if need
be. -/
def shift (d : Date) (second : Nat) (offset : Int) : Date × Nat :=
  let moved := (second : Int) + offset
  if moved < 0 then (d.previous, (moved + secondsPerDay).toNat)
  else if moved < secondsPerDay then (d, moved.toNat)
  else (d.next, (moved - secondsPerDay).toNat)

end Date

end PostFilter
