import Mathlib
import PostFilter.Time.Instant

/-!
# Timestamps are read back

An instant is written in one way, with a year of four digits or a sign, a leap second as second
sixty, and no more fraction digits than it takes. Reading this text gives the same instant,
whichever year, leap second or fraction it has.
-/

namespace PostFilter.Instant

open Reader

/-! ## Padded numbers -/

section

variable {ds cs : List Char} {width n : Nat}

theorem isBlank_of_isDigit {c : Char} (h : c.isDigit = true) : Text.isBlank c = false := by
  have hrange : 48 ≤ c.toNat ∧ c.toNat ≤ 57 := by
    simpa [Char.isDigit, UInt32.le_iff_toNat_le] using h
  simp [Text.isBlank]
  omega

theorem trimStart_digits (h : ∀ d ∈ ds, d.isDigit = true) (hne : ds ≠ []) :
    Text.trimStart (ds ++ cs) = ds ++ cs := by
  cases ds with
  | nil => exact absurd rfl hne
  | cons d ds => simp [Text.trimStart, isBlank_of_isDigit (h d (by simp))]

theorem isDigit_of_mem_padded : ∀ d ∈ padded width n, d.isDigit = true := by
  intro d hd
  rcases List.mem_append.mp hd with hd | hd
  · obtain rfl := List.eq_of_mem_replicate hd
    rfl
  · exact Nat.isDigit_of_mem_toDigits (by decide) (by decide) hd

theorem padded_ne_nil : padded width n ≠ [] := by
  simp [padded, Nat.toDigits_ne_nil]

theorem length_padded (hwidth : 0 < width) (h : n < 10 ^ width) :
    (padded width n).length = width := by
  have hle := (Nat.length_toDigits_le_iff (b := 10) (by decide) hwidth).mpr h
  simp [padded]
  omega

theorem natOfDigits_padded (width n : Nat) : Decimal.natOfDigits (padded width n) = n := by
  change Nat.ofDigitChars 10 (padded width n) 0 = n
  simp [padded, Nat.ofDigitChars_append, Nat.ofDigitChars_replicate_zero,
    Nat.ofDigitChars_ten_toDigits]

/-- No more than `width` digits are taken, so these are all of them if what comes next is no digit
or too far away. -/
theorem takeWhile_take_digits (h : ∀ d ∈ ds, d.isDigit = true) (hle : ds.length ≤ width)
    (hstop : (cs.take (width - ds.length)).takeWhile Char.isDigit = []) :
    ((ds ++ cs).take width).takeWhile Char.isDigit = ds := by
  rw [List.take_append, List.take_of_length_le hle, List.takeWhile_append_of_pos h, hstop,
    List.append_nil]

theorem number?_digits (h : ∀ d ∈ ds, d.isDigit = true) (hne : ds ≠ []) (hle : ds.length ≤ width)
    (hstop : (cs.take (width - ds.length)).takeWhile Char.isDigit = []) :
    number? width (ds ++ cs) = some (Decimal.natOfDigits ds, cs) := by
  obtain ⟨d, ds, rfl⟩ := List.exists_cons_of_ne_nil hne
  simp only [number?, takeWhile_take_digits h hle hstop, List.drop_left]

/-- A number that fills its field is read whatever comes next. -/
theorem number?_padded (hwidth : 0 < width) (h : n < 10 ^ width) (cs : List Char) :
    number? width (padded width n ++ cs) = some (n, cs) := by
  have hlength := length_padded hwidth h
  rw [number?_digits isDigit_of_mem_padded padded_ne_nil (Nat.le_of_eq hlength)
    (by simp [hlength]), natOfDigits_padded]

end

/-! ## Dates -/

theorem year?_digits {d : Char} (hd : d.isDigit = true) (cs : List Char) :
    year? (d :: cs) = (number? 4 (d :: cs)).map fun (n, rest) => ((n : Int), rest) := by
  rw [year?]
  · rintro _ ⟨⟩
    simp at hd
  · rintro _ ⟨⟩
    simp at hd

theorem number?_year (n : Nat) (cs : List Char) :
    number? (padded 4 n ++ '-' :: cs).length (padded 4 n ++ '-' :: cs) = some (n, '-' :: cs) := by
  rw [number?_digits isDigit_of_mem_padded padded_ne_nil (by simp) (by simp [List.take_succ_cons]),
    natOfDigits_padded]

theorem year?_yearChars (y : Int) (cs : List Char) :
    year? (yearChars y ++ '-' :: cs) = some (y, '-' :: cs) := by
  unfold yearChars
  split
  · next h =>
    rw [List.cons_append, year?, number?_year]
    simp only [Option.map_some, Option.some.injEq, Prod.mk.injEq, and_true]
    omega
  · split
    · next h =>
      rw [List.cons_append, year?, number?_year]
      simp only [Option.map_some, Option.some.injEq, Prod.mk.injEq, and_true]
      omega
    · have hnumber := number?_padded (n := y.natAbs) (by decide : 0 < 4) (by omega) ('-' :: cs)
      obtain ⟨d, ds, hds⟩ : ∃ d ds, padded 4 y.natAbs = d :: ds :=
        List.exists_cons_of_ne_nil padded_ne_nil
      have hd : d.isDigit = true := isDigit_of_mem_padded d (hds ▸ List.mem_cons_self)
      rw [hds, List.cons_append] at hnumber ⊢
      rw [year?_digits hd, hnumber]
      simp only [Option.map_some, Option.some.injEq, Prod.mk.injEq, and_true]
      omega

theorem trimStart_padded (width n : Nat) (cs : List Char) :
    Text.trimStart (padded width n ++ cs) = padded width n ++ cs :=
  trimStart_digits isDigit_of_mem_padded padded_ne_nil

theorem trimStart_yearChars (y : Int) (cs : List Char) :
    Text.trimStart (yearChars y ++ cs) = yearChars y ++ cs := by
  unfold yearChars
  split
  · rfl
  · split
    · rfl
    · exact trimStart_padded 4 _ cs

theorem trimStart_symbol {c : Char} (h : Text.isBlank c = false) (cs : List Char) :
    Text.trimStart (c :: cs) = c :: cs := by
  simp [Text.trimStart, h]

theorem daysInMonth_le (year : Int) (month : Nat) : daysInMonth year month ≤ 31 := by
  unfold daysInMonth
  split <;> (try split) <;> decide

theorem date?_dateChars {d : Date} (h : d.isSupported = true) (cs : List Char) :
    date? (dateChars d ++ cs) = some (d, cs) := by
  have hmonth : d.month < 10 ^ 2 := Nat.lt_of_le_of_lt d.month_le (by decide)
  have hday : d.day < 10 ^ 2 :=
    Nat.lt_of_le_of_lt (d.day_le.trans (daysInMonth_le d.year d.month)) (by decide)
  have hdash : Text.isBlank '-' = false := by decide
  have hdate : (Date.ofParts? d.year d.month d.day).filter Date.isSupported = some d := by
    rw [Date.ofParts?_parts]
    simp [h]
  simp only [dateChars, List.append_assoc, List.cons_append]
  simp [date?, trimStart_yearChars, year?_yearChars, trimStart_symbol hdash, literal?,
    trimStart_padded, number?_padded (by decide) hmonth, number?_padded (by decide) hday, hdate]

/-! ## Times of day -/

/-- A fraction of `width` digits, up to a character that is none. -/
theorem fraction?_padded {c : Char} {width n : Nat} (hc : c.isDigit = false) (hpos : 0 < width)
    (hle : width ≤ 9) (h : n < 10 ^ width) (cs : List Char) :
    fraction? ('.' :: (padded width n ++ c :: cs)) = some (n * 10 ^ (9 - width), c :: cs) := by
  have hlength := length_padded hpos h
  have hstop : ((c :: cs).take (9 - (padded width n).length)).takeWhile Char.isDigit = [] := by
    cases 9 - (padded width n).length <;> simp [hc]
  have hdigits : ∀ d ∈ padded width n, d.isDigit = true := isDigit_of_mem_padded
  have htake := takeWhile_take_digits hdigits (hlength.trans_le hle) hstop
  have hdrop : (padded width n ++ c :: cs).dropWhile Char.isDigit = c :: cs := by
    rw [List.dropWhile_append_of_pos hdigits, List.dropWhile_cons_of_neg (by simp [hc])]
  obtain ⟨d, ds, hds⟩ : ∃ d ds, padded width n = d :: ds :=
    List.exists_cons_of_ne_nil padded_ne_nil
  rw [hds] at htake
  simp only [fraction?, hds, htake]
  rw [← hds, natOfDigits_padded, hlength, hdrop]
  rfl

theorem fraction?_fractionChars {c : Char} {n : Nat} (hc : c.isDigit = false) (hpoint : c ≠ '.')
    (h : n < 1000000000) (cs : List Char) :
    fraction? (fractionChars n ++ c :: cs) = some (n, c :: cs) := by
  unfold fractionChars
  split
  · next hzero => simp [fraction?, hpoint, hzero]
  · split
    · next hmilli =>
      rw [List.cons_append, fraction?_padded hc (by decide) (by decide) (by omega)]
      grind
    · split
      · next hmicro =>
        rw [List.cons_append, fraction?_padded hc (by decide) (by decide) (by omega)]
        grind
      · rw [List.cons_append, fraction?_padded hc (by decide) (by decide) (by omega)]
        simp

/-- A leap second is written as second sixty, and only the last second of a minute can have one. -/
theorem time?_timeChars {c : Char} {second nano : Nat} (hc : c.isDigit = false) (hpoint : c ≠ '.')
    (hsecond : second < 86400) (hnano : nano < 2000000000)
    (hleap : 1000000000 ≤ nano → second % 60 = 59) (cs : List Char) :
    time? (timeChars second nano ++ c :: cs) = some ((second, nano), c :: cs) := by
  have hcolon : Text.isBlank ':' = false := by decide
  have hhours : second / 3600 < 10 ^ 2 := by omega
  have hminutes : second / 60 % 60 < 10 ^ 2 := by omega
  have hseconds : second % 60 + nano / 1000000000 < 10 ^ 2 := by omega
  have hrange : ¬ (23 < second / 3600 ∨ 59 < second / 60 % 60 ∨
      60 < second % 60 + nano / 1000000000) := by omega
  simp only [timeChars, List.append_assoc, List.cons_append]
  simp only [time?, trimStart_padded, number?_padded (by decide) hhours,
    number?_padded (by decide) hminutes, number?_padded (by decide) hseconds,
    trimStart_symbol hcolon, literal?, if_true, Option.bind_eq_bind, Option.bind_some,
    fraction?_fractionChars hc hpoint (Nat.mod_lt nano (by decide)), if_neg hrange]
  by_cases h : 1000000000 ≤ nano
  · have hsixty : second % 60 + nano / 1000000000 = 60 := by omega
    simp only [hsixty, if_true]
    congr 3 <;> omega
  · have hless : second % 60 + nano / 1000000000 ≠ 60 := by omega
    simp only [hless, if_false]
    congr 3 <;> omega

/-! ## Instants -/

theorem ofParts?_parts (t : Instant) : ofParts? t.date t.second t.nano = some t := by
  have h : t.date.isSupported = true ∧ t.second < 86400 ∧ t.nano < 2000000000 ∧
      (1000000000 ≤ t.nano → t.second % 60 = 59) :=
    ⟨t.supported, t.second_lt, t.nano_lt, t.leap⟩
  rw [ofParts?, dif_pos h]

theorem shift_zero (d : Date) {second : Nat} (h : second < 86400) :
    d.shift second 0 = (d, second) := by
  have hnonneg : ¬ (second : Int) + 0 < 0 := by omega
  have hday : (second : Int) + 0 < Date.secondsPerDay := by
    simp only [Date.secondsPerDay]
    omega
  simp only [Date.shift, if_neg hnonneg, if_pos hday]
  simp

/-- A date, a time of day and an offset, each read up to the next, make up the instant. -/
theorem ofChars?_eq {cs cs₁ cs₂ : List Char} {d : Date} {second nano : Nat} {offset : Int}
    (hdate : date? cs = some (d, 'T' :: cs₁)) (htime : time? cs₁ = some ((second, nano), cs₂))
    (hzone : zone? (Text.trimStart cs₂) = some (offset, [])) :
    ofChars? cs =
      ofParts? (d.shift second (-offset)).1 (d.shift second (-offset)).2 nano := by
  have hend : (Text.trimStart []).isEmpty = true := rfl
  simp only [ofChars?, hdate, htime, hzone, hend, Option.bind_eq_bind, Option.bind_some, true_or,
    if_true]

/-- Reading is inverse to writing. -/
theorem ofString?_stored (t : Instant) : ofString? t.stored = some t := by
  have hdate := date?_dateChars t.supported ('T' :: (timeChars t.second t.nano ++ ['Z']))
  have htime := time?_timeChars (c := 'Z') (by decide) (by decide) t.second_lt t.nano_lt t.leap []
  have hzone : zone? (Text.trimStart ['Z']) = some (0, []) := rfl
  rw [ofString?, stored, String.toList_ofList, chars, ofChars?_eq hdate htime hzone, neg_zero,
    shift_zero t.date t.second_lt, ofParts?_parts]

end PostFilter.Instant
